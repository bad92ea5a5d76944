import PaymentService.ChargeDetails
import PaymentService.Filters.Exceptions
import PaymentService.Logger.Interceptor

/-!
# Request bodies

The bodies of `POST /payment/pay` and `POST /payment/charge` are read as instances of a class, and
the decorators of its properties say what the properties have to be. A pipe in front of the handlers
lists the errors of a body, and a body with errors comes no further.

The decorators and the pipe are library code. A decorator asks what its documentation says it asks,
and a `Pipe` is whatever finds an error exactly where a property is not as it should be. So the
instance of a body that has passed has the types that its class declares.
-/

namespace PaymentService

/-! ## Decorators -/

/-- The decorators that the classes of requests use. -/
inductive Decorator
  | isOptional | isNotEmpty | isString | isNumber
  deriving DecidableEq

/-- The value is as the decorator says. -/
def Decorator.holds : Decorator → Js → Bool
  | isOptional, _ => true
  | isNotEmpty, v => !v.nullish && !v.isStr ""
  | isString, .str _ => true
  | isString, _ => false
  | isNumber, .num _ => true
  | isNumber, _ => false

/-- The properties of a class that have decorators, with these. -/
abbrev Decorators : Type := List (String × List Decorator)

/-- The value is as all decorators of a property say, or it is missing and need not be there. -/
def conforms (decorators : List Decorator) (v : Js) : Bool :=
  (decorators.contains .isOptional && v.nullish) || decorators.all (·.holds v)

/-- Every property of a body is as its decorators say. A body that is no object has no properties. -/
def Decorators.Conforms (decorators : Decorators) (body : Js) : Prop :=
  ∀ property ∈ decorators, conforms property.2 (body.prop property.1) = true

instance (decorators : Decorators) (body : Js) : Decidable (decorators.Conforms body) :=
  inferInstanceAs (Decidable (∀ property ∈ decorators, _))

/-! ## The pipe -/

structure ValidationError where
  target : Js
  value : Js
  property : String
  constraints : List (String × String)

def ValidationError.toJs (error : ValidationError) : Js :=
  .obj
    [("target", error.target), ("value", error.value), ("property", .str error.property),
      ("children", .arr []),
      ("constraints", .obj (error.constraints.map fun (name, text) ↦ (name, .str text)))]

/-- `ValidationPipe`, as `main` configures it. -/
structure Pipe where
  validate : Decorators → Js → List ValidationError
  valid_iff : ∀ decorators body, validate decorators body = [] ↔ decorators.Conforms body

/-- The instance of a body, or its errors. -/
def Pipe.transform {α : Type} (pipe : Pipe) (decorators : Decorators) (ofBody : Js → Option α)
    (body : Js) : Except (List ValidationError) α :=
  match pipe.validate decorators body, ofBody body with
  | [], some instance_ => .ok instance_
  | errors, _ => .error errors

theorem Pipe.transform_cases {α : Type} (pipe : Pipe) {decorators : Decorators}
    {ofBody : Js → Option α} {body : Js}
    (htyped : decorators.Conforms body → (ofBody body).isSome = true) :
    (decorators.Conforms body ∧ ∃ a, ofBody body = some a ∧
        pipe.transform decorators ofBody body = .ok a) ∨
      (¬decorators.Conforms body ∧ ∃ errors ≠ [],
        pipe.transform decorators ofBody body = .error errors) := by
  by_cases hconforms : decorators.Conforms body
  · obtain ⟨a, ha⟩ := Option.isSome_iff_exists.mp (htyped hconforms)
    have hnone := (pipe.valid_iff decorators body).mpr hconforms
    exact Or.inl ⟨hconforms, a, ha, by rw [transform, hnone, ha]⟩
  · have herrors : pipe.validate decorators body ≠ [] := fun h ↦
      hconforms ((pipe.valid_iff decorators body).mp h)
    refine Or.inr ⟨hconforms, pipe.validate decorators body, herrors, ?_⟩
    unfold transform
    split
    · next hnone _ => exact absurd hnone herrors
    · rfl

/-! ## The requests -/

namespace PaymentPayRequest

def decorators : Decorators :=
  [("description", [.isOptional, .isString]), ("productId", [.isNotEmpty, .isNumber]),
    ("paymentType", [.isNotEmpty, .isString])]

/-- The instance of a body whose properties have the types of the class. -/
def ofBody (body : Js) : Option PaymentPayRequest :=
  match body.prop "productId", body.prop "paymentType" with
  | .num productId, .str paymentType =>
    some
      { description := match body.prop "description" with
          | .str description => some description
          | _ => none
        productId, paymentType }
  | _, _ => none

end PaymentPayRequest

structure PaymentChargeRequest where
  txId : String
  source : String

namespace PaymentChargeRequest

def decorators : Decorators :=
  [("txId", [.isNotEmpty, .isString]), ("source", [.isNotEmpty, .isString])]

def ofBody (body : Js) : Option PaymentChargeRequest :=
  match body.prop "txId", body.prop "source" with
  | .str txId, .str source => some { txId, source }
  | _, _ => none

end PaymentChargeRequest

theorem exists_of_conforms_isString {v : Js} :
    conforms [.isNotEmpty, .isString] v = true ↔ ∃ s, v = .str s ∧ s ≠ "" := by
  match v with
  | .str s => simp [conforms, Decorator.holds, Js.nullish, Js.isStr]
  | .undefined | .null | .bool _ | .num _ | .arr _ | .obj _ =>
    simp [conforms, Decorator.holds]

theorem exists_of_conforms_isNumber {v : Js} :
    conforms [.isNotEmpty, .isNumber] v = true ↔ ∃ q, v = .num q := by
  match v with
  | .num q => simp [conforms, Decorator.holds, Js.nullish, Js.isStr]
  | .undefined | .null | .bool _ | .str _ | .arr _ | .obj _ =>
    simp [conforms, Decorator.holds]

theorem PaymentPayRequest.isSome_of_conforms {body : Js} (h : decorators.Conforms body) :
    (ofBody body).isSome = true := by
  obtain ⟨productId, hproduct⟩ := exists_of_conforms_isNumber.mp (h ("productId", _) (by decide))
  obtain ⟨paymentType, htype, -⟩ := exists_of_conforms_isString.mp (h ("paymentType", _) (by decide))
  rw [ofBody, hproduct, htype]
  rfl

theorem PaymentChargeRequest.isSome_of_conforms {body : Js} (h : decorators.Conforms body) :
    (ofBody body).isSome = true := by
  obtain ⟨txId, htxId, -⟩ := exists_of_conforms_isString.mp (h ("txId", _) (by decide))
  obtain ⟨source, hsource, -⟩ := exists_of_conforms_isString.mp (h ("source", _) (by decide))
  rw [ofBody, htxId, hsource]
  rfl

/-! ## What is thrown -/

section Thrown

variable (print : ℚ → String)

/-- ``Validate ${error.property} has wrong value ${JSON.stringify(error.value)}``. -/
def ValidationError.text (error : ValidationError) : String :=
  "Validate " ++ error.property ++ " has wrong value " ++
    (Js.stringify print "" error.value).getD "undefined"

/-- The own properties of an exception of the framework. -/
def httpExceptionProperties (response : Js) (status : ℕ) (message name : String) :
    List (String × Property) :=
  [("response", .data response), ("status", .data (.num status)), ("options", .data (.obj [])),
    ("message", .data (.str message)), ("name", .data (.str name))]

/-- A `ValidationException` as an object of the running program. -/
def validationException (validationErrors : List ValidationError) : Loggable :=
  .object <|
    httpExceptionProperties
        (.obj [("statusCode", .num 400),
          ("message", .arr (validationErrors.map fun error ↦ .str (error.text print))),
          ("error", .str "Bad Request")])
        400 "Validation Exception" "ValidationException" ++
      [("validationErrors", .data (.arr (validationErrors.map ValidationError.toJs)))]

/-- What comes of a request that is not handled to its end. -/
inductive HttpFailure
  | validation (errors : List ValidationError)
  | thrown (e : JsError)

/-- The exception as the filter sees it. Of an error it only uses the text, and only in the log. -/
def HttpFailure.exception : HttpFailure → Exception
  | validation errors => .validation (validationException print errors)
  | thrown (.httpException message status) => .http status (.data (.str message))
  | thrown (.error message) => .other (.object (some ("Error: " ++ message)))
  | thrown .typeError => .other (.object (some "TypeError"))
  | thrown .rejected => .other (.object (some "Error"))

/-- The exception as the logger sees it. What a call is rejected with is up to the client library. -/
def HttpFailure.loggable (rejection : Loggable) : HttpFailure → Loggable
  | validation errors => validationException print errors
  | thrown (.httpException message status) =>
    .object (httpExceptionProperties (.str message) status message "HttpException")
  | thrown (.error _) => .object []
  | thrown .typeError => .object []
  | thrown .rejected => rejection

/-- The logger can write everything that is thrown, but for what a call is rejected with. -/
theorem HttpFailure.harmless {failure : HttpFailure} {rejection : Loggable}
    (h : failure ≠ .thrown .rejected) : (failure.loggable print rejection).Harmless := by
  have hkeys : ∀ key ∈ ["response", "status", "options", "message", "name", "validationErrors"],
      isCidKey key = false := by decide
  have hproperties : ∀ properties : List (String × Property),
      (∀ property ∈ properties, isCidKey property.1 = false ∧ property.2 ≠ .cyclic) →
        (Loggable.object properties).Harmless := by
    intro properties hall property hproperty
    obtain ⟨hcid, hdata⟩ := hall property hproperty
    exact ⟨fun h ↦ absurd h (by rw [hcid]; decide), fun h ↦ absurd h hdata⟩
  match failure with
  | validation errors =>
    refine hproperties _ ?_
    simp [httpExceptionProperties, hkeys]
  | thrown (.httpException message status) =>
    refine hproperties _ ?_
    simp [httpExceptionProperties, hkeys]
  | thrown (.error message) => exact hproperties [] fun _ h ↦ absurd h List.not_mem_nil
  | thrown .typeError => exact hproperties [] fun _ h ↦ absurd h List.not_mem_nil
  | thrown .rejected => exact absurd rfl h

end Thrown

end PaymentService
