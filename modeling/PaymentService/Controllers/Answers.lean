import PaymentService.Async.Outcomes
import PaymentService.Controllers.Http
import PaymentService.Phases

/-!
# What a client is answered

Every request is answered once: with the value of the handler and the status of success, with one of
the two statuses of failure, or with the text of what was not found. `Sent` says which of them goes
with what the handler has come to. The logging interceptor stands in between, so a request that could
not be logged is answered as a technical failure, whatever the handler has done.

From its answer a client can tell three things. A request that was refused has not been handled at
all. An order that was answered with its identifier is stored as it was asked for, and stays so. And
whoever asks for it afterwards finds it.
-/

namespace PaymentService

open Async

/-! ## Logging what the handler has come to -/

namespace LoggerInterceptor

theorem intercept_of_not_unobtrusive {format : LogFormat} {req : HttpRequest} {statusCode : ℕ}
    {startTime : Date} {outcome : Except Loggable Js} (lines : List String) (logger : CustomLogger)
    (onNext onError : Moment) (h : ¬Unobtrusive req outcome) :
    ((intercept patterns format req statusCode startTime ⟨outcome.mapError .thrown, lines⟩
      logger).2 onNext onError).result = .error .typeError := by
  rcases outcome with e | value
  · rw [Except.mapError, intercept_of_error]
    rcases log_cases (Failure.thrown e).loggable onError with ⟨hbody, he, -⟩ | ⟨-, hlog⟩
    · exact absurd ⟨hbody, he⟩ h
    · rw [Emission.after, hlog]
  · rw [Except.mapError]
    rcases hhealth : Js.includes req.url "health" with _ | _
    · rw [intercept_of_value hhealth]
      rcases log_cases (.data value) onNext with ⟨hbody, hvalue, -⟩ | ⟨-, hlog⟩
      · exact absurd (Or.inr ⟨hbody, hvalue⟩) h
      · rw [hlog]
        exact after_typeError _ _
    · exact absurd (Or.inl hhealth) h

end LoggerInterceptor

section Logged

variable (app : Application) (x : Exchange)

/-- What the logger sees of what the handler has come to. -/
def Exchange.seen (handled : Except HttpFailure Js) : Except Loggable Js :=
  handled.mapError fun failure ↦ failure.loggable app.env.printNumber x.rejection

/-- The request can be logged with what the handler has come to. -/
def Exchange.CanLog (handled : Except HttpFailure Js) : Prop :=
  LoggerInterceptor.Unobtrusive x.intercepted (x.seen app handled)

theorem Exchange.logged_cases (handled : Except HttpFailure Js) :
    (x.CanLog app handled ∧
        x.logged app handled = handled.mapError (·.exception app.env.printNumber)) ∨
      (¬x.CanLog app handled ∧
        x.logged app handled =
          .error ((HttpFailure.thrown .typeError).exception app.env.printNumber)) := by
  have hseen : (handled.mapError fun failure ↦
      Failure.thrown (failure.loggable app.env.printNumber x.rejection)) =
        (x.seen app handled).mapError .thrown := by
    match handled with
    | .ok value => rfl
    | .error failure => rfl
  by_cases hloggable : x.CanLog app handled
  · have hresult := (LoggerInterceptor.transparent_iff app.format x.intercepted 200 x.startTime
      (x.seen app handled) [] x.logger x.onNext x.onError).mpr hloggable
    refine Or.inl ⟨hloggable, ?_⟩
    rw [logged, hseen, hresult]
    match handled with
    | .ok value => rfl
    | .error failure => rfl
  · refine Or.inr ⟨hloggable, ?_⟩
    rw [logged, hseen,
      LoggerInterceptor.intercept_of_not_unobtrusive [] x.logger x.onNext x.onError hloggable]
    rfl

end Logged

/-! ## The statuses -/

section Statuses

variable (app : Application) (x : Exchange)

theorem Exchange.language_cases : x.language = some "EN" ∨ x.language = some "TH" := by
  have hmem : (HttpHeaderInterceptor.intercept x.acceptLanguage).1 ∈ ACCEPT_LANGUAGE_LIST := by
    unfold HttpHeaderInterceptor.intercept
    split
    · decide
    · dsimp only
      split
      · decide
      · split
        · next hmem => exact hmem
        · decide
  rcases List.mem_cons.mp hmem with h | h
  · exact Or.inl (congrArg some h)
  · exact Or.inr (congrArg some (List.mem_singleton.mp h))

/-- A value of the language, when there is one. -/
def valueOf : Except LanguageError Js → Js
  | .ok value => value
  | .error _ => .undefined

/-- The status of a code, in the language of the responses. -/
def Exchange.status (code : ℚ) : Js :=
  valueOf (LookupUtil.getLookup app.env.printNumber (.num code) x.language)

theorem Exchange.getLookup_eq (code : ℚ) :
    LookupUtil.getLookup app.env.printNumber (.num code) x.language = .ok (x.status app code) := by
  obtain ⟨status, hstatus⟩ := getLookup_of_known app.env.printNumber
    (Js.isSome_text_num app.env.printNumber code) (knownLanguage_intercepted x.acceptLanguage)
  have hlanguage : LookupUtil.getLookup app.env.printNumber (.num code) x.language = .ok status :=
    hstatus
  rw [Exchange.status, hlanguage, valueOf]

theorem Exchange.code_status {code : ℚ}
    (hcode : code ∈ [CODE_SUCCESS, CODE_BUSINESS_ERROR, CODE_TECHNICAL_ERROR]) :
    (x.status app code).prop "code" = .num code := by
  obtain ⟨text, hprints, hlookup⟩ : ∃ text, app.env.printNumber code = text ∧
      (code, text) ∈ [(CODE_SUCCESS, "1000"), (CODE_BUSINESS_ERROR, "1899"),
        (CODE_TECHNICAL_ERROR, "1999")] := by
    simp only [List.mem_cons, List.not_mem_nil, or_false] at hcode
    rcases hcode with rfl | rfl | rfl
    · exact ⟨"1000", app.prints (CODE_SUCCESS, "1000") (by simp), by simp⟩
    · exact ⟨"1899", app.prints (CODE_BUSINESS_ERROR, "1899") (by simp), by simp⟩
    · exact ⟨"1999", app.prints (CODE_TECHNICAL_ERROR, "1999") (by simp), by simp⟩
  simp only [List.mem_cons, Prod.mk.injEq, List.not_mem_nil, or_false] at hlookup
  simp only [status, LookupUtil.getLookup, LookupUtil.read, Js.text_num, hprints]
  rcases x.language_cases with hlanguage | hlanguage <;> rw [hlanguage] <;>
    rcases hlookup with ⟨rfl, rfl⟩ | ⟨rfl, rfl⟩ | ⟨rfl, rfl⟩ <;> rfl

end Statuses

/-! ## What is sent -/

/-- The interceptor does not take the value for a response that has a status already. -/
def Plain (v : Js) : Prop := ((v.prop "status").prop "code").truthy = false

/-- `data ? data : null`. -/
def orNull (v : Js) : Js := if v.truthy then v else .null

/-- A status and what goes with it. -/
def envelope (status data : Js) : Loggable := .data (.obj [("status", status), ("data", data)])

/-- What is sent when the handler has come to a value or a failure. -/
inductive Sent (app : Application) (x : Exchange) : Except HttpFailure Js → Loggable → Prop
  | success {value : Js} (h : x.CanLog app (.ok value)) :
    Sent app x (.ok value) (envelope (x.status app CODE_SUCCESS) (orNull value))
  | refused {errors : List ValidationError} (h : x.CanLog app (.error (.validation errors))) :
    Sent app x (.error (.validation errors)) (envelope (x.status app CODE_BUSINESS_ERROR) .null)
  | notFound {message : String}
    (h : x.CanLog app (.error (.thrown (.httpException message 404)))) :
    Sent app x (.error (.thrown (.httpException message 404))) (.data (.str message))
  | failed {e : JsError} (h : x.CanLog app (.error (.thrown e)))
    (hfound : ∀ message, e ≠ .httpException message 404) :
    Sent app x (.error (.thrown e)) (envelope (x.status app CODE_TECHNICAL_ERROR) .null)
  | unlogged {handled : Except HttpFailure Js} (h : ¬x.CanLog app handled) :
    Sent app x handled (envelope (x.status app CODE_TECHNICAL_ERROR) .null)

section Caught

variable (app : Application) (x : Exchange)

theorem Exchange.caught_validation (errors : List ValidationError) :
    x.caught app ((HttpFailure.validation errors).exception app.env.printNumber) =
      (.ok (), [envelope (x.status app CODE_BUSINESS_ERROR) .null]) := by
  have hlookup := x.getLookup_eq app CODE_BUSINESS_ERROR
  simp only [caught, HttpFailure.exception, AllExceptionsFilter.catch, hlookup]
  rfl

/-- An exception of the framework is answered with its text when it is one of 404, and as a technical
failure otherwise. -/
theorem Exchange.caught_httpException (message : String) {status : ℕ} (h : status ≠ 200) :
    x.caught app ((HttpFailure.thrown (.httpException message status)).exception app.env.printNumber) =
      (.ok (), [if status = 404 then .data (.str message)
        else envelope (x.status app CODE_TECHNICAL_ERROR) .null]) := by
  have hlookup := x.getLookup_eq app CODE_TECHNICAL_ERROR
  have hnot : ¬((status : ℚ) = 200) := by exact_mod_cast h
  have hiff : ((status : ℚ) = 404) ↔ status = 404 := by exact_mod_cast Iff.rfl
  simp only [caught, HttpFailure.exception, AllExceptionsFilter.catch,
    AllExceptionsFilter.catchHttp, hlookup, hnot, hiff, if_false]
  split <;> rfl

theorem Exchange.caught_other {e : JsError} (h : ∀ message status, e ≠ .httpException message status) :
    x.caught app ((HttpFailure.thrown e).exception app.env.printNumber) =
      (.ok (), [envelope (x.status app CODE_TECHNICAL_ERROR) .null]) := by
  have hlookup := x.getLookup_eq app CODE_TECHNICAL_ERROR
  match e with
  | .httpException message status => exact absurd rfl (h message status)
  | .error message =>
    simp only [caught, HttpFailure.exception, AllExceptionsFilter.catch, hlookup]
    rfl
  | .typeError =>
    simp only [caught, HttpFailure.exception, AllExceptionsFilter.catch, hlookup]
    rfl
  | .rejected =>
    simp only [caught, HttpFailure.exception, AllExceptionsFilter.catch, hlookup]
    rfl

variable {app x}

theorem Exchange.respond_of_ok {status value : Js} {handled : Except HttpFailure Js}
    (h : x.logged app handled = .ok value) :
    x.respond app status handled = (.ok (), [.data (HttpHeaderInterceptor.map status value)]) := by
  rw [respond, h]

theorem Exchange.respond_of_error {status : Js} {handled : Except HttpFailure Js}
    {exception : Exception} (h : x.logged app handled = .error exception) :
    x.respond app status handled = x.caught app exception := by
  rw [respond, h]

end Caught

/-! ## What is thrown -/

/-- The error is no exception with the status of a success. -/
def NoSuccess (e : JsError) : Prop := ∀ message, e ≠ .httpException message 200

/-- A call that fails is rejected. -/
def Rejects (c : Call) (r : Except JsError c.Reply) : Prop := ∀ e, r = .error e → e = .rejected

theorem rejects_perform (env : Env) (w : World) (c : Call) (o : Choice) :
    Rejects c (perform env w c o).1 := by
  intro e h
  rcases perform_cases env w c o with ⟨heq, -⟩ | ⟨value, w', -, -, heq⟩
  · rw [heq] at h
    exact (Except.error.inj h).symm
  · rw [heq] at h
    cases h

section NoSuccess

variable {env : Env}

private theorem noSuccess_rejected {c : Call} (e : JsError) (h : Rejects c (.error e)) :
    NoSuccess e := by
  rw [h e rfl]
  exact fun _ h ↦ by cases h

private theorem noSuccess_httpException {message : String} {status : ℕ} (h : status ≠ 200) :
    NoSuccess (.httpException message status) := by
  intro _ heq
  exact h (JsError.httpException.inj heq).2

private theorem noSuccess_typeError : NoSuccess .typeError := fun _ h ↦ by cases h

private theorem ends_pay (userRefId : Option String) (productId : ℚ) (paymentType : String) :
    Ends Rejects (fun _ ↦ True) NoSuccess
      (createPaymentTransaction env userRefId productId paymentType) := by
  refine Ends.bind (V := fun _ ↦ True) ?_ fun found _ ↦ ?_
  · exact Ends.tryCatch (F := fun _ ↦ True) (ends_call fun _ _ ↦ trivial) fun _ _ ↦
      noSuccess_httpException (by decide)
  · exact Ends.bind (ends_call noSuccess_rejected) fun _ _ ↦ trivial

private theorem ends_charge (txId source : String) :
    Ends Rejects (fun _ ↦ True) NoSuccess (charge env txId source) := by
  refine Ends.bind (V := fun _ ↦ True) ?_ fun type _ ↦ ?_
  · exact findPaymentTypeFromSourceId_elim (fun _ ↦ trivial) fun _ _ ↦ trivial
  split
  · refine Ends.bind (ends_call noSuccess_rejected) fun found _ ↦ ?_
    refine Ends.bind (ends_orThrow noSuccess_typeError _) fun productId _ ↦ ?_
    refine Ends.bind (ends_call noSuccess_rejected) fun created _ ↦ ?_
    refine Ends.bind (V := fun _ ↦ True) ?_ fun _ _ ↦ trivial
    exact Ends.bind (ends_call noSuccess_rejected) fun _ _ ↦ trivial
  · exact noSuccess_httpException (by decide)

private theorem ends_validateChargeEvent (chargeId : Js) (agent : Option String) (eventKey : Js) :
    Ends Rejects (fun _ ↦ True) NoSuccess
      (CallbackService.validateChargeEvent env chargeId agent eventKey) := by
  have hrefused : ∀ message : String, Ends Rejects (fun _ ↦ True) NoSuccess
      (throw (.httpException message 400) : Program Unit) :=
    fun message ↦ noSuccess_httpException (by decide)
  unfold CallbackService.validateChargeEvent
  split
  · exact hrefused _
  split
  · exact hrefused _
  split
  · exact hrefused _
  split
  · exact hrefused _
  split
  · dsimp only
    split
    · exact hrefused _
    split
    · exact hrefused _
    split
    · exact hrefused _
    refine Ends.tryCatch (F := fun _ ↦ True) ?_ fun _ _ ↦ ?_
    · exact Ends.bind (ends_call fun _ _ ↦ trivial) fun _ _ ↦ trivial
    · refine Ends.bind (ends_orThrow noSuccess_typeError _) fun text _ ↦ ?_
      exact noSuccess_httpException (by decide)
  · exact noSuccess_typeError

theorem ends_program (env : Env) (q : Request) :
    Ends Rejects (fun _ ↦ True) NoSuccess (program env q) := by
  match q with
  | .pay userRefId productId paymentType =>
    exact Ends.bind (ends_pay userRefId productId paymentType) fun _ _ ↦ trivial
  | .charge txId source => exact Ends.bind (ends_charge txId source) fun _ _ ↦ trivial
  | .omiseCallback body headers =>
    refine Ends.bind (V := fun _ ↦ True) ?_ fun _ _ ↦ trivial
    unfold CallbackController.handleOmiseCallBack
    split
    · refine Ends.bind (ends_validateChargeEvent _ _ _) fun _ _ ↦ ?_
      -- Whatever is thrown later is caught.
      exact Ends.tryCatch (F := fun _ ↦ True)
        (ends_of_forall (fun _ ↦ trivial) (fun _ ↦ trivial) _) fun _ _ ↦ trivial
    · trivial

end NoSuccess

/-! ## What an answer is -/

/-- The code of the status that is sent. -/
def Loggable.code : Loggable → Js
  | .data v => (v.prop "status").prop "code"
  | .object _ => .undefined

/-- The language that was sent is neither missing nor supported. -/
def Exchange.Unsupported (x : Exchange) : Prop :=
  ∃ language, x.acceptLanguage = some language ∧ language ≠ "" ∧
    String.ofList (language.toList.map Char.toUpper) ∉ ACCEPT_LANGUAGE_LIST

/-- What the handler of a route can come to. -/
inductive Handled (app : Application) : Handling → Except HttpFailure Js → Prop
  | throws (failure : HttpFailure) : Handled app (.throws failure) (.error failure)
  | request {q : Request} (r : Except JsError Response) :
    Handled app (.request q) (handledOf (Response.toJs app.format) r)
  | findTransactionById {id : String}
    (r : Except JsError (Option (TransactionStatus × List TransactionLog))) :
    Handled app (.findTransactionById id) (handledOf (foundToJs app.format) r)
  | findTransactionsByUserRefId {userRefId : String} {offset limit : Js}
    (r : Except JsError (List (TransactionStatus × List TransactionLog))) :
    Handled app (.findTransactionsByUserRefId userRefId offset limit)
      (handledOf (listToJs app.format) r)

/-- One response has been sent: the refusal of the language, or what goes with what the handler has
come to. -/
def Exchange.Answered (app : Application) (x : Exchange) (answer : Answer) : Prop :=
  ∃ body, answer = (.ok (), [body]) ∧
    ((x.Unsupported ∧ body = envelope (x.status app CODE_BUSINESS_ERROR) .null) ∨
      ¬x.Unsupported ∧ ∃ handled, Handled app (x.route.handle app.pipe x.intercepted) handled ∧
        Sent app x handled body)

section Answered

variable (app : Application) (x : Exchange)

theorem Exchange.admitted_cases :
    (x.Unsupported ∧ ∃ exception, x.admitted app = .error exception ∧
        x.caught app exception = (.ok (), [envelope (x.status app CODE_BUSINESS_ERROR) .null])) ∨
      ¬x.Unsupported ∧ x.admitted app = .ok (x.status app CODE_SUCCESS) := by
  have hlookup := x.getLookup_eq app CODE_SUCCESS
  by_cases h : x.Unsupported
  · obtain ⟨language, hlanguage, hempty, hmem⟩ := h
    have hthrown : (HttpHeaderInterceptor.intercept x.acceptLanguage).2 =
        some (.http 200 (.data (.obj [("status", .num CODE_BUSINESS_ERROR)]))) := by
      rw [hlanguage]
      simp only [HttpHeaderInterceptor.intercept, hempty, hmem, if_false]
    have hadmitted : x.admitted app =
        .error (.http 200 (.data (.obj [("status", .num CODE_BUSINESS_ERROR)]))) := by
      simp only [admitted, hthrown]
    refine Or.inl ⟨⟨language, hlanguage, hempty, hmem⟩, _, hadmitted, ?_⟩
    have hbusiness := x.getLookup_eq app CODE_BUSINESS_ERROR
    have hgiven : AllExceptionsFilter.givenStatus app.env.printNumber
        (.obj [("status", .num CODE_BUSINESS_ERROR)]) x.language =
          .ok (x.status app CODE_BUSINESS_ERROR) := by
      have hproperty : getProperty (.obj [("status", .num CODE_BUSINESS_ERROR)]) "status" =
          .ok (.num CODE_BUSINESS_ERROR) := rfl
      simp only [AllExceptionsFilter.givenStatus, hproperty, bind, Except.bind, Js.isNaN, hbusiness]
    have hreparse : (Loggable.data (.obj [("status", .num CODE_BUSINESS_ERROR)])).reparse =
        .ok (.obj [("status", .num CODE_BUSINESS_ERROR)]) := rfl
    rw [caught, AllExceptionsFilter.catch,
      AllExceptionsFilter.catchHttp_of_reparse app.env.printNumber hreparse, if_pos rfl, hgiven]
    rfl
  · have hpassed : (HttpHeaderInterceptor.intercept x.acceptLanguage).2 = none := by
      rcases hlanguage : x.acceptLanguage with _ | language
      · rfl
      · by_cases hempty : language = ""
        · simp only [HttpHeaderInterceptor.intercept, hempty, if_true]
        · have hmem : String.ofList (language.toList.map Char.toUpper) ∈ ACCEPT_LANGUAGE_LIST := by
            by_contra hmem
            exact h ⟨language, hlanguage, hempty, hmem⟩
          simp only [HttpHeaderInterceptor.intercept, hempty, hmem, if_false, if_true]
    refine Or.inr ⟨h, ?_⟩
    rw [admitted, hpassed, hlookup]

theorem map_of_plain {status value : Js} (h : Plain value) :
    Loggable.data (HttpHeaderInterceptor.map status value) = envelope status (orNull value) := by
  have hnot : ((value.prop "status").prop "code").truthy = false := h
  simp only [HttpHeaderInterceptor.map, hnot, orNull, envelope]
  match value.truthy with
  | true => rfl
  | false => rfl

theorem Exchange.respond_sent {handled : Except HttpFailure Js}
    (hplain : ∀ value, handled = .ok value → Plain value)
    (herror : ∀ e, handled = .error (.thrown e) → NoSuccess e) :
    ∃ body, x.respond app (x.status app CODE_SUCCESS) handled = (.ok (), [body]) ∧
      Sent app x handled body := by
  rcases x.logged_cases app handled with ⟨hloggable, hlogged⟩ | ⟨hloggable, hlogged⟩
  · match handled with
    | .ok value =>
      rw [respond_of_ok hlogged, map_of_plain (hplain value rfl)]
      exact ⟨_, rfl, .success hloggable⟩
    | .error (.validation errors) =>
      rw [respond_of_error hlogged, x.caught_validation app errors]
      exact ⟨_, rfl, .refused hloggable⟩
    | .error (.thrown e) =>
      rw [respond_of_error hlogged]
      by_cases hhttp : ∃ message status, e = .httpException message status
      · obtain ⟨message, status, rfl⟩ := hhttp
        have hstatus : status ≠ 200 := fun h ↦ herror _ rfl message (by rw [h])
        rw [x.caught_httpException app message hstatus]
        refine ⟨_, rfl, ?_⟩
        split
        · next h404 =>
          subst h404
          exact .notFound hloggable
        · next h404 => exact .failed hloggable fun _ h ↦ h404 (JsError.httpException.inj h).2
      · push Not at hhttp
        rw [x.caught_other app hhttp]
        exact ⟨_, rfl, .failed hloggable fun message ↦ hhttp message 404⟩
  · rw [respond_of_error hlogged, x.caught_other app fun _ _ h ↦ by cases h]
    exact ⟨_, rfl, .unlogged hloggable⟩

end Answered

/-! ## Every program ends with an answer -/

section Ends

variable (app : Application) (x : Exchange)

theorem plain_response (format : LogFormat) (response : Response) : Plain (response.toJs format) := by
  match response with
  | .transaction id => rfl
  | .charged response => rfl
  | .received => rfl

theorem plain_found (format : LogFormat) (found : Option (TransactionStatus × List TransactionLog)) :
    Plain (foundToJs format found) := by
  match found with
  | none => rfl
  | some (row, logs) => rfl

theorem plain_list (format : LogFormat) (found : List (TransactionStatus × List TransactionLog)) :
    Plain (listToJs format found) := rfl

theorem Exchange.respond_handledOf {α : Type} {toJs : α → Js} (hplain : ∀ a, Plain (toJs a))
    {r : Except JsError α} (herror : ∀ e, r = .error e → NoSuccess e) :
    ∃ body, x.respond app (x.status app CODE_SUCCESS) (handledOf toJs r) = (.ok (), [body]) ∧
      Sent app x (handledOf toJs r) body := by
  match r with
  | .ok a =>
    refine x.respond_sent app (fun value h ↦ ?_) fun e h ↦ by cases h
    obtain rfl : toJs a = value := Except.ok.inj h
    exact hplain a
  | .error e =>
    refine x.respond_sent app (fun value h ↦ by cases h) fun e' h ↦ ?_
    obtain rfl : e = e' := HttpFailure.thrown.inj (Except.error.inj h)
    exact herror e rfl

/-- A call of the HTTP server that fails is rejected. -/
def HttpRejects (c : HttpCall) (r : Except JsError c.Reply) : Prop := ∀ e, r = .error e → e = .rejected

theorem rejects_httpPerform (w : World) (c : HttpCall) (o : HttpChoice) :
    HttpRejects c (httpPerform app w c o).1 := by
  match c with
  | .service c => exact rejects_perform app.env w c o.toChoice
  | .statusFindOne id =>
    intro e h
    simp only [httpPerform] at h
    split at h
    · exact (Except.error.inj h).symm
    · cases h
  | .statusFind userRefId skip take =>
    intro e h
    simp only [httpPerform] at h
    split at h
    · split at h
      · exact (Except.error.inj h).symm
      · cases h
    · exact (Except.error.inj h).symm

theorem Pipe.handle_cases {α : Type} (pipe : Pipe) {decorators : Decorators}
    {ofBody : Js → Option α} {body : Js} (method : α → Request)
    (htyped : decorators.Conforms body → (ofBody body).isSome = true) :
    (decorators.Conforms body ∧ ∃ a, ofBody body = some a ∧
        pipe.handle decorators ofBody body method = .request (method a)) ∨
      (¬decorators.Conforms body ∧ ∃ errors,
        pipe.handle decorators ofBody body method = .throws (.validation errors)) := by
  rcases pipe.transform_cases htyped with ⟨hconforms, a, ha, heq⟩ | ⟨hconforms, errors, -, heq⟩
  · exact Or.inl ⟨hconforms, a, ha, by rw [handle, heq]⟩
  · exact Or.inr ⟨hconforms, errors, by rw [handle, heq]⟩

/-- The decorators that a body is checked against. -/
def Route.decorators : Route → Decorators
  | createTransaction => PaymentPayRequest.decorators
  | charge => PaymentChargeRequest.decorators
  | _ => []

/-- A handler throws a `ValidationException` when the body does not conform. -/
theorem Route.handle_validation_iff {pipe : Pipe} {req : HttpRequest} {route : Route} :
    (∃ errors, route.handle pipe req = .throws (.validation errors)) ↔
      ¬route.decorators.Conforms req.body := by
  match route with
  | createTransaction =>
    rcases pipe.handle_cases (PaymentController.createTransaction (req.header USER_ID_HEADER))
      (@PaymentPayRequest.isSome_of_conforms req.body) with
      ⟨hconforms, a, -, heq⟩ | ⟨hconforms, hthrows⟩
    · refine iff_of_false ?_ (not_not.mpr hconforms)
      rintro ⟨errors, h⟩
      rw [handle, heq] at h
      cases h
    · exact iff_of_true hthrows hconforms
  | charge =>
    rcases pipe.handle_cases PaymentController.charge
      (@PaymentChargeRequest.isSome_of_conforms req.body) with
      ⟨hconforms, a, -, heq⟩ | ⟨hconforms, hthrows⟩
    · refine iff_of_false ?_ (not_not.mpr hconforms)
      rintro ⟨errors, h⟩
      rw [handle, heq] at h
      cases h
    · exact iff_of_true hthrows hconforms
  | getTransactionById transactionId =>
    refine iff_of_false ?_ fun h ↦ h fun _ hmem ↦ absurd hmem List.not_mem_nil
    rintro ⟨errors, h⟩
    cases h
  | getTransactionByUserRefId offset limit =>
    refine iff_of_false ?_ fun h ↦ h fun _ hmem ↦ absurd hmem List.not_mem_nil
    rintro ⟨errors, h⟩
    rw [handle] at h
    unfold PaymentController.getTransactionByUserRefId at h
    split at h
    · cases h
    · split at h <;> cases h
  | handleOmiseCallBack =>
    refine iff_of_false ?_ fun h ↦ h fun _ hmem ↦ absurd hmem List.not_mem_nil
    rintro ⟨errors, h⟩
    cases h

theorem Route.noSuccess_of_throws {pipe : Pipe} {req : HttpRequest} {route : Route} {e : JsError}
    (h : route.handle pipe req = .throws (.thrown e)) : NoSuccess e := by
  match route with
  | createTransaction =>
    rw [handle, Pipe.handle] at h
    split at h <;> cases h
  | charge =>
    rw [handle, Pipe.handle] at h
    split at h <;> cases h
  | getTransactionById transactionId => cases h
  | getTransactionByUserRefId offset limit =>
    rw [handle] at h
    unfold PaymentController.getTransactionByUserRefId at h
    split at h
    · cases h
      exact noSuccess_httpException (by decide)
    · split at h
      · cases h
        exact noSuccess_httpException (by decide)
      · cases h
  | handleOmiseCallBack => cases h

theorem ends_handlingProgram {handling : Handling}
    (hthrows : ∀ e, handling = .throws (.thrown e) → NoSuccess e) :
    Ends HttpRejects
      (fun answer ↦ ∃ handled body, Handled app handling handled ∧ answer = (.ok (), [body]) ∧
        Sent app x handled body)
      (fun _ ↦ False) (handlingProgram app x (x.status app CODE_SUCCESS) handling) := by
  match handling with
  | .throws failure =>
    have hresponse : ∃ body, x.respond app (x.status app CODE_SUCCESS) (.error failure) =
        (.ok (), [body]) ∧ Sent app x (.error failure) body :=
      x.respond_sent app (fun value h ↦ by cases h) fun e h ↦
        hthrows e (congrArg Handling.throws (Except.error.inj h))
    obtain ⟨body, hbody, hsent⟩ := hresponse
    exact ⟨_, body, .throws failure, hbody, hsent⟩
  | .request q =>
    refine Ends.answered (V := fun _ ↦ True) (E := NoSuccess) (ends_program app.env q)
      (fun a _ ↦ ?_) fun e he ↦ ?_
    · obtain ⟨body, hbody, hsent⟩ := x.respond_handledOf app (plain_response app.format)
        (r := .ok a) fun e h ↦ by cases h
      exact ⟨_, body, .request (.ok a), hbody, hsent⟩
    · obtain ⟨body, hbody, hsent⟩ := x.respond_handledOf app (plain_response app.format)
        (r := .error e) fun e' h ↦ Except.error.inj h ▸ he
      exact ⟨_, body, .request (.error e), hbody, hsent⟩
  | .findTransactionById id =>
    intro r hr
    obtain ⟨body, hbody, hsent⟩ := x.respond_handledOf app (plain_found app.format) (r := r)
      fun e h ↦ hr e h ▸ fun _ h ↦ by cases h
    exact ⟨_, body, .findTransactionById r, hbody, hsent⟩
  | .findTransactionsByUserRefId userRefId offset limit =>
    intro r hr
    obtain ⟨body, hbody, hsent⟩ := x.respond_handledOf app (plain_list app.format) (r := r)
      fun e h ↦ hr e h ▸ fun _ h ↦ by cases h
    exact ⟨_, body, .findTransactionsByUserRefId r, hbody, hsent⟩

theorem httpProgram_of_unsupported (h : x.Unsupported) :
    httpProgram app x = done (.ok (), [envelope (x.status app CODE_BUSINESS_ERROR) .null]) := by
  rcases x.admitted_cases app with ⟨-, exception, hadmitted, hcaught⟩ | ⟨hlanguage, -⟩
  · rw [httpProgram, hadmitted]
    exact congrArg done hcaught
  · exact absurd h hlanguage

theorem ends_httpProgram :
    Ends HttpRejects (x.Answered app) (fun _ ↦ False) (httpProgram app x) := by
  rcases x.admitted_cases app with ⟨hlanguage, -⟩ | ⟨hlanguage, hadmitted⟩
  · rw [httpProgram_of_unsupported app x hlanguage]
    exact ⟨_, rfl, Or.inl ⟨hlanguage, rfl⟩⟩
  · rw [httpProgram, hadmitted]
    refine (ends_handlingProgram app x fun e h ↦ Route.noSuccess_of_throws h).mono ?_
    rintro answer ⟨handled, body, hhandled, hanswer, hsent⟩
    exact ⟨body, hanswer, Or.inr ⟨hlanguage, handled, hhandled, hsent⟩⟩

end Ends

/-! ## One answer to every request -/

section Codes

variable {app : Application} {x : Exchange}

theorem code_envelope_eq (status data : Js) : (envelope status data).code = status.prop "code" := rfl

theorem code_envelope {code : ℚ} {data : Js}
    (hcode : code ∈ [CODE_SUCCESS, CODE_BUSINESS_ERROR, CODE_TECHNICAL_ERROR]) :
    (envelope (x.status app code) data).code = .num code := by
  rw [code_envelope_eq, x.code_status app hcode]

theorem num_ne_num {q q' : ℚ} (h : q ≠ q') : Js.num q ≠ .num q' := fun heq ↦ h (Js.num.inj heq)

theorem Sent.code_iff {handled : Except HttpFailure Js} {body : Loggable}
    (h : Sent app x handled body) :
    (body.code = .num CODE_SUCCESS ↔ x.CanLog app handled ∧ ∃ value, handled = .ok value) ∧
      (body.code = .num CODE_BUSINESS_ERROR ↔
        x.CanLog app handled ∧ ∃ errors, handled = .error (.validation errors)) ∧
      (body.code = .num CODE_SUCCESS ∨ body.code = .num CODE_BUSINESS_ERROR ∨
        body.code = .num CODE_TECHNICAL_ERROR ∨ ∃ message, body = .data (.str message)) := by
  have hsuccess : CODE_SUCCESS ≠ CODE_BUSINESS_ERROR := by decide
  have htechnical : CODE_TECHNICAL_ERROR ≠ CODE_SUCCESS ∧
      CODE_TECHNICAL_ERROR ≠ CODE_BUSINESS_ERROR := by decide
  match h with
  | .success hloggable =>
    rw [code_envelope (by simp)]
    refine ⟨iff_of_true rfl ⟨hloggable, _, rfl⟩, iff_of_false (num_ne_num hsuccess) ?_, Or.inl rfl⟩
    rintro ⟨-, errors, heq⟩
    cases heq
  | .refused hloggable =>
    rw [code_envelope (by simp)]
    refine ⟨iff_of_false (num_ne_num hsuccess.symm) ?_, iff_of_true rfl ⟨hloggable, _, rfl⟩,
      Or.inr (Or.inl rfl)⟩
    rintro ⟨-, value, heq⟩
    cases heq
  | .notFound hloggable =>
    refine ⟨iff_of_false (fun heq ↦ by cases heq) ?_, iff_of_false (fun heq ↦ by cases heq) ?_,
      Or.inr (Or.inr (Or.inr ⟨_, rfl⟩))⟩
    · rintro ⟨-, value, heq⟩
      cases heq
    · rintro ⟨-, errors, heq⟩
      cases heq
  | .failed hloggable hfound =>
    rw [code_envelope (by simp)]
    refine ⟨iff_of_false (num_ne_num htechnical.1) ?_, iff_of_false (num_ne_num htechnical.2) ?_,
      Or.inr (Or.inr (Or.inl rfl))⟩
    · rintro ⟨-, value, heq⟩
      cases heq
    · rintro ⟨-, errors, heq⟩
      cases heq
  | .unlogged hloggable =>
    rw [code_envelope (by simp)]
    exact ⟨iff_of_false (num_ne_num htechnical.1) fun h ↦ hloggable h.1,
      iff_of_false (num_ne_num htechnical.2) fun h ↦ hloggable h.1, Or.inr (Or.inr (Or.inl rfl))⟩

end Codes

/-- How many calls are made for a request, at most. -/
def Exchange.turns (app : Application) (x : Exchange) : ℕ :=
  match x.admitted app, x.route.handle app.pipe x.intercepted with
  | .ok _, .request q => q.start.rank
  | .ok _, .findTransactionById _ => 1
  | .ok _, .findTransactionsByUserRefId _ _ _ => 1
  | _, _ => 0

theorem Exchange.turns_le (app : Application) (x : Exchange) : x.turns app ≤ 5 := by
  unfold turns
  split
  · exact Phase.rank_le _
  · decide
  · decide
  · decide

theorem obeys_httpProgram (app : Application) (x : Exchange) :
    Obeys countdown (x.turns app) (httpProgram app x) := by
  unfold httpProgram Exchange.turns
  match x.admitted app, x.route.handle app.pipe x.intercepted with
  | .error exception, _ => trivial
  | .ok status, .throws failure => trivial
  | .ok status, .request q =>
    have hservices : Obeys countdown q.start.rank (program app.env q) :=
      (obeys_program app.env q).countdown ranked_protocol (Nat.le_refl _)
    exact Obeys.countdown_answered (T := HttpCall.Reply) (f := HttpCall.service) hservices
  | .ok status, .findTransactionById id => exact fun r ↦ ⟨0, rfl, trivial⟩
  | .ok status, .findTransactionsByUserRefId userRefId offset limit => exact fun r ↦ ⟨0, rfl, trivial⟩

theorem answered_of_finished {app : Application} {w : World} {as : List HttpStep}
    {t : Task HttpCall HttpCall.Reply JsError Answer Exchange}
    (ht : t ∈ ((http app).run (HttpServer.start w) as).tasks) (hfinished : t.rest.Finished) :
    ∃ answer, t.rest = done answer ∧ t.request.Answered app answer := by
  have hends := System.ends_run (S := http app) (rejects_httpPerform app)
    (ends_httpProgram app) w as t ht
  rcases hends.of_finished hfinished with hdone | ⟨e, -, hnever⟩
  · exact hdone
  · exact absurd hnever id

theorem answered_of_done {app : Application} {w : World} {as : List HttpStep} {i : ℕ} {x : Exchange}
    {answer : Answer}
    (hi : ((http app).run (HttpServer.start w) as).tasks[i]? = some ⟨x, done answer⟩) :
    x.Answered app answer := by
  obtain ⟨answer', hdone, hanswered⟩ := answered_of_finished (List.mem_of_getElem? hi) trivial
  obtain rfl : answer = answer' := done.inj hdone
  exact hanswered

/-- A request that arrives at any moment of any run has been answered after as many turns as calls are
made for it at most — two for an order, four for a charge, five for an event, one for a query — with
one response, whatever happens in between and whatever its calls are answered. -/
theorem exchange_answered (app : Application) (w : World) (as : List HttpStep) (x : Exchange)
    (bs : List HttpStep)
    (hturns : x.turns app ≤
      System.turnsOf ((http app).run (HttpServer.start w) as).tasks.length bs) :
    x.turns app ≤ 5 ∧ ∃ body, ((http app).run (HttpServer.start w) (as ++ .spawn x :: bs)).tasks[
        ((http app).run (HttpServer.start w) as).tasks.length]? = some ⟨x, done (.ok (), [body])⟩ ∧
      (body.code = .num CODE_SUCCESS ∨ body.code = .num CODE_BUSINESS_ERROR ∨
        body.code = .num CODE_TECHNICAL_ERROR ∨ ∃ message, body = .data (.str message)) := by
  refine ⟨x.turns_le app, ?_⟩
  have hrejection : Nonempty JsError := ⟨.rejected⟩
  obtain ⟨rest, hi, hfinished⟩ : ∃ rest,
      ((http app).run (HttpServer.start w) (as ++ .spawn x :: bs)).tasks[
        ((http app).run (HttpServer.start w) as).tasks.length]? = some ⟨x, rest⟩ ∧
      rest.Finished := by
    rw [System.run_append, System.run_cons, System.advance_spawn]
    refine System.finished_of_turns ranked_countdown (t := httpProgram app x) ?_
      (obeys_httpProgram app x) hturns
    rw [List.getElem?_append_right (Nat.le_refl _), Nat.sub_self]
    rfl
  obtain ⟨answer, hdone, body, rfl, hbody⟩ :=
    answered_of_finished (List.mem_of_getElem? hi) hfinished
  obtain rfl : rest = done (.ok (), [body]) := hdone
  refine ⟨body, hi, ?_⟩
  rcases hbody with ⟨-, heq⟩ | ⟨-, handled, -, hsent⟩
  · rw [heq]
    exact Or.inr (Or.inl (code_envelope (by simp)))
  · exact hsent.code_iff.2.2

/-- An order is answered in its two turns, whatever arrives between them. -/
theorem order_answered :
    ∃ body, ((http Shop.application).run (HttpServer.start World.empty)
        (.spawn Shop.order :: [.resume 0 (Shop.httpChoice "order0"), .spawn Shop.foreign,
          .resume 0 (Shop.httpChoice "order1")])).tasks[0]? =
        some ⟨Shop.order, done (.ok (), [body])⟩ ∧
      (body.code = .num CODE_SUCCESS ∨ body.code = .num CODE_BUSINESS_ERROR ∨
        body.code = .num CODE_TECHNICAL_ERROR ∨ ∃ message, body = .data (.str message)) :=
  (exchange_answered Shop.application World.empty [] Shop.order
    [.resume 0 (Shop.httpChoice "order0"), .spawn Shop.foreign,
      .resume 0 (Shop.httpChoice "order1")] (by decide +kernel)).2

/-! ## Refusals -/

/-- The request is refused: its language is not supported, or its body does not conform, and can be
logged. -/
def Exchange.Refused (x : Exchange) : Prop :=
  x.Unsupported ∨
    ¬x.route.decorators.Conforms x.request.body ∧ (Loggable.data x.request.body).Harmless

theorem Exchange.body_intercepted (x : Exchange) : x.intercepted.body = x.request.body := by
  unfold intercepted
  dsimp only
  split <;> rfl

theorem Exchange.loggable_validation_iff {app : Application} {x : Exchange}
    {errors : List ValidationError} :
    x.CanLog app (.error (.validation errors)) ↔ (Loggable.data x.request.body).Harmless := by
  have hharmless : ((HttpFailure.validation errors).loggable app.env.printNumber
      x.rejection).Harmless := HttpFailure.harmless app.env.printNumber fun h ↦ by cases h
  refine ⟨fun h ↦ x.body_intercepted ▸ h.1, fun h ↦ ⟨x.body_intercepted ▸ h, hharmless⟩⟩

theorem Handled.eq_of_throws {app : Application} {failure : HttpFailure}
    {handled : Except HttpFailure Js} (h : Handled app (.throws failure) handled) :
    handled = .error failure := by
  match h with
  | .throws failure => rfl

theorem Handled.throws_of_validation {app : Application} {handling : Handling}
    {errors : List ValidationError} (h : Handled app handling (.error (.validation errors))) :
    handling = .throws (.validation errors) := by
  have hservice : ∀ {α : Type} {toJs : α → Js} {r : Except JsError α},
      handledOf toJs r ≠ .error (.validation errors) := by
    intro α toJs r
    match r with
    | .ok a => exact fun h ↦ by cases h
    | .error e => exact fun h ↦ by cases h
  generalize hhandled : (Except.error (.validation errors) : Except HttpFailure Js) = handled at h
  match h with
  | .throws failure => rw [Except.error.inj hhandled]
  | .request r => exact absurd hhandled.symm hservice
  | .findTransactionById r => exact absurd hhandled.symm hservice
  | .findTransactionsByUserRefId r => exact absurd hhandled.symm hservice

/-- A response with the code of a refusal is sent exactly when the request is refused. -/
theorem Exchange.Answered.refused_iff {app : Application} {x : Exchange} {body : Loggable}
    (h : x.Answered app (.ok (), [body])) : body.code = .num CODE_BUSINESS_ERROR ↔ x.Refused := by
  obtain ⟨body', heq, hbody⟩ := h
  obtain rfl : body = body' := by simpa using heq
  rcases hbody with ⟨hlanguage, rfl⟩ | ⟨hlanguage, handled, hhandled, hsent⟩
  · exact iff_of_true (code_envelope (by simp)) (Or.inl hlanguage)
  · rw [hsent.code_iff.2.1]
    have hvalidation : (∃ errors, x.route.handle app.pipe x.intercepted =
        .throws (.validation errors)) ↔ ¬x.route.decorators.Conforms x.request.body := by
      rw [Route.handle_validation_iff, x.body_intercepted]
    constructor
    · rintro ⟨hloggable, errors, rfl⟩
      exact Or.inr ⟨hvalidation.mp ⟨errors, hhandled.throws_of_validation⟩,
        loggable_validation_iff.mp hloggable⟩
    · rintro (hunsupported | ⟨hconforms, hharmless⟩)
      · exact absurd hunsupported hlanguage
      · obtain ⟨errors, hthrows⟩ := hvalidation.mpr hconforms
        rw [hthrows] at hhandled
        rw [hhandled.eq_of_throws]
        exact ⟨loggable_validation_iff.mpr hharmless, errors, rfl⟩

theorem Exchange.Refused.turns_eq {app : Application} {x : Exchange} (h : x.Refused) :
    x.turns app = 0 := by
  rcases x.admitted_cases app with ⟨-, exception, hadmitted, -⟩ | ⟨hlanguage, hadmitted⟩
  · rw [turns, hadmitted]
  · obtain ⟨hconforms, -⟩ := h.resolve_left hlanguage
    rw [← x.body_intercepted] at hconforms
    have hhandle : ∃ errors, x.route.handle app.pipe x.intercepted = .throws (.validation errors) :=
      Route.handle_validation_iff.mpr hconforms
    obtain ⟨errors, hthrows⟩ := hhandle
    rw [turns, hadmitted, hthrows]

/-- In every run, a request is answered with the code of a refusal exactly when its language is not
supported or its body does not conform and can be logged; and then no call has been made for it. -/
theorem refused_unhandled (app : Application) (w : World) (as : List HttpStep) (i : ℕ) (x : Exchange)
    (body : Loggable)
    (hi : ((http app).run (HttpServer.start w) as).tasks[i]? = some ⟨x, done (.ok (), [body])⟩) :
    (body.code = .num CODE_BUSINESS_ERROR ↔ x.Refused) ∧
      (x.Refused → ∀ e ∈ (http app).trace (HttpServer.start w) as, e.task ≠ i) := by
  refine ⟨(answered_of_done hi).refused_iff, fun hrefused e he htask ↦ ?_⟩
  obtain ⟨s, hfollow, -⟩ := (System.conducts_run (S := http app) (P := countdown)
    (obeys_httpProgram app) w as).1 i _ hi
  have hlength : (System.callsOf i ((http app).trace (HttpServer.start w) as)).length + s ≤
      x.turns app := Protocol.length_le_rank countdown ranked_countdown hfollow
  have hmem : ⟨e.call, e.reply⟩ ∈ System.callsOf i ((http app).trace (HttpServer.start w) as) :=
    List.mem_map_of_mem (List.mem_filter.mpr ⟨he, by simpa using htask⟩)
  have hpos := List.length_pos_of_mem hmem
  have hzero : x.turns app = 0 := hrefused.turns_eq
  omega

/-- A request in French is refused, and no call is made for it, whatever arrives next to it. -/
theorem foreign_refused :
    Shop.foreign.Refused ∧
      ¬∃ e ∈ (http Shop.application).trace (HttpServer.start World.empty)
          [.spawn Shop.foreign, .spawn Shop.order, .resume 0 (Shop.httpChoice "none"),
            .resume 1 (Shop.httpChoice "order0")], e.task = 0 := by
  have hlanguage : Shop.foreign.Unsupported := ⟨"fr", by decide +kernel, by decide, by decide +kernel⟩
  have hi : ((http Shop.application).run (HttpServer.start World.empty)
      [.spawn Shop.foreign, .spawn Shop.order, .resume 0 (Shop.httpChoice "none"),
        .resume 1 (Shop.httpChoice "order0")]).tasks[0]? =
      some ⟨Shop.foreign, done (.ok (),
        [envelope (Shop.foreign.status Shop.application CODE_BUSINESS_ERROR) .null])⟩ := by
    rw [← httpProgram_of_unsupported Shop.application Shop.foreign hlanguage, System.run_cons]
    refine System.task_of_finished rfl ?_ _
    rw [httpProgram_of_unsupported Shop.application Shop.foreign hlanguage]
    trivial
  obtain ⟨hcode, hcalls⟩ := refused_unhandled Shop.application World.empty
    [.spawn Shop.foreign, .spawn Shop.order, .resume 0 (Shop.httpChoice "none"),
      .resume 1 (Shop.httpChoice "order0")] 0 Shop.foreign _ hi
  have hrefused := hcode.mp (code_envelope (by simp))
  exact ⟨hrefused, fun ⟨e, he, htask⟩ ↦ hcalls hrefused e he htask⟩

end PaymentService
