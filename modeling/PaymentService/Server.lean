import PaymentService.Services.Callback
import PaymentService.Services.Payment

/-!
# The service as a system of tasks

A request is a task running the program of its route. Tasks share the world and interleave at their
awaits, in any number and any order; between their calls the provider settles charges. What is
claimed of every run is claimed of every list of actions of this system.

The last section says what a truthful event is: it carries a state that a charge of the provider has
really been in. The provider decides when to send one and how often.
-/

namespace PaymentService

open Async

/-! ## Requests -/

/-- The routes that change something. -/
inductive Request
  /-- `POST /payment/pay`; the user comes from a header. -/
  | pay (userRefId : Option String) (productId : ℚ) (paymentType : String)
  /-- `POST /payment/charge`. -/
  | charge (txId source : String)
  /-- `POST /payment/callback/omise`. -/
  | omiseCallback (body : Js) (headers : Headers)

/-- The request is an event whose body claims a status. -/
def Request.claims (status : String) : Request → Bool
  | .omiseCallback body _ => ((body.prop "data").prop "status").isStr status
  | _ => false

inductive Response
  | transaction (id : String)
  | charged (response : PaymentChargeResponse)
  /-- `{ received: true }`. -/
  | received

variable (env : Env)

/-- The program of a request. -/
def program : Request → Program Response
  | .pay userRefId productId paymentType => do
    let id ← createPaymentTransaction env userRefId productId paymentType
    pure (.transaction id)
  | .charge txId source => do
    let response ← charge env txId source
    pure (.charged response)
  | .omiseCallback body headers => do
    CallbackController.handleOmiseCallBack env body headers
    pure .received

/-! ## The system -/

/-- What the outside does unasked: a charge comes to a new status at the provider. -/
inductive Move
  | settle (chargeId status : String)

/-- The provider knows statuses without blanks only. -/
def Move.apply (w : World) : Move → World
  | settle chargeId status =>
    if Word status then { w with provider := w.provider.settle chargeId status } else w

/-- A move does nothing, or a charge comes to a status. -/
theorem Move.apply_cases (w : World) (b : Move) :
    b.apply w = w ∨ ∃ chargeId status, Word status ∧
      b.apply w = { w with provider := w.provider.settle chargeId status } := by
  cases b with
  | settle chargeId status =>
    simp only [apply]
    split
    · next hstatus => exact Or.inr ⟨chargeId, status, hstatus, rfl⟩
    · exact Or.inl rfl

@[simp] theorem Move.db_apply (w : World) (b : Move) : (b.apply w).db = w.db := by
  rcases b.apply_cases w with heq | ⟨chargeId, status, -, heq⟩ <;> rw [heq]

@[simp] theorem Move.queue_apply (w : World) (b : Move) : (b.apply w).queue = w.queue := by
  rcases b.apply_cases w with heq | ⟨chargeId, status, -, heq⟩ <;> rw [heq]

@[simp] theorem Move.books_apply (w : World) (b : Move) :
    (b.apply w).provider.books = w.provider.books := by
  rcases b.apply_cases w with heq | ⟨chargeId, status, -, heq⟩
  · rw [heq]
  · rw [heq]
    exact Provider.books_settle _ _ _

def system : System Call Call.Reply JsError Response World Choice Request Move where
  handler := perform env
  program := program env
  background := Move.apply

/-- A state of the whole: the world and the requests in flight. -/
abbrev Server : Type := Pool Call Call.Reply JsError Response World Request

abbrev Step : Type := Action Choice Request Move

/-- One call of a run, with the request it was performed for. -/
abbrev Event : Type := Occurrence Call Call.Reply JsError Request

/-- A server that has just been started. -/
abbrev Server.start (w : World) : Server := ⟨w, []⟩

/-- One request handled with nothing in between. -/
def serve (q : Request) (o : ℕ → Choice) (w : World) : Except JsError Response × World :=
  Async.run (perform env) (program env q) o w

/-- One step of a sequential run: a request handled to its end, or a move of the outside. -/
inductive Operation
  | handle (q : Request) (o : ℕ → Choice)
  | env (b : Move)

def Operation.apply (w : World) : Operation → World
  | .handle q o => (serve env q o w).2
  | .env b => b.apply w

/-- The state after operations one after the other. -/
def handleAll (w : World) (ops : List Operation) : World := ops.foldl (Operation.apply env) w

theorem handleAll_concat (w : World) (done : List Operation) (op : Operation) :
    handleAll env w (done ++ [op]) = op.apply env (handleAll env w done) := by
  rw [handleAll, List.foldl_append]
  rfl

/-- The call is a save that was accepted. -/
def completesSave : (c : Call) → Except JsError c.Reply → Bool
  | .statusSave _, .ok _ => true
  | _, _ => false

theorem completesSave_of_ne {c : Call} (hc : ∀ obj, c ≠ .statusSave obj)
    (r : Except JsError c.Reply) : completesSave c r = false := by
  cases c <;> first | rfl | exact absurd rfl (hc _)

/-- What a move can do to the tables: nothing, or what a completed save makes of them. -/
theorem db_advance_cases (p : Server) (a : Step) :
    (((system env).advance p a).2.world.db = p.world.db ∧
        ∀ e ∈ ((system env).advance p a).1, e.counts (fun _ ↦ completesSave) = false) ∨
      ∃ (i : ℕ) (q : Request) (obj : StatusObject)
        (k : Except JsError (Call.Reply (.statusSave obj)) → Program Response) (o : Choice)
        (saved : SavedStatus) (db : Db),
        p.tasks[i]? = some ⟨q, await (.statusSave obj) k⟩ ∧
          p.world.db.save obj o.uuid = some (saved, db) ∧
          ((system env).advance p a).1 = some ⟨i, q, .statusSave obj, .ok (saved, o.now)⟩ ∧
          ((system env).advance p a).2.world = { p.world with db } := by
  cases a with
  | spawn q => exact Or.inl ⟨rfl, fun e he ↦ absurd he (by simp)⟩
  | env b => exact Or.inl ⟨Move.db_apply p.world b, fun e he ↦ absurd he (by simp)⟩
  | resume i o =>
    rcases (system env).advance_resume_cases p i o with heq | ⟨q, c, k, hi, heq⟩
    · rw [heq]
      exact Or.inl ⟨rfl, fun e he ↦ absurd he (by simp)⟩
    · rw [heq]
      -- Only a save can write the tables, and a rejected one leaves them as they are.
      by_cases hc : ∀ obj, c ≠ .statusSave obj
      · refine Or.inl ⟨db_perform env hc o, fun e he ↦ ?_⟩
        obtain rfl := Option.some_inj.mp he
        exact completesSave_of_ne hc _
      · push Not at hc
        obtain ⟨obj, rfl⟩ := hc
        have hperform : (system env).handler p.world (.statusSave obj) o
            = perform env p.world (.statusSave obj) o := rfl
        rw [hperform, perform_statusSave]
        rcases hsave : saveOutcome p.world.db obj o with _ | ⟨saved, db⟩
        · refine Or.inl ⟨rfl, fun e he ↦ ?_⟩
          obtain rfl := Option.some_inj.mp he
          rfl
        · exact Or.inr ⟨i, q, obj, k, o, saved, db, hi, (saveOutcome_eq_some.mp hsave).2, rfl, rfl⟩

/-- What a move can do to the provider's books: nothing, or enter the charge it creates. -/
theorem books_advance_cases (p : Server) (a : Step) :
    ((system env).advance p a).2.world.provider.books = p.world.provider.books ∨
      ∃ (i : ℕ) (q : Request) (request : ChargeRequest)
        (k : Except JsError (Call.Reply (.chargesCreate request)) → Program Response) (o : Choice),
        p.tasks[i]? = some ⟨q, await (.chargesCreate request) k⟩ ∧
          ((system env).advance p a).1 =
            some ⟨i, q, .chargesCreate request, .ok (o.charge request, o.now)⟩ ∧
          ((system env).advance p a).2.world =
            { p.world with provider := p.world.provider.create (o.charge request) } := by
  cases a with
  | spawn q => exact Or.inl rfl
  | env b => exact Or.inl (Move.books_apply p.world b)
  | resume i o =>
    rcases (system env).advance_resume_cases p i o with heq | ⟨q, c, k, hi, heq⟩
    · rw [heq]
      exact Or.inl rfl
    · rw [heq]
      rcases provider_perform_cases env p.world c o with hsame | ⟨request, rfl, -, hmade⟩
      · exact Or.inl (congrArg Provider.books hsame)
      · have hhandler : (system env).handler p.world (.chargesCreate request) o
            = perform env p.world (.chargesCreate request) o := rfl
        rw [hhandler, hmade]
        exact Or.inr ⟨i, q, request, k, o, hi, rfl, rfl⟩

theorem books_run (p : Server) (as : List Step) :
    p.world.provider.books <+: ((system env).run p as).world.provider.books := by
  induction as generalizing p with
  | nil => exact List.prefix_refl _
  | cons a as ih =>
    refine List.IsPrefix.trans ?_ (ih _)
    rcases books_advance_cases env p a with hsame | ⟨i, q, request, k, o, -, -, hworld⟩
    · rw [hsame]
    · rw [hworld, Provider.books_create]
      exact List.prefix_append _ _

/-! ## Events of the provider -/

/-- The body of an event about a charge. -/
def eventBody (eventKey : OmiseChargeEvents) (charge : Charge) : Js :=
  .obj [("object", .str "event"), ("key", .str eventKey.value), ("data", charge.toJs)]

@[simp] theorem prop_data_eventBody (eventKey : OmiseChargeEvents) (charge : Charge) :
    (eventBody eventKey charge).prop "data" = charge.toJs := rfl

@[simp] theorem prop_key_eventBody (eventKey : OmiseChargeEvents) (charge : Charge) :
    (eventBody eventKey charge).prop "key" = .str eventKey.value := rfl

@[simp] theorem Charge.prop_id_toJs (charge : Charge) : charge.toJs.prop "id" = .str charge.id :=
  rfl

@[simp] theorem Charge.prop_status_toJs (charge : Charge) :
    charge.toJs.prop "status" = .str charge.status := rfl

/-- The user agent of the provider, in the configured version. -/
def eventAgent : String :=
  Providers.omise.value ++ "/" ++ NotificationService.configText env.config.omiseVersion

/-- The headers the provider sends. -/
def eventHeaders : Headers := [("user-agent", eventAgent env)]

/-- The request by which the provider reports a state of a charge. -/
def eventRequest (eventKey : OmiseChargeEvents) (charge : Charge) : Request :=
  .omiseCallback (eventBody eventKey charge) (eventHeaders env)

/-- Lower-casing leaves the names of the events and the configured user agent as they are. -/
structure Env.Lowercase : Prop where
  key : ∀ key : OmiseChargeEvents, env.toLowerCase key.value = key.value
  agent : env.toLowerCase (eventAgent env) = eventAgent env

/-! ## A shop

One package, one buyer and a configuration under which runs can be evaluated. Numbers are integers
in this shop, and `sprintf` knows the one placeholder that the templates use. -/

namespace Shop

/-- Substitute the named arguments of a template; `name` is the placeholder being read, backwards. -/
def expand (arguments : List (String × Js)) :
    Option (List Char) → List Char → Except JsError (List Char)
  | none, [] => .ok []
  | some _, [] => .error (.error "unexpected placeholder")
  | none, '%' :: '(' :: cs => expand arguments (some []) cs
  | none, c :: cs => (expand arguments none cs).map (c :: ·)
  | some name, ')' :: 's' :: cs =>
    match arguments.lookup (String.ofList name.reverse) with
    | some (.str text) => (expand arguments none cs).map (text.toList ++ ·)
    | _ => .error (.error "no such argument")
  | some name, c :: cs => expand arguments (some (c :: name)) cs

theorem word_toString (n : ℤ) : Word (toString n) := by
  have hdigits : ∀ (m : ℕ) (c : Char), c.isDigit = false → c ∉ (Nat.repr m).toList := by
    intro m c hc hmem
    rw [Nat.toList_repr] at hmem
    rw [Nat.isDigit_of_mem_toDigits (by decide) (by decide) hmem] at hc
    cases hc
  have hsign : ∀ c : Char, c ≠ '-' → c.isDigit = false → c ∉ (toString n).toList := by
    intro c hminus hc
    cases n with
    | ofNat m => exact hdigits m c hc
    | negSucc m =>
      intro hmem
      have hlist : (toString (Int.negSucc m)).toList = '-' :: (Nat.repr (m + 1)).toList := by
        simp [toString, Int.repr]
      rw [hlist] at hmem
      exact (List.mem_cons.mp hmem).elim hminus (hdigits _ c hc)
  exact ⟨hsign ' ' (by decide) (by decide), hsign '\x00' (by decide) (by decide)⟩

def platform : Env where
  config :=
    { omiseVersion := some "2019-05-29"
      omiseReturnUri := some "https://shop.test/paid"
      notificationPaymentIcon := some "https://shop.test/icon.png"
      notificationDeeplinkUrl := some "shop:/"
      notificationFallbackUrl := some "https://shop.test" }
  toLowerCase := String.toLower
  printNumber q := toString q.num
  word_printNumber q := word_toString q.num
  parameterText v := (v.text fun q ↦ toString q.num).getD ""
  sprintf template arguments := (expand arguments none template.toList).map String.ofList

theorem platform_lowercase : platform.Lowercase where
  key key := by cases key <;> decide +kernel
  agent := by decide +kernel

def tokenPackage : TokenPackageResponse where
  token := ⟨"JPX", "Jumper"⟩
  price := 10
  no_of_coins := 100
  bonus := some 5
  payment_bonus := [⟨some 20, "promptpay"⟩]
  currency := some "THB"

/-- An identifier made of a name, by its letters, and a number. -/
def uuid (name : String) (n : ℕ) : String :=
  let letters := name.toList.flatMap fun c ↦ [(c.toNat / 16).digitChar, (c.toNat % 16).digitChar]
  let digits := letters ++ List.replicate (20 - letters.length) '0'
  let number := (toString n).toList
  String.ofList (digits.take 8 ++ '-' :: (digits.drop 8).take 4 ++ '-' :: (digits.drop 12).take 4 ++
    '-' :: (digits.drop 16).take 4 ++ '-' :: List.replicate (12 - number.length) '0' ++ number)

/-- Calls go through; what a call generates is named after `id`. -/
def choice (id : String) : Choice where
  uuid := uuid id
  tokenPackage := tokenPackage
  sourceType := PaymentTypeEnum.qr.value
  chargeId := id
  chargeStatus := ChargeStatuses.pending.value

/-- Resume a task a number of times. -/
def resumes (task : ℕ) (id : String) (times : ℕ) : List Step :=
  (List.range times).map fun n ↦ .resume task (choice (id ++ toString n))

/-- The first identifier that is generated for the name `order1`. -/
def orderId : String := "6f726465-7231-0000-0000-000000000000"

example : uuid "order1" 0 = orderId := by decide +kernel

/-- The buyer orders the package, as task 0; the transaction is `orderId`. -/
def purchase : List Step :=
  .spawn (.pay (some "buyer") 7 PaymentTypeEnum.qr.value) :: resumes 0 "order" 2

/-- The buyer pays for the transaction with a source; the charge is named after `id`. -/
def payment (task : ℕ) (source id : String) : List Step :=
  .spawn (.charge orderId source) :: resumes task id 4

/-- The provider reports a charge, and the report is handled to its end. -/
def delivery (task : ℕ) (eventKey : OmiseChargeEvents) (charge : Charge) (id : String) :
    List Step :=
  .spawn (eventRequest platform eventKey charge) :: resumes task id 5

/-- The freshly started service after a list of moves. -/
def after (steps : List Step) : Server := (system platform).run (Server.start World.empty) steps

/-- The buyer has ordered and paid with `src_1`, and the charge `first2` has succeeded; no event
has arrived. -/
def paidFor : List Step :=
  purchase ++ payment 1 "src_1" "first" ++
    [.env (.settle "first2" ChargeStatuses.successful.value)]

/-- That charge, as the provider then has it. -/
def paidCharge : Charge where
  id := "first2"
  status := ChargeStatuses.successful.value
  amount := 1000
  currency := "THB"
  description := none
  source := .null
  card := .null
  authorize_uri := .null
  return_uri := .str ("https://shop.test/paid?txId=" ++ orderId)
  metadata := ⟨orderId, "buyer", "src_1", .undefined⟩

end Shop

end PaymentService
