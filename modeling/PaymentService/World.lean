import PaymentService.Async.Pool
import PaymentService.Database

/-!
# The outside of the service

The calls the service awaits and what answers them: the database, the payment provider, the
catalogue, the message queue and the notification service.

The provider and the queue are kept as far as the service can see them: the charges that exist, all
the states they have been in, and the messages sent. Whatever the outside is free to decide —
whether a call fails, the identifiers a database generates, the content of a remote reply, the time
at which the function resumes — is in the `Choice` that comes with each call.

Two things are assumed of the outside. A call that is rejected has not been carried out; what can
happen when it has been, and only its answer was lost, is what `performOrLose` is for. And the
provider has no blanks in its identifiers and statuses, and the character `NUL` nowhere.

`Env` collects the configuration and the parts of the platform whose behaviour the service only
passes through. All that is assumed of them is that a number is printed without blanks.
-/

namespace PaymentService

/-! ## Configuration and platform -/

/-- The values the services read with `config.get`; a value that is not configured is
`undefined`. -/
structure Config where
  omiseVersion : Option String
  omiseReturnUri : Option String
  notificationPaymentIcon : Option String
  notificationDeeplinkUrl : Option String
  notificationFallbackUrl : Option String

/-- A text without blanks, as are numbers, and the identifiers and the statuses of the provider. -/
def Word (s : String) : Prop := ' ' ∉ s.toList ∧ Sql.NoNul s

instance (s : String) : Decidable (Word s) := inferInstanceAs (Decidable (_ ∧ _))

structure Env where
  config : Config
  /-- `String.prototype.toLowerCase`. -/
  toLowerCase : String → String
  /-- The text of a number. -/
  printNumber : ℚ → String
  word_printNumber : ∀ q, Word (printNumber q)
  /-- The text in which the driver sends a parameter that is neither a string nor nullish. -/
  parameterText : Js → String
  /-- `sprintf` of `sprintf-js`, with the named arguments. -/
  sprintf : String → List (String × Js) → Except JsError String

namespace Env

variable (env : Env)

/-- A value of the language as the value of a text column. -/
def column : Js → Column String
  | .undefined => .undefined
  | .null => .null
  | .str s => .value s
  | v => .value (env.parameterText v)

/-- A value of the language as a query condition; `undefined` and `null` are dropped. -/
def condition : Js → Option String
  | .undefined => none
  | .null => none
  | .str s => some s
  | v => some (env.parameterText v)

@[simp] theorem column_str (s : String) : env.column (.str s) = .value s := rfl

@[simp] theorem condition_str (s : String) : env.condition (.str s) = some s := rfl

end Env

/-! ## Calls -/

/-- The calls the service awaits. -/
inductive Call
  /-- `directus.get('/items/token_packages/…')`. -/
  | tokenPackagesGet (id : ℚ)
  /-- `sources.retrieve`. -/
  | sourcesRetrieve (sourceId : String)
  /-- `charges.create`. -/
  | chargesCreate (request : ChargeRequest)
  /-- `charges.retrieve`. -/
  | chargesRetrieve (chargeId : Js)
  /-- `TransactionStatusRepository.findOneByOrFail({ id })`. -/
  | statusFindOneByOrFail (id : String)
  /-- `TransactionStatusRepository.findOne({ where: { source }, relations })`. -/
  | statusFindOne (source : Js)
  /-- `TransactionStatusRepository.save`. -/
  | statusSave (o : StatusObject)
  /-- `sqs.sendMessage`. -/
  | sqsSendMessage (msg : SqsMessageParams)
  /-- `post('/api/notification/v1/push')`. -/
  | notificationPost (payload : PushNotificationPayloadV2)

/-- The value a call returns. -/
abbrev Call.Result : Call → Type
  | tokenPackagesGet _ => TokenPackageResponse
  | sourcesRetrieve _ => String
  | chargesCreate _ => Charge
  | chargesRetrieve _ => Charge
  | statusFindOneByOrFail _ => TransactionStatus
  | statusFindOne _ => Option (TransactionStatus × List TransactionLog)
  | statusSave _ => SavedStatus
  | sqsSendMessage _ => Unit
  | notificationPost _ => Unit

/-- The calls that only the webhook issues. -/
def Call.ofWebhook : Call → Bool
  | chargesRetrieve _ => true
  | statusFindOne _ => true
  | sqsSendMessage _ => true
  | notificationPost _ => true
  | _ => false

/-- The calls that read a row. -/
def Call.readsStatus : Call → Bool
  | statusFindOneByOrFail _ => true
  | statusFindOne _ => true
  | _ => false

/-- The calls that write one. -/
def Call.savesStatus : Call → Bool
  | statusSave _ => true
  | _ => false

/-- The calls about charges. -/
def Call.asksProvider : Call → Bool
  | chargesCreate _ => true
  | chargesRetrieve _ => true
  | _ => false

/-- What the function resumes with: the value, and the time `new Date()` reads from then on. -/
abbrev Call.Reply (c : Call) : Type := c.Result × Date

/-- The programs of the service. -/
abbrev Program (α : Type) : Type := Async Call Call.Reply JsError α

/-! ## The state of the outside -/

structure Provider where
  charges : List Charge
  /-- Every state a charge has been in. An event about a charge carries one of them. -/
  snapshots : List Charge

structure World where
  db : Db
  provider : Provider
  /-- The messages sent to the credit queue. -/
  queue : List SqsMessageParams
  /-- The notifications pushed. -/
  pushes : List PushNotificationPayloadV2

/-- Nothing stored and nothing sent, whatever the provider has charged for others. A charge that
others make later is one of these that is not retrieved before. -/
def World.fresh (provider : Provider) : World := ⟨Db.empty, provider, [], []⟩

/-- Nothing stored, nothing charged, nothing sent. -/
def World.empty : World := World.fresh ⟨[], []⟩

/-- What the outside decides about one call. -/
structure Choice where
  fails : Bool := false
  now : Date := 0
  /-- The identifiers the database generates, in the order in which it needs them. -/
  uuid : ℕ → String := fun _ ↦ ""
  /-- Which of several matching rows a query for one row returns. -/
  pick : ℕ := 0
  tokenPackage : TokenPackageResponse := default
  sourceType : String := ""
  chargeId : String := ""
  chargeStatus : String := ""
  chargeSource : Js := .null
  chargeCard : Js := .null
  chargeAuthorizeUri : Js := .null

instance : Inhabited Choice := ⟨{}⟩

/-- What a request pays with: a source or a card. -/
def ChargeRequest.means (request : ChargeRequest) : List String :=
  request.source.toList ++ request.card.toList

/-- What is decided is a charge as the provider makes them, of something that it knows. -/
structure Choice.Makes (o : Choice) (means : List String) : Prop where
  means : ∀ s ∈ means, Word s
  chargeId : Word o.chargeId
  chargeStatus : Word o.chargeStatus
  chargeSource : o.chargeSource.noNul = true
  chargeCard : o.chargeCard.noNul = true

instance (o : Choice) (means : List String) : Decidable (o.Makes means) :=
  decidable_of_iff
    ((∀ s ∈ means, Word s) ∧ Word o.chargeId ∧ Word o.chargeStatus ∧
      o.chargeSource.noNul = true ∧ o.chargeCard.noNul = true)
    ⟨fun ⟨h1, h2, h3, h4, h5⟩ ↦ ⟨h1, h2, h3, h4, h5⟩, fun ⟨h1, h2, h3, h4, h5⟩ ↦
      ⟨h1, h2, h3, h4, h5⟩⟩

/-- The charge the provider makes of a request. -/
def Choice.charge (o : Choice) (request : ChargeRequest) : Charge where
  id := o.chargeId
  status := o.chargeStatus
  amount := request.amount
  currency := request.currency
  description := request.description
  source := o.chargeSource
  card := o.chargeCard
  authorize_uri := o.chargeAuthorizeUri
  return_uri := .str request.return_uri
  metadata := request.metadata

/-- The charge is one that the provider can make of the request. -/
def ChargeRequest.Makes (request : ChargeRequest) (charge : Charge) : Prop :=
  ∃ o : Choice, o.Makes request.means ∧ o.charge request = charge

/-- A new charge enters the provider's books in its first state. -/
def Provider.create (provider : Provider) (charge : Charge) : Provider where
  charges := provider.charges ++ [charge]
  snapshots := provider.snapshots ++ [charge]

/-- The charge with a given identifier. -/
def Provider.charge? (provider : Provider) (id : String) : Option Charge :=
  Keyed.find Charge.id id provider.charges

theorem Provider.charge?_isSome_iff {provider : Provider} {id : String} :
    (provider.charge? id).isSome = true ↔ ∃ charge ∈ provider.charges, charge.id = id := by
  simp [Provider.charge?, Keyed.find, List.find?_isSome]

/-- A charge changes its status. -/
def Provider.settle (provider : Provider) (id status : String) : Provider where
  charges := provider.charges.map fun charge ↦
    if charge.id = id then { charge with status } else charge
  snapshots := provider.snapshots ++
    (provider.charges.filter (·.id = id)).map fun charge ↦ { charge with status }

/-- What never changes in the provider's books: which charges there are, and what they were made
for. -/
def Provider.books (provider : Provider) : List (String × ChargeMetadata) :=
  provider.charges.map fun charge ↦ (charge.id, charge.metadata)

@[simp] theorem Provider.books_create (provider : Provider) (charge : Charge) :
    (provider.create charge).books = provider.books ++ [(charge.id, charge.metadata)] :=
  List.map_append

@[simp] theorem Provider.books_settle (provider : Provider) (id status : String) :
    (provider.settle id status).books = provider.books := by
  simp only [books, settle, List.map_map]
  refine List.map_congr_left fun charge _ ↦ ?_
  simp only [Function.comp_apply]
  split <;> rfl

variable (env : Env)

/-- The answer to a call that does not fail on the way: the value and the state after it, or nothing
when the call itself is rejected. -/
def answer (w : World) (o : Choice) : (c : Call) → Option (c.Result × World)
  | .tokenPackagesGet _ => some (o.tokenPackage, w)
  | .sourcesRetrieve _ => some (o.sourceType, w)
  | .chargesCreate request =>
    -- No two charges of the provider have the same identifier.
    if o.Makes request.means ∧ (w.provider.charge? o.chargeId).isNone then
      some (o.charge request, { w with provider := w.provider.create (o.charge request) })
    else none
  | .chargesRetrieve chargeId =>
    ((Js.text env.printNumber chargeId).bind w.provider.charge?).map fun charge ↦ (charge, w)
  | .statusFindOneByOrFail id => (w.db.find? id).map fun row ↦ (row, w)
  | .statusFindOne source =>
    if ∀ s ∈ env.condition source, Sql.NoNul s then
      some (w.db.findOneBySource (env.condition source) o.pick, w)
    else none
  | .statusSave obj => (w.db.save obj o.uuid).map fun (saved, db) ↦ (saved, { w with db })
  | .sqsSendMessage msg => some ((), { w with queue := w.queue ++ [msg] })
  | .notificationPost payload => some ((), { w with pushes := w.pushes ++ [payload] })

/-- One call, as the outside answers it. -/
def perform : Async.Handler Call Call.Reply JsError World Choice := fun w c o ↦
  if o.fails then (.error .rejected, w)
  else
    match answer env w o c with
    | none => (.error .rejected, w)
    | some (value, w') => (.ok (value, o.now), w')

/-- The same where an answer can be lost on the way back: with `true` the call is carried out, and the
service sees it rejected. -/
def performOrLose : Async.Handler Call Call.Reply JsError World (Choice × Bool) := fun w c o ↦
  if o.2 then (.error .rejected, (perform env w c o.1).2) else perform env w c o.1

variable {env}

theorem perform_of_answer {w w' : World} {c : Call} {o : Choice} {value : c.Result}
    (hf : o.fails = false) (h : answer env w o c = some (value, w')) :
    perform env w c o = (.ok (value, o.now), w') := by
  simp [perform, hf, h]

variable (env) in
theorem perform_cases (w : World) (c : Call) (o : Choice) :
    (perform env w c o = (.error .rejected, w) ∧ (o.fails = true ∨ answer env w o c = none)) ∨
      ∃ value w', o.fails = false ∧ answer env w o c = some (value, w') ∧
        perform env w c o = (.ok (value, o.now), w') := by
  rcases hf : o.fails with _ | _
  · rcases ha : answer env w o c with _ | ⟨value, w'⟩
    · exact Or.inl ⟨by simp [perform, hf, ha], Or.inr rfl⟩
    · exact Or.inr ⟨value, w', rfl, rfl, by simp [perform, hf, ha]⟩
  · exact Or.inl ⟨by simp [perform, hf], Or.inl rfl⟩

theorem answer_statusFindOne {w w' : World} {o : Choice} {source : Js}
    {found : Option (TransactionStatus × List TransactionLog)}
    (h : answer env w o (.statusFindOne source) = some (found, w')) :
    (∀ s ∈ env.condition source, Sql.NoNul s) ∧
      w.db.findOneBySource (env.condition source) o.pick = found ∧ w' = w := by
  simp only [answer] at h
  split at h
  · next hnul =>
    obtain ⟨hfound, rfl⟩ := Prod.mk.inj (Option.some_inj.mp h)
    exact ⟨hnul, hfound, rfl⟩
  · cases h

theorem answer_chargesCreate {w w' : World} {o : Choice} {request : ChargeRequest} {charge : Charge}
    (h : answer env w o (.chargesCreate request) = some (charge, w')) :
    o.Makes request.means ∧ w.provider.charge? o.chargeId = none ∧ o.charge request = charge ∧
      w' = { w with provider := w.provider.create charge } := by
  simp only [answer] at h
  split at h
  · next hmakes =>
    obtain ⟨rfl, rfl⟩ := Prod.mk.inj (Option.some_inj.mp h)
    exact ⟨hmakes.1, Option.isNone_iff_eq_none.mp hmakes.2, rfl, rfl⟩
  · cases h

/-! ## What a call leaves alone -/

/-- Only a save writes the tables, only the creation of a charge changes the provider's books, and
only sending a message changes the queue. -/
theorem frame_of_answer {w w' : World} {c : Call} {o : Choice} {value : c.Result}
    (h : answer env w o c = some (value, w')) :
    ((∀ obj, c ≠ .statusSave obj) → w'.db = w.db) ∧
      ((∀ request, c ≠ .chargesCreate request) → w'.provider = w.provider) ∧
        ((∀ msg, c ≠ .sqsSendMessage msg) → w'.queue = w.queue) := by
  cases c with
  | statusSave obj =>
    obtain ⟨⟨saved, db⟩, -, heq⟩ := Option.map_eq_some_iff.mp h
    obtain ⟨-, rfl⟩ := Prod.mk.inj heq
    exact ⟨fun hc ↦ absurd rfl (hc obj), fun _ ↦ rfl, fun _ ↦ rfl⟩
  | chargesCreate request =>
    obtain ⟨-, -, -, rfl⟩ := answer_chargesCreate h
    exact ⟨fun _ ↦ rfl, fun hc ↦ absurd rfl (hc request), fun _ ↦ rfl⟩
  | sqsSendMessage msg =>
    obtain ⟨-, rfl⟩ := Prod.mk.inj (Option.some_inj.mp h)
    exact ⟨fun _ ↦ rfl, fun _ ↦ rfl, fun hc ↦ absurd rfl (hc msg)⟩
  | notificationPost payload =>
    obtain ⟨-, rfl⟩ := Prod.mk.inj (Option.some_inj.mp h)
    exact ⟨fun _ ↦ rfl, fun _ ↦ rfl, fun _ ↦ rfl⟩
  | tokenPackagesGet id =>
    obtain ⟨-, rfl⟩ := Prod.mk.inj (Option.some_inj.mp h)
    exact ⟨fun _ ↦ rfl, fun _ ↦ rfl, fun _ ↦ rfl⟩
  | sourcesRetrieve source =>
    obtain ⟨-, rfl⟩ := Prod.mk.inj (Option.some_inj.mp h)
    exact ⟨fun _ ↦ rfl, fun _ ↦ rfl, fun _ ↦ rfl⟩
  | chargesRetrieve id =>
    obtain ⟨_, -, heq⟩ := Option.map_eq_some_iff.mp h
    obtain ⟨-, rfl⟩ := Prod.mk.inj heq
    exact ⟨fun _ ↦ rfl, fun _ ↦ rfl, fun _ ↦ rfl⟩
  | statusFindOneByOrFail id =>
    obtain ⟨_, -, heq⟩ := Option.map_eq_some_iff.mp h
    obtain ⟨-, rfl⟩ := Prod.mk.inj heq
    exact ⟨fun _ ↦ rfl, fun _ ↦ rfl, fun _ ↦ rfl⟩
  | statusFindOne source =>
    obtain ⟨-, -, rfl⟩ := answer_statusFindOne h
    exact ⟨fun _ ↦ rfl, fun _ ↦ rfl, fun _ ↦ rfl⟩

variable (env)

theorem world_perform_cases (w : World) (c : Call) (o : Choice) :
    (perform env w c o).2 = w ∨
      ∃ value, answer env w o c = some (value, (perform env w c o).2) ∧
        (perform env w c o).1 = .ok (value, o.now) := by
  rcases perform_cases env w c o with ⟨heq, -⟩ | ⟨value, w', -, hanswer, heq⟩
  · exact Or.inl (by rw [heq])
  · exact Or.inr ⟨value, by rw [heq]; exact hanswer, by rw [heq]⟩

theorem db_perform {w : World} {c : Call} (hc : ∀ obj, c ≠ .statusSave obj) (o : Choice) :
    (perform env w c o).2.db = w.db := by
  rcases world_perform_cases env w c o with heq | ⟨value, hanswer, -⟩
  · rw [heq]
  · exact (frame_of_answer hanswer).1 hc

theorem provider_perform {w : World} {c : Call} (hc : ∀ request, c ≠ .chargesCreate request)
    (o : Choice) : (perform env w c o).2.provider = w.provider := by
  rcases world_perform_cases env w c o with heq | ⟨value, hanswer, -⟩
  · rw [heq]
  · exact (frame_of_answer hanswer).2.1 hc

theorem queue_perform {w : World} {c : Call} (hc : ∀ msg, c ≠ .sqsSendMessage msg) (o : Choice) :
    (perform env w c o).2.queue = w.queue := by
  rcases world_perform_cases env w c o with heq | ⟨value, hanswer, -⟩
  · rw [heq]
  · exact (frame_of_answer hanswer).2.2 hc

/-- What the provider holds matters to the calls about charges only. -/
theorem perform_withProvider {c : Call} (hc : c.asksProvider = false) (w : World) (o : Choice)
    (provider : Provider) :
    perform env { w with provider } c o =
      ((perform env w c o).1, { (perform env w c o).2 with provider }) := by
  rcases hf : o.fails with _ | _
  · cases c with
    | chargesCreate request => exact absurd hc (by simp [Call.asksProvider])
    | chargesRetrieve id => exact absurd hc (by simp [Call.asksProvider])
    | statusFindOneByOrFail id =>
      simp only [perform, hf, answer]
      cases w.db.find? id <;> rfl
    | statusSave obj =>
      simp only [perform, hf, answer]
      rcases w.db.save obj o.uuid with _ | ⟨saved, db⟩ <;> rfl
    | statusFindOne source =>
      simp only [perform, hf, answer]
      split_ifs <;> rfl
    | _ => simp [perform, hf, answer]
  · simp [perform, hf]

/-- What the tables hold matters to the calls that read or write a row only. -/
theorem perform_withDb {c : Call} (hread : c.readsStatus = false) (hsave : c.savesStatus = false)
    (w : World) (o : Choice) (db : Db) :
    perform env { w with db } c o =
      ((perform env w c o).1, { (perform env w c o).2 with db }) := by
  rcases hf : o.fails with _ | _
  · cases c with
    | statusFindOneByOrFail id => exact absurd hread (by simp [Call.readsStatus])
    | statusFindOne source => exact absurd hread (by simp [Call.readsStatus])
    | statusSave obj => exact absurd hsave (by simp [Call.savesStatus])
    | chargesCreate request =>
      simp only [perform, hf, answer]
      split_ifs <;> rfl
    | chargesRetrieve id =>
      simp only [perform, hf, answer]
      cases (Js.text env.printNumber id).bind w.provider.charge? <;> rfl
    | _ => simp [perform, hf, answer]
  · simp [perform, hf]

/-- How a save comes out: the answer and the tables after it, or a rejection. -/
def saveOutcome (db : Db) (obj : StatusObject) (o : Choice) : Option (SavedStatus × Db) :=
  if o.fails then none else db.save obj o.uuid

theorem saveOutcome_eq_some {db : Db} {obj : StatusObject} {o : Choice}
    {result : SavedStatus × Db} :
    saveOutcome db obj o = some result ↔ o.fails = false ∧ db.save obj o.uuid = some result := by
  unfold saveOutcome
  split <;> simp [*]

theorem perform_statusSave (w : World) (obj : StatusObject) (o : Choice) :
    perform env w (.statusSave obj) o =
      match saveOutcome w.db obj o with
      | none => (.error .rejected, w)
      | some (saved, db) => (.ok (saved, o.now), { w with db }) := by
  unfold saveOutcome
  rcases hf : o.fails with _ | _
  · rcases hsave : w.db.save obj o.uuid with _ | ⟨saved, db⟩ <;>
      simp [perform, hf, answer, hsave]
  · simp [perform, hf]

theorem perform_chargesCreate (w : World) (request : ChargeRequest) (o : Choice) :
    perform env w (.chargesCreate request) o =
      if o.fails = false ∧ o.Makes request.means ∧ (w.provider.charge? o.chargeId).isNone then
        (.ok (o.charge request, o.now),
          { w with provider := w.provider.create (o.charge request) })
      else (.error .rejected, w) := by
  rcases hf : o.fails with _ | _
  · by_cases hmakes : o.Makes request.means ∧ (w.provider.charge? o.chargeId).isNone
    · simp [perform, hf, answer, hmakes]
    · simp only [perform, hf, answer, if_neg hmakes, true_and, Bool.false_eq_true, if_false]
  · simp [perform, hf]

/-- A call leaves the provider as it was, or makes the charge it asks for. -/
theorem provider_perform_cases (w : World) (c : Call) (o : Choice) :
    (perform env w c o).2.provider = w.provider ∨
      ∃ request, c = .chargesCreate request ∧ o.Makes request.means ∧
        perform env w (.chargesCreate request) o =
          (.ok (o.charge request, o.now),
            { w with provider := w.provider.create (o.charge request) }) := by
  by_cases hc : ∀ request, c ≠ .chargesCreate request
  · exact Or.inl (provider_perform env hc o)
  · push Not at hc
    obtain ⟨request, rfl⟩ := hc
    rw [perform_chargesCreate]
    split
    · next hmade => exact Or.inr ⟨request, rfl, hmade.2.1, by rw [perform_chargesCreate, if_pos hmade]⟩
    · exact Or.inl rfl

end PaymentService
