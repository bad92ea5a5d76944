import PaymentService.Delivery
import PaymentService.Status

/-!
# Whom an event concerns

An event names its transaction by a source, its charge by an identifier and its user by a reference,
three fields of a body that nothing ties together. The first half of this file is about the frame:
the one row with the source of the body is all that changes, unless the body has no source, when the
query loses its condition and any row will do. The second half is about the credit message, which
takes the user and the charge from the body and the transaction from the row.
-/

namespace PaymentService

open Async CallbackService

variable {env : Env}

/-! ## The row of an event -/

/-- The row has the source that the body names, as the database compares the two. -/
def Addressed (env : Env) (body : Js) (row : TransactionStatus) : Prop :=
  ∃ source, row.source = some source ∧
    env.condition (((body.prop "data").prop "metadata").prop "sourceId") = some source

/-- The step from `w` to `w'` concerns at most the one row that the body names. -/
structure OnlyAddressed (env : Env) (body : Js) (w w' : World) : Prop where
  one : ∀ row ∈ w.db.statuses, ∀ other ∈ w.db.statuses, Addressed env body row →
    Addressed env body other → row = other
  others : ∀ row ∈ w.db.statuses, ¬Addressed env body row →
    w'.db.row? row.id = some row ∧ w'.db.attached row.id = w.db.attached row.id
  rows : w'.db.statuses.map (·.id) = w.db.statuses.map (·.id)
  nobody : (∀ row ∈ w.db.statuses, ¬Addressed env body row) → w' = w

/-- The body has no source, and nothing else stops its event: it passes the validation, there are
rows to choose from, the calls are answered and the save is accepted. -/
structure Misdirected (env : Env) (w : World) (o : ℕ → Choice) (body : Js) (headers : Headers) :
    Prop where
  validated : Validated env w (o 0) body headers
  missing : ∃ sourceId, sourceOf (body.prop "data") = some sourceId ∧ sourceId.nullish = true
  rows : w.db.statuses ≠ []
  lookup : (o 1).fails = false
  save : (o 2).fails = false
  storable : Storable env w.db (o 2).uuid (body.prop "data") (body.prop "key")

theorem Env.condition_eq_none_iff (env : Env) {v : Js} :
    env.condition v = none ↔ v.nullish = true := by
  cases v <;> simp [Env.condition, Js.nullish]

theorem prop_of_sourceOf {data sourceId : Js} (h : sourceOf data = some sourceId) :
    (data.prop "metadata").prop "sourceId" = sourceId := by
  obtain ⟨metadata, hmetadata, hsource⟩ := Option.bind_eq_some_iff.mp h
  simp only [Js.prop, hmetadata, hsource, Option.getD_some]

theorem Addressed.unique {w : World} {body : Js} {row other : TransactionStatus}
    (hrow : row ∈ w.db.statuses) (hother : other ∈ w.db.statuses) (h : Addressed env body row)
    (h' : Addressed env body other) : row = other := by
  obtain ⟨source, hsource, hcondition⟩ := h
  obtain ⟨source', hsource', hcondition'⟩ := h'
  obtain rfl := Option.some_inj.mp (hcondition.symm.trans hcondition')
  exact Keyed.eq_of_nodup_filterMap w.db.legal.sources hrow hother hsource hsource'

theorem OnlyAddressed.refl (env : Env) (body : Js) (w : World) : OnlyAddressed env body w w where
  one _ hrow _ hother := Addressed.unique hrow hother
  others _ hrow _ := ⟨Db.row?_eq_some_iff.mpr ⟨hrow, rfl⟩, rfl⟩
  rows := rfl
  nobody _ := rfl

section Frame

variable {w : World} {o : ℕ → Choice} {body : Js} {headers : Headers} {info : TransactionStatus}

/-- A row that was found under a condition is the one the body names. -/
theorem addressed_of_found {logs : List TransactionLog} {choice : Choice}
    (h : Found env w (body.prop "data") choice info logs)
    (hsource : ∀ sourceId, sourceOf (body.prop "data") = some sourceId → sourceId.nullish = false) :
    Addressed env body info := by
  obtain ⟨-, sourceId, hsourceId, hfind⟩ := h
  have hnot := hsource sourceId hsourceId
  rcases hcondition : env.condition sourceId with _ | source
  · exact absurd (env.condition_eq_none_iff.mp hcondition) (by rw [hnot]; simp)
  · rw [hcondition] at hfind
    refine ⟨source, (Db.findOneBySource_eq_some_iff.mp hfind).2.1, ?_⟩
    rw [prop_of_sourceOf hsourceId, hcondition]

/-- Without a condition, some row is found. -/
theorem exists_found_of_missing {sourceId : Js} {choice : Choice}
    (hsource : sourceOf (body.prop "data") = some sourceId) (hmissing : sourceId.nullish = true)
    (hrows : w.db.statuses ≠ []) (hf : choice.fails = false) :
    ∃ info, Found env w (body.prop "data") choice info (w.db.attached info.id) := by
  have hlt : choice.pick % w.db.statuses.length < w.db.statuses.length :=
    Nat.mod_lt _ (List.length_pos_of_ne_nil hrows)
  refine ⟨w.db.statuses[choice.pick % w.db.statuses.length], hf, sourceId, hsource, ?_⟩
  rw [env.condition_eq_none_iff.mpr hmissing]
  simp only [Db.findOneBySource, List.getElem?_eq_getElem hlt, Option.map_some]

/-- An event that reaches the tables concerns the row it was stored in, and no other. -/
theorem onlyAddressed_of_stored
    (h : Stored env w (later o) (body.prop "data") (body.prop "key") info)
    (haddressed : Addressed env body info) :
    OnlyAddressed env body w (Async.run (perform env)
      (createTransactionLog env (body.prop "data") (body.prop "key")) (later o) w).2 := by
  obtain ⟨status, w', -, hrun, htables, -, -⟩ := run_createTransactionLog_of_stored h
  have hs : w'.db.statuses = Keyed.replace TransactionStatus.id info.id
      (eventRow env info (body.prop "data") (later o 0).now status) w.db.statuses :=
    congrArg Tables.statuses htables
  rw [hrun]
  refine ⟨fun _ hrow _ hother ↦ Addressed.unique hrow hother, fun row hrow hnot ↦ ?_, ?_,
    fun hnone ↦ ?_⟩
  · have hne : row.id ≠ info.id := by
      intro heq
      have hsame := Option.some_inj.mp
        ((Db.row?_eq_some_iff.mpr ⟨hrow, heq⟩).symm.trans h.row?)
      exact hnot (hsame ▸ haddressed)
    have hattached := Db.attached_of_withEvent htables rfl row.id
    rw [eventRow_id, if_neg hne, List.append_nil] at hattached
    refine ⟨?_, hattached⟩
    rw [Db.row?, hs, Keyed.find_replace_of_ne hne (eventRow_id ..)]
    exact Db.row?_eq_some_iff.mpr ⟨hrow, rfl⟩
  · rw [hs]
    exact Keyed.map_key_replace TransactionStatus.id (eventRow_id ..) w.db.statuses
  · exact absurd haddressed (hnone info (Db.row?_eq_some_iff.mp h.row?).1)

/-- Where no row is named, an event that reaches the tables has gone to a wrong one. -/
theorem not_onlyAddressed_of_stored
    (h : Stored env w (later o) (body.prop "data") (body.prop "key") info)
    (hnone : ∀ row ∈ w.db.statuses, ¬Addressed env body row) :
    ¬OnlyAddressed env body w (Async.run (perform env)
      (createTransactionLog env (body.prop "data") (body.prop "key")) (later o) w).2 := by
  obtain ⟨status, w', -, hrun, htables, -, -⟩ := run_createTransactionLog_of_stored h
  rw [hrun]
  intro honly
  -- The entry of the event is new, while nothing should have changed.
  have hlogs : w'.db.logs = w.db.logs ++ _ := congrArg Tables.logs htables
  have hsame : w' = w := honly.nobody hnone
  rw [hsame] at hlogs
  exact absurd (congrArg List.length hlogs) (by simp)

end Frame

/-- Handling an event concerns at most the row that the body names, exactly when the body does not
lack the source or something else stops the event. -/
theorem only_addressed_iff (env : Env) (body : Js) (headers : Headers) (o : ℕ → Choice)
    (w : World) :
    OnlyAddressed env body w (serve env (.omiseCallback body headers) o w).2 ↔
      ¬Misdirected env w o body headers := by
  by_cases hvalid : Validated env w (o 0) body headers
  swap
  · rw [serve_of_not_validated hvalid]
    exact iff_of_true (.refl env body w) fun h ↦ hvalid h.validated
  rw [serve_of_validated hvalid]
  by_cases hstored : ∃ info, Stored env w (later o) (body.prop "data") (body.prop "key") info
  swap
  · push Not at hstored
    rw [run_createTransactionLog_of_not_stored hstored]
    refine iff_of_true (.refl env body w) ?_
    rintro ⟨-, ⟨sourceId, hsource, hmissing⟩, hrows, hlookup, hsave, hstorable⟩
    obtain ⟨info, hfound⟩ := exists_found_of_missing hsource hmissing hrows hlookup
    exact hstored info ⟨hfound, hsave, hstorable⟩
  obtain ⟨info, hstored⟩ := hstored
  obtain ⟨sourceId, hsource, -⟩ := hstored.found.source
  rcases hmissing : sourceId.nullish with _ | _
  · refine iff_of_true (onlyAddressed_of_stored hstored ?_) ?_
    · refine addressed_of_found hstored.found fun sourceId' hsource' ↦ ?_
      rwa [← Option.some_inj.mp (hsource.symm.trans hsource')]
    · rintro ⟨-, ⟨sourceId', hsource', hmissing'⟩, -⟩
      rw [← Option.some_inj.mp (hsource.symm.trans hsource'), hmissing] at hmissing'
      exact absurd hmissing' (by simp)
  · refine iff_of_false (not_onlyAddressed_of_stored hstored ?_) (not_not.mpr ?_)
    · rintro row - ⟨source, -, hcondition⟩
      rw [prop_of_sourceOf hsource, env.condition_eq_none_iff.mpr hmissing] at hcondition
      exact absurd hcondition (by simp)
    · have hmem := (Db.row?_eq_some_iff.mp hstored.row?).1
      exact ⟨hvalid, ⟨sourceId, hsource, hmissing⟩, List.ne_nil_of_mem hmem, hstored.found.fails,
        hstored.answered, hstored.storable⟩

/-- A charge that the merchant made by other means: its metadata is not of this service. -/
def Shop.foreignCharge : Charge :=
  { Shop.paidCharge with id := "foreign", metadata := ⟨"", "", "", .undefined⟩ }

/-- The event of that charge. -/
def Shop.foreignEvent : Js :=
  .obj
    [("object", .str "event"), ("key", .str OmiseChargeEvents.complete.value),
      ("data", .obj
        [("object", .str "charge"), ("id", .str "foreign"),
          ("status", .str ChargeStatuses.successful.value), ("metadata", .obj [])])]

/-- The shop after the payment of the order, with the other charge at the provider. -/
def Shop.withForeignCharge : World :=
  let w := (Shop.after Shop.paidFor).world
  { w with provider := w.provider.create Shop.foreignCharge }

/-- The event of the other charge names no source, and credits the order. -/
theorem foreign_event_credits_order :
    ¬OnlyAddressed Shop.platform Shop.foreignEvent Shop.withForeignCharge
      (serve Shop.platform (.omiseCallback Shop.foreignEvent (eventHeaders Shop.platform))
        (fun _ ↦ Shop.choice "hook") Shop.withForeignCharge).2 := by
  intro honly
  have hnone : ∀ row ∈ Shop.withForeignCharge.db.statuses,
      ¬Addressed Shop.platform Shop.foreignEvent row := by
    rintro row - ⟨source, -, hcondition⟩
    have hdropped : Shop.platform.condition
        (((Shop.foreignEvent.prop "data").prop "metadata").prop "sourceId") = none := rfl
    exact absurd (hdropped.symm.trans hcondition) (by simp)
  have hqueue := congrArg (·.queue.length) (honly.nobody hnone)
  exact absurd hqueue (by decide +kernel)

/-! ## The user and the charge of a credit -/

/-- Every charge that is not one of the given was made for a row, and in the name of its user. -/
def Owned (others : Provider) (w : World) : Prop :=
  ∀ id metadata, (id, metadata) ∈ w.provider.books → (id, metadata) ∉ others.books →
    ∃ row, w.db.row? metadata.txId = some row ∧ row.userRefId = metadata.userRefId

theorem owned_advance {others : Provider} {p : Server} (hholds : (userOfRow env).contract.Holds p)
    (a : Step) (h : Owned others p.world) : Owned others ((system env).advance p a).2.world := by
  have hevolves : (userOfRow env).Evolves p.world ((system env).advance p a).2.world :=
    System.Contract.evolves_run hholds [a]
  have hold : ∀ txId user, (∃ row, p.world.db.row? txId = some row ∧ row.userRefId = user) →
      ∃ row, ((system env).advance p a).2.world.db.row? txId = some row ∧ row.userRefId = user := by
    rintro txId user ⟨row, hrow, huser⟩
    obtain ⟨row', hrow', huser'⟩ := hevolves txId row hrow
    exact ⟨row', hrow', huser'.trans huser⟩
  intro id metadata hmem hother
  rcases books_advance_cases env p a with hsame | ⟨i, q, request, k, o, hi, -, hworld⟩
  · rw [hsame] at hmem
    exact hold _ _ (h id metadata hmem hother)
  · have hmem' : (id, metadata) ∈ p.world.provider.books ++ [(o.chargeId, request.metadata)] := by
      rw [hworld, Provider.books_create] at hmem
      exact hmem
    rcases List.mem_append.mp hmem' with hmem' | hmem'
    · exact hold _ _ (h id metadata hmem' hother)
    · -- A new charge is made of a row that was read, and that row is still there.
      obtain ⟨rfl, rfl⟩ := Prod.mk.inj (List.mem_singleton.mp hmem')
      have hissues : Issues env ((userOfRow env).Known p.world) q (.chargesCreate request) :=
        hholds.guarantee hi
      cases hissues with
      | create type _ _ hrow hproduct => exact hold _ _ hrow

theorem owned_run (env : Env) (provider : Provider) (as : List Step) :
    Owned provider ((system env).run (Server.start (World.fresh provider)) as).world := by
  have hstart : (userOfRow env).contract.Holds (Server.start (World.fresh provider)) :=
    System.Contract.holds_start True.intro
  refine (System.run_inv (I := fun p ↦ (userOfRow env).contract.Holds p ∧ Owned provider p.world)
    (fun p a hp ↦ ⟨System.Contract.holds_advance hp.1 a, owned_advance hp.1 a hp.2⟩)
    ⟨hstart, fun id metadata hmem hother ↦ absurd hmem hother⟩ as).2

theorem Owned.user_eq {others : Provider} {w : World} (h : Owned others w) {charge : Charge}
    {row : TransactionStatus} (hcharge : charge ∈ w.provider.charges)
    (hother : (charge.id, charge.metadata) ∉ others.books)
    (hrow : w.db.row? charge.metadata.txId = some row) :
    charge.metadata.userRefId = row.userRefId := by
  obtain ⟨owner, howner, huser⟩ := h charge.id charge.metadata (List.mem_map_of_mem hcharge) hother
  obtain rfl := Option.some_inj.mp (howner.symm.trans hrow)
  exact huser.symm

/-- A credit message in a state `w` that it has led to: the user and the reference are those of the
body, the reference is known to the provider, and the transaction is a row. The user is that of the
row if the body has user and reference from a charge that was made for the row and is none of the
given ones, which others have made. -/
structure CreditOfBody (env : Env) (others : Provider) (w : World) (body : Js)
    (msg : SqsMessageParams) : Prop where
  userRef : msg.userRef = ((body.prop "data").prop "metadata").prop "userRefId"
  referenceId : msg.attributes.referenceId = (body.prop "data").prop "id"
  known : ∃ id charge, Js.text env.printNumber msg.attributes.referenceId = some id ∧
    w.provider.charge? id = some charge
  owner : ∃ row, w.db.row? msg.attributes.transactionId = some row ∧
    ∀ charge ∈ w.provider.charges, (charge.id, charge.metadata) ∉ others.books →
      charge.metadata.txId = row.id → msg.attributes.referenceId = .str charge.id →
        msg.userRef = .str charge.metadata.userRefId → msg.userRef = .str row.userRefId

/-- The bodies agree in everything that is read of them, except the user. -/
structure DifferInUser (body body' : Js) : Prop where
  event : CallbackController.isChargeEvent body' = CallbackController.isChargeEvent body
  key : body'.prop "key" = body.prop "key"
  id : (body'.prop "data").prop "id" = (body.prop "data").prop "id"
  status : (body'.prop "data").prop "status" = (body.prop "data").prop "status"
  description : (body'.prop "data").prop "description" = (body.prop "data").prop "description"
  source : sourceOf (body'.prop "data") = sourceOf (body.prop "data")

/-- The same message to the user of another body. -/
def SqsMessageParams.toUserOf (msg : SqsMessageParams) (body : Js) : SqsMessageParams :=
  { msg with userRef := ((body.prop "data").prop "metadata").prop "userRefId" }

section DifferInUser

variable {w : World} {o : ℕ → Choice} {body body' : Js} {headers : Headers}
  {info : TransactionStatus}

theorem DifferInUser.symm (h : DifferInUser body body') : DifferInUser body' body where
  event := h.event.symm
  key := h.key.symm
  id := h.id.symm
  status := h.status.symm
  description := h.description.symm
  source := h.source.symm

theorem DifferInUser.validated (h : DifferInUser body body') {o : Choice}
    (hvalid : Validated env w o body headers) : Validated env w o body' headers := by
  obtain ⟨hevent, haccepted, hf, hknown⟩ := hvalid
  exact ⟨h.event.trans hevent, by rw [h.id, h.key]; exact haccepted, hf, by rw [h.id]; exact hknown⟩

theorem DifferInUser.stored (h : DifferInUser body body')
    (hstored : Stored env w o (body.prop "data") (body.prop "key") info) :
    Stored env w o (body'.prop "data") (body'.prop "key") info := by
  obtain ⟨⟨hlookup, sourceId, hsource, hfind⟩, hsave, ⟨hstatus, href, hkey, hfresh⟩⟩ := hstored
  refine ⟨⟨hlookup, sourceId, h.source.trans hsource, hfind⟩, hsave, ?_, ?_, ?_, hfresh⟩
  · rw [statusOf, h.status]
    exact hstatus
  · rw [h.id]
    exact href
  · rw [h.key]
    exact hkey

theorem DifferInUser.creditDue_eq (h : DifferInUser body body') (env : Env)
    (info : TransactionStatus) :
    creditDue env info (body'.prop "data") =
      (creditDue env info (body.prop "data")).map (·.toUserOf body') := by
  unfold creditDue
  rw [h.status]
  split
  · rw [Option.map_bind]
    congr 1
    funext fields
    simp only [creditMessage, h.id, h.description, bind, Function.comp_apply]
    rcases Js.addText env.printNumber fields.tokenAmount fields.tokenBonus with _ | coinValue
    · rfl
    · rcases Js.textOrZero env.printNumber fields.tokenAmount with _ | coins
      · rfl
      · cases Js.textOrZero env.printNumber fields.tokenBonus <;> rfl
  · rfl

theorem DifferInUser.queue (h : DifferInUser body body') (env : Env) (headers : Headers)
    (o : ℕ → Choice) (w : World) :
    ∃ sent : Option SqsMessageParams,
      (serve env (.omiseCallback body headers) o w).2.queue = w.queue ++ sent.toList ∧
        (serve env (.omiseCallback body' headers) o w).2.queue =
          w.queue ++ (sent.map (·.toUserOf body')).toList := by
  by_cases hvalid : Validated env w (o 0) body headers
  · rw [serve_of_validated hvalid, serve_of_validated (h.validated hvalid)]
    by_cases hstored : ∃ info, Stored env w (later o) (body.prop "data") (body.prop "key") info
    · obtain ⟨info, hstored⟩ := hstored
      obtain ⟨_, w₁, -, hrun₁, -, -, hqueue₁⟩ := run_createTransactionLog_of_stored hstored
      obtain ⟨_, w₂, -, hrun₂, -, -, hqueue₂⟩ :=
        run_createTransactionLog_of_stored (h.stored hstored)
      rw [hrun₁, hrun₂]
      refine ⟨if (later o 2).fails then none else creditDue env info (body.prop "data"), ?_, ?_⟩
      · rw [hqueue₁]
        split <;> rfl
      · rw [hqueue₂, h.creditDue_eq]
        split <;> rfl
    · push Not at hstored
      rw [run_createTransactionLog_of_not_stored hstored,
        run_createTransactionLog_of_not_stored fun info hinfo ↦ hstored info (h.symm.stored hinfo)]
      exact ⟨none, by simp, by simp⟩
  · rw [serve_of_not_validated hvalid,
      serve_of_not_validated fun hvalid' ↦ hvalid (h.symm.validated hvalid')]
    exact ⟨none, by simp, by simp⟩

end DifferInUser

/-- In every run, whatever the provider has charged for others: each credit message takes its user
and its reference from the body of the event and its transaction from the row that was found. Bodies
that differ in the user only send the same message, each to its own user. -/
theorem credit_follows_body (env : Env) :
    (∀ (provider : Provider) (as : List Step),
      ∀ e ∈ (system env).trace (Server.start (World.fresh provider)) as,
        ∀ msg, e.call = .sqsSendMessage msg →
          ∃ body headers, e.request = .omiseCallback body headers ∧
            CreditOfBody env provider
              ((system env).run (Server.start (World.fresh provider)) as).world body msg) ∧
      ∀ body body', DifferInUser body body' → ∀ (headers : Headers) (o : ℕ → Choice) (w : World),
        ∃ sent : Option SqsMessageParams,
          (serve env (.omiseCallback body headers) o w).2.queue = w.queue ++ sent.toList ∧
            (serve env (.omiseCallback body' headers) o w).2.queue =
              w.queue ++ (sent.map (·.toUserOf body')).toList := by
  refine ⟨fun provider as e he msg hcall ↦ ?_,
    fun body body' h headers o w ↦ h.queue env headers o w⟩
  obtain ⟨es, es', htrace⟩ := List.append_of_mem he
  have hissued := issued_of_trace htrace
  obtain ⟨i, q, c, r⟩ := e
  obtain rfl : c = .sqsSendMessage msg := hcall
  cases hissued with
  | credit hrecorded hdue =>
    rename_i body headers info logs now
    obtain ⟨-, fields, -, hmsg⟩ := creditMessage_of_creditDue hdue
    obtain ⟨hid, huser, href⟩ := names_of_creditMessage hmsg
    refine ⟨body, headers, rfl, huser, href, ?_, ?_⟩
    · obtain ⟨bs, cs, id, metadata, rfl, htext, hbooks⟩ := hrecorded.toEventKnown.past htrace
      have hgrown := books_run env ((system env).run (Server.start (World.fresh provider)) bs) cs
      rw [← System.run_append] at hgrown
      obtain ⟨charge, hcharge, hpair⟩ := List.mem_map.mp (hgrown.subset hbooks)
      obtain ⟨known, hknown⟩ := Option.isSome_iff_exists.mp
        (Provider.charge?_isSome_iff.mpr ⟨charge, hcharge, (Prod.mk.inj hpair).1⟩)
      exact ⟨id, known, by rw [href]; exact htext, hknown⟩
    · obtain ⟨bs, cs, rfl, hinfo⟩ := hrecorded.toEventFound.row?_of_past htrace
      obtain ⟨row, hrow, -⟩ := (userOfRow env).row?_run hinfo cs
      rw [← System.run_append, ← hid] at hrow
      refine ⟨row, hrow, fun charge hcharge hother htx _ huser' ↦ ?_⟩
      rw [← (Db.row?_eq_some_iff.mp hrow).2, ← htx] at hrow
      rw [huser', (owned_run env provider (bs ++ cs)).user_eq hcharge hother hrow]

/-- The charge of the order with another user in its metadata, as anybody can send it. -/
def Shop.stolenCharge : Charge :=
  { Shop.paidCharge with metadata := { Shop.paidCharge.metadata with userRefId := "thief" } }

/-- The order is the buyer's, and two events that differ in the user credit it to the buyer and to
the thief. -/
theorem order_credited_to_thief :
    DifferInUser (eventBody .complete Shop.paidCharge) (eventBody .complete Shop.stolenCharge) ∧
      (Shop.after Shop.paidFor).world.db.statuses.map (fun row ↦ (row.id, row.userRefId)) =
        [(Shop.orderId, "buyer")] ∧
      ((system Shop.platform).run (Shop.after Shop.paidFor)
          (Shop.delivery 2 .complete Shop.paidCharge "hook")).world.queue.map
            (fun msg ↦ (msg.attributes.transactionId, msg.userRef.isStr "buyer")) =
        [(Shop.orderId, true)] ∧
      ((system Shop.platform).run (Shop.after Shop.paidFor)
          (Shop.delivery 2 .complete Shop.stolenCharge "hook")).world.queue.map
            (fun msg ↦ (msg.attributes.transactionId, msg.userRef.isStr "thief")) =
        [(Shop.orderId, true)] := by
  refine ⟨⟨rfl, rfl, rfl, rfl, rfl, rfl⟩, ?_⟩
  decide +kernel

end PaymentService
