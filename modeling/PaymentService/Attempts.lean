import PaymentService.Async.Accounting
import PaymentService.Rows

/-!
# Attempts to pay

A transaction can be charged any number of times, with any sources: neither its status nor its log
is looked at, and a charge comes out the same whatever they are. What is left of "charged once" is
that a call of `charge` creates at most one charge, for the transaction and the source it was given.
Within a call, everything before the creation of the charge can fail without a trace, and the save
after it cannot be undone together with it.
-/

namespace PaymentService

open Async

variable {env : Env}

/-! ## How often a transaction is charged -/

/-- The number of charges of the provider for a transaction, paid with a source in `P`. -/
def Provider.chargesFor (provider : Provider) (P : String → String → Bool) : ℕ :=
  provider.charges.countP fun charge ↦ P charge.metadata.txId charge.metadata.sourceId

/-- The request is a call of `charge` for a transaction, by whichever text for its identifier, and a
source in `P`. -/
def Request.chargesFor (P : String → String → Bool) : Request → Bool
  | .charge txId source => (Sql.Uuid.read txId).any fun id ↦ P id source
  | _ => false

/-- The call creates a charge for a transaction and a source in `P`. -/
def createsFor (P : String → String → Bool) : (c : Call) → Except JsError c.Reply → Bool
  | .chargesCreate request, .ok _ => P request.metadata.txId request.metadata.sourceId
  | _, _ => false

/-- The call creates a charge, for a request in `P`. -/
def createsOnBehalf (P : String → String → Bool) (q : Request) :
    (c : Call) → Except JsError c.Reply → Bool
  | .chargesCreate _, _ => q.chargesFor P
  | _, _ => false

theorem Provider.chargesFor_eq (provider : Provider) (P : String → String → Bool) :
    provider.chargesFor P = provider.books.countP fun entry ↦ P entry.2.txId entry.2.sourceId := by
  rw [Provider.chargesFor, Provider.books, List.countP_map]
  rfl

/-- The charges the provider has are those that were created. -/
theorem chargesFor_run (env : Env) (P : String → String → Bool) (p : Server) (as : List Step) :
    ((system env).run p as).world.provider.chargesFor P = p.world.provider.chargesFor P +
      ((system env).trace p as).countP (·.counts fun _ ↦ createsFor P) := by
  have hcall : ∀ w c o, (perform env w c o).2.provider.chargesFor P = w.provider.chargesFor P
      + (createsFor P c (perform env w c o).1).toNat := by
    intro w c o
    by_cases hc : ∀ request, c ≠ .chargesCreate request
    · have hcount : createsFor P c (perform env w c o).1 = false := by
        cases c <;> first | rfl | exact absurd rfl (hc _)
      rw [provider_perform env hc, hcount]
      rfl
    · push Not at hc
      obtain ⟨request, rfl⟩ := hc
      rw [perform_chargesCreate]
      split
      · rw [Provider.chargesFor_eq, Provider.books_create, List.countP_append,
          ← Provider.chargesFor_eq, countP_cons_toNat, List.countP_nil, Nat.zero_add]
        rfl
      · rfl
  refine System.measure_run (S := system env) (m := fun w ↦ w.provider.chargesFor P) hcall ?_ p as
  intro w b
  change (b.apply w).provider.chargesFor P = w.provider.chargesFor P
  rw [Provider.chargesFor_eq, Move.books_apply, ← Provider.chargesFor_eq]

theorem onBehalf_of_creates {P : String → String → Bool} {w : World} {as : List Step} {e : Event}
    (he : e ∈ (system env).trace (Server.start w) as)
    (hcreates : e.counts (fun _ ↦ createsFor P) = true) :
    e.counts (createsOnBehalf P) = true := by
  have hissues := RowProperty.issues_of_mem_trace he
  obtain ⟨i, q, c, r⟩ := e
  cases c with
  | chargesCreate request =>
    cases r with
    | error e => exact absurd hcreates (by simp [Occurrence.counts, createsFor])
    | ok r =>
      cases hissues with
      | create type hid hfits hrow hproduct =>
        simp only [Occurrence.counts, createsOnBehalf, Request.chargesFor, hid, Option.any_some]
        exact hcreates
  | _ => exact absurd hcreates (by simp [Occurrence.counts, createsFor])

private theorem solvent_chargeTyped (env : Env) (P : String → String → Bool) (q : Request)
    (txId source : String) (type : Option String) :
    Solvent (createsOnBehalf P q) (fun _ _ ↦ false) 1 (chargeTyped env txId source type) := by
  unfold chargeTyped
  split
  · refine .skip (fun _ ↦ rfl) fun r ↦ ?_
    cases r with
    | error e => trivial
    | ok r =>
      rw [afterFindOneByOrFail]
      unfold chargeRow
      split
      · refine .pay fun r ↦ ?_
        cases r with
        | error e => trivial
        | ok r =>
          refine .skip (fun _ ↦ rfl) fun r ↦ ?_
          cases r <;> trivial
      · trivial
  · trivial

private theorem solvent_creates (env : Env) (P : String → String → Bool) (q : Request) :
    Solvent (createsOnBehalf P q) (fun _ _ ↦ false) (q.chargesFor P).toNat (program env q) := by
  rcases hq : q.chargesFor P with _ | _
  · refine .of_always (always_of_forall (fun c r ↦ ?_) _) _
    cases c <;> first | rfl | exact hq
  · cases q with
    | pay user product type => exact absurd hq (by simp [Request.chargesFor])
    | omiseCallback body headers => exact absurd hq (by simp [Request.chargesFor])
    | charge txId source =>
      refine .bind_done ?_ fun _ ↦ trivial
      rw [charge_eq]
      refine .bind ?_ fun type ↦ solvent_chargeTyped env P _ txId source type
      exact findPaymentTypeFromSourceId_elim (fun _ ↦ trivial) ⟨fun _ ↦ rfl, fun _ _ ↦ trivial⟩

theorem chargesFor_le_calls (env : Env) (P : String → String → Bool) (w : World)
    (as : List Step) :
    ((system env).run (Server.start w) as).world.provider.chargesFor P ≤
      w.provider.chargesFor P + (System.arrivals as).countP (·.chargesFor P) := by
  have hspend := System.countP_spend_start (S := system env) (solvent_creates env P) w as
  rw [sum_map_toNat] at hspend
  have hsub : ((system env).trace (Server.start w) as).countP (·.counts fun _ ↦ createsFor P) ≤
      ((system env).trace (Server.start w) as).countP (·.counts (createsOnBehalf P)) := by
    apply List.countP_mono_left
    intro e he hcreates
    exact onBehalf_of_creates he hcreates
  rw [chargesFor_run]
  apply Nat.add_le_add_left
  simpa [Occurrence.counts] using hsub.trans hspend

/-- Two rows that a charge cannot tell apart: they agree in what its request is made of. The status,
the source, the reference and the rest of the metadata may differ. -/
structure ChargedAlike (row row' : TransactionStatus) : Prop where
  amount : row'.amount = row.amount
  currency : row'.currency = row.currency
  description : row'.description = row.description
  userRefId : row'.userRefId = row.userRefId
  productId : row'.metadata.get? "productId" = row.metadata.get? "productId"

theorem provider_serve_charge_of_created {w : World} {txId source : String} {o : ℕ → Choice}
    {row : TransactionStatus} {productId : Js} (h : ChargeCreated w txId source o row productId)
    (env : Env) :
    (serve env (.charge txId source) o w).2.provider =
      w.provider.create (createdCharge env source o row productId) := by
  rw [serve_charge]
  rcases hsave : saveOutcome w.db (savedAttempt env source o row productId)
    ((resolveType source o).2 2) with _ | ⟨saved, db⟩
  · rw [run_charge_of_rejected h hsave]
    rfl
  · rw [run_charge_of_saved h hsave]
    rfl

theorem ChargeCreated.alike {w : World} {txId source : String} {o : ℕ → Choice}
    {row row' : TransactionStatus} {productId : Js}
    (h : ChargeCreated w txId source o row productId) (halike : ChargedAlike row row') {db : Db}
    (hrow' : db.find? txId = some row') :
    ChargeCreated { w with db } txId source o row' productId where
  supported := h.supported
  lookup := h.lookup
  found := hrow'
  product := halike.productId.trans h.product
  create := h.create
  makes := h.makes
  fresh := h.fresh

/-- A charge does the same at the provider, whatever has become of the row by earlier charges. -/
theorem provider_serve_charge_of_alike (env : Env) {w : World} {db : Db} {txId : String}
    {row row' : TransactionStatus} (hrow : w.db.find? txId = some row)
    (hrow' : db.find? txId = some row') (halike : ChargedAlike row row') (source : String)
    (o : ℕ → Choice) :
    (serve env (.charge txId source) o { w with db }).2.provider =
      (serve env (.charge txId source) o w).2.provider := by
  by_cases hcreated : ∃ productId, ChargeCreated w txId source o row productId
  · obtain ⟨productId, hcreated⟩ := hcreated
    have hid : row'.id = row.id := by
      have hread := (Db.find?_eq_some_iff.mp hrow).1
      exact Option.some_inj.mp ((Db.find?_eq_some_iff.mp hrow').1.symm.trans hread)
    have hsame : createdCharge env source o row' productId =
        createdCharge env source o row productId := by
      obtain ⟨hamount, hcurrency, hdescription, huser, -⟩ := halike
      simp only [createdCharge, chargeRequest, hid, hamount, hcurrency, hdescription, huser]
    rw [provider_serve_charge_of_created (hcreated.alike halike hrow') env,
      provider_serve_charge_of_created hcreated env, hsame]
  · have hnone : ∀ read productId, ¬ChargeCreated w txId source o read productId := by
      intro read productId h
      obtain rfl := Option.some_inj.mp (hrow.symm.trans h.found)
      exact hcreated ⟨productId, h⟩
    have hnone' : ∀ read productId, ¬ChargeCreated { w with db } txId source o read productId := by
      intro read productId h
      obtain rfl := Option.some_inj.mp (hrow'.symm.trans h.found)
      exact hcreated ⟨productId, h.supported, h.lookup, hrow, halike.productId ▸ h.product,
        h.create, h.makes, h.fresh⟩
    obtain ⟨e, hrun⟩ := run_charge_of_not_created hnone env
    obtain ⟨e', hrun'⟩ := run_charge_of_not_created hnone' env
    rw [serve_charge, serve_charge, hrun, hrun']

/-- In every run, from any state: there are no more new charges for a transaction than calls of
`charge` for it, and no more with one source than calls with that source. What earlier charges have
left in the row has no part in it. -/
theorem charges_le_calls (env : Env) (w : World) (txId : String) (as : List Step) :
    ((system env).run (Server.start w) as).world.provider.chargesFor (fun t _ ↦ t = txId) ≤
        w.provider.chargesFor (fun t _ ↦ t = txId) +
          (System.arrivals as).countP (·.chargesFor fun t _ ↦ t = txId) ∧
      (∀ source, ((system env).run (Server.start w) as).world.provider.chargesFor
          (fun t s ↦ t = txId && s = source) ≤
        w.provider.chargesFor (fun t s ↦ t = txId && s = source) +
          (System.arrivals as).countP (·.chargesFor fun t s ↦ t = txId && s = source)) ∧
      ∀ (db : Db) (row row' : TransactionStatus), w.db.find? txId = some row →
        db.find? txId = some row' → ChargedAlike row row' → ∀ (source : String) (o : ℕ → Choice),
          (serve env (.charge txId source) o { w with db }).2.provider =
            (serve env (.charge txId source) o w).2.provider := by
  refine ⟨chargesFor_le_calls env _ w as, fun _ ↦ chargesFor_le_calls env _ w as, ?_⟩
  intro db row row' hrow hrow' halike source o
  exact provider_serve_charge_of_alike env hrow hrow' halike source o

/-- The order has been paid for, and a second call with another source is charged all the same. -/
theorem charged_twice :
    (Shop.after (Shop.paidFor ++ Shop.payment 2 "src_2" "second")).world.provider.charges.map
        (fun charge ↦ (charge.metadata.txId, charge.metadata.sourceId, charge.status)) =
      [(Shop.orderId, "src_1", ChargeStatuses.successful.value),
        (Shop.orderId, "src_2", ChargeStatuses.pending.value)] := by
  decide +kernel

/-! ## How far a charge gets -/

/-- The tables record a charge: the source and the reference are in the row, and the log of the row
is the one entry. -/
structure AttemptRecorded (db : Db) (id source : String) (chargeResult : Charge) : Prop where
  row : ∃ row, db.row? id = some row ∧ row.source = some source ∧
    row.providerRefId = some chargeResult.id
  log : ∃ entry, db.attached id = [entry] ∧ entry.channel = some "api" ∧
    entry.eventKey = some OmiseChargeEvents.create.value

/-- The one charge that `w'` has more than `w` was made for the row that the charge has found. -/
structure AttemptMade (env : Env) (w : World) (txId source : String) (row : TransactionStatus)
    (chargeResult : Charge) (w' : World) : Prop where
  found : w.db.find? txId = some row
  makes : ∃ type productId, (chargeRequest env row source type productId).Makes chargeResult
  provider : w'.provider = w.provider.create chargeResult

/-- How a charge can end; `o` are the choices once the type of the source is known, for the lookup of
the row, the creation of the charge and the save. -/
inductive ChargeEnd (env : Env) (w : World) (txId source : String) (o : ℕ → Choice × Bool)
    {α : Type} : Except JsError α × World → Prop
  | nothing (e : JsError) : ChargeEnd env w txId source o (.error e, w)
  /-- The answer to the creation is lost. -/
  | unanswered {row : TransactionStatus} {chargeResult : Charge} {w' : World} (e : JsError)
    (hmade : AttemptMade env w txId source row chargeResult w') (hdb : w'.db = w.db)
    (hlost : (o 1).2 = true) : ChargeEnd env w txId source o (.error e, w')
  /-- The save is rejected. -/
  | unsaved {row : TransactionStatus} {chargeResult : Charge} {now : Date} {w' : World}
    (e : JsError) (hmade : AttemptMade env w txId source row chargeResult w') (hdb : w'.db = w.db)
    (hrejected : saveOutcome w.db (attemptStatus row source chargeResult now) (o 2).1 = none) :
    ChargeEnd env w txId source o (.error e, w')
  /-- The answer to the save is lost. -/
  | unconfirmed {row : TransactionStatus} {chargeResult : Charge} {w' : World} (e : JsError)
    (hmade : AttemptMade env w txId source row chargeResult w')
    (hrecorded : AttemptRecorded w'.db row.id source chargeResult) (hlost : (o 2).2 = true) :
    ChargeEnd env w txId source o (.error e, w')
  | returned {row : TransactionStatus} {chargeResult : Charge} {w' : World} (a : α)
    (hmade : AttemptMade env w txId source row chargeResult w')
    (hrecorded : AttemptRecorded w'.db row.id source chargeResult) :
    ChargeEnd env w txId source o (.ok a, w')

section ChargeEnd

variable {w : World} {txId source : String} {row : TransactionStatus} {chargeResult : Charge}

theorem ChargeRequest.Makes.word_source {type : Option String} {productId : Js}
    (h : (chargeRequest env row source type productId).Makes chargeResult) : Word source := by
  obtain ⟨o, hmakes, -⟩ := h
  rw [means_chargeRequest] at hmakes
  exact hmakes.means source (List.mem_singleton_self source)

theorem ChargeRequest.Makes.word_id {request : ChargeRequest} (h : request.Makes chargeResult) :
    Word chargeResult.id := by
  obtain ⟨o, hmakes, rfl⟩ := h
  exact hmakes.chargeId

theorem ChargeRequest.Makes.metadata {request : ChargeRequest} (h : request.Makes chargeResult) :
    chargeResult.metadata = request.metadata := by
  obtain ⟨o, -, rfl⟩ := h
  rfl

theorem attemptRow_source {read : TransactionStatus}
    (htaken : AttemptTaken read source chargeResult) (hsource : Word source)
    (current : TransactionStatus) :
    (attemptRow read current source chargeResult).source = some source := by
  obtain ⟨kept, hkept⟩ := Option.isSome_iff_exists.mp htaken.source
  rw [attemptRow, hkept, Sql.eq_of_varchar hsource.1 hkept]

theorem attemptRow_providerRefId {read : TransactionStatus}
    (htaken : AttemptTaken read source chargeResult) (hid : Word chargeResult.id)
    (current : TransactionStatus) :
    (attemptRow read current source chargeResult).providerRefId = some chargeResult.id := by
  obtain ⟨kept, hkept⟩ := Option.isSome_iff_exists.mp htaken.chargeId
  rw [attemptRow, hkept, Sql.eq_of_varchar hid.1 hkept]

theorem attemptRecorded_of_save {type : Option String} {productId : Js} {now : Date}
    {db db' : Db} {uuid : ℕ → String} {saved : SavedStatus}
    (hmakes : (chargeRequest env row source type productId).Makes chargeResult)
    (hsave : db.save (attemptStatus row source chargeResult now) uuid = some (saved, db')) :
    AttemptRecorded db' row.id source chargeResult := by
  obtain ⟨current, -, htaken, hrow, hlogs, -⟩ := save_attemptStatus hsave
  have hsource := attemptRow_source htaken hmakes.word_source current
  have href := attemptRow_providerRefId htaken hmakes.word_id current
  exact ⟨⟨_, hrow, hsource, href⟩, ⟨_, hlogs, rfl, rfl⟩⟩

variable (env) in
theorem performOrLose_statusFindOneByOrFail (w : World) (txId : String) (o : Choice × Bool) :
    performOrLose env w (.statusFindOneByOrFail txId) o = (.error .rejected, w) ∨
      ∃ row now, w.db.find? txId = some row ∧
        performOrLose env w (.statusFindOneByOrFail txId) o = (.ok (row, now), w) := by
  rw [performOrLose]
  rcases perform_cases env w (.statusFindOneByOrFail txId) o.1 with
    ⟨heq, -⟩ | ⟨row, w', -, hanswer, heq⟩
  · left
    split <;> rw [heq]
  · obtain ⟨found, hfound, hpair⟩ := Option.map_eq_some_iff.mp hanswer
    obtain ⟨rfl, rfl⟩ := Prod.mk.inj hpair
    rw [heq]
    split
    · exact Or.inl rfl
    · exact Or.inr ⟨_, _, hfound, rfl⟩

/-- Once the charge is requested. -/
theorem chargeEnd_chargeRow {type : Option String} (hfound : w.db.find? txId = some row)
    (o : ℕ → Choice × Bool) :
    ChargeEnd env w txId source o
      (Async.run (performOrLose env) (chargeRow env source type row) (later o) w) := by
  unfold chargeRow
  split
  · next productId hproduct =>
    set request := chargeRequest env row source type productId with hrequest
    rw [run_await, later_apply, Nat.zero_add, performOrLose, perform_chargesCreate]
    by_cases hcreated : (o 1).1.fails = false ∧ (o 1).1.Makes request.means ∧
        (w.provider.charge? (o 1).1.chargeId).isNone
    · rw [if_pos hcreated]
      have hmakes : request.Makes ((o 1).1.charge request) := ⟨_, hcreated.2.1, rfl⟩
      split
      · next hlost => exact .unanswered _ ⟨hfound, ⟨_, _, hmakes⟩, rfl⟩ rfl hlost
      · simp only [afterCreateCharge]
        rw [run_await, later_apply, later_apply, Nat.zero_add, performOrLose, perform_statusSave]
        rcases hsave : saveOutcome w.db
          (attemptStatus row source ((o 1).1.charge request) (o 1).1.now) (o 2).1 with
            _ | ⟨saved, db⟩
        · split <;> exact .unsaved _ ⟨hfound, ⟨_, _, hmakes⟩, rfl⟩ rfl hsave
        · have hrecorded := attemptRecorded_of_save hmakes (saveOutcome_eq_some.mp hsave).2
          split
          · next hlost => exact .unconfirmed _ ⟨hfound, ⟨_, _, hmakes⟩, rfl⟩ hrecorded hlost
          · exact .returned _ ⟨hfound, ⟨_, _, hmakes⟩, rfl⟩ hrecorded
    · rw [if_neg hcreated]
      split <;> exact .nothing _
  · exact .nothing _

theorem chargeEnd_chargeTyped (env : Env) (w : World) (txId source : String)
    (type : Option String) (o : ℕ → Choice × Bool) :
    ChargeEnd env w txId source o
      (Async.run (performOrLose env) (chargeTyped env txId source type) o w) := by
  unfold chargeTyped
  split
  · rcases performOrLose_statusFindOneByOrFail env w txId (o 0) with
      heq | ⟨row, now, hfound, heq⟩
    · rw [run_await_of (performOrLose env) heq]
      exact .nothing _
    · rw [run_await_of (performOrLose env) heq]
      exact chargeEnd_chargeRow hfound o
  · exact .nothing _

/-- The choices that are left when the type of the source is known. -/
def choicesTyped {ω : Type} (source : String) (o : ℕ → ω) : ℕ → ω :=
  if Js.startsWith source "tokn_" then o
  else if Js.startsWith source "src_" then later o
  else o

theorem run_charge_orLose (env : Env) (txId source : String) (o : ℕ → Choice × Bool) (w : World) :
    ∃ type, Async.run (performOrLose env) (charge env txId source) o w =
      Async.run (performOrLose env) (chargeTyped env txId source type) (choicesTyped source o)
        w := by
  rw [charge_eq]
  unfold OmiseService.findPaymentTypeFromSourceId choicesTyped
  split
  · exact ⟨some PaymentTypeEnum.card.value, rfl⟩
  · split
    · simp only [OmiseService.sourcesRetrieve, call_bind, tryCatch_await, await_bind, run_await]
      have hworld : (performOrLose env w (.sourcesRetrieve source) (o 0)).2 = w := by
        unfold performOrLose perform
        split <;> split <;> rfl
      rw [hworld]
      rcases (performOrLose env w (.sourcesRetrieve source) (o 0)).1 with e | ⟨type, now⟩
      · exact ⟨none, rfl⟩
      · exact ⟨some type, rfl⟩
    · exact ⟨none, rfl⟩

theorem ChargeEnd.map {α β : Type} {o : ℕ → Choice × Bool} {r : Except JsError α × World}
    (h : ChargeEnd env w txId source o r) (f : α → β) :
    ChargeEnd env w txId source o (r.1.map f, r.2) := by
  cases h with
  | nothing e => exact .nothing e
  | unanswered e hmade hdb hlost => exact .unanswered e hmade hdb hlost
  | unsaved e hmade hdb hrejected => exact .unsaved e hmade hdb hrejected
  | unconfirmed e hmade hrecorded hlost => exact .unconfirmed e hmade hrecorded hlost
  | returned a hmade hrecorded => exact .returned (f a) hmade hrecorded

end ChargeEnd

/-- Whatever fails and whichever answers are lost: a charge that ends with an error has left
everything as it was; or it has created one charge and no more, because the answer to the creation was
lost or the save was rejected; or it has created one charge and recorded it, and the answer to the
save was lost. A charge that returns has created exactly one, and the row and its log say so. -/
theorem charge_atomic_up_to_save (env : Env) (txId source : String) (o : ℕ → Choice × Bool)
    (w : World) :
    (∀ e, (Async.run (performOrLose env) (program env (.charge txId source)) o w).1 = .error e →
        (Async.run (performOrLose env) (program env (.charge txId source)) o w).2 = w ∨
          ∃ row chargeResult, AttemptMade env w txId source row chargeResult
              (Async.run (performOrLose env) (program env (.charge txId source)) o w).2 ∧
            (((Async.run (performOrLose env) (program env (.charge txId source)) o w).2.db = w.db ∧
                ((choicesTyped source o 1).2 = true ∨
                  ∃ now, saveOutcome w.db (attemptStatus row source chargeResult now)
                    (choicesTyped source o 2).1 = none)) ∨
              AttemptRecorded
                  (Async.run (performOrLose env) (program env (.charge txId source)) o w).2.db
                  row.id source chargeResult ∧
                (choicesTyped source o 2).2 = true)) ∧
      ∀ response,
        (Async.run (performOrLose env) (program env (.charge txId source)) o w).1 = .ok response →
          ∃ row chargeResult, AttemptMade env w txId source row chargeResult
              (Async.run (performOrLose env) (program env (.charge txId source)) o w).2 ∧
            AttemptRecorded
              (Async.run (performOrLose env) (program env (.charge txId source)) o w).2.db
              row.id source chargeResult := by
  obtain ⟨type, hrun⟩ := run_charge_orLose env txId source o w
  have hend := (chargeEnd_chargeTyped env w txId source type (choicesTyped source o)).map
    Response.charged
  rw [← hrun, ← run_bind_done (performOrLose env) (charge env txId source)] at hend
  change ChargeEnd env w txId source (choicesTyped source o)
    (Async.run (performOrLose env) (program env (.charge txId source)) o w) at hend
  generalize Async.run (performOrLose env) (program env (.charge txId source)) o w = r at hend
  constructor
  · intro e he
    cases hend with
    | nothing e' => exact Or.inl rfl
    | unanswered e' hmade hdb hlost => exact Or.inr ⟨_, _, hmade, Or.inl ⟨hdb, Or.inl hlost⟩⟩
    | unsaved e' hmade hdb hrejected =>
      exact Or.inr ⟨_, _, hmade, Or.inl ⟨hdb, Or.inr ⟨_, hrejected⟩⟩⟩
    | unconfirmed e' hmade hrecorded hlost =>
      exact Or.inr ⟨_, _, hmade, Or.inr ⟨hrecorded, hlost⟩⟩
    | returned a => cases he
  · intro response hresponse
    cases hend with
    | returned a hmade hrecorded => exact ⟨_, _, hmade, hrecorded⟩
    | _ => cases hresponse

/-- Two orders, and the first is charged with `src_1`. -/
def Shop.twoOrders : List Step :=
  Shop.purchase ++ Shop.payment 1 "src_1" "first" ++
    .spawn (.pay (some "buyer") 7 PaymentTypeEnum.qr.value) :: Shop.resumes 2 "other" 2

/-- Charging the second order with the same source ends with an error, because the source is taken,
and leaves a charge for the order that the order does not know. -/
theorem charged_and_not_recorded :
    ((Shop.after (Shop.twoOrders)).world.db.row? (Shop.uuid "other1" 0)).isSome = true ∧
      ((serve Shop.platform (.charge (Shop.uuid "other1" 0) "src_1")
          (fun n ↦ Shop.choice ("again" ++ toString n)) (Shop.after Shop.twoOrders).world).1
            matches .error _) = true ∧
      (serve Shop.platform (.charge (Shop.uuid "other1" 0) "src_1")
          (fun n ↦ Shop.choice ("again" ++ toString n))
          (Shop.after Shop.twoOrders).world).2.provider.charges.map
            (fun charge ↦ (charge.id, charge.metadata.txId)) =
        [("first2", Shop.orderId), ("again2", (Shop.uuid "other1" 0))] ∧
      ((serve Shop.platform (.charge (Shop.uuid "other1" 0) "src_1")
          (fun n ↦ Shop.choice ("again" ++ toString n))
          (Shop.after Shop.twoOrders).world).2.db.row? (Shop.uuid "other1" 0)).map (·.providerRefId) =
        some none := by
  decide +kernel

end PaymentService
