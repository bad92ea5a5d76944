import PaymentService.Attempts
import PaymentService.Delivery

/-!
# How events find their transaction

An event names the source its charge was paid with, and the row is looked up by that source. The
column holds one source, the last one written, so an event resolves exactly as long as the row still
holds the source of its charge. Here that is followed through whole runs: from the save of the
charge on, for as long as no completed save writes another source to the row.
-/

namespace PaymentService

open Async CallbackService

variable {env : Env} {txId source : String}

/-! ## Who writes the source -/

/-- The call is the completed save of a charge of the transaction with the source. -/
def savesAttempt (txId source : String) (q : Request) :
    (c : Call) → Except JsError c.Reply → Bool
  | .statusSave _, .ok _ =>
    match q with
    | .charge t s => Sql.Uuid.read t = some txId && s = source
    | _ => false
  | _, _ => false

/-- The call is a completed save that puts something else into the source of the row. -/
def overwritesSource (txId source : String) : (c : Call) → Except JsError c.Reply → Bool
  | .statusSave obj, .ok _ =>
    obj.id = some txId &&
      match obj.source with
      | .undefined => false
      | .null => true
      | .value s => Sql.varchar 50 s ≠ some source
  | _, _ => false

/-- The row is there and holds the source. -/
def HoldsSource (txId source : String) (db : Db) : Prop :=
  ∃ row, db.row? txId = some row ∧ row.source = some source

theorem holdsSource_save {db db' : Db} {obj : StatusObject} {uuid : ℕ → String}
    {saved : SavedStatus} {now : Date} (h : HoldsSource txId source db)
    (hsave : db.save obj uuid = some (saved, db'))
    (hkept : overwritesSource txId source (.statusSave obj) (.ok (saved, now)) = false) :
    HoldsSource txId source db' := by
  obtain ⟨row, hrow, hsource⟩ := h
  by_cases hid : obj.id = some txId
  · obtain ⟨-, row', hupd, hrow'⟩ := Db.row?_save_self hsave hid hrow
    have hwrite := (TransactionStatus.updated hupd).source
    refine ⟨row', hrow', ?_⟩
    rcases hobj : obj.source with _ | _ | s
    · rw [hobj, Column.writeText_undefined, hsource] at hwrite
      exact (Option.some_inj.mp hwrite).symm
    · exact absurd hkept (by simp [overwritesSource, hid, hobj])
    · have hs : Sql.varchar 50 s = some source := by
        simpa [overwritesSource, hid, hobj] using hkept
      rw [hobj, Column.writeText_value, hs] at hwrite
      exact (Option.some_inj.mp hwrite).symm
  · exact ⟨row, Db.row?_save_of_ne hsave hid hrow, hsource⟩

theorem holdsSource_advance (p : Server) (a : Step) (h : HoldsSource txId source p.world.db)
    (hkept : ∀ e ∈ ((system env).advance p a).1,
      e.counts (fun _ ↦ overwritesSource txId source) = false) :
    HoldsSource txId source ((system env).advance p a).2.world.db := by
  rcases db_advance_cases env p a with ⟨hsame, -⟩ |
    ⟨i, q, obj, k, o, saved, db, -, hsave, hcall, hworld⟩
  · rw [hsame]
    exact h
  · have hkept' : overwritesSource txId source (.statusSave obj) (.ok (saved, o.now)) = false :=
      hkept _ hcall
    rw [hworld]
    exact holdsSource_save h hsave hkept'

theorem holdsSource_run {p : Server} {as : List Step} (h : HoldsSource txId source p.world.db)
    (hkept : ∀ e ∈ (system env).trace p as,
      e.counts (fun _ ↦ overwritesSource txId source) = false) :
    HoldsSource txId source ((system env).run p as).world.db :=
  System.run_inv_of_trace (I := fun p ↦ HoldsSource txId source p.world.db)
    (fun p a hp hkept ↦ holdsSource_advance p a hp hkept) h as hkept

theorem holdsSource_of_attempt {w : World} {bs : List Step} {a : Step} {e : Event}
    (he : ((system env).advance ((system env).run (Server.start w) bs) a).1 = some e)
    (hattempt : e.counts (savesAttempt txId source) = true) :
    HoldsSource txId source
      ((system env).advance ((system env).run (Server.start w) bs) a).2.world.db := by
  have hholds := System.Contract.holds_run (RowProperty.holds_start env w) bs
  set p := (system env).run (Server.start w) bs
  rcases db_advance_cases env p a with ⟨-, hnone⟩ |
    ⟨i, q, obj, k, o, saved, db, hi, hsave, hcall, hworld⟩
  · -- The event would have to be a completed save.
    have hno := hnone e he
    obtain ⟨j, q, c, r⟩ := e
    cases c with
    | statusSave obj =>
      cases r with
      | error e => exact absurd hattempt (by simp [Occurrence.counts, savesAttempt])
      | ok r => exact absurd hno (by simp [Occurrence.counts, completesSave])
    | _ => exact absurd hattempt (by simp [Occurrence.counts, savesAttempt])
  · have hissues : Issues env (fun _ ↦ True) q (.statusSave obj) := hholds.guarantee hi
    obtain rfl := Option.some_inj.mp (he.symm.trans hcall)
    rw [hworld]
    change savesAttempt txId source q (.statusSave obj) (.ok (saved, o.now)) = true at hattempt
    rcases RowProperty.issues_statusSave hissues with
      ⟨user, product, type, tokenPackage, now, rfl, -⟩ |
      ⟨t, read, s, type, productId, chargeResult, now, rfl, hread, -, hmakes, rfl⟩ |
      ⟨body, headers, info, logs, now, rfl, -⟩
    · exact absurd hattempt (by simp [savesAttempt])
    · obtain ⟨hid, rfl⟩ : Sql.Uuid.read t = some txId ∧ s = source := by
        simpa [savesAttempt] using hattempt
      obtain rfl := Option.some_inj.mp (hread.symm.trans hid)
      obtain ⟨current, -, htaken, hrow, -⟩ := save_attemptStatus hsave
      exact ⟨_, hrow, attemptRow_source htaken hmakes.word_source current⟩
    · exact absurd hattempt (by simp [savesAttempt])

/-! ## What the provider remembers -/

/-- Every state that is reported is a state of a charge that can be retrieved, with an identifier and
a status that are words. -/
structure Provider.Remembers (provider : Provider) : Prop where
  known : ∀ charge ∈ provider.snapshots, (provider.charge? charge.id).isSome = true
  wordId : ∀ charge ∈ provider.snapshots, Word charge.id
  wordStatus : ∀ charge ∈ provider.snapshots, Word charge.status
  /-- What is there to be reported next. -/
  reported : provider.charges ⊆ provider.snapshots

theorem Provider.remembers_empty : Provider.Remembers ⟨[], []⟩ where
  known _ hc := absurd hc List.not_mem_nil
  wordId _ hc := absurd hc List.not_mem_nil
  wordStatus _ hc := absurd hc List.not_mem_nil
  reported := List.Subset.refl _

theorem Provider.remembers_create {provider : Provider} (h : provider.Remembers) {charge : Charge}
    (hid : Word charge.id) (hstatus : Word charge.status) : (provider.create charge).Remembers where
  known c hc := by
    rw [Provider.charge?_isSome_iff]
    rcases List.mem_append.mp hc with hc | hc
    · obtain ⟨known, hknown, hid⟩ := Provider.charge?_isSome_iff.mp (h.known c hc)
      exact ⟨known, List.mem_append_left _ hknown, hid⟩
    · exact ⟨c, List.mem_append_right _ hc, rfl⟩
  wordId c hc := by
    rcases List.mem_append.mp hc with hc | hc
    · exact h.wordId c hc
    · rwa [List.mem_singleton.mp hc]
  wordStatus c hc := by
    rcases List.mem_append.mp hc with hc | hc
    · exact h.wordStatus c hc
    · rwa [List.mem_singleton.mp hc]
  reported c hc := by
    rcases List.mem_append.mp hc with hc | hc
    · exact List.mem_append_left _ (h.reported hc)
    · exact List.mem_append_right _ hc

theorem Provider.remembers_settle {provider : Provider} (h : provider.Remembers) (id : String)
    {status : String} (hstatus : Word status) : (provider.settle id status).Remembers := by
  have hkeeps : ∀ known ∈ provider.charges,
      ∃ charge ∈ (provider.settle id status).charges, charge.id = known.id := by
    intro known hknown
    refine ⟨_, List.mem_map_of_mem hknown, ?_⟩
    split <;> rfl
  constructor
  · intro c hc
    rw [Provider.charge?_isSome_iff]
    rcases List.mem_append.mp hc with hc | hc
    · obtain ⟨known, hknown, hid⟩ := Provider.charge?_isSome_iff.mp (h.known c hc)
      obtain ⟨charge, hcharge, hsame⟩ := hkeeps known hknown
      exact ⟨charge, hcharge, hsame.trans hid⟩
    · obtain ⟨known, hknown, rfl⟩ := List.mem_map.mp hc
      exact hkeeps known (List.mem_filter.mp hknown).1
  · intro c hc
    rcases List.mem_append.mp hc with hc | hc
    · exact h.wordId c hc
    · obtain ⟨known, hknown, rfl⟩ := List.mem_map.mp hc
      exact h.wordId known (h.reported (List.mem_filter.mp hknown).1)
  · intro c hc
    rcases List.mem_append.mp hc with hc | hc
    · exact h.wordStatus c hc
    · obtain ⟨known, -, rfl⟩ := List.mem_map.mp hc
      exact hstatus
  · intro c hc
    obtain ⟨known, hknown, rfl⟩ := List.mem_map.mp hc
    by_cases hid : known.id = id
    · rw [if_pos hid]
      refine List.mem_append_right _ (List.mem_map_of_mem (List.mem_filter.mpr ⟨hknown, ?_⟩))
      exact decide_eq_true hid
    · rw [if_neg hid]
      exact List.mem_append_left _ (h.reported hknown)

theorem remembers_run (env : Env) {p : Server} (h : p.world.provider.Remembers) (as : List Step) :
    ((system env).run p as).world.provider.Remembers := by
  refine System.run_inv (S := system env) (I := fun p ↦ p.world.provider.Remembers)
    (fun p a hp ↦ ?_) h as
  cases a with
  | spawn q => exact hp
  | env b =>
    change (Move.apply p.world b).provider.Remembers
    rcases b.apply_cases p.world with heq | ⟨chargeId, status, hstatus, heq⟩
    · rw [heq]
      exact hp
    · rw [heq]
      exact Provider.remembers_settle hp chargeId hstatus
  | resume i o =>
    rcases (system env).advance_resume_cases p i o with heq | ⟨q, c, k, -, heq⟩
    · rw [heq]
      exact hp
    · rw [heq]
      change (perform env p.world c o).2.provider.Remembers
      rcases provider_perform_cases env p.world c o with hsame | ⟨request, rfl, hmakes, hmade⟩
      · rw [hsame]
        exact hp
      · rw [hmade]
        exact Provider.remembers_create hp hmakes.chargeId hmakes.chargeStatus

/-! ## Resolving an event -/

theorem found_iff_source (env : Env) {w : World} {charge : Charge} {o : Choice} {row : TransactionStatus}
    (hf : o.fails = false) (hrow : row ∈ w.db.statuses) :
    Found env w charge.toJs o row (w.db.attached row.id) ↔
      row.source = some charge.metadata.sourceId := by
  constructor
  · rintro ⟨-, sourceId, hsource, hfind⟩
    rw [sourceOf_toJs] at hsource
    obtain rfl := Option.some_inj.mp hsource
    exact (Db.findOneBySource_eq_some_iff.mp hfind).2.1
  · intro hsource
    exact ⟨hf, _, sourceOf_toJs charge,
      Db.findOneBySource_eq_some_iff.mpr ⟨hrow, hsource, rfl⟩⟩

/-- The columns take the words of the provider as they are. -/
theorem status_of_word {charge : Charge} {status : String} (hword : Word charge.status)
    (h : statusOf env charge.toJs = some status) : status = charge.status := by
  obtain ⟨given, hgiven, hkept⟩ := statusOf_eq_some_iff.mp h
  rw [Charge.prop_status_toJs, Env.column_str] at hgiven
  obtain rfl := Column.value.inj hgiven
  exact Sql.eq_of_varchar hword.1 hkept

theorem providerRefId_of_word {charge : Charge} (hword : Word charge.id)
    (h : ((env.column (charge.toJs.prop "id")).writeText 50 none).isSome = true)
    (row : TransactionStatus) (now : Date) (status : String) :
    (eventRow env row charge.toJs now status).providerRefId = some charge.id := by
  rw [Charge.prop_id_toJs, Env.column_str, Column.writeText_value, Option.isSome_map] at h
  obtain ⟨kept, hkept⟩ := Option.isSome_iff_exists.mp h
  rw [eventRow, Charge.prop_id_toJs, Env.column_str, Column.writeText_value, hkept,
    Sql.eq_of_varchar hword.1 hkept]
  rfl

/-- A truthful event whose lookup comes out at a row is recorded in it, if the save is accepted. -/
theorem serve_event_of_found (hlow : env.Lowercase) {w : World} {charge : Charge}
    {eventKey : OmiseChargeEvents} {o : ℕ → Choice} {row : TransactionStatus}
    (hid : charge.id ≠ "") (hprovider : w.provider.Remembers)
    (hcharge : charge ∈ w.provider.snapshots) (hok : ∀ n, (o n).fails = false)
    (hfound : Found env w charge.toJs (o 1) row (w.db.attached row.id))
    (hstorable : Storable env w.db (o 2).uuid charge.toJs (.str eventKey.value)) :
    ∃ row' entry,
      (serve env (eventRequest env eventKey charge) o w).2.db.row? row.id = some row' ∧
        row'.status = charge.status ∧ row'.providerRefId = some charge.id ∧
        (serve env (eventRequest env eventKey charge) o w).2.db.attached row.id =
          w.db.attached row.id ++ [entry] ∧ entry.channel = some "webhook" := by
  have hvalid := validated_event hlow eventKey hid (hok 0) (hprovider.known charge hcharge)
  have hstored : Stored env w (later o) charge.toJs (.str eventKey.value) row :=
    ⟨hfound, hok 2, hstorable⟩
  obtain ⟨status, w', hcol, hrun, htables, -, -⟩ := run_createTransactionLog_of_stored hstored
  rw [eventRequest, serve_of_validated hvalid, prop_data_eventBody, prop_key_eventBody, hrun]
  obtain rfl := status_of_word (hprovider.wordStatus charge hcharge) hcol
  refine ⟨eventRow env row charge.toJs (o 1).now charge.status,
    eventEntry env row (.str eventKey.value) (o 1).now ((o 2).uuid 1) charge.status,
    Db.row?_of_withEvent htables hstored.row?, rfl, ?_, ?_, rfl⟩
  · exact providerRefId_of_word (hprovider.wordId charge hcharge) hstorable.providerRefId ..
  · have hlogs := Db.attached_of_withEvent htables rfl row.id
    rwa [eventRow_id, if_pos rfl] at hlogs

/-- In every run: after the completed save of a charge of a transaction with a source, and for as
long as no completed save puts another source into the row, the lookup of every truthful event of a
charge with that source comes out at the transaction, and the event is recorded there if its save is
accepted. -/
theorem event_resolves (env : Env) (hlow : env.Lowercase) (txId source : String) (as : List Step)
    (es es' : List Event) (e : Event)
    (htrace : (system env).trace (Server.start World.empty) as = es ++ e :: es')
    (hattempt : e.counts (savesAttempt txId source) = true)
    (hkept : ∀ e' ∈ es', e'.counts (fun _ ↦ overwritesSource txId source) = false)
    (charge : Charge) (eventKey : OmiseChargeEvents) (o : ℕ → Choice)
    (hcharge : charge ∈
      ((system env).run (Server.start World.empty) as).world.provider.snapshots)
    (hsource : charge.metadata.sourceId = source) (hid : charge.id ≠ "")
    (hok : ∀ n, (o n).fails = false) :
    ∃ row, ((system env).run (Server.start World.empty) as).world.db.row? txId = some row ∧
      Found env ((system env).run (Server.start World.empty) as).world charge.toJs (o 1) row
        (((system env).run (Server.start World.empty) as).world.db.attached txId) ∧
      (Storable env ((system env).run (Server.start World.empty) as).world.db (o 2).uuid
          charge.toJs (.str eventKey.value) →
        ∃ row' entry,
          (serve env (eventRequest env eventKey charge) o
              ((system env).run (Server.start World.empty) as).world).2.db.row? txId = some row' ∧
            row'.status = charge.status ∧ row'.providerRefId = some charge.id ∧
            (serve env (eventRequest env eventKey charge) o
              ((system env).run (Server.start World.empty) as).world).2.db.attached txId =
              ((system env).run (Server.start World.empty) as).world.db.attached txId ++ [entry] ∧
            entry.channel = some "webhook") := by
  obtain ⟨bs, a, cs, rfl, -, hcall, rfl⟩ := System.trace_split _ htrace
  have hafter := holdsSource_run (holdsSource_of_attempt hcall hattempt) hkept
  rw [← System.run_cons, ← System.run_append] at hafter
  obtain ⟨row, hrow, hholds⟩ := hafter
  obtain ⟨hmem, rfl⟩ := Db.row?_eq_some_iff.mp hrow
  have hfound := (found_iff_source env (hok 1) hmem).mpr (by rw [hholds, hsource])
  have hprovider := remembers_run env (p := Server.start World.empty) Provider.remembers_empty
    (bs ++ a :: cs)
  exact ⟨row, hrow, hfound, serve_event_of_found hlow hid hprovider hcharge hok hfound⟩

/-- The calls of the paid order in the shop; number 5 is the save of the charge. -/
private def Shop.calls : List Event :=
  (system Shop.platform).trace (Server.start World.empty) Shop.paidFor

private theorem Shop.five_lt_calls : 5 < Shop.calls.length := by decide +kernel

private theorem Shop.calls_split : Shop.calls =
    Shop.calls.take 5 ++ Shop.calls.get ⟨5, Shop.five_lt_calls⟩ :: Shop.calls.drop 6 := by
  rw [List.get_eq_getElem, ← List.drop_eq_getElem_cons Shop.five_lt_calls, List.take_append_drop]

private theorem Shop.one_lt_snapshots :
    1 < (Shop.after Shop.paidFor).world.provider.snapshots.length := by decide +kernel

/-- The event of the paid order finds the order. -/
theorem event_resolves_in_shop :
    ∃ charge ∈ (Shop.after Shop.paidFor).world.provider.snapshots,
      charge.status = ChargeStatuses.successful.value ∧
        ∃ row, (Shop.after Shop.paidFor).world.db.row? Shop.orderId = some row ∧
          Found Shop.platform (Shop.after Shop.paidFor).world charge.toJs (Shop.choice "hook") row
            ((Shop.after Shop.paidFor).world.db.attached Shop.orderId) := by
  obtain ⟨row, hrow, hfound, -⟩ := event_resolves Shop.platform Shop.platform_lowercase Shop.orderId
    "src_1" Shop.paidFor (Shop.calls.take 5) (Shop.calls.drop 6)
    (Shop.calls.get ⟨5, Shop.five_lt_calls⟩) Shop.calls_split (by decide +kernel) (by decide +kernel)
    ((Shop.after Shop.paidFor).world.provider.snapshots.get ⟨1, Shop.one_lt_snapshots⟩) .complete
    (fun _ ↦ Shop.choice "hook") (List.get_mem _ _) (by decide +kernel) (by decide +kernel)
    (fun _ ↦ rfl)
  exact ⟨_, List.get_mem _ _, by decide +kernel, row, hrow, hfound⟩

/-- The buyer tries again with another source. -/
def Shop.triedAgain : List Step := Shop.paidFor ++ Shop.payment 2 "src_2" "second"

/-- The success of the first charge then resolves to nothing: the order stays pending and is not
credited. -/
theorem first_charge_forgotten :
    ∃ charge ∈ (Shop.after Shop.triedAgain).world.provider.snapshots,
      charge.status = ChargeStatuses.successful.value ∧ charge.metadata.txId = Shop.orderId ∧
        ((system Shop.platform).run (Shop.after Shop.triedAgain)
            (Shop.delivery 3 .complete charge "hook")).world.db.statuses.map
              (fun row ↦ (row.id, row.status)) =
          [(Shop.orderId, ChargeStatuses.pending.value)] ∧
        ((system Shop.platform).run (Shop.after Shop.triedAgain)
            (Shop.delivery 3 .complete charge "hook")).world.queue.length = 0 := by
  decide +kernel

end PaymentService
