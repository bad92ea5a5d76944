import PaymentService.Async.Receipts
import PaymentService.Attempts

/-!
# The ledger

What the tables and the provider's books hold after a run, in terms of what the requests returned. A
purchase that returns has left one row and a charge that returns one entry with the channel `api`;
nothing else leaves a row or such an entry, and nothing removes one. A charge at the provider is
left by the call before the last one, so there can be more of them than entries and never less.

The entries of the log are written once. What can change is which transaction an entry is attached
to, and that only between the one it was made for and none: a handling writes back a list of entries
that it has read some time before, and in the meantime they may have been detached, but not moved.
-/

namespace PaymentService

open Async

variable {env : Env}

/-! ## What a save leaves -/

section Save

variable {db db' : Db} {obj : StatusObject} {uuid : ℕ → String} {saved : SavedStatus}

/-- The identifiers of the entries that charges have left. -/
def Db.attempts (db : Db) : List String := (db.logs.filter (·.channel = some "api")).map (·.id)

theorem id_of_save {id : String} (hsave : db.save obj uuid = some (saved, db'))
    (hid : obj.id = some id) : saved.id = id := by
  obtain ⟨hstatus, -⟩ := Db.save_eq_some hsave
  rcases Db.writeStatus_cases hstatus with ⟨_, -, -, ho | ho⟩ | ⟨_, _, ho, -⟩
  · exact Option.some_inj.mp (ho.symm.trans hid)
  · exact absurd (ho.symm.trans hid) (by simp)
  · exact Option.some_inj.mp (ho.symm.trans hid)

theorem map_id_save {id : String} (hsave : db.save obj uuid = some (saved, db'))
    (hid : obj.id = some id) {row : TransactionStatus} (hrow : db.row? id = some row) :
    db'.statuses.map (·.id) = db.statuses.map (·.id) := by
  obtain ⟨hstatus, -⟩ := Db.save_eq_some hsave
  rw [Db.row?] at hrow
  simp only [Tables.writeStatus, hid, hrow, Option.map_eq_some_iff, Prod.mk.injEq] at hstatus
  obtain ⟨row', hupd, -, hs⟩ := hstatus
  have hid' : row'.id = id := by
    rw [(TransactionStatus.updated hupd).id, Keyed.key_of_find hrow]
  rw [← hs]
  exact Keyed.map_key_replace TransactionStatus.id hid' db.statuses

theorem map_id_save_new (hsave : db.save obj uuid = some (saved, db')) (hid : obj.id = none) :
    db'.statuses.map (·.id) = db.statuses.map (·.id) ++ [saved.id] := by
  obtain ⟨hstatus, -⟩ := Db.save_eq_some hsave
  simp only [Tables.writeStatus, hid, Option.map_eq_some_iff, Prod.mk.injEq] at hstatus
  obtain ⟨row, hins, huuid, hs⟩ := hstatus
  rw [← hs, ← huuid, List.map_append, List.map_singleton,
    (StatusObject.inserted hins).id]

/-- The entries after a save: those before it, up to what they are attached to, and the new ones. -/
theorem logs_save {array : LogArray} (hsave : db.save obj uuid = some (saved, db'))
    (hlogs : obj.transactionLogs = some array) :
    ∃ created, insertLogs saved.id (fun n ↦ uuid (n + 1)) array.created = some created ∧
      saved.transactionLogs = array.loaded ++ created ∧
      db'.logs = db.logs.map (relink saved.id array.loaded) ++ created := by
  obtain ⟨-, hwrite⟩ := Db.save_eq_some hsave
  rw [hlogs] at hwrite
  obtain ⟨created, hcreated, hpair⟩ := Option.map_eq_some_iff.mp hwrite
  obtain ⟨hsaved, hs⟩ := Prod.mk.inj hpair
  exact ⟨created, hcreated, hsaved.symm, hs.symm⟩

theorem logs_save_none (hsave : db.save obj uuid = some (saved, db'))
    (hlogs : obj.transactionLogs = none) : db'.logs = db.logs := by
  obtain ⟨-, hwrite⟩ := Db.save_eq_some hsave
  rw [hlogs] at hwrite
  exact (Prod.mk.inj (Option.some_inj.mp hwrite)).2.symm

theorem attempts_relink (statusId : String) (loaded logs : List TransactionLog) :
    ((logs.map (relink statusId loaded)).filter (·.channel = some "api")).map (·.id) =
      (logs.filter (·.channel = some "api")).map (·.id) := by
  induction logs with
  | nil => rfl
  | cons log logs ih =>
    obtain ⟨fk, heq⟩ := relink_eq statusId loaded log
    rw [List.map_cons, heq, List.filter_cons, List.filter_cons]
    split
    · rw [List.map_cons, List.map_cons, ih]
    · exact ih

theorem channel_of_insertLogs {statusId channel : String} {new : NewLog}
    {created : List TransactionLog} (hnew : new.channel = .value channel)
    (hfits : Sql.FitsVarchar 10 channel) (h : insertLogs statusId uuid [new] = some created) :
    ∃ entry, created = [entry] ∧ entry.channel = some channel := by
  simp only [insertLogs, NewLog.insert, hnew, Column.writeText_value, Sql.varchar_of_fits hfits,
    Option.map_some, bind, Option.bind_some, Option.bind_eq_some_iff, Option.some.injEq] at h
  obtain ⟨entry, ⟨_, -, _, -, rfl⟩, entries, rfl, rfl⟩ := h
  exact ⟨_, rfl, rfl⟩

end Save

/-! ## What the requests return -/

/-- The transaction that a response names as new. -/
def Response.orders : Response → List String
  | .transaction id => [id]
  | _ => []

/-- The entries that a response to a charge lists. -/
def Response.attempts : Response → List String
  | .charged response => response.details.transactionLogs.map (·.id)
  | _ => []

/-- The row a purchase has left. -/
def orderLeft : Request → (c : Call) → Except JsError c.Reply → List String
  | .pay _ _ _, .statusSave _, .ok (saved, _) => [saved.id]
  | _, _, _ => []

/-- The entries a charge has left. -/
def attemptLeft : Request → (c : Call) → Except JsError c.Reply → List String
  | .charge _ _, .statusSave _, .ok (saved, _) => saved.transactionLogs.map (·.id)
  | _, _, _ => []

private theorem receipted_pay (env : Env) (user : Option String) (product : ℚ) (type : String) :
    Receipted (orderLeft (.pay user product type)) Response.orders
      (program env (.pay user product type)) := by
  refine Receipted.bind_done ?_
  rw [createPaymentTransaction_eq]
  intro r
  match r with
  | .error e => exact ⟨rfl, trivial⟩
  | .ok (tokenPackage, now) =>
    refine ⟨rfl, fun r ↦ ?_⟩
    match r with
    | .error e => exact ⟨rfl, trivial⟩
    | .ok (saved, later) => exact ⟨rfl, trivial⟩

private theorem receipted_chargeTyped (env : Env) (txId source : String) (type : Option String) :
    Receipted (attemptLeft (.charge txId source)) (fun r ↦ Response.attempts (.charged r))
        (chargeTyped env txId source type) ∧
      receipts (fun r ↦ Response.attempts (.charged r)) (chargeTyped env txId source type) = [] := by
  unfold chargeTyped
  split
  · refine ⟨fun r ↦ ?_, rfl⟩
    rcases r with e | ⟨row, before⟩
    · exact ⟨rfl, trivial⟩
    rw [afterFindOneByOrFail]
    unfold chargeRow
    split
    · refine ⟨rfl, fun r ↦ ?_⟩
      rcases r with e | ⟨chargeResult, now⟩
      · exact ⟨rfl, trivial⟩
      refine ⟨rfl, fun r ↦ ?_⟩
      rcases r with e | ⟨saved, later⟩
      · exact ⟨rfl, trivial⟩
      · exact ⟨rfl, trivial⟩
    · exact ⟨rfl, trivial⟩
  · exact ⟨trivial, rfl⟩

theorem receipted_orders (env : Env) (q : Request) :
    Receipted (orderLeft q) Response.orders (program env q) ∧
      receipts Response.orders (program env q) = [] := by
  match q with
  | .pay user product type =>
    refine ⟨receipted_pay env user product type, ?_⟩
    refine (receipts_bind_done _ _ _).trans ?_
    rw [createPaymentTransaction_eq]
    rfl
  | .charge txId source =>
    exact receipted_bind_done_of_nothing (fun _ _ ↦ rfl) (fun _ ↦ rfl) (charge env txId source)
  | .omiseCallback body headers =>
    exact receipted_bind_done_of_nothing (fun _ _ ↦ rfl) (fun _ ↦ rfl)
      (CallbackController.handleOmiseCallBack env body headers)

theorem receipted_attempts (env : Env) (q : Request) :
    Receipted (attemptLeft q) Response.attempts (program env q) ∧
      receipts Response.attempts (program env q) = [] := by
  match q with
  | .pay user product type =>
    exact receipted_bind_done_of_nothing (fun _ _ ↦ rfl) (fun _ ↦ rfl)
      (createPaymentTransaction env user product type)
  | .charge txId source =>
    have hlookup : Always (fun c ↦ ∀ r, attemptLeft (.charge txId source) c r = [])
        (OmiseService.findPaymentTypeFromSourceId source) :=
      findPaymentTypeFromSourceId_elim (fun _ ↦ trivial) ⟨fun _ ↦ rfl, fun _ _ ↦ trivial⟩
    obtain ⟨hreceipted, hnone⟩ := Receipted.bind hlookup
      (fun type ↦ (receipted_chargeTyped env txId source type).1)
      (fun type ↦ (receipted_chargeTyped env txId source type).2)
    rw [← charge_eq] at hreceipted hnone
    exact ⟨hreceipted.bind_done, (receipts_bind_done _ _ _).trans hnone⟩
  | .omiseCallback body headers =>
    exact receipted_bind_done_of_nothing (fun _ _ ↦ rfl) (fun _ ↦ rfl)
      (CallbackController.handleOmiseCallBack env body headers)

/-! ## What a call leaves -/

/-- A view of the rows that says nothing: what its contract gives is that rows do not go away. -/
def rowsStay (env : Env) : RowConstant env where
  View := Unit
  view _ := ()
  charge _ _ := rfl
  record _ _ _ := rfl

/-- What a save of a run does to both tables, by the request that it is for. -/
theorem left_by_save {w : World} {q : Request} {obj : StatusObject} {db' : Db} {uuid : ℕ → String}
    {saved : SavedStatus} {now : Date} (hq : Issues env ((rowsStay env).Known w) q (.statusSave obj))
    (hsave : w.db.save obj uuid = some (saved, db')) :
    db'.statuses.map (·.id) =
        w.db.statuses.map (·.id) ++ orderLeft q (.statusSave obj) (.ok (saved, now)) ∧
      db'.attempts = w.db.attempts ++ attemptLeft q (.statusSave obj) (.ok (saved, now)) := by
  rcases RowProperty.issues_statusSave hq with
    ⟨user, product, type, tokenPackage, later, rfl, rfl⟩ |
    ⟨txId, row, source, type, productId, chargeResult, later, rfl, -, ⟨current, hcurrent, -⟩, -,
      rfl⟩ |
    ⟨body, headers, info, logs, later, rfl, -, ⟨current, hcurrent, -⟩, rfl⟩
  · refine ⟨map_id_save_new hsave rfl, ?_⟩
    rw [Db.attempts, logs_save_none hsave rfl]
    exact (List.append_nil _).symm
  · refine ⟨(map_id_save hsave rfl hcurrent).trans (List.append_nil _).symm, ?_⟩
    obtain ⟨created, hcreated, hsaved, hlogs⟩ := logs_save hsave rfl
    obtain ⟨entry, rfl, hchannel⟩ := channel_of_insertLogs rfl (by decide) hcreated
    have hapi : decide (entry.channel = some "api") = true := decide_eq_true hchannel
    rw [Db.attempts, hlogs, List.filter_append, List.map_append, attempts_relink, attemptLeft,
      hsaved, List.filter_singleton, hapi]
    rfl
  · refine ⟨(map_id_save hsave rfl hcurrent).trans (List.append_nil _).symm, ?_⟩
    obtain ⟨created, hcreated, -, hlogs⟩ := logs_save hsave rfl
    obtain ⟨entry, rfl, hchannel⟩ := channel_of_insertLogs rfl (by decide) hcreated
    have hhook : decide (entry.channel = some "api") = false := by
      rw [hchannel]
      decide
    rw [Db.attempts, hlogs, List.filter_append, List.map_append, attempts_relink,
      List.filter_singleton, hhook]
    rfl

/-- What is left by a call is what the request is then given a receipt for. -/
theorem left_by_call {w : World} {q : Request} {c : Call}
    (hq : Issues env ((rowsStay env).Known w) q c) (o : Choice) :
    (perform env w c o).2.db.statuses.map (·.id) =
        w.db.statuses.map (·.id) ++ orderLeft q c (perform env w c o).1 ∧
      (perform env w c o).2.db.attempts =
        w.db.attempts ++ attemptLeft q c (perform env w c o).1 := by
  by_cases hc : ∀ obj, c ≠ .statusSave obj
  · have hnothing : orderLeft q c (perform env w c o).1 = [] ∧
        attemptLeft q c (perform env w c o).1 = [] := by
      constructor <;> cases q <;> cases c <;> first | rfl | exact absurd rfl (hc _)
    rw [db_perform env hc, hnothing.1, hnothing.2, List.append_nil, List.append_nil]
    exact ⟨rfl, rfl⟩
  · push Not at hc
    obtain ⟨obj, rfl⟩ := hc
    rw [perform_statusSave]
    rcases hsave : saveOutcome w.db obj o with _ | ⟨saved, db⟩
    · have hnothing : orderLeft q (.statusSave obj) (.error .rejected) = [] ∧
          attemptLeft q (.statusSave obj) (.error .rejected) = [] := by
        constructor <;> cases q <;> rfl
      rw [hnothing.1, hnothing.2, List.append_nil, List.append_nil]
      exact ⟨rfl, rfl⟩
    · exact left_by_save hq (saveOutcome_eq_some.mp hsave).2

/-! ## More charges than attempts -/

/-- The call records an attempt to pay. -/
def recordsAttempt : Request → (c : Call) → Except JsError c.Reply → Bool
  | .charge _ _, .statusSave _, .ok _ => true
  | _, _, _ => false

private theorem solvent_attempts (env : Env) (q : Request) :
    Solvent (recordsAttempt q) (createsFor fun _ _ ↦ true) 0 (program env q) := by
  match q with
  | .pay user product type =>
    refine .of_always (always_of_forall (fun c r ↦ ?_) _) 0
    cases c <;> cases r <;> rfl
  | .omiseCallback body headers =>
    refine .of_always (always_of_forall (fun c r ↦ ?_) _) 0
    cases c <;> cases r <;> rfl
  | .charge txId source =>
    refine .bind_done ?_ fun _ ↦ trivial
    rw [charge_eq]
    refine .bind ?_ fun type ↦ ?_
    · exact findPaymentTypeFromSourceId_elim (fun _ ↦ trivial) ⟨fun _ ↦ rfl, fun _ _ ↦ trivial⟩
    · unfold chargeTyped
      split
      · refine .skip (fun _ ↦ rfl) fun r ↦ ?_
        rcases r with e | ⟨row, before⟩
        · trivial
        rw [afterFindOneByOrFail]
        unfold chargeRow
        split
        · intro r
          rcases r with e | ⟨chargeResult, now⟩
          · exact ⟨0, Nat.le_refl _, trivial⟩
          refine ⟨1, Nat.le_refl _, .pay fun r ↦ ?_⟩
          rcases r with e | ⟨saved, later⟩ <;> trivial
        · trivial
      · trivial

private theorem length_attemptLeft {w : World} {q : Request} {c : Call}
    (hq : Issues env ((rowsStay env).Known w) q c) (o : Choice) :
    (attemptLeft q c (perform env w c o).1).length =
      (recordsAttempt q c (perform env w c o).1).toNat := by
  by_cases hc : ∀ obj, c ≠ .statusSave obj
  · cases q <;> cases c <;> first | rfl | exact absurd rfl (hc _)
  · push Not at hc
    obtain ⟨obj, rfl⟩ := hc
    rw [perform_statusSave]
    rcases hsave : saveOutcome w.db obj o with _ | ⟨saved, db⟩
    · cases q <;> rfl
    · rcases RowProperty.issues_statusSave hq with ⟨user, product, type, tokenPackage, later, rfl, rfl⟩ |
        ⟨txId, row, source, type, productId, chargeResult, later, rfl, -, -, -, rfl⟩ |
        ⟨body, headers, info, logs, later, rfl, -, -, rfl⟩
      · rfl
      · obtain ⟨created, hcreated, hsaved, -⟩ := logs_save (saveOutcome_eq_some.mp hsave).2 rfl
        obtain ⟨entry, rfl, -⟩ := channel_of_insertLogs rfl (by decide) hcreated
        rw [attemptLeft, hsaved]
        rfl
      · rfl

theorem length_attempts_run (env : Env) (w : World) (as : List Step) :
    ((system env).run (Server.start w) as).world.db.attempts.length = w.db.attempts.length +
      ((system env).trace (Server.start w) as).countP (·.counts recordsAttempt) := by
  have hstart : (rowsStay env).contract.Holds (Server.start w) :=
    System.Contract.holds_start True.intro
  refine (System.run_trace_inv (S := system env)
    (I := fun es p ↦ (rowsStay env).contract.Holds p ∧ p.world.db.attempts.length =
      w.db.attempts.length + es.countP (·.counts recordsAttempt)) (fun es p a hp ↦ ?_)
    ⟨hstart, rfl⟩ as).2
  obtain ⟨hholds, hlength⟩ := hp
  refine ⟨System.Contract.holds_advance hholds a, ?_⟩
  match a with
  | .spawn q => simpa using hlength
  | .env b =>
    rw [System.advance_env, Option.toList_none, List.append_nil]
    change (Move.apply p.world b).db.attempts.length = _
    rw [Move.db_apply]
    exact hlength
  | .resume i o =>
    rcases (system env).advance_resume_cases p i o with heq | ⟨q, c, k, hi, heq⟩
    · rw [heq]
      simpa using hlength
    · have hissues : Issues env ((rowsStay env).Known p.world) q c := hholds.guarantee hi
      have hleft := congrArg List.length (left_by_call hissues o).2
      rw [List.length_append, length_attemptLeft hissues o] at hleft
      rw [heq, Option.toList_some, List.countP_append, countP_cons_toNat, List.countP_nil]
      change (perform env p.world c o).2.db.attempts.length = _
      rw [hleft, hlength, Nat.zero_add, Nat.add_assoc]
      rfl

/-! ## What is stored was returned -/

/-- In every run, from any state: the new rows are those whose identifiers purchases have returned,
each once, and the new entries of charges are those that charges have returned, each once; and there
are no more new attempts than new charges at the provider. -/
theorem stored_of_returned (env : Env) (w : World) (as : List Step) :
    (((system env).run (Server.start w) as).world.db.statuses.map (·.id)).Perm
        (w.db.statuses.map (·.id) ++
          System.handedOut Response.orders ((system env).run (Server.start w) as)) ∧
      ((system env).run (Server.start w) as).world.db.attempts.Perm
        (w.db.attempts ++
          System.handedOut Response.attempts ((system env).run (Server.start w) as)) ∧
      ((system env).run (Server.start w) as).world.db.attempts.length + w.provider.charges.length ≤
        w.db.attempts.length +
          ((system env).run (Server.start w) as).world.provider.charges.length := by
  have hstart : (rowsStay env).contract.Holds (Server.start w) :=
    System.Contract.holds_start True.intro
  have hkeeps : ∀ p a, (rowsStay env).contract.Holds p →
      (rowsStay env).contract.Holds ((system env).advance p a).2 :=
    fun p a hp ↦ System.Contract.holds_advance hp a
  refine ⟨?_, ?_, ?_⟩
  · refine System.accounted_run (S := system env) (m := fun w ↦ w.db.statuses.map (·.id))
      (receipted_orders env) hkeeps (fun o hp hi ↦ ?_) (fun w b ↦ by rw [← Move.db_apply w b]; rfl)
      hstart as
    exact .of_eq (left_by_call (hp.guarantee hi) o).1
  · refine System.accounted_run (S := system env) (m := fun w ↦ w.db.attempts)
      (receipted_attempts env) hkeeps (fun o hp hi ↦ ?_) (fun w b ↦ by rw [← Move.db_apply w b]; rfl)
      hstart as
    exact .of_eq (left_by_call (hp.guarantee hi) o).2
  · have hrecorded := length_attempts_run env w as
    have hsolvent : ((system env).trace (Server.start w) as).countP (·.counts recordsAttempt) ≤
        ((system env).trace (Server.start w) as).countP
          (·.counts fun _ ↦ createsFor fun _ _ ↦ true) := by
      simpa using System.countP_spend_start (S := system env) (solvent_attempts env) w as
    have hcreated := chargesFor_run env (fun _ _ ↦ true) (Server.start w) as
    simp only [Provider.chargesFor, List.countP_true] at hcreated
    change _ = w.provider.charges.length + _ at hcreated
    omega

/-! ## What becomes of an entry -/

/-- Every entry is still in its place and says what it said. If it is attached to a transaction before
and after, it is the same one. -/
def Kept (logs logs' : List TransactionLog) : Prop :=
  ∀ (n : ℕ) (entry : TransactionLog), logs[n]? = some entry →
    ∃ fk, logs'[n]? = some { entry with transactionStatusId := fk } ∧
      ∀ t ∈ entry.transactionStatusId, ∀ t' ∈ fk, t' = t

theorem Kept.refl (logs : List TransactionLog) : Kept logs logs := by
  intro n entry hentry
  refine ⟨entry.transactionStatusId, hentry, fun t ht t' ht' ↦ ?_⟩
  exact Option.some_inj.mp (ht'.symm.trans ht)

/-- A save keeps what has been kept so far, if it attaches the entries that it lists where they were
attached. -/
theorem Kept.relink {logs logs' loaded created : List TransactionLog} {id : String}
    (h : Kept logs logs')
    (hloaded : ∀ (n : ℕ) (entry : TransactionLog), logs[n]? = some entry →
      entry.id ∈ loaded.map (·.id) → ∀ t ∈ entry.transactionStatusId, id = t) :
    Kept logs (logs'.map (relink id loaded) ++ created) := by
  intro n entry hentry
  obtain ⟨fk, hlater, hsame⟩ := h n entry hentry
  have hrelinked : (logs'.map (PaymentService.relink id loaded) ++ created)[n]? =
      some (PaymentService.relink id loaded { entry with transactionStatusId := fk }) := by
    have hlt := (List.getElem?_eq_some_iff.mp hlater).1
    rw [List.getElem?_append_left (by rwa [List.length_map]), List.getElem?_map, hlater]
    rfl
  rw [hrelinked]
  unfold PaymentService.relink
  split
  · next hin => exact ⟨some id, rfl, fun t ht t' ht' ↦ by
      rw [← Option.some_inj.mp ht']
      exact hloaded n entry hentry hin t ht⟩
  · split
    · exact ⟨none, rfl, fun t _ t' ht' ↦ absurd ht' (by simp)⟩
    · exact ⟨fk, rfl, hsame⟩

/-- Two entries with one identifier stand in the same place, however many moves lie between. -/
theorem Kept.index_eq {logs₁ logs₂ logs : List TransactionLog} (h₁ : Kept logs₁ logs)
    (h₂ : Kept logs₂ logs) (hids : (logs.map (·.id)).Nodup) {n m : ℕ}
    {entry₁ entry₂ : TransactionLog} (hn : logs₁[n]? = some entry₁)
    (hm : logs₂[m]? = some entry₂) (hid : entry₁.id = entry₂.id) : n = m := by
  obtain ⟨fk₁, hlater₁, -⟩ := h₁ n entry₁ hn
  obtain ⟨fk₂, hlater₂, -⟩ := h₂ m entry₂ hm
  have hlt : n < (logs.map (·.id)).length := by
    rw [List.length_map]
    exact (List.getElem?_eq_some_iff.mp hlater₁).1
  refine (List.getElem?_inj hlt hids).mp ?_
  rw [List.getElem?_map, List.getElem?_map, hlater₁, hlater₂]
  exact congrArg some hid

/-- What a move keeps, if all moves before it have kept what was there. -/
private theorem kept_advance {w : World} {cs : List Step} (a : Step)
    (hpast : ∀ as ds, as <+: ds → ds <+: cs →
      Kept ((system env).run (Server.start w) as).world.db.logs
        ((system env).run (Server.start w) ds).world.db.logs)
    {as : List Step} (has : as <+: cs) :
    Kept ((system env).run (Server.start w) as).world.db.logs
      ((system env).advance ((system env).run (Server.start w) cs) a).2.world.db.logs := by
  have hkept := hpast as cs has (List.prefix_refl cs)
  rcases db_advance_cases env ((system env).run (Server.start w) cs) a with ⟨hsame, -⟩ |
    ⟨i, q, obj, k, o, saved, db, -, hsave, hcall, hworld⟩
  · rw [hsame]
    exact hkept
  · rw [hworld]
    rcases (issued_of_advance hcall).statusSave_cases with
      ⟨user, product, type, tokenPackage, now, -, hobj, -⟩ |
      ⟨txId, source, type, row, before, productId, chargeResult, now, -, hobj, -, -⟩ |
      ⟨body, headers, info, loaded, now, -, hobj, hfound⟩
    · obtain rfl : obj = _ := hobj
      change Kept _ db.logs
      rw [logs_save_none hsave rfl]
      exact hkept
    · obtain rfl : obj = _ := hobj
      obtain ⟨created, -, -, hlogs⟩ := logs_save hsave rfl
      change Kept _ db.logs
      rw [hlogs]
      exact hkept.relink fun n entry _ hin ↦ absurd hin (by simp)
    · obtain rfl : obj = _ := hobj
      obtain ⟨created, -, hsaved, hlogs⟩ := logs_save hsave rfl
      change Kept _ db.logs
      rw [hlogs]
      refine hkept.relink fun n entry hentry hin t ht ↦ ?_
      -- The list was read at `ds`, where its entries were attached to the row that was found.
      obtain ⟨ds, es, sourceId, pick, hcs, -, hfind⟩ := hfound.past (List.append_nil _).symm
      have hds : ds <+: cs := ⟨es, hcs.symm⟩
      obtain ⟨-, rfl⟩ := Db.mem_of_findOneBySource hfind
      obtain ⟨read, hread, hid⟩ := List.mem_map.mp hin
      obtain ⟨hmem, hfk⟩ := Db.mem_attached.mp hread
      obtain ⟨m, hm⟩ := List.mem_iff_getElem?.mp hmem
      obtain rfl : n = m := hkept.index_eq (hpast ds cs hds (List.prefix_refl cs))
        ((system env).run (Server.start w) cs).world.db.legal.logIds hentry hm hid.symm
      rw [id_of_save hsave rfl]
      rcases List.prefix_or_prefix_of_prefix has hds with hle | hle
      · obtain ⟨fk, hlater, hsame⟩ := hpast as ds hle hds n entry hentry
        obtain rfl := Option.some_inj.mp (hm.symm.trans hlater)
        exact hsame t ht info.id hfk
      · obtain ⟨fk, hlater, hsame⟩ := hpast ds as hle has n read hm
        obtain rfl := Option.some_inj.mp (hentry.symm.trans hlater)
        exact (hsame info.id hfk t ht).symm

/-- In every run, from any state: an entry of the log is never deleted, moved to another place or
edited, and it is never attached to two different transactions, not even at different times. -/
theorem entries_kept (env : Env) (w : World) (as bs : List Step) :
    Kept ((system env).run (Server.start w) as).world.db.logs
      ((system env).run (Server.start w) (as ++ bs)).world.db.logs := by
  have hall : ∀ cs as ds : List Step, as <+: ds → ds <+: cs →
      Kept ((system env).run (Server.start w) as).world.db.logs
        ((system env).run (Server.start w) ds).world.db.logs := by
    intro cs
    induction cs using List.reverseRecOn with
    | nil =>
      intro as ds has hds
      obtain rfl := List.prefix_nil.mp hds
      obtain rfl := List.prefix_nil.mp has
      exact Kept.refl _
    | append_singleton cs a ih =>
      intro as ds has hds
      rcases List.prefix_concat_iff.mp hds with rfl | hds
      · rcases List.prefix_concat_iff.mp has with rfl | has
        · exact Kept.refl _
        · rw [System.run_append, System.run_cons, System.run_nil]
          exact kept_advance a ih has
      · exact ih as ds has hds
  exact hall (as ++ bs) as (as ++ bs) (List.prefix_append as bs) (List.prefix_refl _)

/-! ## What is charged -/

/-- What a charge and its row have in common. -/
structure Bill where
  userRefId : String
  amount : ℤ
  currency : String
  description : Option String

def TransactionStatus.bill (row : TransactionStatus) : Bill where
  userRefId := row.userRefId
  amount := row.amount
  currency := row.currency
  description := row.description

def Charge.bill (charge : Charge) : Bill where
  userRefId := charge.metadata.userRefId
  amount := charge.amount
  currency := charge.currency
  description := charge.description

/-- What a row is to be charged never changes. -/
def billOfRow (env : Env) : RowConstant env where
  View := Bill
  view := TransactionStatus.bill
  charge := by
    intro read row source chargeResult now row' hview hupd
    obtain rfl := eq_of_update_attemptStatus hupd
    rfl
  record := by
    intro info row logs data eventKey now row' hinfo hview hupd
    obtain ⟨status, providerRefId, rfl⟩ :=
      CallbackService.eq_of_update_recordedStatus hinfo hupd
    exact hview

/-- The bills in the provider's books, by transaction. -/
def Provider.bills (provider : Provider) : List (String × Bill) :=
  provider.charges.map fun charge ↦ (charge.metadata.txId, charge.bill)

theorem Move.bills_apply (w : World) (b : Move) :
    (b.apply w).provider.bills = w.provider.bills := by
  rcases b.apply_cases w with heq | ⟨chargeId, status, -, heq⟩
  · rw [heq]
  · simp only [heq, Provider.bills, Provider.settle, List.map_map]
    refine List.map_congr_left fun charge _ ↦ ?_
    simp only [Function.comp_apply]
    split <;> rfl

theorem bills_perform (env : Env) (w : World) (c : Call) (o : Choice) :
    (perform env w c o).2.provider.bills = w.provider.bills ∨
      ∃ request, c = .chargesCreate request ∧ (perform env w c o).2.provider.bills =
        w.provider.bills ++ [(request.metadata.txId, (o.charge request).bill)] := by
  rcases provider_perform_cases env w c o with hsame | ⟨request, rfl, -, hmade⟩
  · exact Or.inl (congrArg Provider.bills hsame)
  · refine Or.inr ⟨request, rfl, ?_⟩
    rw [hmade]
    exact List.map_append

/-- Every charge was made for a row, and says what the row says. -/
def Billed (w : World) : Prop :=
  ∀ txId bill, (txId, bill) ∈ w.provider.bills → ∃ row, w.db.row? txId = some row ∧ row.bill = bill

theorem billed_advance {p : Server} (hholds : (billOfRow env).contract.Holds p) (a : Step)
    (h : Billed p.world) : Billed ((system env).advance p a).2.world := by
  have hevolves : (billOfRow env).Evolves p.world ((system env).advance p a).2.world :=
    System.Contract.evolves_run hholds [a]
  have hold : ∀ txId bill, (∃ row, p.world.db.row? txId = some row ∧ row.bill = bill) →
      ∃ row, ((system env).advance p a).2.world.db.row? txId = some row ∧ row.bill = bill := by
    rintro txId bill ⟨row, hrow, hbill⟩
    obtain ⟨row', hrow', hview⟩ := hevolves txId row hrow
    exact ⟨row', hrow', Eq.trans hview hbill⟩
  intro txId bill hmem
  match a with
  | .spawn q => exact h txId bill hmem
  | .env b => exact hold _ _ (h txId bill (Move.bills_apply p.world b ▸ hmem))
  | .resume i o =>
    rcases (system env).advance_resume_cases p i o with heq | ⟨q, c, k, hi, heq⟩
    · rw [heq] at hmem
      exact hold _ _ (h txId bill hmem)
    · have hissues : Issues env ((billOfRow env).Known p.world) q c := hholds.guarantee hi
      rw [heq] at hmem
      rcases bills_perform env p.world c o with hsame | ⟨request, rfl, hnew⟩
      · exact hold _ _ (h txId bill (hsame ▸ hmem))
      · rcases List.mem_append.mp (hnew ▸ hmem) with hmem | hmem
        · exact hold _ _ (h txId bill hmem)
        · -- The request was made of a row that was read, and that row says the same by now.
          obtain ⟨rfl, rfl⟩ := Prod.mk.inj (List.mem_singleton.mp hmem)
          match hissues with
          | .create type hid hfits hrow hproduct => exact hold _ _ hrow

theorem billed_run (env : Env) (as : List Step) :
    Billed ((system env).run (Server.start World.empty) as).world := by
  have hstart : (billOfRow env).contract.Holds (Server.start World.empty) :=
    System.Contract.holds_start True.intro
  refine (System.run_inv (I := fun p ↦ (billOfRow env).contract.Holds p ∧ Billed p.world)
    (fun p a hp ↦ ⟨System.Contract.holds_advance hp.1 a, billed_advance hp.1 a hp.2⟩)
    ⟨hstart, fun txId bill hmem ↦ absurd hmem List.not_mem_nil⟩ as).2

/-- The charges of the provider for a transaction. -/
def Provider.chargesOf (provider : Provider) (txId : String) : List Charge :=
  provider.charges.filter (·.metadata.txId = txId)

/-- In every run of the freshly started service, every charge was made for a row that is there, in
the name of its user, for its amount, in its currency and with its description; so all that has been
asked for a transaction is its amount, as often as a charge was created for it. -/
theorem charged_total (env : Env) (as : List Step) :
    (∀ charge ∈ ((system env).run (Server.start World.empty) as).world.provider.charges,
        ∃ row, ((system env).run (Server.start World.empty) as).world.db.row? charge.metadata.txId =
          some row ∧ row.bill = charge.bill) ∧
      ∀ txId row,
        ((system env).run (Server.start World.empty) as).world.db.row? txId = some row →
          ((((system env).run (Server.start World.empty) as).world.provider.chargesOf txId).map
              (·.amount)).sum =
            (((system env).trace (Server.start World.empty) as).countP
              (·.counts fun _ ↦ createsFor fun t _ ↦ t = txId) : ℕ) * row.amount := by
  have hbilled := billed_run env as
  have hrow : ∀ charge ∈ ((system env).run (Server.start World.empty) as).world.provider.charges,
      ∃ row, ((system env).run (Server.start World.empty) as).world.db.row? charge.metadata.txId =
        some row ∧ row.bill = charge.bill :=
    fun charge hcharge ↦ hbilled _ _ (List.mem_map_of_mem hcharge)
  refine ⟨hrow, fun txId row hfound ↦ ?_⟩
  have hamount : (((system env).run (Server.start World.empty) as).world.provider.chargesOf
      txId).map (·.amount) =
        (((system env).run (Server.start World.empty) as).world.provider.chargesOf txId).map
          fun _ ↦ row.amount := by
    refine List.map_congr_left fun charge hcharge ↦ ?_
    obtain ⟨hmem, htx⟩ := List.mem_filter.mp hcharge
    obtain ⟨row', hrow', hbill⟩ := hrow charge hmem
    rw [of_decide_eq_true htx] at hrow'
    obtain rfl := Option.some_inj.mp (hrow'.symm.trans hfound)
    exact (congrArg Bill.amount hbill).symm
  have hcount := chargesFor_run env (fun t _ ↦ t = txId) (Server.start World.empty) as
  rw [hamount, List.map_const', List.sum_replicate, Provider.chargesOf, ← List.countP_eq_length_filter]
  rw [Provider.chargesFor] at hcount
  rw [hcount]
  simp [World.empty, World.fresh, Provider.chargesFor]

end PaymentService
