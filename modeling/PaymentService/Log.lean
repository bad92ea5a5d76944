import PaymentService.Effects

/-!
# The log of a row

The log of a transaction has two writers. The webhook saves the entries it has loaded together with
its own, so that the log grows. A charge saves an array that holds its own entry only, and what was
attached to the row before is detached. Handled one after the other, requests therefore extend the
logs, up to one case: a charge that gets through on a row that has a log already.
-/

namespace PaymentService

open Async CallbackService

variable {env : Env}

/-! ## What one operation does to the logs -/

/-- Whatever was attached to a row still is, and at most one entry is new. -/
def AppendsOnly (db db' : Db) : Prop :=
  ∀ id, ∃ new, new.length ≤ 1 ∧ (db'.attached id).Perm (db.attached id ++ new)

theorem AppendsOnly.of_logs_eq {db db' : Db} (h : db'.logs = db.logs) : AppendsOnly db db' := by
  intro id
  refine ⟨[], by simp, ?_⟩
  rw [List.append_nil, Db.attached, Db.attached, h]

theorem AppendsOnly.mem {db db' : Db} (h : AppendsOnly db db') {id : String} {log : TransactionLog}
    (hlog : log ∈ db.attached id) : log ∈ db'.attached id := by
  obtain ⟨new, -, hperm⟩ := h id
  exact hperm.mem_iff.mpr (List.mem_append_left new hlog)

/-- The operation is a charge that gets through on a row that has a log: the type of the source is
supported, the row is there and can be read, the provider creates the charge, the save is answered
and what it brings is attachable. -/
def DetachesLog (w : World) : Operation → Prop
  | .handle (.charge txId source) o =>
    ∃ row productId, ChargeCreated w txId source o row productId ∧
      ((resolveType source o).2 2).fails = false ∧
      Attachable w.db row.id source ((resolveType source o).2 1).chargeId
        ((resolveType source o).2 2).uuid ∧
      w.db.attached row.id ≠ []
  | _ => False

theorem detachesLog_iff {w : World} {op : Operation} :
    DetachesLog w op ↔ ∃ txId source o row productId, op = .handle (.charge txId source) o ∧
      ChargeStored w txId source o row productId ∧ w.db.attached row.id ≠ [] := by
  constructor
  · intro h
    cases op with
    | handle q o =>
      cases q with
      | charge txId source =>
        obtain ⟨row, productId, hcreated, hf, hattachable, hne⟩ := h
        exact ⟨txId, source, o, row, productId, rfl, ⟨hcreated, hf, hattachable⟩, hne⟩
      | pay user product type => exact absurd h id
      | omiseCallback body headers => exact absurd h id
    | env b => exact absurd h id
  · rintro ⟨txId, source, o, row, productId, rfl, hstored, hne⟩
    exact ⟨row, productId, hstored.toChargeCreated, hstored.answered, hstored.attachable, hne⟩

/-- What is attached to an identifier is found with its row; no entry points to a row that is not
there. -/
theorem attached_eq_of_find (db : Db) (id : String) :
    db.attached id = ((db.transaction? id).map Prod.snd).getD [] := by
  rcases hfind : db.transaction? id with _ | ⟨row, logs⟩
  · refine List.filter_eq_nil_iff.mpr fun log hlog hfk ↦ ?_
    have hrow : id ∈ db.statuses.map (·.id) :=
      db.legal.foreignKeys log hlog id (by simpa using hfk)
    obtain ⟨row, hrow, hid⟩ := List.mem_map.mp hrow
    rw [Db.transaction?, Db.row?_eq_some_iff.mpr ⟨hrow, hid⟩] at hfind
    cases hfind
  · exact (Db.transaction?_eq_some_iff.mp hfind).2

/-- One operation appends to the logs, unless it detaches one. -/
theorem appendsOnly_apply_iff (env : Env) (w : World) (op : Operation) :
    AppendsOnly w.db (op.apply env w).db ↔ ¬DetachesLog w op := by
  rw [detachesLog_iff]
  cases effect_apply env w op with
  | unchanged hdb hnot =>
    refine iff_of_true (.of_logs_eq (congrArg (·.logs) hdb)) ?_
    rintro ⟨txId, source, o, row, productId, hop, hstored, -⟩
    exact hnot txId source o row productId hop hstored
  | purchased hop hlogs =>
    refine iff_of_true (.of_logs_eq hlogs) ?_
    rintro ⟨txId, source, o, row, productId, hop', -⟩
    cases hop.symm.trans hop'
  | recorded hop _ _ _ hlogs =>
    refine iff_of_true (fun id ↦ ?_) ?_
    · rw [Db.attached, Db.attached, hlogs, List.filter_append]
      exact ⟨_, List.length_filter_le _ _, .refl _⟩
    · rintro ⟨txId, source, o, row, productId, hop', -⟩
      cases hop.symm.trans hop'
  | @charged txId source o row productId hop hstored _ hafter hothers =>
    have hlogs := (Db.transaction?_eq_some_iff.mp hafter).2
    constructor
    · rintro happends ⟨txId', source', o', row', productId', hop', hstored', hne⟩
      obtain ⟨hq, -⟩ := Operation.handle.inj (hop.symm.trans hop')
      obtain ⟨rfl, -⟩ := Request.charge.inj hq
      obtain rfl := hstored.row_eq hstored'.toChargeCreated
      obtain ⟨log, hlog⟩ := List.exists_mem_of_ne_nil _ hne
      -- What was attached would have to be the new entry.
      have hkept := happends.mem hlog
      rw [hlogs, List.mem_singleton] at hkept
      refine hstored.attachable.fresh (List.mem_map.mpr ⟨log, (Db.mem_attached.mp hlog).1, ?_⟩)
      rw [hkept]
      rfl
    · intro hkept id
      by_cases hid : id = row.id
      · have hempty : w.db.attached row.id = [] := by
          by_contra hne
          exact hkept ⟨txId, source, o, row, productId, hop, hstored, hne⟩
        rw [hid, hempty, hlogs]
        exact ⟨_, le_rfl, .refl _⟩
      · refine ⟨[], by simp, .of_eq ?_⟩
        rw [List.append_nil, attached_eq_of_find, attached_eq_of_find, hothers id hid]

theorem appendsOnly_event (env : Env) (body : Js) (headers : Headers) (o : ℕ → Choice)
    (w : World) : AppendsOnly w.db (serve env (.omiseCallback body headers) o w).2.db :=
  (appendsOnly_apply_iff env w (.handle (.omiseCallback body headers) o)).mpr id

/-! ## What a run does to them -/

/-- In every sequential run: each operation only appends to the logs, exactly when none of the
operations is a charge that gets through on a row that has a log. -/
theorem log_append_only_iff (env : Env) (w : World) (ops : List Operation) :
    (∀ done op rest, ops = done ++ op :: rest →
        AppendsOnly (handleAll env w done).db (handleAll env w (done ++ [op])).db) ↔
      ∀ done op rest, ops = done ++ op :: rest → ¬DetachesLog (handleAll env w done) op := by
  simp only [handleAll_concat, appendsOnly_apply_iff]

/-- The buyer orders the package and pays with two sources, one after the other. -/
def Shop.attempts : List Operation :=
  [.handle (.pay (some "buyer") 7 PaymentTypeEnum.qr.value) fun n ↦ choice ("order" ++ toString n),
    .handle (.charge Shop.orderId "src_1") fun n ↦ choice ("first" ++ toString n),
    .handle (.charge Shop.orderId "src_2") fun n ↦ choice ("second" ++ toString n)]

/-- The second payment detaches the entry of the first. -/
theorem second_attempt_detaches :
    ¬AppendsOnly (handleAll Shop.platform World.empty (Shop.attempts.take 2)).db
      (handleAll Shop.platform World.empty Shop.attempts).db := by
  intro happends
  have hlost : ∃ entry ∈ (handleAll Shop.platform World.empty
        (Shop.attempts.take 2)).db.attached Shop.orderId,
      entry ∉ (handleAll Shop.platform World.empty Shop.attempts).db.attached Shop.orderId := by
    decide +kernel
  obtain ⟨entry, hentry, hlost⟩ := hlost
  exact hlost (happends.mem hentry)

end PaymentService
