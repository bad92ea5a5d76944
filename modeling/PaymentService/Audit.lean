import PaymentService.Effects

/-!
# The row against its log

A transaction says twice where it stands: in the status of its row and in the last entry of its log.
It also says when it was touched: in `updatedAt` and in the times of the entries. An event writes
both copies. A charge renews the log with a pending entry and leaves status and time of the row as
they are; the property it saves for the time is no column. So the copies agree in sequential runs
exactly as long as no charge gets through on a row that is not pending, and the times as long as
none gets through on a row that was not touched later.
-/

namespace PaymentService

open Async CallbackService

variable {env : Env}

/-! ## Invariants of sequential runs -/

/-- An invariant that a step keeps exactly when it is not bad, as long as the steps are admitted,
holds in all states of a run exactly when no step is bad. -/
theorem handleAll_iff {I : World → Prop} {bad admitted : World → Operation → Prop}
    (hstep : ∀ w op, I w → admitted w op → (I (op.apply env w) ↔ ¬bad w op)) {w : World} (hw : I w)
    {ops : List Operation}
    (hadmitted : ∀ done op rest, ops = done ++ op :: rest → admitted (handleAll env w done) op) :
    (∀ done rest, ops = done ++ rest → I (handleAll env w done)) ↔
      ∀ done op rest, ops = done ++ op :: rest → ¬bad (handleAll env w done) op := by
  constructor
  · intro h done op rest hops
    have hnext := h (done ++ [op]) rest (by rw [hops, List.append_assoc]; rfl)
    rw [handleAll_concat] at hnext
    exact (hstep _ op (h done (op :: rest) hops) (hadmitted done op rest hops)).mp hnext
  · intro h done
    induction done using List.reverseRecOn with
    | nil =>
      intro rest _
      exact hw
    | append_singleton done op ih =>
      intro rest hops
      have hops' : ops = done ++ op :: rest := by rw [hops, List.append_assoc]; rfl
      rw [handleAll_concat]
      exact (hstep _ op (ih _ hops') (hadmitted done op rest hops')).mpr (h done op rest hops')

/-! ## A charge that gets through

Both agreements are properties of the transactions, a row with its log at a time, and in both a
charge that gets through is what can break them. -/

/-- The operation is a charge that gets through, at a time and on a row in `P`. -/
def ChargesWhere (P : TransactionStatus → Date → Prop) (w : World) : Operation → Prop
  | .handle (.charge txId source) o =>
    ∃ row productId, ChargeStored w txId source o row productId ∧
      P row ((resolveType source o).2 1).now
  | _ => False

section ChargesWhere

variable {P : TransactionStatus → Date → Prop} {w : World} {op : Operation}

theorem chargesWhere_iff_of_stored {txId source : String} {o : ℕ → Choice}
    {row : TransactionStatus} {productId : Js} (hop : op = .handle (.charge txId source) o)
    (hstored : ChargeStored w txId source o row productId) :
    ChargesWhere P w op ↔ P row ((resolveType source o).2 1).now := by
  subst hop
  constructor
  · rintro ⟨row', productId', hstored', hP⟩
    rwa [hstored.row_eq hstored'.toChargeCreated]
  · exact fun hP ↦ ⟨row, productId, hstored, hP⟩

theorem not_chargesWhere (hnot : ∀ txId source o row productId,
    op = .handle (.charge txId source) o → ¬ChargeStored w txId source o row productId) :
    ¬ChargesWhere P w op := by
  intro hbad
  cases op with
  | env b => exact hbad
  | handle q o =>
    cases q with
    | charge txId source =>
      obtain ⟨row, productId, hstored, -⟩ := hbad
      exact hnot txId source o row productId rfl hstored
    | pay user product type => exact hbad
    | omiseCallback body headers => exact hbad

theorem forall_transaction?_iff {Q : TransactionStatus → List TransactionLog → Prop}
    {db db' : Db} {id : String} {row : TransactionStatus} {logs : List TransactionLog}
    (h : ∀ id row logs, db.transaction? id = some (row, logs) → Q row logs)
    (hafter : db'.transaction? id = some (row, logs))
    (hothers : ∀ id' ≠ id, db'.transaction? id' = db.transaction? id') :
    (∀ id row logs, db'.transaction? id = some (row, logs) → Q row logs) ↔ Q row logs := by
  refine ⟨fun h' ↦ h' id row logs hafter, fun hQ id' row' logs' hfind ↦ ?_⟩
  by_cases hid : id' = id
  · rw [hid, hafter] at hfind
    obtain ⟨rfl, rfl⟩ := Prod.mk.inj (Option.some_inj.mp hfind)
    exact hQ
  · rw [hothers id' hid] at hfind
    exact h id' row' logs' hfind

/-- What purchases and events establish, an operation keeps unless it is a charge that gets through
where a charge breaks it. -/
theorem forall_apply_iff {Q : TransactionStatus → List TransactionLog → Prop}
    (h : ∀ id row logs, findTransactionById w.db id = some (row, logs) → Q row logs)
    (hpay : ∀ row, row.status = ChargeStatuses.pending.value → Q row [])
    (hevent : ∀ {body headers o info status}, op = .handle (.omiseCallback body headers) o →
      Validated env w (o 0) body headers →
      Stored env w (later o) (body.prop "data") (body.prop "key") info →
      Q (eventRow env info (body.prop "data") (o 1).now status)
        (w.db.attached info.id ++
          [eventEntry env info (body.prop "key") (o 1).now ((o 2).uuid 1) status]))
    (hcharge : ∀ row source chargeResult txId uuid now,
      Q (attemptRow row row source chargeResult) [attemptEntry txId uuid now] ↔ ¬P row now) :
    (∀ id row logs, findTransactionById (op.apply env w).db id = some (row, logs) → Q row logs) ↔
      ¬ChargesWhere P w op := by
  rw [forall_findTransactionById] at h ⊢
  cases effect_apply env w op with
  | unchanged hdb hnot =>
    rw [hdb]
    exact iff_of_true h (not_chargesWhere hnot)
  | purchased hop _ _ hafter hothers hstatus =>
    rw [forall_transaction?_iff h hafter hothers]
    exact iff_of_true (hpay _ hstatus) (not_chargesWhere (by simp [hop]))
  | recorded hop hvalid hstored _ _ hafter hothers =>
    rw [forall_transaction?_iff h hafter hothers]
    exact iff_of_true (hevent hop hvalid hstored) (not_chargesWhere (by simp [hop]))
  | charged hop hstored _ hafter hothers =>
    rw [forall_transaction?_iff h hafter hothers, chargesWhere_iff_of_stored hop hstored]
    exact hcharge ..

end ChargesWhere

/-! ## The status -/

/-- The status that the log of a transaction shows: that of the entry created last. -/
def loggedStatus (logs : List TransactionLog) : String :=
  (logs.getLast?.map (·.status)).getD ChargeStatuses.pending.value

/-- Every row has the status that its log shows. -/
def StatusAgrees (db : Db) : Prop :=
  ∀ id row logs, findTransactionById db id = some (row, logs) → row.status = loggedStatus logs

/-- The operation is a charge that gets through on a row that is not pending. -/
def ChargesSettled (w : World) (op : Operation) : Prop :=
  ChargesWhere (fun row _ ↦ row.status ≠ ChargeStatuses.pending.value) w op

theorem statusAgrees_apply_iff (env : Env) (w : World) (op : Operation) (h : StatusAgrees w.db) :
    StatusAgrees (op.apply env w).db ↔ ¬ChargesSettled w op := by
  refine forall_apply_iff h (fun row hstatus ↦ hstatus) ?_ ?_
  · intro body headers o info status _ _ _
    simp [loggedStatus, eventRow, eventEntry]
  · intro row source chargeResult txId uuid now
    exact not_not.symm

/-- In every sequential run of the fresh service: the status of every row is the status its log shows,
in all states, exactly when no operation is a charge that gets through on a row that is not
pending. -/
theorem status_agrees_iff (env : Env) (ops : List Operation) :
    (∀ done rest, ops = done ++ rest → StatusAgrees (handleAll env World.empty done).db) ↔
      ∀ done op rest, ops = done ++ op :: rest →
        ¬ChargesSettled (handleAll env World.empty done) op := by
  have hstep := fun w op h (_ : True) ↦ statusAgrees_apply_iff env w op h
  refine handleAll_iff (I := fun w ↦ StatusAgrees w.db) hstep ?_ fun _ _ _ _ ↦ trivial
  intro id row logs hfind
  exact absurd hfind (by simp [World.empty, World.fresh])

/-- The order is paid, its event is recorded, and then the buyer pays again. -/
def Shop.paidAgain : List Operation :=
  [.handle (.pay (some "buyer") 7 PaymentTypeEnum.qr.value) fun n ↦ choice ("order" ++ toString n),
    .handle (.charge Shop.orderId "src_1") fun n ↦ choice ("first" ++ toString n),
    .env (.settle "first2" ChargeStatuses.successful.value),
    .handle (eventRequest platform .complete paidCharge) fun n ↦ choice ("hook" ++ toString n),
    .handle (.charge Shop.orderId "src_2") fun n ↦ choice ("second" ++ toString n)]

/-- The row is then `successful`, and its log says `pending`. -/
theorem paid_row_with_pending_log :
    ((handleAll Shop.platform World.empty (Shop.paidAgain.take 2)).provider.charges.map
        fun charge ↦ (charge.id, charge.metadata.txId)) = [("first2", Shop.orderId)] ∧
      ¬StatusAgrees (handleAll Shop.platform World.empty Shop.paidAgain).db := by
  have hshown : ((findTransactionById (handleAll Shop.platform World.empty Shop.paidAgain).db
      Shop.orderId).map fun transaction ↦ (transaction.1.status, loggedStatus transaction.2)) =
        some (ChargeStatuses.successful.value, ChargeStatuses.pending.value) := by decide +kernel
  refine ⟨by decide +kernel, fun hagrees ↦ ?_⟩
  obtain ⟨⟨row, logs⟩, hfind, hpair⟩ := Option.map_eq_some_iff.mp hshown
  obtain ⟨hstatus, hlogged⟩ := Prod.mk.inj hpair
  have hsame := hagrees _ row logs hfind
  rw [hstatus, hlogged] at hsame
  exact absurd hsame (by decide)

/-! ## The times -/

/-- The times a handling reads: with every answer that is no rejection, the time it comes in. -/
def Operation.readings (env : Env) (w : World) : Operation → List Date
  | .handle q o =>
    (performed (perform env) (program env q) o w).filterMap fun
      | ⟨_, .ok (_, now)⟩ => some now
      | ⟨_, .error _⟩ => none
  | .env _ => []

/-- The times a sequential run reads, in the order in which it reads them. -/
def clock (env : Env) (w : World) : List Operation → List Date
  | [] => []
  | op :: ops => op.readings env w ++ clock env (op.apply env w) ops

section Readings

variable {w : World} {o : ℕ → Choice}

theorem mem_readings {q : Request} {c : Call} {value : c.Result} {now : Date}
    (h : ⟨c, .ok (value, now)⟩ ∈ performed (perform env) (program env q) o w) :
    now ∈ Operation.readings env w (.handle q o) :=
  List.mem_filterMap.mpr ⟨_, h, rfl⟩

theorem now_mem_readings_of_stored {body : Js} {headers : Headers} {info : TransactionStatus}
    (hvalid : Validated env w (o 0) body headers)
    (hstored : Stored env w (later o) (body.prop "data") (body.prop "key") info) :
    (o 1).now ∈ Operation.readings env w (.handle (.omiseCallback body headers) o) := by
  obtain ⟨hevent, haccepted, hf, id, charge, htext, hcharge⟩ := hvalid
  obtain ⟨hf', sourceId, hsource, hfind⟩ := hstored.found
  have hretrieve : answer env w (o 0) (.chargesRetrieve ((body.prop "data").prop "id"))
      = some (charge, w) := by
    simp only [answer, htext, Option.bind_some, hcharge, Option.map_some]
  have hlookup : answer env w (later o 0) (.statusFindOne sourceId)
      = some (some (info, w.db.attached info.id), w) := by
    rw [answer, if_pos (Db.noNul_of_findOneBySource hfind), hfind]
  have hcalls : performed (perform env) (program env (.omiseCallback body headers)) o w =
      ⟨.chargesRetrieve ((body.prop "data").prop "id"), .ok (charge, (o 0).now)⟩ ::
        ⟨.statusFindOne sourceId, .ok (some (info, w.db.attached info.id), (o 1).now)⟩ ::
          performed (perform env) (afterLookup env (body.prop "data") (body.prop "key")
            (.ok (some (info, w.db.attached info.id), (o 1).now))) (later (later o)) w := by
    rw [program, pure_eq, performed_bind_done]
    rcases CallbackController.handleOmiseCallBack_cases env body headers with
      ⟨hnot, -⟩ | ⟨-, hnot, -⟩ | ⟨-, -, heq⟩
    · exact absurd hevent (by rw [hnot]; simp)
    · exact absurd haccepted hnot
    · rw [heq, performed_await_of (perform env) (perform_of_answer hf hretrieve), afterFindCharge,
        createTransactionLog_of_source hsource,
        performed_await_of (perform env) (perform_of_answer hf' hlookup)]
      rfl
  have hmem : ⟨.statusFindOne sourceId, .ok (some (info, w.db.attached info.id), (o 1).now)⟩ ∈
      performed (perform env) (program env (.omiseCallback body headers)) o w := by
    rw [hcalls]
    exact List.mem_cons_of_mem _ List.mem_cons_self
  exact mem_readings hmem

theorem now_mem_readings_of_created {txId source : String} {row : TransactionStatus}
    {productId : Js} (h : ChargeCreated w txId source o row productId) :
    ((resolveType source o).2 1).now ∈ Operation.readings env w (.handle (.charge txId source) o) := by
  obtain ⟨hsupported, hlookup, hrow, hproduct, hcreate, hmakes, hfresh⟩ := h
  have hread : answer env w ((resolveType source o).2 0) (.statusFindOneByOrFail txId)
      = some (row, w) := by rw [answer, hrow, Option.map_some]
  have hmade : answer env w (later (resolveType source o).2 0)
      (.chargesCreate (chargeRequest env row source (resolveType source o).1 productId))
        = some (createdCharge env source o row productId,
            w.charged (createdCharge env source o row productId)) := by
    rw [later_apply, answer, means_chargeRequest,
      if_pos ⟨hmakes, Option.isNone_iff_eq_none.mpr hfresh⟩]
    rfl
  obtain ⟨asked, -, hcalls⟩ := performed_charge env txId source o w
  have hmem : ⟨.chargesCreate (chargeRequest env row source (resolveType source o).1 productId),
      .ok (createdCharge env source o row productId, ((resolveType source o).2 1).now)⟩ ∈
        performed (perform env) (program env (.charge txId source)) o w := by
    simp only [program, pure_eq]
    rw [performed_bind_done, hcalls, chargeTyped, if_pos hsupported,
      performed_await_of (perform env) (perform_of_answer hlookup hread), afterFindOneByOrFail,
      chargeRow]
    simp only [hproduct]
    rw [performed_await_of (perform env) (perform_of_answer hcreate hmade)]
    exact List.mem_append_right _ (List.mem_cons_of_mem _ List.mem_cons_self)
  exact mem_readings hmem

end Readings

/-- No entry of the log is from a time after a reading of the operation. -/
def LogsBefore (env : Env) (w : World) (op : Operation) : Prop :=
  ∀ log ∈ w.db.logs, ∀ now ∈ op.readings env w, log.createdAt ≤ now

/-- Every transaction with a log has been touched, and not before any of its entries. -/
def Stamped (db : Db) : Prop :=
  ∀ id row logs, findTransactionById db id = some (row, logs) →
    ∀ log ∈ logs, ∃ touched, row.updatedAt = some touched ∧ log.createdAt ≤ touched

/-- The operation is a charge that gets through on a row that was not touched at that time or
later. -/
def ChargesUnstamped (w : World) (op : Operation) : Prop :=
  ChargesWhere (fun row now ↦ ∀ touched, row.updatedAt = some touched → touched < now) w op

theorem stamped_apply_iff (env : Env) (w : World) (op : Operation) (h : Stamped w.db)
    (hbefore : LogsBefore env w op) : Stamped (op.apply env w).db ↔ ¬ChargesUnstamped w op := by
  refine forall_apply_iff h (fun row _ log hlog ↦ absurd hlog (by simp)) ?_ ?_
  · intro body headers o info status hop hvalid hstored log hlog
    subst hop
    refine ⟨(o 1).now, rfl, ?_⟩
    rcases List.mem_append.mp hlog with hlog | hlog
    · exact hbefore log (Db.mem_attached.mp hlog).1 _ (now_mem_readings_of_stored hvalid hstored)
    · rw [List.mem_singleton.mp hlog]
      exact Nat.le_refl _
  · intro row source chargeResult txId uuid now
    constructor
    · intro hstamped hunstamped
      obtain ⟨touched, htouched, hle⟩ := hstamped _ (List.mem_singleton_self _)
      exact absurd (hunstamped touched htouched) (Nat.not_lt.mpr hle)
    · intro hstamped log hlog
      push Not at hstamped
      obtain ⟨touched, htouched, hle⟩ := hstamped
      rw [List.mem_singleton.mp hlog]
      exact ⟨touched, htouched, hle⟩

/-- The entries after an operation are as old as entries before it, or were made at a time it
read. -/
theorem createdAt_apply (env : Env) (w : World) (op : Operation) {log : TransactionLog}
    (hlog : log ∈ (op.apply env w).db.logs) :
    (∃ old ∈ w.db.logs, log.createdAt = old.createdAt) ∨ log.createdAt ∈ op.readings env w := by
  cases effect_apply env w op with
  | unchanged hdb _ =>
    rw [hdb] at hlog
    exact Or.inl ⟨log, hlog, rfl⟩
  | purchased _ hlogs _ _ _ _ =>
    rw [hlogs] at hlog
    exact Or.inl ⟨log, hlog, rfl⟩
  | recorded hop hvalid hstored _ hlogs _ _ =>
    rw [hlogs] at hlog
    rcases List.mem_append.mp hlog with hlog | hlog
    · exact Or.inl ⟨log, hlog, rfl⟩
    · rw [List.mem_singleton.mp hlog, hop]
      exact Or.inr (now_mem_readings_of_stored hvalid hstored)
  | charged hop hstored hlogs _ _ =>
    rw [hlogs] at hlog
    rcases List.mem_append.mp hlog with hlog | hlog
    · obtain ⟨old, hold, rfl⟩ := List.mem_map.mp hlog
      obtain ⟨fk, heq⟩ := relink_eq _ [] old
      exact Or.inl ⟨old, hold, by rw [heq]⟩
    · rw [List.mem_singleton.mp hlog, hop]
      exact Or.inr (now_mem_readings_of_created hstored.toChargeCreated)

/-- With a clock that does not go back, no operation of a run reads a time before an entry. -/
theorem logsBefore_handleAll {w : World} {ops : List Operation}
    (hlogs : ∀ log ∈ w.db.logs, ∀ now ∈ clock env w ops, log.createdAt ≤ now)
    (hclock : (clock env w ops).Pairwise (· ≤ ·)) :
    ∀ done op rest, ops = done ++ op :: rest → LogsBefore env (handleAll env w done) op := by
  induction ops generalizing w with
  | nil => exact fun done op rest hops ↦ absurd hops (by simp)
  | cons first ops ih =>
    obtain ⟨-, hrest, hacross⟩ := List.pairwise_append.mp hclock
    have hnext : ∀ log ∈ (first.apply env w).db.logs, ∀ now ∈ clock env (first.apply env w) ops,
        log.createdAt ≤ now := by
      intro log hlog now hnow
      rcases createdAt_apply env w first hlog with ⟨old, hold, heq⟩ | hread
      · rw [heq]
        exact hlogs old hold now (List.mem_append_right _ hnow)
      · exact hacross _ hread now hnow
    intro done op rest hops
    cases done with
    | nil =>
      obtain ⟨rfl, rfl⟩ := List.cons.inj hops
      exact fun log hlog now hnow ↦ hlogs log hlog now (List.mem_append_left _ hnow)
    | cons op' done =>
      obtain ⟨rfl, rfl⟩ := List.cons.inj hops
      exact ih hnext hrest done op rest rfl

/-- In every sequential run of the fresh service with a clock that does not go back: every
transaction with a log is stamped at the time of its entries or later, in all states, exactly when no
operation is a charge that gets through on a row that was not touched at that time or later. -/
theorem stamped_iff (env : Env) (ops : List Operation)
    (hclock : (clock env World.empty ops).Pairwise (· ≤ ·)) :
    (∀ done rest, ops = done ++ rest → Stamped (handleAll env World.empty done).db) ↔
      ∀ done op rest, ops = done ++ op :: rest →
        ¬ChargesUnstamped (handleAll env World.empty done) op := by
  refine handleAll_iff (I := fun w ↦ Stamped w.db) (stamped_apply_iff env) ?_
    (logsBefore_handleAll
      (fun log hlog ↦ absurd hlog (by simp [World.empty, World.fresh, Db.empty])) hclock)
  intro id row logs hfind
  exact absurd hfind (by simp [World.empty, World.fresh])

/-- The buyer orders and pays, and the clock ticks with every call. -/
def Shop.ticking : List Operation :=
  [.handle (.pay (some "buyer") 7 PaymentTypeEnum.qr.value)
      fun n ↦ { choice ("order" ++ toString n) with now := n },
    .handle (.charge Shop.orderId "src_1")
      fun n ↦ { choice ("first" ++ toString n) with now := 10 + n }]

theorem stamped_iff_in_shop :
    clock Shop.platform World.empty Shop.ticking = [0, 1, 10, 11, 12, 13] ∧
      ((∀ done rest, Shop.ticking = done ++ rest →
          Stamped (handleAll Shop.platform World.empty done).db) ↔
        ∀ done op rest, Shop.ticking = done ++ op :: rest →
          ¬ChargesUnstamped (handleAll Shop.platform World.empty done) op) :=
  ⟨by decide +kernel, stamped_iff Shop.platform Shop.ticking (by decide +kernel)⟩

/-- The charge leaves an entry in the log, and a row that has never been touched. -/
theorem charged_row_not_stamped :
    (clock Shop.platform World.empty Shop.ticking).Pairwise (· ≤ ·) ∧
      ¬Stamped (handleAll Shop.platform World.empty Shop.ticking).db := by
  have hshown : ((findTransactionById (handleAll Shop.platform World.empty Shop.ticking).db
      Shop.orderId).map fun transaction ↦ (transaction.1.updatedAt, transaction.2.length)) =
        some (none, 1) := by decide +kernel
  refine ⟨by decide +kernel, fun hstamped ↦ ?_⟩
  obtain ⟨⟨row, logs⟩, hfind, hpair⟩ := Option.map_eq_some_iff.mp hshown
  obtain ⟨hupdated, hlength⟩ := Prod.mk.inj hpair
  obtain ⟨log, hlog⟩ := List.exists_mem_of_length_pos (l := logs) (by rw [hlength]; decide)
  obtain ⟨touched, htouched, -⟩ := hstamped _ row logs hfind log hlog
  exact absurd (hupdated.symm.trans htouched) (by simp)

end PaymentService
