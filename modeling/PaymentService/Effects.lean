import PaymentService.Delivery
import PaymentService.Services.PaymentSteps

/-!
# What one operation does

Handled one after the other, an operation touches at most one transaction: a purchase makes a row, a
charge that gets through renews the source, the charge and the log of its row, and an event that
reaches the tables writes its status into a row and its entry into the log. `Effect` says exactly
what becomes of that transaction, its row together with its log, and that all others are as they
were. What is claimed of sequential runs is checked against the four cases.
-/

namespace PaymentService

open Async CallbackService

variable {env : Env}

/-! ## When the save of a charge is accepted -/

/-- What a charge brings fits the columns, no other row has the source, and the entry gets an
identifier of its own. -/
structure Attachable (db : Db) (id source chargeId : String) (uuid : ℕ → String) : Prop where
  sourceFits : source.length ≤ 50
  unique : ∀ row ∈ db.statuses, row.id ≠ id → row.source ≠ some source
  chargeFits : chargeId.length ≤ 50
  fresh : uuid 1 ∉ db.logs.map (·.id)

section Attachable

variable {db : Db} {uuid : ℕ → String} {read current : TransactionStatus} {source : String}
  {chargeResult : Charge} {now : Date}

/-- The tables after the save of a charge, before the constraints are checked. -/
def Tables.withAttempt (t : Tables) (row : TransactionStatus) (entry : TransactionLog) :
    Tables where
  statuses := Keyed.replace TransactionStatus.id row.id row t.statuses
  logs := t.logs.map (relink row.id []) ++ [entry]

theorem tables_save_attemptStatus (hcurrent : db.row? read.id = some current)
    (htaken : AttemptTaken read source chargeResult) :
    db.toTables.save (attemptStatus read source chargeResult now) uuid =
      some (⟨read.id, [attemptEntry read.id (uuid 1) now]⟩,
        db.withAttempt (attemptRow read current source chargeResult)
          (attemptEntry read.id (uuid 1) now)) := by
  have hid : current.id = read.id := (Db.row?_eq_some_iff.mp hcurrent).2
  rw [Db.row?] at hcurrent
  have hstatus : db.toTables.writeStatus (attemptStatus read source chargeResult now) (uuid 0) =
      some (read.id, Keyed.replace TransactionStatus.id read.id
        (attemptRow read current source chargeResult) db.statuses) := by
    simp only [Tables.writeStatus, attemptStatus_id, hcurrent, update_attemptStatus htaken,
      Option.map_some]
  simp only [Tables.save, hstatus, bind, Option.bind_some]
  rw [← hid]
  rfl

theorem attemptRow_fits (hcurrent : current.Fits)
    (htaken : AttemptTaken read source chargeResult) :
    (attemptRow read current source chargeResult).Fits := by
  have hupd : current.update (attemptStatus read source chargeResult 0) =
      some (attemptRow read current source chargeResult) := update_attemptStatus htaken
  exact (TransactionStatus.updated hupd).fits hcurrent hcurrent.amount

/-- What the provider has words for is taken when it is not too long. -/
theorem attemptTaken_iff (hsource : Word source) (hcharge : Word chargeResult.id)
    (hmetadata : (chargedMetadata read.metadata chargeResult).noNul = true) :
    AttemptTaken read source chargeResult ↔ source.length ≤ 50 ∧ chargeResult.id.length ≤ 50 := by
  rw [← Sql.isSome_varchar_iff hsource.1 hsource.2, ← Sql.isSome_varchar_iff hcharge.1 hcharge.2]
  exact ⟨fun h ↦ ⟨h.source, h.chargeId⟩, fun h ↦ ⟨h.1, h.2, hmetadata⟩⟩

theorem attemptEntry_fits (statusId uuid : String) (now : Date) :
    (attemptEntry statusId uuid now).Fits := by
  refine ⟨?_, fun s hs ↦ ?_, fun s hs ↦ ?_⟩
  · change Sql.FitsVarchar 10 ChargeStatuses.pending.value
    decide
  · obtain rfl : "api" = s := Option.mem_some_iff.mp hs
    decide
  · obtain rfl : OmiseChargeEvents.create.value = s := Option.mem_some_iff.mp hs
    decide

/-- The constraints of the schema after the save of a charge come down to what the charge brings. -/
theorem legal_withAttempt (hcurrent : db.row? read.id = some current)
    (htaken : AttemptTaken read source chargeResult) (hsource : Word source) (uuid : ℕ → String)
    (now : Date) :
    (db.withAttempt (attemptRow read current source chargeResult)
        (attemptEntry read.id (uuid 1) now)).Legal ↔
      (∀ row ∈ db.statuses, row.id ≠ read.id → row.source ≠ some source) ∧
        uuid 1 ∉ db.logs.map (·.id) := by
  obtain ⟨hmem, hid⟩ := Db.row?_eq_some_iff.mp hcurrent
  have hrowId : (attemptRow read current source chargeResult).id = read.id := hid
  have hkept : (attemptRow read current source chargeResult).source = some source := by
    obtain ⟨kept, hkept⟩ := Option.isSome_iff_exists.mp htaken.source
    rw [attemptRow, hkept, Sql.eq_of_varchar hsource.1 hkept]
  have hsources := Keyed.nodup_filterMap_replace TransactionStatus.id TransactionStatus.source
    db.legal.statusIds db.legal.sources ⟨current, hmem, hid⟩ hrowId
    (b := attemptRow read current source chargeResult) (x := source) hkept
  have hids : (db.logs.map (relink read.id [])).map (·.id) = db.logs.map (·.id) := by
    simp [Function.comp_def]
  have hfits : ∀ log ∈ db.logs.map (relink read.id []), log.Fits := by
    intro log hlog
    obtain ⟨old, hold, rfl⟩ := List.mem_map.mp hlog
    obtain ⟨fk, heq⟩ := relink_eq read.id [] old
    obtain ⟨hstatus, hchannel, hkey⟩ := db.legal.logFits old hold
    rw [heq]
    exact ⟨hstatus, hchannel, hkey⟩
  -- An entry that still points to a row after relinking did so before.
  have hkeys : ∀ log ∈ db.logs.map (relink read.id []), ∀ id ∈ log.transactionStatusId,
      id ∈ db.statuses.map (·.id) := by
    intro log hlog id hfk
    obtain ⟨old, hold, rfl⟩ := List.mem_map.mp hlog
    rw [relink, if_neg (by simp)] at hfk
    split at hfk
    · exact absurd hfk (by simp)
    · exact db.legal.foreignKeys old hold id hfk
  rw [Tables.withAttempt, hrowId]
  have hlegal := Db.legal_rewritten_iff (attemptRow read current source chargeResult)
    (attemptEntry read.id (uuid 1) now) (hrowId ▸ hcurrent) hids hfits hkeys (hrowId ▸ rfl)
  rw [hrowId] at hlegal
  refine hlegal.trans ?_
  rw [hsources]
  constructor
  · rintro ⟨hunique, -, -, hfresh⟩
    exact ⟨hunique, hfresh⟩
  · rintro ⟨hunique, hfresh⟩
    exact ⟨hunique, attemptRow_fits (db.legal.statusFits current hmem) htaken,
      attemptEntry_fits .., hfresh⟩

theorem tables_of_save_attemptStatus {db' : Db} {saved : SavedStatus}
    (hcurrent : db.row? read.id = some current) (htaken : AttemptTaken read source chargeResult)
    (hsave : db.save (attemptStatus read source chargeResult now) uuid = some (saved, db')) :
    db'.toTables = db.withAttempt (attemptRow read current source chargeResult)
      (attemptEntry read.id (uuid 1) now) := by
  simp only [Db.save, tables_save_attemptStatus hcurrent htaken, bind, Option.bind_some] at hsave
  split at hsave
  · exact congrArg Db.toTables (Prod.mk.inj (Option.some_inj.mp hsave)).2.symm
  · exact absurd hsave (by simp)

/-- The save of a charge is accepted exactly when what it brings is attachable. -/
theorem save_attemptStatus_isSome_iff (hcurrent : db.row? read.id = some current)
    (hsource : Word source) (hcharge : Word chargeResult.id)
    (hmetadata : (chargedMetadata read.metadata chargeResult).noNul = true) (now : Date) :
    (db.save (attemptStatus read source chargeResult now) uuid).isSome = true ↔
      Attachable db read.id source chargeResult.id uuid := by
  have htaken := attemptTaken_iff hsource hcharge hmetadata
  constructor
  · intro h
    obtain ⟨⟨saved, db'⟩, hsave⟩ := Option.isSome_iff_exists.mp h
    obtain ⟨-, -, hfits, -⟩ := save_attemptStatus hsave
    have hlegal := db'.legal
    rw [tables_of_save_attemptStatus hcurrent hfits hsave,
      legal_withAttempt hcurrent hfits hsource] at hlegal
    exact ⟨(htaken.mp hfits).1, hlegal.1, (htaken.mp hfits).2, hlegal.2⟩
  · intro h
    have hfits := htaken.mpr ⟨h.sourceFits, h.chargeFits⟩
    have hlegal := (legal_withAttempt hcurrent hfits hsource uuid now).mpr ⟨h.unique, h.fresh⟩
    simp only [Db.save, tables_save_attemptStatus hcurrent hfits, bind, Option.bind_some,
      dif_pos hlegal, Option.isSome_some]

end Attachable

/-! ## One transaction, with its log -/

namespace Db

variable {db db' : Db} {id : String}

theorem transaction?_eq_some_iff {row : TransactionStatus} {logs : List TransactionLog} :
    db.transaction? id = some (row, logs) ↔ db.row? id = some row ∧ db.attached id = logs := by
  simp only [transaction?, Option.map_eq_some_iff, Prod.mk.injEq]
  constructor
  · rintro ⟨row, hrow, rfl, rfl⟩
    exact ⟨hrow, rfl⟩
  · rintro ⟨hrow, rfl⟩
    exact ⟨row, hrow, rfl, rfl⟩

theorem transaction?_congr (hrow : db'.row? id = db.row? id)
    (hlogs : db'.attached id = db.attached id) : db'.transaction? id = db.transaction? id := by
  rw [transaction?, transaction?, hrow, hlogs]

end Db

@[simp] theorem findTransactionById_empty (id : String) :
    findTransactionById Db.empty id = none := by
  simp [findTransactionById, Db.transaction?, Db.row?, Keyed.find, Db.empty]

/-- What can be found is what is there, under whatever way to write its identifier. -/
theorem forall_findTransactionById {db : Db}
    {Q : TransactionStatus → List TransactionLog → Prop} :
    (∀ id row logs, findTransactionById db id = some (row, logs) → Q row logs) ↔
      ∀ id row logs, db.transaction? id = some (row, logs) → Q row logs := by
  constructor
  · intro h id row logs hrow
    have hfound := (Db.transaction?_eq_some_iff.mp hrow).1
    obtain ⟨-, rfl⟩ := Db.row?_eq_some_iff.mp hfound
    refine h row.id row logs ?_
    rw [findTransactionById, (Db.fits_of_row? hfound).id, Option.bind_some, hrow]
  · intro h id row logs hfind
    obtain ⟨key, -, hrow⟩ := Option.bind_eq_some_iff.mp hfind
    exact h key row logs hrow

/-! ## The effect of an operation -/

/-- A charge gets through: the charge is created, the save is answered, and what it brings is
attachable. -/
structure ChargeStored (w : World) (txId source : String) (o : ℕ → Choice)
    (row : TransactionStatus) (productId : Js) : Prop
    extends ChargeCreated w txId source o row productId where
  answered : ((resolveType source o).2 2).fails = false
  attachable : Attachable w.db row.id source ((resolveType source o).2 1).chargeId
    ((resolveType source o).2 2).uuid

/-- What operation `op` makes of the tables of `w`. -/
inductive Effect (env : Env) (w : World) (op : Operation) (db' : Db) : Prop
  /-- Nothing is written. -/
  | unchanged (hdb : db' = w.db)
    (hnot : ∀ txId source o row productId, op = .handle (.charge txId source) o →
      ¬ChargeStored w txId source o row productId)
  /-- A transaction is new. -/
  | purchased {user : Option String} {product : ℚ} {type : String} {o : ℕ → Choice}
    {row : TransactionStatus} (hop : op = .handle (.pay user product type) o)
    (hlogs : db'.logs = w.db.logs)
    (hbefore : w.db.row? row.id = none) (hafter : db'.transaction? row.id = some (row, []))
    (hothers : ∀ id ≠ row.id, db'.transaction? id = w.db.transaction? id)
    (hstatus : row.status = ChargeStatuses.pending.value)
  /-- A transaction is charged, and its log is renewed. -/
  | charged {txId source : String} {o : ℕ → Choice} {row : TransactionStatus} {productId : Js}
    (hop : op = .handle (.charge txId source) o)
    (hstored : ChargeStored w txId source o row productId)
    (hlogs : db'.logs = w.db.logs.map (relink row.id []) ++
      [attemptEntry row.id (((resolveType source o).2 2).uuid 1) ((resolveType source o).2 1).now])
    (hafter : db'.transaction? row.id =
      some (attemptRow row row source (createdCharge env source o row productId),
        [attemptEntry row.id (((resolveType source o).2 2).uuid 1)
          ((resolveType source o).2 1).now]))
    (hothers : ∀ id ≠ row.id, db'.transaction? id = w.db.transaction? id)
  /-- An event is recorded. -/
  | recorded {body : Js} {headers : Headers} {o : ℕ → Choice} {info : TransactionStatus}
    {status : String} (hop : op = .handle (.omiseCallback body headers) o)
    (hvalid : Validated env w (o 0) body headers)
    (hstored : Stored env w (later o) (body.prop "data") (body.prop "key") info)
    (hstatus : statusOf env (body.prop "data") = some status)
    (hlogs : db'.logs = w.db.logs ++
      [eventEntry env info (body.prop "key") (o 1).now ((o 2).uuid 1) status])
    (hafter : db'.transaction? info.id =
      some (eventRow env info (body.prop "data") (o 1).now status,
        w.db.attached info.id ++
          [eventEntry env info (body.prop "key") (o 1).now ((o 2).uuid 1) status]))
    (hothers : ∀ id ≠ info.id, db'.transaction? id = w.db.transaction? id)

section Effect

variable {w : World}

theorem logs_of_newTransactionStatus {db db' : Db} {tokenPackage : TokenPackageResponse}
    {user : Option String} {product : ℚ} {type : String} {now : Date} {uuid : ℕ → String}
    {saved : SavedStatus}
    (hsave : db.save (newTransactionStatus env tokenPackage user product type now) uuid
      = some (saved, db')) : db'.logs = db.logs := by
  obtain ⟨-, hlogs⟩ := Db.save_eq_some hsave
  have hpair : ([], db.logs) = (saved.transactionLogs, db'.logs) := Option.some_inj.mp hlogs
  exact (Prod.mk.inj hpair).2.symm

theorem effect_of_newTransactionStatus {db' : Db} {tokenPackage : TokenPackageResponse}
    {user : Option String} {product : ℚ} {type : String} {o : ℕ → Choice} {now : Date}
    {uuid : ℕ → String} {saved : SavedStatus}
    (hsave : w.db.save (newTransactionStatus env tokenPackage user product type now) uuid
      = some (saved, db')) :
    Effect env w (.handle (.pay user product type) o) db' := by
  have hlogs := logs_of_newTransactionStatus hsave
  obtain ⟨hwrite, -⟩ := Db.save_eq_some hsave
  obtain ⟨row, hinsert, hpair⟩ := Option.map_eq_some_iff.mp hwrite
  obtain ⟨-, hrows⟩ := Prod.mk.inj hpair
  -- The identifier is not taken, so no entry points to it either.
  have hnew : row.id ∉ w.db.statuses.map (·.id) := by
    have hnodup := db'.legal.statusIds
    rw [← hrows, List.map_append, List.map_singleton, ← List.concat_eq_append,
      List.nodup_concat] at hnodup
    exact hnodup.1
  have hattached : w.db.attached row.id = [] := by
    refine List.filter_eq_nil_iff.mpr fun log hlog hfk ↦ hnew ?_
    exact w.db.legal.foreignKeys log hlog row.id (by simpa using hfk)
  have hafter : db'.transaction? row.id = some (row, []) := by
    refine Db.transaction?_eq_some_iff.mpr ⟨?_, ?_⟩
    · rw [Db.row?_eq_some_iff, ← hrows]
      exact ⟨List.mem_append_right _ (List.mem_singleton_self _), rfl⟩
    · rw [Db.attached, hlogs]
      exact hattached
  refine .purchased rfl hlogs ?_ hafter (fun id hid ↦ ?_) ?_
  · refine Keyed.find_eq_none.mpr fun other hother heq ↦ hnew ?_
    exact heq ▸ List.mem_map_of_mem hother
  · refine Db.transaction?_congr ?_ (by rw [Db.attached, Db.attached, hlogs])
    rw [Db.row?, Db.row?, ← hrows, Keyed.find, Keyed.find, List.find?_append]
    simp [Ne.symm hid]
  · have hstatus : Sql.varchar 10 ChargeStatuses.pending.value = some row.status :=
      (StatusObject.inserted hinsert).status
    exact Sql.eq_of_varchar (by decide) hstatus

theorem effect_pay (env : Env) (user : Option String) (product : ℚ) (type : String)
    (o : ℕ → Choice) (w : World) :
    Effect env w (.handle (.pay user product type) o)
      (serve env (.pay user product type) o w).2.db := by
  rw [serve_pay]
  rcases run_createPaymentTransaction env user product type o w with
    ⟨e, hrun⟩ | ⟨tokenPackage, now, saved, db, hsave, hrun⟩
  · rw [hrun]
    refine .unchanged rfl fun txId source o' row productId hop ↦ ?_
    exact absurd hop (by simp)
  · rw [hrun]
    exact effect_of_newTransactionStatus (saveOutcome_eq_some.mp hsave).2

theorem ChargeCreated.row_eq {txId source source' : String} {o o' : ℕ → Choice}
    {row row' : TransactionStatus} {productId productId' : Js}
    (h : ChargeCreated w txId source o row productId)
    (h' : ChargeCreated w txId source' o' row' productId') : row = row' :=
  Option.some_inj.mp (h.found.symm.trans h'.found)

/-- The save of a charge that was created is accepted exactly when what the charge brings is
attachable. -/
theorem ChargeCreated.save_isSome_iff {txId source : String} {o : ℕ → Choice}
    {row : TransactionStatus} {productId : Js} (h : ChargeCreated w txId source o row productId)
    (env : Env) (uuid : ℕ → String) :
    (w.db.save (savedAttempt env source o row productId) uuid).isSome = true ↔
      Attachable w.db row.id source ((resolveType source o).2 1).chargeId uuid := by
  have hrow := (Db.find?_eq_some_iff.mp h.found).2
  have hsource : Word source := h.makes.means source (List.mem_singleton_self source)
  have hcharge : Word (createdCharge env source o row productId).id := h.makes.chargeId
  have hmetadata : (chargedMetadata row.metadata
      (createdCharge env source o row productId)).noNul = true :=
    noNul_chargedMetadata (Db.fits_of_row? hrow).metadata h.makes.chargeSource h.makes.chargeCard
  exact save_attemptStatus_isSome_iff hrow hsource hcharge hmetadata _

theorem effect_charge (env : Env) (txId source : String) (o : ℕ → Choice) (w : World) :
    Effect env w (.handle (.charge txId source) o) (serve env (.charge txId source) o w).2.db := by
  rw [serve_charge]
  by_cases hcreated : ∃ row productId, ChargeCreated w txId source o row productId
  · obtain ⟨row, productId, hcreated⟩ := hcreated
    have hrow := (Db.find?_eq_some_iff.mp hcreated.found).2
    have haccepted := hcreated.save_isSome_iff env ((resolveType source o).2 2).uuid
    rcases hsave : saveOutcome w.db (savedAttempt env source o row productId)
      ((resolveType source o).2 2) with _ | ⟨saved, db⟩
    · -- The save is rejected, so the tables are as before.
      rw [run_charge_of_rejected hcreated hsave]
      refine .unchanged rfl fun txId' source' o' row' productId' hop hstored ↦ ?_
      obtain ⟨hq, rfl⟩ := Operation.handle.inj hop
      obtain ⟨rfl, rfl⟩ := Request.charge.inj hq
      obtain rfl := hcreated.row_eq hstored.toChargeCreated
      obtain ⟨result, hresult⟩ := Option.isSome_iff_exists.mp (haccepted.mpr hstored.attachable)
      have hsome := saveOutcome_eq_some.mpr ⟨hstored.answered, hresult⟩
      exact absurd (hsave.symm.trans hsome) (by simp)
    · obtain ⟨hf, hdb⟩ := saveOutcome_eq_some.mp hsave
      have hattachable := haccepted.mp (Option.isSome_iff_exists.mpr ⟨_, hdb⟩)
      obtain ⟨current, hcurrent, htaken, hafter, hlogs, hothers⟩ := save_attemptStatus hdb
      obtain rfl := Option.some_inj.mp (hcurrent.symm.trans hrow)
      have htables := tables_of_save_attemptStatus hcurrent htaken hdb
      rw [run_charge_of_saved hcreated hsave]
      refine .charged rfl ⟨hcreated, hf, hattachable⟩ (congrArg Tables.logs htables)
        (Db.transaction?_eq_some_iff.mpr ⟨hafter, hlogs⟩) fun id hid ↦ ?_
      refine Db.transaction?_congr ?_ (hothers id hid)
      have hrows : db.statuses = _ := congrArg Tables.statuses htables
      rw [Db.row?, Db.row?, hrows]
      exact Keyed.find_replace_of_ne hid (attemptRow_id ..) w.db.statuses
  · push Not at hcreated
    obtain ⟨e, hrun⟩ := run_charge_of_not_created hcreated env
    rw [hrun]
    refine .unchanged rfl fun txId' source' o' row productId hop hstored ↦ ?_
    obtain ⟨hq, rfl⟩ := Operation.handle.inj hop
    obtain ⟨rfl, rfl⟩ := Request.charge.inj hq
    exact hcreated row productId hstored.toChargeCreated

theorem effect_event (env : Env) (body : Js) (headers : Headers) (o : ℕ → Choice) (w : World) :
    Effect env w (.handle (.omiseCallback body headers) o)
      (serve env (.omiseCallback body headers) o w).2.db := by
  have hunchanged : Effect env w (.handle (.omiseCallback body headers) o) w.db := by
    refine .unchanged rfl fun txId source o' row productId hop ↦ ?_
    exact absurd hop (by simp)
  by_cases hvalid : Validated env w (o 0) body headers
  · rw [serve_of_validated hvalid]
    by_cases hstored : ∃ info, Stored env w (later o) (body.prop "data") (body.prop "key") info
    · obtain ⟨info, hstored⟩ := hstored
      obtain ⟨status, w', hcol, hrun, htables, -⟩ := run_createTransactionLog_of_stored hstored
      have hattached := Db.attached_of_withEvent htables rfl
      rw [hrun]
      refine .recorded rfl hvalid hstored hcol (congrArg Tables.logs htables)
        (Db.transaction?_eq_some_iff.mpr
          ⟨Db.row?_of_withEvent htables hstored.row?, (hattached info.id).trans (by simp)⟩)
        fun id hid ↦ Db.transaction?_congr ?_ ((hattached id).trans (by simp [hid]))
      have hrows : w'.db.statuses = _ := congrArg Tables.statuses htables
      rw [Db.row?, Db.row?, hrows]
      exact Keyed.find_replace_of_ne hid (eventRow_id ..) w.db.statuses
    · push Not at hstored
      rw [run_createTransactionLog_of_not_stored hstored]
      exact hunchanged
  · rw [serve_of_not_validated hvalid]
    exact hunchanged

/-- Every operation has one of the four effects. -/
theorem effect_apply (env : Env) (w : World) (op : Operation) :
    Effect env w op (op.apply env w).db := by
  cases op with
  | handle q o =>
    cases q with
    | pay user product type => exact effect_pay env user product type o w
    | charge txId source => exact effect_charge env txId source o w
    | omiseCallback body headers => exact effect_event env body headers o w
  | env b =>
    refine .unchanged (Move.db_apply w b) fun txId source o row productId hop ↦ ?_
    exact absurd hop (by simp)

end Effect

end PaymentService
