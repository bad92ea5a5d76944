import PaymentService.Credits
import PaymentService.Delivery

/-!
# What comes before a credit

A credit message and a notification are the last calls of a handling. Here is what must have happened
before them, in whatever order the handlings interleave and wherever a call fails: a credit comes
after a completed save of its own handling, which stored a `successful` entry for the event, and the
notification of a success comes after its credit. Entries are detached by other writers but never
deleted, so the entries in the log cover the messages in the queue at every moment.
-/

namespace PaymentService

open Async CallbackService

variable {env : Env}

/-! ## The entry of an event -/

/-- A `successful` entry of the webhook. -/
def TransactionLog.isPaid (log : TransactionLog) : Bool :=
  log.status = ChargeStatuses.successful.value && log.channel = some "webhook"

/-- Between the two states of the database, a `successful` entry was stored for a row. -/
def StoresSuccess (txId : String) (db db' : Db) : Prop :=
  ∃ entry ∈ db'.logs, entry.id ∉ db.logs.map (·.id) ∧ entry.isPaid = true ∧
    entry.transactionStatusId = some txId

@[simp] theorem isPaid_relink (statusId : String) (loaded : List TransactionLog)
    (log : TransactionLog) : (relink statusId loaded log).isPaid = log.isPaid := by
  obtain ⟨fk, h⟩ := relink_eq statusId loaded log
  rw [h]
  rfl

section Save

variable {db db' : Db} {uuid : ℕ → String} {saved : SavedStatus} {info : TransactionStatus}
  {logs : List TransactionLog} {data eventKey : Js} {now : Date}

theorem map_logs_save {obj : StatusObject} (hsave : db.save obj uuid = some (saved, db')) :
    ∃ created, db'.logs.map (fun log ↦ (log.id, log.isPaid)) =
      db.logs.map (fun log ↦ (log.id, log.isPaid)) ++ created := by
  obtain ⟨-, hlogs⟩ := Db.save_eq_some hsave
  rcases hobj : obj.transactionLogs with _ | array
  · rw [hobj] at hlogs
    obtain ⟨-, hsame⟩ := Prod.mk.inj (Option.some_inj.mp hlogs)
    exact ⟨[], by rw [← hsame, List.append_nil]⟩
  · rw [hobj] at hlogs
    obtain ⟨created, -, hpair⟩ := Option.map_eq_some_iff.mp hlogs
    obtain ⟨-, hsame⟩ := Prod.mk.inj hpair
    refine ⟨created.map fun log ↦ (log.id, log.isPaid), ?_⟩
    rw [← hsame, List.map_append, List.map_map]
    simp only [Function.comp_def, relink_id, isPaid_relink]

/-- The save of an event appends its entry, however old the row it was computed from. -/
theorem logs_save_recordedStatus
    (hsave : db.save (recordedStatus env info logs data eventKey now) uuid = some (saved, db')) :
    ∃ status, statusOf env data = some status ∧
      db'.logs = db.logs.map (relink info.id logs) ++
        [eventEntry env info eventKey now (uuid 1) status] := by
  obtain ⟨hstatus, hlogs⟩ := Db.save_eq_some hsave
  have hid : saved.id = info.id := by
    rcases Db.writeStatus_cases hstatus with ⟨_, -, -, ho | ho⟩ | ⟨_, _, ho, -⟩
    · exact (Option.some_inj.mp ho).symm
    · exact absurd ho (by simp)
    · exact (Option.some_inj.mp ho).symm
  rw [recordedStatus_transactionLogs, hid] at hlogs
  obtain ⟨created, hcreated, hpair⟩ := Option.map_eq_some_iff.mp hlogs
  obtain ⟨status, hkept, hkey⟩ := status_of_insertLogs hcreated
  rw [insertLogs_recordedStatus hkept hkey] at hcreated
  obtain ⟨-, hsame⟩ := Prod.mk.inj hpair
  refine ⟨status, hkept, ?_⟩
  rw [← hsame, Option.some_inj.mp hcreated]

theorem storesSuccess_save
    (hsave : db.save (recordedStatus env info logs data eventKey now) uuid = some (saved, db'))
    (hsuccess : (data.prop "status").isStr ChargeStatuses.successful.value = true) :
    StoresSuccess info.id db db' := by
  obtain ⟨status, hkept, hlogs⟩ := logs_save_recordedStatus hsave
  rw [statusOf_of_success (Js.isStr_iff.mp hsuccess), Option.some_inj] at hkept
  subst hkept
  refine ⟨_, by rw [hlogs]; exact List.mem_append_right _ (List.mem_singleton_self _), ?_, ?_, rfl⟩
  · have hids : db'.logs.map (·.id) = (db.logs.map (·.id)).concat (uuid 1) := by
      simp [hlogs, Function.comp_def, eventEntry]
    have hnodup := db'.legal.logIds
    rw [hids, List.nodup_concat] at hnodup
    exact hnodup.1
  · simp [TransactionLog.isPaid, eventEntry]

/-- The number of `successful` entries, attached or not. -/
def Db.paidEntries (db : Db) : ℕ := db.logs.countP (·.isPaid)

theorem paidEntries_save {obj : StatusObject} (hsave : db.save obj uuid = some (saved, db')) :
    db.paidEntries ≤ db'.paidEntries := by
  obtain ⟨created, hlogs⟩ := map_logs_save hsave
  have hcount : ∀ db : Db, db.paidEntries =
      (db.logs.map fun log ↦ (log.id, log.isPaid)).countP (·.2) := by
    intro db
    rw [List.countP_map]
    rfl
  rw [hcount, hcount, hlogs, List.countP_append]
  exact Nat.le_add_right _ _

theorem paidEntries_save_success
    (hsave : db.save (recordedStatus env info logs data eventKey now) uuid = some (saved, db'))
    (hsuccess : (data.prop "status").isStr ChargeStatuses.successful.value = true) :
    db'.paidEntries = db.paidEntries + 1 := by
  obtain ⟨status, hkept, hlogs⟩ := logs_save_recordedStatus hsave
  rw [statusOf_of_success (Js.isStr_iff.mp hsuccess), Option.some_inj] at hkept
  subst hkept
  have hsame : (db.logs.map (relink info.id logs)).countP (·.isPaid) = db.paidEntries := by
    rw [List.countP_map]
    simp only [Function.comp_def, isPaid_relink]
    rfl
  rw [Db.paidEntries, hlogs, List.countP_append, hsame, List.countP_singleton,
    if_pos (by simp [TransactionLog.isPaid, eventEntry])]

end Save

/-! ## Credits are covered by entries -/

/-- The call is the completed save of a success in a row in `P`. -/
def recordsSuccess (P : String → Bool) (q : Request) : (c : Call) → Except JsError c.Reply → Bool
  | .statusSave obj, .ok _ =>
    match q with
    | .omiseCallback _ _ => q.claims ChargeStatuses.successful.value && obj.id.any P
    | _ => false
  | _, _ => false

/-- A handling sends a credit only after its save. -/
private theorem solvent_handle_of_record (P : String → Bool) (body : Js) (headers : Headers) :
    Solvent (creditsWhere P) (recordsSuccess P (.omiseCallback body headers)) 0
      (CallbackController.handleOmiseCallBack env body headers) := by
  refine CallbackController.handleOmiseCallBack_elim trivial (fun _ ↦ trivial)
    (.skip (fun _ ↦ rfl) fun r ↦ ?_)
  cases r with
  | error e => trivial
  | ok _ =>
    rw [afterFindCharge]
    refine createTransactionLog_elim trivial fun sourceId _ ↦ .skip (fun _ ↦ rfl) fun r ↦ ?_
    rcases r with e | ⟨_ | ⟨info, logs⟩, now⟩
    · trivial
    · trivial
    · intro r
      cases r with
      | error e => exact ⟨0, by simp [creditsWhere], trivial⟩
      | ok _ =>
        -- What the save earns is what the announcement may spend.
        refine ⟨(Request.claims ChargeStatuses.successful.value (.omiseCallback body headers)
          && P info.id).toNat, by simp [creditsWhere, recordsSuccess], ?_⟩
        refine solvent_announced info fun hstatus hP ↦ ?_
        simp [Request.claims, hstatus, hP]

private theorem solvent_records (env : Env) (P : String → Bool) (q : Request) :
    Solvent (creditsWhere P) (recordsSuccess P q) 0 (program env q) := by
  refine solvent_program env q (fun c hc r ↦ ?_) ?_
  · cases c <;> first | rfl | exact absurd hc (by simp [Call.ofWebhook])
  · rintro body headers rfl
    exact solvent_handle_of_record P body headers

theorem not_recordsSuccess_of_no_save {P : String → Bool} {e : Event}
    (h : e.counts (fun _ ↦ completesSave) = false) : e.counts (recordsSuccess P) = false := by
  obtain ⟨i, q, c, r⟩ := e
  cases c with
  | statusSave obj =>
    cases r with
    | error e => rfl
    | ok r => exact absurd h (by simp [Occurrence.counts, completesSave])
  | _ => rfl

/-- The save of a success adds an entry, whatever other rows it is counted for. -/
theorem paidEntries_of_recordsSuccess {q : Request} {obj : StatusObject} {db db' : Db}
    {uuid : ℕ → String} {saved : SavedStatus} {P : String → Bool}
    {r : Except JsError (Call.statusSave obj).Reply}
    (hissues : Issues env (fun _ ↦ True) q (.statusSave obj))
    (hsave : db.save obj uuid = some (saved, db'))
    (hcounts : recordsSuccess P q (.statusSave obj) r = true) :
    db'.paidEntries = db.paidEntries + 1 := by
  rcases r with e | r
  · cases hcounts
  rcases RowProperty.issues_statusSave hissues with
    ⟨user, product, type, tokenPackage, now, rfl, -⟩ |
    ⟨txId, read, source, type, productId, chargeResult, now, rfl, -⟩ |
    ⟨body, headers, info, logs, now, rfl, -, -, rfl⟩
  · cases hcounts
  · cases hcounts
  · exact paidEntries_save_success hsave (Bool.and_eq_true_iff.mp hcounts).1

theorem countP_recordsSuccess_le (env : Env) (w : World) (as : List Step) :
    w.db.paidEntries +
        ((system env).trace (Server.start w) as).countP (·.counts (recordsSuccess fun _ ↦ true)) ≤
      ((system env).run (Server.start w) as).world.db.paidEntries := by
  refine (System.run_trace_inv (S := system env)
    (I := fun es p ↦ (RowProperty.trivial env).contract.Holds p ∧
      w.db.paidEntries + es.countP (·.counts (recordsSuccess fun _ ↦ true)) ≤
        p.world.db.paidEntries) (fun es p a hp ↦ ?_) ⟨RowProperty.holds_start env w, by simp⟩ as).2
  refine ⟨System.Contract.holds_advance hp.1 a, ?_⟩
  obtain ⟨hholds, hle⟩ := hp
  rw [List.countP_append]
  rcases db_advance_cases env p a with ⟨hsame, hnone⟩ |
    ⟨i, q, obj, k, o, saved, db, hi, hsave, hcall, hworld⟩
  · -- A move that completes no save earns nothing.
    have hzero : ((system env).advance p a).1.toList.countP
        (·.counts (recordsSuccess fun _ ↦ true)) = 0 := by
      refine List.countP_eq_zero.mpr fun e he ↦ ?_
      simp [not_recordsSuccess_of_no_save (hnone e (Option.mem_toList.mp he))]
    rw [hzero, hsame]
    exact hle
  · rw [hcall, hworld, Option.toList_some, List.countP_singleton]
    have hissues : Issues env (fun _ ↦ True) q (.statusSave obj) := hholds.guarantee hi
    split
    · next hcounts =>
      have hmore := paidEntries_of_recordsSuccess hissues hsave hcounts
      change _ ≤ db.paidEntries
      omega
    · have hmore := paidEntries_save hsave
      change _ ≤ db.paidEntries
      omega

/-! ## The order of the calls of a handling -/

/-- In the run, the task has completed the save of its success in the row, and the save stored a
`successful` entry. -/
def StoredSuccess (env : Env) (w : World) (as : List Step) (task : ℕ) (q : Request)
    (txId : String) : Prop :=
  ∃ bs a cs e, as = bs ++ a :: cs ∧
    ((system env).advance ((system env).run (Server.start w) bs) a).1 = some e ∧
      e.task = task ∧ e.request = q ∧ e.counts (recordsSuccess fun t ↦ t = txId) = true ∧
      StoresSuccess txId ((system env).run (Server.start w) bs).world.db
        ((system env).advance ((system env).run (Server.start w) bs) a).2.world.db

theorem storedSuccess_of_recorded {w : World} {as : List Step} {task : ℕ} {q : Request}
    {body : Js} {headers : Headers} {info : TransactionStatus} {logs : List TransactionLog}
    {now : Date} (hq : q = .omiseCallback body headers)
    (hrecorded : EventRecorded env (System.Heard ((system env).trace (Server.start w) as) task q)
      body headers info logs now)
    (hclaims : q.claims ChargeStatuses.successful.value = true) :
    StoredSuccess env w as task q info.id := by
  subst hq
  obtain ⟨⟨saved, now'⟩, hsave⟩ := hrecorded.recorded
  obtain ⟨bs, a, cs, o, has, hcall, hanswer⟩ := answered_of_mem_trace hsave rfl
  obtain ⟨⟨saved', db'⟩, hdb, hpair⟩ := Option.map_eq_some_iff.mp hanswer
  obtain ⟨-, hworld⟩ := Prod.mk.inj hpair
  refine ⟨bs, a, cs, _, has, hcall, rfl, rfl, ?_, ?_⟩
  · simpa [Occurrence.counts, recordsSuccess] using hclaims
  · rw [← hworld]
    exact storesSuccess_save hdb hclaims

section Order

variable {w : World} {as : List Step} {a : Step} {e : Event}

theorem storedSuccess_of_credit {msg : SqsMessageParams}
    (hcall : ((system env).advance ((system env).run (Server.start w) as) a).1 = some e)
    (hmsg : e.call = .sqsSendMessage msg) :
    e.request.claims ChargeStatuses.successful.value = true ∧
      StoredSuccess env w as e.task e.request msg.attributes.transactionId := by
  have hissued := issued_of_advance hcall
  obtain ⟨i, q, c, r⟩ := e
  obtain rfl : c = .sqsSendMessage msg := hmsg
  cases hissued with
  | credit hrecorded hdue =>
    obtain ⟨hid, hclaims⟩ := transactionId_of_creditDue hdue
    rw [hid]
    exact ⟨hclaims, storedSuccess_of_recorded rfl hrecorded hclaims⟩

theorem sent_of_notification {payload : PushNotificationPayloadV2}
    (hcall : ((system env).advance ((system env).run (Server.start w) as) a).1 = some e)
    (hpayload : e.call = .notificationPost payload) :
    ∃ status msg, e.request.claims status = true ∧
      NotificationService.buildNotificationPayload env status msg = .ok (some payload) ∧
      (status = ChargeStatuses.successful.value →
        ∃ r, ⟨e.task, e.request, .sqsSendMessage msg, .ok r⟩ ∈
          (system env).trace (Server.start w) as) := by
  have hissued := issued_of_advance hcall
  obtain ⟨i, q, c, r⟩ := e
  obtain rfl : c = .notificationPost payload := hpayload
  cases hissued with
  | notifySuccess hrecorded hdue hsent hnotifies =>
    obtain ⟨hclaim, msg, hmsg, hbuilt⟩ := hnotifies
    obtain rfl := Option.some_inj.mp
      (hmsg.symm.trans ((creditDue_of_success hclaim).symm.trans hdue))
    exact ⟨_, msg, Js.isStr_iff.mpr hclaim, hbuilt, fun _ ↦ hsent⟩
  | notifyFailure hrecorded hnotifies =>
    obtain ⟨hclaim, msg, -, hbuilt⟩ := hnotifies
    exact ⟨_, msg, Js.isStr_iff.mpr hclaim, hbuilt, fun heq ↦ absurd heq (by decide)⟩

end Order

theorem credits_le_records (env : Env) (w : World) (as : List Step) (P : String → Bool) :
    ((system env).run (Server.start w) as).world.queue.countP
        (fun msg ↦ P msg.attributes.transactionId) ≤
      w.queue.countP (fun msg ↦ P msg.attributes.transactionId) +
        ((system env).trace (Server.start w) as).countP (·.counts (recordsSuccess P)) := by
  rw [countP_queue_run]
  have hle := System.countP_spend_start (S := system env) (solvent_records env P) w as
  refine Nat.add_le_add_left ?_ _
  simpa using hle

/-- In every run, from any state: a credit is only sent by a handling of an event that says
`successful`, after a completed save by the same handling that stored a `successful` entry in the row
that is credited; a notification is built for the status that its event says, and for a success it
comes after the credit message it was built from; the credits of any set of transactions are covered
by the saves of successes in their rows, and all of them by the entries in the log. -/
theorem credit_after_record (env : Env) (w : World) (as : List Step) :
    (∀ a e msg, ((system env).advance ((system env).run (Server.start w) as) a).1 = some e →
        e.call = .sqsSendMessage msg →
          e.request.claims ChargeStatuses.successful.value = true ∧
            StoredSuccess env w as e.task e.request msg.attributes.transactionId) ∧
      (∀ a e payload, ((system env).advance ((system env).run (Server.start w) as) a).1 = some e →
        e.call = .notificationPost payload →
          ∃ status msg, e.request.claims status = true ∧
            NotificationService.buildNotificationPayload env status msg = .ok (some payload) ∧
            (status = ChargeStatuses.successful.value →
              ∃ r, ⟨e.task, e.request, .sqsSendMessage msg, .ok r⟩ ∈
                (system env).trace (Server.start w) as)) ∧
      (∀ P : String → Bool,
        ((system env).run (Server.start w) as).world.queue.countP
            (fun msg ↦ P msg.attributes.transactionId) ≤
          w.queue.countP (fun msg ↦ P msg.attributes.transactionId) +
            ((system env).trace (Server.start w) as).countP (·.counts (recordsSuccess P))) ∧
      ((system env).run (Server.start w) as).world.queue.length + w.db.paidEntries ≤
        w.queue.length + ((system env).run (Server.start w) as).world.db.paidEntries := by
  refine ⟨fun a e msg hcall hmsg ↦ storedSuccess_of_credit hcall hmsg,
    fun a e payload hcall hpayload ↦ sent_of_notification hcall hpayload,
    credits_le_records env w as, ?_⟩
  have hqueue := credits_le_records env w as fun _ ↦ true
  have hentries := countP_recordsSuccess_le env w as
  simp only [List.countP_true] at hqueue
  omega

end PaymentService
