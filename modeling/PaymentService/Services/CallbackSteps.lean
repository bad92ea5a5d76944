import PaymentService.Server

/-!
# The webhook, call by call

The program of the webhook as a chain of calls, each with what the function does on either answer.
A task of the webhook that is suspended is one of `afterFindCharge`, `afterLookup`, `afterSave` and
`notified` waiting for its answer; everything later about the webhook is read off these equations
and not off the code again.
-/

namespace PaymentService

open Async

variable {env : Env}

/-! ## Validation -/

/-- The event is well formed: what is checked before the provider is asked. -/
structure EventAccepted (env : Env) (chargeId : Js) (requestedAgent : Option String)
    (eventKey : Js) : Prop where
  chargeId : chargeId.truthy = true
  agent : ∃ agent, requestedAgent = some agent ∧ agent ≠ "" ∧
    env.toLowerCase agent =
      Providers.omise.value ++ "/" ++ NotificationService.configText env.config.omiseVersion
  eventKey : ∃ key, eventKey = .str key ∧ key ≠ "" ∧
    env.toLowerCase key ∈ OmiseChargeEvents.values

/-- What is thrown when the provider does not know the charge. -/
def chargeNotFound (env : Env) (chargeId : Js) : JsError :=
  match Js.text env.printNumber chargeId with
  | none => .typeError
  | some text => .httpException ("Cannot find charge: " ++ text) 404

theorem includes_of_values {name : String} (h : name ∈ OmiseChargeEvents.values) :
    Js.includes name OmiseCallbackEvents.charge.value = true := by
  simp only [OmiseChargeEvents.values, List.map_cons, List.map_nil, List.mem_cons,
    List.not_mem_nil, or_false] at h
  rcases h with rfl | rfl | rfl | rfl | rfl | rfl <;> decide +kernel

theorem all_ne_iff {name : String} :
    OmiseChargeEvents.values.all (· ≠ name) = true ↔ name ∉ OmiseChargeEvents.values := by
  rw [List.all_eq_true]
  constructor
  · intro h hmem
    simpa using h name hmem
  · intro h value hmem
    simpa using fun heq : value = name ↦ h (heq ▸ hmem)

theorem includes_append (s t : String) : Js.includes (s ++ t) s = true := by
  simp only [Js.includes, decide_eq_true_eq, String.toList_append]
  exact (List.prefix_append _ _).isInfix

theorem validateChargeEvent_of_accepted {chargeId eventKey : Js} {requestedAgent : Option String}
    (h : EventAccepted env chargeId requestedAgent eventKey) :
    CallbackService.validateChargeEvent env chargeId requestedAgent eventKey =
      await (Call.chargesRetrieve chargeId) fun
        | .ok _ => done ()
        | .error _ => fail (chargeNotFound env chargeId) := by
  obtain ⟨hid, ⟨agent, rfl, hagent, hname⟩, ⟨key, rfl, hkey, hvalue⟩⟩ := h
  have hincl := includes_of_values hvalue
  have hagentIncl : Js.includes (env.toLowerCase agent) Providers.omise.value = true := by
    rw [hname, String.append_assoc]
    exact includes_append _ _
  have hall := Bool.eq_false_iff.mpr fun hall ↦ all_ne_iff.mp hall hvalue
  have htruthy : (Js.str key).truthy = true := by simpa [Js.truthy] using hkey
  rw [hname] at hagentIncl
  simp only [CallbackService.validateChargeEvent, hid, hagent, htruthy, hagentIncl, hincl, hall,
    hname, Bool.not_true, Bool.false_eq_true, Bool.or_false, if_false, ne_eq, not_true]
  simp only [OmiseService.findCharge, call_bind, tryCatch_await]
  congr 1
  funext r
  cases r with
  | ok _ => rfl
  | error _ =>
    unfold chargeNotFound
    cases Js.text env.printNumber chargeId <;> rfl

/-- A text that may be missing, as an argument. -/
def argument : Option String → Js
  | none => .undefined
  | some text => .str text

/-- Any other event is refused before the provider is asked, as malformed unless its key is a value
that has no lower case. -/
theorem validateChargeEvent_of_not_accepted {chargeId eventKey : Js}
    {requestedAgent : Option String} (h : ¬EventAccepted env chargeId requestedAgent eventKey) :
    ∃ e, CallbackService.validateChargeEvent env chargeId requestedAgent eventKey = fail e ∧
      ((∃ message, e = .httpException message 400) ∨
        ∀ text : Option String, eventKey ≠ argument text) := by
  have hrefused : ∀ {other : Prop} (message : String), ∃ e,
      (throw (.httpException message 400) : Program Unit) = fail e ∧
        ((∃ message, e = .httpException message 400) ∨ other) :=
    fun message ↦ ⟨_, rfl, Or.inl ⟨message, rfl⟩⟩
  unfold CallbackService.validateChargeEvent
  by_cases hid : chargeId.truthy = true
  swap
  · simp only [hid, Bool.not_false, if_true]
    exact hrefused _
  simp only [hid, Bool.not_true, Bool.false_eq_true, if_false]
  rcases requestedAgent with _ | agent
  · exact hrefused _
  by_cases hagent : agent = ""
  · simp only [hagent, if_true]
    exact hrefused _
  simp only [hagent, if_false]
  by_cases hkey : eventKey.truthy = true
  swap
  · simp only [hkey, Bool.not_false, if_true]
    exact hrefused _
  simp only [hkey, Bool.not_true, Bool.false_eq_true, if_false]
  cases eventKey with
  | str key =>
    by_cases hincl : Js.includes (env.toLowerCase agent) Providers.omise.value = true
    swap
    · simp only [hincl, Bool.not_false, if_true]
      exact hrefused _
    simp only [hincl, Bool.not_true, Bool.false_eq_true, if_false]
    by_cases hvalue : env.toLowerCase key ∈ OmiseChargeEvents.values
    swap
    · simp only [all_ne_iff.mpr hvalue, Bool.or_true, if_true]
      exact hrefused _
    have hall := Bool.eq_false_iff.mpr fun hall ↦ all_ne_iff.mp hall hvalue
    simp only [includes_of_values hvalue, hall, Bool.not_true, Bool.or_false, Bool.false_eq_true,
      if_false]
    by_cases hname : env.toLowerCase agent =
      Providers.omise.value ++ "/" ++ NotificationService.configText env.config.omiseVersion
    · have hnonempty : key ≠ "" := by simpa [Js.truthy] using hkey
      exact absurd ⟨hid, ⟨agent, rfl, hagent, hname⟩, ⟨key, rfl, hnonempty, hvalue⟩⟩ h
    · simp only [ne_eq, hname, not_false_eq_true, if_true]
      exact hrefused _
  | undefined => exact absurd hkey (by simp [Js.truthy])
  | null => exact absurd hkey (by simp [Js.truthy])
  | bool b => exact ⟨.typeError, rfl, Or.inr fun text htext ↦ by cases text <;> cases htext⟩
  | num q => exact ⟨.typeError, rfl, Or.inr fun text htext ↦ by cases text <;> cases htext⟩
  | arr xs => exact ⟨.typeError, rfl, Or.inr fun text htext ↦ by cases text <;> cases htext⟩
  | obj fields => exact ⟨.typeError, rfl, Or.inr fun text htext ↦ by cases text <;> cases htext⟩

/-! ## Recording -/

namespace CallbackService

/-- Once the charge is known to the provider, the event is recorded. -/
def afterFindCharge (env : Env) (data eventKey : Js) : Except JsError (Charge × Date) → Program Unit
  | .ok _ => createTransactionLog env data eventKey
  | .error _ => fail (chargeNotFound env (data.prop "id"))

/-- The announcement, inside the `try` of `createTransactionLog`. -/
def announced (env : Env) (info : TransactionStatus) (data : Js) : Program Unit :=
  tryCatch (announce env info data) fun _ ↦ pure ()

def afterSave (env : Env) (info : TransactionStatus) (data : Js) :
    Except JsError (SavedStatus × Date) → Program Unit
  | .ok _ => announced env info data
  | .error _ => done ()

def afterLookup (env : Env) (data eventKey : Js) :
    Except JsError (Option (TransactionStatus × List TransactionLog) × Date) → Program Unit
  | .ok (some (info, logs), now) =>
    await (Call.statusSave (recordedStatus env info logs data eventKey now))
      (afterSave env info data)
  | _ => done ()

/-- A row that was read is written back as it was then, but for what the event says. -/
theorem eq_of_update_recordedStatus {env : Env} {info row row' : TransactionStatus}
    {logs : List TransactionLog} {data eventKey : Js} {now : Date} (hinfo : info.Fits)
    (h : row.update (recordedStatus env info logs data eventKey now) = some row') :
    ∃ status providerRefId,
      row' = { info with id := row.id, status, providerRefId, updatedAt := some now } := by
  simp only [TransactionStatus.update, recordedStatus, TransactionStatus.toObject,
    Column.writeRequired_value, Column.writeInteger_value, toInteger_intCast, Column.write_value,
    Sql.varchar_of_fits hinfo.paymentType, Sql.varchar_of_fits hinfo.currency,
    Sql.varchar_of_fits hinfo.userRefId, Sql.varchar_of_fits hinfo.provider,
    Sql.varchar_of_fits hinfo.productId, Column.writeText_ofOption _ hinfo.source,
    Column.writeText_ofOption _ hinfo.description, jsonb_of_noNul hinfo.metadata, bind,
    Option.bind_some, Option.bind_eq_some_iff, Option.some.injEq] at h
  obtain ⟨providerRefId, -, status, -, rfl⟩ := h
  exact ⟨status, providerRefId, rfl⟩

@[simp] theorem recordedStatus_id (env : Env) (info : TransactionStatus)
    (logs : List TransactionLog) (data eventKey : Js) (now : Date) :
    (recordedStatus env info logs data eventKey now).id = some info.id := rfl

@[simp] theorem recordedStatus_status (env : Env) (info : TransactionStatus)
    (logs : List TransactionLog) (data eventKey : Js) (now : Date) :
    (recordedStatus env info logs data eventKey now).status = env.column (data.prop "status") := rfl

@[simp] theorem recordedStatus_transactionLogs (env : Env) (info : TransactionStatus)
    (logs : List TransactionLog) (data eventKey : Js) (now : Date) :
    (recordedStatus env info logs data eventKey now).transactionLogs =
      some ⟨logs, [webhookLog env data eventKey now]⟩ := rfl

/-- The condition of the lookup; there is none when reading it throws. -/
def sourceOf (data : Js) : Option Js := (data.get? "metadata").bind (·.get? "sourceId")

@[simp] theorem sourceOf_toJs (charge : Charge) :
    sourceOf charge.toJs = some (.str charge.metadata.sourceId) := rfl

theorem createTransactionLog_of_source {data eventKey sourceId : Js}
    (h : sourceOf data = some sourceId) :
    createTransactionLog env data eventKey =
      await (Call.statusFindOne sourceId) (afterLookup env data eventKey) := by
  obtain ⟨metadata, hmetadata, hsource⟩ := Option.bind_eq_some_iff.mp h
  simp only [createTransactionLog, hmetadata, hsource, orThrow_some, done_bind,
    TransactionStatusRepository.findOne, call_bind, tryCatch_await]
  congr 1
  funext r
  rcases r with e | ⟨_ | ⟨info, logs⟩, now⟩
  · rfl
  · rfl
  · simp only [settle_ok, done_bind, TransactionStatusRepository.save, call_bind, tryCatch_await,
      afterLookup]
    congr 1
    funext r
    cases r <;> rfl

theorem createTransactionLog_of_no_source {data eventKey : Js} (h : sourceOf data = none) :
    createTransactionLog env data eventKey = done () := by
  unfold createTransactionLog
  rcases hmetadata : data.get? "metadata" with _ | metadata
  · simp
  · have hsource : metadata.get? "sourceId" = none := by simpa [sourceOf, hmetadata] using h
    simp [hsource]

/-- What holds of a handling that ends at once and of one that looks a row up, holds of every one. -/
@[elab_as_elim]
theorem createTransactionLog_elim {motive : Program Unit → Prop} {data eventKey : Js}
    (ended : motive (done ()))
    (lookup : ∀ sourceId, sourceOf data = some sourceId →
      motive (await (Call.statusFindOne sourceId) (afterLookup env data eventKey))) :
    motive (createTransactionLog env data eventKey) := by
  rcases hsource : sourceOf data with _ | sourceId
  · rw [createTransactionLog_of_no_source hsource]
    exact ended
  · rw [createTransactionLog_of_source hsource]
    exact lookup sourceId hsource

/-! ## Announcing -/

/-- The message the recording of an event owes to the queue. -/
def creditDue (env : Env) (info : TransactionStatus) (data : Js) : Option SqsMessageParams :=
  if (data.prop "status").isStr ChargeStatuses.successful.value then
    (packageFields env info.metadata).bind (creditMessage env info data)
  else none

/-- A message that is due is made of the metadata of the row, and the event claims success. -/
theorem creditMessage_of_creditDue {info : TransactionStatus} {data : Js} {msg : SqsMessageParams}
    (h : creditDue env info data = some msg) :
    (data.prop "status").isStr ChargeStatuses.successful.value = true ∧
      ∃ fields, packageFields env info.metadata = some fields ∧
        creditMessage env info data fields = some msg := by
  unfold creditDue at h
  split at h
  · next hstatus => exact ⟨hstatus, Option.bind_eq_some_iff.mp h⟩
  · exact absurd h (by simp)

theorem names_of_creditMessage {info : TransactionStatus} {data : Js} {fields : PackageFields}
    {msg : SqsMessageParams} (h : creditMessage env info data fields = some msg) :
    msg.attributes.transactionId = info.id ∧
      msg.userRef = (data.prop "metadata").prop "userRefId" ∧
      msg.attributes.referenceId = data.prop "id" := by
  simp only [creditMessage, bind, Option.bind_eq_some_iff, Option.some.injEq] at h
  obtain ⟨_, -, _, -, _, -, rfl⟩ := h
  exact ⟨rfl, rfl, rfl⟩

theorem transactionId_of_creditDue {info : TransactionStatus} {data : Js} {msg : SqsMessageParams}
    (h : creditDue env info data = some msg) :
    msg.attributes.transactionId = info.id ∧
      (data.prop "status").isStr ChargeStatuses.successful.value = true := by
  obtain ⟨hstatus, fields, -, hmsg⟩ := creditMessage_of_creditDue h
  exact ⟨(names_of_creditMessage hmsg).1, hstatus⟩

theorem creditDue_of_success {info : TransactionStatus} {data : Js}
    (h : data.prop "status" = .str ChargeStatuses.successful.value) :
    creditDue env info data = (packageFields env info.metadata).bind (creditMessage env info data) :=
  if_pos (Js.isStr_iff.mpr h)

/-- The notification, inside the `try` of `createTransactionLog`. -/
def notified (env : Env) (status : String) (msg : SqsMessageParams) : Program Unit :=
  tryCatch
    (do
      let payload ← settle (NotificationService.buildNotificationPayload env status msg)
      NotificationService.pushNotification payload)
    fun _ ↦ pure ()

theorem notified_cases (env : Env) (status : String) (msg : SqsMessageParams) :
    notified env status msg = done () ∨
      ∃ payload,
        NotificationService.buildNotificationPayload env status msg = .ok (some payload) ∧
          notified env status msg = await (Call.notificationPost payload) fun _ ↦ done () := by
  unfold notified
  rcases NotificationService.buildNotificationPayload env status msg with e | _ | payload
  · exact Or.inl rfl
  · exact Or.inl rfl
  · refine Or.inr ⟨payload, rfl, ?_⟩
    simp only [settle_ok, done_bind, NotificationService.pushNotification, call_bind,
      tryCatch_await]
    congr 1
    funext r
    cases r <;> rfl

/-- What a task does once the credit message has been sent, or could not be. -/
def afterCredit (env : Env) (msg : SqsMessageParams) : Except JsError (Unit × Date) → Program Unit
  | .ok _ => notified env ChargeStatuses.successful.value msg
  | .error _ => done ()

theorem announced_of_creditDue {info : TransactionStatus} {data : Js} {msg : SqsMessageParams}
    (h : creditDue env info data = some msg) :
    announced env info data = await (Call.sqsSendMessage msg) (afterCredit env msg) := by
  unfold creditDue at h
  split at h
  · next hstatus =>
    obtain ⟨fields, hfields, hmsg⟩ := Option.bind_eq_some_iff.mp h
    rw [Js.isStr_iff] at hstatus
    simp only [announced, announce, hfields, hstatus, orThrow_some, done_bind, true_or, if_true,
      hmsg, SqsService.sendSampleProcessorEvent, call_bind, tryCatch_await]
    congr 1
    funext r
    cases r <;> rfl
  · exact absurd h (by simp)

/-- The notification of an event: the payload is built for the status of the event, from the message
made of the row. -/
structure Notifies (env : Env) (info : TransactionStatus) (data : Js) (status : String)
    (payload : PushNotificationPayloadV2) : Prop where
  claim : data.prop "status" = .str status
  built : ∃ msg, (packageFields env info.metadata).bind (creditMessage env info data) = some msg ∧
    NotificationService.buildNotificationPayload env status msg = .ok (some payload)

theorem announced_of_no_credit {info : TransactionStatus} {data : Js}
    (h : creditDue env info data = none) :
    announced env info data = done () ∨
      ∃ payload, Notifies env info data ChargeStatuses.failed.value payload ∧
        announced env info data = await (Call.notificationPost payload) fun _ ↦ done () := by
  unfold announced announce
  rcases hfields : packageFields env info.metadata with _ | fields
  · exact Or.inl rfl
  · cases hstatus : data.prop "status" with
    | str status =>
      simp only [orThrow_some, done_bind]
      split
      · next hended =>
        rcases hmsg : creditMessage env info data fields with _ | msg
        · exact Or.inl rfl
        · have hne : status ≠ ChargeStatuses.successful.value := by
            intro heq
            simp [creditDue, hstatus, Js.isStr, heq, hfields, hmsg] at h
          obtain rfl : status = ChargeStatuses.failed.value := hended.resolve_left hne
          simp only [orThrow_some, done_bind, if_neg hne]
          rcases notified_cases env ChargeStatuses.failed.value msg with heq | ⟨payload, hbuild, heq⟩
          · exact Or.inl heq
          · exact Or.inr ⟨payload, ⟨hstatus, msg, by rw [hfields, Option.bind_some, hmsg], hbuild⟩,
              heq⟩
      · exact Or.inl rfl
    | undefined => exact Or.inl rfl
    | null => exact Or.inl rfl
    | bool b => exact Or.inl rfl
    | num q => exact Or.inl rfl
    | arr xs => exact Or.inl rfl
    | obj fields => exact Or.inl rfl

theorem always_notified (env : Env) (status : String) (msg : SqsMessageParams) :
    Always (fun c ↦ ∃ payload, c = .notificationPost payload) (notified env status msg) := by
  rcases notified_cases env status msg with heq | ⟨payload, -, heq⟩
  · rw [heq]
    trivial
  · rw [heq]
    exact ⟨⟨payload, rfl⟩, fun _ _ ↦ trivial⟩

theorem always_afterCredit (env : Env) (msg : SqsMessageParams) (r : Except JsError (Unit × Date)) :
    Always (fun c ↦ ∃ payload, c = .notificationPost payload) (afterCredit env msg r) := by
  cases r with
  | error e => trivial
  | ok _ => exact always_notified env _ msg

theorem always_announced_of_no_credit {info : TransactionStatus} {data : Js}
    (h : creditDue env info data = none) :
    Always (fun c ↦ ∃ payload, c = .notificationPost payload) (announced env info data) := by
  rcases announced_of_no_credit h with heq | ⟨payload, -, heq⟩
  · rw [heq]
    trivial
  · rw [heq]
    exact ⟨⟨payload, rfl⟩, fun _ _ ↦ trivial⟩

/-- The announcement never reads or writes the tables. -/
theorem always_announced (env : Env) (info : TransactionStatus) (data : Js) :
    Always (fun c ↦ (∃ msg, c = .sqsSendMessage msg) ∨ ∃ payload, c = .notificationPost payload)
      (announced env info data) := by
  rcases hdue : creditDue env info data with _ | msg
  · exact (always_announced_of_no_credit hdue).mono (fun c ↦ Or.inr) fun _ ↦ id
  · rw [announced_of_creditDue hdue]
    exact ⟨Or.inl ⟨msg, rfl⟩, fun r _ ↦
      (always_afterCredit env msg r).mono (fun c ↦ Or.inr) fun _ ↦ id⟩

theorem always_createTransactionLog (env : Env) (data eventKey : Js) :
    Always (fun c ↦ c.asksProvider = false) (createTransactionLog env data eventKey) := by
  refine createTransactionLog_elim trivial fun sourceId _ ↦ ⟨rfl, fun r _ ↦ ?_⟩
  rcases r with e | ⟨_ | ⟨info, logs⟩, now⟩
  · trivial
  · trivial
  · refine ⟨rfl, fun r _ ↦ ?_⟩
    cases r with
    | error e => trivial
    | ok _ =>
      refine (always_announced env info data).mono (fun c hc ↦ ?_) fun _ ↦ id
      rcases hc with ⟨msg, rfl⟩ | ⟨payload, rfl⟩ <;> rfl

end CallbackService

/-! ## The handler -/

namespace CallbackController

/-- The body is taken for an event about a charge. -/
def isChargeEvent (body : Js) : Bool :=
  body.truthy && (body.prop "data").truthy
    && ((body.prop "data").prop "object").isStr OmiseCallbackEvents.charge.value

/-- A webhook request is acknowledged at once, refused at once, or asks the provider. -/
theorem handleOmiseCallBack_cases (env : Env) (body : Js) (headers : Headers) :
    (isChargeEvent body = false ∧ handleOmiseCallBack env body headers = done ()) ∨
      (isChargeEvent body = true ∧ ¬EventAccepted env ((body.prop "data").prop "id")
          (headers.lookup "user-agent") (body.prop "key") ∧
        ∃ e, handleOmiseCallBack env body headers = fail e) ∨
      (isChargeEvent body = true ∧ EventAccepted env ((body.prop "data").prop "id")
          (headers.lookup "user-agent") (body.prop "key") ∧
        handleOmiseCallBack env body headers =
          await (Call.chargesRetrieve ((body.prop "data").prop "id"))
            (CallbackService.afterFindCharge env (body.prop "data") (body.prop "key"))) := by
  rcases hevent : isChargeEvent body with _ | _
  · left
    refine ⟨rfl, ?_⟩
    unfold isChargeEvent at hevent
    simp only [handleOmiseCallBack, hevent, Bool.false_eq_true, if_false, pure_eq]
  · right
    have hevent' := hevent
    unfold isChargeEvent at hevent'
    by_cases h : EventAccepted env ((body.prop "data").prop "id") (headers.lookup "user-agent")
        (body.prop "key")
    · refine Or.inr ⟨rfl, h, ?_⟩
      simp only [handleOmiseCallBack, hevent', if_true, validateChargeEvent_of_accepted h,
        await_bind]
      congr 1
      funext r
      cases r <;> rfl
    · obtain ⟨e, he, -⟩ := validateChargeEvent_of_not_accepted h
      refine Or.inl ⟨rfl, h, e, ?_⟩
      simp only [handleOmiseCallBack, hevent', if_true, he, fail_bind]

/-- What holds of a handling that ends or fails at once and of one that asks the provider, holds of
every one. -/
@[elab_as_elim]
theorem handleOmiseCallBack_elim {motive : Program Unit → Prop} {body : Js} {headers : Headers}
    (ended : motive (done ())) (failed : ∀ e, motive (fail e))
    (event : motive (await (Call.chargesRetrieve ((body.prop "data").prop "id"))
      (CallbackService.afterFindCharge env (body.prop "data") (body.prop "key")))) :
    motive (handleOmiseCallBack env body headers) := by
  rcases handleOmiseCallBack_cases env body headers with ⟨-, heq⟩ | ⟨-, -, e, heq⟩ | ⟨-, -, heq⟩
  · rw [heq]
    exact ended
  · rw [heq]
    exact failed e
  · rw [heq]
    exact event

end CallbackController

/-! ## One delivery, undisturbed -/

namespace CallbackService

section

variable {w : World} {o : ℕ → Choice} {info : TransactionStatus} {logs : List TransactionLog}
  {data eventKey : Js}

/-- Nothing that happens after the save touches the tables or the provider, and the queue gets the
message that is due, if the queue takes it. -/
theorem run_announced (env : Env) (info : TransactionStatus) (data : Js) (o : ℕ → Choice)
    (w : World) :
    ∃ w', Async.run (perform env) (announced env info data) o w = (.ok (), w') ∧ w'.db = w.db ∧
      w'.provider = w.provider ∧
      w'.queue = w.queue ++ if (o 0).fails then [] else (creditDue env info data).toList := by
  have hpost : ∀ (payload : PushNotificationPayloadV2) (o : ℕ → Choice) (w : World),
      ∃ w', Async.run (perform env) (await (Call.notificationPost payload) fun _ ↦ done ()) o w
        = (.ok (), w') ∧ w'.db = w.db ∧ w'.provider = w.provider ∧ w'.queue = w.queue := by
    intro payload o w
    rcases hf : (o 0).fails with _ | _
    · exact ⟨_, rfl, by simp [perform, hf, answer]⟩
    · exact ⟨_, rfl, by simp [perform, hf]⟩
  rcases hdue : creditDue env info data with _ | msg
  · rcases announced_of_no_credit hdue with heq | ⟨payload, -, heq⟩
    · rw [heq]
      exact ⟨w, rfl, by simp⟩
    · obtain ⟨w', hrun, hdb, hprovider, hqueue⟩ := hpost payload o w
      rw [heq]
      exact ⟨w', hrun, hdb, hprovider, by simp [hqueue]⟩
  · rw [announced_of_creditDue hdue]
    rcases hf : (o 0).fails with _ | _
    · rw [run_await_of (perform env) (perform_of_answer hf rfl)]
      rcases notified_cases env ChargeStatuses.successful.value msg with heq | ⟨payload, -, heq⟩
      · simp only [afterCredit, heq]
        exact ⟨_, rfl, by simp⟩
      · obtain ⟨w', hrun, hdb, hprovider, hqueue⟩ :=
          hpost payload (later o) { w with queue := w.queue ++ [msg] }
        simp only [afterCredit, heq]
        exact ⟨w', hrun, hdb, hprovider, by simp [hqueue]⟩
    · refine ⟨w, ?_, rfl, rfl, by simp⟩
      rw [run_await]
      simp [perform, hf, afterCredit]

/-- The lookup of an event returns a row. -/
structure Found (env : Env) (w : World) (data : Js) (o : Choice) (info : TransactionStatus)
    (logs : List TransactionLog) : Prop where
  fails : o.fails = false
  source : ∃ sourceId, sourceOf data = some sourceId ∧
    w.db.findOneBySource (env.condition sourceId) o.pick = some (info, logs)

theorem run_createTransactionLog_of_not_found (h : ∀ info logs, ¬Found env w data (o 0) info logs)
    (eventKey : Js) :
    Async.run (perform env) (createTransactionLog env data eventKey) o w = (.ok (), w) := by
  rcases hsource : sourceOf data with _ | sourceId
  · rw [createTransactionLog_of_no_source hsource, run_done]
  · rw [createTransactionLog_of_source hsource, run_await]
    rcases perform_cases env w (.statusFindOne sourceId) (o 0) with
      ⟨heq, -⟩ | ⟨found, w', hf, hanswer, heq⟩
    · rw [heq]
      rfl
    · obtain ⟨-, hfind, rfl⟩ := answer_statusFindOne hanswer
      rw [heq]
      rcases found with _ | ⟨info, logs⟩
      · rfl
      · exact absurd ⟨hf, sourceId, hsource, hfind⟩ (h info logs)

/-- A found row leads to the save of what was read, with the event recorded in it. -/
theorem run_createTransactionLog_of_found (h : Found env w data (o 0) info logs) (eventKey : Js) :
    Async.run (perform env) (createTransactionLog env data eventKey) o w =
      Async.run (perform env)
        (await (Call.statusSave (recordedStatus env info logs data eventKey (o 0).now))
          (afterSave env info data)) (later o) w := by
  obtain ⟨hf, sourceId, hsource, hfind⟩ := h
  have hanswer : answer env w (o 0) (.statusFindOne sourceId) = some (some (info, logs), w) := by
    rw [answer, if_pos (Db.noNul_of_findOneBySource hfind), hfind]
  rw [createTransactionLog_of_source hsource,
    run_await_of (perform env) (perform_of_answer hf hanswer), afterLookup]

theorem run_createTransactionLog_of_rejected (h : Found env w data (o 0) info logs)
    (hsave : saveOutcome w.db (recordedStatus env info logs data eventKey (o 0).now) (o 1) = none) :
    Async.run (perform env) (createTransactionLog env data eventKey) o w = (.ok (), w) := by
  rw [run_createTransactionLog_of_found h, run_await, later_apply, perform_statusSave, hsave]
  rfl

theorem run_createTransactionLog_of_saved {saved : SavedStatus} {db : Db}
    (h : Found env w data (o 0) info logs)
    (hsave : saveOutcome w.db (recordedStatus env info logs data eventKey (o 0).now) (o 1)
      = some (saved, db)) :
    ∃ w', Async.run (perform env) (createTransactionLog env data eventKey) o w = (.ok (), w') ∧
      w'.db = db ∧ w'.provider = w.provider ∧
      w'.queue = w.queue ++ if (o 2).fails then [] else (creditDue env info data).toList := by
  rw [run_createTransactionLog_of_found h, run_await, later_apply, perform_statusSave, hsave]
  exact run_announced env info data (later (later o)) { w with db := db }

end

end CallbackService

/-- The request passes the validation: the event is well formed and the provider returns its
charge. -/
structure Validated (env : Env) (w : World) (o : Choice) (body : Js) (headers : Headers) :
    Prop where
  event : CallbackController.isChargeEvent body = true
  accepted : EventAccepted env ((body.prop "data").prop "id") (headers.lookup "user-agent")
    (body.prop "key")
  answered : o.fails = false
  known : ∃ id charge, Js.text env.printNumber ((body.prop "data").prop "id") = some id ∧
    w.provider.charge? id = some charge

theorem eventAccepted_event (hlow : env.Lowercase) {chargeId : String} (hid : chargeId ≠ "")
    (eventKey : OmiseChargeEvents) :
    EventAccepted env (.str chargeId) (some (eventAgent env)) (.str eventKey.value) := by
  refine ⟨?_, ⟨eventAgent env, rfl, ?_, hlow.agent⟩, ⟨eventKey.value, rfl, ?_, ?_⟩⟩
  · simpa [Js.truthy] using hid
  · simp [eventAgent, Providers.value]
  · cases eventKey <;> decide
  · rw [hlow.key]
    cases eventKey <;> decide

theorem validated_event (hlow : env.Lowercase) {w : World} {o : Choice} {charge : Charge}
    (eventKey : OmiseChargeEvents) (hid : charge.id ≠ "") (hf : o.fails = false)
    (hknown : (w.provider.charge? charge.id).isSome) :
    Validated env w o (eventBody eventKey charge) (eventHeaders env) := by
  obtain ⟨known, hknown⟩ := Option.isSome_iff_exists.mp hknown
  exact ⟨rfl, eventAccepted_event hlow hid eventKey, hf, charge.id, known, by simp, hknown⟩

section

variable {w : World} {o : ℕ → Choice} {body : Js} {headers : Headers}

theorem run_createTransactionLog_ok (env : Env) (data eventKey : Js) (o : ℕ → Choice) (w : World) :
    (Async.run (perform env) (CallbackService.createTransactionLog env data eventKey) o w).1
      = .ok () := by
  by_cases hfound : ∃ info logs, CallbackService.Found env w data (o 0) info logs
  · obtain ⟨info, logs, hfound⟩ := hfound
    rcases hsave : saveOutcome w.db
      (CallbackService.recordedStatus env info logs data eventKey (o 0).now) (o 1) with
      _ | ⟨saved, db⟩
    · rw [CallbackService.run_createTransactionLog_of_rejected hfound hsave]
    · obtain ⟨w', heq, -⟩ := CallbackService.run_createTransactionLog_of_saved hfound hsave
      rw [heq]
  · push Not at hfound
    rw [CallbackService.run_createTransactionLog_of_not_found hfound]

/-- An event that passes the validation is acknowledged, whatever becomes of its recording. -/
theorem serve_of_validated (h : Validated env w (o 0) body headers) :
    serve env (.omiseCallback body headers) o w =
      (.ok .received, (Async.run (perform env) (CallbackService.createTransactionLog env
        (body.prop "data") (body.prop "key")) (later o) w).2) := by
  obtain ⟨hevent, haccepted, hf, id, charge, htext, hcharge⟩ := h
  have hanswer : answer env w (o 0) (.chargesRetrieve ((body.prop "data").prop "id"))
      = some (charge, w) := by
    simp only [answer, htext, Option.bind_some, hcharge, Option.map_some]
  rw [serve, program, pure_eq, run_bind_done]
  rcases CallbackController.handleOmiseCallBack_cases env body headers with
    ⟨hnot, -⟩ | ⟨-, hnot, -⟩ | ⟨-, -, heq⟩
  · exact absurd hevent (by rw [hnot]; simp)
  · exact absurd haccepted hnot
  · rw [heq, run_await_of (perform env) (perform_of_answer hf hanswer),
      CallbackService.afterFindCharge, run_createTransactionLog_ok]
    rfl

theorem serve_of_not_validated (h : ¬Validated env w (o 0) body headers) :
    (serve env (.omiseCallback body headers) o w).2 = w := by
  rw [serve, program, pure_eq, run_bind_done]
  rcases CallbackController.handleOmiseCallBack_cases env body headers with
    ⟨-, heq⟩ | ⟨-, -, e, heq⟩ | ⟨hevent, haccepted, heq⟩
  · rw [heq, run_done]
  · rw [heq, run_fail]
  · rw [heq, run_await]
    rcases perform_cases env w (.chargesRetrieve ((body.prop "data").prop "id")) (o 0) with
      ⟨hp, -⟩ | ⟨charge, w', hf, hanswer, hp⟩
    · rw [hp, CallbackService.afterFindCharge, run_fail]
    · obtain ⟨charge', hcharge, -⟩ := Option.map_eq_some_iff.mp hanswer
      obtain ⟨id, htext, hid⟩ := Option.bind_eq_some_iff.mp hcharge
      exact absurd ⟨hevent, haccepted, hf, id, charge', htext, hid⟩ h

end

end PaymentService
