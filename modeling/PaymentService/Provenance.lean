import PaymentService.Async.History
import PaymentService.Services.CallbackSteps
import PaymentService.Services.PaymentSteps

/-!
# Where the calls of a request come from

`Issued env Heard q c` says that request `q` issues the call `c`, having heard the answers `Heard`:
each constructor is a call of the code, and its hypotheses are the answers that the code has waited
for and the tests it has made on the way to that call. In a run, what a task has heard is a part of
the trace (`issued_of_trace`), and each of those answers was given by a state the run went through
(`answered_of_mem_trace`). Claims about what a message or a write is made of are read off from there.
-/

namespace PaymentService

open Async

/-- Which answers to which calls have been heard. -/
abbrev Answers : Type := (c : Call) → Except JsError c.Reply → Prop

/-! ## Stages of a request -/

/-- The type of a source as far as the answers tell it. -/
inductive ResolvedType (Heard : Answers) (source : String) : Option String → Prop
  | token (htoken : Js.startsWith source "tokn_" = true) :
    ResolvedType Heard source (some PaymentTypeEnum.card.value)
  | asked {r : Except JsError (String × Date)} (hsource : Js.startsWith source "src_" = true)
    (hanswer : Heard (.sourcesRetrieve source) r) : ResolvedType Heard source (typeOfReply r)
  | neither : ResolvedType Heard source none

theorem ResolvedType.mono {Heard Heard' : Answers} (h : ∀ c r, Heard c r → Heard' c r)
    {source : String} {type : Option String} (htype : ResolvedType Heard source type) :
    ResolvedType Heard' source type := by
  cases htype with
  | token htoken => exact .token htoken
  | asked hsource hanswer => exact .asked hsource (h _ _ hanswer)
  | neither => exact .neither

/-- The charge of an event has been looked for, and the provider knows it. -/
structure EventKnown (env : Env) (Heard : Answers) (body : Js) (headers : Headers) : Prop where
  event : CallbackController.isChargeEvent body = true
  accepted : EventAccepted env ((body.prop "data").prop "id") (headers.lookup "user-agent")
    (body.prop "key")
  known : ∃ r, Heard (.chargesRetrieve ((body.prop "data").prop "id")) (.ok r)

/-- The lookup of an event has come out at a row. -/
structure EventFound (env : Env) (Heard : Answers) (body : Js) (headers : Headers)
    (info : TransactionStatus) (logs : List TransactionLog) (now : Date) : Prop
    extends EventKnown env Heard body headers where
  found : ∃ sourceId, CallbackService.sourceOf (body.prop "data") = some sourceId ∧
    Heard (.statusFindOne sourceId) (.ok (some (info, logs), now))

/-- The event has been stored in that row. -/
structure EventRecorded (env : Env) (Heard : Answers) (body : Js) (headers : Headers)
    (info : TransactionStatus) (logs : List TransactionLog) (now : Date) : Prop
    extends EventFound env Heard body headers info logs now where
  recorded : ∃ r, Heard (.statusSave (CallbackService.recordedStatus env info logs
    (body.prop "data") (body.prop "key") now)) (.ok r)

/-! ## The calls -/

/-- The calls of a request, each with the answers it takes. -/
inductive Issued (env : Env) (Heard : Answers) : Request → Call → Prop
  | tokenPackagesGet {user : Option String} {product : ℚ} {type : String} :
    Issued env Heard (.pay user product type) (.tokenPackagesGet product)
  | paySave {user : Option String} {product : ℚ} {type : String}
    {tokenPackage : TokenPackageResponse} {now : Date}
    (hpackage : Heard (.tokenPackagesGet product) (.ok (tokenPackage, now))) :
    Issued env Heard (.pay user product type)
      (.statusSave (newTransactionStatus env tokenPackage user product type now))
  | sourcesRetrieve {txId source : String} :
    Issued env Heard (.charge txId source) (.sourcesRetrieve source)
  | read {txId source : String} {type : Option String} (htype : ResolvedType Heard source type)
    (hsupported : supportedPaymentType type = true) :
    Issued env Heard (.charge txId source) (.statusFindOneByOrFail txId)
  | create {txId source : String} {type : Option String} {row : TransactionStatus} {now : Date}
    {productId : Js} (htype : ResolvedType Heard source type)
    (hsupported : supportedPaymentType type = true)
    (hrow : Heard (.statusFindOneByOrFail txId) (.ok (row, now)))
    (hproduct : row.metadata.get? "productId" = some productId) :
    Issued env Heard (.charge txId source)
      (.chargesCreate (chargeRequest env row source type productId))
  | chargeSave {txId source : String} {type : Option String} {row : TransactionStatus}
    {before now : Date} {productId : Js} {chargeResult : Charge}
    (hrow : Heard (.statusFindOneByOrFail txId) (.ok (row, before)))
    (hproduct : row.metadata.get? "productId" = some productId)
    (hcharge : Heard (.chargesCreate (chargeRequest env row source type productId))
      (.ok (chargeResult, now))) :
    Issued env Heard (.charge txId source) (.statusSave (attemptStatus row source chargeResult now))
  | chargesRetrieve {body : Js} {headers : Headers}
    (hevent : CallbackController.isChargeEvent body = true)
    (haccepted : EventAccepted env ((body.prop "data").prop "id") (headers.lookup "user-agent")
      (body.prop "key")) :
    Issued env Heard (.omiseCallback body headers) (.chargesRetrieve ((body.prop "data").prop "id"))
  | lookup {body : Js} {headers : Headers} {sourceId : Js}
    (hknown : EventKnown env Heard body headers)
    (hsource : CallbackService.sourceOf (body.prop "data") = some sourceId) :
    Issued env Heard (.omiseCallback body headers) (.statusFindOne sourceId)
  | record {body : Js} {headers : Headers} {info : TransactionStatus} {logs : List TransactionLog}
    {now : Date} (hfound : EventFound env Heard body headers info logs now) :
    Issued env Heard (.omiseCallback body headers)
      (.statusSave
        (CallbackService.recordedStatus env info logs (body.prop "data") (body.prop "key") now))
  | credit {body : Js} {headers : Headers} {info : TransactionStatus} {logs : List TransactionLog}
    {now : Date} {msg : SqsMessageParams}
    (hrecorded : EventRecorded env Heard body headers info logs now)
    (hdue : CallbackService.creditDue env info (body.prop "data") = some msg) :
    Issued env Heard (.omiseCallback body headers) (.sqsSendMessage msg)
  | notifySuccess {body : Js} {headers : Headers} {info : TransactionStatus}
    {logs : List TransactionLog} {now : Date} {msg : SqsMessageParams}
    {payload : PushNotificationPayloadV2}
    (hrecorded : EventRecorded env Heard body headers info logs now)
    (hdue : CallbackService.creditDue env info (body.prop "data") = some msg)
    (hsent : ∃ r, Heard (.sqsSendMessage msg) (.ok r))
    (hnotifies : CallbackService.Notifies env info (body.prop "data")
      ChargeStatuses.successful.value payload) :
    Issued env Heard (.omiseCallback body headers) (.notificationPost payload)
  | notifyFailure {body : Js} {headers : Headers} {info : TransactionStatus}
    {logs : List TransactionLog} {now : Date} {payload : PushNotificationPayloadV2}
    (hrecorded : EventRecorded env Heard body headers info logs now)
    (hnotifies : CallbackService.Notifies env info (body.prop "data") ChargeStatuses.failed.value
      payload) :
    Issued env Heard (.omiseCallback body headers) (.notificationPost payload)

theorem Issued.statusSave_cases {env : Env} {Heard : Answers} {q : Request} {obj : StatusObject}
    (h : Issued env Heard q (.statusSave obj)) :
    (∃ user product type tokenPackage now, q = .pay user product type ∧
        obj = newTransactionStatus env tokenPackage user product type now ∧
        Heard (.tokenPackagesGet product) (.ok (tokenPackage, now))) ∨
      (∃ txId source type row before productId chargeResult now, q = .charge txId source ∧
        obj = attemptStatus row source chargeResult now ∧
        Heard (.statusFindOneByOrFail txId) (.ok (row, before)) ∧
        Heard (.chargesCreate (chargeRequest env row source type productId))
          (.ok (chargeResult, now))) ∨
      ∃ body headers info logs now, q = .omiseCallback body headers ∧
        obj = CallbackService.recordedStatus env info logs (body.prop "data") (body.prop "key")
          now ∧
        EventFound env Heard body headers info logs now := by
  generalize hc : Call.statusSave obj = c at h
  cases h <;> cases hc
  · exact Or.inl ⟨_, _, _, _, _, rfl, rfl, ‹_›⟩
  · exact Or.inr (Or.inl ⟨_, _, _, _, _, _, _, _, rfl, rfl, ‹_›, ‹_›⟩)
  · exact Or.inr (Or.inr ⟨_, _, _, _, _, rfl, rfl, ‹_›⟩)

section Follows

variable {env : Env} {Heard : Answers} {body : Js} {headers : Headers} {info : TransactionStatus}
  {logs : List TransactionLog} {now : Date}

open CallbackService CallbackController

private theorem follows_announced
    (hrecorded : EventRecorded env Heard body headers info logs now) :
    Follows Heard (Issued env Heard (.omiseCallback body headers)) (fun _ ↦ True)
      (announced env info (body.prop "data")) := by
  rcases hdue : creditDue env info (body.prop "data") with _ | msg
  · rcases announced_of_no_credit hdue with heq | ⟨payload, hnotifies, heq⟩
    · rw [heq]
      trivial
    · rw [heq]
      exact ⟨.notifyFailure hrecorded hnotifies, fun _ _ ↦ trivial⟩
  · rw [announced_of_creditDue hdue]
    refine ⟨.credit hrecorded hdue, fun r hr ↦ ?_⟩
    cases r with
    | error e => trivial
    | ok r =>
      rw [afterCredit]
      rcases notified_cases env ChargeStatuses.successful.value msg with
        heq | ⟨payload, hbuild, heq⟩
      · rw [heq]
        trivial
      · rw [heq]
        have hstatus := Js.isStr_iff.mp (transactionId_of_creditDue hdue).2
        have hmsg := (creditDue_of_success hstatus).symm.trans hdue
        exact ⟨.notifySuccess hrecorded hdue ⟨r, hr⟩ ⟨hstatus, msg, hmsg, hbuild⟩,
          fun _ _ ↦ trivial⟩

private theorem follows_createTransactionLog (hknown : EventKnown env Heard body headers) :
    Follows Heard (Issued env Heard (.omiseCallback body headers)) (fun _ ↦ True)
      (createTransactionLog env (body.prop "data") (body.prop "key")) := by
  refine createTransactionLog_elim trivial fun sourceId hsource ↦
    ⟨.lookup hknown hsource, fun r hr ↦ ?_⟩
  rcases r with e | ⟨_ | ⟨info, logs⟩, now⟩
  · trivial
  · trivial
  · have hfound : EventFound env Heard body headers info logs now :=
      ⟨hknown, sourceId, hsource, hr⟩
    refine ⟨.record hfound, fun r hr ↦ ?_⟩
    cases r with
    | error e => trivial
    | ok r => exact follows_announced ⟨hfound, r, hr⟩

private theorem follows_handleOmiseCallBack :
    Follows Heard (Issued env Heard (.omiseCallback body headers)) (fun _ ↦ True)
      (handleOmiseCallBack env body headers) := by
  rcases handleOmiseCallBack_cases env body headers with
    ⟨-, heq⟩ | ⟨-, -, e, heq⟩ | ⟨hevent, haccepted, heq⟩
  · rw [heq]
    trivial
  · rw [heq]
    trivial
  · rw [heq]
    refine ⟨.chargesRetrieve hevent haccepted, fun r hr ↦ ?_⟩
    cases r with
    | error e => trivial
    | ok r => exact follows_createTransactionLog ⟨hevent, haccepted, r, hr⟩

private theorem follows_findPaymentTypeFromSourceId {txId source : String} :
    Follows Heard (Issued env Heard (.charge txId source)) (ResolvedType Heard source)
      (OmiseService.findPaymentTypeFromSourceId source) := by
  unfold OmiseService.findPaymentTypeFromSourceId
  split
  · next htoken => exact .token htoken
  · split
    · next hsource =>
      refine ⟨.sourcesRetrieve, fun r hr ↦ ?_⟩
      rcases r with e | ⟨type, now⟩
      · exact ResolvedType.asked (r := .error e) hsource hr
      · exact ResolvedType.asked (r := .ok (type, now)) hsource hr
    · exact .neither

private theorem follows_chargeTyped {txId source : String} {type : Option String}
    (htype : ResolvedType Heard source type) :
    Follows Heard (Issued env Heard (.charge txId source)) (fun _ ↦ True)
      (chargeTyped env txId source type) := by
  unfold chargeTyped
  split
  · next hsupported =>
    refine ⟨.read htype hsupported, fun r hrow ↦ ?_⟩
    rcases r with e | ⟨row, before⟩
    · trivial
    · rw [afterFindOneByOrFail]
      unfold chargeRow
      split
      · next productId hproduct =>
        refine ⟨.create htype hsupported hrow hproduct, fun r hcharge ↦ ?_⟩
        rcases r with e | ⟨chargeResult, now⟩
        · trivial
        · refine ⟨.chargeSave hrow hproduct hcharge, fun r _ ↦ ?_⟩
          cases r <;> trivial
      · trivial
  · trivial

theorem follows_issued (env : Env) (Heard : Answers) (q : Request) :
    Follows Heard (Issued env Heard q) (fun _ ↦ True) (program env q) := by
  cases q with
  | pay user product type =>
    refine Follows.bind (Q := fun _ ↦ True) ?_ fun _ _ ↦ trivial
    rw [createPaymentTransaction_eq]
    refine ⟨.tokenPackagesGet, fun r hr ↦ ?_⟩
    rcases r with e | ⟨tokenPackage, now⟩
    · trivial
    · refine ⟨.paySave hr, fun r _ ↦ ?_⟩
      cases r <;> trivial
  | charge txId source =>
    refine Follows.bind (Q := fun _ ↦ True) ?_ fun _ _ ↦ trivial
    rw [charge_eq]
    exact follows_findPaymentTypeFromSourceId.bind fun type htype ↦ follows_chargeTyped htype
  | omiseCallback body headers =>
    exact Follows.bind (Q := fun _ ↦ True) follows_handleOmiseCallBack fun _ _ ↦ trivial

end Follows

/-! ## In a run -/

variable {env : Env}

theorem issued_of_trace {w : World} {as : List Step} {es es' : List Event} {e : Event}
    (h : (system env).trace (Server.start w) as = es ++ e :: es') :
    Issued env (System.Heard es e.task e.request) e.request e.call :=
  System.computed_of_trace (follows_issued env) h

theorem issued_of_advance {w : World} {as : List Step} {a : Step} {e : Event}
    (h : ((system env).advance ((system env).run (Server.start w) as) a).1 = some e) :
    Issued env (System.Heard ((system env).trace (Server.start w) as) e.task e.request)
      e.request e.call := by
  have htrace : (system env).trace (Server.start w) (as ++ [a]) =
      (system env).trace (Server.start w) as ++ [e] := System.trace_of_advance h
  exact issued_of_trace htrace

/-- Every answer of a run was given by a state it went through. -/
theorem answered_of_mem_trace {p : Server} {as : List Step} {e : Event}
    (he : e ∈ (system env).trace p as) {value : e.call.Result} {now : Date}
    (hreply : e.reply = .ok (value, now)) :
    ∃ bs a cs o, as = bs ++ a :: cs ∧
      ((system env).advance ((system env).run p bs) a).1 = some e ∧
      answer env ((system env).run p bs).world o e.call =
        some (value, ((system env).advance ((system env).run p bs) a).2.world) := by
  obtain ⟨bs, a, cs, o, has, hcall, hperformed, hworld⟩ := System.performed_of_mem_trace he
  refine ⟨bs, a, cs, o, has, hcall, ?_⟩
  change e.reply = (perform env _ e.call o).1 at hperformed
  change _ = (perform env _ e.call o).2 at hworld
  rw [hworld]
  rcases perform_cases env ((system env).run p bs).world e.call o with
    ⟨heq, -⟩ | ⟨value', w', -, hanswer, heq⟩
  · rw [hreply, heq] at hperformed
    exact absurd hperformed (by simp)
  · rw [hreply, heq] at hperformed
    obtain ⟨rfl, -⟩ := Prod.mk.inj (Except.ok.inj hperformed)
    rw [heq]
    exact hanswer

section Past

variable {w : World} {as : List Step} {es es' : List Event} {i : ℕ} {q : Request} {now : Date}

theorem find?_of_heard (h : (system env).trace (Server.start w) as = es ++ es') {txId : String}
    {row : TransactionStatus}
    (hread : System.Heard es i q (.statusFindOneByOrFail txId) (.ok (row, now))) :
    ∃ bs cs, as = bs ++ cs ∧
      ((system env).run (Server.start w) bs).world.db.find? txId = some row := by
  have hmem := h ▸ List.mem_append_left es' hread
  obtain ⟨bs, a, cs, o, has, -, hanswer⟩ := answered_of_mem_trace hmem rfl
  obtain ⟨row', hrow, heq⟩ := Option.map_eq_some_iff.mp hanswer
  obtain ⟨rfl, -⟩ := Prod.mk.inj heq
  exact ⟨bs, a :: cs, has, hrow⟩

theorem EventFound.past (h : (system env).trace (Server.start w) as = es ++ es') {body : Js}
    {headers : Headers} {info : TransactionStatus} {logs : List TransactionLog}
    (hfound : EventFound env (System.Heard es i q) body headers info logs now) :
    ∃ bs cs sourceId pick, as = bs ++ cs ∧
      CallbackService.sourceOf (body.prop "data") = some sourceId ∧
      ((system env).run (Server.start w) bs).world.db.findOneBySource (env.condition sourceId) pick
        = some (info, logs) := by
  obtain ⟨sourceId, hsource, hlookup⟩ := hfound.found
  have hmem := h ▸ List.mem_append_left es' hlookup
  obtain ⟨bs, a, cs, o, has, -, hanswer⟩ := answered_of_mem_trace hmem rfl
  exact ⟨bs, a :: cs, sourceId, o.pick, has, hsource, (answer_statusFindOne hanswer).2.1⟩

theorem EventFound.row?_of_past (h : (system env).trace (Server.start w) as = es ++ es')
    {body : Js} {headers : Headers} {info : TransactionStatus} {logs : List TransactionLog}
    (hfound : EventFound env (System.Heard es i q) body headers info logs now) :
    ∃ bs cs, as = bs ++ cs ∧
      ((system env).run (Server.start w) bs).world.db.row? info.id = some info := by
  obtain ⟨bs, cs, sourceId, pick, has, -, hfind⟩ := hfound.past h
  exact ⟨bs, cs, has, Db.row?_eq_some_iff.mpr ⟨(Db.mem_of_findOneBySource hfind).1, rfl⟩⟩

theorem row?_of_credit {e : Event} {msg : SqsMessageParams}
    (he : e ∈ (system env).trace (Server.start w) as) (hmsg : e.call = .sqsSendMessage msg) :
    ∃ bs cs info data, as = bs ++ cs ∧
      ((system env).run (Server.start w) bs).world.db.row? info.id = some info ∧
      CallbackService.creditDue env info data = some msg := by
  obtain ⟨es, es', htrace⟩ := List.append_of_mem he
  have hissued := issued_of_trace htrace
  obtain ⟨i, q, c, r⟩ := e
  obtain rfl : c = .sqsSendMessage msg := hmsg
  cases hissued with
  | credit hrecorded hdue =>
    obtain ⟨bs, cs, has, hinfo⟩ := hrecorded.row?_of_past htrace
    exact ⟨bs, cs, _, _, has, hinfo, hdue⟩

/-- A request for a charge was made by a charge, of the row it has read, for a source of a supported
type. -/
theorem row?_of_create {e : Event} {request : ChargeRequest}
    (he : e ∈ (system env).trace (Server.start w) as) (hcreate : e.call = .chargesCreate request) :
    ∃ bs cs txId row source type productId, as = bs ++ cs ∧ e.request = .charge txId source ∧
      ((system env).run (Server.start w) bs).world.db.find? txId = some row ∧
      row.metadata.get? "productId" = some productId ∧
      request = chargeRequest env row source type productId ∧
      ResolvedType (System.Heard ((system env).trace (Server.start w) as) e.task e.request) source
        type ∧ supportedPaymentType type = true := by
  obtain ⟨es, es', htrace⟩ := List.append_of_mem he
  have hissued := issued_of_trace htrace
  obtain ⟨i, q, c, r⟩ := e
  obtain rfl : c = .chargesCreate request := hcreate
  cases hissued with
  | create htype hsupported hrow hproduct =>
    obtain ⟨bs, cs, has, hread⟩ := find?_of_heard htrace hrow
    refine ⟨bs, cs, _, _, _, _, _, has, rfl, hread, hproduct, rfl, htype.mono fun c r hr ↦ ?_,
      hsupported⟩
    rw [htrace]
    exact System.Heard.mono hr

theorem EventKnown.past (h : (system env).trace (Server.start w) as = es ++ es') {body : Js}
    {headers : Headers} (hknown : EventKnown env (System.Heard es i q) body headers) :
    ∃ bs cs id metadata, as = bs ++ cs ∧
      Js.text env.printNumber ((body.prop "data").prop "id") = some id ∧
      (id, metadata) ∈ ((system env).run (Server.start w) bs).world.provider.books := by
  obtain ⟨⟨charge, now⟩, hretrieve⟩ := hknown.known
  have hmem := h ▸ List.mem_append_left es' hretrieve
  obtain ⟨bs, a, cs, o, has, -, hanswer⟩ := answered_of_mem_trace hmem rfl
  obtain ⟨charge', hcharge, heq⟩ := Option.map_eq_some_iff.mp hanswer
  obtain ⟨rfl, -⟩ := Prod.mk.inj heq
  obtain ⟨id, htext, hfind⟩ := Option.bind_eq_some_iff.mp hcharge
  refine ⟨bs, a :: cs, id, charge'.metadata, has, htext, ?_⟩
  exact List.mem_map.mpr ⟨charge', Keyed.mem_of_find hfind, by rw [Keyed.key_of_find hfind]⟩

/-- A charge that was created was made of the request, and is in the books from then on. -/
theorem books_of_heard (h : (system env).trace (Server.start w) as = es ++ es')
    {request : ChargeRequest} {charge : Charge}
    (hcreated : System.Heard es i q (.chargesCreate request) (.ok (charge, now))) :
    request.Makes charge ∧ (charge.id, charge.metadata) ∈
      ((system env).run (Server.start w) as).world.provider.books := by
  have hmem := h ▸ List.mem_append_left es' hcreated
  obtain ⟨bs, a, cs, o, rfl, -, hanswer⟩ := answered_of_mem_trace hmem rfl
  have hgrown := books_run env ((system env).advance ((system env).run (Server.start w) bs) a).2 cs
  rw [← System.run_cons, ← System.run_append] at hgrown
  obtain ⟨hmakes, -, hcharge, hworld⟩ := answer_chargesCreate hanswer
  rw [hworld] at hgrown
  exact ⟨⟨o, hmakes, hcharge⟩, hgrown.subset (by simp)⟩

end Past

end PaymentService
