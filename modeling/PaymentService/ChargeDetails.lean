import PaymentService.Purchase

/-!
# What a charge says

The request for a charge is made of the row, and the response of what was saved. What the request
says about the order is compared here with what was ordered, and what the response says about the
transaction with what is stored.

The description of a pay request goes no further than the controller. The product goes into a column
of the row, but the request for a charge looks for it in the metadata, where nothing puts it.
-/

namespace PaymentService

open Async

variable {env : Env}

/-! ## What the request says -/

/-- The body of a pay request. -/
structure PaymentPayRequest where
  description : Option String
  productId : ℚ
  paymentType : String

/-- The controller hands on the product and the payment type. -/
def PaymentController.createTransaction (userRefId : Option String)
    (payRequest : PaymentPayRequest) : Request :=
  .pay userRefId payRequest.productId payRequest.paymentType

/-- The request for a charge of the row with the source identifies what was ordered. -/
structure Identifies (payRequest : PaymentPayRequest) (row : TransactionStatus) (source : String)
    (request : ChargeRequest) : Prop where
  txId : request.metadata.txId = row.id
  userRefId : request.metadata.userRefId = row.userRefId
  sourceId : request.metadata.sourceId = source
  productId : request.metadata.productId = .str row.productId
  description : request.description = payRequest.description

/-- What a row says about the order besides its columns, and its description. -/
def TransactionStatus.order (row : TransactionStatus) : Option String × Js :=
  (row.description, row.metadata.prop "productId")

/-- Neither a charge nor an event writes a description, or a product into the metadata. -/
def orderOfRow (env : Env) : RowConstant env where
  View := Option String × Js
  view := TransactionStatus.order
  charge := by
    intro read row source chargeResult now row' hview hupd
    obtain rfl := eq_of_update_attemptStatus hupd
    have hproduct : (chargedMetadata read.metadata chargeResult).prop "productId" =
        read.metadata.prop "productId" :=
      prop_chargedMetadata read.metadata chargeResult (by decide) (by decide)
        ⟨'p', by decide, by decide⟩
    have hread : read.metadata.prop "productId" = row.metadata.prop "productId" :=
      congrArg Prod.snd hview
    simp only [TransactionStatus.order, attemptRow, hproduct, hread]
  record := by
    intro info row logs data eventKey now row' hinfo hview hupd
    obtain ⟨status, providerRefId, rfl⟩ := CallbackService.eq_of_update_recordedStatus hinfo hupd
    exact hview

theorem order_run {as : List Step} {txId : String} {row : TransactionStatus}
    (hrow : ((system env).run (Server.start World.empty) as).world.db.row? txId = some row) :
    row.order = (none, .undefined) := by
  obtain ⟨task, user, product, type, tokenPackage, now, now', saved, first, -, -, hins, hview⟩ :=
    (orderOfRow env).bought_run rfl as row (Db.row?_eq_some_iff.mp hrow).1
  refine hview.trans ?_
  have hinserted := StatusObject.inserted hins
  have hdescription : none = first.description := Option.some_inj.mp hinserted.description
  have hmetadata : _ = first.metadata := (jsonb_eq_some_iff.mp hinserted.metadata).2
  change (first.description, first.metadata.prop "productId") = (none, .undefined)
  rw [← hdescription, ← hmetadata]
  rfl

/-- In every run, a request for a charge is about the transaction, its user and the source of the
charge; but it never names the product that was ordered, although the row does, and it repeats what
was ordered about the description only when nothing was. -/
theorem not_identifies (env : Env) (as : List Step) :
    ∀ e ∈ (system env).trace (Server.start World.empty) as, ∀ request,
      e.call = .chargesCreate request →
        ∃ txId row source, e.request = .charge txId source ∧
          ((system env).run (Server.start World.empty) as).world.db.find? txId = some row ∧
          request.metadata.txId = row.id ∧ request.metadata.userRefId = row.userRefId ∧
          request.metadata.sourceId = source ∧
          (∃ p : Purchase, p.Made env ((system env).trace (Server.start World.empty) as) row.id) ∧
          ∀ (p : Purchase) (payRequest : PaymentPayRequest),
            p.Made env ((system env).trace (Server.start World.empty) as) row.id →
            p.request = PaymentController.createTransaction (some p.userRefId) payRequest →
              row.productId = env.printNumber payRequest.productId ∧
              request.metadata.productId = .undefined ∧
              (request.description = payRequest.description ↔ payRequest.description = none) ∧
              ¬Identifies payRequest row source request := by
  intro e he request hcreate
  obtain ⟨bs, cs, txId, read, source, type, productId, has, hq, hfound, hproduct, rfl, -, -⟩ :=
    row?_of_create he hcreate
  obtain ⟨hkey, hread⟩ := Db.find?_eq_some_iff.mp hfound
  have horder := order_run hread
  have hdescription : read.description = none := congrArg Prod.fst horder
  have hundefined : productId = .undefined := by
    have hprop : read.metadata.prop "productId" = .undefined := congrArg Prod.snd horder
    rwa [Js.prop, hproduct, Option.getD_some] at hprop
  -- The charge has read the row at some time; what it has used is in the row ever since.
  obtain ⟨row, hrow, hbought⟩ := (boughtOfRow env).row?_run hread cs
  rw [← System.run_append, ← has] at hrow
  have hid : row.id = read.id := (Db.row?_eq_some_iff.mp hrow).2
  have huser : row.userRefId = read.userRefId := congrArg BoughtFields.userRefId hbought
  rw [← hid] at hkey hrow
  refine ⟨txId, row, source, hq, Db.find?_eq_some_iff.mpr ⟨hkey, hrow⟩, hid.symm, huser.symm, rfl,
    ?_, fun p payRequest hmade hp ↦ ?_⟩
  · exact made_of_past rfl (List.append_nil as).symm hrow
  · have hstored := hmade.stored_of_past (List.append_nil as).symm hrow
    have hpay : p.productId = payRequest.productId := (Request.pay.inj hp).2.1
    refine ⟨hpay ▸ hstored.productId, hundefined, ?_, fun h ↦ ?_⟩
    · exact ⟨fun h ↦ h.symm.trans hdescription, fun h ↦ hdescription.trans h.symm⟩
    · have hnamed : productId = .str row.productId := h.productId
      rw [hundefined] at hnamed
      cases hnamed

/-- The request for a charge, if the call is one. -/
def Call.chargeRequest? : Call → Option ChargeRequest
  | chargesCreate request => some request
  | _ => none

theorem Call.chargeRequest?_eq_some {c : Call} {request : ChargeRequest}
    (h : c.chargeRequest? = some request) : c = .chargesCreate request := by
  cases c with
  | chargesCreate request' => exact congrArg chargesCreate (Option.some_inj.mp h)
  | _ => cases h

/-- The request names the text as the product. -/
def ChargeRequest.names (request : ChargeRequest) (productId : String) : Bool :=
  request.metadata.productId.isStr productId

/-- The buyer's order, with a description. -/
def Shop.described : PaymentPayRequest := ⟨some "a gift", 7, PaymentTypeEnum.qr.value⟩

private theorem Shop.asked :
    ∃ e ∈ (system platform).trace (Server.start World.empty) paidFor, ∃ request row,
      e.call = .chargesCreate request ∧
        (after paidFor).world.db.row? request.metadata.txId = some row ∧ row.productId = "7" ∧
        request.description = none ∧ request.names "7" = false := by
  have hrun : ∃ e ∈ (system platform).trace (Server.start World.empty) paidFor,
      (e.call.chargeRequest?.any fun request ↦
        ((after paidFor).world.db.row? request.metadata.txId).any (·.productId = "7") &&
          request.description = none && !request.names "7") = true := by
    decide +kernel
  obtain ⟨e, he, hrequest⟩ := hrun
  obtain ⟨request, hcall, hchecked⟩ := (Option.any_eq_true _ _).mp hrequest
  simp only [Bool.and_eq_true, decide_eq_true_eq, Bool.not_eq_true'] at hchecked
  obtain ⟨⟨hfound, hdescription⟩, hnames⟩ := hchecked
  obtain ⟨row, hrow, hproduct⟩ := (Option.any_eq_true _ _).mp hfound
  exact ⟨e, he, request, row, Call.chargeRequest?_eq_some hcall, hrow, of_decide_eq_true hproduct,
    hdescription, hnames⟩

/-- The charge in the shop, with any description of the order. -/
theorem not_identifies_described :
    ∃ e ∈ (system Shop.platform).trace (Server.start World.empty) Shop.paidFor,
      ∃ request txId row source, e.call = .chargesCreate request ∧
        e.request = .charge txId source ∧ Sql.Uuid.read txId = some row.id ∧ ∃ p : Purchase,
          p.Made Shop.platform
            ((system Shop.platform).trace (Server.start World.empty) Shop.paidFor) row.id ∧
          ∀ description,
            ¬Identifies ⟨description, p.productId, p.paymentType⟩ row source request := by
  obtain ⟨e, he, request, -, hcreate, -⟩ := Shop.asked
  obtain ⟨txId, row, source, hq, hfound, -, -, -, ⟨p, hmade⟩, hall⟩ :=
    not_identifies Shop.platform Shop.paidFor e he request hcreate
  have hread := (Db.find?_eq_some_iff.mp hfound).1
  exact ⟨e, he, request, txId, row, source, hcreate, hq, hread, p, hmade, fun description ↦
    (hall p ⟨description, p.productId, p.paymentType⟩ hmade rfl).2.2.2⟩

/-- Product 7 is ordered, with a description. The provider is told of neither. -/
theorem product_unnamed :
    PaymentController.createTransaction (some "buyer") Shop.described ∈
        System.arrivals Shop.paidFor ∧
      ∃ e ∈ (system Shop.platform).trace (Server.start World.empty) Shop.paidFor,
        ∃ request row, e.call = .chargesCreate request ∧
          (Shop.after Shop.paidFor).world.db.row? request.metadata.txId = some row ∧
          row.productId = "7" ∧ request.description = none ∧
          ¬Identifies Shop.described row "src_1" request := by
  obtain ⟨e, he, request, row, hcreate, hrow, hproduct, hdescription, hnames⟩ := Shop.asked
  refine ⟨List.mem_cons_self, e, he, request, row, hcreate, hrow, hproduct, hdescription,
    fun h ↦ ?_⟩
  rw [ChargeRequest.names, h.productId, hproduct] at hnames
  exact absurd hnames (by decide)

/-! ## What the response says

`save` returns the object it was given, so the details of the response have the columns that the
charge has written, and no others. -/

/-- The columns of a row as they are returned. -/
def TransactionStatus.columns (row : TransactionStatus) : Js :=
  .obj
    [("id", .str row.id), ("paymentType", .str row.paymentType), ("amount", .num row.amount),
      ("currency", .str row.currency), ("source", jsOfOption row.source),
      ("description", jsOfOption row.description), ("userRefId", .str row.userRefId),
      ("productId", .str row.productId), ("provider", .str row.provider),
      ("providerRefId", jsOfOption row.providerRefId)]

/-- The same columns of the details; what is not saved is not there. -/
def PaymentChargeDetailsResponse.columns (details : PaymentChargeDetailsResponse) : Js :=
  .obj
    [("id", .str details.id), ("source", .str details.source),
      ("providerRefId", .str details.providerRefId)]

/-- The fields of the row that `PaymentChargeDetailsResponse` declares. -/
def PaymentChargeDetailsResponse.declared : List String :=
  ["paymentType", "amount", "currency", "source", "description", "userRefId", "productId",
    "provider", "providerRefId"]

/-- The details are those of the row. -/
def PaymentChargeDetailsResponse.Agrees (details : PaymentChargeDetailsResponse)
    (row : TransactionStatus) : Prop :=
  details.id = row.id ∧
    ∀ field ∈ declared, details.columns.prop field = row.columns.prop field

/-- A response to a charge is made of the charge it has saved. -/
def Concluded : Request → (c : Call) → Except JsError c.Reply → Response → Prop
  | .charge _ source, .statusSave obj, .ok (saved, _), response =>
    ∃ row chargeResult now, obj = attemptStatus row source chargeResult now ∧
      response = .charged (chargeResponse chargeResult saved source now)
  | .charge _ _, _, _, _ => False
  | _, _, _, .charged _ => False
  | _, _, _, _ => True

theorem concludes_chargeTyped (env : Env) (txId source : String) (type : Option String) :
    Concludes (fun c r response ↦ Concluded (.charge txId source) c r (.charged response))
      (chargeTyped env txId source type) := by
  unfold chargeTyped
  split
  · refine fun r ↦ ⟨fun response hdone ↦ ?_, ?_⟩
    · rcases r with e | ⟨row, before⟩
      · cases hdone
      · rw [afterFindOneByOrFail, chargeRow] at hdone
        split at hdone <;> cases hdone
    rcases r with e | ⟨row, before⟩
    · trivial
    rw [afterFindOneByOrFail, chargeRow]
    split
    · next productId hproduct =>
      refine fun r ↦ ⟨fun response hdone ↦ ?_, ?_⟩
      · rcases r with e | ⟨chargeResult, now⟩ <;> cases hdone
      rcases r with e | ⟨chargeResult, now⟩
      · trivial
      -- The save is the one call after which the charge returns.
      refine fun r ↦ ⟨fun response hdone ↦ ?_, ?_⟩
      · rcases r with e | ⟨saved, later⟩
        · cases hdone
        · cases hdone
          exact ⟨row, chargeResult, now, rfl, rfl⟩
      · cases r <;> trivial
    · trivial
  · trivial

theorem concludes_program (env : Env) (q : Request) : Concludes (Concluded q) (program env q) := by
  cases q with
  | pay user product type =>
    exact Concludes.bind_done (concludes_of_forall (fun _ _ _ ↦ trivial) _)
  | charge txId source =>
    refine Concludes.bind_done ?_
    rw [charge_eq]
    refine Concludes.bind _ (concludes_chargeTyped env txId source) fun type response h ↦ ?_
    unfold chargeTyped at h
    split at h <;> cases h
  | omiseCallback body headers =>
    exact Concludes.bind_done (concludes_of_forall (fun _ _ _ ↦ trivial) _)

theorem columns_chargeResponse (chargeResult : Charge) (saved : SavedStatus) (source : String)
    (now : Date) {field : String} (hdeclared : field ∈ PaymentChargeDetailsResponse.declared) :
    (chargeResponse chargeResult saved source now).details.columns.prop field =
      if field = "source" then .str source
      else if field = "providerRefId" then .str chargeResult.id else .undefined := by
  simp only [PaymentChargeDetailsResponse.declared, List.mem_cons, List.not_mem_nil,
    or_false] at hdeclared
  rcases hdeclared with rfl | rfl | rfl | rfl | rfl | rfl | rfl | rfl | rfl <;> rfl

theorem columns_ne_undefined (row : TransactionStatus) {field : String}
    (hdeclared : field ∈ PaymentChargeDetailsResponse.declared) :
    row.columns.prop field ≠ .undefined := by
  have hoption : ∀ value : Option String, jsOfOption value ≠ .undefined := fun value ↦ by
    cases value <;> exact fun h ↦ by cases h
  simp only [PaymentChargeDetailsResponse.declared, List.mem_cons, List.not_mem_nil,
    or_false] at hdeclared
  rcases hdeclared with rfl | rfl | rfl | rfl | rfl | rfl | rfl | rfl | rfl
  case inr.inr.inr.inl => exact hoption row.source
  case inr.inr.inr.inr.inl => exact hoption row.description
  case inr.inr.inr.inr.inr.inr.inr.inr => exact hoption row.providerRefId
  all_goals exact fun h ↦ by cases h

/-- The details of a charge and the row that it has saved: what the details have is in the row. -/
theorem columns_attempt {chargeResult : Charge} (saved : SavedStatus)
    {row current : TransactionStatus} {source : String}
    (hsource : (attemptRow row current source chargeResult).source = some source)
    (href : (attemptRow row current source chargeResult).providerRefId = some chargeResult.id)
    (now : Date) {field : String} (hdeclared : field ∈ PaymentChargeDetailsResponse.declared) :
    if field = "source" ∨ field = "providerRefId" then
      (chargeResponse chargeResult saved source now).details.columns.prop field =
        (attemptRow row current source chargeResult).columns.prop field
    else (chargeResponse chargeResult saved source now).details.columns.prop field = .undefined ∧
      (attemptRow row current source chargeResult).columns.prop field ≠ .undefined := by
  rw [columns_chargeResponse chargeResult saved source now hdeclared]
  split_ifs with hone hfield hproviderRefId hfield hproviderRefId
  · rw [hfield]
    exact (congrArg jsOfOption hsource).symm
  · rw [hproviderRefId]
    exact (congrArg jsOfOption href).symm
  · exact absurd hone (not_or.mpr ⟨hfield, hproviderRefId⟩)
  · exact absurd (Or.inl hfield) hone
  · exact absurd (Or.inr hproviderRefId) hone
  · exact ⟨rfl, columns_ne_undefined _ hdeclared⟩

theorem not_agrees (details : PaymentChargeDetailsResponse) (row : TransactionStatus) :
    ¬details.Agrees row := by
  rintro ⟨-, hfields⟩
  have hamount : Js.undefined = .num row.amount := hfields "amount" (by decide)
  cases hamount

/-- The call that a response to a charge was made of. -/
theorem Concluded.save {e : Event} {response : PaymentChargeResponse}
    (h : Concluded e.request e.call e.reply (.charged response)) :
    ∃ txId source row chargeResult now saved time,
      e = ⟨e.task, .charge txId source, .statusSave (attemptStatus row source chargeResult now),
        .ok (saved, time)⟩ ∧
      response = chargeResponse chargeResult saved source now := by
  obtain ⟨task, q, c, r⟩ := e
  cases q with
  | charge txId source =>
    cases c with
    | statusSave obj =>
      rcases r with error | ⟨saved, time⟩
      · exact h.elim
      · obtain ⟨row, chargeResult, now, rfl, hresponse⟩ := h
        exact ⟨txId, source, row, chargeResult, now, saved, time, rfl,
          Response.charged.inj hresponse⟩
    | _ => exact h.elim
  | _ => exact h.elim

theorem save_of_advance {p : Server} {a : Step} {task : ℕ} {q : Request} {obj : StatusObject}
    {saved : SavedStatus} {time : Date}
    (h : ((system env).advance p a).1 = some ⟨task, q, .statusSave obj, .ok (saved, time)⟩) :
    ∃ uuid, p.world.db.save obj uuid = some (saved, ((system env).advance p a).2.world.db) := by
  rcases db_advance_cases env p a with ⟨-, hnot⟩ |
    ⟨i, q', obj', k, o, saved', db, -, hsave, hcall, hworld⟩
  · exact absurd (hnot _ (Option.mem_def.mpr h)) Bool.noConfusion
  · rw [hcall] at h
    cases h
    rw [hworld]
    exact ⟨o.uuid, hsave⟩

/-- What a charge saves is about the transaction it was asked for, and the source and the charge are
words of the provider. -/
theorem words_of_attempt {w : World} {as : List Step} {i : ℕ} {txId source : String}
    {row : TransactionStatus} {chargeResult : Charge} {now : Date}
    (h : Issued env
      (System.Heard ((system env).trace (Server.start w) as) i (.charge txId source))
      (.charge txId source) (.statusSave (attemptStatus row source chargeResult now))) :
    Sql.Uuid.read txId = some row.id ∧ Word source ∧ Word chargeResult.id := by
  rcases h.statusSave_cases with ⟨_, _, _, _, _, hq, -⟩ |
    ⟨_, _, type, read, before, productId, chargeResult', now', hq, hobj, hheard, hcreated⟩ |
    ⟨_, _, _, _, _, hq, -⟩
  · cases hq
  · obtain ⟨rfl, rfl⟩ := Request.charge.inj hq
    obtain ⟨bs, cs, -, hrow⟩ := find?_of_heard (List.append_nil _).symm hheard
    obtain ⟨hmakes, -⟩ := books_of_heard (List.append_nil _).symm hcreated
    have hsame : row.id = read.id := Option.some_inj.mp (congrArg StatusObject.id hobj)
    have href : chargeResult.id = chargeResult'.id :=
      Column.value.inj (congrArg StatusObject.providerRefId hobj)
    rw [hsame, href]
    exact ⟨(Db.find?_eq_some_iff.mp hrow).1, hmakes.word_source, hmakes.word_id⟩
  · cases hq

/-- In every run, whatever else runs: when a charge returns its response, the transaction is found
with the source and the charge of the response and with its identifier. None of the other declared
fields is in the response, although the transaction has them all, so the two never agree. -/
theorem details_of_charge (env : Env) (w : World) (as : List Step) (a : Step) (e : Event)
    (response : PaymentChargeResponse)
    (he : ((system env).advance ((system env).run (Server.start w) as) a).1 = some e)
    (hreturned : System.returned? ((system env).advance ((system env).run (Server.start w) as) a).2
      e.task = some (.charged response)) :
    ∃ txId source row logs, e.request = .charge txId source ∧
      findTransactionById ((system env).advance ((system env).run (Server.start w) as) a).2.world.db
        txId = some (row, logs) ∧
      response.details.id = row.id ∧ Sql.Uuid.read txId = some row.id ∧
      (∀ field ∈ PaymentChargeDetailsResponse.declared,
        if field = "source" ∨ field = "providerRefId" then
          response.details.columns.prop field = row.columns.prop field
        else response.details.columns.prop field = .undefined ∧
          row.columns.prop field ≠ .undefined) ∧
      ¬response.details.Agrees row := by
  obtain ⟨txId, source, row, chargeResult, now, saved, time, heq, rfl⟩ :=
    (System.concluded_of_advance (concludes_program env) he hreturned).save
  have hissued := issued_of_advance he
  rw [heq] at he hissued
  obtain ⟨uuid, hsave⟩ := save_of_advance he
  obtain ⟨current, hcurrent, htaken, hfound, -, -⟩ := save_attemptStatus hsave
  have hid : saved.id = row.id := (Db.row?_save_self hsave (attemptStatus_id ..) hcurrent).1
  obtain ⟨hread, hword, hwordId⟩ := words_of_attempt hissued
  have hsource := attemptRow_source htaken hword current
  have href := attemptRow_providerRefId htaken hwordId current
  have hidentity : (attemptRow row current source chargeResult).id = row.id :=
    (attemptRow_id ..).trans (Db.row?_eq_some_iff.mp hcurrent).2
  refine ⟨txId, source, attemptRow row current source chargeResult, _, by rw [heq],
    by rw [findTransactionById, hread, Option.bind_some, Db.transaction?, hfound, Option.map_some],
    hid.trans hidentity.symm, by rw [hidentity, hread],
    fun _ ↦ columns_attempt saved hsource href now, not_agrees _ _⟩

/-- The response to a charge, if it is one. -/
def Response.charged? : Response → Option PaymentChargeResponse
  | charged response => some response
  | _ => none

/-- The buyer's charge is about to be saved. -/
def Shop.charging : Server := after (purchase ++ (payment 1 "src_1" "first").dropLast)

/-- The save, after which the charge returns. -/
def Shop.lastStep : Step := .resume 1 (choice "first3")

private theorem Shop.charged :
    ∃ e response row logs, ((system platform).advance charging lastStep).1 = some e ∧
      System.returned? ((system platform).advance charging lastStep).2 e.task =
        some (.charged response) ∧
      findTransactionById ((system platform).advance charging lastStep).2.world.db Shop.orderId =
        some (row, logs) ∧ row.amount = 1000 ∧ row.paymentType = PaymentTypeEnum.qr.value := by
  have hrun : (((system platform).advance charging lastStep).1.any fun e ↦
      (System.returned? ((system platform).advance charging lastStep).2 e.task).any fun response ↦
        response.charged?.isSome) = true ∧
      ((findTransactionById ((system platform).advance charging lastStep).2.world.db
        Shop.orderId).any fun found ↦
          found.1.amount = 1000 ∧ found.1.paymentType = PaymentTypeEnum.qr.value) = true := by
    decide +kernel
  obtain ⟨hreturned, hfound⟩ := hrun
  obtain ⟨e, he, hresponse⟩ := (Option.any_eq_true _ _).mp hreturned
  obtain ⟨response, hresponse, hcharged⟩ := (Option.any_eq_true _ _).mp hresponse
  obtain ⟨⟨row, logs⟩, hrow, hfields⟩ := (Option.any_eq_true _ _).mp hfound
  cases response with
  | charged response =>
    exact ⟨e, response, row, logs, he, hresponse, hrow, of_decide_eq_true hfields⟩
  | _ => cases hcharged

/-- The charge in the shop. -/
theorem details_of_charge_order :
    ∃ (e : Event) (response : PaymentChargeResponse) (txId source : String)
      (row : TransactionStatus) (logs : List TransactionLog),
      ((system Shop.platform).advance Shop.charging Shop.lastStep).1 = some e ∧
      e.request = .charge txId source ∧
      findTransactionById ((system Shop.platform).advance Shop.charging Shop.lastStep).2.world.db
        txId = some (row, logs) ∧
      response.details.id = row.id ∧ ¬response.details.Agrees row := by
  obtain ⟨e, response, -, -, he, hreturned, -⟩ := Shop.charged
  obtain ⟨txId, source, row, logs, hq, hfound, hid, -, -, hnot⟩ :=
    details_of_charge Shop.platform World.empty
      (Shop.purchase ++ (Shop.payment 1 "src_1" "first").dropLast) Shop.lastStep e response he
      hreturned
  exact ⟨e, response, txId, source, row, logs, he, hq, hfound, hid, hnot⟩

/-- The transaction is for 1000 by `promptpay`; the details of the response have neither. -/
theorem details_lack_amount :
    ∃ e response row logs, ((system Shop.platform).advance Shop.charging Shop.lastStep).1 = some e ∧
      System.returned? ((system Shop.platform).advance Shop.charging Shop.lastStep).2 e.task =
        some (.charged response) ∧
      findTransactionById ((system Shop.platform).advance Shop.charging Shop.lastStep).2.world.db
        Shop.orderId = some (row, logs) ∧
      row.amount = 1000 ∧ response.details.columns.prop "amount" = .undefined ∧
      row.paymentType = PaymentTypeEnum.qr.value ∧
      response.details.columns.prop "paymentType" = .undefined ∧
      ¬response.details.Agrees row := by
  obtain ⟨e, response, row, logs, he, hreturned, hfound, hamount, htype⟩ := Shop.charged
  exact ⟨e, response, row, logs, he, hreturned, hfound, hamount, rfl, htype, rfl, not_agrees _ _⟩

end PaymentService
