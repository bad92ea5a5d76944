import PaymentService.Logger.Lines
import PaymentService.Purchase

/-!
# What the consumer of the queue reads

A credit message is sent as the text of an object. Three of its values are taken from the event as
they are — the user, the reference and the note — and an event can have anything there. Whatever that
is, the text can be parsed, the values from the event are found in their places, and everything else
is what was bought. The log gets the same text, and keeps it code unit by code unit.
-/

namespace PaymentService

open Async CallbackService

variable {env : Env}

/-! ## The body of a message -/

def SqsMetadata.toJs (metadata : SqsMetadata) : Js :=
  .obj
    [("packageId", .str metadata.packageId), ("packageName", .str metadata.packageName),
      ("coinValue", .str metadata.coinValue), ("bonusCoins", .str metadata.bonusCoins),
      ("price", .str metadata.price), ("currency", metadata.currency)]

def SqsAttribute.toJs (attributes : SqsAttribute) : Js :=
  .obj
    [("transactionId", .str attributes.transactionId),
      ("transactionType", .str attributes.transactionType),
      ("transferType", .str attributes.transferType), ("serviceType", .str attributes.serviceType),
      ("referenceId", attributes.referenceId), ("note", attributes.note),
      ("couponCode", .str attributes.couponCode), ("metadata", attributes.metadata.toJs)]

def SqsMessageParams.toJs (msg : SqsMessageParams) : Js :=
  .obj
    [("userRef", msg.userRef), ("tokenSymbol", msg.tokenSymbol), ("coinValue", .str msg.coinValue),
      ("attribute", msg.attributes.toJs)]

/-- `MessageBody` of the request to the queue, `JSON.stringify(msg)`. -/
def SqsService.messageBody (env : Env) (msg : SqsMessageParams) : Option String :=
  Js.stringify env.printNumber "" msg.toJs

/-- The message that a call sends. -/
def Call.message? : Call → Option SqsMessageParams
  | sqsSendMessage msg => some msg
  | _ => none

variable {number : List Char → ℚ} {msg : SqsMessageParams}

theorem Call.message?_eq_some_iff {c : Call} : c.message? = some msg ↔ c = .sqsSendMessage msg := by
  cases c <;> simp [message?]

theorem SqsMessageParams.readable_toJs (huser : Js.Readable env.printNumber number msg.userRef)
    (hsymbol : Js.Readable env.printNumber number msg.tokenSymbol)
    (hreference : Js.Readable env.printNumber number msg.attributes.referenceId)
    (hnote : Js.Readable env.printNumber number msg.attributes.note)
    (hcurrency : Js.Readable env.printNumber number msg.attributes.metadata.currency) :
    Js.Readable env.printNumber number msg.toJs := by
  have hmetadata : Js.Readable env.printNumber number msg.attributes.metadata.toJs :=
    ⟨by simp, True.intro, True.intro, True.intro, True.intro, True.intro, hcurrency, True.intro⟩
  have hattributes : Js.Readable env.printNumber number msg.attributes.toJs :=
    ⟨by simp, True.intro, True.intro, True.intro, True.intro, hreference, hnote, True.intro,
      hmetadata, True.intro⟩
  exact ⟨by simp, huser, hsymbol, True.intro, hattributes, True.intro⟩

/-! ## What is received -/

/-- A message received for a transaction that was bought, and that an event has led to: the user, the
reference and the note are those of the event, and what is credited is what was bought. -/
structure Purchase.Received (env : Env) (p : Purchase) (txId : String) (data received : Js) :
    Prop where
  userRef : received.prop "userRef" = (data.prop "metadata").prop "userRefId"
  referenceId : (received.prop "attribute").prop "referenceId" = data.prop "id"
  note : (received.prop "attribute").prop "note" = data.prop "description"
  transactionId : (received.prop "attribute").prop "transactionId" = .str txId
  kinds : ["transactionType", "transferType", "serviceType", "couponCode"].map
    (received.prop "attribute").prop = [.str "EARN", .str "TOPUP", .str "PAYMENT", .str ""]
  tokenSymbol : received.prop "tokenSymbol" = .str p.tokenPackage.token.symbol
  coinValue : received.prop "coinValue" =
    .str (env.printNumber (p.tokenPackage.no_of_coins + p.tokenBonus))
  packageId : ((received.prop "attribute").prop "metadata").prop "packageId" =
    .str (env.printNumber p.productId)
  packageName : ∃ name,
    ((received.prop "attribute").prop "metadata").prop "packageName" = .str name ∧
      ∀ amount bonus : ℕ, p.tokenPackage.no_of_coins = amount → p.tokenBonus = bonus →
        env.PrintsDecimal amount → env.PrintsDecimal bonus →
          decodePackageName name = some (amount, bonus)
  packageCoins : ((received.prop "attribute").prop "metadata").prop "coinValue" =
    .str (env.printNumber p.tokenPackage.no_of_coins)
  bonusCoins : ((received.prop "attribute").prop "metadata").prop "bonusCoins" =
    .str (env.printNumber p.tokenBonus)
  price : ((received.prop "attribute").prop "metadata").prop "price" =
    .str (env.printNumber p.tokenPackage.price)
  currency : ((received.prop "attribute").prop "metadata").prop "currency" =
    .str (p.tokenPackage.currency.getD "")

/-- The rest of what a message says: the note of the event, the package of the row, and its kind. -/
theorem rest_of_creditMessage {info : TransactionStatus} {data : Js} {fields : PackageFields}
    (h : creditMessage env info data fields = some msg) :
    msg.attributes.note = data.prop "description" ∧
      msg.attributes.metadata.packageId = info.productId ∧
      [msg.attributes.transactionType, msg.attributes.transferType, msg.attributes.serviceType,
        msg.attributes.couponCode] = ["EARN", "TOPUP", "PAYMENT", ""] := by
  simp only [creditMessage, bind, Option.bind_eq_some_iff, Option.some.injEq] at h
  obtain ⟨_, -, _, -, _, -, rfl⟩ := h
  exact ⟨rfl, rfl, rfl⟩

theorem event_of_credit {w : World} {as : List Step} {e : Event}
    (he : e ∈ (system env).trace (Server.start w) as) (hmsg : e.call = .sqsSendMessage msg) :
    ∃ bs cs info body headers, as = bs ++ cs ∧ e.request = .omiseCallback body headers ∧
      ((system env).run (Server.start w) bs).world.db.row? info.id = some info ∧
      creditDue env info (body.prop "data") = some msg := by
  obtain ⟨es, es', htrace⟩ := List.append_of_mem he
  have hissued := issued_of_trace htrace
  obtain ⟨i, q, c, r⟩ := e
  obtain rfl : c = .sqsSendMessage msg := hmsg
  cases hissued with
  | credit hrecorded hdue =>
    obtain ⟨bs, cs, has, hinfo⟩ := hrecorded.row?_of_past htrace
    exact ⟨bs, cs, _, _, _, has, rfl, hinfo, hdue⟩

section Received

variable {p : Purchase} {info : TransactionStatus} {data : Js}

theorem Purchase.Stored.readable_toJs (h : p.Stored env info)
    (hdata : Js.Stable env.printNumber number data) (hdue : creditDue env info data = some msg) :
    Js.Readable env.printNumber number msg.toJs := by
  obtain ⟨-, fields, -, hmsg⟩ := creditMessage_of_creditDue hdue
  obtain ⟨-, huser, hreference⟩ := names_of_creditMessage hmsg
  have hcredited := h.credited hdue
  apply SqsMessageParams.readable_toJs
  · rw [huser]
    exact ((hdata.prop "metadata").prop "userRefId").readable
  · rw [hcredited.tokenSymbol]
    exact True.intro
  · rw [hreference]
    exact (hdata.prop "id").readable
  · rw [(rest_of_creditMessage hmsg).1]
    exact (hdata.prop "description").readable
  · rw [hcredited.currency]
    exact True.intro

theorem Purchase.Stored.received (h : p.Stored env info)
    (hdata : Js.Stable env.printNumber number data) (hdue : creditDue env info data = some msg) :
    p.Received env info.id data msg.toJs.copy := by
  obtain ⟨-, fields, -, hmsg⟩ := creditMessage_of_creditDue hdue
  obtain ⟨htransaction, huser, hreference⟩ := names_of_creditMessage hmsg
  obtain ⟨hnote, hpackage, hkinds⟩ := rest_of_creditMessage hmsg
  have hcredited := h.credited hdue
  have hreadable := h.readable_toJs hdata hdue
  have hprop : ∀ key, (msg.toJs.copy).prop key = (msg.toJs.prop key).copy := Js.prop_copy hreadable
  have hattribute : ∀ key, ((msg.toJs.copy).prop "attribute").prop key =
      (msg.attributes.toJs.prop key).copy := by
    intro key
    rw [hprop]
    exact Js.prop_copy (hreadable.prop "attribute") key
  have hmetadata : ∀ key, (((msg.toJs.copy).prop "attribute").prop "metadata").prop key =
      (msg.attributes.metadata.toJs.prop key).copy := by
    intro key
    rw [hattribute]
    exact Js.prop_copy ((hreadable.prop "attribute").prop "metadata") key
  exact
    { userRef := by
        rw [hprop]
        exact (congrArg Js.copy huser).trans ((hdata.prop "metadata").prop "userRefId").copy_eq
      referenceId := by
        rw [hattribute]
        exact (congrArg Js.copy hreference).trans (hdata.prop "id").copy_eq
      note := by
        rw [hattribute]
        exact (congrArg Js.copy hnote).trans (hdata.prop "description").copy_eq
      transactionId := by
        rw [hattribute]
        exact congrArg Js.str htransaction
      kinds := by
        simp only [List.map_cons, List.map_nil, hattribute]
        exact congrArg (List.map Js.str) hkinds
      tokenSymbol := by
        rw [hprop]
        exact congrArg Js.copy hcredited.tokenSymbol
      coinValue := by
        rw [hprop]
        exact congrArg Js.str hcredited.coinValue
      packageId := by
        rw [hmetadata]
        exact congrArg Js.str (hpackage.trans h.productId)
      packageName := by
        rw [hmetadata]
        exact ⟨msg.attributes.metadata.packageName, rfl, hcredited.packageName⟩
      packageCoins := by
        rw [hmetadata]
        exact congrArg Js.str hcredited.packageCoins
      bonusCoins := by
        rw [hmetadata]
        exact congrArg Js.str hcredited.bonusCoins
      price := by
        rw [hmetadata]
        exact congrArg Js.str hcredited.price
      currency := by
        rw [hmetadata]
        exact congrArg Js.copy hcredited.currency }

end Received

/-! ## In a run -/

section Run

variable {provider : Provider}
  (hnumber : ∀ cs, Js.Literal env.printNumber number (number cs)) {as : List Step}
  (hparsed : ∀ body headers, .omiseCallback body headers ∈ System.arrivals as →
    ∃ raw, Js.parse number raw = some body)
include hnumber hparsed

/-- A credit message of a run was made, for an event that has been parsed, of a row that has been
read. -/
theorem stable_of_credit {e : Event}
    (he : e ∈ (system env).trace (Server.start (World.fresh provider)) as) (hmsg : e.call = .sqsSendMessage msg) :
    ∃ bs cs info body headers, as = bs ++ cs ∧ e.request = .omiseCallback body headers ∧
      Js.Stable env.printNumber number (body.prop "data") ∧
      ((system env).run (Server.start (World.fresh provider)) bs).world.db.row? info.id = some info ∧
      creditDue env info (body.prop "data") = some msg := by
  obtain ⟨bs, cs, info, body, headers, has, hrequest, hinfo, hdue⟩ := event_of_credit he hmsg
  have harrived := System.request_mem_arrivals_of_trace he
  rw [hrequest] at harrived
  obtain ⟨raw, hraw⟩ := hparsed body headers harrived
  have hdata := (Js.settled_of_parse hnumber hraw).toStable.prop "data"
  exact ⟨bs, cs, info, body, headers, has, hrequest, hdata, hinfo, hdue⟩

theorem parse_messageBody {e : Event}
    (he : e ∈ (system env).trace (Server.start (World.fresh provider)) as) (hmsg : e.call = .sqsSendMessage msg) :
    ∃ text, SqsService.messageBody env msg = some text ∧
      Js.parse number text = some msg.toJs.copy := by
  obtain ⟨bs, cs, info, body, headers, has, -, hdata, hinfo, hdue⟩ :=
    stable_of_credit hnumber hparsed he hmsg
  obtain ⟨p, hmade⟩ := made_of_past rfl has hinfo
  have hreadable := (hmade.stored_of_past has hinfo).readable_toJs hdata hdue
  obtain ⟨text, htext⟩ : ∃ text, SqsService.messageBody env msg = some text :=
    Option.isSome_iff_exists.mp (Js.isSome_write env.printNumber "" "" msg.toJs)
  have hgap : Js.Space "".toList := Js.space_nil
  exact ⟨text, htext, Js.parse_stringify hgap hreadable htext⟩

end Run

/-- In every run of the freshly started service, whatever else the provider has charged, in which
requests interleave in any way and any call may fail, and the bodies of the events are the values of
JSON texts, any at all: the text of a credit message can be parsed, and what is found in it is what
was bought for the transaction, with the user, the reference and the note of the event that the
message was sent for. -/
theorem credit_received (env : Env) (number : List Char → ℚ)
    (hnumber : ∀ cs, Js.Literal env.printNumber number (number cs)) (provider : Provider)
    (as : List Step)
    (hparsed : ∀ body headers, .omiseCallback body headers ∈ System.arrivals as →
      ∃ raw, Js.parse number raw = some body) :
    ∀ e ∈ (system env).trace (Server.start (World.fresh provider)) as, ∀ msg,
      e.call = .sqsSendMessage msg →
      ∃ body headers text received, e.request = .omiseCallback body headers ∧
        SqsService.messageBody env msg = some text ∧ Js.parse number text = some received ∧
        (∃ p : Purchase, p.Made env ((system env).trace (Server.start (World.fresh provider)) as)
          msg.attributes.transactionId) ∧
        ∀ p : Purchase, p.Made env ((system env).trace (Server.start (World.fresh provider)) as)
            msg.attributes.transactionId →
          p.Received env msg.attributes.transactionId (body.prop "data") received := by
  intro e he msg hmsg
  obtain ⟨bs, cs, info, body, headers, has, hrequest, hdata, hinfo, hdue⟩ :=
    stable_of_credit hnumber hparsed he hmsg
  obtain ⟨text, htext, hparse⟩ := parse_messageBody hnumber hparsed he hmsg
  rw [(transactionId_of_creditDue hdue).1]
  refine ⟨body, headers, text, msg.toJs.copy, hrequest, htext, hparse, made_of_past rfl has hinfo,
    fun p hmade ↦ ?_⟩
  exact (hmade.stored_of_past has hinfo).received hdata hdue

/-- In every run as before: after a credit message has been sent, the logger prints a line and does
not throw. The line tells the queue, and the time of the start in the place of a duration; of the
message it tells the code units, one by one under their positions. -/
theorem credit_logged (env : Env) (format : LogFormat) (number : List Char → ℚ)
    (hnumber : ∀ cs, Js.Literal env.printNumber number (number cs)) (provider : Provider)
    (as : List Step)
    (hparsed : ∀ body headers, .omiseCallback body headers ∈ System.arrivals as →
      ∃ raw, Js.parse number raw = some body)
    (queueUrl : Option String) (startExecTime now : Date) (hstart : startExecTime ≠ 0)
    (hexec : Js.Literal format.number number ((startExecTime : ℤ) : ℚ)) :
    ∀ e ∈ (system env).trace (Server.start (World.fresh provider)) as, ∀ msg,
      e.call = .sqsSendMessage msg →
      ∃ text line v logged w, SqsService.messageBody env msg = some text ∧
        logSqsSender format queueUrl text startExecTime now = .ok line ∧
        Js.parse number line = some v ∧ v.prop "url" = .str (queueName queueUrl) ∧
        (v.prop "body").prop "execTime" = .num startExecTime ∧
        (v.prop "body").prop "reqBody" = .str logged ∧ Js.parse number logged = some w ∧
        ∀ i (hi : i < (Js.codeUnits text).length),
          w.prop (toString i) = .str (Js.ofUnit (Js.codeUnits text)[i]).toString := by
  intro e he msg hmsg
  obtain ⟨text, htext, hparse⟩ := parse_messageBody hnumber hparsed he hmsg
  have hjson : Js.isJson text = true := by rw [← Js.isSome_parse number, hparse, Option.isSome_some]
  obtain ⟨line, v, hline, hv, htells⟩ :=
    told_of_logSqsSender queueUrl text startExecTime now (by rwa [if_neg hstart])
  rw [if_neg hstart] at htells
  obtain ⟨logged, w, hlogged, hw, hunits⟩ := units_of_textShows hjson htells.reqBody
  exact ⟨text, line, v, logged, w, htext, hline, hv, htells.url, htells.execTime, hlogged, hw,
    hunits⟩

/-! ### An event with a note -/

theorem Shop.literal_natural (literal : List Char) :
    Js.Literal platform.printNumber Js.natural (Js.natural literal) :=
  Js.literal_natural (fun _ ↦ rfl) literal

/-- The charge of the order, with a description that looks like the end of a message. -/
def Shop.notedCharge : Charge :=
  { Shop.paidCharge with
    description := some "\x22\x7d,\x22coinValue\x22:\x221000000"
    metadata := { Shop.paidCharge.metadata with productId := .str "7" } }

def Shop.noted : List Step := Shop.paidFor ++ Shop.delivery 2 .complete Shop.notedCharge "hook"

theorem Shop.parsed_noted : ∀ body headers, .omiseCallback body headers ∈ System.arrivals noted →
    body = eventBody .complete notedCharge ∧ ∃ raw, Js.parse Js.natural raw = some body := by
  intro body headers harrived
  have harrivals : System.arrivals noted =
      [.pay (some "buyer") 7 PaymentTypeEnum.qr.value, .charge Shop.orderId "src_1",
        eventRequest platform .complete notedCharge] := rfl
  rw [harrivals] at harrived
  obtain ⟨rfl, rfl⟩ : body = eventBody .complete notedCharge ∧ headers = eventHeaders platform := by
    simpa [eventRequest] using harrived
  have hamount : Js.Literal platform.printNumber Js.natural notedCharge.amount :=
    literal_natural ['1', '0', '0', '0']
  have hmetadata : Js.Readable platform.printNumber Js.natural (notedCharge.toJs.prop "metadata") :=
    ⟨by simp, True.intro, True.intro, True.intro, True.intro, True.intro⟩
  have hcharge : Js.Readable platform.printNumber Js.natural notedCharge.toJs :=
    ⟨by simp, True.intro, True.intro, True.intro, hamount, True.intro, True.intro, True.intro,
      True.intro, True.intro, True.intro, hmetadata, True.intro⟩
  have hreadable : Js.Readable platform.printNumber Js.natural (eventBody .complete notedCharge) :=
    ⟨by simp, True.intro, True.intro, hcharge, True.intro⟩
  obtain ⟨raw, hraw⟩ : ∃ raw, Js.stringify platform.printNumber ""
      (eventBody .complete notedCharge) = some raw :=
    Option.isSome_iff_exists.mp (Js.isSome_write platform.printNumber "" "" _)
  have hgap : Js.Space "".toList := Js.space_nil
  exact ⟨rfl, raw, Js.parse_stringify hgap hreadable hraw⟩

theorem Shop.exists_noted_credit :
    ∃ e ∈ (system platform).trace (Server.start World.empty) noted, ∃ msg,
      e.call = .sqsSendMessage msg := by
  obtain ⟨e, he, hcredit⟩ : ∃ e ∈ (system platform).trace (Server.start World.empty) noted,
      e.call.message?.isSome = true := by decide +kernel
  obtain ⟨msg, hmsg⟩ := Option.isSome_iff_exists.mp hcredit
  exact ⟨e, he, msg, Call.message?_eq_some_iff.mp hmsg⟩

/-- The description arrives as the note, and the buyer gets what was bought. -/
theorem noted_credit_received :
    ∃ e ∈ (system Shop.platform).trace (Server.start World.empty) Shop.noted,
      ∃ msg text received, e.call = .sqsSendMessage msg ∧
        SqsService.messageBody Shop.platform msg = some text ∧
        Js.parse Js.natural text = some received ∧
        ∃ p : Purchase,
          p.Made Shop.platform ((system Shop.platform).trace (Server.start World.empty) Shop.noted)
            msg.attributes.transactionId ∧
          p.Received Shop.platform msg.attributes.transactionId Shop.notedCharge.toJs received := by
  obtain ⟨e, he, msg, hmsg⟩ := Shop.exists_noted_credit
  obtain ⟨body, headers, text, received, hrequest, htext, hreceived, ⟨p, hmade⟩, hall⟩ :=
    credit_received Shop.platform Js.natural Shop.literal_natural ⟨[], []⟩ Shop.noted
      (fun body headers h ↦ (Shop.parsed_noted body headers h).2) e he msg hmsg
  have harrived := System.request_mem_arrivals_of_trace he
  rw [hrequest] at harrived
  obtain ⟨rfl, -⟩ := Shop.parsed_noted body headers harrived
  exact ⟨e, he, msg, text, received, hmsg, htext, hreceived, p, hmade, hall p hmade⟩

/-- The message of the order in the log. -/
theorem noted_credit_logged :
    ∃ e ∈ (system Shop.platform).trace (Server.start World.empty) Shop.noted,
      ∃ msg text line v, e.call = .sqsSendMessage msg ∧
        SqsService.messageBody Shop.platform msg = some text ∧
        logSqsSender Shop.logFormat (some "https://queue.test/credits") text 1 2 = .ok line ∧
        Js.parse Js.natural line = some v ∧ (v.prop "body").prop "execTime" = .num (1 : ℕ) := by
  obtain ⟨e, he, msg, hmsg⟩ := Shop.exists_noted_credit
  have hexec : Js.Literal Shop.logFormat.number Js.natural (((1 : ℕ) : ℤ) : ℚ) :=
    Js.literal_natural (fun _ ↦ rfl) ['1']
  obtain ⟨text, line, v, -, -, htext, hline, hv, -, htime, -⟩ :=
    credit_logged Shop.platform Shop.logFormat Js.natural Shop.literal_natural ⟨[], []⟩ Shop.noted
      (fun body headers h ↦ (Shop.parsed_noted body headers h).2)
      (some "https://queue.test/credits") 1 2 (by decide) hexec e he msg hmsg
  exact ⟨e, he, msg, text, line, v, hmsg, htext, hline, hv, htime⟩

end PaymentService
