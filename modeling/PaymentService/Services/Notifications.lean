import PaymentService.Server
import PaymentService.Text.Printf

/-!
# Where a notification leads

The deep link of a notification is made of the configured URL and a template with a placeholder for the
transaction, and the two are put together before `sprintf` reads them. So a percent sign in the URL is
read as part of the format: an encoded character is an error, and the notification is lost.
-/

namespace PaymentService

/-! ## `sprintf` -/

/-- The text of a named argument; one that is missing is `undefined`. -/
def argumentText (env : Env) (arguments : List (String × Js)) (name : String) : List Char :=
  ((Js.text env.printNumber ((arguments.lookup name).getD .undefined)).getD "").toList

/-- What is relied on of `sprintf-js`. -/
structure SprintfJs (env : Env) : Prop where
  /-- Text is copied, `%%` is a percent sign, and `%(name)s` is the argument, once. -/
  formats : ∀ (format : String) (arguments : List (String × Js)) (out : List Char),
    Printf.format (argumentText env arguments) .text format.toList = some out →
      env.sprintf format arguments = .ok (String.ofList out)
  /-- Any other use of the percent sign is an error or a positional placeholder, and a positional
  placeholder is an error next to a named one. -/
  refuses : ∀ (format : String) (arguments : List (String × Js)),
    Printf.format (argumentText env arguments) .text format.toList = none →
      (∃ start name, format = start ++ "%(" ++ name ++ ")s") →
        ∃ e, env.sprintf format arguments = .error e

/-! ## The payload -/

/-- The notification of a charge leads to its transaction and says what has been bought. -/
structure RightPayload (url : String) (item : SqsMessageParams) (coinName : String)
    (payload : PushNotificationPayloadV2) : Prop where
  content : payload.action.content =
    url ++ "/payment/transaction/" ++ item.attributes.transactionId
  coinValue : ∀ message ∈ [payload.message.en, payload.message.th],
    item.attributes.metadata.coinValue.toList <:+: message.toList
  coinName : ∀ message ∈ [payload.message.en, payload.message.th],
    coinName.toList <:+: message.toList

/-- Read as a format for a transaction, the text is itself. -/
def Verbatim (env : Env) (transactionId url : String) : Prop :=
  Printf.format (argumentText env [("txId", .str transactionId)]) .text url.toList =
    some url.toList

namespace NotificationService

variable {env : Env} {url type : String}

theorem argumentText_of_lookup {arguments : List (String × Js)} {name s : String}
    (h : arguments.lookup name = some (.str s)) :
    argumentText env arguments name = s.toList := by
  rw [argumentText, h, Option.getD_some, Js.text_str, Option.getD_some]

theorem argumentText_of_missing {name : String} {v : Js} (h : name ≠ "txId") :
    argumentText env [("txId", v)] name = "undefined".toList := by
  rw [argumentText, List.lookup_cons, beq_eq_false_iff_ne.mpr h]
  rfl

theorem breaks_slash : Printf.Breaks '/' := by
  refine ⟨by decide, by decide, by decide, by decide, fun read ↦ ?_⟩
  simp [Printf.isNameChar]

theorem format_template (value : String → List Char) (url : List Char) :
    Printf.format value .text (url ++ "/payment/transaction/%(txId)s".toList) =
      (Printf.format value .text url).map fun out ↦
        out ++ ("/payment/transaction/".toList ++ (value "txId" ++ [])) := by
  have htail : Printf.format value .text "/payment/transaction/%(txId)s".toList =
      some ("/payment/transaction/".toList ++ (value "txId" ++ [])) := rfl
  have happend := Printf.format_append value breaks_slash .text url
    "payment/transaction/%(txId)s".toList
  have hslash : '/' :: "payment/transaction/%(txId)s".toList =
      "/payment/transaction/%(txId)s".toList := rfl
  rw [hslash, htail] at happend
  rw [happend]
  cases Printf.format value .text url <;> rfl

theorem urlTemplate_eq
    (htype : type = ChargeStatuses.successful.value ∨ type = ChargeStatuses.failed.value) :
    urlTemplate type = "/payment/transaction/%(txId)s" := if_pos htype

/-- The message once the coins and their name are put into it. -/
def message (coinValue coinName : List Char) (type : String) : List Char :=
  "Your payment for a top-up package of ".toList ++ (coinValue ++ ' ' :: (coinName ++
    if type = ChargeStatuses.successful.value then " is successful.".toList
    else " is failed. Please try again.".toList))

theorem format_message
    (htype : type = ChargeStatuses.successful.value ∨ type = ChargeStatuses.failed.value)
    (value : String → List Char) :
    Printf.format value .text (messageTemplate type).en.toList =
        some (message (value "coinValue") (value "coinName") type) ∧
      Printf.format value .text (messageTemplate type).th.toList =
        some (message (value "coinValue") (value "coinName") type) := by
  have hsame : (messageTemplate type).th = (messageTemplate type).en := by
    rcases htype with rfl | rfl
    · rfl
    · rfl
  have hen : Printf.format value .text (messageTemplate type).en.toList =
      some (message (value "coinValue") (value "coinName") type) := by
    rcases htype with rfl | rfl
    · rfl
    · rfl
  rw [hsame]
  exact ⟨hen, hen⟩

theorem coinValue_infix_message (coinValue coinName : List Char) (type : String) :
    coinValue <:+: message coinValue coinName type := List.infix_append' _ _ _

theorem infix_second (start coinValue coinName ending : List Char) :
    coinName <:+: start ++ (coinValue ++ ' ' :: (coinName ++ ending)) := by
  have hending : coinName <:+: ' ' :: (coinName ++ ending) :=
    List.infix_append' [' '] coinName ending
  have hsuffix : ' ' :: (coinName ++ ending) <:+ start ++ (coinValue ++ ' ' :: (coinName ++ ending)) :=
    (List.suffix_append coinValue _).trans (List.suffix_append start _)
  exact hending.trans hsuffix.isInfix

theorem coinName_infix_message (coinValue coinName : List Char) (type : String) :
    coinName <:+: message coinValue coinName type := infix_second _ _ _ _

section Payload

variable {item : SqsMessageParams} {userRef coinName : String}

/-- The payload for a link and a message. -/
def payload (env : Env) (item : SqsMessageParams) (contentUrl message : String) :
    PushNotificationPayloadV2 where
  userRef := [item.userRef]
  destinationType := "user"
  message := ⟨message, message⟩
  isOverrideMsgRequired := true
  source := "payment service"
  icon := env.config.notificationPaymentIcon
  deliveryChannels := ["INBOX", "PUSH"]
  action := ⟨"deep_link", contentUrl, env.config.notificationFallbackUrl⟩
  transactionId := item.attributes.transactionId

theorem builder_eq (hsprintf : SprintfJs env) (hurl : env.config.notificationDeeplinkUrl = some url)
    (htype : type = ChargeStatuses.successful.value ∨ type = ChargeStatuses.failed.value)
    (huser : item.userRef = .str userRef) (hne : userRef ≠ "")
    (hcoin : item.tokenSymbol = .str coinName) :
    ChargeCompletePayloadBuilder env type item =
      (env.sprintf (url ++ "/payment/transaction/%(txId)s")
        [("txId", .str item.attributes.transactionId)]).map fun contentUrl ↦
          some (payload env item contentUrl (String.ofList
            (message item.attributes.metadata.coinValue.toList coinName.toList type))) := by
  have htruthy : item.userRef.truthy = true := by
    rw [huser, Js.truthy]
    simpa using hne
  obtain ⟨hen, hth⟩ := format_message htype (argumentText env
    [("coinValue", .str item.attributes.metadata.coinValue), ("coinName", item.tokenSymbol)])
  rw [argumentText_of_lookup (s := item.attributes.metadata.coinValue) rfl,
    argumentText_of_lookup (s := coinName) (by rw [hcoin]; rfl)] at hen hth
  rw [ChargeCompletePayloadBuilder, if_pos htruthy, hurl, configText, Option.getD_some,
    urlTemplate_eq htype]
  simp only [hsprintf.formats _ _ _ hen, hsprintf.formats _ _ _ hth, bind, Except.bind]
  rcases env.sprintf (url ++ "/payment/transaction/%(txId)s")
    [("txId", .str item.attributes.transactionId)] with e | contentUrl
  · rfl
  · rfl

/-- The URL is read as a format, and what it gives is in front of the link. -/
theorem sprintf_link (hsprintf : SprintfJs env) (url transactionId : String) :
    (∃ e, env.sprintf (url ++ "/payment/transaction/%(txId)s") [("txId", .str transactionId)] =
        .error e ∧
      Printf.format (argumentText env [("txId", .str transactionId)]) .text url.toList = none) ∨
      ∃ out, Printf.format (argumentText env [("txId", .str transactionId)]) .text url.toList =
          some out ∧
        env.sprintf (url ++ "/payment/transaction/%(txId)s") [("txId", .str transactionId)] =
          .ok (String.ofList out ++ "/payment/transaction/" ++ transactionId) := by
  have hformat := format_template (argumentText env [("txId", .str transactionId)]) url.toList
  rw [argumentText_of_lookup (s := transactionId) rfl, ← String.toList_append] at hformat
  rcases hout : Printf.format (argumentText env [("txId", .str transactionId)]) .text url.toList
    with _ | out
  · rw [hout] at hformat
    obtain ⟨e, he⟩ := hsprintf.refuses _ _ hformat
      ⟨url ++ "/payment/transaction/", "txId", by
        rw [String.append_assoc, String.append_assoc, String.append_assoc]; rfl⟩
    exact Or.inl ⟨e, he, rfl⟩
  · rw [hout] at hformat
    refine Or.inr ⟨out, rfl, ?_⟩
    rw [hsprintf.formats _ _ _ hformat, List.append_nil, String.ofList_append,
      String.ofList_append, String.ofList_toList, String.ofList_toList, String.append_assoc]

end Payload

end NotificationService

open NotificationService

/-- For a charge that came to an end and a user: there is a notification, which leads to the
transaction and says what has been bought, if and only if the configured URL is itself when it is read
as a format. This it is without a percent sign, and only then when the identifier of the transaction
has none either. -/
theorem payload_right_iff {env : Env} (hsprintf : SprintfJs env) {url type : String}
    (hurl : env.config.notificationDeeplinkUrl = some url)
    (htype : type = ChargeStatuses.successful.value ∨ type = ChargeStatuses.failed.value)
    (item : SqsMessageParams) {userRef coinName : String} (huser : item.userRef = .str userRef)
    (hne : userRef ≠ "") (hcoin : item.tokenSymbol = .str coinName) :
    ((∃ payload, ChargeCompletePayloadBuilder env type item = .ok (some payload) ∧
        RightPayload url item coinName payload) ↔
      Verbatim env item.attributes.transactionId url) ∧
    ('%' ∉ url.toList → Verbatim env item.attributes.transactionId url) ∧
    ('%' ∉ item.attributes.transactionId.toList →
      Verbatim env item.attributes.transactionId url → '%' ∉ url.toList) := by
  refine ⟨?_, Printf.format_of_not_mem _, fun hnot hverbatim ↦ ?_⟩
  · rw [builder_eq hsprintf hurl htype huser hne hcoin, Verbatim]
    rcases sprintf_link hsprintf url item.attributes.transactionId with
      ⟨e, he, hnone⟩ | ⟨out, hout, hok⟩
    · rw [he, hnone]
      refine iff_of_false ?_ fun h ↦ by cases h
      rintro ⟨payload, h, -⟩
      cases h
    · rw [hok, hout]
      constructor
      · rintro ⟨payload, h, hright⟩
        obtain rfl := Option.some_inj.mp (Except.ok.inj h)
        have hcontent : String.ofList out ++ "/payment/transaction/" ++
            item.attributes.transactionId =
          url ++ "/payment/transaction/" ++ item.attributes.transactionId := hright.content
        have hlist := congrArg String.toList hcontent
        simp only [String.toList_append, String.toList_ofList, List.append_assoc] at hlist
        rw [List.append_cancel_right hlist]
      · intro h
        rw [Option.some_inj.mp h, String.ofList_toList]
        refine ⟨_, rfl, rfl, ?_, ?_⟩
        · refine List.forall_mem_cons.mpr ⟨?_, List.forall_mem_singleton.mpr ?_⟩
          all_goals
            rw [payload, String.toList_ofList]
            exact coinValue_infix_message _ _ _
        · refine List.forall_mem_cons.mpr ⟨?_, List.forall_mem_singleton.mpr ?_⟩
          all_goals
            rw [payload, String.toList_ofList]
            exact coinName_infix_message _ _ _
  · refine Printf.not_mem_of_verbatim (fun name ↦ ?_) hverbatim
    by_cases hname : name = "txId"
    · rw [argumentText_of_lookup (s := item.attributes.transactionId) (by rw [hname]; rfl)]
      exact hnot
    · rw [argumentText_of_missing hname]
      decide

namespace Shop

/-- Formats as they are described, and nothing else. -/
def sprintfJs (format : String) (arguments : List (String × Js)) : Except JsError String :=
  match Printf.format (argumentText platform arguments) .text format.toList with
  | some out => .ok (String.ofList out)
  | none => .error (.error "[sprintf] unexpected placeholder")

/-- The shop with another deep link. -/
def linkedTo (url : String) : Env :=
  { platform with
    config := { platform.config with notificationDeeplinkUrl := some url }
    sprintf := sprintfJs }

theorem sprintfJs_linkedTo (url : String) : SprintfJs (linkedTo url) where
  formats format arguments out h := by
    have hout : Printf.format (argumentText platform arguments) .text format.toList = some out := h
    simp only [linkedTo, sprintfJs, hout]
  refuses format arguments h _ := by
    have hnone : Printf.format (argumentText platform arguments) .text format.toList = none := h
    exact ⟨_, by simp only [linkedTo, sprintfJs, hnone]; rfl⟩

/-- The credit of the buyer's order. -/
def credited : SqsMessageParams where
  userRef := .str "buyer"
  tokenSymbol := .str "JPX"
  coinValue := "105"
  attributes :=
    { transactionId := Shop.orderId
      transactionType := "EARN"
      transferType := "TOPUP"
      serviceType := "PAYMENT"
      referenceId := .str "first"
      note := .undefined
      couponCode := ""
      metadata :=
        { packageId := "7"
          packageName := "100+5"
          coinValue := "100"
          bonusCoins := "5"
          price := "1000"
          currency := .str "THB" } }

end Shop

theorem payload_right_shop :
    ∃ payload, ChargeCompletePayloadBuilder (Shop.linkedTo "shop:/")
        ChargeStatuses.successful.value Shop.credited = .ok (some payload) ∧
      RightPayload "shop:/" Shop.credited "JPX" payload := by
  obtain ⟨hright, hplain, -⟩ := payload_right_iff (Shop.sprintfJs_linkedTo "shop:/") rfl
    (Or.inl rfl) Shop.credited rfl (by decide : "buyer" ≠ "") rfl
  exact hright.mpr (hplain (by decide))

/-- With a blank in the deep link, there is no notification. -/
theorem encoded_link_refused :
    SprintfJs (Shop.linkedTo "shop:/my%20orders") ∧
      (∃ e, ChargeCompletePayloadBuilder (Shop.linkedTo "shop:/my%20orders")
        ChargeStatuses.successful.value Shop.credited = .error e) ∧
      ¬∃ payload, ChargeCompletePayloadBuilder (Shop.linkedTo "shop:/my%20orders")
          ChargeStatuses.successful.value Shop.credited = .ok (some payload) ∧
        RightPayload "shop:/my%20orders" Shop.credited "JPX" payload := by
  have herror : ∃ e, ChargeCompletePayloadBuilder (Shop.linkedTo "shop:/my%20orders")
      ChargeStatuses.successful.value Shop.credited = .error e := ⟨_, rfl⟩
  refine ⟨Shop.sprintfJs_linkedTo _, herror, ?_⟩
  rintro ⟨payload, hpayload, -⟩
  obtain ⟨e, he⟩ := herror
  rw [he] at hpayload
  cases hpayload

end PaymentService
