import PaymentService.World

/-!
# The clients of the remote services

The repository, `OmiseService`, `DirectusService`, `SqsService` and `NotificationService`: thin
wrappers that translate a method into one call, except for the resolution of the payment type of a
source and the assembly of a notification.
-/

namespace PaymentService

open Async

/-! ## The repository -/

namespace TransactionStatusRepository

def findOneByOrFail (id : String) : Program (TransactionStatus × Date) :=
  call (Call.statusFindOneByOrFail id)

/-- The query is by source and loads the log entries with the row. -/
def findOne (source : Js) : Program (Option (TransactionStatus × List TransactionLog) × Date) :=
  call (Call.statusFindOne source)

def save (o : StatusObject) : Program (SavedStatus × Date) := call (Call.statusSave o)

end TransactionStatusRepository

/-! ## The payment provider -/

namespace OmiseService

def createCharge (request : ChargeRequest) : Program (Charge × Date) :=
  call (Call.chargesCreate request)

def findCharge (chargeId : Js) : Program (Charge × Date) := call (Call.chargesRetrieve chargeId)

def sourcesRetrieve (sourceId : String) : Program (String × Date) :=
  call (Call.sourcesRetrieve sourceId)

/-- A card token is a card by its prefix; the type of a source is looked up, and a failed lookup
counts as no type. -/
def findPaymentTypeFromSourceId (sourceId : String) : Program (Option String) :=
  if Js.startsWith sourceId "tokn_" then pure (some PaymentTypeEnum.card.value)
  else if Js.startsWith sourceId "src_" then
    tryCatch
      (do
        let (type, _) ← sourcesRetrieve sourceId
        pure (some type))
      fun _ ↦ pure none
  else pure none

end OmiseService

/-! ## The catalogue -/

def DirectusService.getTokenPackageById (id : ℚ) : Program (TokenPackageResponse × Date) :=
  tryCatch (call (Call.tokenPackagesGet id)) fun _ ↦ throw (.httpException "Invalid Product" 400)

/-! ## The credit queue -/

def SqsService.sendSampleProcessorEvent (msg : SqsMessageParams) : Program (Unit × Date) :=
  call (Call.sqsSendMessage msg)

/-! ## Notifications -/

namespace NotificationService

/-- `UrlTemplates[chargeStatus] ?? ''`, by the status whose upper case is the key. -/
def urlTemplate (type : String) : String :=
  if type = ChargeStatuses.successful.value ∨ type = ChargeStatuses.failed.value then
    "/payment/transaction/%(txId)s"
  else ""

/-- `{ ...DefaultMessage, ...MessageTemplates[chargeStatus] }`. -/
def messageTemplate (type : String) : MessageType :=
  if type = ChargeStatuses.successful.value then
    let message :=
      "Your payment for a top-up package of %(coinValue)s %(coinName)s is successful."
    ⟨message, message⟩
  else if type = ChargeStatuses.failed.value then
    let message := "Your payment for a top-up package of %(coinValue)s %(coinName)s is failed. " ++
      "Please try again."
    ⟨message, message⟩
  else ⟨"", ""⟩

/-- The text of a configured value in a template literal. -/
def configText (value : Option String) : String := value.getD "undefined"

/-- The payload of the notification about a charge that came to an end, or `null` without a user to
send it to. -/
def ChargeCompletePayloadBuilder (env : Env) (type : String) (item : SqsMessageParams) :
    Except JsError (Option PushNotificationPayloadV2) :=
  if item.userRef.truthy then do
    let template := configText env.config.notificationDeeplinkUrl ++ urlTemplate type
    let contentUrl ← env.sprintf template [("txId", .str item.attributes.transactionId)]
    let arguments :=
      [("coinValue", Js.str item.attributes.metadata.coinValue), ("coinName", item.tokenSymbol)]
    let enMessage ← env.sprintf (messageTemplate type).en arguments
    let thMessage ← env.sprintf (messageTemplate type).th arguments
    pure <| some
      { userRef := [item.userRef]
        destinationType := "user"
        message := ⟨enMessage, thMessage⟩
        isOverrideMsgRequired := true
        source := "payment service"
        icon := env.config.notificationPaymentIcon
        deliveryChannels := ["INBOX", "PUSH"]
        action := ⟨"deep_link", contentUrl, env.config.notificationFallbackUrl⟩
        transactionId := item.attributes.transactionId }
  else .ok none

def buildNotificationPayload (env : Env) (type : String) (data : SqsMessageParams) :
    Except JsError (Option PushNotificationPayloadV2) :=
  if type = ChargeStatuses.successful.value ∨ type = ChargeStatuses.failed.value then
    ChargeCompletePayloadBuilder env type data
  else .error (.error ("Invalid event type " ++ type))

def pushNotification : Option PushNotificationPayloadV2 → Program Unit
  | none => throw (.error "No tag found.")
  | some payload => do
    let _ ← call (Call.notificationPost payload)
    pure ()

end NotificationService

end PaymentService
