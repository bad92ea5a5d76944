import PaymentService.Services.Clients

/-!
# `CallbackService` and its controller: the provider's events

The webhook validates the event — the shape of the request, and that the provider knows the charge
— and then records it: the row is found by the source in the event's metadata, its status, charge
and log are written, and for a charge that ended, the credit message and the notification follow.

Everything from the lookup on stands inside one `try`, and the handler is empty.
-/

namespace PaymentService

open Async

/-- The headers of a request, by lower-case name. -/
abbrev Headers := List (String × String)

namespace CallbackService

/-! ## Validation -/

def validateChargeEvent (env : Env) (chargeId : Js) (requestedAgent : Option String)
    (eventKey : Js) : Program Unit :=
  if !chargeId.truthy then throw (.httpException "Charge id is undefined" 400)
  else
    match requestedAgent with
    | none => throw (.httpException "User agent is undefined" 400)
    | some agent =>
      if agent = "" then throw (.httpException "User agent is undefined" 400)
      else if !eventKey.truthy then throw (.httpException "Event name is undefined" 400)
      else
        match eventKey with
        | .str key =>
          let agentName := env.toLowerCase agent
          let eventName := env.toLowerCase key
          if !Js.includes agentName Providers.omise.value then
            throw (.httpException ("Invalid user agent: " ++ agentName) 400)
          else if !Js.includes eventName OmiseCallbackEvents.charge.value
              || OmiseChargeEvents.values.all (· ≠ eventName) then
            throw (.httpException ("Invalid event: " ++ eventName) 400)
          else if agentName ≠ Providers.omise.value ++ "/"
              ++ NotificationService.configText env.config.omiseVersion then
            throw (.httpException ("Invalid omise version: " ++ agent) 400)
          else
            -- The charge is only looked for: what the provider says about it is dropped.
            tryCatch
              (do
                let _ ← OmiseService.findCharge chargeId
                pure ())
              fun _ ↦ do
                let text ← orThrow .typeError (Js.text env.printNumber chargeId)
                throw (.httpException ("Cannot find charge: " ++ text) 404)
        -- A value other than a string has no method `toLowerCase`.
        | _ => throw .typeError

/-! ## The credit message -/

/-- What the message takes from the stored metadata. -/
structure PackageFields where
  tokenSymbol : Js
  tokenAmount : Js
  tokenBonus : Js
  price : String
  currency : Js
  packageName : String

/-- ``tokenBonus ? `${tokenAmount}+${tokenBonus}` : tokenAmount.toString()``. -/
def packageName (env : Env) (tokenAmount tokenBonus : Js) : Option String :=
  if tokenBonus.truthy then do
    let amount ← tokenAmount.text env.printNumber
    let bonus ← tokenBonus.text env.printNumber
    some (amount ++ "+" ++ bonus)
  else tokenAmount.toStringCall env.printNumber

/-- The fields read from the stored metadata, in the order of the source; the first access throws
when the metadata is no object, the conversions when a value has no text. -/
def packageFields (env : Env) (metadata : Js) : Option PackageFields := do
  let tokenSymbol ← metadata.get? "tokenSymbol"
  let tokenAmount ← metadata.get? "tokenAmount"
  let tokenBonus ← metadata.get? "tokenBonus"
  let price ← (← metadata.get? "price").toStringCall env.printNumber
  let currency ← metadata.get? "currency"
  let packageName ← packageName env tokenAmount tokenBonus
  some { tokenSymbol, tokenAmount, tokenBonus, price, currency, packageName }

/-- The message that credits the tokens of a transaction. -/
def creditMessage (env : Env) (info : TransactionStatus) (chargeDetails : Js)
    (fields : PackageFields) : Option SqsMessageParams := do
  let coinValue ← Js.addText env.printNumber fields.tokenAmount fields.tokenBonus
  let packageCoins ← fields.tokenAmount.textOrZero env.printNumber
  let bonusCoins ← fields.tokenBonus.textOrZero env.printNumber
  some
    { userRef := (chargeDetails.prop "metadata").prop "userRefId"
      tokenSymbol := fields.tokenSymbol
      coinValue
      attributes :=
        { transactionId := info.id
          transactionType := "EARN"
          transferType := "TOPUP"
          serviceType := "PAYMENT"
          referenceId := chargeDetails.prop "id"
          note := chargeDetails.prop "description"
          couponCode := ""
          metadata :=
            { packageId := info.productId
              packageName := fields.packageName
              coinValue := packageCoins
              bonusCoins
              price := fields.price
              currency := fields.currency } } }

/-! ## Recording an event -/

/-- The log entry of an event. -/
def webhookLog (env : Env) (chargeDetails eventKey : Js) (now : Date) : NewLog where
  eventKey := env.column eventKey
  createdAt := now
  channel := .value "webhook"
  status := env.column (chargeDetails.prop "status")

/-- The row as it was read, with the event's status, charge and log entry. -/
def recordedStatus (env : Env) (info : TransactionStatus) (logs : List TransactionLog)
    (chargeDetails eventKey : Js) (now : Date) : StatusObject :=
  { info.toObject with
    transactionLogs := some ⟨logs, [webhookLog env chargeDetails eventKey now]⟩
    status := env.column (chargeDetails.prop "status")
    providerRefId := env.column (chargeDetails.prop "id")
    updatedAt := .value now }

/-- What follows the save: the credit message of a successful charge, and a notification. -/
def announce (env : Env) (info : TransactionStatus) (chargeDetails : Js) : Program Unit := do
  let fields ← orThrow .typeError (packageFields env info.metadata)
  match chargeDetails.prop "status" with
  | .str status =>
    if status = ChargeStatuses.successful.value ∨ status = ChargeStatuses.failed.value then
      -- A failed charge has a message too, for its notification; it is not sent to the queue.
      let msg ← orThrow .typeError (creditMessage env info chargeDetails fields)
      if status = ChargeStatuses.successful.value then
        let _ ← SqsService.sendSampleProcessorEvent msg
      let payload ← settle (NotificationService.buildNotificationPayload env status msg)
      NotificationService.pushNotification payload
  | _ => pure ()

def createTransactionLog (env : Env) (chargeDetails eventKey : Js) : Program Unit :=
  tryCatch
    (do
      let metadata ← orThrow .typeError (chargeDetails.get? "metadata")
      let sourceId ← orThrow .typeError (metadata.get? "sourceId")
      let (found, now) ← TransactionStatusRepository.findOne sourceId
      match found with
      -- The row is missing: the error is logged and the handling ends.
      | none => pure ()
      | some (info, logs) =>
        let _ ← TransactionStatusRepository.save
          (recordedStatus env info logs chargeDetails eventKey now)
        announce env info chargeDetails)
    -- Every error is logged, and the handling ends.
    fun _ ↦ pure ()

end CallbackService

/-! ## The controller -/

namespace CallbackController

/-- Events about anything but a charge are acknowledged and ignored. -/
def handleOmiseCallBack (env : Env) (body : Js) (headers : Headers) : Program Unit :=
  if body.truthy && (body.prop "data").truthy
      && ((body.prop "data").prop "object").isStr OmiseCallbackEvents.charge.value then do
    let data := body.prop "data"
    let chargeId := data.prop "id"
    let eventKey := body.prop "key"
    let requestedAgent := headers.lookup "user-agent"
    CallbackService.validateChargeEvent env chargeId requestedAgent eventKey
    CallbackService.createTransactionLog env data eventKey
  else pure ()

end CallbackController

end PaymentService
