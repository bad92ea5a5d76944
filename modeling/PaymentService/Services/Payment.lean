import PaymentService.Services.Clients

/-!
# `PaymentService`: pay and charge

`createPaymentTransaction` prices a token package and stores the transaction as pending. `charge`
resolves the payment type of the source, reads the row, creates the charge at the provider and then
stores the source and the charge in the row.
-/

namespace PaymentService

open Async

/-! ## Pay -/

/-- The bonus of the first payment method whose slug is the payment type of the request. -/
def paymentBonus (tokenPackage : TokenPackageResponse) (paymentType : String) : ℚ :=
  ((tokenPackage.payment_bonus.find? fun bonus ↦ paymentType = bonus.slug).bind
    (·.amount)).getD 0

/-- The `metadata` stored with a transaction. -/
def packageMetadata (tokenPackage : TokenPackageResponse) (tokenBonus : ℚ) : Js :=
  .obj
    [("tokenName", .str tokenPackage.token.name), ("tokenSymbol", .str tokenPackage.token.symbol),
      ("tokenAmount", .num tokenPackage.no_of_coins), ("tokenBonus", .num tokenBonus),
      ("currency", .str (tokenPackage.currency.getD "")), ("price", .num tokenPackage.price)]

/-- The object a new transaction is stored from. The user comes from a header that may be
missing. -/
def newTransactionStatus (env : Env) (tokenPackage : TokenPackageResponse)
    (userRefId : Option String) (productId : ℚ) (paymentType : String) (now : Date) :
    StatusObject where
  paymentType := .value paymentType
  provider := .value "omise"
  userRefId := match userRefId with
    | none => .undefined
    | some user => .value user
  amount := .value (tokenPackage.price * 100)
  productId := .value (env.printNumber productId)
  currency := .value "THB"
  status := .value ChargeStatuses.pending.value
  metadata := .value <| packageMetadata tokenPackage
    (tokenPackage.bonus.getD 0 + paymentBonus tokenPackage paymentType)
  createdAt := .value now

def createPaymentTransaction (env : Env) (userRefId : Option String) (productId : ℚ)
    (paymentType : String) : Program String := do
  let (tokenPackage, now) ← DirectusService.getTokenPackageById productId
  let (saved, _) ← TransactionStatusRepository.save
    (newTransactionStatus env tokenPackage userRefId productId paymentType now)
  pure saved.id

/-! ## Charge -/

/-- `paymentType && Object.values(PaymentTypeEnum).includes(paymentType)`. -/
def supportedPaymentType : Option String → Bool
  | none => false
  | some type => type ≠ "" && PaymentTypeEnum.values.contains type

/-- The request for a charge of a transaction. The source goes out as a card when it is one. -/
def chargeRequest (env : Env) (chargingTransaction : TransactionStatus) (source : String)
    (paymentType : Option String) (productId : Js) : ChargeRequest where
  amount := chargingTransaction.amount
  currency := chargingTransaction.currency
  source := if paymentType ≠ some PaymentTypeEnum.card.value then some source else none
  card := if paymentType = some PaymentTypeEnum.card.value then some source else none
  return_uri := NotificationService.configText env.config.omiseReturnUri ++ "?txId="
    ++ chargingTransaction.id
  description := chargingTransaction.description
  metadata :=
    { txId := chargingTransaction.id, userRefId := chargingTransaction.userRefId
      sourceId := source, productId }

/-- The `metadata` of the row with what the provider returned for this charge. -/
def chargedMetadata (metadata : Js) (chargeResult : Charge) : Js :=
  .obj <|
    Js.assign
      (Js.assign metadata.spread "qr_code" (chargeResult.source.prop "scannable_code").orUndefined)
      "card" chargeResult.card.orUndefined

/-- The object `saveTransactionStatus` saves. Its `updated_at` is no property of the entity and
reaches no column. -/
def chargedStatus (txId source providerRefId : String) (metadata : Js) (now : Date) :
    StatusObject where
  id := some txId
  source := .value source
  providerRefId := .value providerRefId
  metadata := .value metadata
  transactionLogs := some
    { loaded := []
      created :=
        [{ status := .value ChargeStatuses.pending.value, channel := .value "api"
           eventKey := .value OmiseChargeEvents.create.value, createdAt := now }] }

def saveTransactionStatus (txId source providerRefId : String) (metadata : Js) (now : Date) :
    Program SavedStatus := do
  let (saved, _) ← TransactionStatusRepository.save
    (chargedStatus txId source providerRefId metadata now)
  pure saved

/-- The response: the saved object, with its source, charge and metadata replaced. -/
def chargeResponse (chargeResult : Charge) (transactionStatus : SavedStatus) (source : String)
    (now : Date) : PaymentChargeResponse where
  status := chargeResult.status
  details :=
    { id := transactionStatus.id
      source
      providerRefId := chargeResult.id
      transactionLogs := transactionStatus.transactionLogs
      updated_at := now
      metadata :=
        { image := (chargeResult.source.prop "scannable_code").prop "image"
          authorizeUri := chargeResult.authorize_uri
          returnUri := chargeResult.return_uri } }

def charge (env : Env) (txId source : String) : Program PaymentChargeResponse := do
  let paymentType ← OmiseService.findPaymentTypeFromSourceId source
  if supportedPaymentType paymentType then
    let (chargingTransaction, _) ← TransactionStatusRepository.findOneByOrFail txId
    let productId ← orThrow .typeError (chargingTransaction.metadata.get? "productId")
    let (chargeResult, now) ← OmiseService.createCharge
      (chargeRequest env chargingTransaction source paymentType productId)
    -- From here on the charge exists, whatever becomes of the save.
    let transactionStatus ← saveTransactionStatus chargingTransaction.id source chargeResult.id
      (chargedMetadata chargingTransaction.metadata chargeResult) now
    pure (chargeResponse chargeResult transactionStatus source now)
  else throw (.httpException "Invalid payment type" 400)

/-! ## Queries -/

/-- A row with its log. -/
def Db.transaction? (db : Db) (id : String) : Option (TransactionStatus × List TransactionLog) :=
  (db.row? id).map fun row ↦ (row, db.attached id)

/-- The row whose identifier a text stands for; a query for a text that stands for none is rejected
before this is asked. -/
def findTransactionById (db : Db) (id : String) : Option (TransactionStatus × List TransactionLog) :=
  (Sql.Uuid.read id).bind db.transaction?

/-- The rows a user's list is drawn from: those that are not pending. -/
def transactionsOfUser (db : Db) (userRefId : String) : List TransactionStatus :=
  db.statuses.filter fun row ↦
    row.userRefId = userRefId ∧ row.status ≠ ChargeStatuses.pending.value

end PaymentService
