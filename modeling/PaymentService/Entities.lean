import PaymentService.Js.Value

/-!
# Entities, enumerations and messages

The data of the service, under the names it has there: the two tables `transaction_status` and
`transaction_log`, the objects handed to a repository's `save`, the provider's charges, the token
packages of the catalogue, and the messages sent to the queue and to the notification service.

An object given to `save` may leave a property out, set it to `null` or set it to a value, and the
three are different to the database. `Column` records which it is.
-/

namespace PaymentService

/-- An instant, in milliseconds. -/
abbrev Date := ℕ

/-! ## Enumerations -/

inductive ChargeStatuses
  | cancelled | failed | pending | refund | successful
  deriving DecidableEq

def ChargeStatuses.value : ChargeStatuses → String
  | cancelled => "cancelled"
  | failed => "failed"
  | pending => "pending"
  | refund => "refund"
  | successful => "successful"

inductive Providers
  | omise

def Providers.value : Providers → String
  | omise => "omise"

/-- The event family the service reacts to; the other families of the provider reach no code. -/
inductive OmiseCallbackEvents
  | charge

def OmiseCallbackEvents.value : OmiseCallbackEvents → String
  | charge => "charge"

inductive OmiseChargeEvents
  | capture | complete | create | expire | reverse | update
  deriving DecidableEq

namespace OmiseChargeEvents

def value : OmiseChargeEvents → String
  | capture => "charge.capture"
  | complete => "charge.complete"
  | create => "charge.create"
  | expire => "charge.expire"
  | reverse => "charge.reverse"
  | update => "charge.update"

/-- `Object.values(OmiseChargeEvents)`. -/
def values : List String := [capture, complete, create, expire, reverse, update].map value

end OmiseChargeEvents

inductive PaymentTypeEnum
  | qr | card | trueMoney | linePay | scb | kbank | bay | bbl | ktb
  deriving DecidableEq

namespace PaymentTypeEnum

def value : PaymentTypeEnum → String
  | qr => "promptpay"
  | card => "credit_card"
  | trueMoney => "truemoney_jumpapp"
  | linePay => "rabbit_linepay"
  | scb => "mobile_banking_scb"
  | kbank => "mobile_banking_kbank"
  | bay => "mobile_banking_bay"
  | bbl => "mobile_banking_bbl"
  | ktb => "mobile_banking_ktb"

/-- `Object.values(PaymentTypeEnum)`. -/
def values : List String :=
  [qr, card, trueMoney, linePay, scb, kbank, bay, bbl, ktb].map value

end PaymentTypeEnum

/-! ## Tables -/

/-- A row of `transaction_status`. -/
structure TransactionStatus where
  id : String
  paymentType : String
  amount : ℤ
  currency : String
  source : Option String
  description : Option String
  userRefId : String
  provider : String
  providerRefId : Option String
  productId : String
  status : String
  metadata : Js
  createdAt : Date
  updatedAt : Option Date

/-- A row of `transaction_log`. -/
structure TransactionLog where
  id : String
  status : String
  /-- `api` or `webhook`. -/
  channel : Option String
  eventKey : Option String
  /-- The foreign key behind the relation `transactionStatus`; the entry is attached to that
  row. -/
  transactionStatusId : Option String
  createdAt : Date
  updatedAt : Option Date
  deriving DecidableEq

/-! ## Objects given to `save` -/

/-- A property of a saved object. -/
inductive Column (α : Type) : Type
  /-- The property is absent, so the column is not written. -/
  | undefined
  /-- The property is `null`. -/
  | null
  | value (a : α)

/-- A property holding what a nullable column was read as. -/
def Column.ofOption {α : Type} : Option α → Column α
  | none => null
  | some a => value a

/-- A log entry that is not in the database yet. -/
structure NewLog where
  status : Column String
  channel : Column String
  eventKey : Column String
  createdAt : Date

/-- The array saved as `transactionLogs`: `[...loaded, ...created]`. -/
structure LogArray where
  loaded : List TransactionLog
  created : List NewLog

/-- An object saved through the repository of `TransactionStatus`. Without an `id` it is a new
row. -/
structure StatusObject where
  id : Option String := none
  paymentType : Column String := .undefined
  amount : Column ℚ := .undefined
  currency : Column String := .undefined
  source : Column String := .undefined
  description : Column String := .undefined
  userRefId : Column String := .undefined
  provider : Column String := .undefined
  providerRefId : Column String := .undefined
  productId : Column String := .undefined
  status : Column String := .undefined
  metadata : Column Js := .undefined
  transactionLogs : Option LogArray := none
  createdAt : Column Date := .undefined
  updatedAt : Column Date := .undefined

/-- A row as it was loaded, every column a property. -/
def TransactionStatus.toObject (row : TransactionStatus) : StatusObject where
  id := some row.id
  paymentType := .value row.paymentType
  amount := .value row.amount
  currency := .value row.currency
  source := .ofOption row.source
  description := .ofOption row.description
  userRefId := .value row.userRefId
  provider := .value row.provider
  providerRefId := .ofOption row.providerRefId
  productId := .value row.productId
  status := .value row.status
  metadata := .value row.metadata
  createdAt := .value row.createdAt
  updatedAt := .ofOption row.updatedAt

/-- What `save` returns of the columns the database generated. -/
structure SavedStatus where
  id : String
  transactionLogs : List TransactionLog

/-! ## The provider's charges -/

structure ChargeMetadata where
  txId : String
  userRefId : String
  sourceId : String
  productId : Js

/-- The request `createCharge` sends. -/
structure ChargeRequest where
  amount : ℤ
  currency : String
  source : Option String
  card : Option String
  return_uri : String
  description : Option String
  metadata : ChargeMetadata

/-- A charge as the provider returns it. -/
structure Charge where
  id : String
  status : String
  amount : ℤ
  currency : String
  description : Option String
  source : Js
  card : Js
  authorize_uri : Js
  return_uri : Js
  metadata : ChargeMetadata

/-- An optional string as JSON. -/
def jsOfOption : Option String → Js
  | none => .null
  | some s => .str s

/-- The charge as it stands in the `data` of an event. -/
def Charge.toJs (charge : Charge) : Js :=
  .obj
    [("object", .str OmiseCallbackEvents.charge.value), ("id", .str charge.id),
      ("status", .str charge.status), ("amount", .num charge.amount),
      ("currency", .str charge.currency), ("description", jsOfOption charge.description),
      ("source", charge.source), ("card", charge.card),
      ("authorize_uri", charge.authorize_uri), ("return_uri", charge.return_uri),
      ("metadata", .obj
        [("txId", .str charge.metadata.txId), ("userRefId", .str charge.metadata.userRefId),
          ("sourceId", .str charge.metadata.sourceId), ("productId", charge.metadata.productId)])]

/-! ## The catalogue -/

structure Token where
  symbol : String
  name : String
  deriving Inhabited

structure PaymentBonus where
  amount : Option ℚ
  /-- `payments_id.slug`. -/
  slug : String

structure TokenPackageResponse where
  token : Token
  price : ℚ
  no_of_coins : ℚ
  bonus : Option ℚ
  payment_bonus : List PaymentBonus
  currency : Option String
  deriving Inhabited

/-! ## Messages -/

structure SqsMetadata where
  packageId : String
  packageName : String
  coinValue : String
  bonusCoins : String
  price : String
  currency : Js

structure SqsAttribute where
  transactionId : String
  transactionType : String
  transferType : String
  serviceType : String
  referenceId : Js
  note : Js
  couponCode : String
  metadata : SqsMetadata

structure SqsMessageParams where
  userRef : Js
  tokenSymbol : Js
  coinValue : String
  /-- The property `attribute` of the source. -/
  attributes : SqsAttribute

structure MessageType where
  en : String
  th : String

structure NotificationAction where
  type : String
  content : String
  fallbackUrl : Option String

structure PushNotificationPayloadV2 where
  userRef : List Js
  destinationType : String
  message : MessageType
  isOverrideMsgRequired : Bool
  source : String
  icon : Option String
  deliveryChannels : List String
  action : NotificationAction
  /-- `metadata.transactionId`. -/
  transactionId : String

/-! ## Responses -/

/-- `metadata` of the response to a charge. -/
structure ChargeResponseMetadata where
  image : Js
  authorizeUri : Js
  returnUri : Js

/-- The details of the response to a charge: the saved object, with three properties replaced. -/
structure PaymentChargeDetailsResponse where
  id : String
  source : String
  providerRefId : String
  transactionLogs : List TransactionLog
  updated_at : Date
  metadata : ChargeResponseMetadata

structure PaymentChargeResponse where
  status : String
  details : PaymentChargeDetailsResponse

/-! ## Errors -/

/-- What is thrown: an `HttpException`, a plain `Error`, a `TypeError` of the language, or the
rejection of an awaited call. -/
inductive JsError
  | httpException (message : String) (status : ℕ)
  | error (message : String)
  | typeError
  | rejected
  deriving DecidableEq

end PaymentService
