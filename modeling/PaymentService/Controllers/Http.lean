import PaymentService.Async.Front
import PaymentService.Controllers.Requests
import PaymentService.Pages

/-!
# The service behind HTTP

What happens to a request between the socket and a service: `HttpHeaderInterceptor` looks at the
language, `LoggerInterceptor` logs what comes back, the pipe checks the body, the controller calls a
service, and what the service returns or throws is made a response, by the interceptor or by the
filter for all exceptions.

This is a front of the system of `Server`: it passes requests on that have come through the
interceptor and the pipe, and answers the others itself. The two routes that only read do not reach
that system at all. `http_simulated` is what it comes to: every run of the HTTP server is, behind the
front, a run of the services on the requests that were passed on.
-/

namespace PaymentService

open Async

/-! ## Values as they are sent -/

section Json

variable (format : LogFormat)

def jsOfDate (date : Date) : Js := .str (format.toISOString date)

def jsOfOptionalDate : Option Date → Js
  | none => .null
  | some date => jsOfDate format date

def TransactionLog.toJs (log : TransactionLog) : Js :=
  .obj
    [("id", .str log.id), ("status", .str log.status), ("channel", jsOfOption log.channel),
      ("eventKey", jsOfOption log.eventKey), ("createdAt", jsOfDate format log.createdAt),
      ("updatedAt", jsOfOptionalDate format log.updatedAt)]

/-- A transaction with the relation `transactionLogs`. -/
def TransactionStatus.toJs (row : TransactionStatus) (logs : List TransactionLog) : Js :=
  .obj
    [("id", .str row.id), ("paymentType", .str row.paymentType), ("amount", .num row.amount),
      ("currency", .str row.currency), ("source", jsOfOption row.source),
      ("description", jsOfOption row.description), ("userRefId", .str row.userRefId),
      ("provider", .str row.provider), ("providerRefId", jsOfOption row.providerRefId),
      ("productId", .str row.productId), ("status", .str row.status), ("metadata", row.metadata),
      ("createdAt", jsOfDate format row.createdAt),
      ("updatedAt", jsOfOptionalDate format row.updatedAt),
      ("transactionLogs", .arr (logs.map (TransactionLog.toJs format)))]

/-- What a query for one transaction has found. -/
def foundToJs : Option (TransactionStatus × List TransactionLog) → Js
  | none => .null
  | some (row, logs) => row.toJs format logs

def listToJs (found : List (TransactionStatus × List TransactionLog)) : Js :=
  .arr (found.map fun (row, logs) ↦ row.toJs format logs)

def PaymentChargeResponse.toJs (response : PaymentChargeResponse) : Js :=
  .obj
    [("status", .str response.status),
      ("details", .obj
        [("id", .str response.details.id), ("source", .str response.details.source),
          ("providerRefId", .str response.details.providerRefId),
          ("metadata", .obj
            [("image", response.details.metadata.image),
              ("authorizeUri", response.details.metadata.authorizeUri),
              ("returnUri", response.details.metadata.returnUri)]),
          ("transactionLogs", .arr (response.details.transactionLogs.map (TransactionLog.toJs format))),
          ("updated_at", jsOfDate format response.details.updated_at)])]

def Response.toJs : Response → Js
  | transaction id => .str id
  | charged response => response.toJs format
  | received => .obj [("received", .bool true)]

end Json

/-! ## The application -/

/-- The configuration, and the parts of the platform that the application passes through. -/
structure Application where
  env : Env
  pipe : Pipe
  toISOString : Date → String
  /-- How many rows a query passes over and how many it takes at most; the query is rejected when
  it cannot be told. -/
  skip : Js → Option ℕ
  take : Js → Option (Option ℕ)
  /-- The codes of the table are found under their decimal text. -/
  prints : ∀ code ∈ [(CODE_SUCCESS, "1000"), (CODE_BUSINESS_ERROR, "1899"),
    (CODE_TECHNICAL_ERROR, "1999")], env.printNumber code.1 = code.2

namespace Application

variable (app : Application)

def format : LogFormat := ⟨app.env.printNumber, app.toISOString⟩

end Application

/-- The routes of the two controllers. -/
inductive Route
  /-- `POST /payment/pay`. -/
  | createTransaction
  /-- `POST /payment/charge`. -/
  | charge
  /-- `GET /payment/check/:transactionId`. -/
  | getTransactionById (transactionId : String)
  /-- `GET /payment/user/transactions`, with its query. -/
  | getTransactionByUserRefId (offset limit : Js)
  /-- `POST /payment/callback/omise`. -/
  | handleOmiseCallBack

/-- A request for a route, and what the interceptors find on the way: the identifier that is
generated for it, the clock, and the logger when they are called. -/
structure Exchange where
  route : Route
  request : HttpRequest
  uuid : String
  startTime : Date
  logger : CustomLogger
  onNext : Moment
  onError : Moment
  /-- What a call is rejected with, as the logger sees it. -/
  rejection : Loggable

/-! ## Headers -/

def ACCEPT_LANGUAGE_HEADER : String := "accept-language"

def CORRELATION_ID_HEADER : String := "correlationid"

def USER_ID_HEADER : String := "userid"

/-- `request.headers[name] = value`. -/
def HttpRequest.setHeader (req : HttpRequest) (name value : String) : HttpRequest :=
  { req with
    headers :=
      if req.headers.any (·.1 = name) then
        req.headers.map fun old ↦ if old.1 = name then (name, .text value) else old
      else req.headers ++ [(name, .text value)]
    joined := by
      intro header hheader hcookie
      split at hheader
      · obtain ⟨old, hold, rfl⟩ := List.mem_map.mp hheader
        split
        · exact ⟨value, rfl⟩
        · next hne =>
          rw [if_neg hne] at hcookie
          exact req.joined old hold hcookie
      · rcases List.mem_append.mp hheader with hheader | hheader
        · exact req.joined header hheader hcookie
        · exact ⟨value, congrArg Prod.snd (List.mem_singleton.mp hheader)⟩ }

private theorem lookup_map_of_ne {headers : List (String × HeaderValue)} {name key : String}
    {value : HeaderValue} (h : key ≠ name) :
    (headers.map fun old ↦ if old.1 = name then (name, value) else old).lookup key =
      headers.lookup key := by
  induction headers with
  | nil => rfl
  | cons old headers ih =>
    rw [List.map_cons]
    split
    · next heq =>
      rw [List.lookup_cons, List.lookup_cons, beq_eq_false_iff_ne.mpr h, heq,
        beq_eq_false_iff_ne.mpr h]
      exact ih
    · rw [List.lookup_cons, List.lookup_cons, ih]

theorem HttpRequest.header_setHeader_of_ne (req : HttpRequest) {name key : String} (value : String)
    (h : key ≠ name) : (req.setHeader name value).header key = req.header key := by
  have hlookup : (req.setHeader name value).headers.lookup key = req.headers.lookup key := by
    rw [setHeader]
    split
    · exact lookup_map_of_ne h
    · rw [List.lookup_append, List.lookup_cons, beq_eq_false_iff_ne.mpr h, List.lookup_nil,
        Option.or_none]
  rw [header, header, hlookup]

namespace Exchange

variable (x : Exchange)

/-- The header `accept-language` as it was sent. -/
def acceptLanguage : Option String := x.request.header ACCEPT_LANGUAGE_HEADER

/-- The language of the responses, from the interceptor on. -/
def language : Option String := Stage.intercepted.header x.acceptLanguage

/-- The request as the interceptor passes it on. -/
def intercepted : HttpRequest :=
  let req := x.request.setHeader ACCEPT_LANGUAGE_HEADER
    (HttpHeaderInterceptor.intercept x.acceptLanguage).1
  if ((x.request.header CORRELATION_ID_HEADER).getD "") = "" then
    req.setHeader CORRELATION_ID_HEADER x.uuid
  else req

theorem header_intercepted {key : String} (hlanguage : key ≠ ACCEPT_LANGUAGE_HEADER)
    (hcorrelation : key ≠ CORRELATION_ID_HEADER) : x.intercepted.header key = x.request.header key := by
  unfold intercepted
  dsimp only
  split
  · rw [HttpRequest.header_setHeader_of_ne _ _ hcorrelation,
      HttpRequest.header_setHeader_of_ne _ _ hlanguage]
  · rw [HttpRequest.header_setHeader_of_ne _ _ hlanguage]

end Exchange

/-! ## The controllers -/

/-- What a controller does with a request: it throws, or it calls a service. -/
inductive Handling
  | throws (failure : HttpFailure)
  | request (q : Request)
  | findTransactionById (id : String)
  | findTransactionsByUserRefId (userRefId : String) (offset limit : Js)

namespace PaymentController

def charge (chargeDetails : PaymentChargeRequest) : Request :=
  .charge chargeDetails.txId chargeDetails.source

def getTransactionByUserRefId (userRefId : Option String) (offset limit : Js) : Handling :=
  match userRefId with
  | none => .throws (.thrown (.httpException "User Ref ID is undefined" 400))
  | some userRefId =>
    if userRefId = "" then .throws (.thrown (.httpException "User Ref ID is undefined" 400))
    else .findTransactionsByUserRefId userRefId offset limit

end PaymentController

/-- The headers that are texts. -/
def HttpRequest.textHeaders (req : HttpRequest) : Headers :=
  req.headers.filterMap fun (name, value) ↦
    match value with
    | .text value => some (name, value)
    | .texts _ => none

/-- The pipe, and the method of the controller on what comes out of it. -/
def Pipe.handle {α : Type} (pipe : Pipe) (decorators : Decorators) (ofBody : Js → Option α)
    (body : Js) (method : α → Request) : Handling :=
  match pipe.transform decorators ofBody body with
  | .error errors => .throws (.validation errors)
  | .ok instance_ => .request (method instance_)

def Route.handle (pipe : Pipe) (req : HttpRequest) : Route → Handling
  | createTransaction =>
    pipe.handle PaymentPayRequest.decorators PaymentPayRequest.ofBody req.body
      (PaymentController.createTransaction (req.header USER_ID_HEADER))
  | charge =>
    pipe.handle PaymentChargeRequest.decorators PaymentChargeRequest.ofBody req.body
      PaymentController.charge
  | getTransactionById transactionId => .findTransactionById transactionId
  | getTransactionByUserRefId offset limit =>
    PaymentController.getTransactionByUserRefId (req.header USER_ID_HEADER) offset limit
  | handleOmiseCallBack => .request (.omiseCallback req.body req.textHeaders)

/-! ## Responses -/

/-- What has been thrown at the end, and the responses that have been sent. -/
abbrev Answer : Type := Except LanguageError Unit × List Loggable

/-- What the interceptor makes of the value of the handler. -/
def HttpHeaderInterceptor.map (status data : Js) : Js :=
  if !data.truthy then .obj [("status", status), ("data", .null)]
  else if ((data.prop "status").prop "code").truthy then
    .obj [("status", data.prop "status"), ("data", data.prop "data")]
  else .obj [("status", status), ("data", data)]

/-- The exception that an observable fails with, when it was made of what the handler has come to. -/
def passOn (print : ℚ → String) (handled : Except HttpFailure Js) :
    Except Failure Js → Except Exception Js
  | .ok value => .ok value
  | .error .typeError => .error ((HttpFailure.thrown .typeError).exception print)
  | .error (.thrown _) => handled.mapError (·.exception print)

namespace Exchange

variable (app : Application) (x : Exchange)

/-- What leaves the logging interceptor: what the handler has come to, or what the language throws
when that is logged. -/
def logged (handled : Except HttpFailure Js) : Except Exception Js :=
  passOn app.env.printNumber handled <|
    ((LoggerInterceptor.intercept patterns app.format x.intercepted 200 x.startTime
      ⟨handled.mapError fun failure ↦ .thrown (failure.loggable app.env.printNumber x.rejection), []⟩
      x.logger).2 x.onNext x.onError).result

/-- The filter for all exceptions. -/
def caught (exception : Exception) : Answer :=
  outcome (AllExceptionsFilter.catch app.env.printNumber exception x.language)

/-- What the interceptor throws, or the status it has looked up. -/
def admitted : Except Exception Js :=
  match (HttpHeaderInterceptor.intercept x.acceptLanguage).2 with
  | some exception => .error exception
  | none =>
    match LookupUtil.getLookup app.env.printNumber (.num CODE_SUCCESS) x.language with
    | .ok status => .ok status
    | .error _ => .error ((HttpFailure.thrown .typeError).exception app.env.printNumber)

/-- The response to what the handler has come to. -/
def respond (status : Js) (handled : Except HttpFailure Js) : Answer :=
  match x.logged app handled with
  | .ok value => (.ok (), [.data (HttpHeaderInterceptor.map status value)])
  | .error exception => x.caught app exception

end Exchange

/-- What a handler has come to, of what a service has. -/
def handledOf {α : Type} (toJs : α → Js) : Except JsError α → Except HttpFailure Js
  | .ok a => .ok (toJs a)
  | .error e => .error (.thrown e)

/-! ## The server -/

/-- The calls that are awaited: those of the services, and the two queries of the other routes. -/
inductive HttpCall
  | service (c : Call)
  /-- `findOne({ where: { id }, relations })`. -/
  | statusFindOne (id : String)
  /-- `find({ where, skip, take, relations, order })`. -/
  | statusFind (userRefId : String) (skip take : Js)

abbrev HttpCall.Reply : HttpCall → Type
  | service c => c.Reply
  | statusFindOne _ => Option (TransactionStatus × List TransactionLog)
  | statusFind _ _ _ => List (TransactionStatus × List TransactionLog)

/-- What the outside decides about one call; among the transactions of a page that have the same time,
it also decides which come first. -/
structure HttpChoice extends Choice where
  tie : String → ℕ := fun _ ↦ 0

section Server

variable (app : Application)

def httpPerform : Async.Handler HttpCall HttpCall.Reply JsError World HttpChoice := fun w c o ↦
  match c with
  | .service c => perform app.env w c o.toChoice
  | .statusFindOne id =>
    -- A text that stands for no identifier is no value for the column to be compared with.
    if o.fails ∨ Sql.Uuid.read id = none then (.error .rejected, w)
    else (.ok (PaymentService.findTransactionById w.db id), w)
  | .statusFind userRefId skip take =>
    match app.skip skip, app.take take with
    | some offset, some limit =>
      if o.fails ∨ ¬Sql.NoNul userRefId then (.error .rejected, w)
      else (.ok (findTransactionsByUserRefId w.db o.tie userRefId offset (limit.getD 0)), w)
    | _, _ => (.error .rejected, w)

/-- A parameter with a default. -/
def orDefault (value : Js) (default : ℚ) : Js := if value.isDefined then value else .num default

/-- The program of a request that the interceptor has let pass. -/
def handlingProgram (x : Exchange) (status : Js) : Handling → Async HttpCall HttpCall.Reply JsError Answer
  | .throws failure => done (x.respond app status (.error failure))
  | .request q =>
    answered HttpCall.service
      (fun r ↦ x.respond app status (handledOf (Response.toJs app.format) r)) (program app.env q)
  | .findTransactionById id =>
    await (.statusFindOne id) fun r ↦ done (x.respond app status (handledOf (foundToJs app.format) r))
  | .findTransactionsByUserRefId userRefId offset limit =>
    await (.statusFind userRefId (orDefault offset 0) (orDefault limit 10)) fun r ↦
      done (x.respond app status (handledOf (listToJs app.format) r))

def httpProgram (x : Exchange) : Async HttpCall HttpCall.Reply JsError Answer :=
  match x.admitted app with
  | .error exception => done (x.caught app exception)
  | .ok status => handlingProgram app x status (x.route.handle app.pipe x.intercepted)

def http : System HttpCall HttpCall.Reply JsError Answer World HttpChoice Exchange Move where
  handler := httpPerform app
  program := httpProgram app
  background := Move.apply

/-! ## The front -/

namespace Exchange

variable (x : Exchange)

/-- The request that is passed on to the services. -/
def toRequest : Option Request :=
  match x.admitted app, x.route.handle app.pipe x.intercepted with
  | .ok _, .request q => some q
  | _, _ => none

/-- The response to what the services have come to. -/
def answer (result : Except JsError Response) : Answer :=
  match x.admitted app with
  | .ok status => x.respond app status (handledOf (Response.toJs app.format) result)
  | .error exception => x.caught app exception

variable {app x}

theorem toRequest_eq_some_iff {q : Request} :
    x.toRequest app = some q ↔
      (∃ status, x.admitted app = .ok status) ∧ x.route.handle app.pipe x.intercepted = .request q := by
  unfold toRequest
  split
  · next status q' hstatus hhandle => simp [hstatus, hhandle]
  · next hnot =>
    refine iff_of_false (by simp) ?_
    rintro ⟨⟨status, hstatus⟩, hhandle⟩
    exact hnot status q hstatus hhandle

/-- A request that is passed on runs the program of the services, and what comes of that is
answered. -/
theorem httpProgram_of_passed {q : Request} (h : x.toRequest app = some q) :
    httpProgram app x = answered HttpCall.service (x.answer app) (program app.env q) := by
  obtain ⟨⟨status, hstatus⟩, hhandle⟩ := toRequest_eq_some_iff.mp h
  have hanswer : x.answer app =
      fun r ↦ x.respond app status (handledOf (Response.toJs app.format) r) := by
    funext r
    rw [answer, hstatus]
  rw [httpProgram, hstatus, hhandle, hanswer]
  rfl

/-- The others only read. -/
theorem always_keeps_of_not_passed (h : x.toRequest app = none) :
    Always (fun d ↦ ∀ w o, (httpPerform app w d o).2 = w) (httpProgram app x) := by
  unfold httpProgram
  split
  · trivial
  · next status hstatus =>
    match hhandle : x.route.handle app.pipe x.intercepted with
    | .throws failure => trivial
    | .request q =>
      rw [toRequest_eq_some_iff.mpr ⟨⟨status, hstatus⟩, hhandle⟩] at h
      cases h
    | .findTransactionById id =>
      refine ⟨fun w o ↦ ?_, fun r _ ↦ trivial⟩
      simp only [httpPerform]
      split <;> rfl
    | .findTransactionsByUserRefId userRefId offset limit =>
      refine ⟨fun w o ↦ ?_, fun r _ ↦ trivial⟩
      simp only [httpPerform]
      split
      · split <;> rfl
      · rfl

end Exchange

def front : Front (T := HttpCall.Reply) (f := HttpCall.service) (system app.env) (http app) where
  forward x := x.toRequest app
  respond x := x.answer app
  choice := HttpChoice.toChoice
  handler _ _ _ := rfl
  background _ _ := rfl
  passed _ _ := Exchange.httpProgram_of_passed
  kept _ := Exchange.always_keeps_of_not_passed

end Server

/-! ## In every run -/

/-- A state of the HTTP server. -/
abbrev HttpServer : Type := Pool HttpCall HttpCall.Reply JsError Answer World Exchange

abbrev HttpStep : Type := Action HttpChoice Exchange Move

abbrev HttpEvent : Type := Occurrence HttpCall HttpCall.Reply JsError Exchange

abbrev HttpServer.start (w : World) : HttpServer := ⟨w, []⟩

/-- The call of the services is the one that was made for the request, and its task is the one in the
place of the request among those that are passed on. -/
def HttpEvent.Performs (app : Application) (arrived : List Exchange) (e : HttpEvent) (e' : Event) :
    Prop :=
  e'.task = (arrived.take e.task).countP (fun x ↦ (x.toRequest app).isSome) ∧
    e.request.toRequest app = some e'.request ∧
    e = ⟨e.task, e.request, .service e'.call, e'.reply⟩

/-- Every run of the HTTP server is a run of the services behind it, which receives the requests that
are passed on and performs the calls that are made for them in the same order, and leaves the same
state. -/
theorem http_simulated (app : Application) (w : World) (as : List HttpStep) :
    ∃ bs : List Step,
      ((system app.env).run (Server.start w) bs).world =
          ((http app).run (HttpServer.start w) as).world ∧
        System.arrivals bs = (System.arrivals as).filterMap (·.toRequest app) ∧
        List.Forall₂ (HttpEvent.Performs app (System.arrivals as))
          (((http app).trace (HttpServer.start w) as).filter fun e ↦
            (e.request.toRequest app).isSome)
          ((system app.env).trace (Server.start w) bs) := by
  obtain ⟨bs, hsimulated, harrivals, htrace⟩ := (front app).simulates w as
  refine ⟨bs, hsimulated.1, harrivals, htrace.imp fun e e' h ↦ ?_⟩
  obtain ⟨-, htask, hpassed, heq⟩ := h
  exact ⟨htask, hpassed, heq⟩

/-! ## A shop behind HTTP -/

namespace Shop

/-- It lists the properties that are not as they should be. -/
def pipe : Pipe where
  validate decorators body :=
    (decorators.filter fun property ↦ !conforms property.2 (body.prop property.1)).map
      fun property ↦
        { target := body, value := body.prop property.1, property := property.1, constraints := [] }
  valid_iff decorators body := by simp [Decorators.Conforms, List.filter_eq_nil_iff]

def number? : Js → Option ℕ
  | .num q => some q.num.toNat
  | _ => none

def application : Application where
  env := platform
  pipe := pipe
  toISOString := toString
  skip := number?
  take limit := some (number? limit)
  prints := by decide +kernel

def httpChoice (id : String) : HttpChoice := { choice id with }

/-- The buyer orders the package. -/
def order : Exchange where
  route := .createTransaction
  request :=
    { method := "POST"
      url := "/payment/pay"
      hostname := none
      path := "/payment/pay"
      headers := [(USER_ID_HEADER, .text "buyer")]
      body := .obj [("productId", .num 7), ("paymentType", .str PaymentTypeEnum.qr.value)]
      remoteAddress := none
      joined := by simp }
  uuid := "order"
  startTime := 0
  logger := {}
  onNext := ⟨0, 0, {}⟩
  onError := ⟨0, 0, {}⟩
  rejection := .object []

/-- The same in a language that is not supported. -/
def foreign : Exchange :=
  { order with request := order.request.setHeader ACCEPT_LANGUAGE_HEADER "fr" }

end Shop

end PaymentService
