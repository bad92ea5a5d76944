import PaymentService.Logger.Masking
import PaymentService.Services.PaymentSteps

/-!
# The logging interceptor

`LoggerInterceptor.intercept` logs a request in the pipe that carries its response: in `tap` when the
handler has emitted a value, and in `catchError` when it has failed. What the logger throws there
takes the place of the response. So the client gets what the handler made exactly when the request
could be logged.
-/

namespace PaymentService

/-! ## Observables -/

/-- An observable that emits one value or fails, with the lines that are printed on the way. -/
structure Emission (α : Type) where
  result : Except Failure α
  lines : List String := []

namespace Emission

variable {α : Type}

/-- Run a callback before an observable, which goes on unless the callback throws. -/
def after (callback : Emission Unit) (source : Emission α) : Emission α :=
  match callback.result with
  | .ok () => ⟨source.result, callback.lines ++ source.lines⟩
  | .error e => ⟨.error e, callback.lines⟩

/-- Call a function with the value that is emitted. -/
def tap (f : α → Emission Unit) (source : Emission α) : Emission α :=
  match source.result with
  | .ok value => ⟨(after (f value) ⟨.ok value, []⟩).result, source.lines ++ (f value).lines⟩
  | .error e => ⟨.error e, source.lines⟩

/-- Go on with another observable when this one fails. -/
def catchError (selector : Failure → Emission α) (source : Emission α) : Emission α :=
  match source.result with
  | .ok value => ⟨.ok value, source.lines⟩
  | .error e => ⟨(selector e).result, source.lines ++ (selector e).lines⟩

end Emission

/-! ## The interceptor -/

inductive HeaderValue
  | text (value : String)
  | texts (values : List String)

def HeaderValue.toJs : HeaderValue → Js
  | text value => .str value
  | texts values => .arr (values.map .str)

/-- A request as it arrives. Of a header that is sent more than once the values are joined to one
text, but for `set-cookie`, of which they are listed. -/
structure HttpRequest where
  method : String
  url : String
  hostname : Option String
  path : String
  headers : List (String × HeaderValue)
  body : Js
  remoteAddress : Option String
  joined : ∀ header ∈ headers, header.1 ≠ "set-cookie" → ∃ value, header.2 = .text value

/-- `req.headers[name]`, of a header other than `set-cookie`. -/
def HttpRequest.header (req : HttpRequest) (name : String) : Option String :=
  match req.headers.lookup name with
  | some (.text value) => some value
  | _ => none

/-- `value || '-'`. -/
def orDash (value : String) : String := if value = "" then "-" else value

def createLogAppRequest (req : HttpRequest) (statusCode : ℕ) (respBody : Loggable) :
    LogRequest where
  method := orDash req.method
  uri := orDash req.path
  rawUri := orDash (req.hostname.getD "undefined" ++ req.path)
  reqHeader := .data (.obj (req.headers.map fun (name, value) ↦ (name, value.toJs)))
  reqBody := (Loggable.data req.body).orEmpty
  respStatus := statusCode
  respBody := respBody.orEmpty

/-- What is thrown, as the logger sees it; an error of the language has no properties of its own. -/
def Failure.loggable : Failure → Loggable
  | thrown e => e
  | typeError => .object []

/-- What a callback finds when it is called: the clock, read twice, and the logger, which is the same
for all requests. -/
structure Moment where
  now : Date
  timestamp : Date
  logger : CustomLogger

namespace LoggerInterceptor

variable (registered : List PatternReplaceLog) (format : LogFormat)

/-- `this.logger.request(createLogAppRequest(…), execTime)`. -/
def log (req : HttpRequest) (statusCode : ℕ) (startTime : Date) (respBody : Loggable)
    (moment : Moment) : Emission Unit :=
  match CustomLogger.request registered format moment.logger
    (createLogAppRequest req statusCode respBody) ((moment.now : ℤ) - startTime)
    moment.timestamp with
  | .ok line => ⟨.ok (), [line]⟩
  | .error e => ⟨.error e, []⟩

/-- The logger after the request has arrived, and the observable of its response, given when its two
callbacks are called. -/
def intercept (req : HttpRequest) (statusCode : ℕ) (startTime : Date) (next : Emission Js)
    (logger : CustomLogger) : CustomLogger × (Moment → Moment → Emission Js) :=
  ({ logger with
      userId := orDash ((req.header "preferredUsername").getD "")
      traceId := orDash ((req.header "trace-id").getD "")
      ipAddress := req.remoteAddress
      appName := req.header "x-app-id" },
    fun onNext onError ↦
      (next.tap fun resBody ↦
          if Js.includes req.url "health" then ⟨.ok (), []⟩
          else log registered format req statusCode startTime (.data resBody) onNext).catchError
        fun err ↦
          (log registered format req statusCode startTime err.loggable onError).after
            ⟨.error err, []⟩)

end LoggerInterceptor

/-! ## When the response is left alone -/

theorem Loggable.harmless_orEmpty {v : Loggable} : v.orEmpty.Harmless ↔ v.Harmless := by
  rw [Harmless, Harmless, v.properties_orEmpty]

theorem Loggable.harmless_obj_iff {fields : List (String × Js)} :
    (data (.obj fields)).Harmless ↔
      ∀ field ∈ fields, isCidKey field.1 = true → ∃ cid, field.2 = .str cid := by
  constructor
  · intro h field hfield hcid
    obtain ⟨cid, heq⟩ := (h (field.1, .data field.2) (List.mem_map_of_mem hfield)).1 hcid
    exact ⟨cid, Property.data.inj heq⟩
  · intro h property hproperty
    obtain ⟨field, hfield, rfl⟩ := List.mem_map.mp hproperty
    refine ⟨fun hcid ↦ ?_, fun hcyclic ↦ by cases hcyclic⟩
    obtain ⟨cid, heq⟩ := h field hfield hcid
    exact ⟨cid, congrArg Property.data heq⟩

namespace LoggerInterceptor

variable {format : LogFormat} {req : HttpRequest} {statusCode : ℕ} {startTime : Date}

theorem log_cases (respBody : Loggable) (moment : Moment) :
    ((Loggable.data req.body).Harmless ∧ respBody.Harmless ∧
        (log patterns format req statusCode startTime respBody moment).result = .ok ()) ∨
      (¬((Loggable.data req.body).Harmless ∧ respBody.Harmless) ∧
        (log patterns format req statusCode startTime respBody moment).result =
          .error .typeError) := by
  have hheader : (createLogAppRequest req statusCode respBody).reqHeader.Harmless := by
    refine Loggable.harmless_obj_iff.mpr fun field hfield hcid ↦ ?_
    obtain ⟨header, hheader, rfl⟩ := List.mem_map.mp hfield
    have hname : header.1 ≠ "set-cookie" := by
      intro h
      rw [h] at hcid
      exact absurd hcid (by decide)
    obtain ⟨value, hvalue⟩ := req.joined header hheader hname
    exact ⟨value, congrArg HeaderValue.toJs hvalue⟩
  have hbody : (createLogAppRequest req statusCode respBody).reqBody.Harmless ↔
      (Loggable.data req.body).Harmless := Loggable.harmless_orEmpty (v := .data req.body)
  have hresp : (createLogAppRequest req statusCode respBody).respBody.Harmless ↔
      respBody.Harmless := Loggable.harmless_orEmpty
  rcases CustomLogger.request_cases format moment.logger (moment.now - startTime) moment.timestamp
    hheader with ⟨hb, hr, line, hline⟩ | ⟨hnot, herror⟩
  · refine Or.inl ⟨hbody.mp hb, hresp.mp hr, ?_⟩
    rw [log, hline]
  · refine Or.inr ⟨fun h ↦ hnot ⟨hbody.mpr h.1, hresp.mpr h.2⟩, ?_⟩
    rw [log, herror]

/-- The request can be logged with this outcome, or its success is not logged. -/
def Unobtrusive (req : HttpRequest) : Except Loggable Js → Prop
  | .ok value => Js.includes req.url "health" = true ∨
      (Loggable.data req.body).Harmless ∧ (Loggable.data value).Harmless
  | .error e => (Loggable.data req.body).Harmless ∧ e.Harmless

section Intercept

variable {lines : List String} {logger : CustomLogger} {onNext onError : Moment}

theorem intercept_of_error (e : Failure) :
    ((intercept patterns format req statusCode startTime ⟨.error e, lines⟩ logger).2 onNext
      onError).result =
        ((log patterns format req statusCode startTime e.loggable onError).after
          (⟨.error e, []⟩ : Emission Js)).result := rfl

theorem intercept_of_health {value : Js} (h : Js.includes req.url "health" = true) :
    ((intercept patterns format req statusCode startTime ⟨.ok value, lines⟩ logger).2 onNext
      onError).result = .ok value := by
  simp only [intercept, Emission.tap, h, if_true]
  rfl

theorem intercept_of_value {value : Js} (h : Js.includes req.url "health" = false) :
    ((intercept patterns format req statusCode startTime ⟨.ok value, lines⟩ logger).2 onNext
      onError).result =
        match (log patterns format req statusCode startTime (.data value) onNext).result with
        | .ok () => .ok value
        | .error e => ((log patterns format req statusCode startTime e.loggable onError).after
            (⟨.error e, []⟩ : Emission Js)).result := by
  simp only [intercept, Emission.tap, h, Bool.false_eq_true, if_false, Emission.after]
  rcases (log patterns format req statusCode startTime (.data value) onNext).result with e | _
  · rfl
  · rfl

/-- A failure of the language that is caught to be logged is passed on, whether or not that
throws. -/
theorem after_typeError (respBody : Loggable) (moment : Moment) :
    ((log patterns format req statusCode startTime respBody moment).after
      (⟨.error .typeError, []⟩ : Emission Js)).result = .error .typeError := by
  rcases log_cases respBody moment with ⟨-, -, hlog⟩ | ⟨-, hlog⟩
  · rw [Emission.after, hlog]
  · rw [Emission.after, hlog]

end Intercept

/-- The response is what the handler has made, the value or the error, exactly when the request can
be logged with it. -/
theorem transparent_iff (format : LogFormat) (req : HttpRequest) (statusCode : ℕ) (startTime : Date)
    (outcome : Except Loggable Js) (lines : List String) (logger : CustomLogger)
    (onNext onError : Moment) :
    ((intercept patterns format req statusCode startTime ⟨outcome.mapError .thrown, lines⟩
        logger).2 onNext onError).result = outcome.mapError .thrown ↔ Unobtrusive req outcome := by
  rcases outcome with e | value
  · rw [Except.mapError, intercept_of_error]
    rcases log_cases (Failure.thrown e).loggable onError with ⟨hbody, he, hlog⟩ | ⟨hnot, hlog⟩
    · rw [Emission.after, hlog]
      exact iff_of_true rfl ⟨hbody, he⟩
    · rw [Emission.after, hlog]
      exact iff_of_false (fun h ↦ by cases h) hnot
  · rw [Except.mapError]
    rcases hhealth : Js.includes req.url "health" with _ | _
    · rw [intercept_of_value hhealth]
      rcases log_cases (.data value) onNext with ⟨hbody, hvalue, hlog⟩ | ⟨hnot, hlog⟩
      · rw [hlog]
        exact iff_of_true rfl (Or.inr ⟨hbody, hvalue⟩)
      · rw [hlog]
        -- The exception of the first attempt to log is itself logged, with the same body.
        refine iff_of_false (fun h ↦ ?_) fun h ↦ h.elim (fun h ↦ ?_) hnot
        · replace h : ((log patterns format req statusCode startTime Failure.typeError.loggable
              onError).after (⟨.error .typeError, []⟩ : Emission Js)).result = .ok value := h
          rw [after_typeError] at h
          cases h
        · rw [hhealth] at h
          cases h
    · rw [intercept_of_health hhealth]
      exact iff_of_true rfl (Or.inl hhealth)

end LoggerInterceptor

/-! ## A purchase that is reported as failed -/

namespace Shop

/-- A purchase as it arrives, with a number under `cid`. -/
def orderRequest : HttpRequest where
  method := "POST"
  url := "/payment/pay"
  hostname := some "shop.test"
  path := "/payment/pay"
  headers := [("x-user-id", .text "buyer")]
  body := .obj [("productId", .num 7), ("paymentType", .str PaymentTypeEnum.qr.value),
    ("cid", .num 5)]
  remoteAddress := some "10.0.0.1"
  joined header hheader _ := ⟨"buyer", by rw [List.mem_singleton.mp hheader]⟩

def logFormat : LogFormat where
  number q := toString q.num
  toISOString _ := "2024-01-01T00:00:00.000Z"

end Shop

/-- The order is stored, and the response to the buyer is an error. -/
theorem stored_order_reported_as_failed :
    ∃ id, (serve Shop.platform (.pay (some "buyer") 7 PaymentTypeEnum.qr.value)
          (fun n ↦ Shop.choice ("order" ++ toString n)) World.empty).1 = .ok (.transaction id) ∧
      ((serve Shop.platform (.pay (some "buyer") 7 PaymentTypeEnum.qr.value)
          (fun n ↦ Shop.choice ("order" ++ toString n)) World.empty).2.db.row? id).isSome = true ∧
      ((LoggerInterceptor.intercept patterns Shop.logFormat Shop.orderRequest 200 0 ⟨.ok (.str id), []⟩
          {}).2 ⟨1, 1, {}⟩ ⟨1, 1, {}⟩).result = .error .typeError := by
  have hok : (serve Shop.platform (.pay (some "buyer") 7 PaymentTypeEnum.qr.value)
      (fun n ↦ Shop.choice ("order" ++ toString n)) World.empty).1.isOk = true := by decide +kernel
  rw [serve_pay] at hok ⊢
  rcases run_createPaymentTransaction Shop.platform (some "buyer") 7 PaymentTypeEnum.qr.value
    (fun n ↦ Shop.choice ("order" ++ toString n)) World.empty with
    ⟨e, hrun⟩ | ⟨tokenPackage, now, saved, db, hsave, hrun⟩
  · rw [hrun] at hok
    cases hok
  · rw [hrun]
    obtain ⟨row, -, hrow⟩ := Db.row?_save_new (saveOutcome_eq_some.mp hsave).2 rfl
    exact ⟨saved.id, rfl, by rw [hrow]; rfl, rfl⟩

end PaymentService
