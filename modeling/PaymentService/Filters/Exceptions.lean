import PaymentService.Js.Number
import PaymentService.Logger.Service

/-!
# The filter for all exceptions

`AllExceptionsFilter.catch` turns what was thrown into a response. Its status comes from a table that
is indexed by the language of the request, and the language is a header. After the interceptor
`HttpHeaderInterceptor` the header is one of the two languages of the table, but a guard runs before
the interceptor, and what a guard throws meets the header as it was sent.

A throw in the filter itself is caught by nobody. When it throws is `catch_responds_iff`.
-/

namespace PaymentService

/-- What the language throws in the filter. -/
inductive LanguageError
  | typeError
  /-- By `JSON.parse`. -/
  | syntaxError
  deriving DecidableEq

variable (print : ℚ → String)

/-! ## The table of statuses -/

def CODE_SUCCESS : ℚ := 1000

def CODE_BUSINESS_ERROR : ℚ := 1899

def CODE_TECHNICAL_ERROR : ℚ := 1999

def DEFAULT_ACCEPT_LANGUAGE : String := "TH"

def ACCEPT_LANGUAGE_LIST : List String := ["EN", "TH"]

def responseStatus (code : Js) (header description : Js) : Js :=
  .obj [("code", code), ("header", header), ("description", description)]

/-- `generic.response.status.json`. -/
def genericResponseStatus : List (String × List (String × Js)) :=
  [("en",
      [("1000", responseStatus (.num 1000) (.str "") (.str "Success")),
        ("1899", responseStatus (.num 1899) (.str "Unable to proceed")
          (.str "We cannot process your request at the moment. Please try again later.")),
        ("1999", responseStatus (.num 1999) (.str "Unable to proceed")
          (.str "We cannot process your request at this moment."))]),
    ("th",
      [("1000", responseStatus (.num 1000) (.str "") (.str "สำเร็จ")),
        ("1899", responseStatus (.num 1899) (.str "ไม่สามารถดำเนินการต่อได้")
          (.str "ไม่สามารถทำรายการได้ในขณะนี้ กรุณาลองใหม่อีกครั้ง")),
        ("1999", responseStatus (.num 1999) (.str "ไม่สามารถดำเนินการต่อได้")
          (.str "ไม่สามารถทำรายการได้ในขณะนี้"))])]

/-- The property of the table under a text in lower case. Every object inherits two of those, and
neither has a property that is a status code. -/
def statusesOf (language : String) : Option (List (String × Js)) :=
  match genericResponseStatus.lookup language with
  | some statuses => some statuses
  | none => if language ∈ ["constructor", "__proto__"] then some [] else none

namespace LookupUtil

/-- `if (!language) language = DEFAULT_ACCEPT_LANGUAGE`. -/
def orDefault : Option String → String
  | none => DEFAULT_ACCEPT_LANGUAGE
  | some language => if language = "" then DEFAULT_ACCEPT_LANGUAGE else language

/-- Only the letters from `A` to `Z` are lowered; no other character becomes one of a language. -/
def toLocaleLowerCase (language : String) : String := String.ofList (lowerKey language)

def read (statusCode : Js) (language : Option String) : Except LanguageError Js :=
  match statusesOf (toLocaleLowerCase (orDefault language)), statusCode.text print with
  | some statuses, some key => .ok ((statuses.lookup key).getD .undefined)
  | _, _ => .error .typeError

def getLookup (statusCode : Js) (language : Option String) : Except LanguageError Js := do
  let responseStatus ← read print statusCode language
  if responseStatus.truthy then .ok responseStatus
  else .ok (PaymentService.responseStatus statusCode .null .null)

end LookupUtil

/-! ## Exceptions -/

/-- What is thrown that is no `HttpException`. -/
inductive Thrown
  | value (v : Js)
  /-- An object of the running program, such as an error, by its text; an object without a prototype
  has none. -/
  | object (text : Option String)
  | symbol

/-- What is caught. -/
inductive Exception
  /-- A `ValidationException`, with its own enumerable properties. -/
  | validation (exception : Loggable)
  | http (status : ℚ) (response : Loggable)
  | other (thrown : Thrown)

/-- The text in a template literal. -/
def Thrown.text : Thrown → Option String
  | value v => v.text print
  | object text => text
  | symbol => none

/-- The data of a value that `JSON.stringify` writes. -/
def Loggable.json (v : Loggable) : Except LanguageError Js :=
  match v.write with
  | .ok written => .ok written
  | .error _ => .error .typeError

/-- `JSON.parse(JSON.stringify(v))`; `undefined` has no text that could be parsed. -/
def Loggable.reparse (v : Loggable) : Except LanguageError Js := do
  let written ← v.json
  if written.isDefined then .ok written.copy else .error .syntaxError

/-- A property, and the exception of the language when there is nothing to have one. -/
def getProperty (v : Js) (key : String) : Except LanguageError Js :=
  match v.get? key with
  | some value => .ok value
  | none => .error .typeError

/-! ## The interceptor -/

/-- The header `accept-language` when the interceptor has passed, and what it has thrown. -/
def HttpHeaderInterceptor.intercept (acceptLanguage : Option String) : String × Option Exception :=
  match acceptLanguage with
  | none => (DEFAULT_ACCEPT_LANGUAGE, none)
  | some language =>
    let upper := String.ofList (language.toList.map Char.toUpper)
    if language = "" then (DEFAULT_ACCEPT_LANGUAGE, none)
    else if upper ∈ ACCEPT_LANGUAGE_LIST then (upper, none)
    else (DEFAULT_ACCEPT_LANGUAGE,
      some (.http 200 (.data (.obj [("status", .num CODE_BUSINESS_ERROR)]))))

/-- When an exception is thrown, seen from the interceptor. -/
inductive Stage
  /-- By a guard, before the interceptor. -/
  | guard
  /-- By the interceptor or after it. -/
  | intercepted

/-- The header at that time. -/
def Stage.header (acceptLanguage : Option String) : Stage → Option String
  | guard => acceptLanguage
  | intercepted => some (HttpHeaderInterceptor.intercept acceptLanguage).1

/-! ## The filter -/

/-- A function that sends responses and may throw. -/
abbrev Responding : Type → Type := ExceptT LanguageError (StateM (List Loggable))

/-- `response.status(HttpStatus.OK).send(body)`. -/
def send (body : Loggable) : Responding Unit := modify (· ++ [body])

def attempt {α : Type} : Except LanguageError α → Responding α
  | .ok a => pure a
  | .error e => throw e

namespace AllExceptionsFilter

/-- The status of a response of 200. -/
def givenStatus (exceptionResponse : Js) (acceptLanguage : Option String) :
    Except LanguageError Js := do
  let status ← getProperty exceptionResponse "status"
  match status.isNaN print with
  | none => .error .typeError
  | some true => .ok (.obj status.spread)
  | some false => LookupUtil.getLookup print status acceptLanguage

/-- `exceptionResponse.data ? exceptionResponse.data : null`. -/
def dataOf (exceptionResponse : Js) : Except LanguageError Js := do
  let data ← getProperty exceptionResponse "data"
  .ok (if data.truthy then data else .null)

def errorData (status data : Js) : Loggable := .data (.obj [("status", status), ("data", data)])

/-- Respond with a status and with the data that the exception carries. -/
def respond (status : Except LanguageError Js) (exceptionResponse : Js) : Responding Unit := do
  let status ← attempt status
  let data ← attempt (dataOf exceptionResponse)
  send (errorData status data)

/-- The response to an `HttpException`. -/
def catchHttp (status : ℚ) (response : Loggable) (acceptLanguage : Option String) :
    Responding Unit := do
  let exceptionResponse ← attempt response.reparse
  if status = 200 then respond (givenStatus print exceptionResponse acceptLanguage) exceptionResponse
  else if status = 404 then send response
  else
    respond (LookupUtil.getLookup print (.num CODE_TECHNICAL_ERROR) acceptLanguage)
      exceptionResponse

end AllExceptionsFilter

def AllExceptionsFilter.catch (exception : Exception) (acceptLanguage : Option String) :
    Responding Unit :=
  match exception with
  | .validation exception => do
    let _ ← attempt exception.json
    let status ← attempt (LookupUtil.getLookup print (.num CODE_BUSINESS_ERROR) acceptLanguage)
    send (AllExceptionsFilter.errorData status .null)
  | .http status response => AllExceptionsFilter.catchHttp print status response acceptLanguage
  | .other thrown => do
    let _ ← attempt (if (thrown.text print).isSome then .ok () else .error .typeError)
    let status ← attempt (LookupUtil.getLookup print (.num CODE_TECHNICAL_ERROR) acceptLanguage)
    send (AllExceptionsFilter.errorData status .null)

/-! ## Outcomes -/

/-- What has been thrown, if anything, and the responses that have been sent. -/
def outcome (f : Responding Unit) : Except LanguageError Unit × List Loggable := (f.run.run []).run

/-- The function does not throw and sends one response. -/
def Responds (f : Responding Unit) : Prop := ∃ body, outcome f = (.ok (), [body])

/-- The function throws and sends nothing. -/
def Throws (f : Responding Unit) : Prop := ∃ e, outcome f = (.error e, [])

theorem Throws.not_responds {f : Responding Unit} (h : Throws f) : ¬Responds f := by
  rintro ⟨body, hbody⟩
  obtain ⟨e, he⟩ := h
  rw [hbody] at he
  cases he

theorem responds_send (body : Loggable) : Responds (send body) := ⟨body, rfl⟩

theorem responds_attempt_bind {α : Type} {x : Except LanguageError α} {f : α → Responding Unit}
    {a : α} (hx : x = .ok a) (h : Responds (f a)) : Responds (attempt x >>= f) := by
  rw [hx]
  exact h

theorem throws_attempt_bind {α : Type} {x : Except LanguageError α} {f : α → Responding Unit}
    {a : α} (hx : x = .ok a) (h : Throws (f a)) : Throws (attempt x >>= f) := by
  rw [hx]
  exact h

theorem throws_of_error {α : Type} {x : Except LanguageError α} {f : α → Responding Unit}
    {e : LanguageError} (hx : x = .error e) : Throws (attempt x >>= f) := by
  rw [hx]
  exact ⟨e, rfl⟩

theorem throws_of_not_ok {α : Type} {x : Except LanguageError α} {f : α → Responding Unit}
    (hx : ¬∃ a, x = .ok a) : Throws (attempt x >>= f) := by
  cases x with
  | error e => exact throws_of_error rfl
  | ok a => exact absurd ⟨a, rfl⟩ hx

/-! ## When a status is found -/

/-- The table has statuses for the language, or the default is used. -/
def KnownLanguage (acceptLanguage : Option String) : Prop :=
  ∀ language, acceptLanguage = some language → language = "" ∨
    LookupUtil.toLocaleLowerCase language ∈ ["en", "th", "constructor", "__proto__"]

theorem statusesOf_isSome {language : String} :
    (statusesOf language).isSome = true ↔
      language ∈ ["en", "th", "constructor", "__proto__"] := by
  unfold statusesOf
  by_cases hen : language = "en"
  · subst hen
    decide
  by_cases hth : language = "th"
  · subst hth
    decide
  have hnone : genericResponseStatus.lookup language = none := by
    simp [genericResponseStatus, List.lookup_cons, beq_eq_false_iff_ne.mpr hen,
      beq_eq_false_iff_ne.mpr hth]
  rw [hnone]
  simp [hen, hth]

theorem knownLanguage_iff {acceptLanguage : Option String} :
    KnownLanguage acceptLanguage ↔
      (statusesOf (LookupUtil.toLocaleLowerCase
        (LookupUtil.orDefault acceptLanguage))).isSome = true := by
  have hdefault : LookupUtil.toLocaleLowerCase DEFAULT_ACCEPT_LANGUAGE = "th" := by decide
  rcases acceptLanguage with _ | language
  · refine iff_of_true (fun _ h ↦ by cases h) ?_
    rw [LookupUtil.orDefault, hdefault]
    decide
  · rw [LookupUtil.orDefault, statusesOf_isSome]
    split
    · next hempty =>
      refine iff_of_true (fun _ h ↦ Or.inl (Option.some_inj.mp h ▸ hempty)) ?_
      rw [hdefault]
      decide
    · next hne =>
      constructor
      · exact fun h ↦ (h language rfl).resolve_left hne
      · exact fun h _ heq ↦ Or.inr (Option.some_inj.mp heq ▸ h)

theorem knownLanguage_intercepted (acceptLanguage : Option String) :
    KnownLanguage (Stage.intercepted.header acceptLanguage) := by
  have hheader : (HttpHeaderInterceptor.intercept acceptLanguage).1 ∈ ACCEPT_LANGUAGE_LIST := by
    rcases acceptLanguage with _ | language
    · decide
    · rw [HttpHeaderInterceptor.intercept]
      split
      · decide
      · split
        · next hmem => exact hmem
        · decide
  intro language hlanguage
  obtain rfl := Option.some_inj.mp hlanguage
  right
  rcases List.mem_cons.mp hheader with h | h
  · rw [h]
    decide
  · rw [List.mem_singleton.mp h]
    decide

theorem getLookup_of_known {statusCode : Js} {acceptLanguage : Option String}
    (hcode : (statusCode.text print).isSome = true) (h : KnownLanguage acceptLanguage) :
    ∃ status, LookupUtil.getLookup print statusCode acceptLanguage = .ok status := by
  obtain ⟨statuses, hstatuses⟩ := Option.isSome_iff_exists.mp (knownLanguage_iff.mp h)
  obtain ⟨key, hkey⟩ := Option.isSome_iff_exists.mp hcode
  simp only [LookupUtil.getLookup, LookupUtil.read, hstatuses, hkey, bind, Except.bind]
  split <;> exact ⟨_, rfl⟩

theorem getLookup_of_not_known {statusCode : Js} {acceptLanguage : Option String}
    (h : ¬KnownLanguage acceptLanguage) :
    LookupUtil.getLookup print statusCode acceptLanguage = .error .typeError := by
  have hnone : statusesOf (LookupUtil.toLocaleLowerCase (LookupUtil.orDefault acceptLanguage)) =
      none := by
    rwa [knownLanguage_iff, Option.not_isSome_iff_eq_none] at h
  simp only [LookupUtil.getLookup, LookupUtil.read, hnone, bind, Except.bind]

theorem getLookup_ok_iff {statusCode : Js} {acceptLanguage : Option String}
    (hcode : (statusCode.text print).isSome = true) :
    (∃ status, LookupUtil.getLookup print statusCode acceptLanguage = .ok status) ↔
      KnownLanguage acceptLanguage := by
  refine ⟨fun ⟨status, hstatus⟩ ↦ ?_, getLookup_of_known print hcode⟩
  by_contra hunknown
  rw [getLookup_of_not_known print hunknown] at hstatus
  cases hstatus

/-! ## When the filter responds -/

/-- What the filter has to write or to convert of the exception can be. -/
def Exception.Convertible : Exception → Prop
  | validation exception => ∃ written, exception.json = .ok written
  | http status response =>
    ∃ parsed, response.reparse = .ok parsed ∧ (status ≠ 404 → parsed ≠ .null) ∧
      (status = 200 → ((parsed.prop "status").isNaN print).isSome = true)
  | other thrown => (thrown.text print).isSome = true

/-- The exception is answered with a status of the table: it does not bring its own response, as one
of 404 does, or its own status, as one of 200 can. -/
def Exception.NeedsStatus : Exception → Prop
  | http status response =>
    status ≠ 404 ∧ (status = 200 → ∀ parsed, response.reparse = .ok parsed →
      (parsed.prop "status").isNaN print ≠ some true)
  | _ => True

theorem isSome_text_of_isNaN {v : Js} (h : v.isNaN print = some false) :
    (v.text print).isSome = true := by
  cases v with
  | arr xs =>
    obtain ⟨text, htext, -⟩ := Option.map_eq_some_iff.mp h
    rw [htext, Option.isSome_some]
  | obj fields =>
    obtain ⟨text, htext, -⟩ := Option.map_eq_some_iff.mp h
    rw [htext, Option.isSome_some]
  | undefined => cases h
  | _ => rw [Js.text, Option.isSome_some]

theorem Loggable.isDefined_of_reparse {v : Loggable} {parsed : Js} (h : v.reparse = .ok parsed) :
    parsed.isDefined = true := by
  unfold reparse at h
  rcases hjson : v.json with e | written
  · rw [hjson] at h
    cases h
  · rw [hjson] at h
    simp only [bind, Except.bind] at h
    split at h
    · next hdefined =>
      obtain rfl := Except.ok.inj h
      rwa [Js.isDefined_copy]
    · cases h

theorem getProperty_of_ne_null {v : Js} (hdefined : v.isDefined = true) (hnull : v ≠ .null)
    (key : String) : getProperty v key = .ok (v.prop key) := by
  have hnullish : v.nullish = false := by
    cases v with
    | undefined => cases hdefined
    | null => exact absurd rfl hnull
    | _ => rfl
  rw [getProperty, Js.get?_of_not_nullish hnullish]

namespace AllExceptionsFilter

theorem dataOf_of_ne_null {parsed : Js} (hdefined : parsed.isDefined = true)
    (hnull : parsed ≠ .null) : ∃ data, dataOf parsed = .ok data := by
  simp only [dataOf, getProperty_of_ne_null hdefined hnull, bind, Except.bind]
  exact ⟨_, rfl⟩

/-- The status of a response of 200 is its own, or it is looked up when it is a number. -/
theorem givenStatus_ok_iff {parsed : Js} {acceptLanguage : Option String}
    (hdefined : parsed.isDefined = true) (hnull : parsed ≠ .null) :
    (∃ status, givenStatus print parsed acceptLanguage = .ok status) ↔
      ((parsed.prop "status").isNaN print).isSome = true ∧
        ((parsed.prop "status").isNaN print ≠ some true → KnownLanguage acceptLanguage) := by
  simp only [givenStatus, getProperty_of_ne_null hdefined hnull, bind, Except.bind]
  rcases hnan : (parsed.prop "status").isNaN print with _ | _ | _
  · exact iff_of_false (fun ⟨_, h⟩ ↦ by cases h) fun h ↦ by cases h.1
  · -- A number is looked up.
    rw [getLookup_ok_iff print (isSome_text_of_isNaN print hnan)]
    exact ⟨fun h ↦ ⟨rfl, fun _ ↦ h⟩, fun h ↦ h.2 (by decide)⟩
  · exact iff_of_true ⟨_, rfl⟩ ⟨rfl, fun h ↦ absurd rfl h⟩

theorem catchHttp_of_reparse {status : ℚ} {response : Loggable} {parsed : Js}
    (hparsed : response.reparse = .ok parsed) (acceptLanguage : Option String) :
    catchHttp print status response acceptLanguage =
      if status = 200 then respond (givenStatus print parsed acceptLanguage) parsed
      else if status = 404 then send response
      else
        respond (LookupUtil.getLookup print (.num CODE_TECHNICAL_ERROR) acceptLanguage) parsed := by
  rw [catchHttp, hparsed]
  rfl

theorem responds_respond {x : Except LanguageError Js} {parsed : Js} (hx : ∃ status, x = .ok status)
    (hdefined : parsed.isDefined = true) (hnull : parsed ≠ .null) :
    Responds (respond x parsed) := by
  obtain ⟨status, hstatus⟩ := hx
  obtain ⟨data, hdata⟩ := dataOf_of_ne_null hdefined hnull
  exact responds_attempt_bind hstatus (responds_attempt_bind hdata (responds_send _))

theorem throws_respond {x : Except LanguageError Js} {parsed : Js}
    (h : (∃ status, x = .ok status) → parsed = .null) : Throws (respond x parsed) := by
  by_cases hx : ∃ status, x = .ok status
  · obtain ⟨status, hstatus⟩ := hx
    rw [h ⟨status, hstatus⟩]
    exact throws_attempt_bind hstatus (throws_of_error rfl)
  · exact throws_of_not_ok hx

end AllExceptionsFilter

section Catch

variable {print} {acceptLanguage : Option String}

open AllExceptionsFilter

theorem AllExceptionsFilter.responds_catchHttp {status : ℚ} {response : Loggable}
    (hconvertible : (Exception.http status response).Convertible print)
    (hlanguage : (Exception.http status response).NeedsStatus print →
      KnownLanguage acceptLanguage) :
    Responds (catchHttp print status response acceptLanguage) := by
  obtain ⟨parsed, hparsed, hnull, hnumeric⟩ := hconvertible
  have hdefined := Loggable.isDefined_of_reparse hparsed
  rw [catchHttp_of_reparse print hparsed]
  split_ifs with h200 h404
  · have hne : status ≠ 404 := by rw [h200]; decide
    refine responds_respond ((givenStatus_ok_iff print hdefined (hnull hne)).mpr
      ⟨hnumeric h200, fun hnan ↦ hlanguage ⟨hne, fun _ parsed' hparsed' ↦ ?_⟩⟩) hdefined (hnull hne)
    obtain rfl := Except.ok.inj (hparsed.symm.trans hparsed')
    exact hnan
  · exact responds_send response
  · have hknown := hlanguage ⟨h404, fun h ↦ absurd h h200⟩
    exact responds_respond (getLookup_of_known print (Js.isSome_text_num print _) hknown) hdefined
      (hnull h404)

theorem AllExceptionsFilter.throws_catchHttp {status : ℚ} {response : Loggable}
    (h : ¬((Exception.http status response).Convertible print ∧
      ((Exception.http status response).NeedsStatus print → KnownLanguage acceptLanguage))) :
    Throws (catchHttp print status response acceptLanguage) := by
  rcases hparsed : response.reparse with e | parsed
  · exact throws_of_error hparsed
  have hdefined := Loggable.isDefined_of_reparse hparsed
  rw [catchHttp_of_reparse print hparsed]
  split_ifs with h200 h404
  · refine throws_respond fun hgiven ↦ ?_
    by_contra hnull
    obtain ⟨hnumeric, hknown⟩ := (givenStatus_ok_iff print hdefined hnull).mp hgiven
    exact h ⟨⟨parsed, hparsed, fun _ ↦ hnull, fun _ ↦ hnumeric⟩,
      fun hneeds ↦ hknown (hneeds.2 h200 parsed hparsed)⟩
  · -- A response of 404 is sent as it is.
    refine absurd ⟨⟨parsed, hparsed, fun hne ↦ absurd h404 hne, fun h ↦ absurd h h200⟩,
      fun hneeds ↦ absurd h404 hneeds.1⟩ h
  · refine throws_respond fun hfound ↦ ?_
    by_contra hnull
    have hknown := (getLookup_ok_iff print (Js.isSome_text_num print _)).mp hfound
    exact h ⟨⟨parsed, hparsed, fun _ ↦ hnull, fun h ↦ absurd h h200⟩, fun _ ↦ hknown⟩

variable {exception : Exception}

theorem catch_responds (hconvertible : exception.Convertible print)
    (hlanguage : exception.NeedsStatus print → KnownLanguage acceptLanguage) :
    Responds (AllExceptionsFilter.catch print exception acceptLanguage) := by
  cases exception with
  | validation exception =>
    obtain ⟨written, hwritten⟩ := hconvertible
    obtain ⟨status, hstatus⟩ :=
      getLookup_of_known print (Js.isSome_text_num print _) (hlanguage trivial)
    exact responds_attempt_bind hwritten (responds_attempt_bind hstatus (responds_send _))
  | other thrown =>
    obtain ⟨status, hstatus⟩ :=
      getLookup_of_known print (Js.isSome_text_num print _) (hlanguage trivial)
    exact responds_attempt_bind (if_pos hconvertible)
      (responds_attempt_bind hstatus (responds_send _))
  | http status response => exact responds_catchHttp hconvertible hlanguage

theorem catch_throws (h : ¬(exception.Convertible print ∧
      (exception.NeedsStatus print → KnownLanguage acceptLanguage))) :
    Throws (AllExceptionsFilter.catch print exception acceptLanguage) := by
  cases exception with
  | validation exception =>
    rcases hjson : exception.json with e | written
    · exact throws_of_error hjson
    · have hunknown : ¬KnownLanguage acceptLanguage := fun hknown ↦
        h ⟨⟨written, hjson⟩, fun _ ↦ hknown⟩
      exact throws_attempt_bind hjson (throws_of_error (getLookup_of_not_known print hunknown))
  | other thrown =>
    by_cases htext : (thrown.text print).isSome = true
    · have hunknown : ¬KnownLanguage acceptLanguage := fun hknown ↦ h ⟨htext, fun _ ↦ hknown⟩
      exact throws_attempt_bind (if_pos htext)
        (throws_of_error (getLookup_of_not_known print hunknown))
    · exact throws_of_error (if_neg htext)
  | http status response => exact throws_catchHttp h

end Catch

/-- The filter does not throw and sends one response if and only if it can convert the exception and,
where the status comes from the table, the language is known; otherwise it throws and sends nothing.
Once the interceptor has passed, the language is known. -/
theorem catch_responds_iff (exception : Exception) (acceptLanguage : Option String)
    (stage : Stage) :
    (Responds (AllExceptionsFilter.catch print exception (stage.header acceptLanguage)) ↔
        exception.Convertible print ∧
          (exception.NeedsStatus print → KnownLanguage (stage.header acceptLanguage))) ∧
      (¬Responds (AllExceptionsFilter.catch print exception (stage.header acceptLanguage)) →
        Throws (AllExceptionsFilter.catch print exception (stage.header acceptLanguage))) ∧
      (stage = .intercepted → KnownLanguage (stage.header acceptLanguage)) := by
  refine ⟨⟨fun h ↦ ?_, fun h ↦ catch_responds h.1 h.2⟩, fun h ↦ ?_, ?_⟩
  · by_contra hnot
    exact (catch_throws hnot).not_responds h
  · exact catch_throws fun hmet ↦ h (catch_responds hmet.1 hmet.2)
  · rintro rfl
    exact knownLanguage_intercepted acceptLanguage

/-- What the API-key guard throws at a request without a key. -/
def unauthorized : Exception :=
  .http 401 (.data (.obj [("statusCode", .num 401), ("message", .str "Unauthorized")]))

/-- A browser asks for the cache to be cleared, without a key: the guard rejects, and the filter
throws. -/
theorem browser_language_throws :
    outcome (AllExceptionsFilter.catch (fun q ↦ toString q.num) unauthorized
        (Stage.guard.header (some "en-US,en;q=0.9"))) = (.error .typeError, []) ∧
      ¬Responds (AllExceptionsFilter.catch (fun q ↦ toString q.num) unauthorized
        (Stage.guard.header (some "en-US,en;q=0.9"))) := by
  have hthrows : outcome (AllExceptionsFilter.catch (fun q ↦ toString q.num) unauthorized
      (Stage.guard.header (some "en-US,en;q=0.9"))) = (.error .typeError, []) := by
    rfl
  exact ⟨hthrows, Throws.not_responds ⟨_, hthrows⟩⟩

end PaymentService
