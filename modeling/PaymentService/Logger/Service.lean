import PaymentService.Js.Json
import PaymentService.World

/-!
# The logger

`CustomLogger.request` prints one JSON text for each request. The headers, the body and the response
are masked first: every property at the top level is replaced by what the patterns of `loggerPattern`
make of it. A pattern may throw, and so may `JSON.stringify` on a value that it cannot write; nothing
in the logger catches either.
-/

namespace PaymentService

/-! ## What is logged -/

/-- A property of an object that is logged. -/
inductive Property
  | data (v : Js)
  /-- `JSON.stringify` throws on it: an object that refers back to itself, a `bigint`. -/
  | cyclic

/-- A value that is logged. -/
inductive Loggable
  | data (v : Js)
  /-- An object of the running program, such as an error, with its own enumerable properties. -/
  | object (properties : List (String × Property))

/-- What is thrown while a request is handled. -/
inductive Failure
  /-- By the route handler, or by a pattern that was added. -/
  | thrown (e : Loggable)
  /-- By the language, in the logger itself. -/
  | typeError

/-- The own properties of a value, as `{ ...v }` copies them. -/
def Loggable.properties : Loggable → List (String × Property)
  | data v => v.spread.map fun (key, value) ↦ (key, .data value)
  | object properties => properties

/-- `Object.entries(v)`, which throws on `undefined` and `null`. -/
def Loggable.entries (v : Loggable) : Except Failure (List (String × Property)) :=
  match v with
  | data .undefined => .error .typeError
  | data .null => .error .typeError
  | v => .ok v.properties

/-- A property as `JSON.stringify` comes to it. -/
def Property.write : String × Property → Except Failure (String × Js)
  | (key, .data v) => .ok (key, v)
  | (_, .cyclic) => .error .typeError

/-- The plain data of a value, when all of it can be written. -/
def Loggable.write : Loggable → Except Failure Js
  | data v => .ok v
  | object properties => do
    let fields ← properties.mapM Property.write
    .ok (.obj fields)

/-- `v || {}`. -/
def Loggable.orEmpty : Loggable → Loggable
  | data v => if v.truthy then data v else object []
  | object properties => object properties

/-! ## The patterns -/

structure PatternReplaceLog where
  isPattern : String → Bool
  mapPattern : Property → Except Failure Property

/-- The letters of a key without their case. -/
def lowerKey (key : String) : List Char := key.toList.map Char.toLower

/-- `\w`. -/
def isWord (c : Char) : Bool := c.isAlphanum || c = '_'

/-- `/^password\w*/i`. -/
def startPasswordPattern : PatternReplaceLog where
  isPattern key := "password".toList.isPrefixOf (lowerKey key)
  mapPattern _ := .ok (.data (.str "****"))

/-- `/\w+Password$/i`. -/
def endPasswordPattern : PatternReplaceLog where
  isPattern key :=
    let reversed := (lowerKey key).reverse
    "password".toList.reverse.isPrefixOf reversed && (reversed.drop 8).head?.any isWord
  mapPattern _ := .ok (.data (.str "****"))

/-- `cid.substr(0, 7) + 'XXXXX' + cid.substr(12)`, where `substr` counts code units. -/
def maskCid (cid : String) : String :=
  Js.ofCodeUnits ((Js.codeUnits cid).take 7) ++ "XXXXX" ++
    Js.ofCodeUnits ((Js.codeUnits cid).drop 12)

/-- `/^cid$/i`. A value other than a string has no method `substr`. -/
def cidPattern : PatternReplaceLog where
  isPattern key := lowerKey key = "cid".toList
  mapPattern
    | .data (.str cid) => .ok (.data (.str (maskCid cid)))
    | _ => .error .typeError

def defaultPattern : PatternReplaceLog where
  isPattern _ := true
  mapPattern value := .ok value

/-- The patterns as the module is loaded. -/
def patterns : List PatternReplaceLog :=
  [startPasswordPattern, endPasswordPattern, cidPattern, defaultPattern]

/-- `patterns.splice(0, 0, pattern)`. -/
def addPattern (pattern : PatternReplaceLog) (registered : List PatternReplaceLog) :
    List PatternReplaceLog := pattern :: registered

/-- Every pattern for the key is applied to the value, and the first result is taken. -/
def replace (registered : List PatternReplaceLog) (key : String) (value : Property) :
    Except Failure Property := do
  let mapped ← (registered.filter (·.isPattern key)).mapM (·.mapPattern value)
  .ok (mapped.head?.getD (.data .undefined))

/-! ## The service -/

/-- How the runtime prints numbers and instants. -/
structure LogFormat where
  number : ℚ → String
  toISOString : Date → String

/-- The fields that are set when a request arrives. -/
structure CustomLogger where
  appName : Option String := some "-"
  traceId : String := "-"
  ipAddress : Option String := some "-"
  userId : String := "-"

structure LogRequest where
  method : String
  uri : String
  rawUri : String
  reqHeader : Loggable
  reqBody : Loggable
  respStatus : ℕ
  respBody : Loggable

namespace CustomLogger

variable (registered : List PatternReplaceLog)

def replaceEntry (entry : String × Property) : Except Failure (String × Property) := do
  let replaced ← replace registered entry.1 entry.2
  .ok (entry.1, replaced)

/-- The copy of an object with every property replaced. Assigning to `__proto__` makes no
property. -/
def replaceAll (obj : Loggable) : Except Failure Loggable := do
  let entries ← obj.entries
  let properties ← entries.mapM (replaceEntry registered)
  .ok (.object (properties.filter (·.1 ≠ "__proto__")))

/-- A string that is no JSON text is returned as it is. Of one that is, the code units are the
properties: what the text was parsed to is not used. -/
def mapObjectWithConfig (obj : Loggable) : Except Failure Loggable :=
  match obj with
  | .data (.str s) => if Js.isJson s then replaceAll registered obj else .ok obj
  | obj => replaceAll registered obj

/-- Set a property; one that is there keeps its place. -/
def setProperty (properties : List (String × Property)) (property : String × Property) :
    List (String × Property) :=
  if properties.any (·.1 = property.1) then
    properties.map fun old ↦ if old.1 = property.1 then property else old
  else properties ++ [property]

/-- A text that may be missing. -/
def textOrUndefined : Option String → Js
  | none => .undefined
  | some text => .str text

/-- `JSON.stringify` of a masked value. -/
def stringifyMasked (format : LogFormat) (masked : Loggable) : Except Failure Js := do
  let data ← masked.write
  .ok (textOrUndefined (Js.stringify format.number "" data))

/-- The line that `request` prints; `timestamp` is when it does. -/
def request (format : LogFormat) (logger : CustomLogger) (req : LogRequest) (execTime : ℤ)
    (timestamp : Date) : Except Failure String := do
  let maskedHeader ← mapObjectWithConfig registered req.reqHeader.orEmpty
  let logHeader : Loggable := .object <| maskedHeader.properties.foldl setProperty
    [("timestamp", .data (.str (format.toISOString timestamp))), ("level", .data (.str "info")),
      ("ipAddess", .data (textOrUndefined logger.ipAddress))]
  let reqBody ← stringifyMasked format (← mapObjectWithConfig registered req.reqBody.orEmpty)
  let respBody ← stringifyMasked format (← mapObjectWithConfig registered req.respBody.orEmpty)
  let logBody : Js := .obj [("execTime", .num execTime), ("reqBody", reqBody), ("respBoy", respBody)]
  -- The two parts are written and parsed again, and then written as parts of the line.
  let header ← logHeader.write
  let parsedLog : Js := .obj
    [("url", .str req.rawUri), ("trace_id", .str logger.traceId), ("method", .str req.method),
      ("header", header.copy), ("body", logBody.copy)]
  .ok ((Js.stringify format.number "  " parsedLog).getD "")

end CustomLogger

end PaymentService
