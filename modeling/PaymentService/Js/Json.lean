import PaymentService.Js.Value

/-!
# JSON text

`JSON.stringify` with an optional indentation, which texts `JSON.parse` accepts, and what is left of
a value that goes through both. The order of the properties of an object is that in which they were
set.
-/

namespace Js

/-! ## `JSON.stringify` -/

/-- A character of a string literal, escaped where it has to be. -/
def escape (c : Char) : String :=
  match c.toNat with
  | 0x08 => "\\b"
  | 0x09 => "\\t"
  | 0x0a => "\\n"
  | 0x0c => "\\f"
  | 0x0d => "\\r"
  | 0x22 => "\\\x22"
  | 0x5c => "\\\\"
  | n =>
    if n < 0x20 then "\\u00" ++ (Nat.digitChar (n / 16)).toString ++ (Nat.digitChar (n % 16)).toString
    else c.toString

def quote (s : String) : String := "\x22" ++ String.join (s.toList.map escape) ++ "\x22"

/-- The members of an array or an object between their brackets, on lines of their own when there is
an indentation. -/
def enclose (gap indent opening closing : String) (members : List String) : String :=
  if members.isEmpty then opening ++ closing
  else if gap = "" then opening ++ ",".intercalate members ++ closing
  else
    opening ++ "\n" ++ indent ++ gap ++ (",\n" ++ indent ++ gap).intercalate members ++ "\n"
      ++ indent ++ closing

section Write

variable (print : ℚ → String) (gap : String)

mutual

/-- `JSON.stringify(v, null, gap)` at a given indentation; `undefined` has no text. -/
def write (indent : String) : Js → Option String
  | undefined => none
  | null => some "null"
  | bool b => some (if b then "true" else "false")
  | num q => some (print q)
  | str s => some (quote s)
  | arr xs => some (enclose gap indent "[" "]" (writeItems (indent ++ gap) xs))
  | obj fields => some (enclose gap indent "\x7b" "\x7d" (writeFields (indent ++ gap) fields))

/-- The items of an array; one without a text is written as `null`. -/
def writeItems (indent : String) : List Js → List String
  | [] => []
  | x :: xs => (write indent x).getD "null" :: writeItems indent xs

/-- The properties of an object; one without a text is left out. -/
def writeFields (indent : String) : List (String × Js) → List String
  | [] => []
  | (key, x) :: fields =>
    match write indent x with
    | none => writeFields indent fields
    | some text =>
      (quote key ++ (if gap = "" then ":" else ": ") ++ text) :: writeFields indent fields

end

/-- `JSON.stringify(v, null, gap)`. -/
def stringify (v : Js) : Option String := write print gap "" v

/-- The value is not `undefined`, and has a text. -/
def isDefined : Js → Bool
  | undefined => false
  | _ => true

theorem isSome_write (indent : String) (v : Js) : (write print gap indent v).isSome = isDefined v := by
  cases v <;> simp [write, isDefined]

theorem length_writeFields (indent : String) (fields : List (String × Js)) :
    (writeFields print gap indent fields).length = fields.countP fun field ↦ isDefined field.2 := by
  induction fields with
  | nil => rw [writeFields, List.countP_nil, List.length_nil]
  | cons field fields ih =>
    obtain ⟨key, v⟩ := field
    have hsome := isSome_write print gap indent v
    rw [writeFields, List.countP_cons, ← hsome, ← ih]
    rcases write print gap indent v with _ | text <;> rfl

theorem length_le_length_intercalate {separator : String} (h : separator ≠ "")
    (members : List String) : members.length ≤ (separator.intercalate members).length + 1 := by
  have hpos : 0 < separator.length :=
    Nat.pos_of_ne_zero fun hzero ↦ h (String.length_eq_zero_iff.mp hzero)
  induction members with
  | nil => exact Nat.zero_le _
  | cons member members ih =>
    rcases members with _ | ⟨next, rest⟩
    · exact Nat.le_add_left 1 _
    · rw [String.intercalate_cons_cons, List.length_cons, String.length_append,
        String.length_append]
      omega

theorem countP_lt_length_stringify (fields : List (String × Js)) :
    ∃ text, stringify print "" (obj fields) = some text ∧
      fields.countP (fun field ↦ isDefined field.2) < text.length := by
  refine ⟨_, by rw [stringify, write], ?_⟩
  rw [← length_writeFields print "" ("" ++ ""), enclose]
  split
  · next hempty =>
    rw [List.isEmpty_iff.mp hempty]
    decide
  · simp only [if_true, String.length_append]
    have hle := length_le_length_intercalate (show "," ≠ "" by decide)
      (writeFields print "" ("" ++ "") fields)
    have hbraces : "\x7b".length + "\x7d".length = 2 := by decide
    omega

end Write

/-! ## `JSON.parse` after `JSON.stringify` -/

mutual

/-- `JSON.parse(JSON.stringify(v))`: properties that are `undefined` are lost. -/
def copy : Js → Js
  | arr xs => arr (copyItems xs)
  | obj fields => obj (copyFields fields)
  | v => v

def copyItems : List Js → List Js
  | [] => []
  | undefined :: xs => null :: copyItems xs
  | x :: xs => copy x :: copyItems xs

def copyFields : List (String × Js) → List (String × Js)
  | [] => []
  | (_, undefined) :: fields => copyFields fields
  | (key, x) :: fields => (key, copy x) :: copyFields fields

end

@[simp] theorem isDefined_copy (v : Js) : isDefined (copy v) = isDefined v := by
  cases v <;> simp [copy, isDefined]

/-! ## What `JSON.parse` accepts

Each function reads one construct of the grammar off the front of a text and returns the rest. -/

def skipSpace (cs : List Char) : List Char :=
  cs.dropWhile fun c ↦ c = ' ' || c = '\t' || c = '\n' || c = '\r'

def skipDigits : List Char → Option (List Char)
  | c :: cs => if c.isDigit then some (cs.dropWhile Char.isDigit) else none
  | [] => none

def skipExponent : List Char → Option (List Char)
  | c :: cs =>
    if c = 'e' || c = 'E' then
      match cs with
      | '+' :: cs => skipDigits cs
      | '-' :: cs => skipDigits cs
      | cs => skipDigits cs
    else some (c :: cs)
  | [] => some []

def skipNumber (cs : List Char) : Option (List Char) := do
  let cs := match cs with
    | '-' :: cs => cs
    | cs => cs
  let cs ← match cs with
    | '0' :: cs => some cs
    | cs => skipDigits cs
  let cs ← match cs with
    | '.' :: cs => skipDigits cs
    | cs => some cs
  skipExponent cs

def isHexDigit (c : Char) : Bool :=
  c.isDigit || ('a' ≤ c && c ≤ 'f') || ('A' ≤ c && c ≤ 'F')

/-- A string literal after its opening quote. -/
def skipString : List Char → Option (List Char)
  | '\\' :: 'u' :: a :: b :: c :: d :: cs =>
    if [a, b, c, d].all isHexDigit then skipString cs else none
  | '\\' :: c :: cs => if "\x22\\/bfnrt".toList.contains c then skipString cs else none
  | c :: cs => if c = '\x22' then some cs else if c.toNat < 0x20 then none else skipString cs
  | [] => none

mutual

/-- A value; the fuel bounds the depth of the recursion. -/
def skipValue : ℕ → List Char → Option (List Char)
  | 0, _ => none
  | fuel + 1, cs =>
    match skipSpace cs with
    | '\x22' :: cs => skipString cs
    | '[' :: cs =>
      match skipSpace cs with
      | ']' :: cs => some cs
      | cs => skipItems fuel cs
    | '\x7b' :: cs =>
      match skipSpace cs with
      | '\x7d' :: cs => some cs
      | cs => skipFields fuel cs
    | 'n' :: 'u' :: 'l' :: 'l' :: cs => some cs
    | 't' :: 'r' :: 'u' :: 'e' :: cs => some cs
    | 'f' :: 'a' :: 'l' :: 's' :: 'e' :: cs => some cs
    | cs => skipNumber cs

/-- The items of an array and the bracket after them. -/
def skipItems : ℕ → List Char → Option (List Char)
  | 0, _ => none
  | fuel + 1, cs => do
    match skipSpace (← skipValue fuel cs) with
    | ',' :: cs => skipItems fuel cs
    | ']' :: cs => some cs
    | _ => none

/-- The properties of an object and the brace after them. -/
def skipFields : ℕ → List Char → Option (List Char)
  | 0, _ => none
  | fuel + 1, cs => do
    match skipSpace cs with
    | '\x22' :: cs =>
      match skipSpace (← skipString cs) with
      | ':' :: cs =>
        match skipSpace (← skipValue fuel cs) with
        | ',' :: cs => skipFields fuel cs
        | '\x7d' :: cs => some cs
        | _ => none
      | _ => none
    | _ => none

end

/-- `JSON.parse(s)` does not throw. Between two characters of the text, the recursion is entered at
most twice. -/
def isJson (s : String) : Bool :=
  match skipValue (2 * s.length + 2) s.toList with
  | some cs => (skipSpace cs).isEmpty
  | none => false

example : isJson " \x7b\x22a\x22: [1, -2.5e3, null], \x22b\\u00e9\x22: \x7b\x7d\x7d " = true := by
  decide +kernel

example : isJson "[1, 02]" = false := by decide +kernel

end Js
