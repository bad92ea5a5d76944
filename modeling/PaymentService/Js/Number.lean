import PaymentService.Js.Json

/-!
# Texts that are numbers

`isNaN` converts its argument to a number first, so a text passes for a number when it reads as one,
and so does an array or an object whose text does.
-/

namespace Js

/-- White space and line terminators, which a conversion ignores at both ends. -/
def isWhiteSpace (c : Char) : Bool :=
  (0x09 ≤ c.toNat && c.toNat ≤ 0x0d) || (0x2000 ≤ c.toNat && c.toNat ≤ 0x200a) ||
    [0x20, 0xa0, 0x1680, 0x2028, 0x2029, 0x202f, 0x205f, 0x3000, 0xfeff].contains c.toNat

def trim (cs : List Char) : List Char :=
  ((cs.dropWhile isWhiteSpace).reverse.dropWhile isWhiteSpace).reverse

/-- Digits with or without a fraction. -/
def skipMantissa : List Char → Option (List Char)
  | '.' :: cs => skipDigits cs
  | cs => (skipDigits cs).map fun
    | '.' :: cs => cs.dropWhile Char.isDigit
    | cs => cs

def isDecimal (cs : List Char) : Bool :=
  let cs := match cs with
    | '+' :: cs => cs
    | '-' :: cs => cs
    | cs => cs
  cs = "Infinity".toList || (skipMantissa cs).bind skipExponent = some []

/-- The text converts to a number; the empty one does, to zero. -/
def isNumeric (s : String) : Bool :=
  match trim s.toList with
  | [] => true
  | '0' :: 'x' :: cs | '0' :: 'X' :: cs => !cs.isEmpty && cs.all isHexDigit
  | '0' :: 'o' :: cs | '0' :: 'O' :: cs => !cs.isEmpty && cs.all fun c ↦ '0' ≤ c && c ≤ '7'
  | '0' :: 'b' :: cs | '0' :: 'B' :: cs => !cs.isEmpty && cs.all fun c ↦ c = '0' || c = '1'
  | cs => isDecimal cs

/-- `isNaN(v)`, which throws when an object has no text. -/
def isNaN (print : ℚ → String) : Js → Option Bool
  | undefined => some true
  | null => some false
  | bool _ => some false
  | num _ => some false
  | v => (text print v).map fun s ↦ !isNumeric s

example : ["1899", " 12.5e3\n", "", "0x1F", "-Infinity", "."].map isNumeric =
    [true, true, true, true, true, false] := by decide

end Js
