import Mathlib.Data.Rat.Defs
import Mathlib.Tactic.Common

/-!
# Code units

The strings of the language are sequences of UTF-16 code units: its operators count units, index units
and may cut a character of two units in half. A string here is one of characters, so a half that is
left alone stands as the replacement character.
-/

namespace Js

/-- The UTF-16 code units of a character. -/
def units (c : Char) : List ℕ :=
  if c.toNat < 0x10000 then [c.toNat]
  else [0xd800 + (c.toNat - 0x10000) / 0x400, 0xdc00 + (c.toNat - 0x10000) % 0x400]

/-- The character of a code unit. A lone half of a pair is no character, and is replaced. -/
def ofUnit (u : ℕ) : Char := if u.isValidChar then Char.ofNat u else Char.ofNat 0xfffd

def ofUnits : List ℕ → List Char
  | high :: low :: us =>
    if 0xd800 ≤ high ∧ high < 0xdc00 ∧ 0xdc00 ≤ low ∧ low < 0xe000 then
      ofUnit (0x10000 + (high - 0xd800) * 0x400 + (low - 0xdc00)) :: ofUnits us
    else ofUnit high :: ofUnits (low :: us)
  | [u] => [ofUnit u]
  | [] => []

theorem ofUnit_toNat (c : Char) : ofUnit c.toNat = c := by
  have hvalid : c.toNat.isValidChar := c.valid
  rw [ofUnit, if_pos hvalid, Char.ofNat_toNat]

theorem ofUnits_cons {u : ℕ} (h : u < 0xd800 ∨ 0xdc00 ≤ u) (us : List ℕ) :
    ofUnits (u :: us) = ofUnit u :: ofUnits us := by
  match us with
  | [] => rfl
  | low :: us =>
    rw [ofUnits, if_neg]
    omega

theorem ofUnits_units (cs : List Char) : ofUnits (cs.flatMap units) = cs := by
  induction cs with
  | nil => rfl
  | cons c cs ih =>
    have hvalid : c.toNat < 0xd800 ∨ 0xdfff < c.toNat ∧ c.toNat < 0x110000 := c.valid
    rw [List.flatMap_cons, units]
    split
    · rw [List.singleton_append, ofUnits_cons (by omega), ih, ofUnit_toNat]
    · have hsum : 0x10000 + (0xd800 + (c.toNat - 0x10000) / 0x400 - 0xd800) * 0x400 +
          (0xdc00 + (c.toNat - 0x10000) % 0x400 - 0xdc00) = c.toNat := by omega
      rw [List.cons_append, List.singleton_append, ofUnits, if_pos (by omega), hsum, ih,
        ofUnit_toNat]

/-- The code units of a string, which is what its length counts and its positions are those of. -/
def codeUnits (s : String) : List ℕ := s.toList.flatMap units

/-- The string of code units. -/
def ofCodeUnits (us : List ℕ) : String := String.ofList (ofUnits us)

@[simp] theorem ofCodeUnits_codeUnits (s : String) : ofCodeUnits (codeUnits s) = s := by
  rw [ofCodeUnits, codeUnits, ofUnits_units, String.ofList_toList]

theorem length_le_length_codeUnits (s : String) : s.length ≤ (codeUnits s).length := by
  have hunits : ∀ cs : List Char, cs.length ≤ (cs.flatMap units).length := by
    intro cs
    induction cs with
    | nil => exact le_rfl
    | cons c cs ih =>
      have hpos : 1 ≤ (units c).length := by
        unfold units
        split <;> simp
      rw [List.flatMap_cons, List.length_append, List.length_cons]
      omega
  rw [← String.length_toList]
  exact hunits s.toList

end Js
