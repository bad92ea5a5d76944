import Mathlib.Data.List.Basic
import Mathlib.Tactic.Common

/-!
# Values of columns

What a column makes of the text that a statement has for it. A `varchar` cuts off the blanks that are
too many and refuses everything else that is too long, and no column takes the character `NUL`. A
`uuid` holds a value and not a text: upper case, braces and missing hyphens make no difference to it.
-/

namespace Sql

/-! ## Character columns -/

/-- The text has no character that no column takes. -/
def NoNul (s : String) : Prop := '\x00' ∉ s.toList

instance (s : String) : Decidable (NoNul s) := inferInstanceAs (Decidable (¬_))

/-- What a `varchar(n)` holds when it is given a text, if it takes it. -/
def varchar (n : ℕ) (s : String) : Option String :=
  if NoNul s ∧ (s.toList.drop n).all (· = ' ') = true then
    some (String.ofList (s.toList.take n))
  else none

/-- A text that a `varchar(n)` can hold. -/
structure FitsVarchar (n : ℕ) (s : String) : Prop where
  length : s.length ≤ n
  noNul : NoNul s

instance (n : ℕ) (s : String) : Decidable (FitsVarchar n s) :=
  decidable_of_iff (s.length ≤ n ∧ NoNul s) ⟨fun h ↦ ⟨h.1, h.2⟩, fun h ↦ ⟨h.1, h.2⟩⟩

theorem varchar_of_fits {n : ℕ} {s : String} (h : FitsVarchar n s) : varchar n s = some s := by
  have hlength : s.toList.length ≤ n := by
    rw [String.length_toList]
    exact h.length
  have htail : (s.toList.drop n).all (· = ' ') = true := by
    rw [List.drop_eq_nil_of_le hlength]
    rfl
  rw [varchar, if_pos ⟨h.noNul, htail⟩, List.take_of_length_le hlength, String.ofList_toList]

theorem fits_of_varchar {n : ℕ} {s kept : String} (h : varchar n s = some kept) :
    FitsVarchar n kept := by
  unfold varchar at h
  split at h
  · next hs =>
    obtain rfl := Option.some_inj.mp h
    constructor
    · rw [String.length_ofList]
      exact List.length_take_le n s.toList
    · intro hmem
      rw [String.toList_ofList] at hmem
      exact hs.1 (List.mem_of_mem_take hmem)
  · cases h

/-- A text without blanks is held as it is or not at all. -/
theorem eq_of_varchar {n : ℕ} {s kept : String} (hs : ' ' ∉ s.toList)
    (h : varchar n s = some kept) : kept = s := by
  unfold varchar at h
  split at h
  · next htail =>
    -- Only blanks are cut off, and there are none.
    have hdrop : s.toList.drop n = [] := by
      refine List.eq_nil_iff_forall_not_mem.mpr fun c hc ↦ hs ?_
      exact of_decide_eq_true (List.all_eq_true.mp htail.2 c hc) ▸ List.mem_of_mem_drop hc
    obtain rfl := Option.some_inj.mp h
    rw [List.take_of_length_le (List.drop_eq_nil_iff.mp hdrop), String.ofList_toList]
  · cases h

/-- A text without blanks is held when it is not too long. -/
theorem isSome_varchar_iff {n : ℕ} {s : String} (hs : ' ' ∉ s.toList) (hnul : NoNul s) :
    (varchar n s).isSome = true ↔ s.length ≤ n := by
  constructor
  · intro h
    obtain ⟨kept, hkept⟩ := Option.isSome_iff_exists.mp h
    obtain rfl := eq_of_varchar hs hkept
    exact (fits_of_varchar hkept).length
  · intro h
    rw [varchar_of_fits ⟨h, hnul⟩, Option.isSome_some]

/-! ## Identifiers -/

namespace Uuid

/-- A digit of base 16, in either case. -/
def isDigit (c : Char) : Bool :=
  c.isDigit || ('a' ≤ c && c ≤ 'f') || ('A' ≤ c && c ≤ 'F')

/-- The digits of a group of four, in lower case, and what follows them. -/
def readGroup : List Char → Option (List Char × List Char)
  | a :: b :: c :: d :: cs =>
    if [a, b, c, d].all isDigit then some ([a, b, c, d].map Char.toLower, cs) else none
  | _ => none

def skipHyphen : List Char → List Char
  | '-' :: cs => cs
  | cs => cs

/-- A number of groups, with or without a hyphen between two of them. -/
def readGroups : ℕ → List Char → Option (List (List Char) × List Char)
  | 0, cs => some ([], cs)
  | n + 1, cs => do
    let (group, cs) ← readGroup cs
    let (groups, cs) ← readGroups n (if n = 0 then cs else skipHyphen cs)
    some (group :: groups, cs)

/-- The groups as the database prints them. -/
def print : List (List Char) → String
  | [a, b, c, d, e, f, g, h] =>
    String.ofList (a ++ b ++ '-' :: c ++ '-' :: d ++ '-' :: e ++ '-' :: f ++ g ++ h)
  | groups => String.ofList groups.flatten

/-- The identifier that a text stands for, as the database prints it; the text may stand between
braces. -/
def read (s : String) : Option String :=
  match s.toList with
  | '\x7b' :: cs =>
    match readGroups 8 cs with
    | some (groups, ['\x7d']) => some (print groups)
    | _ => none
  | cs =>
    match readGroups 8 cs with
    | some (groups, []) => some (print groups)
    | _ => none

example : read "\x7b6F7264657231-4000-8000-000000000001\x7d" =
    some "6f726465-7231-4000-8000-000000000001" := by decide +kernel

example : read "order1" = none := by decide +kernel

end Uuid

end Sql
