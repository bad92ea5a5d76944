import Mathlib.Tactic.Common
import Mathlib.Data.List.Basic

/-!
# Format strings with named placeholders

A format is text in which `%%` stands for a percent sign and `%(name)s` for a value; any other use of
the percent sign is no format. The scanner goes through the text once and remembers how much of a
placeholder it has read, so what a value contains is not looked at again.

A format that is extended behind its end is scanned in parts when the extension cannot continue a
placeholder (`format_append`). Values without a percent sign give back the format itself only when it
has none either (`not_mem_of_verbatim`).
-/

namespace Printf

/-- How much of a placeholder has been read. -/
inductive Mode
  | text
  /-- A percent sign. -/
  | percent
  /-- A percent sign, an opening parenthesis, and some characters of a name. -/
  | name (read : List Char)
  /-- All but the letter at the end. -/
  | close (read : List Char)

/-- The characters of a name; the first one is no digit. -/
def isNameChar (read : List Char) (c : Char) : Bool :=
  c.isAlpha || c = '_' || (!read.isEmpty && c.isDigit)

variable (value : String → List Char)

def format : Mode → List Char → Option (List Char)
  | .text, [] => some []
  | .text, c :: cs => if c = '%' then format .percent cs else (format .text cs).map (c :: ·)
  | .percent, c :: cs =>
    if c = '%' then (format .text cs).map ('%' :: ·)
    else if c = '(' then format (.name []) cs
    else none
  | .name read, c :: cs =>
    if isNameChar read c then format (.name (read ++ [c])) cs
    else if c = ')' ∧ read ≠ [] then format (.close read) cs
    else none
  | .close read, c :: cs =>
    if c = 's' then (format .text cs).map (value (String.ofList read) ++ ·) else none
  | _, [] => none

/-- The character cannot continue a placeholder. -/
def Breaks (c : Char) : Prop :=
  c ≠ '%' ∧ c ≠ '(' ∧ c ≠ ')' ∧ c ≠ 's' ∧ ∀ read, isNameChar read c = false

theorem format_append {c : Char} (hc : Breaks c) (mode : Mode) (cs rest : List Char) :
    format value mode (cs ++ c :: rest) =
      (format value mode cs).bind fun out ↦
        (format value .text (c :: rest)).map (out ++ ·) := by
  obtain ⟨hpercent, hopen, hclose, hs, hname⟩ := hc
  generalize htail : format value .text (c :: rest) = tail
  induction cs generalizing mode with
  | nil =>
    cases mode with
    | text =>
      rw [List.nil_append, htail]
      cases tail <;> rfl
    | percent => simp [format, hpercent, hopen]
    | name read => simp [format, hname, hclose]
    | close read => simp [format, hs]
  | cons d cs ih =>
    cases mode with
    | text =>
      simp only [List.cons_append, format]
      split
      · exact ih .percent
      · rw [ih]
        cases format value .text cs <;> cases tail <;> rfl
    | percent =>
      simp only [List.cons_append, format]
      split
      · rw [ih]
        cases format value .text cs <;> cases tail <;> rfl
      · split
        · exact ih (.name [])
        · rfl
    | name read =>
      simp only [List.cons_append, format]
      split
      · exact ih (.name (read ++ [d]))
      · split
        · exact ih (.close read)
        · rfl
    | close read =>
      simp only [List.cons_append, format]
      split
      · rw [ih]
        cases format value .text cs <;> cases tail <;> simp
      · rfl

theorem format_of_not_mem {cs : List Char} (h : '%' ∉ cs) : format value .text cs = some cs := by
  induction cs with
  | nil => rfl
  | cons c cs ih =>
    rw [List.mem_cons, not_or] at h
    rw [format, if_neg (Ne.symm h.1), ih h.2, Option.map_some]

variable {value}

/-- The percent signs that have been read of a placeholder. -/
def pending : Mode → ℕ
  | .text => 0
  | .percent | .name _ | .close _ => 1

/-- Of its percent signs, a format loses one with every placeholder. -/
theorem count_of_format (hvalue : ∀ name, '%' ∉ value name) {mode : Mode} {cs out : List Char}
    (h : format value mode cs = some out) :
    mode = .text ∧ '%' ∉ cs ∧ out = cs ∨ out.count '%' < cs.count '%' + pending mode := by
  induction cs generalizing mode out with
  | nil =>
    cases mode with
    | text => exact Or.inl ⟨rfl, List.not_mem_nil, (Option.some_inj.mp h).symm⟩
    | _ => cases h
  | cons c cs ih =>
    have hcount : cs.count '%' ≤ (c :: cs).count '%' := List.count_le_count_cons
    -- Within a placeholder the percent sign is still to be lost.
    have hgo : ∀ {mode' out}, mode' ≠ .text → format value mode' cs = some out →
        out.count '%' < cs.count '%' + 1 := by
      intro mode' out hmode h
      rcases ih h with ⟨htext, -⟩ | hlt
      · exact absurd htext hmode
      · cases mode' with
        | text => exact absurd rfl hmode
        | _ => exact hlt
    have htext : ∀ {out}, format value .text cs = some out → out.count '%' ≤ cs.count '%' := by
      intro out h
      rcases ih h with ⟨-, -, rfl⟩ | hlt
      · exact Nat.le_refl _
      · exact Nat.le_of_lt hlt
    cases mode with
    | text =>
      rw [format] at h
      split at h
      · next hc =>
        have hlt := hgo (by simp) h
        rw [hc, List.count_cons_self]
        exact Or.inr hlt
      · next hc =>
        obtain ⟨out, hout, rfl⟩ := Option.map_eq_some_iff.mp h
        rw [List.count_cons_of_ne hc, List.count_cons_of_ne hc, List.mem_cons, not_or]
        rcases ih hout with ⟨-, hnot, rfl⟩ | hlt
        · exact Or.inl ⟨rfl, ⟨Ne.symm hc, hnot⟩, rfl⟩
        · exact Or.inr hlt
    | percent =>
      rw [format] at h
      split at h
      · next hc =>
        obtain ⟨out, hout, rfl⟩ := Option.map_eq_some_iff.mp h
        have hle := htext hout
        rw [hc, List.count_cons_self, List.count_cons_self, pending]
        omega
      · split at h
        · have hlt := hgo (by simp) h
          rw [pending]
          omega
        · cases h
    | name read =>
      rw [format] at h
      split at h
      · have hlt := hgo (by simp) h
        rw [pending]
        omega
      · split at h
        · have hlt := hgo (by simp) h
          rw [pending]
          omega
        · cases h
    | close read =>
      rw [format] at h
      split at h
      · obtain ⟨out, hout, rfl⟩ := Option.map_eq_some_iff.mp h
        have hle := htext hout
        have hnone : (value (String.ofList read)).count '%' = 0 :=
          List.count_eq_zero_of_not_mem (hvalue _)
        rw [List.count_append, hnone, pending]
        omega
      · cases h

/-- A format that gives itself back has no percent sign, when no value has one. -/
theorem not_mem_of_verbatim (hvalue : ∀ name, '%' ∉ value name) {cs : List Char}
    (h : format value .text cs = some cs) : '%' ∉ cs := by
  rcases count_of_format hvalue h with ⟨-, hnot, -⟩ | hlt
  · exact hnot
  · exact absurd hlt (Nat.lt_irrefl _)

example : format (fun _ ↦ ['1']) .text "50%% of %(x)s".toList = some "50% of 1".toList ∧
    format (fun _ ↦ ['1']) .text "a%20b".toList = none := by decide

end Printf
