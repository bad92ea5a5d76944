import PaymentService.Js.Json

/-!
# Reading JSON

`JSON.parse`. The reader goes through a text construct by construct, as `skipValue` does, and returns
the value as well; so it accepts what `isJson` says that it accepts. The escapes of a string literal
stand for code units. Which number a literal stands for is up to the runtime, and a parameter.
-/

namespace Js

/-! ## String literals -/

def hexDigit (c : Char) : ℕ :=
  if c.isDigit then c.toNat - 0x30 else if 'a' ≤ c then c.toNat - 0x61 + 10 else c.toNat - 0x41 + 10

/-- What the letter after a backslash stands for. -/
def unescape : Char → ℕ
  | 'b' => 0x08
  | 'f' => 0x0c
  | 'n' => 0x0a
  | 'r' => 0x0d
  | 't' => 0x09
  | c => c.toNat

/-- The code units of a string literal after its opening quote. -/
def readString : List Char → Option (List ℕ × List Char)
  | '\\' :: 'u' :: a :: b :: c :: d :: cs =>
    if [a, b, c, d].all isHexDigit then
      (readString cs).map fun (us, rest) ↦
        ([a, b, c, d].foldl (fun u c ↦ 16 * u + hexDigit c) 0 :: us, rest)
    else none
  | '\\' :: c :: cs =>
    if "\x22\\/bfnrt".toList.contains c then
      (readString cs).map fun (us, rest) ↦ (unescape c :: us, rest)
    else none
  | c :: cs =>
    if c = '\x22' then some ([], cs)
    else if c.toNat < 0x20 then none
    else (readString cs).map fun (us, rest) ↦ (units c ++ us, rest)
  | [] => none

theorem map_snd_readString (cs : List Char) : (readString cs).map Prod.snd = skipString cs := by
  induction cs using readString.induct with
  | case1 a b c d cs hhex ih =>
    rw [readString, skipString, if_pos hhex, if_pos hhex, ← ih, Option.map_map]
    rfl
  | case2 a b c d cs hhex => rw [readString, skipString, if_neg hhex, if_neg hhex, Option.map_none]
  | case3 c cs hshort hletter ih =>
    rw [readString, skipString, if_pos hletter, if_pos hletter, ← ih, Option.map_map]
    · rfl
    all_goals exact hshort
  | case4 c cs hshort hletter =>
    rw [readString, skipString, if_neg hletter, if_neg hletter, Option.map_none]
    all_goals exact hshort
  | case5 cs hescape hplain =>
    rw [readString, skipString, if_pos rfl, if_pos rfl, Option.map_some]
    all_goals assumption
  | case6 c cs hescape hplain hquote hcontrol =>
    rw [readString, skipString, if_neg hquote, if_neg hquote, if_pos hcontrol, if_pos hcontrol,
      Option.map_none]
    all_goals assumption
  | case7 c cs hescape hplain hquote hcontrol ih =>
    rw [readString, skipString, if_neg hquote, if_neg hquote, if_neg hcontrol, if_neg hcontrol,
      ← ih, Option.map_map]
    · rfl
    all_goals assumption
  | case8 => rfl

theorem readString_cons {c : Char} (hquote : c ≠ '\x22') (hslash : c ≠ '\\')
    (hcontrol : 0x20 ≤ c.toNat) (cs : List Char) :
    readString (c :: cs) = (readString cs).map fun (us, rest) ↦ (units c ++ us, rest) := by
  rw [readString, if_neg hquote, if_neg (Nat.not_lt.mpr hcontrol)]
  · exact fun a b c' d cs' h ↦ absurd h hslash
  · exact fun c' cs' h ↦ absurd h hslash

/-- A control character is written with its code. -/
theorem readString_control {n : ℕ} (hn : n < 0x20) (cs : List Char) :
    readString ('\\' :: 'u' :: '0' :: '0' :: (n / 16).digitChar :: (n % 16).digitChar :: cs) =
      (readString cs).map fun (us, rest) ↦ (n :: us, rest) := by
  have hdigits : ∀ n < 0x20,
      ['0', '0', (n / 16).digitChar, (n % 16).digitChar].all isHexDigit = true ∧
        ['0', '0', (n / 16).digitChar, (n % 16).digitChar].foldl
          (fun u c ↦ 16 * u + hexDigit c) 0 = n := by
    decide
  obtain ⟨hhex, hvalue⟩ := hdigits n hn
  rw [readString, if_pos hhex, hvalue]

/-- An escaped character is read as its code units. -/
theorem readString_escape (c : Char) (cs : List Char) :
    readString ((escape c).toList ++ cs) =
      (readString cs).map fun (us, rest) ↦ (units c ++ us, rest) := by
  have hunits : ∀ n, c.toNat = n → n < 0x10000 → units c = [n] := by
    intro n hn hlt
    rw [units, hn, if_pos hlt]
  unfold escape
  split
  case h_8 hb ht hn hf hr hquote hslash =>
    split
    · next hcontrol =>
      rw [hunits _ rfl (by omega)]
      simp only [String.toList_append, Char.toString_eq_singleton, String.toList_singleton,
        List.append_assoc, List.singleton_append]
      exact readString_control hcontrol cs
    · next hcontrol =>
      rw [Char.toString_eq_singleton, String.toList_singleton, List.singleton_append]
      exact readString_cons (fun h ↦ hquote (by rw [h]; rfl)) (fun h ↦ hslash (by rw [h]; rfl))
        (Nat.not_lt.mp hcontrol) cs
  all_goals
    rw [hunits _ ‹_› (by decide)]
    rfl

theorem readString_quote (s : List Char) (cs : List Char) :
    readString (s.flatMap (fun c ↦ (escape c).toList) ++ '\x22' :: cs) =
      some (s.flatMap units, cs) := by
  induction s with
  | nil => rfl
  | cons c s ih =>
    rw [List.flatMap_cons, List.append_assoc, readString_escape, ih, List.flatMap_cons]
    rfl

/-! ## Number literals -/

/-- A number literal ends where the text goes on. -/
def Stops (cs : List Char) : Prop := ∀ c ∈ cs.head?, c.isDigit = false ∧ c ≠ '.' ∧ c ≠ 'e' ∧ c ≠ 'E'

def unsigned : List Char → List Char
  | '-' :: cs => cs
  | cs => cs

def skipInteger : List Char → Option (List Char)
  | '0' :: cs => some cs
  | cs => skipDigits cs

def skipFraction : List Char → Option (List Char)
  | '.' :: cs => skipDigits cs
  | cs => some cs

def skipSigned : List Char → Option (List Char)
  | '+' :: cs => skipDigits cs
  | '-' :: cs => skipDigits cs
  | cs => skipDigits cs

theorem skipExponent_cons (c : Char) (cs : List Char) :
    skipExponent (c :: cs) = if c = 'e' || c = 'E' then skipSigned cs else some (c :: cs) := rfl

theorem skipNumber_eq (cs : List Char) :
    skipNumber cs = ((skipInteger (unsigned cs)).bind skipFraction).bind skipExponent := by
  have hfraction : ∀ cs : List Char, (skipFraction cs).bind skipExponent =
      (match cs with
      | '.' :: cs => skipDigits cs >>= skipExponent
      | cs => some cs >>= skipExponent) := by
    intro cs
    unfold skipFraction
    split <;> rfl
  have hinteger : ∀ cs : List Char, ((skipInteger cs).bind skipFraction).bind skipExponent =
      (match cs with
      | '0' :: cs => (skipFraction cs).bind skipExponent
      | cs => (skipDigits cs).bind fun cs ↦ (skipFraction cs).bind skipExponent) := by
    intro cs
    unfold skipInteger
    split
    · rfl
    · rw [Option.bind_assoc]
  rw [hinteger]
  simp only [hfraction]
  rfl

section Append

variable {cs cs' rest : List Char}

theorem skipDigits_append (hrest : Stops rest) (h : skipDigits cs = some cs') :
    skipDigits (cs ++ rest) = some (cs' ++ rest) := by
  match cs, h with
  | c :: cs, h =>
    rw [skipDigits] at h
    split at h
    · next hdigit =>
      obtain rfl := Option.some_inj.mp h
      have hkeep : rest.dropWhile Char.isDigit = rest := by
        match rest, hrest with
        | [], _ => rfl
        | c :: rest, hrest =>
          have hc := (hrest c rfl).1
          rw [List.dropWhile_cons_of_neg (by rw [hc]; decide)]
      rw [List.cons_append, skipDigits, if_pos hdigit, List.dropWhile_append, hkeep]
      split
      · next hempty => rw [List.isEmpty_iff.mp hempty, List.nil_append]
      · rfl
    · cases h

theorem skipInteger_append (hrest : Stops rest) (h : skipInteger cs = some cs') :
    skipInteger (cs ++ rest) = some (cs' ++ rest) := by
  match cs, h with
  | c :: cs, h =>
    by_cases hzero : c = '0'
    · rw [hzero] at h ⊢
      obtain rfl := Option.some_inj.mp h
      rfl
    · have hskip : ∀ cs : List Char, skipInteger (c :: cs) = skipDigits (c :: cs) := fun cs ↦
        skipInteger.eq_2 _ fun cs h ↦ hzero (List.cons.inj h).1
      rw [List.cons_append, hskip, ← List.cons_append]
      rw [hskip] at h
      exact skipDigits_append hrest h

theorem skipSigned_append (hrest : Stops rest) (h : skipSigned cs = some cs') :
    skipSigned (cs ++ rest) = some (cs' ++ rest) := by
  match cs, h with
  | c :: cs, h =>
    by_cases hplus : c = '+'
    · rw [hplus] at h ⊢
      exact skipDigits_append hrest h
    by_cases hminus : c = '-'
    · rw [hminus] at h ⊢
      exact skipDigits_append hrest h
    have hskip : ∀ cs : List Char, skipSigned (c :: cs) = skipDigits (c :: cs) := fun cs ↦
      skipSigned.eq_3 _ (fun cs h ↦ hplus (List.cons.inj h).1) fun cs h ↦ hminus (List.cons.inj h).1
    rw [List.cons_append, hskip, ← List.cons_append]
    rw [hskip] at h
    exact skipDigits_append hrest h

theorem skipExponent_append (hrest : Stops rest) (h : skipExponent cs = some cs') :
    skipExponent (cs ++ rest) = some (cs' ++ rest) := by
  match cs, h with
  | [], h =>
    obtain rfl := Option.some_inj.mp h
    match rest, hrest with
    | [], _ => rfl
    | c :: rest, hrest =>
      obtain ⟨-, -, he, hE⟩ := hrest c rfl
      rw [List.nil_append, skipExponent_cons, if_neg (by simp [he, hE])]
  | c :: cs, h =>
    rw [skipExponent_cons] at h
    rw [List.cons_append, skipExponent_cons]
    split at h
    · next hexponent =>
      rw [if_pos hexponent]
      exact skipSigned_append hrest h
    · next hexponent =>
      rw [if_neg hexponent, ← Option.some_inj.mp h]
      rfl

theorem skipFraction_append (hrest : Stops rest)
    (h : (skipFraction cs).bind skipExponent = some cs') :
    (skipFraction (cs ++ rest)).bind skipExponent = some (cs' ++ rest) := by
  match cs, h with
  | [], h =>
    have hskip : skipFraction rest = some rest := by
      match rest, hrest with
      | [], _ => rfl
      | c :: rest, hrest =>
        exact skipFraction.eq_2 _ fun cs h ↦ (hrest c rfl).2.1 (List.cons.inj h).1
    rw [List.nil_append, hskip]
    have hexponent : skipExponent [] = some cs' := h
    exact skipExponent_append hrest hexponent
  | c :: cs, h =>
    by_cases hpoint : c = '.'
    · rw [hpoint] at h ⊢
      obtain ⟨cs₁, hdigits, hexponent⟩ := Option.bind_eq_some_iff.mp h
      refine Option.bind_eq_some_iff.mpr ⟨cs₁ ++ rest, skipDigits_append hrest hdigits, ?_⟩
      exact skipExponent_append hrest hexponent
    · have hskip : ∀ cs : List Char, skipFraction (c :: cs) = some (c :: cs) := fun cs ↦
        skipFraction.eq_2 _ fun cs h ↦ hpoint (List.cons.inj h).1
      rw [hskip, Option.bind_some] at h
      rw [List.cons_append, hskip, ← List.cons_append]
      exact skipExponent_append hrest h

/-- A literal is read as far as it goes, whatever comes after it. -/
theorem skipNumber_append (hrest : Stops rest) (h : skipNumber cs = some cs') :
    skipNumber (cs ++ rest) = some (cs' ++ rest) := by
  rw [skipNumber_eq, Option.bind_assoc, Option.bind_eq_some_iff] at h
  obtain ⟨cs₁, hinteger, hfraction⟩ := h
  have hunsigned : unsigned (cs ++ rest) = unsigned cs ++ rest := by
    match cs, hinteger with
    | c :: cs, _ =>
      by_cases hminus : c = '-'
      · rw [hminus]
        rfl
      · have hkeep : ∀ cs : List Char, unsigned (c :: cs) = c :: cs := fun cs ↦
          unsigned.eq_2 _ fun cs h ↦ hminus (List.cons.inj h).1
        rw [List.cons_append, hkeep, hkeep, List.cons_append]
  rw [skipNumber_eq, Option.bind_assoc, hunsigned, Option.bind_eq_some_iff]
  exact ⟨cs₁ ++ rest, skipInteger_append hrest hinteger, skipFraction_append hrest hfraction⟩

end Append

/-! ## Values -/

/-- `object[key] = value`; a property that is there keeps its place. -/
def setField {α : Type} (fields : List (String × α)) (field : String × α) : List (String × α) :=
  if fields.any (·.1 = field.1) then fields.map fun old ↦ if old.1 = field.1 then field else old
  else fields ++ [field]

/-- The properties of an object literal: of those with one name, the last. -/
def ofFields (fields : List (String × Js)) : List (String × Js) := fields.foldl setField []

section Read

variable (number : List Char → ℚ)

def readNumber (cs : List Char) : Option (Js × List Char) :=
  (skipNumber cs).map fun rest ↦ (num (number (cs.take (cs.length - rest.length))), rest)

mutual

/-- A value; the fuel bounds the depth of the recursion. -/
def readValue : ℕ → List Char → Option (Js × List Char)
  | 0, _ => none
  | fuel + 1, cs =>
    match skipSpace cs with
    | '\x22' :: cs => (readString cs).map fun (us, rest) ↦ (str (String.ofList (ofUnits us)), rest)
    | '[' :: cs =>
      match skipSpace cs with
      | ']' :: cs => some (arr [], cs)
      | cs => (readItems fuel cs).map fun (xs, rest) ↦ (arr xs, rest)
    | '\x7b' :: cs =>
      match skipSpace cs with
      | '\x7d' :: cs => some (obj [], cs)
      | cs => (readFields fuel cs).map fun (fields, rest) ↦ (obj (ofFields fields), rest)
    | 'n' :: 'u' :: 'l' :: 'l' :: cs => some (null, cs)
    | 't' :: 'r' :: 'u' :: 'e' :: cs => some (bool true, cs)
    | 'f' :: 'a' :: 'l' :: 's' :: 'e' :: cs => some (bool false, cs)
    | cs => readNumber number cs

/-- The items of an array and the bracket after them. -/
def readItems : ℕ → List Char → Option (List Js × List Char)
  | 0, _ => none
  | fuel + 1, cs => do
    let (x, cs) ← readValue fuel cs
    match skipSpace cs with
    | ',' :: cs => (readItems fuel cs).map fun (xs, rest) ↦ (x :: xs, rest)
    | ']' :: cs => some ([x], cs)
    | _ => none

/-- The properties of an object and the brace after them. -/
def readFields : ℕ → List Char → Option (List (String × Js) × List Char)
  | 0, _ => none
  | fuel + 1, cs => do
    match skipSpace cs with
    | '\x22' :: cs =>
      let (us, cs) ← readString cs
      match skipSpace cs with
      | ':' :: cs =>
        let (x, cs) ← readValue fuel cs
        match skipSpace cs with
        | ',' :: cs =>
          (readFields fuel cs).map fun (fields, rest) ↦
            ((String.ofList (ofUnits us), x) :: fields, rest)
        | '\x7d' :: cs => some ([(String.ofList (ofUnits us), x)], cs)
        | _ => none
      | _ => none
    | _ => none

end

/-- `JSON.parse(s)`, which throws when there is no value. -/
def parse (s : String) : Option Js :=
  match readValue number (2 * s.length + 2) s.toList with
  | some (v, cs) => if (skipSpace cs).isEmpty then some v else none
  | none => none

theorem map_snd_read (fuel : ℕ) :
    (∀ cs, (readValue number fuel cs).map Prod.snd = skipValue fuel cs) ∧
      (∀ cs, (readItems number fuel cs).map Prod.snd = skipItems fuel cs) ∧
      ∀ cs, (readFields number fuel cs).map Prod.snd = skipFields fuel cs := by
  induction fuel with
  | zero => exact ⟨fun _ ↦ rfl, fun _ ↦ rfl, fun _ ↦ rfl⟩
  | succ fuel ih =>
    obtain ⟨hvalue, hitems, hfields⟩ := ih
    have hnumber : ∀ cs, (readNumber number cs).map Prod.snd = skipNumber cs := by
      intro cs
      rw [readNumber, Option.map_map]
      exact Option.map_id'
    refine ⟨fun cs ↦ ?_, fun cs ↦ ?_, fun cs ↦ ?_⟩
    · rw [readValue, skipValue]
      generalize skipSpace cs = text
      split
      · rw [Option.map_map]
        exact map_snd_readString _
      · next cs =>
        change _ = match skipSpace cs with
          | ']' :: cs => some cs
          | cs => skipItems fuel cs
        generalize skipSpace cs = text
        split
        · rfl
        · rw [Option.map_map]
          exact hitems _
      · next cs =>
        change _ = match skipSpace cs with
          | '\x7d' :: cs => some cs
          | cs => skipFields fuel cs
        generalize skipSpace cs = text
        split
        · rfl
        · rw [Option.map_map]
          exact hfields _
      · rfl
      · rfl
      · rfl
      · simp_all
    · rw [readItems, skipItems, ← hvalue]
      rcases readValue number fuel cs with _ | ⟨x, cs⟩
      · rfl
      simp only [Option.map_some, bind, Option.bind_some]
      generalize skipSpace cs = text
      split
      · rw [Option.map_map]
        exact hitems _
      · rfl
      · simp_all
    · rw [readFields, skipFields]
      generalize skipSpace cs = text
      split
      · next cs =>
        change _ = skipString cs >>= fun cs ↦
          match skipSpace cs with
          | ':' :: cs =>
            skipValue fuel cs >>= fun cs ↦
              match skipSpace cs with
              | ',' :: cs => skipFields fuel cs
              | '\x7d' :: cs => some cs
              | _ => none
          | _ => none
        rw [← map_snd_readString]
        rcases readString cs with _ | ⟨us, cs⟩
        · rfl
        simp only [Option.map_some, bind, Option.bind_some]
        generalize skipSpace cs = text
        split
        · next cs =>
          change _ = (skipValue fuel cs).bind fun cs ↦
            match skipSpace cs with
            | ',' :: cs => skipFields fuel cs
            | '\x7d' :: cs => some cs
            | _ => none
          rw [← hvalue]
          rcases readValue number fuel cs with _ | ⟨x, cs⟩
          · rfl
          simp only [Option.map_some, Option.bind_some]
          generalize skipSpace cs = text
          split
          · rw [Option.map_map]
            exact hfields _
          · rfl
          · rfl
        · rfl
      · simp_all

/-- `JSON.parse` accepts what `isJson` says that it accepts. -/
theorem isSome_parse (s : String) : (parse number s).isSome = isJson s := by
  rw [parse, isJson, ← (map_snd_read number _).1]
  rcases readValue number (2 * s.length + 2) s.toList with _ | ⟨v, cs⟩
  · rfl
  · rw [Option.map_some]
    dsimp only
    split <;> simp [*]

end Read

end Js
