import PaymentService.Js.Parse
import Mathlib.Data.List.TakeWhile

/-!
# Writing JSON and reading it

What `JSON.stringify` has written is read by `JSON.parse` as a `copy` of the value, whatever its
strings contain and whatever the indentation: `parse_stringify`. The value has to be one that a
program can have, with no two properties of one name, and the runtime has to read the numbers that it
prints.
-/

namespace Js

/-! ## White space -/

def IsSpace (c : Char) : Prop := c = ' ' ∨ c = '\t' ∨ c = '\n' ∨ c = '\r'

instance (c : Char) : Decidable (IsSpace c) :=
  inferInstanceAs (Decidable (c = ' ' ∨ c = '\t' ∨ c = '\n' ∨ c = '\r'))

def Space (cs : List Char) : Prop := ∀ c ∈ cs, IsSpace c

theorem space_nil : Space [] := fun _ h ↦ absurd h List.not_mem_nil

theorem skipSpace_append {ws : List Char} (h : Space ws) (cs : List Char) :
    skipSpace (ws ++ cs) = skipSpace cs := by
  induction ws with
  | nil => rfl
  | cons c ws ih =>
    have hc : (c = ' ' || c = '\t' || c = '\n' || c = '\r') = true := by
      simpa [IsSpace, or_assoc] using h c List.mem_cons_self
    rw [List.cons_append, skipSpace, List.dropWhile_cons, if_pos hc]
    exact ih fun d hd ↦ h d (List.mem_cons_of_mem c hd)

theorem skipSpace_cons {c : Char} (h : ¬IsSpace c) (cs : List Char) :
    skipSpace (c :: cs) = c :: cs := by
  have hc : ¬(c = ' ' || c = '\t' || c = '\n' || c = '\r') = true := by
    simpa [IsSpace, or_assoc] using h
  rw [skipSpace, List.dropWhile_cons, if_neg hc]

theorem stops_cons {c : Char} (h : IsSpace c ∨ c = ',' ∨ c = ']' ∨ c = '\x7d') (cs : List Char) :
    Stops (c :: cs) := by
  intro d hd
  obtain rfl : c = d := Option.some_inj.mp hd
  rcases h with (rfl | rfl | rfl | rfl) | rfl | rfl | rfl <;> decide

theorem stops_append {ws cs : List Char} (hws : Space ws) (hcs : Stops cs) : Stops (ws ++ cs) := by
  match ws with
  | [] => exact hcs
  | c :: ws => exact stops_cons (Or.inl (hws c List.mem_cons_self)) (ws ++ cs)

/-! ## Natural numbers -/

theorem exists_head_toDigits {n : ℕ} (h : 0 < n) :
    ∃ c cs, Nat.toDigits 10 n = c :: cs ∧ c ≠ '0' := by
  have hdigit : ∀ n < 10, 0 < n → n.digitChar ≠ '0' := by decide
  induction n using Nat.strong_induction_on with
  | _ n ih =>
    by_cases hlt : n < 10
    · exact ⟨n.digitChar, [], Nat.toDigits_of_lt_base hlt, hdigit n hlt h⟩
    · obtain ⟨c, cs, hcs, hc⟩ := ih (n / 10) (by omega) (by omega)
      refine ⟨c, cs ++ [(n % 10).digitChar], ?_, hc⟩
      rw [Nat.toDigits_of_base_le (by decide) (by omega), hcs, List.cons_append]

theorem skipNumber_toDigits (n : ℕ) : skipNumber (Nat.toDigits 10 n) = some [] := by
  rcases Nat.eq_zero_or_pos n with rfl | hn
  · rfl
  obtain ⟨c, cs, hcs, hzero⟩ := exists_head_toDigits hn
  have hdigits : ∀ d ∈ c :: cs, d.isDigit = true := by
    rw [← hcs]
    exact fun d hd ↦ Nat.isDigit_of_mem_toDigits (by decide) (by decide) hd
  have hsign : unsigned (c :: cs) = c :: cs := by
    apply unsigned.eq_2
    intro cs' h
    have hdigit := hdigits c List.mem_cons_self
    rw [(List.cons.inj h).1] at hdigit
    cases hdigit
  have hinteger : skipInteger (c :: cs) = some [] := by
    rw [skipInteger.eq_2 _ fun cs' h ↦ hzero (List.cons.inj h).1, skipDigits,
      if_pos (hdigits c List.mem_cons_self), List.dropWhile_eq_nil_iff.mpr]
    exact fun d hd ↦ hdigits d (List.mem_cons_of_mem c hd)
  rw [hcs, skipNumber_eq, hsign, hinteger]
  rfl

/-! ## Texts that have been written -/

section Written

variable {print : ℚ → String} {number : List Char → ℚ} {gap : String}

/-- The runtime prints a number as a literal, and the literal stands for the number. -/
structure Literal (print : ℚ → String) (number : List Char → ℚ) (q : ℚ) : Prop where
  skips : skipNumber (print q).toList = some []
  value : number (print q).toList = q

/-- The number that decimal digits stand for. -/
def natural (cs : List Char) : ℚ := Nat.ofDigitChars 10 cs 0

theorem literal_natural (hprint : ∀ n : ℕ, print n = toString n) (cs : List Char) :
    Literal print natural (natural cs) := by
  have hdigits : (print (natural cs)).toList = Nat.toDigits 10 (Nat.ofDigitChars 10 cs 0) := by
    rw [natural, hprint]
    exact Nat.toList_repr
  refine ⟨by rw [hdigits]; exact skipNumber_toDigits _, ?_⟩
  rw [hdigits, natural, Nat.ofDigitChars_ten_toDigits, natural]

variable (print number) in
mutual

/-- The numbers of the value can be written and read, and no object has two properties of one
name. -/
def Readable : Js → Prop
  | num q => Literal print number q
  | arr xs => ReadableItems xs
  | obj fields => (fields.map Prod.fst).Nodup ∧ ReadableFields fields
  | _ => True

def ReadableItems : List Js → Prop
  | [] => True
  | x :: xs => Readable x ∧ ReadableItems xs

def ReadableFields : List (String × Js) → Prop
  | [] => True
  | (_, x) :: fields => Readable x ∧ ReadableFields fields

end

theorem readableItems_iff {xs : List Js} :
    ReadableItems print number xs ↔ ∀ x ∈ xs, Readable print number x := by
  induction xs with
  | nil => exact iff_of_true True.intro fun x hx ↦ absurd hx List.not_mem_nil
  | cons x xs ih => rw [List.forall_mem_cons, ← ih, ReadableItems]

theorem readableFields_iff {fields : List (String × Js)} :
    ReadableFields print number fields ↔ ∀ field ∈ fields, Readable print number field.2 := by
  induction fields with
  | nil => exact iff_of_true True.intro fun field hfield ↦ absurd hfield List.not_mem_nil
  | cons field fields ih => rw [List.forall_mem_cons, ← ih, ReadableFields]

theorem exists_of_skipNumber {cs cs' : List Char} (h : skipNumber cs = some cs') :
    ∃ c rest, cs = c :: rest ∧ (c = '-' ∨ c.isDigit = true) := by
  rw [skipNumber_eq, Option.bind_assoc, Option.bind_eq_some_iff] at h
  obtain ⟨cs₁, hinteger, -⟩ := h
  match cs, hinteger with
  | c :: cs, hinteger =>
    refine ⟨c, cs, rfl, ?_⟩
    by_cases hminus : c = '-'
    · exact Or.inl hminus
    · have hkeep : unsigned (c :: cs) = c :: cs := unsigned.eq_2 _ fun cs h ↦
        hminus (List.cons.inj h).1
      rw [hkeep] at hinteger
      by_cases hzero : c = '0'
      · rw [hzero]
        exact Or.inr rfl
      · have hskip : skipInteger (c :: cs) = skipDigits (c :: cs) := skipInteger.eq_2 _ fun cs h ↦
          hzero (List.cons.inj h).1
        rw [hskip, skipDigits] at hinteger
        split at hinteger
        · next hdigit => exact Or.inr hdigit
        · cases hinteger

theorem readValue_num {q : ℚ} (hq : Literal print number q) {before rest : List Char}
    (hbefore : Space before) (hrest : Stops rest) (fuel : ℕ) :
    readValue number (fuel + 1) (before ++ ((print q).toList ++ rest)) = some (num q, rest) := by
  obtain ⟨c, cs, hcs, hc⟩ := exists_of_skipNumber hq.skips
  have hspace : ¬IsSpace c := by
    rintro (rfl | rfl | rfl | rfl) <;> simp at hc
  have hread : readNumber number ((print q).toList ++ rest) = some (num q, rest) := by
    rw [readNumber, skipNumber_append hrest hq.skips, Option.map_some, List.nil_append,
      List.length_append, Nat.add_sub_cancel, List.take_left, hq.value]
  rw [readValue, skipSpace_append hbefore, hcs, List.cons_append, skipSpace_cons hspace]
  rw [hcs, List.cons_append] at hread
  split
  case h_7 => exact hread
  all_goals
    next heq =>
      obtain ⟨rfl, -⟩ := List.cons.inj heq
      simp at hc

theorem readValue_str (s : String) {before rest : List Char} (hbefore : Space before) (fuel : ℕ) :
    readValue number (fuel + 1) (before ++ ((quote s).toList ++ rest)) = some (str s, rest) := by
  have hquote : (quote s).toList ++ rest =
      '\x22' :: (s.toList.flatMap (fun c ↦ (escape c).toList) ++ '\x22' :: rest) := by
    simp only [quote, String.toList_append, String.toList_join, List.append_assoc, List.flatMap_map]
    rfl
  rw [readValue, skipSpace_append hbefore, hquote, skipSpace_cons (by decide)]
  change (readString _).map _ = _
  rw [readString_quote, Option.map_some]
  dsimp only
  rw [ofUnits_units, String.ofList_toList]

/-- The members between their brackets, with white space around them and separated by commas. -/
theorem exists_of_enclose (hgap : Space gap.toList) {indent : String} (hindent : Space indent.toList)
    (opening closing : String) {members : List String} (h : members ≠ []) :
    ∃ (before after ws : List Char) (separator : String), Space before ∧ Space after ∧ Space ws ∧
      separator.toList = ',' :: ws ∧
      (enclose gap indent opening closing members).toList =
        opening.toList ++ (before ++ ((separator.intercalate members).toList ++
          (after ++ closing.toList))) := by
  have hnewline : ∀ cs, Space cs → Space ('\n' :: cs) := by
    intro cs hcs c hc
    rcases List.mem_cons.mp hc with rfl | hc
    · exact Or.inr (Or.inr (Or.inl rfl))
    · exact hcs c hc
  have happend : ∀ cs cs', Space cs → Space cs' → Space (cs ++ cs') := by
    intro cs cs' hcs hcs' c hc
    exact (List.mem_append.mp hc).elim (hcs c) (hcs' c)
  unfold enclose
  rw [if_neg (by simpa using h)]
  split
  · refine ⟨[], [], [], ",", space_nil, space_nil, space_nil, rfl, ?_⟩
    simp
  · refine ⟨'\n' :: (indent.toList ++ gap.toList), '\n' :: indent.toList,
      '\n' :: (indent.toList ++ gap.toList), ",\n" ++ indent ++ gap,
      hnewline _ (happend _ _ hindent hgap), hnewline _ hindent,
      hnewline _ (happend _ _ hindent hgap), ?_, ?_⟩
    · simp
    · simp

theorem toList_enclose_nil (indent opening closing : String) :
    (enclose gap indent opening closing []).toList = opening.toList ++ closing.toList :=
  String.toList_append

theorem exists_toList_enclose (gap indent opening closing : String) (members : List String) :
    ∃ cs, (enclose gap indent opening closing members).toList = opening.toList ++ cs := by
  unfold enclose
  split
  · exact ⟨closing.toList, String.toList_append⟩
  split <;> simp only [String.toList_append, List.append_assoc] <;> exact ⟨_, rfl⟩

theorem exists_head_write (gap indent : String) {v : Js} (hv : Readable print number v) :
    ∃ c cs, ((write print gap indent v).getD "null").toList = c :: cs ∧ ¬IsSpace c ∧ c ≠ ']' := by
  match v, hv with
  | undefined, _ => exact ⟨'n', ['u', 'l', 'l'], by rw [write]; rfl, by decide⟩
  | null, _ => exact ⟨'n', ['u', 'l', 'l'], by rw [write]; rfl, by decide⟩
  | bool true, _ => exact ⟨'t', ['r', 'u', 'e'], by rw [write]; rfl, by decide⟩
  | bool false, _ => exact ⟨'f', ['a', 'l', 's', 'e'], by rw [write]; rfl, by decide⟩
  | num q, hq =>
    obtain ⟨c, cs, hcs, hc⟩ := exists_of_skipNumber (Literal.skips hq)
    refine ⟨c, cs, hcs, ?_, ?_⟩
    · rintro (rfl | rfl | rfl | rfl) <;> simp at hc
    · rintro rfl
      simp at hc
  | str s, _ =>
    refine ⟨'\x22', (String.join (s.toList.map escape)).toList ++ "\x22".toList, ?_, by decide⟩
    rw [write, Option.getD_some, quote, String.toList_append, String.toList_append,
      List.append_assoc]
    rfl
  | arr xs, _ =>
    obtain ⟨cs, hcs⟩ := exists_toList_enclose gap indent "[" "]"
      (writeItems print gap (indent ++ gap) xs)
    exact ⟨'[', cs, by rw [write]; exact hcs, by decide⟩
  | obj fields, _ =>
    obtain ⟨cs, hcs⟩ := exists_toList_enclose gap indent "\x7b" "\x7d"
      (writeFields print gap (indent ++ gap) fields)
    exact ⟨'\x7b', cs, by rw [write]; exact hcs, by decide⟩

theorem exists_toList_intercalate (separator : String) (member : String) (members : List String) :
    ∃ cs, (separator.intercalate (member :: members)).toList = member.toList ++ cs := by
  match members with
  | [] => exact ⟨[], by simp⟩
  | next :: members =>
    rw [String.intercalate_cons_cons, String.toList_append, String.toList_append, List.append_assoc]
    exact ⟨_, rfl⟩

theorem exists_head_items (separator gap indent : String) {x : Js} (hx : Readable print number x)
    (xs : List Js) :
    ∃ c cs, (separator.intercalate (writeItems print gap indent (x :: xs))).toList = c :: cs ∧
      ¬IsSpace c ∧ c ≠ ']' := by
  obtain ⟨c, cs, hcs, hc⟩ := exists_head_write gap indent hx
  obtain ⟨cs', hcs'⟩ := exists_toList_intercalate separator
    ((write print gap indent x).getD "null") (writeItems print gap indent xs)
  rw [hcs, List.cons_append] at hcs'
  exact ⟨c, cs ++ cs', by rw [writeItems]; exact hcs', hc⟩

/-! ### Names -/

theorem map_fst_copyFields (fields : List (String × Js)) :
    ((copyFields fields).map Prod.fst).Sublist (fields.map Prod.fst) := by
  induction fields with
  | nil => exact List.Sublist.refl _
  | cons field fields ih =>
    obtain ⟨key, v⟩ := field
    match v with
    | undefined => exact ih.cons key
    | null | bool _ | num _ | str _ | arr _ | obj _ => exact ih.cons_cons key

theorem ofFields_of_nodup {fields : List (String × Js)} (h : (fields.map Prod.fst).Nodup) :
    ofFields fields = fields := by
  have hfold : ∀ acc fields : List (String × Js), ((acc ++ fields).map Prod.fst).Nodup →
      fields.foldl setField acc = acc ++ fields := by
    intro acc fields
    induction fields generalizing acc with
    | nil => exact fun _ ↦ (List.append_nil acc).symm
    | cons field fields ih =>
      intro h
      have hnew : acc.any (·.1 = field.1) = false := by
        rw [List.any_eq_false]
        intro old hold
        simp only [decide_eq_true_eq]
        rw [List.map_append, List.nodup_append] at h
        exact h.2.2 _ (List.mem_map_of_mem hold) _ (List.mem_map_of_mem List.mem_cons_self)
      rw [List.foldl_cons, setField, hnew, if_neg (by decide), ih, List.append_assoc]
      · rfl
      · rwa [List.append_assoc]
  exact hfold [] fields h

theorem exists_head_writeFields {indent : String} {fields : List (String × Js)} {member : String}
    {members : List String} (h : writeFields print gap indent fields = member :: members) :
    ∃ cs, member.toList = '\x22' :: cs := by
  induction fields with
  | nil => cases h
  | cons field fields ih =>
    obtain ⟨key, v⟩ := field
    rw [writeFields] at h
    rcases htext : write print gap indent v with _ | text
    · rw [htext] at h
      exact ih h
    · rw [htext] at h
      obtain ⟨rfl, -⟩ := List.cons.inj h
      simp only [quote, String.toList_append, List.append_assoc]
      exact ⟨_, rfl⟩

theorem copyFields_of_writeFields_nil {indent : String} {fields : List (String × Js)}
    (h : writeFields print gap indent fields = []) : copyFields fields = [] := by
  induction fields with
  | nil => rfl
  | cons field fields ih =>
    obtain ⟨key, v⟩ := field
    rw [writeFields] at h
    rcases htext : write print gap indent v with _ | text
    · rw [htext] at h
      have hdefined := isSome_write print gap indent v
      rw [htext] at hdefined
      cases v with
      | undefined => exact ih h
      | _ => cases hdefined
    · rw [htext] at h
      cases h

/-! ### One construct

What is read when the parts are read: an array from its items, an object from its properties, and a
list of either from the first and from what comes after the comma, if there is one. -/

theorem readValue_bracket {before start cs rest : List Char} {c : Char} {xs : List Js} {fuel : ℕ}
    (hbefore : Space before) (hstart : Space start) (hspace : ¬IsSpace c) (hbracket : c ≠ ']')
    (hitems : readItems number fuel (c :: cs) = some (xs, rest)) :
    readValue number (fuel + 1) (before ++ '[' :: (start ++ c :: cs)) = some (arr xs, rest) := by
  rw [readValue, skipSpace_append hbefore, skipSpace_cons (by decide)]
  simp only [skipSpace_append hstart, skipSpace_cons hspace]
  split
  · next heq => exact absurd (List.cons.inj heq).1 hbracket
  · rw [hitems]
    rfl

theorem readValue_brace {before start cs rest : List Char} {fields : List (String × Js)} {fuel : ℕ}
    (hbefore : Space before) (hstart : Space start)
    (hfields : readFields number fuel ('\x22' :: cs) = some (fields, rest)) :
    readValue number (fuel + 1) (before ++ '\x7b' :: (start ++ '\x22' :: cs)) =
      some (obj (ofFields fields), rest) := by
  have hquote : ¬IsSpace '\x22' := by decide
  rw [readValue, skipSpace_append hbefore, skipSpace_cons (by decide)]
  simp only [skipSpace_append hstart, skipSpace_cons hquote]
  split
  · next heq => exact absurd (List.cons.inj heq).1 (by decide)
  · rw [hfields]
    rfl

theorem readItems_item {cs tail rest : List Char} {x : Js} {xs : List Js} {fuel : ℕ}
    (hvalue : readValue number fuel cs = some (x, tail))
    (htail : (∃ cs', skipSpace tail = ',' :: cs' ∧ readItems number fuel cs' = some (xs, rest)) ∨
      skipSpace tail = ']' :: rest ∧ xs = []) :
    readItems number (fuel + 1) cs = some (x :: xs, rest) := by
  rw [readItems, hvalue]
  simp only [bind, Option.bind_some]
  rcases htail with ⟨cs', htail, hitems⟩ | ⟨htail, rfl⟩
  · rw [htail]
    change (readItems number fuel _).map _ = _
    rw [hitems]
    rfl
  · rw [htail]
    rfl

theorem readFields_field {before tail rest : List Char} {key text : String} {x : Js}
    {fields : List (String × Js)} {fuel : ℕ} (hbefore : Space before)
    (hvalue : ∀ space, Space space →
      readValue number fuel (space ++ (text.toList ++ tail)) = some (x, tail))
    (htail : (∃ cs, skipSpace tail = ',' :: cs ∧ readFields number fuel cs = some (fields, rest)) ∨
      skipSpace tail = '\x7d' :: rest ∧ fields = []) :
    readFields number (fuel + 1)
        (before ++ ((quote key ++ (if gap = "" then ":" else ": ") ++ text).toList ++ tail)) =
      some ((key, x) :: fields, rest) := by
  obtain ⟨space, hspace, hcolon⟩ : ∃ space, Space space ∧
      (if gap = "" then ":" else ": ").toList = ':' :: space := by
    split
    · exact ⟨[], space_nil, rfl⟩
    · exact ⟨[' '], fun _ h ↦ Or.inl (List.mem_singleton.mp h), rfl⟩
  have hquote : (quote key ++ (if gap = "" then ":" else ": ") ++ text).toList ++ tail =
      '\x22' :: (key.toList.flatMap (fun c ↦ (escape c).toList) ++ '\x22' ::
        (':' :: (space ++ (text.toList ++ tail)))) := by
    simp only [quote, String.toList_append, String.toList_join, List.append_assoc,
      List.flatMap_map, hcolon]
    rfl
  rw [readFields, skipSpace_append hbefore, hquote, skipSpace_cons (by decide)]
  change (readString _ >>= _) = _
  rw [readString_quote]
  simp only [bind, Option.bind_some]
  rw [skipSpace_cons (by decide)]
  change (readValue number fuel _).bind _ = _
  rw [hvalue space hspace, ofUnits_units, String.ofList_toList]
  rcases htail with ⟨cs, htail, hfields⟩ | ⟨htail, rfl⟩
  · dsimp only [Option.bind_some]
    rw [htail]
    change (readFields number fuel _).map _ = _
    rw [hfields]
    rfl
  · dsimp only [Option.bind_some]
    rw [htail]
    rfl

/-! ### Members -/

theorem space_append (hgap : Space gap.toList) {indent : String} (hindent : Space indent.toList) :
    Space (indent ++ gap).toList := by
  rw [String.toList_append]
  exact fun c hc ↦ (List.mem_append.mp hc).elim (hindent c) (hgap c)

theorem copyFields_cons_of_write {indent : String} {key text : String} {x : Js}
    (h : write print gap indent x = some text) (fields : List (String × Js)) :
    copyFields ((key, x) :: fields) = (key, copy x) :: copyFields fields := by
  match x, h with
  | null, _ | bool _, _ | num _, _ | str _, _ | arr _, _ | obj _, _ => rfl

theorem copyItems_cons_of_write {indent : String} {text : String} {x : Js}
    (h : write print gap indent x = some text) (xs : List Js) :
    copyItems (x :: xs) = copy x :: copyItems xs := by
  match x, h with
  | null, _ | bool _, _ | num _, _ | str _, _ | arr _, _ | obj _, _ => rfl

mutual

/-- The text of a value is read as a copy of the value. -/
theorem readValue_write (hgap : Space gap.toList) (v : Js) (hv : Readable print number v)
    {indent text : String} (hindent : Space indent.toList)
    (htext : write print gap indent v = some text)
    {before rest : List Char} (hbefore : Space before) (hrest : Stops rest) {fuel : ℕ}
    (hfuel : 2 * text.length ≤ fuel) :
    readValue number fuel (before ++ (text.toList ++ rest)) = some (copy v, rest) := by
  have hpos : 1 ≤ text.length := by
    obtain ⟨c, cs, hcs, -⟩ := exists_head_write gap indent hv
    rw [htext, Option.getD_some] at hcs
    rw [← String.length_toList, hcs]
    exact Nat.succ_pos _
  obtain ⟨fuel, rfl⟩ : ∃ n, fuel = n + 1 := ⟨fuel - 1, by omega⟩
  match v, hv with
  | undefined, _ => cases htext
  | null, _ =>
    obtain rfl := Option.some_inj.mp htext
    rw [readValue, skipSpace_append hbefore]
    rfl
  | bool true, _ =>
    obtain rfl := Option.some_inj.mp htext
    rw [readValue, skipSpace_append hbefore]
    rfl
  | bool false, _ =>
    obtain rfl := Option.some_inj.mp htext
    rw [readValue, skipSpace_append hbefore]
    rfl
  | num q, hq =>
    obtain rfl := Option.some_inj.mp htext
    exact readValue_num hq hbefore hrest fuel
  | str s, _ =>
    obtain rfl := Option.some_inj.mp htext
    exact readValue_str s hbefore fuel
  | arr [], _ =>
    rw [write] at htext
    obtain rfl := Option.some_inj.mp htext
    rw [readValue, skipSpace_append hbefore, writeItems, toList_enclose_nil]
    rfl
  | arr (x :: xs), hxs =>
    rw [write] at htext
    obtain rfl := Option.some_inj.mp htext
    have hne : writeItems print gap (indent ++ gap) (x :: xs) ≠ [] := by
      rw [writeItems]
      exact List.cons_ne_nil _ _
    obtain ⟨start, after, ws, separator, hstart, hafter, hws, hseparator, hlist⟩ :=
      exists_of_enclose hgap hindent "[" "]" hne
    obtain ⟨c, cs, hhead, hspace, hbracket⟩ := exists_head_items separator gap (indent ++ gap) hxs.1 xs
    have hlength := congrArg List.length hlist
    simp only [String.length_toList, List.length_append] at hlength
    have hone : "[".length = 1 := rfl
    have hitems := readItems_write hgap (x :: xs) hxs (List.cons_ne_nil x xs)
      (space_append hgap hindent) hws hseparator space_nil hafter rest (by omega : _ ≤ fuel)
    rw [List.nil_append, hhead] at hitems
    have hread := readValue_bracket hbefore hstart hspace hbracket hitems
    rw [hlist, hhead, copy]
    simpa using hread
  | obj fields, hfields =>
    rw [write] at htext
    obtain rfl := Option.some_inj.mp htext
    have hcopy : ofFields (copyFields fields) = copyFields fields :=
      ofFields_of_nodup ((map_fst_copyFields fields).nodup hfields.1)
    rcases hmembers : writeFields print gap (indent ++ gap) fields with _ | ⟨member, members⟩
    · rw [readValue, skipSpace_append hbefore, toList_enclose_nil, copy,
        copyFields_of_writeFields_nil hmembers]
      rfl
    obtain ⟨start, after, ws, separator, hstart, hafter, hws, hseparator, hlist⟩ :=
      exists_of_enclose hgap hindent "\x7b" "\x7d" (List.cons_ne_nil member members)
    obtain ⟨cs, hhead⟩ : ∃ cs, (separator.intercalate (member :: members)).toList = '\x22' :: cs := by
      obtain ⟨cs, hcs⟩ := exists_head_writeFields hmembers
      obtain ⟨cs', hcs'⟩ := exists_toList_intercalate separator member members
      rw [hcs, List.cons_append] at hcs'
      exact ⟨cs ++ cs', hcs'⟩
    have hlength := congrArg List.length hlist
    rw [hmembers] at hfuel
    simp only [String.length_toList, List.length_append] at hlength
    have hone : "\x7b".length = 1 := rfl
    have hread := readFields_write hgap fields hfields.2 (space_append hgap hindent)
      (by rw [hmembers]; exact List.cons_ne_nil _ _) hws hseparator space_nil hafter rest
      (by rw [hmembers]; omega : _ ≤ fuel)
    rw [hmembers, List.nil_append, hhead] at hread
    have hobject := readValue_brace hbefore hstart hread
    rw [hcopy] at hobject
    rw [hlist, hhead, copy]
    simpa using hobject

theorem readItems_write (hgap : Space gap.toList) (xs : List Js)
    (hxs : ReadableItems print number xs) (hne : xs ≠ []) {indent : String}
    (hindent : Space indent.toList) {separator : String} {ws : List Char}
    (hws : Space ws) (hseparator : separator.toList = ',' :: ws) {before after : List Char}
    (hbefore : Space before) (hafter : Space after) (rest : List Char) {fuel : ℕ}
    (hfuel : 2 * (separator.intercalate (writeItems print gap indent xs)).length + 1 ≤ fuel) :
    readItems number fuel
      (before ++ ((separator.intercalate (writeItems print gap indent xs)).toList ++
        (after ++ ']' :: rest))) = some (copyItems xs, rest) := by
  obtain ⟨fuel, rfl⟩ : ∃ n, fuel = n + 1 := ⟨fuel - 1, by omega⟩
  match xs, hxs with
  | x :: xs, hxs =>
    -- An item without a text is written and read as `null`.
    have hitem : ∀ tail, Stops tail →
        2 * ((write print gap indent x).getD "null").length ≤ fuel →
        ∃ y, readValue number fuel
            (before ++ (((write print gap indent x).getD "null").toList ++ tail)) = some (y, tail) ∧
          copyItems (x :: xs) = y :: copyItems xs := by
      intro tail htail hlength
      rcases htext : write print gap indent x with _ | text
      · have hdefined := isSome_write print gap indent x
        rw [htext] at hdefined hlength
        obtain ⟨fuel, rfl⟩ : ∃ n, fuel = n + 1 :=
          ⟨fuel - 1, by have h4 : "null".length = 4 := rfl; rw [Option.getD_none] at hlength; omega⟩
        match x, hdefined with
        | undefined, _ =>
          refine ⟨null, ?_, rfl⟩
          rw [readValue, skipSpace_append hbefore]
          rfl
      · rw [htext, Option.getD_some] at hlength
        exact ⟨copy x, readValue_write hgap x hxs.1 hindent htext hbefore htail hlength,
          copyItems_cons_of_write htext xs⟩
    match xs with
    | [] =>
      rw [writeItems, writeItems, String.intercalate_singleton] at hfuel ⊢
      obtain ⟨y, hread, hcopy⟩ := hitem (after ++ ']' :: rest)
        (stops_append hafter (stops_cons (Or.inr (Or.inr (Or.inl rfl))) rest)) (by omega)
      rw [hcopy]
      refine readItems_item hread (Or.inr ⟨?_, rfl⟩)
      rw [skipSpace_append hafter, skipSpace_cons (by decide)]
    | x' :: xs =>
      have hmembers : writeItems print gap indent (x :: x' :: xs) =
          (write print gap indent x).getD "null" :: (write print gap indent x').getD "null" ::
            writeItems print gap indent xs := by rw [writeItems, writeItems]
      have hlength := congrArg String.length
        (String.intercalate_cons_cons (s := separator) (t := (write print gap indent x).getD "null")
          (u := (write print gap indent x').getD "null") (l := writeItems print gap indent xs))
      have hcomma := congrArg List.length hseparator
      rw [String.length_append, String.length_append] at hlength
      rw [String.length_toList, List.length_cons] at hcomma
      rw [hmembers] at hfuel ⊢
      have hrest := readItems_write hgap (x' :: xs) hxs.2 (List.cons_ne_nil x' xs) hindent hws
        hseparator hws hafter rest (by rw [writeItems]; omega : _ ≤ fuel)
      rw [writeItems] at hrest
      obtain ⟨y, hread, hcopy⟩ := hitem
        (',' :: (ws ++ ((separator.intercalate ((write print gap indent x').getD "null" ::
          writeItems print gap indent xs)).toList ++ (after ++ ']' :: rest))))
        (stops_cons (Or.inr (Or.inl rfl)) _) (by omega)
      rw [String.intercalate_cons_cons, String.toList_append, String.toList_append, hseparator,
        hcopy]
      simp only [List.append_assoc, List.cons_append]
      exact readItems_item hread (Or.inl ⟨_, skipSpace_cons (by decide) _, hrest⟩)

theorem readFields_write (hgap : Space gap.toList) (fields : List (String × Js))
    (hfields : ReadableFields print number fields)
    {indent : String} (hindent : Space indent.toList)
    (hne : writeFields print gap indent fields ≠ []) {separator : String} {ws : List Char}
    (hws : Space ws) (hseparator : separator.toList = ',' :: ws)
    {before after : List Char} (hbefore : Space before) (hafter : Space after) (rest : List Char)
    {fuel : ℕ}
    (hfuel : 2 * (separator.intercalate (writeFields print gap indent fields)).length + 1 ≤ fuel) :
    readFields number fuel
      (before ++ ((separator.intercalate (writeFields print gap indent fields)).toList ++
        (after ++ '\x7d' :: rest))) = some (copyFields fields, rest) := by
  obtain ⟨fuel, rfl⟩ : ∃ n, fuel = n + 1 := ⟨fuel - 1, by omega⟩
  match fields, hfields with
  | [], _ => exact absurd (by rw [writeFields]) hne
  | (key, x) :: fields, hfields =>
    rcases htext : write print gap indent x with _ | text
    · have hskip : writeFields print gap indent ((key, x) :: fields) =
          writeFields print gap indent fields := by
        rw [writeFields, htext]
      have hdefined := isSome_write print gap indent x
      rw [htext] at hdefined
      rw [hskip] at hne hfuel ⊢
      match x, hdefined with
      | undefined, _ =>
        exact readFields_write hgap fields hfields.2 hindent hne hws hseparator hbefore hafter rest
          hfuel
    · have hmembers : writeFields print gap indent ((key, x) :: fields) =
          (quote key ++ (if gap = "" then ":" else ": ") ++ text) ::
            writeFields print gap indent fields := by
        rw [writeFields, htext]
      rw [hmembers] at hfuel ⊢
      rw [copyFields_cons_of_write htext]
      rcases hnext : writeFields print gap indent fields with _ | ⟨next, members⟩
      · rw [hnext, String.intercalate_singleton, String.length_append] at hfuel
        rw [String.intercalate_singleton, copyFields_of_writeFields_nil hnext]
        have hstops : Stops (after ++ '\x7d' :: rest) :=
          stops_append hafter (stops_cons (Or.inr (Or.inr (Or.inr rfl))) rest)
        refine readFields_field hbefore (fun space hspace ↦ ?_) (Or.inr ⟨?_, rfl⟩)
        · exact readValue_write hgap x hfields.1 hindent htext hspace hstops (by omega)
        · rw [skipSpace_append hafter, skipSpace_cons (by decide)]
      · have hcomma := congrArg List.length hseparator
        rw [String.length_toList, List.length_cons] at hcomma
        rw [hnext, String.intercalate_cons_cons, String.length_append, String.length_append,
          String.length_append] at hfuel
        have hrest := readFields_write hgap fields hfields.2 hindent
          (by rw [hnext]; exact List.cons_ne_nil _ _) hws hseparator hws hafter rest
          (by rw [hnext]; omega : _ ≤ fuel)
        rw [hnext] at hrest
        rw [String.intercalate_cons_cons, String.toList_append, String.toList_append, hseparator,
          List.append_assoc, List.append_assoc, List.cons_append]
        refine readFields_field hbefore (fun space hspace ↦ ?_)
          (Or.inl ⟨_, skipSpace_cons (by decide) _, hrest⟩)
        exact readValue_write hgap x hfields.1 hindent htext hspace
          (stops_cons (Or.inr (Or.inl rfl)) _) (by omega)

end

/-- `JSON.parse(JSON.stringify(v, null, gap))` is a copy of the value. -/
theorem parse_stringify (hgap : Space gap.toList) {v : Js} (hv : Readable print number v)
    {text : String} (htext : stringify print gap v = some text) :
    parse number text = some (copy v) := by
  have hstops : Stops [] := fun _ h ↦ nomatch h
  have hindent : Space "".toList := space_nil
  have hread := readValue_write hgap v hv hindent htext space_nil hstops
    (by omega : _ ≤ 2 * text.length + 2)
  rw [List.nil_append, List.append_nil] at hread
  rw [parse, hread]
  rfl

end Written

end Js
