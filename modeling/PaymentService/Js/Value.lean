import Mathlib.Data.List.Infix
import PaymentService.Js.Units

/-!
# JavaScript values

What an untyped request body or a `jsonb` column can hold, plus `undefined`, with the operators the
services apply to such values: truthiness, property access, conversion to text, `+`, and the spread
of one object into another.

Operators that can throw a `TypeError` return an `Option`, with `none` for the exception. That is
property access on `undefined` or `null`, and the conversion of an object whose own `toString`
property is not a function — which, for a value that came out of `JSON.parse`, is every object that
has such a property.

Numbers are exact rationals; `num` is how the runtime prints one, and is a parameter throughout.
-/

/-- A value of the language: what `JSON.parse` returns, and `undefined`. -/
inductive Js : Type
  | undefined
  | null
  | bool (b : Bool)
  | num (q : ℚ)
  | str (s : String)
  | arr (xs : List Js)
  | obj (fields : List (String × Js))

namespace Js

/-! ## Truthiness and properties -/

/-- The value counts as true in a condition. -/
def truthy : Js → Bool
  | undefined => false
  | null => false
  | bool b => b
  | num q => q ≠ 0
  | str s => s ≠ ""
  | arr _ => true
  | obj _ => true

/-- The value is `undefined` or `null`, the two that `?.` and `??` single out. -/
def nullish : Js → Bool
  | undefined => true
  | null => true
  | _ => false

/-- `v.key`, which throws on `undefined` and `null`. Primitives and arrays have none of the
properties that are asked for here. -/
def get? : Js → String → Option Js
  | undefined, _ => none
  | null, _ => none
  | obj fields, key => some ((fields.lookup key).getD undefined)
  | _, _ => some undefined

@[simp] theorem get?_undefined (key : String) : get? undefined key = none := rfl

@[simp] theorem get?_null (key : String) : get? null key = none := rfl

@[simp] theorem get?_obj (fields : List (String × Js)) (key : String) :
    get? (obj fields) key = some ((fields.lookup key).getD undefined) := rfl

/-- `v?.key`. -/
def prop (v : Js) (key : String) : Js := (get? v key).getD undefined

@[simp] theorem prop_obj (fields : List (String × Js)) (key : String) :
    prop (obj fields) key = (fields.lookup key).getD undefined := rfl

theorem get?_of_not_nullish {v : Js} (h : nullish v = false) (key : String) :
    get? v key = some (prop v key) := by
  cases v <;> first | rfl | exact absurd h (by simp [nullish])

/-- `v === 'literal'`. -/
def isStr (v : Js) (literal : String) : Bool :=
  match v with
  | str s => s = literal
  | _ => false

theorem isStr_iff {v : Js} {literal : String} : isStr v literal = true ↔ v = str literal := by
  cases v <;> simp [isStr]

/-- `v || undefined`. -/
def orUndefined (v : Js) : Js := if truthy v then v else undefined

theorem get?_isSome (v : Js) (key : String) : (get? v key).isSome = !nullish v := by
  cases v <;> rfl

/-! ## Strings -/

/-- `s.includes(sub)`. -/
def includes (s sub : String) : Bool := decide (sub.toList <:+: s.toList)

/-- `s.startsWith(prefix)`. -/
def startsWith (s start : String) : Bool := start.toList.isPrefixOf s.toList

/-! ## Spreading

`{ ...v, key: w }` as a column of type `jsonb` stores it: a property set to `undefined` is not
written, and one already there is replaced. -/

/-- The own properties that `...v` contributes; those of a string are its code units. -/
def spread : Js → List (String × Js)
  | obj fields => fields
  | arr xs => xs.mapIdx fun i x ↦ (toString i, x)
  | str s => (codeUnits s).mapIdx fun i u ↦ (toString i, str (ofUnit u).toString)
  | _ => []

theorem spread_of_not_truthy {v : Js} (h : ¬truthy v = true) : spread v = [] := by
  cases v with
  | str s =>
    obtain rfl : s = "" := by simpa [truthy] using h
    rfl
  | arr xs => exact absurd rfl h
  | obj fields => exact absurd rfl h
  | _ => rfl

private theorem lookup_mapIdx {α : Type} (f : α → Js) (xs : List α) {key : String}
    (hkey : ∃ c ∈ key.toList, c.isDigit = false) :
    (xs.mapIdx fun i x ↦ (toString i, f x)).lookup key = none := by
  obtain ⟨c, hc, hdigit⟩ := hkey
  rw [List.lookup_eq_none_iff]
  intro entry hentry
  obtain ⟨i, hi, rfl⟩ := List.mem_mapIdx.mp hentry
  -- An index has digits only.
  rw [bne_iff_ne]
  intro heq
  have hindex : key = Nat.repr i := heq
  rw [hindex, Nat.toList_repr] at hc
  rw [Nat.isDigit_of_mem_toDigits (by decide) (by decide) hc] at hdigit
  cases hdigit

/-- The properties that a spread contributes are those that can be asked for: what an array or a
string contributes is numbered. -/
theorem prop_obj_spread (v : Js) {key : String} (hkey : ∃ c ∈ key.toList, c.isDigit = false) :
    prop (obj v.spread) key = prop v key := by
  cases v with
  | arr xs =>
    have hnone : (spread (arr xs)).lookup key = none := lookup_mapIdx id xs hkey
    rw [prop_obj, hnone]
    rfl
  | str s =>
    have hnone : (spread (str s)).lookup key = none := lookup_mapIdx _ (codeUnits s) hkey
    rw [prop_obj, hnone]
    rfl
  | _ => rfl

/-- Set a property, where setting it to `undefined` leaves it out. -/
def assign (fields : List (String × Js)) (key : String) : Js → List (String × Js)
  | undefined => fields.filter fun f ↦ f.1 ≠ key
  | v => (fields.filter fun f ↦ f.1 ≠ key) ++ [(key, v)]

private theorem lookup_filter_ne (fields : List (String × Js)) {key k : String} (hk : k ≠ key) :
    (fields.filter fun f ↦ f.1 ≠ key).lookup k = fields.lookup k := by
  induction fields with
  | nil => rfl
  | cons f fs ih =>
    by_cases hf : f.1 = key
    · rw [List.filter_cons_of_neg (by simpa using hf), ih, List.lookup_cons,
        beq_eq_false_iff_ne.mpr (by rw [hf]; exact hk)]
    · rw [List.filter_cons_of_pos (by simpa using hf), List.lookup_cons, List.lookup_cons, ih]

theorem lookup_assign_of_ne (fields : List (String × Js)) {key k : String} (v : Js)
    (hk : k ≠ key) : (assign fields key v).lookup k = fields.lookup k := by
  have happ : ∀ w : Js,
      ((fields.filter fun f ↦ f.1 ≠ key) ++ [(key, w)]).lookup k = fields.lookup k := by
    intro w
    rw [List.lookup_append, lookup_filter_ne fields hk, List.lookup_cons,
      beq_eq_false_iff_ne.mpr hk, List.lookup_nil, Option.or_none]
  cases v with
  | undefined => exact lookup_filter_ne fields hk
  | null => exact happ _
  | bool b => exact happ _
  | num q => exact happ _
  | str s => exact happ _
  | arr xs => exact happ _
  | obj fs => exact happ _

/-! ## Text -/

section Text

variable (print : ℚ → String)

mutual

/-- `String(v)`, the conversion a template literal applies. -/
def text : Js → Option String
  | undefined => some "undefined"
  | null => some "null"
  | bool b => some (if b then "true" else "false")
  | num q => some (print q)
  | str s => some s
  | arr xs => (texts xs).map (String.intercalate ",")
  | obj fields => if fields.any (·.1 == "toString") then none else some "[object Object]"

/-- The texts that joining an array puts between the commas: nothing for `undefined` and `null`. -/
def texts : List Js → Option (List String)
  | [] => some []
  | undefined :: xs => (texts xs).map ("" :: ·)
  | null :: xs => (texts xs).map ("" :: ·)
  | x :: xs => (text x).bind fun t ↦ (texts xs).map (t :: ·)

end

/-- `v.toString()`: unlike a template literal, a call on `undefined` or `null` throws. -/
def toStringCall (v : Js) : Option String := if nullish v then none else text print v

/-- `v?.toString() ?? '0'`. -/
def textOrZero (v : Js) : Option String := if nullish v then some "0" else text print v

/-- The number an operand of an addition counts as, `none` standing for `NaN`. -/
def toNumber : Js → Option ℚ
  | null => some 0
  | bool b => some (if b then 1 else 0)
  | num q => some q
  | _ => none

/-- The operand itself when it is a primitive, its text when it is an object or an array. -/
def toPrimitive : Js → Option Js
  | arr xs => (text print (arr xs)).map str
  | obj fields => (text print (obj fields)).map str
  | v => some v

/-- `a + b` on primitives: a concatenation as soon as one of them is a string. -/
def plus (a b : Js) : Option String :=
  match a, b with
  | str s, b => (text print b).map (s ++ ·)
  | a, str t => (text print a).map (· ++ t)
  | a, b =>
    match toNumber a, toNumber b with
    | some x, some y => some (print (x + y))
    | _, _ => some "NaN"

/-- `(a + b).toString()`. -/
def addText (a b : Js) : Option String :=
  (toPrimitive print a).bind fun a ↦ (toPrimitive print b).bind fun b ↦ plus print a b

theorem textOrZero_isSome (v : Js) :
    (textOrZero print v).isSome = true ↔ (text print v).isSome = true := by
  cases v <;> simp [textOrZero, nullish, text]

theorem toStringCall_isSome (v : Js) : (toStringCall print v).isSome = true ↔
    nullish v = false ∧ (text print v).isSome = true := by
  cases v <;> simp [toStringCall, nullish]

/-- Addition throws when an operand has no text, and only then. -/
theorem addText_isSome (a b : Js) : (addText print a b).isSome = true ↔
    (text print a).isSome = true ∧ (text print b).isSome = true := by
  have hprimitive : ∀ v, toPrimitive print v = none ↔ text print v = none := by
    intro v
    cases v <;> simp [toPrimitive, text]
  have htext : ∀ v v', toPrimitive print v = some v' → (text print v').isSome = true := by
    intro v v' h
    cases v <;> simp only [toPrimitive, Option.some.injEq, Option.map_eq_some_iff] at h
    case arr => obtain ⟨t, -, rfl⟩ := h; simp [text]
    case obj => obtain ⟨t, -, rfl⟩ := h; simp [text]
    all_goals subst h; simp [text]
  have hplus : ∀ a b, (text print a).isSome = true → (text print b).isSome = true →
      (plus print a b).isSome = true := by
    intro a b ha hb
    unfold plus
    split
    · simpa using hb
    · simpa using ha
    · split <;> rfl
  rcases ha : toPrimitive print a with _ | a'
  · simp [addText, ha, (hprimitive a).mp ha]
  · rcases hb : toPrimitive print b with _ | b'
    · simp [addText, ha, hb, (hprimitive b).mp hb]
    · have ha' : text print a ≠ none := fun h ↦ by simp [(hprimitive a).mpr h] at ha
      have hb' : text print b ≠ none := fun h ↦ by simp [(hprimitive b).mpr h] at hb
      simp only [addText, ha, hb, Option.bind_some, hplus a' b' (htext a a' ha) (htext b b' hb),
        Option.isSome_iff_ne_none.mpr ha', Option.isSome_iff_ne_none.mpr hb', and_self]

@[simp] theorem text_str (s : String) : text print (str s) = some s := by
  rw [text]

@[simp] theorem text_num (q : ℚ) : text print (num q) = some (print q) := by
  rw [text]

theorem isSome_text_num (q : ℚ) : (text print (num q)).isSome = true := by
  rw [text_num, Option.isSome_some]

@[simp] theorem toStringCall_num (q : ℚ) : toStringCall print (num q) = some (print q) := by
  rw [toStringCall, text_num]
  rfl

@[simp] theorem textOrZero_num (q : ℚ) : textOrZero print (num q) = some (print q) := by
  rw [textOrZero, text_num]
  rfl

@[simp] theorem addText_num (x y : ℚ) :
    addText print (num x) (num y) = some (print (x + y)) := rfl

end Text

/-! ## The character `NUL` -/

mutual

/-- The character `NUL` is nowhere in the value, neither in a text nor in a name. -/
def noNul : Js → Bool
  | str s => s.toList.all (· ≠ '\x00')
  | arr xs => itemsNoNul xs
  | obj fields => fieldsNoNul fields
  | _ => true

def itemsNoNul : List Js → Bool
  | [] => true
  | x :: xs => noNul x && itemsNoNul xs

def fieldsNoNul : List (String × Js) → Bool
  | [] => true
  | (key, v) :: fields => key.toList.all (· ≠ '\x00') && noNul v && fieldsNoNul fields

end

theorem itemsNoNul_iff {xs : List Js} : itemsNoNul xs = true ↔ ∀ x ∈ xs, x.noNul = true := by
  induction xs with
  | nil => simp [itemsNoNul]
  | cons x xs ih => rw [itemsNoNul, Bool.and_eq_true, ih, List.forall_mem_cons]

theorem fieldsNoNul_iff {fields : List (String × Js)} : fieldsNoNul fields = true ↔
    ∀ f ∈ fields, f.1.toList.all (· ≠ '\x00') = true ∧ f.2.noNul = true := by
  induction fields with
  | nil => simp [fieldsNoNul]
  | cons f fields ih =>
    rw [fieldsNoNul, Bool.and_eq_true, Bool.and_eq_true, ih, List.forall_mem_cons]

theorem noNul_prop {v : Js} (h : v.noNul = true) (key : String) : (v.prop key).noNul = true := by
  cases v with
  | obj fields =>
    rw [noNul, fieldsNoNul_iff] at h
    rw [prop_obj]
    rcases hlookup : fields.lookup key with _ | w
    · rfl
    · obtain ⟨before, after, rfl, -⟩ := List.lookup_eq_some_iff.mp hlookup
      exact (h (key, w) (List.mem_append_right _ List.mem_cons_self)).2
  | _ => rfl

theorem noNul_orUndefined {v : Js} (h : v.noNul = true) : v.orUndefined.noNul = true := by
  unfold orUndefined
  split
  · exact h
  · rfl

private theorem all_ne_nul_toString (i : ℕ) : (toString i).toList.all (· ≠ '\x00') = true := by
  have hdigits : (toString i).toList = Nat.toDigits 10 i := Nat.toList_repr
  rw [hdigits, List.all_eq_true]
  intro c hc
  have hdigit := Nat.isDigit_of_mem_toDigits (by decide) (by decide) hc
  refine decide_eq_true fun heq ↦ ?_
  rw [heq] at hdigit
  exact absurd hdigit (by decide)

private theorem ofUnit_ne_nul {c : Char} (hc : c ≠ '\x00') {u : ℕ} (hu : u ∈ units c) :
    ofUnit u ≠ '\x00' := by
  have hpos : u ≠ 0 := by
    rintro rfl
    unfold units at hu
    split at hu
    · refine hc (Char.toNat_inj.mp ?_)
      exact (List.mem_singleton.mp hu).symm
    · simp only [List.mem_cons, List.not_mem_nil, or_false] at hu
      omega
  intro heq
  unfold ofUnit at heq
  split at heq
  · next hvalid =>
    have hnat : (Char.ofNat u).toNat = u := by
      rw [Char.ofNat, dif_pos hvalid]
      rfl
    rw [heq] at hnat
    exact hpos hnat.symm
  · exact absurd heq (by decide)

theorem fieldsNoNul_spread {v : Js} (h : v.noNul = true) : fieldsNoNul v.spread = true := by
  rw [fieldsNoNul_iff]
  cases v with
  | obj fields => exact fieldsNoNul_iff.mp h
  | arr xs =>
    intro f hf
    obtain ⟨i, hi, rfl⟩ := List.mem_mapIdx.mp hf
    exact ⟨all_ne_nul_toString i, itemsNoNul_iff.mp h _ (List.getElem_mem hi)⟩
  | str s =>
    intro f hf
    obtain ⟨i, hi, rfl⟩ := List.mem_mapIdx.mp hf
    obtain ⟨c, hc, hu⟩ := List.mem_flatMap.mp (List.getElem_mem hi)
    have hne : c ≠ '\x00' := of_decide_eq_true (List.all_eq_true.mp h c hc)
    exact ⟨all_ne_nul_toString i, by simpa [noNul] using ofUnit_ne_nul hne hu⟩
  | _ => exact fun f hf ↦ absurd hf List.not_mem_nil

theorem fieldsNoNul_assign {fields : List (String × Js)} {key : String} {v : Js}
    (hfields : fieldsNoNul fields = true) (hkey : key.toList.all (· ≠ '\x00') = true)
    (hv : v.noNul = true) : fieldsNoNul (assign fields key v) = true := by
  rw [fieldsNoNul_iff] at hfields ⊢
  intro f hf
  have hmem : f ∈ (fields.filter fun f ↦ f.1 ≠ key) ∨ f = (key, v) := by
    cases v with
    | undefined => exact Or.inl hf
    | _ => exact (List.mem_append.mp hf).imp_right List.mem_singleton.mp
  rcases hmem with hmem | rfl
  · exact hfields f (List.mem_filter.mp hmem).1
  · exact ⟨hkey, hv⟩

end Js
