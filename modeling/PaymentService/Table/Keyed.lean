import Mathlib.Data.List.Nodup
import Mathlib.Data.List.Basic
import Mathlib.Tactic.Common

/-!
# Keyed lists

A table is a list of rows, each with a key: look a row up by its key, replace the row with a given
key, append a row. The lemmas say what each operation does to the others, so that nothing above
this file looks at the order of the rows.

The last section is about a second, partial key, the way a unique index on a nullable column is
one: rows without a value do not take part.
-/

namespace Keyed

variable {α κ : Type} [DecidableEq κ] (key : α → κ)

/-- The row with key `k`. -/
def find (k : κ) (rows : List α) : Option α := rows.find? fun a ↦ key a = k

/-- Put `b` in the place of the row with key `k`. -/
def replace (k : κ) (b : α) (rows : List α) : List α :=
  rows.map fun a ↦ if key a = k then b else a

variable {key}

theorem mem_of_find {k : κ} {rows : List α} {a : α} (h : find key k rows = some a) : a ∈ rows :=
  List.mem_of_find?_eq_some h

theorem key_of_find {k : κ} {rows : List α} {a : α} (h : find key k rows = some a) :
    key a = k := by
  simpa using List.find?_some h

theorem find_eq_none {k : κ} {rows : List α} :
    find key k rows = none ↔ ∀ a ∈ rows, key a ≠ k := by
  simp [find, List.find?_eq_none]

theorem find_eq_some_iff {k : κ} {rows : List α} (hn : (rows.map key).Nodup) {a : α} :
    find key k rows = some a ↔ a ∈ rows ∧ key a = k := by
  constructor
  · exact fun h ↦ ⟨mem_of_find h, key_of_find h⟩
  · rintro ⟨ha, rfl⟩
    rcases hf : find key (key a) rows with _ | b
    · exact absurd rfl (find_eq_none.mp hf a ha)
    · rw [List.inj_on_of_nodup_map hn (mem_of_find hf) ha (key_of_find hf)]

variable (key) in
theorem map_key_replace {k : κ} {b : α} (hb : key b = k) (rows : List α) :
    (replace key k b rows).map key = rows.map key := by
  rw [replace, List.map_map]
  refine List.map_congr_left fun a _ ↦ ?_
  by_cases ha : key a = k
  · simp [ha, hb]
  · simp [ha]

theorem mem_replace {k : κ} {b a : α} {rows : List α} (h : a ∈ replace key k b rows) :
    a = b ∨ (a ∈ rows ∧ key a ≠ k) := by
  obtain ⟨c, hc, rfl⟩ := List.mem_map.mp h
  by_cases hk : key c = k
  · simp [hk]
  · simp [hk, hc]

variable (key) in
theorem mem_replace_self {k : κ} {b a : α} {rows : List α} (ha : a ∈ rows) (hk : key a = k) :
    b ∈ replace key k b rows := List.mem_map.mpr ⟨a, ha, by simp [hk]⟩

theorem find_replace_self {k : κ} {b : α} (hb : key b = k) {rows : List α} {a : α}
    (ha : find key k rows = some a) : find key k (replace key k b rows) = some b := by
  induction rows with
  | nil => exact absurd ha (by simp [find])
  | cons c rows ih =>
    by_cases hc : key c = k
    · simp [find, replace, hc, hb]
    · have ha' : find key k rows = some a := by simpa [find, hc] using ha
      simpa [find, replace, hc] using ih ha'

theorem find_replace_of_ne {k k' : κ} (hk : k' ≠ k) {b : α} (hb : key b = k) (rows : List α) :
    find key k' (replace key k b rows) = find key k' rows := by
  induction rows with
  | nil => rfl
  | cons c rows ih =>
    by_cases hc : key c = k
    · simpa [find, replace, hc, hb, Ne.symm hk] using ih
    · by_cases hc' : key c = k'
      · simp [find, replace, hc', hk]
      · simpa [find, replace, hc, hc'] using ih

/-! ## Putting rows one after the other -/

variable (key) in
/-- Put a row in the place of the one with its key, or behind all of them. -/
def put (b : α) (rows : List α) : List α :=
  if (find key (key b) rows).isSome then replace key (key b) b rows else rows ++ [b]

theorem find_put_self (b : α) (rows : List α) : find key (key b) (put key b rows) = some b := by
  rw [put]
  split
  · next hfound =>
    obtain ⟨a, ha⟩ := Option.isSome_iff_exists.mp hfound
    exact find_replace_self rfl ha
  · next hmissing =>
    rw [Option.not_isSome_iff_eq_none] at hmissing
    rw [find] at hmissing ⊢
    simp [List.find?_append, hmissing]

theorem find_put_of_ne {k : κ} {b : α} (hk : k ≠ key b) (rows : List α) :
    find key k (put key b rows) = find key k rows := by
  rw [put]
  split
  · exact find_replace_of_ne hk rfl rows
  · simp [find, List.find?_append, Ne.symm hk]

theorem find_foldl_put (k : κ) (bs rows : List α) :
    find key k (bs.foldl (fun rows b ↦ put key b rows) rows) =
      (find key k bs.reverse).or (find key k rows) := by
  induction bs generalizing rows with
  | nil => rfl
  | cons b bs ih =>
    have hconcat : find key k (bs.reverse ++ [b]) =
        (find key k bs.reverse).or (find key k [b]) := List.find?_append
    rw [List.foldl_cons, ih, List.reverse_cons, hconcat, Option.or_assoc]
    congr 1
    by_cases hk : k = key b
    · subst hk
      rw [find_put_self]
      simp [find]
    · rw [find_put_of_ne hk]
      simp [find, Ne.symm hk]

/-! ## Partial keys -/

theorem eq_of_nodup_filterMap {β : Type} {f : α → Option β} {rows : List α}
    (hn : (rows.filterMap f).Nodup) {a b : α} (ha : a ∈ rows) (hb : b ∈ rows) {x : β}
    (hfa : f a = some x) (hfb : f b = some x) : a = b := by
  induction rows with
  | nil => exact absurd ha (by simp)
  | cons c rows ih =>
    have hrest : (rows.filterMap f).Nodup := by
      rcases hc : f c with _ | y
      · rwa [List.filterMap_cons_none hc] at hn
      · rw [List.filterMap_cons_some hc] at hn
        exact (List.nodup_cons.mp hn).2
    have hout : f c = some x → ∀ d ∈ rows, f d ≠ some x := by
      intro hc d hd hfd
      rw [List.filterMap_cons_some hc] at hn
      exact (List.nodup_cons.mp hn).1 (List.mem_filterMap.mpr ⟨d, hd, hfd⟩)
    rcases List.mem_cons.mp ha with rfl | ha'
    · rcases List.mem_cons.mp hb with rfl | hb'
      · rfl
      · exact absurd hfb (hout hfa b hb')
    · rcases List.mem_cons.mp hb with rfl | hb'
      · exact absurd hfa (hout hfb a ha')
      · exact ih hrest ha' hb'

/-- A replacement that agrees with the old rows in `f` leaves the values of `f` as they are. -/
theorem filterMap_replace {β : Type} {f : α → Option β} {k : κ} {b : α} {rows : List α}
    (hb : ∀ a ∈ rows, key a = k → f a = f b) :
    (replace key k b rows).filterMap f = rows.filterMap f := by
  rw [replace, List.filterMap_map]
  refine List.filterMap_congr fun a ha ↦ ?_
  by_cases hk : key a = k
  · simp [hk, hb a ha hk]
  · simp [hk]

variable (key) in
/-- A replacement that brings a new value of `f` keeps the values distinct exactly when no other row
has that value. -/
theorem nodup_filterMap_replace {β : Type} (f : α → Option β) {k : κ} {b : α} {rows : List α}
    (hkeys : (rows.map key).Nodup) (hvalues : (rows.filterMap f).Nodup)
    (hk : ∃ a ∈ rows, key a = k) (hbk : key b = k) {x : β} (hbx : f b = some x) :
    ((replace key k b rows).filterMap f).Nodup ↔ ∀ a ∈ rows, key a ≠ k → f a ≠ some x := by
  constructor
  · intro hn a ha hne hfa
    obtain ⟨c, hc, hck⟩ := hk
    have hb : b ∈ replace key k b rows := mem_replace_self key hc hck
    have ha' : a ∈ replace key k b rows := List.mem_map.mpr ⟨a, ha, by simp [hne]⟩
    have hab : a = b := eq_of_nodup_filterMap hn ha' hb hfa hbx
    exact hne (hab ▸ hbk)
  · intro hother
    rw [List.Nodup, List.pairwise_map] at hkeys
    rw [List.Nodup, List.pairwise_filterMap] at hvalues
    rw [replace, List.filterMap_map, List.Nodup, List.pairwise_filterMap]
    refine (hkeys.and hvalues).imp_of_mem fun {a c} ha hc hac y hy z hz ↦ ?_
    -- At most one of two rows with different keys is the replaced one.
    by_cases hak : key a = k
    · have hck : key c ≠ k := fun hck ↦ hac.1 (hak.trans hck.symm)
      simp only [Function.comp, hak, hck, if_true, if_false, hbx] at hy hz
      rintro rfl
      exact hother c hc hck (hz.trans hy.symm)
    · by_cases hck : key c = k
      · simp only [Function.comp, hak, hck, if_true, if_false, hbx] at hy hz
        rintro rfl
        exact hother a ha hak (hy.trans hz.symm)
      · simp only [Function.comp, hak, hck, if_false] at hy hz
        exact hac.2 y hy z hz

end Keyed
