import PaymentService.Logger.Masking

/-!
# Patterns that override one another

`addPattern` puts a pattern in front of those there are, so that it decides about the keys it is for.
But `replace` applies every pattern for the key to the value before it takes the first result, and a
pattern that has been overridden can still throw. It takes no other part in the outcome.
-/

namespace PaymentService

/-! ## The first result of many -/

section Head

variable {ε α β : Type} {f : α → Except ε β}

theorem mapM_cons_of_error {x : α} {e : ε} (hx : f x = .error e) (xs : List α) :
    (x :: xs).mapM f = .error e := by
  rw [List.mapM_cons, hx]
  rfl

theorem mapM_cons_of_ok {x : α} {y : β} (hx : f x = .ok y) (xs : List α) :
    (x :: xs).mapM f = (xs.mapM f).map (y :: ·) := by
  rw [List.mapM_cons, hx]
  cases xs.mapM f <;> rfl

theorem mapM_ok_iff {xs : List α} :
    (∃ ys, xs.mapM f = .ok ys) ↔ ∀ x ∈ xs, ∃ y, f x = .ok y := by
  induction xs with
  | nil => exact iff_of_true ⟨[], rfl⟩ fun x hx ↦ absurd hx List.not_mem_nil
  | cons x xs ih =>
    rw [List.forall_mem_cons, ← ih]
    rcases hx : f x with e | y
    · rw [mapM_cons_of_error hx]
      exact iff_of_false (fun ⟨ys, h⟩ ↦ by cases h) fun h ↦ by obtain ⟨⟨y, hy⟩, -⟩ := h; cases hy
    · rw [mapM_cons_of_ok hx]
      rcases hxs : xs.mapM f with e | ys
      · exact iff_of_false (fun ⟨ys, h⟩ ↦ by cases h) fun h ↦ by obtain ⟨-, ys, h⟩ := h; cases h
      · exact iff_of_true ⟨y :: ys, rfl⟩ ⟨⟨y, rfl⟩, ys, rfl⟩

/-- Mapping all elements and taking the first result is mapping the first one, unless it succeeds and
another one throws. -/
theorem head?_mapM_eq_iff (x : α) (xs : List α) (default : β) :
    ((x :: xs).mapM f).map (fun ys ↦ ys.head?.getD default) = f x ↔
      (∃ e, f x = .error e) ∨ ∀ x' ∈ xs, ∃ y, f x' = .ok y := by
  rw [← mapM_ok_iff]
  rcases hx : f x with e | y
  · rw [mapM_cons_of_error hx]
    exact iff_of_true rfl (Or.inl ⟨e, rfl⟩)
  · rw [mapM_cons_of_ok hx]
    rcases hxs : xs.mapM f with e | ys
    · refine iff_of_false (fun h ↦ by cases h) ?_
      rintro (⟨e', h⟩ | ⟨ys, h⟩) <;> cases h
    · exact iff_of_true rfl (Or.inr ⟨ys, rfl⟩)

end Head

/-! ## Which pattern decides -/

/-- The patterns after a sequence of calls of `addPattern`. -/
def registry (added : List PatternReplaceLog) : List PatternReplaceLog :=
  added.foldl (fun registered pattern ↦ addPattern pattern registered) patterns

/-- The pattern that was added last of those for a key, or else the first built-in one. -/
def decisive (added : List PatternReplaceLog) (key : String) : PatternReplaceLog :=
  (added.reverse.find? (·.isPattern key)).getD
    ((patterns.find? (·.isPattern key)).getD defaultPattern)

/-- The other patterns for a key. -/
def overridden (added : List PatternReplaceLog) (key : String) : List PatternReplaceLog :=
  ((registry added).filter (·.isPattern key)).tail

theorem registry_eq (added : List PatternReplaceLog) :
    registry added = added.reverse ++ patterns := by
  have hfold : ∀ registered : List PatternReplaceLog,
      added.foldl (fun registered pattern ↦ addPattern pattern registered) registered =
        added.reverse ++ registered := by
    induction added with
    | nil => exact fun _ ↦ rfl
    | cons pattern added ih =>
      intro registered
      rw [List.foldl_cons, ih, addPattern, List.reverse_cons, List.append_assoc]
      rfl
  exact hfold patterns

theorem filter_registry (added : List PatternReplaceLog) (key : String) :
    (registry added).filter (·.isPattern key) = decisive added key :: overridden added key := by
  have hdefault : defaultPattern ∈ patterns.filter (·.isPattern key) :=
    List.mem_filter.mpr ⟨by simp [patterns], rfl⟩
  have hhead : ((registry added).filter (·.isPattern key)).head? = some (decisive added key) := by
    rw [List.head?_filter, registry_eq, List.find?_append, decisive]
    rcases hadded : added.reverse.find? (·.isPattern key) with _ | pattern
    · rcases hbuilt : patterns.find? (·.isPattern key) with _ | pattern
      · rw [← List.head?_filter, List.head?_eq_none_iff] at hbuilt
        rw [hbuilt] at hdefault
        cases hdefault
      · simp only [hadded, hbuilt, Option.none_or, Option.getD_none, Option.getD_some]
    · simp only [hadded, Option.some_or, Option.getD_some]
  rw [overridden, List.cons_head?_tail hhead]

theorem replace_eq (registered : List PatternReplaceLog) (key : String) (value : Property) :
    replace registered key value =
      ((registered.filter (·.isPattern key)).mapM
        fun pattern : PatternReplaceLog ↦ pattern.mapPattern value).map
          fun mapped ↦ mapped.head?.getD (.data .undefined) := by
  unfold replace
  rcases (registered.filter (·.isPattern key)).mapM
    fun pattern : PatternReplaceLog ↦ pattern.mapPattern value with e | mapped
  · rfl
  · rfl

/-- Whatever patterns have been added: the outcome for a key and a value is that of the decisive
pattern exactly when this one throws itself, or no pattern that it overrides throws. -/
theorem replace_eq_decisive_iff (added : List PatternReplaceLog) (key : String)
    (value : Property) :
    replace (registry added) key value = (decisive added key).mapPattern value ↔
      (∃ e, (decisive added key).mapPattern value = .error e) ∨
        ∀ pattern ∈ overridden added key, ∃ result, pattern.mapPattern value = .ok result := by
  rw [replace_eq, filter_registry]
  exact head?_mapM_eq_iff _ _ _

/-- A pattern that hides whatever stands under `cid`. -/
def hideCid : PatternReplaceLog where
  isPattern key := key = "cid"
  mapPattern _ := .ok (.data (.str "****"))

/-- The pattern that is to hide a number is called, and so is the built-in one, which throws. -/
theorem overridden_pattern_throws :
    (decisive [hideCid] "cid").mapPattern (.data (.num 5)) = .ok (.data (.str "****")) ∧
      replace (registry [hideCid]) "cid" (.data (.num 5)) = .error .typeError ∧
      replace (registry [hideCid]) "cid" (.data (.num 5)) ≠
        (decisive [hideCid] "cid").mapPattern (.data (.num 5)) :=
  ⟨rfl, rfl, fun h ↦ by cases h⟩

end PaymentService
