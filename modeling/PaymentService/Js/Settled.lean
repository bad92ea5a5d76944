import PaymentService.Js.RoundTrip

/-!
# Values that have been read

What `JSON.parse` returns has no two properties of one name and nothing that is `undefined`. So it
can be written again, and is the same when that is read; `Settled` says this of a value, and `Stable`
of one that may itself be `undefined`, such as a property that is not there.
-/

namespace Js

/-! ## Object literals -/

section SetField

variable {α : Type} {fields base : List (String × α)}

theorem lookup_eq_none {key : String} (h : key ∉ fields.map Prod.fst) : fields.lookup key = none := by
  refine List.lookup_eq_none_iff.mpr fun field hfield ↦ bne_iff_ne.mpr fun heq ↦ h ?_
  rw [heq]
  exact List.mem_map_of_mem hfield

theorem lookup_of_mem (h : (fields.map Prod.fst).Nodup) {key : String} {v : α}
    (hmem : (key, v) ∈ fields) : fields.lookup key = some v := by
  induction fields with
  | nil => cases hmem
  | cons field fields ih =>
    obtain ⟨hname, hnodup⟩ := List.nodup_cons.mp h
    rw [List.lookup_cons]
    rcases List.mem_cons.mp hmem with rfl | hmem
    · rw [beq_self_eq_true]
    · have hkey : key ∈ fields.map Prod.fst := List.mem_map.mpr ⟨(key, v), hmem, rfl⟩
      have hne : key ≠ field.1 := by
        rintro rfl
        exact hname hkey
      rw [beq_eq_false_iff_ne.mpr hne]
      exact ih hnodup hmem

theorem nodup_setField (h : (base.map Prod.fst).Nodup) (field : String × α) :
    ((setField base field).map Prod.fst).Nodup := by
  unfold setField
  split
  · have hnames : (base.map fun old ↦ if old.1 = field.1 then field else old).map Prod.fst =
        base.map Prod.fst := by
      rw [List.map_map]
      refine List.map_congr_left fun old _ ↦ ?_
      by_cases hname : old.1 = field.1 <;> simp [hname]
    rwa [hnames]
  · next hnew =>
    rw [List.map_append, List.nodup_append]
    refine ⟨h, List.nodup_cons.mpr ⟨List.not_mem_nil, List.nodup_nil⟩,
      fun name hname name' hname' heq ↦ hnew ?_⟩
    obtain ⟨old, hold, rfl⟩ := List.mem_map.mp hname
    rw [List.mem_singleton.mp hname'] at heq
    exact List.any_eq_true.mpr ⟨old, hold, decide_eq_true heq⟩

theorem nodup_foldl_setField (h : (base.map Prod.fst).Nodup) (fields : List (String × α)) :
    ((fields.foldl setField base).map Prod.fst).Nodup := by
  induction fields generalizing base with
  | nil => exact h
  | cons field fields ih => exact ih (nodup_setField h field)

theorem mem_setField {field f : String × α} (h : f ∈ setField base field) :
    f = field ∨ f ∈ base := by
  unfold setField at h
  split at h
  · obtain ⟨old, hold, rfl⟩ := List.mem_map.mp h
    split
    · exact Or.inl rfl
    · exact Or.inr hold
  · rcases List.mem_append.mp h with h | h
    · exact Or.inr h
    · exact Or.inl (List.mem_singleton.mp h)

theorem lookup_setField (base : List (String × α)) (field : String × α) (key : String) :
    (setField base field).lookup key = if key = field.1 then some field.2 else base.lookup key := by
  have hreplaced : (base.map fun old ↦ if old.1 = field.1 then field else old).lookup key =
      if key = field.1 then (base.lookup key).map fun _ ↦ field.2 else base.lookup key := by
    induction base with
    | nil => split <;> rfl
    | cons old base ih =>
      rw [List.map_cons, List.lookup_cons, List.lookup_cons, ih]
      by_cases hold : old.1 = field.1
      · rw [if_pos hold, hold]
        by_cases hkey : key = field.1
        · simp [hkey]
        · rw [beq_eq_false_iff_ne.mpr hkey]
      · rw [if_neg hold]
        by_cases hkey : key = field.1
        · rw [hkey, beq_eq_false_iff_ne.mpr (Ne.symm hold)]
        · rw [if_neg hkey, if_neg hkey]
  unfold setField
  split
  · next hany =>
    obtain ⟨old, hold, hname⟩ := List.any_eq_true.mp hany
    rw [hreplaced]
    by_cases hkey : key = field.1
    · rw [if_pos hkey, if_pos hkey]
      rcases hfound : base.lookup key with _ | v
      · have hnot := List.lookup_eq_none_iff.mp hfound old hold
        rw [hkey, of_decide_eq_true hname, bne_self_eq_false] at hnot
        cases hnot
      · rfl
    · rw [if_neg hkey, if_neg hkey]
  · next hnew =>
    rw [List.lookup_append, List.lookup_cons]
    by_cases hkey : key = field.1
    · have hnone : base.lookup key = none := by
        refine List.lookup_eq_none_iff.mpr fun old hold ↦ bne_iff_ne.mpr fun heq ↦ hnew ?_
        exact List.any_eq_true.mpr ⟨old, hold, decide_eq_true (heq.symm.trans hkey)⟩
      rw [if_pos hkey, hnone, beq_iff_eq.mpr hkey]
      rfl
    · rw [if_neg hkey, beq_eq_false_iff_ne.mpr hkey, List.lookup_nil, Option.or_none]

theorem lookup_foldl_setField (h : (fields.map Prod.fst).Nodup) (base : List (String × α))
    (key : String) :
    (fields.foldl setField base).lookup key = (fields.lookup key).or (base.lookup key) := by
  induction fields generalizing base with
  | nil => rfl
  | cons field fields ih =>
    obtain ⟨hname, hnodup⟩ := List.nodup_cons.mp h
    rw [List.foldl_cons, ih hnodup, lookup_setField, List.lookup_cons]
    by_cases hkey : key = field.1
    · rw [if_pos hkey, lookup_eq_none (hkey ▸ hname), beq_iff_eq.mpr hkey]
      rfl
    · rw [if_neg hkey, beq_eq_false_iff_ne.mpr hkey]

end SetField

theorem nodup_ofFields (fields : List (String × Js)) : ((ofFields fields).map Prod.fst).Nodup := by
  have hnil : (([] : List (String × Js)).map Prod.fst).Nodup := List.nodup_nil
  exact nodup_foldl_setField hnil fields

theorem mem_of_mem_ofFields {fields : List (String × Js)} {f : String × Js}
    (h : f ∈ ofFields fields) : f ∈ fields := by
  have hfold : ∀ acc : List (String × Js), f ∈ fields.foldl setField acc →
      f ∈ acc ∨ f ∈ fields := by
    clear h
    induction fields with
    | nil => exact fun _ h ↦ Or.inl h
    | cons field fields ih =>
      intro acc h
      rcases ih _ h with h | h
      · rcases mem_setField h with rfl | h
        · exact Or.inr List.mem_cons_self
        · exact Or.inl h
      · exact Or.inr (List.mem_cons_of_mem _ h)
  exact (hfold [] h).resolve_left List.not_mem_nil

/-! ## Settled values -/

section Settled

variable {print : ℚ → String} {number : List Char → ℚ}

variable (print number) in
/-- The value can be written and read, and is the same afterwards. -/
structure Stable (v : Js) : Prop where
  readable : Readable print number v
  copy_eq : copy v = v

variable (print number) in
structure Settled (v : Js) : Prop extends Stable print number v where
  isDefined : isDefined v = true

theorem Settled.arr {xs : List Js} (h : ∀ x ∈ xs, Settled print number x) :
    Settled print number (arr xs) := by
  have hcopy : copyItems xs = xs := by
    induction xs with
    | nil => rfl
    | cons x xs ih =>
      have hxs := ih fun y hy ↦ h y (List.mem_cons_of_mem x hy)
      obtain ⟨⟨-, hx⟩, hdefined⟩ := h x List.mem_cons_self
      match x, hdefined with
      | null, _ | bool _, _ | num _, _ | str _, _ | .arr _, _ | .obj _, _ =>
        rw [copyItems, hxs, hx]
        simp
  exact ⟨⟨readableItems_iff.mpr fun x hx ↦ (h x hx).readable, by rw [copy, hcopy]⟩, rfl⟩

theorem Settled.obj {fields : List (String × Js)} (hnodup : (fields.map Prod.fst).Nodup)
    (h : ∀ field ∈ fields, Settled print number field.2) : Settled print number (obj fields) := by
  have hcopy : copyFields fields = fields := by
    clear hnodup
    induction fields with
    | nil => rfl
    | cons field fields ih =>
      have hfields := ih fun f hf ↦ h f (List.mem_cons_of_mem field hf)
      obtain ⟨key, x⟩ := field
      obtain ⟨⟨-, hx⟩, hdefined⟩ := h (key, x) List.mem_cons_self
      match x, hdefined with
      | null, _ | bool _, _ | num _, _ | str _, _ | .arr _, _ | .obj _, _ =>
        rw [copyFields, hfields, hx]
        simp
  have hreadable := readableFields_iff.mpr fun field hfield ↦ (h field hfield).readable
  exact ⟨⟨⟨hnodup, hreadable⟩, by rw [copy, hcopy]⟩, rfl⟩

theorem settled_read (hnumber : ∀ cs, Literal print number (number cs)) (fuel : ℕ) :
    (∀ cs v rest, readValue number fuel cs = some (v, rest) → Settled print number v) ∧
      (∀ cs xs rest, readItems number fuel cs = some (xs, rest) →
        ∀ x ∈ xs, Settled print number x) ∧
      ∀ cs fields rest, readFields number fuel cs = some (fields, rest) →
        ∀ field ∈ fields, Settled print number field.2 := by
  induction fuel with
  | zero =>
    exact ⟨fun _ _ _ h ↦ (by cases h), fun _ _ _ h ↦ (by cases h), fun _ _ _ h ↦ (by cases h)⟩
  | succ fuel ih =>
    obtain ⟨hvalue, hitems, hfields⟩ := ih
    refine ⟨fun cs v rest h ↦ ?_, fun cs xs rest h ↦ ?_, fun cs fields rest h ↦ ?_⟩
    · rw [readValue] at h
      generalize skipSpace cs = text at h
      split at h
      · obtain ⟨read, -, heq⟩ := Option.map_eq_some_iff.mp h
        obtain ⟨rfl, -⟩ := Prod.mk.inj heq
        exact ⟨⟨True.intro, rfl⟩, rfl⟩
      · next cs =>
        dsimp only at h
        generalize skipSpace cs = text at h
        split at h
        · obtain ⟨rfl, -⟩ := Prod.mk.inj (Option.some_inj.mp h)
          exact Settled.arr fun x hx ↦ absurd hx List.not_mem_nil
        · obtain ⟨⟨xs, rest'⟩, hread, heq⟩ := Option.map_eq_some_iff.mp h
          obtain ⟨rfl, -⟩ := Prod.mk.inj heq
          exact Settled.arr (hitems _ xs rest' hread)
      · next cs =>
        dsimp only at h
        generalize skipSpace cs = text at h
        split at h
        · obtain ⟨rfl, -⟩ := Prod.mk.inj (Option.some_inj.mp h)
          exact Settled.obj List.nodup_nil fun field hfield ↦ absurd hfield List.not_mem_nil
        · obtain ⟨⟨fields, rest'⟩, hread, heq⟩ := Option.map_eq_some_iff.mp h
          obtain ⟨rfl, -⟩ := Prod.mk.inj heq
          exact Settled.obj (nodup_ofFields fields) fun field hfield ↦
            hfields _ fields rest' hread field (mem_of_mem_ofFields hfield)
      · obtain ⟨rfl, -⟩ := Prod.mk.inj (Option.some_inj.mp h)
        exact ⟨⟨True.intro, rfl⟩, rfl⟩
      · obtain ⟨rfl, -⟩ := Prod.mk.inj (Option.some_inj.mp h)
        exact ⟨⟨True.intro, rfl⟩, rfl⟩
      · obtain ⟨rfl, -⟩ := Prod.mk.inj (Option.some_inj.mp h)
        exact ⟨⟨True.intro, rfl⟩, rfl⟩
      · obtain ⟨rest', -, heq⟩ := Option.map_eq_some_iff.mp h
        obtain ⟨rfl, -⟩ := Prod.mk.inj heq
        exact ⟨⟨hnumber _, rfl⟩, rfl⟩
    · rw [readItems] at h
      obtain ⟨⟨x, cs'⟩, hread, h⟩ := Option.bind_eq_some_iff.mp h
      have hx := hvalue cs x cs' hread
      dsimp only at h
      generalize skipSpace cs' = text at h
      split at h
      · obtain ⟨⟨xs', rest'⟩, hread', heq⟩ := Option.map_eq_some_iff.mp h
        obtain ⟨rfl, -⟩ := Prod.mk.inj heq
        exact List.forall_mem_cons.mpr ⟨hx, hitems _ xs' rest' hread'⟩
      · obtain ⟨rfl, -⟩ := Prod.mk.inj (Option.some_inj.mp h)
        exact List.forall_mem_singleton.mpr hx
      · cases h
    · rw [readFields] at h
      generalize skipSpace cs = text at h
      split at h
      · obtain ⟨⟨us, cs'⟩, -, h⟩ := Option.bind_eq_some_iff.mp h
        dsimp only at h
        generalize skipSpace cs' = text at h
        split at h
        · obtain ⟨⟨x, cs''⟩, hread, h⟩ := Option.bind_eq_some_iff.mp h
          have hx := hvalue _ x cs'' hread
          dsimp only at h
          generalize skipSpace cs'' = text at h
          split at h
          · obtain ⟨⟨fields', rest'⟩, hread', heq⟩ := Option.map_eq_some_iff.mp h
            obtain ⟨rfl, -⟩ := Prod.mk.inj heq
            exact List.forall_mem_cons.mpr ⟨hx, hfields _ fields' rest' hread'⟩
          · obtain ⟨rfl, -⟩ := Prod.mk.inj (Option.some_inj.mp h)
            exact List.forall_mem_singleton.mpr hx
          · cases h
        · cases h
      · cases h

/-- What `JSON.parse` returns can be written, and is the same when it is read again. -/
theorem settled_of_parse (hnumber : ∀ cs, Literal print number (number cs)) {s : String} {v : Js}
    (h : parse number s = some v) : Settled print number v := by
  unfold parse at h
  split at h
  · next hread =>
    split at h
    · obtain rfl := Option.some_inj.mp h
      exact (settled_read hnumber _).1 _ _ _ hread
    · cases h
  · cases h

mutual

theorem settled_copy (v : Js) (hv : Readable print number v) (hdefined : v.isDefined = true) :
    Settled print number (copy v) := by
  match v, hv, hdefined with
  | null, _, _ | bool _, _, _ | str _, _, _ => exact ⟨⟨True.intro, rfl⟩, rfl⟩
  | num q, hq, _ => exact ⟨⟨hq, rfl⟩, rfl⟩
  | .arr xs, hxs, _ => exact Settled.arr (settled_copyItems xs hxs)
  | .obj fields, hfields, _ =>
    exact Settled.obj ((map_fst_copyFields fields).nodup hfields.1)
      (settled_copyFields fields hfields.2)

theorem settled_copyItems (xs : List Js) (hxs : ReadableItems print number xs) :
    ∀ x ∈ copyItems xs, Settled print number x := by
  match xs, hxs with
  | [], _ => exact fun x hx ↦ absurd hx List.not_mem_nil
  | undefined :: xs, hxs =>
    exact List.forall_mem_cons.mpr ⟨⟨⟨True.intro, rfl⟩, rfl⟩, settled_copyItems xs hxs.2⟩
  | null :: xs, hxs | bool _ :: xs, hxs | num _ :: xs, hxs | str _ :: xs, hxs | .arr _ :: xs, hxs
  | .obj _ :: xs, hxs =>
    exact List.forall_mem_cons.mpr ⟨settled_copy _ hxs.1 rfl, settled_copyItems xs hxs.2⟩

theorem settled_copyFields (fields : List (String × Js))
    (hfields : ReadableFields print number fields) :
    ∀ field ∈ copyFields fields, Settled print number field.2 := by
  match fields, hfields with
  | [], _ => exact fun field hfield ↦ absurd hfield List.not_mem_nil
  | (_, undefined) :: fields, hfields => exact settled_copyFields fields hfields.2
  | (_, null) :: fields, hfields | (_, bool _) :: fields, hfields | (_, num _) :: fields, hfields
  | (_, str _) :: fields, hfields | (_, .arr _) :: fields, hfields
  | (_, .obj _) :: fields, hfields =>
    exact List.forall_mem_cons.mpr ⟨settled_copy _ hfields.1 rfl, settled_copyFields fields hfields.2⟩

end

/-! ## Properties -/

theorem lookup_copyFields {fields : List (String × Js)} (h : (fields.map Prod.fst).Nodup)
    (key : String) : ((copyFields fields).lookup key).getD undefined =
      copy ((fields.lookup key).getD undefined) := by
  induction fields with
  | nil => rfl
  | cons field fields ih =>
    obtain ⟨name, x⟩ := field
    obtain ⟨hname, hnodup⟩ := List.nodup_cons.mp h
    rw [List.lookup_cons]
    by_cases hkey : key = name
    · subst hkey
      rw [beq_self_eq_true]
      match x with
      | undefined =>
        -- No other property of that name is there to be found.
        have hnone : (copyFields fields).lookup key = none :=
          lookup_eq_none fun hcopied ↦ hname ((map_fst_copyFields fields).subset hcopied)
        rw [copyFields, hnone]
        rfl
      | null | bool _ | num _ | str _ | .arr _ | .obj _ =>
        rw [copyFields, List.lookup_cons, beq_self_eq_true]
        · rfl
        all_goals simp
    · rw [beq_eq_false_iff_ne.mpr hkey]
      match x with
      | undefined =>
        rw [copyFields]
        exact ih hnodup
      | null | bool _ | num _ | str _ | .arr _ | .obj _ =>
        rw [copyFields, List.lookup_cons, beq_eq_false_iff_ne.mpr hkey]
        · exact ih hnodup
        all_goals simp

theorem prop_copy {v : Js} (hv : Readable print number v) (key : String) :
    (copy v).prop key = copy (v.prop key) := by
  match v, hv with
  | obj fields, hfields => exact lookup_copyFields hfields.1 key
  | undefined, _ | null, _ | bool _, _ | num _, _ | str _, _ | .arr _, _ => rfl

theorem Readable.prop {v : Js} (hv : Readable print number v) (key : String) :
    Readable print number (v.prop key) := by
  match v, hv with
  | obj fields, hfields =>
    rw [prop_obj]
    rcases hfound : fields.lookup key with _ | x
    · exact True.intro
    · obtain ⟨before, after, rfl, -⟩ := List.lookup_eq_some_iff.mp hfound
      exact readableFields_iff.mp hfields.2 _ (List.mem_append_right _ List.mem_cons_self)
  | undefined, _ | null, _ | bool _, _ | num _, _ | str _, _ | .arr _, _ => exact True.intro

theorem Stable.prop {v : Js} (hv : Stable print number v) (key : String) :
    Stable print number (v.prop key) where
  readable := hv.readable.prop key
  copy_eq := by rw [← prop_copy hv.readable, hv.copy_eq]

end Settled
end Js
