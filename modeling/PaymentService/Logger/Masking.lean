import PaymentService.Logger.Service

/-!
# What can be logged

With the patterns that the logger comes with, a property can be masked unless it stands under `cid`
and is no string, and what is then in its place can be written unless it was not writable and is no
password. A value all of whose properties are like that is `Harmless`. Logging a request with
harmless headers succeeds exactly when its body and its response are harmless.
-/

namespace PaymentService

/-! ## What the patterns do to a property -/

def isPasswordKey (key : String) : Bool :=
  startPasswordPattern.isPattern key || endPasswordPattern.isPattern key

def isCidKey (key : String) : Bool := cidPattern.isPattern key

/-- The value is a string, or it does not stand under a key that asks for one. -/
def Maskable (key : String) (value : Property) : Prop :=
  isCidKey key = true → ∃ cid, value = .data (.str cid)

/-- What stands in the log for a property. -/
def mask (key : String) (value : Property) : Property :=
  if isPasswordKey key then .data (.str "****")
  else
    match value with
    | .data (.str s) => if isCidKey key then .data (.str (maskCid s)) else value
    | value => value

theorem not_password_of_cid {key : String} (h : isCidKey key = true) : isPasswordKey key = false := by
  have hkey : lowerKey key = "cid".toList := of_decide_eq_true h
  simp only [isPasswordKey, startPasswordPattern, endPasswordPattern, hkey]
  decide

/-- The patterns for a key: the one for a `cid` comes alone before the last, which is for all. -/
theorem filter_patterns_of_cid {key : String} (h : isCidKey key = true) :
    patterns.filter (·.isPattern key) = [cidPattern, defaultPattern] := by
  have hnot := not_password_of_cid h
  have hcid : cidPattern.isPattern key = true := h
  have hdefault : defaultPattern.isPattern key = true := rfl
  rw [isPasswordKey, Bool.or_eq_false_iff] at hnot
  simp [patterns, hnot, hcid, hdefault]

theorem filter_patterns_of_not_cid {key : String} (h : isCidKey key = false) :
    patterns.filter (·.isPattern key) =
      [startPasswordPattern, endPasswordPattern].filter (·.isPattern key) ++ [defaultPattern] := by
  have hcid : cidPattern.isPattern key = false := h
  have hdefault : defaultPattern.isPattern key = true := rfl
  have hsplit : patterns = [startPasswordPattern, endPasswordPattern] ++
    [cidPattern, defaultPattern] := rfl
  rw [hsplit, List.filter_append]
  simp [hcid, hdefault]

theorem replace_of_maskable {key : String} {value : Property} (h : Maskable key value) :
    replace patterns key value = .ok (mask key value) := by
  rcases hcid : isCidKey key with _ | _
  · -- The patterns that match are those for passwords and the last, and none of them throws.
    have hmask : mask key value = if isPasswordKey key then .data (.str "****") else value := by
      unfold mask
      split
      · rfl
      · rw [hcid]
        cases value with
        | data v => cases v <;> rfl
        | cyclic => rfl
    rw [replace, filter_patterns_of_not_cid hcid, hmask, isPasswordKey]
    rcases hstart : startPasswordPattern.isPattern key with _ | _ <;>
      rcases hend : endPasswordPattern.isPattern key with _ | _ <;>
        simp [hstart, hend] <;> rfl
  · obtain ⟨cid, rfl⟩ := h hcid
    rw [replace, filter_patterns_of_cid hcid, mask, not_password_of_cid hcid, hcid]
    rfl

theorem replace_of_not_maskable {key : String} {value : Property} (h : ¬Maskable key value) :
    replace patterns key value = .error .typeError := by
  unfold Maskable at h
  push Not at h
  obtain ⟨hcid, hvalue⟩ := h
  have hthrows : cidPattern.mapPattern value = .error .typeError := by
    rcases value with v | _
    · cases v <;> first | rfl | exact absurd rfl (hvalue _)
    · rfl
  rw [replace, filter_patterns_of_cid hcid, List.mapM_cons, hthrows]
  rfl

/-! ## When a request can be logged -/

section MapM

variable {ε α β : Type} {f : α → Except ε β}

theorem mapM_of_forall {g : α → β} {xs : List α} (h : ∀ x ∈ xs, f x = .ok (g x)) :
    xs.mapM f = .ok (xs.map g) := by
  induction xs with
  | nil => rfl
  | cons x xs ih =>
    rw [List.mapM_cons, h x List.mem_cons_self, ih fun y hy ↦ h y (List.mem_cons_of_mem x hy)]
    rfl

theorem mapM_of_exists {e : ε} {xs : List α} (h : ∃ x ∈ xs, f x = .error e)
    (hone : ∀ x ∈ xs, (∃ y, f x = .ok y) ∨ f x = .error e) : xs.mapM f = .error e := by
  induction xs with
  | nil =>
    obtain ⟨x, hx, -⟩ := h
    cases hx
  | cons x xs ih =>
    rw [List.mapM_cons]
    rcases hone x List.mem_cons_self with ⟨y, hy⟩ | hx
    · obtain ⟨z, hz, herror⟩ := h
      have hz' : z ∈ xs := by
        rcases List.mem_cons.mp hz with rfl | hz
        · rw [hy] at herror
          cases herror
        · exact hz
      rw [hy, ih ⟨z, hz', herror⟩ fun w hw ↦ hone w (List.mem_cons_of_mem x hw)]
      rfl
    · rw [hx]
      rfl

end MapM

namespace Loggable

/-- Each property can be masked, and what is then in its place can be written. -/
def Harmless (v : Loggable) : Prop :=
  ∀ property ∈ v.properties, Maskable property.1 property.2 ∧
    (property.2 = .cyclic → isPasswordKey property.1 = true ∨ property.1 = "__proto__")

theorem properties_orEmpty (v : Loggable) : v.orEmpty.properties = v.properties := by
  cases v with
  | data v =>
    rw [orEmpty]
    split
    · rfl
    · next hfalsy => rw [properties, properties, Js.spread_of_not_truthy hfalsy, List.map_nil]
  | object properties => rfl

theorem entries_orEmpty (v : Loggable) : v.orEmpty.entries = .ok v.properties := by
  rw [← v.properties_orEmpty]
  cases v with
  | data v =>
    rw [orEmpty]
    split
    · next htruthy => cases v <;> first | rfl | cases htruthy
    · rfl
  | object properties => rfl

theorem write_of_forall {properties : List (String × Property)}
    (h : ∀ property ∈ properties, property.2 ≠ .cyclic) :
    ∃ data, (object properties).write = .ok data := by
  have hall : properties.mapM Property.write = .ok (properties.map fun property ↦
      (property.1, match property.2 with
        | .data v => v
        | .cyclic => .undefined)) := by
    refine mapM_of_forall fun property hproperty ↦ ?_
    obtain ⟨key, _ | _⟩ := property
    · rfl
    · exact absurd rfl (h _ hproperty)
  simp only [write, hall, bind, Except.bind]
  exact ⟨_, rfl⟩

theorem write_of_exists {properties : List (String × Property)} {property : String × Property}
    (hmem : property ∈ properties) (h : property.2 = .cyclic) :
    (object properties).write = .error .typeError := by
  have hall : properties.mapM Property.write = .error .typeError := by
    refine mapM_of_exists ⟨property, hmem, ?_⟩ fun other _ ↦ ?_
    · obtain ⟨key, value⟩ := property
      obtain rfl : value = .cyclic := h
      rfl
    · obtain ⟨key, _ | _⟩ := other
      · exact Or.inl ⟨_, rfl⟩
      · exact Or.inr rfl
  simp only [write, hall, bind, Except.bind]

theorem not_cyclic_of_write {v : Loggable} {data : Js} (h : v.write = .ok data)
    {property : String × Property} (hmem : property ∈ v.properties) : property.2 ≠ .cyclic := by
  intro hcyclic
  cases v with
  | data v =>
    obtain ⟨entry, -, rfl⟩ := List.mem_map.mp hmem
    cases hcyclic
  | object properties =>
    have hmem' : property ∈ properties := hmem
    rw [write_of_exists hmem' hcyclic] at h
    cases h

theorem harmless_str (s : String) : (data (.str s)).Harmless := by
  intro property hmem
  obtain ⟨entry, hentry, rfl⟩ := List.mem_map.mp hmem
  obtain ⟨i, hi, rfl⟩ := List.mem_mapIdx.mp hentry
  exact ⟨fun _ ↦ ⟨_, rfl⟩, fun hcyclic ↦ by cases hcyclic⟩

end Loggable

theorem cyclic_of_mask {key : String} {value : Property} (h : mask key value = .cyclic) :
    value = .cyclic ∧ isPasswordKey key = false := by
  unfold mask at h
  split at h
  · cases h
  · next hnot =>
    refine ⟨?_, by simpa using hnot⟩
    split at h
    · split at h <;> cases h
    · exact h

theorem mask_cyclic {key : String} (h : isPasswordKey key = false) : mask key .cyclic = .cyclic := by
  simp [mask, h]

namespace CustomLogger

/-- What a value looks like in the log. -/
def masked (v : Loggable) : Loggable :=
  .object ((v.properties.map fun p ↦ (p.1, mask p.1 p.2)).filter (·.1 ≠ "__proto__"))

theorem replaceAll_of_maskable {v : Loggable}
    (h : ∀ property ∈ v.properties, Maskable property.1 property.2) :
    replaceAll patterns v.orEmpty = .ok (masked v) := by
  have hall : v.properties.mapM (replaceEntry patterns) =
      .ok (v.properties.map fun p ↦ (p.1, mask p.1 p.2)) := by
    refine mapM_of_forall fun property hproperty ↦ ?_
    rw [replaceEntry, replace_of_maskable (h property hproperty)]
    rfl
  simp only [replaceAll, v.entries_orEmpty, bind, Except.bind, hall, masked]

theorem replaceAll_of_not_maskable {v : Loggable} {property : String × Property}
    (hmem : property ∈ v.properties) (h : ¬Maskable property.1 property.2) :
    replaceAll patterns v.orEmpty = .error .typeError := by
  have hall : v.properties.mapM (replaceEntry patterns) = .error .typeError := by
    refine mapM_of_exists ⟨property, hmem, ?_⟩ fun other _ ↦ ?_
    · rw [replaceEntry, replace_of_not_maskable h]
      rfl
    · by_cases hother : Maskable other.1 other.2
      · rw [replaceEntry, replace_of_maskable hother]
        exact Or.inl ⟨_, rfl⟩
      · rw [replaceEntry, replace_of_not_maskable hother]
        exact Or.inr rfl
  simp only [replaceAll, v.entries_orEmpty, bind, Except.bind, hall]

theorem mapObjectWithConfig_shape (v : Loggable) :
    (∃ s, v = .data (.str s) ∧
        mapObjectWithConfig patterns v.orEmpty = .ok (.data (.str s))) ∨
      mapObjectWithConfig patterns v.orEmpty = replaceAll patterns v.orEmpty := by
  unfold mapObjectWithConfig
  split
  · next s hs =>
    split
    · exact Or.inr rfl
    · refine Or.inl ⟨s, ?_, by rw [hs]⟩
      cases v with
      | data v =>
        rw [Loggable.orEmpty] at hs
        split at hs
        · exact hs
        · cases hs
      | object properties => cases hs
  · exact Or.inr rfl

theorem write_masked_of_forall {v : Loggable}
    (h : ∀ property ∈ v.properties, property.2 = .cyclic →
      isPasswordKey property.1 = true ∨ property.1 = "__proto__") :
    ∃ data, (masked v).write = .ok data := by
  refine Loggable.write_of_forall fun property hproperty hcyclic ↦ ?_
  obtain ⟨hin, hproto⟩ := List.mem_filter.mp hproperty
  obtain ⟨old, hold, rfl⟩ := List.mem_map.mp hin
  obtain ⟨hvalue, hnot⟩ := cyclic_of_mask hcyclic
  rcases h old hold hvalue with hpassword | hkey
  · rw [hnot] at hpassword
    cases hpassword
  · exact absurd hkey (by simpa using hproto)

theorem write_masked_of_exists {v : Loggable} {property : String × Property}
    (hmem : property ∈ v.properties) (hcyclic : property.2 = .cyclic)
    (hnot : ¬(isPasswordKey property.1 = true ∨ property.1 = "__proto__")) :
    (masked v).write = .error .typeError := by
  obtain ⟨hpassword, hproto⟩ := not_or.mp hnot
  have hmem : (property.1, mask property.1 property.2) ∈ (masked v).properties :=
    List.mem_filter.mpr ⟨List.mem_map_of_mem hmem, by simpa using hproto⟩
  refine Loggable.write_of_exists hmem ?_
  rw [hcyclic, mask_cyclic (Bool.eq_false_iff.mpr hpassword)]

/-- A value is masked and written, or the language throws on the way. -/
theorem mapObjectWithConfig_cases (v : Loggable) :
    (v.Harmless ∧ ∃ result data, mapObjectWithConfig patterns v.orEmpty = .ok result ∧
        result.write = .ok data) ∨
      (¬v.Harmless ∧ (mapObjectWithConfig patterns v.orEmpty = .error .typeError ∨
        ∃ result, mapObjectWithConfig patterns v.orEmpty = .ok result ∧
          result.write = .error .typeError)) := by
  rcases mapObjectWithConfig_shape v with ⟨s, rfl, hmap⟩ | hmap
  · exact Or.inl ⟨Loggable.harmless_str s, _, _, hmap, rfl⟩
  rw [hmap]
  by_cases hmaskable : ∀ property ∈ v.properties, Maskable property.1 property.2
  swap
  · refine Or.inr ⟨fun h ↦ hmaskable fun property hproperty ↦ (h property hproperty).1, Or.inl ?_⟩
    push Not at hmaskable
    obtain ⟨property, hproperty, hnot⟩ := hmaskable
    exact replaceAll_of_not_maskable hproperty hnot
  rw [replaceAll_of_maskable hmaskable]
  by_cases hwritable : ∀ property ∈ v.properties, property.2 = .cyclic →
      isPasswordKey property.1 = true ∨ property.1 = "__proto__"
  · obtain ⟨data, hdata⟩ := write_masked_of_forall hwritable
    exact Or.inl ⟨fun property hproperty ↦ ⟨hmaskable property hproperty,
      hwritable property hproperty⟩, _, _, rfl, hdata⟩
  · refine Or.inr ⟨fun h ↦ hwritable fun property hproperty ↦ (h property hproperty).2,
      Or.inr ⟨_, rfl, ?_⟩⟩
    obtain ⟨property, hproperty, hnot⟩ := by simpa only [not_forall] using hwritable
    exact write_masked_of_exists hproperty hnot.1 hnot.2

theorem mem_setProperty {properties : List (String × Property)}
    {property other : String × Property} (h : other ∈ setProperty properties property) :
    other ∈ properties ∨ other = property := by
  unfold setProperty at h
  split at h
  · obtain ⟨old, hold, rfl⟩ := List.mem_map.mp h
    split
    · exact Or.inr rfl
    · exact Or.inl hold
  · rcases List.mem_append.mp h with h | h
    · exact Or.inl h
    · exact Or.inr (List.mem_singleton.mp h)

theorem mem_foldl_setProperty {properties base : List (String × Property)}
    {other : String × Property} (h : other ∈ properties.foldl setProperty base) :
    other ∈ base ∨ other ∈ properties := by
  induction properties generalizing base with
  | nil => exact Or.inl h
  | cons property properties ih =>
    rcases ih h with h | h
    · rcases mem_setProperty h with h | rfl
      · exact Or.inl h
      · exact Or.inr List.mem_cons_self
    · exact Or.inr (List.mem_cons_of_mem property h)

section Request

variable (format : LogFormat) (logger : CustomLogger) {req : LogRequest} (execTime : ℤ)
  (timestamp : Date)

/-- A request with harmless headers is logged when its body and its response are harmless, and
otherwise the logger throws. -/
theorem request_cases (hheader : req.reqHeader.Harmless) :
    (req.reqBody.Harmless ∧ req.respBody.Harmless ∧
        ∃ line, request patterns format logger req execTime timestamp = .ok line) ∨
      (¬(req.reqBody.Harmless ∧ req.respBody.Harmless) ∧
        request patterns format logger req execTime timestamp = .error .typeError) := by
  rcases mapObjectWithConfig_cases req.reqHeader with ⟨-, header, data, hmap, hwrite⟩ | ⟨hnot, -⟩
  swap
  · exact absurd hheader hnot
  obtain ⟨logHeader, hlogHeader⟩ : ∃ data, (Loggable.object <| header.properties.foldl setProperty
      [("timestamp", .data (.str (format.toISOString timestamp))), ("level", .data (.str "info")),
        ("ipAddess", .data (textOrUndefined logger.ipAddress))]).write = .ok data := by
    refine Loggable.write_of_forall fun property hproperty ↦ ?_
    rcases mem_foldl_setProperty hproperty with h | h
    · simp only [List.mem_cons, List.not_mem_nil, or_false] at h
      rcases h with rfl | rfl | rfl <;> exact fun hcyclic ↦ by cases hcyclic
    · exact Loggable.not_cyclic_of_write hwrite h
  rcases mapObjectWithConfig_cases req.reqBody with
    ⟨hbody, body, bodyData, hbodyMap, hbodyWrite⟩ | ⟨hbody, hthrows⟩
  · rcases mapObjectWithConfig_cases req.respBody with
      ⟨hresp, resp, respData, hrespMap, hrespWrite⟩ | ⟨hresp, hthrows⟩
    · refine Or.inl ⟨hbody, hresp, ?_⟩
      simp only [request, stringifyMasked, hmap, hbodyMap, hbodyWrite, hrespMap, hrespWrite,
        hlogHeader, bind, Except.bind]
      exact ⟨_, rfl⟩
    · refine Or.inr ⟨fun h ↦ hresp h.2, ?_⟩
      rcases hthrows with hrespMap | ⟨resp, hrespMap, hrespWrite⟩
      · simp only [request, stringifyMasked, hmap, hbodyMap, hbodyWrite, hrespMap, bind,
          Except.bind]
      · simp only [request, stringifyMasked, hmap, hbodyMap, hbodyWrite, hrespMap, hrespWrite, bind,
          Except.bind]
  · refine Or.inr ⟨fun h ↦ hbody h.1, ?_⟩
    rcases hthrows with hbodyMap | ⟨body, hbodyMap, hbodyWrite⟩
    · simp only [request, hmap, hbodyMap, bind, Except.bind]
    · simp only [request, stringifyMasked, hmap, hbodyMap, hbodyWrite, bind, Except.bind]

end Request

end CustomLogger

end PaymentService
