import Mathlib.Data.List.Perm.Subperm
import PaymentService.Logger.Interceptor

/-!
# What the log tells about a body

`mapObjectWithConfig` masks the properties of a body and nothing inside them. So two bodies are logged
alike when they differ in secrets at the top level only, and a secret that stands deeper is printed.

A body that is handed over as its JSON text is not masked at all. The text is parsed, but what is
masked is the text: its code units, under their positions.
-/

namespace PaymentService

/-! ## Secrets -/

/-- Two strings are equally long and differ in the code units that are masked only. -/
structure SameCid (cid cid' : String) : Prop where
  length : (Js.codeUnits cid).length = (Js.codeUnits cid').length
  unmasked : ∀ i, i < 7 ∨ 11 < i → (Js.codeUnits cid)[i]? = (Js.codeUnits cid')[i]?

/-- Two values under a key differ in what the key hides only. -/
def Hidden (key : String) (v v' : Js) : Prop :=
  isPasswordKey key = true ∨
    isCidKey key = true ∧ ∃ cid cid', v = .str cid ∧ v' = .str cid' ∧ SameCid cid cid'

/-- Two properties are the same but for what the key hides. -/
def AlikeField (field field' : String × Js) : Prop :=
  field.1 = field'.1 ∧ (field.2 = field'.2 ∨ Hidden field.1 field.2 field'.2)

mutual

/-- Two values differ in secrets only, at any depth. -/
def Alike : Js → Js → Prop
  | .arr xs, v' => ∃ xs', v' = .arr xs' ∧ AlikeItems xs xs'
  | .obj fields, v' => ∃ fields', v' = .obj fields' ∧ AlikeFields fields fields'
  | v, v' => v = v'

def AlikeItems : List Js → List Js → Prop
  | [], [] => True
  | x :: xs, x' :: xs' => Alike x x' ∧ AlikeItems xs xs'
  | _, _ => False

def AlikeFields : List (String × Js) → List (String × Js) → Prop
  | [], [] => True
  | (key, v) :: fields, (key', v') :: fields' =>
    key = key' ∧ (Alike v v' ∨ Hidden key v v') ∧ AlikeFields fields fields'
  | _, _ => False

end

theorem maskCid_eq {cid cid' : String} (h : SameCid cid cid') : maskCid cid = maskCid cid' := by
  have htake : (Js.codeUnits cid).take 7 = (Js.codeUnits cid').take 7 := by
    refine List.ext_getElem? fun i ↦ ?_
    rw [List.getElem?_take, List.getElem?_take]
    split
    · next hi => exact h.unmasked i (Or.inl hi)
    · rfl
  have hdrop : (Js.codeUnits cid).drop 12 = (Js.codeUnits cid').drop 12 := by
    refine List.ext_getElem? fun i ↦ ?_
    rw [List.getElem?_drop, List.getElem?_drop]
    exact h.unmasked _ (Or.inr (by omega))
  rw [maskCid, maskCid, htake, hdrop]

theorem maskable_of_password {key : String} (h : isPasswordKey key = true) (value : Property) :
    Maskable key value := by
  intro hcid
  rw [not_password_of_cid hcid] at h
  cases h

theorem mask_of_password {key : String} (h : isPasswordKey key = true) (value : Property) :
    mask key value = .data (.str "****") := by
  simp [mask, h]

theorem maskable_str (key s : String) : Maskable key (.data (.str s)) := fun _ ↦ ⟨s, rfl⟩

theorem replace_of_alike {field field' : String × Js} (h : AlikeField field field') :
    replace patterns field.1 (.data field.2) = replace patterns field'.1 (.data field'.2) := by
  obtain ⟨key, v⟩ := field
  obtain ⟨key', v'⟩ := field'
  obtain ⟨rfl, hv⟩ : key = key' ∧ (v = v' ∨ Hidden key v v') := h
  rcases hv with rfl | hpassword | ⟨hcid, cid, cid', rfl, rfl, hsame⟩
  · rfl
  · rw [replace_of_maskable (maskable_of_password hpassword _),
      replace_of_maskable (maskable_of_password hpassword _), mask_of_password hpassword,
      mask_of_password hpassword]
  · rw [replace_of_maskable (maskable_str key _), replace_of_maskable (maskable_str key _)]
    simp only [mask, not_password_of_cid hcid, hcid, Bool.false_eq_true, if_false, if_true,
      maskCid_eq hsame]

/-! ## Two requests that differ in secrets -/

namespace CustomLogger

/-- An object is masked to the same, whatever the secrets among its properties. -/
theorem mapObjectWithConfig_of_alike {fields fields' : List (String × Js)}
    (h : List.Forall₂ AlikeField fields fields') :
    mapObjectWithConfig patterns (.data (.obj fields)) =
      mapObjectWithConfig patterns (.data (.obj fields')) := by
  have hentries : (Loggable.data (.obj fields)).properties.mapM (replaceEntry patterns) =
      (Loggable.data (.obj fields')).properties.mapM (replaceEntry patterns) := by
    simp only [Loggable.properties, Js.spread, List.mapM_map]
    induction h with
    | nil => rfl
    | cons hfield _ ih =>
      have hreplaced := replace_of_alike hfield
      rw [hfield.1] at hreplaced
      simp only [List.mapM_cons, ih, Function.comp_apply, replaceEntry, hfield.1, hreplaced]
  simp only [mapObjectWithConfig, replaceAll, Loggable.entries, hentries, bind, Except.bind]

/-- Requests whose bodies and responses differ in secrets at the top level only are logged alike. -/
theorem request_of_alike (format : LogFormat) (logger : CustomLogger) (req : LogRequest)
    (execTime : ℤ) (timestamp : Date) {body body' resp resp' : List (String × Js)}
    (hbody : List.Forall₂ AlikeField body body') (hresp : List.Forall₂ AlikeField resp resp') :
    request patterns format logger
        { req with reqBody := .data (.obj body), respBody := .data (.obj resp) } execTime
        timestamp =
      request patterns format logger
        { req with reqBody := .data (.obj body'), respBody := .data (.obj resp') } execTime
        timestamp := by
  have hmap : ∀ {fields fields' : List (String × Js)}, List.Forall₂ AlikeField fields fields' →
      mapObjectWithConfig patterns (Loggable.data (.obj fields)).orEmpty =
        mapObjectWithConfig patterns (Loggable.data (.obj fields')).orEmpty :=
    fun h ↦ mapObjectWithConfig_of_alike h
  simp only [request, hmap hbody, hmap hresp]

end CustomLogger

/-- A login, with an answer that is empty. -/
def loginRequest (body : List (String × Js)) : LogRequest where
  method := "POST"
  uri := "/login"
  rawUri := "shop.test/login"
  reqHeader := .object []
  reqBody := .data (.obj body)
  respStatus := 200
  respBody := .data (.obj [])

theorem request_of_alike_logins :
    CustomLogger.request patterns Shop.logFormat {}
        (loginRequest [("user", .str "buyer"), ("password", .str "first")]) 0 0 =
      CustomLogger.request patterns Shop.logFormat {}
        (loginRequest [("user", .str "buyer"), ("password", .str "second")]) 0 0 :=
  CustomLogger.request_of_alike Shop.logFormat {} (loginRequest []) 0 0
    (.cons ⟨rfl, Or.inl rfl⟩ (.cons ⟨rfl, Or.inr (Or.inl rfl)⟩ .nil)) .nil

/-- The two bodies differ in a password only, and it is printed. -/
theorem nested_password_logged :
    AlikeFields [("user", .obj [("password", .str "first")])]
        [("user", .obj [("password", .str "second")])] ∧
      (CustomLogger.request patterns Shop.logFormat {}
          (loginRequest [("user", .obj [("password", .str "first")])]) 0 0).toOption ≠
        (CustomLogger.request patterns Shop.logFormat {}
          (loginRequest [("user", .obj [("password", .str "second")])]) 0 0).toOption := by
  constructor
  · have hfields : AlikeFields [("password", .str "first")] [("password", .str "second")] :=
      ⟨rfl, Or.inr (Or.inl rfl), True.intro⟩
    exact ⟨rfl, Or.inl ⟨_, rfl, hfields⟩, True.intro⟩
  · decide +kernel

/-! ## A body that is handed over as text -/

/-- The code units of a string, under their positions. -/
def unitsOf (s : String) : List (String × Property) :=
  (Js.codeUnits s).mapIdx fun i u ↦ (toString i, .data (.str (Js.ofUnit u).toString))

theorem properties_str (s : String) : (Loggable.data (.str s)).properties = unitsOf s := by
  refine List.ext_getElem? fun i ↦ ?_
  simp only [Loggable.properties, Js.spread, unitsOf, List.getElem?_map, List.getElem?_mapIdx]
  rcases (Js.codeUnits s)[i]? with _ | u
  · rfl
  · rfl

theorem toString_injective : Function.Injective (toString : ℕ → String) := by
  intro i j h
  have hdigits : Nat.toDigits 10 i = Nat.toDigits 10 j := by
    rw [← Nat.toList_repr, ← Nat.toList_repr]
    exact congrArg String.toList h
  rw [← Nat.ofDigitChars_ten_toDigits (n := i), hdigits, Nat.ofDigitChars_ten_toDigits]

private theorem isAlpha_of_mem_lowerKey_toString {i : ℕ} {c : Char}
    (h : c ∈ lowerKey (toString i)) : c.isAlpha = false := by
  obtain ⟨digit, hmem, rfl⟩ := List.mem_map.mp h
  have hdigits : (toString i).toList = Nat.toDigits 10 i := Nat.toList_repr
  rw [hdigits] at hmem
  have hdigit := Nat.isDigit_of_mem_toDigits (by decide) (by decide) hmem
  simp only [Char.isDigit, Bool.and_eq_true, decide_eq_true_eq] at hdigit
  have hlower : digit.toLower = digit := dif_neg fun hupper ↦ by grind
  rw [hlower]
  have halpha : digit.isAlpha = (decide (digit.val ≥ 'A'.val ∧ digit.val ≤ 'Z'.val) ||
      decide (digit.val ≥ 'a'.val) && decide (digit.val ≤ 'z'.val)) := rfl
  simp only [halpha, Bool.or_eq_false_iff, Bool.and_eq_false_iff, decide_eq_false_iff_not]
  grind

theorem isPasswordKey_toString (i : ℕ) : isPasswordKey (toString i) = false := by
  have hnot : ∀ {letters : List Char}, (∃ c ∈ letters, c.isAlpha = true) →
      letters ⊆ lowerKey (toString i) → False := by
    rintro letters ⟨c, hc, halpha⟩ hsubset
    rw [isAlpha_of_mem_lowerKey_toString (hsubset hc)] at halpha
    cases halpha
  rw [isPasswordKey, Bool.or_eq_false_iff]
  constructor
  · refine Bool.eq_false_iff.mpr fun hstart ↦ ?_
    exact hnot ⟨'p', by decide, rfl⟩ (List.isPrefixOf_iff_prefix.mp hstart).subset
  · refine Bool.eq_false_iff.mpr fun hend ↦ ?_
    have hreversed := List.isPrefixOf_iff_prefix.mp (Bool.and_eq_true_iff.mp hend).1
    exact hnot ⟨'p', by decide, rfl⟩ fun c hc ↦ List.mem_reverse.mp (hreversed.subset hc)

theorem isCidKey_toString (i : ℕ) : isCidKey (toString i) = false := by
  refine Bool.eq_false_iff.mpr fun hcid ↦ ?_
  have hkey : lowerKey (toString i) = "cid".toList := of_decide_eq_true hcid
  have halpha := isAlpha_of_mem_lowerKey_toString (i := i) (c := 'c') (by rw [hkey]; decide)
  exact absurd halpha (by decide)

theorem mask_unitsOf {s : String} {property : String × Property} (h : property ∈ unitsOf s) :
    Maskable property.1 property.2 ∧ mask property.1 property.2 = property.2 ∧
      property.1 ≠ "__proto__" := by
  obtain ⟨i, hi, rfl⟩ := List.mem_mapIdx.mp h
  refine ⟨maskable_str _ _, ?_, fun hproto ↦ ?_⟩
  · simp only [mask, isPasswordKey_toString, isCidKey_toString, Bool.false_eq_true, if_false]
  · have hkey : toString i = "__proto__" := hproto
    have halpha := isAlpha_of_mem_lowerKey_toString (i := i) (c := 'p') (by rw [hkey]; decide)
    exact absurd halpha (by decide)

namespace CustomLogger

/-- What a text is logged as has its code units for properties, whether or not it is JSON. -/
theorem mapObjectWithConfig_str (s : String) :
    ∃ result, mapObjectWithConfig patterns (.data (.str s)) = .ok result ∧
      result.properties = unitsOf s := by
  rcases hjson : Js.isJson s with _ | _
  · exact ⟨.data (.str s), by simp [mapObjectWithConfig, hjson], properties_str s⟩
  · have hentries : (Loggable.data (.str s)).entries = .ok (unitsOf s) := by
      rw [← properties_str]
      rfl
    have hall : (unitsOf s).mapM (replaceEntry patterns) = .ok ((unitsOf s).map id) := by
      refine mapM_of_forall fun property hproperty ↦ ?_
      obtain ⟨hmaskable, hmask, -⟩ := mask_unitsOf hproperty
      rw [replaceEntry, replace_of_maskable hmaskable, hmask]
      rfl
    have hkept : (unitsOf s).filter (·.1 ≠ "__proto__") = unitsOf s :=
      List.filter_eq_self.mpr fun property hproperty ↦ by simpa using (mask_unitsOf hproperty).2.2
    refine ⟨.object (unitsOf s), ?_, rfl⟩
    simp only [mapObjectWithConfig, hjson, if_true, replaceAll, hentries, hall, List.map_id, bind,
      Except.bind, hkept]

theorem mem_of_mapObjectWithConfig {fields : List (String × Js)} {result : Loggable}
    (h : mapObjectWithConfig patterns (.data (.obj fields)) = .ok result)
    {property : String × Property} (hmem : property ∈ result.properties) :
    ∃ field ∈ fields, property = (field.1, mask field.1 (.data field.2)) := by
  have hreplace : replaceAll patterns (Loggable.data (.obj fields)).orEmpty = .ok result := h
  by_cases hall : ∀ property ∈ (Loggable.data (.obj fields)).properties,
      Maskable property.1 property.2
  · rw [replaceAll_of_maskable hall, Except.ok.injEq] at hreplace
    subst hreplace
    obtain ⟨old, hold, rfl⟩ := List.mem_map.mp (List.mem_filter.mp hmem).1
    obtain ⟨field, hfield, rfl⟩ := List.mem_map.mp hold
    exact ⟨field, hfield, rfl⟩
  · push Not at hall
    obtain ⟨other, hother, hnot⟩ := hall
    rw [replaceAll_of_not_maskable hother hnot] at hreplace
    cases hreplace

/-- The text of an object has a code unit under whose position the object has none. -/
theorem exists_mem_unitsOf {fields : List (String × Js)} {text : String}
    (h : fields.countP (fun field ↦ Js.isDefined field.2) < text.length) :
    ∃ property ∈ unitsOf text, ∀ field ∈ fields,
      property ≠ (field.1, mask field.1 (.data field.2)) := by
  by_contra hnone
  push Not at hnone
  -- Then every position is the key of a property that is not `undefined`.
  have hsubset : (List.range text.length).map toString ⊆
      (fields.filter fun field ↦ Js.isDefined field.2).map Prod.fst := by
    intro key hkey
    obtain ⟨i, hi, rfl⟩ := List.mem_map.mp hkey
    have hi' : i < (Js.codeUnits text).length :=
      lt_of_lt_of_le (List.mem_range.mp hi) (Js.length_le_length_codeUnits text)
    obtain ⟨field, hfield, heq⟩ := hnone _ (List.mem_mapIdx.mpr ⟨i, hi', rfl⟩)
    obtain ⟨hfst, hsnd⟩ := Prod.mk.inj heq
    refine List.mem_map.mpr ⟨field, List.mem_filter.mpr ⟨hfield, ?_⟩, hfst.symm⟩
    rw [← hfst] at hsnd
    obtain ⟨key, v⟩ := field
    cases v with
    | undefined =>
      simp only [mask, isPasswordKey_toString, Bool.false_eq_true, if_false] at hsnd
      cases hsnd
    | _ => rfl
  have hnodup : ((List.range text.length).map (toString : ℕ → String)).Nodup :=
    List.nodup_range.map toString_injective
  have hle := (List.subperm_of_subset hnodup hsubset).length_le
  rw [List.length_map, List.length_range, List.length_map, ← List.countP_eq_length_filter] at hle
  exact absurd h (Nat.not_lt.mpr hle)

/-- An object is never logged as its JSON text is. A text that is no JSON is logged unchanged. -/
theorem mapObjectWithConfig_text (number : ℚ → String) (fields : List (String × Js))
    (registered : List PatternReplaceLog) (s : String) :
    mapObjectWithConfig patterns
        (.data (textOrUndefined (Js.stringify number "" (.obj fields)))) ≠
      mapObjectWithConfig patterns (.data (.obj fields)) ∧
    (Js.isJson s = false →
      mapObjectWithConfig registered (.data (.str s)) = .ok (.data (.str s))) := by
  constructor
  · intro heq
    obtain ⟨text, htext, hlt⟩ := Js.countP_lt_length_stringify number fields
    obtain ⟨result, hresult, hproperties⟩ := mapObjectWithConfig_str text
    rw [htext, textOrUndefined, hresult] at heq
    obtain ⟨property, hproperty, hnone⟩ := exists_mem_unitsOf hlt
    rw [← hproperties] at hproperty
    obtain ⟨field, hfield, hsame⟩ := mem_of_mapObjectWithConfig heq.symm hproperty
    exact hnone field hfield hsame
  · intro hjson
    simp only [mapObjectWithConfig, hjson, Bool.false_eq_true, if_false]

end CustomLogger

/-- A password, masked in the object and spelled out in the log of its text. -/
theorem password_in_text_logged :
    CustomLogger.mapObjectWithConfig patterns (.data (.obj [("password", .str "abc")])) =
        .ok (.object [("password", .data (.str "****"))]) ∧
      ∃ properties, CustomLogger.mapObjectWithConfig patterns
          (.data (CustomLogger.textOrUndefined
            (Js.stringify Shop.logFormat.number "" (.obj [("password", .str "abc")])))) =
          .ok (.object properties) ∧
        properties.map Prod.fst = (List.range 18).map toString ∧
        (properties.drop 13).take 3 =
          [("13", .data (.str "a")), ("14", .data (.str "b")), ("15", .data (.str "c"))] ∧
        CustomLogger.mapObjectWithConfig patterns
          (.data (CustomLogger.textOrUndefined
            (Js.stringify Shop.logFormat.number "" (.obj [("password", .str "abc")])))) ≠
          CustomLogger.mapObjectWithConfig patterns (.data (.obj [("password", .str "abc")])) := by
  have htext : CustomLogger.textOrUndefined
      (Js.stringify Shop.logFormat.number "" (.obj [("password", .str "abc")])) =
        .str "\x7b\x22password\x22:\x22abc\x22\x7d" := rfl
  have hjson : Js.isJson "\x7b\x22password\x22:\x22abc\x22\x7d" = true := by decide +kernel
  have hobject : CustomLogger.mapObjectWithConfig patterns
      (.data (.obj [("password", .str "abc")])) =
        .ok (.object [("password", .data (.str "****"))]) := rfl
  refine ⟨hobject, ?_⟩
  rw [htext, hobject]
  simp only [CustomLogger.mapObjectWithConfig, hjson, if_true]
  refine ⟨_, rfl, rfl, rfl, fun h ↦ ?_⟩
  -- Eighteen properties are not one.
  have hlength := congrArg List.length (Loggable.object.inj (Except.ok.inj h))
  exact absurd hlength (by decide)

end PaymentService
