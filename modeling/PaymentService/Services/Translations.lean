import PaymentService.Js.Number
import PaymentService.Table.Keyed

/-!
# Translations of a notification

`getCompactTranslationMap` collects the translations of a text by their language codes and makes one
English and one Thai text of them. It looks for the English text under `en-US`, which the default map
does not have, and for the Thai text under `en-TH`; only when there is an empty text it looks further.
So there is no English text at all without an entry for `en-US`, and the English of Thailand passes for
Thai. When both texts are right is `compact_iff`.
-/

namespace PaymentService

/-- An entry of a list of translations: its language code, and the texts it has by field names. -/
structure TranslationEntry where
  languagesCode : String
  text : String → Option String

/-- The properties of a map from language codes to texts, in the order in which they were set. -/
abbrev TranslationMapType : Type := List (String × String)

structure CompactTranslation where
  en : Option String
  th : Option String
  deriving DecidableEq

def DefaultTranslation : TranslationMapType := [("en-TH", ""), ("th-TH", "")]

/-- `trim` of `lodash`; of `undefined` it is the empty text. -/
def trimText (text : Option String) : String := String.ofList (Js.trim (text.getD "").toList)

def getTranslationMap (translationList : List TranslationEntry) (fieldName : String)
    (defaultTranslationMap : TranslationMapType := DefaultTranslation) : TranslationMapType :=
  translationList.foldl
    (fun acc cur ↦ Keyed.put Prod.fst (cur.languagesCode, trimText (cur.text fieldName)) acc)
    defaultTranslationMap

/-- The property of a map under a language code. -/
def TranslationMapType.get (translationMap : TranslationMapType) (lang : String) : Option String :=
  (Keyed.find Prod.fst lang translationMap).map Prod.snd

/-- The text under a preferred code, or when this is empty, the first text that is not empty under a
code that starts with the language. -/
def TranslationMapType.langText (translationMap : TranslationMapType) (preferred start : String) :
    Option String :=
  let text := translationMap.get preferred
  if text = some "" then
    match (translationMap.map Prod.fst).find? fun lang ↦
      Js.startsWith lang start && translationMap.get lang ≠ some "" with
    | some langCode => translationMap.get langCode
    | none => text
  else text

def shortenLangCode (translationMap : TranslationMapType) : CompactTranslation where
  en := translationMap.langText "en-US" "en"
  th := translationMap.langText "en-TH" "th"

def getCompactTranslationMap (translationList : List TranslationEntry) (fieldName : String)
    (defaultTranslationMap : TranslationMapType := DefaultTranslation) : CompactTranslation :=
  shortenLangCode (getTranslationMap translationList fieldName defaultTranslationMap)

/-! ## What a text should be -/

/-- The text that a code ends up with: that of the last entry with the code. -/
def finalText (translationList : List TranslationEntry) (fieldName lang : String) :
    Option String :=
  (translationList.reverse.find? (·.languagesCode = lang)).map fun entry ↦
    trimText (entry.text fieldName)

/-- A code of the language ends up with the text, which is not empty. -/
def HasText (translationList : List TranslationEntry) (fieldName start text : String) : Prop :=
  ∃ lang, Js.startsWith lang start = true ∧
    finalText translationList fieldName lang = some text ∧ text ≠ ""

/-- The result is a text of the language, or empty when there is none. -/
structure RightText (translationList : List TranslationEntry) (fieldName start : String)
    (result : Option String) : Prop where
  found : ∀ text, HasText translationList fieldName start text →
    ∃ text', HasText translationList fieldName start text' ∧ result = some text'
  blank : (∀ text, ¬HasText translationList fieldName start text) → result = some ""

section

variable (translationList : List TranslationEntry) (fieldName : String)

theorem get_getTranslationMap (lang : String) :
    (getTranslationMap translationList fieldName).get lang =
      (finalText translationList fieldName lang).or (DefaultTranslation.get lang) := by
  have hfold : getTranslationMap translationList fieldName =
      (translationList.map fun entry ↦ (entry.languagesCode, trimText (entry.text fieldName))).foldl
        (fun acc entry ↦ Keyed.put Prod.fst entry acc) DefaultTranslation := by
    rw [List.foldl_map]
    rfl
  have hlast : finalText translationList fieldName lang =
      (Keyed.find Prod.fst lang (translationList.map fun entry ↦
        (entry.languagesCode, trimText (entry.text fieldName))).reverse).map Prod.snd := by
    rw [Keyed.find, ← List.map_reverse, List.find?_map, Option.map_map]
    rfl
  rw [hlast, TranslationMapType.get, hfold, Keyed.find_foldl_put, Option.map_or,
    TranslationMapType.get]

theorem text_of_default {lang text : String} (h : DefaultTranslation.get lang = some text) :
    text = "" := by
  have hempty : ∀ entry ∈ DefaultTranslation, entry.2 = "" := by decide
  obtain ⟨entry, hfind, rfl⟩ := Option.map_eq_some_iff.mp h
  exact hempty entry (Keyed.mem_of_find hfind)

theorem hasText_iff {start text : String} :
    HasText translationList fieldName start text ↔ ∃ lang, Js.startsWith lang start = true ∧
      (getTranslationMap translationList fieldName).get lang = some text ∧ text ≠ "" := by
  refine exists_congr fun lang ↦ and_congr_right fun _ ↦ and_congr_left fun hne ↦ ?_
  rw [get_getTranslationMap]
  rcases finalText translationList fieldName lang with _ | text'
  · rw [Option.none_or]
    exact iff_of_false (fun h ↦ by cases h) fun h ↦ hne (text_of_default h)
  · rw [Option.some_or]

theorem langText_of_ne {translationMap : TranslationMapType} {preferred : String}
    (h : translationMap.get preferred ≠ some "") (start : String) :
    translationMap.langText preferred start = translationMap.get preferred := if_neg h

theorem rightText_of_empty {preferred start : String}
    (h : (getTranslationMap translationList fieldName).get preferred = some "") :
    RightText translationList fieldName start
      ((getTranslationMap translationList fieldName).langText preferred start) := by
  rw [TranslationMapType.langText, if_pos h]
  rcases hfind : ((getTranslationMap translationList fieldName).map Prod.fst).find? fun lang ↦
    Js.startsWith lang start && (getTranslationMap translationList fieldName).get lang ≠ some ""
    with _ | lang
  · -- No code of the language has a text that is not empty.
    have hnone : ∀ text, ¬HasText translationList fieldName start text := by
      rw [List.find?_eq_none] at hfind
      intro text htext
      obtain ⟨lang, hstart, hget, hne⟩ := (hasText_iff translationList fieldName).mp htext
      obtain ⟨entry, hentry, rfl⟩ := Option.map_eq_some_iff.mp hget
      refine hfind lang (List.mem_map.mpr ⟨entry, Keyed.mem_of_find hentry,
        Keyed.key_of_find hentry⟩) ?_
      rw [hstart, hget, Bool.true_and, decide_eq_true_eq]
      exact fun hempty ↦ hne (Option.some_inj.mp hempty)
    exact ⟨fun text htext ↦ absurd htext (hnone text), fun _ ↦ h⟩
  · have hchecked := List.find?_some hfind
    rw [Bool.and_eq_true, decide_eq_true_eq] at hchecked
    obtain ⟨entry, hentry, hcode⟩ := List.mem_map.mp (List.mem_of_find?_eq_some hfind)
    have hsome : ∃ text, (getTranslationMap translationList fieldName).get lang = some text := by
      rcases hget : Keyed.find Prod.fst lang (getTranslationMap translationList fieldName) with
        _ | other
      · exact absurd hcode (Keyed.find_eq_none.mp hget entry hentry)
      · exact ⟨other.2, by rw [TranslationMapType.get, hget, Option.map_some]⟩
    obtain ⟨text, htext⟩ := hsome
    have hhas : HasText translationList fieldName start text :=
      (hasText_iff translationList fieldName).mpr ⟨lang, hchecked.1, htext, fun hempty ↦
        hchecked.2 (by rw [htext, hempty])⟩
    exact ⟨fun _ _ ↦ ⟨text, hhas, htext⟩, fun hnone ↦ absurd hhas (hnone text)⟩

/-- With a text under the preferred code, the result is right when this is empty or of the language. -/
theorem rightText_iff {preferred start text : String}
    (h : (getTranslationMap translationList fieldName).get preferred = some text) :
    RightText translationList fieldName start
        ((getTranslationMap translationList fieldName).langText preferred start) ↔
      (text ≠ "" → HasText translationList fieldName start text) := by
  by_cases hempty : text = ""
  · subst hempty
    exact iff_of_true (rightText_of_empty translationList fieldName h) fun hne ↦ absurd rfl hne
  have hother : (getTranslationMap translationList fieldName).get preferred ≠ some "" := by
    rw [h]
    exact fun heq ↦ hempty (Option.some_inj.mp heq)
  rw [langText_of_ne hother, h]
  constructor
  · intro hright _
    by_contra hnot
    by_cases hany : ∃ text', HasText translationList fieldName start text'
    · obtain ⟨text', htext'⟩ := hany
      obtain ⟨found, hfound, heq⟩ := hright.found text' htext'
      exact hnot (Option.some_inj.mp heq ▸ hfound)
    · exact hempty (Option.some_inj.mp (hright.blank fun text' h ↦ hany ⟨text', h⟩))
  · intro hhas
    exact ⟨fun _ _ ↦ ⟨text, hhas hempty, rfl⟩, fun hnone ↦ absurd (hhas hempty) (hnone text)⟩

theorem finalText_eq_none_iff {lang : String} :
    finalText translationList fieldName lang = none ↔
      ¬∃ entry ∈ translationList, entry.languagesCode = lang := by
  simp [finalText, List.find?_eq_none]

/-- The English text is right exactly when there is an entry for `en-US`. -/
theorem rightText_en_iff :
    RightText translationList fieldName "en"
        (getCompactTranslationMap translationList fieldName).en ↔
      ∃ entry ∈ translationList, entry.languagesCode = "en-US" := by
  rw [getCompactTranslationMap, shortenLangCode]
  have hget := get_getTranslationMap translationList fieldName "en-US"
  have hdefault : DefaultTranslation.get "en-US" = none := rfl
  rw [hdefault, Option.or_none] at hget
  rcases hfinal : finalText translationList fieldName "en-US" with _ | text
  · rw [hfinal] at hget
    refine iff_of_false (fun hright ↦ ?_) ((finalText_eq_none_iff _ _).mp hfinal)
    have hnone : (getTranslationMap translationList fieldName).langText "en-US" "en" = none := by
      rw [langText_of_ne (by rw [hget]; exact fun h ↦ by cases h), hget]
    rw [hnone] at hright
    by_cases hany : ∃ text, HasText translationList fieldName "en" text
    · obtain ⟨text, htext⟩ := hany
      obtain ⟨found, -, heq⟩ := hright.found text htext
      cases heq
    · cases hright.blank fun text h ↦ hany ⟨text, h⟩
  · rw [hfinal] at hget
    refine iff_of_true ((rightText_iff translationList fieldName hget).mpr fun hne ↦ ?_) ?_
    · exact ⟨"en-US", by decide, hfinal, hne⟩
    · by_contra hnone
      rw [(finalText_eq_none_iff translationList fieldName).mpr hnone] at hfinal
      cases hfinal

/-- The Thai text is right exactly when the text for `en-TH`, if there is one, is also a Thai one. -/
theorem rightText_th_iff :
    RightText translationList fieldName "th"
        (getCompactTranslationMap translationList fieldName).th ↔
      ∀ text, finalText translationList fieldName "en-TH" = some text → text ≠ "" →
        HasText translationList fieldName "th" text := by
  rw [getCompactTranslationMap, shortenLangCode]
  have hget := get_getTranslationMap translationList fieldName "en-TH"
  have hdefault : DefaultTranslation.get "en-TH" = some "" := rfl
  rw [hdefault] at hget
  rcases hfinal : finalText translationList fieldName "en-TH" with _ | text
  · rw [hfinal, Option.none_or] at hget
    exact iff_of_true (rightText_of_empty translationList fieldName hget) fun text h ↦ by cases h
  · rw [hfinal, Option.some_or] at hget
    rw [rightText_iff translationList fieldName hget]
    exact ⟨fun h text' heq hne ↦ Option.some_inj.mp heq ▸ h (Option.some_inj.mp heq ▸ hne),
      fun h ↦ h text rfl⟩

end

/-- Both texts are right if and only if there is an entry for `en-US`, and the text for `en-TH` is
empty or is also that of a Thai code. -/
theorem compact_iff (translationList : List TranslationEntry) (fieldName : String) :
    (RightText translationList fieldName "en"
          (getCompactTranslationMap translationList fieldName).en ∧
        RightText translationList fieldName "th"
          (getCompactTranslationMap translationList fieldName).th) ↔
      (∃ entry ∈ translationList, entry.languagesCode = "en-US") ∧
        ∀ text, finalText translationList fieldName "en-TH" = some text → text ≠ "" →
          HasText translationList fieldName "th" text :=
  and_congr (rightText_en_iff translationList fieldName)
    (rightText_th_iff translationList fieldName)

namespace Shop

/-- A greeting in the English and in the Thai of Thailand. -/
def greetings : List TranslationEntry :=
  [⟨"en-TH", fun field ↦ if field = "title" then some " Hello " else none⟩,
    ⟨"th-TH", fun field ↦ if field = "title" then some "สวัสดี" else none⟩]

end Shop

/-- There is no English text, and the Thai one is English. -/
theorem greetings_confused :
    getCompactTranslationMap Shop.greetings "title" = ⟨none, some "Hello"⟩ ∧
      HasText Shop.greetings "title" "en" "Hello" ∧
      ¬RightText Shop.greetings "title" "en"
        (getCompactTranslationMap Shop.greetings "title").en ∧
      ¬RightText Shop.greetings "title" "th"
        (getCompactTranslationMap Shop.greetings "title").th := by
  have hcompact : getCompactTranslationMap Shop.greetings "title" = ⟨none, some "Hello"⟩ := by
    decide
  have hen : HasText Shop.greetings "title" "en" "Hello" :=
    ⟨"en-TH", by decide, by decide, by decide⟩
  have hth : HasText Shop.greetings "title" "th" "สวัสดี" :=
    ⟨"th-TH", by decide, by decide, by decide⟩
  refine ⟨hcompact, hen, fun h ↦ ?_, fun h ↦ ?_⟩
  · obtain ⟨text, -, heq⟩ := h.found "Hello" hen
    rw [hcompact] at heq
    cases heq
  · obtain ⟨text, ⟨lang, hstart, hfinal, -⟩, heq⟩ := h.found "สวัสดี" hth
    rw [hcompact] at heq
    obtain rfl : "Hello" = text := Option.some_inj.mp heq
    obtain ⟨entry, hentry, htext⟩ := Option.map_eq_some_iff.mp hfinal
    have hgreeting : ∀ entry ∈ Shop.greetings, trimText (entry.text "title") = "Hello" →
        Js.startsWith entry.languagesCode "th" = false := by decide
    have hmem : entry ∈ Shop.greetings := List.mem_reverse.mp (List.mem_of_find?_eq_some hentry)
    obtain rfl : entry.languagesCode = lang := by simpa using List.find?_some hentry
    rw [hgreeting entry hmem htext] at hstart
    cases hstart

end PaymentService
