import ElectronicsCart.Core.Values
import ElectronicsCart.Lib.Words

/-!
# Slugs

`common/utils/slug.util.ts`.  A slug is made of the words of the text, joined by dashes.  In front
of a suffix the dash is written even when the base has no words.
-/

namespace ElectronicsCart

open Words

/-- `normalize('NFKD')` and `toLowerCase` of an engine, with what they do to ASCII texts. -/
structure TextForms where
  normalize : String → String
  normalize_ascii : ∀ s, (∀ c ∈ s.toList, c.toNat < 128) → normalize s = s
  toLowerCase : String → String
  toLowerCase_ascii : ∀ s, (∀ c ∈ s.toList, c.toNat < 128) →
    toLowerCase s = String.ofList (s.toList.map Char.toLower)

/-- `[\u0300-\u036f]` -/
def isMark (c : Char) : Bool := decide (0x300 ≤ c.toNat ∧ c.toNat ≤ 0x36F)

/-- `[a-z0-9]` -/
def isSlugChar (c : Char) : Bool := c.isLower || c.isDigit

/-- `[\s_-]` -/
def isSeparator (c : Char) : Bool := isJsSpace c || c == '_' || c == '-'

/-- `[a-z0-9\s-]` -/
def isKept (c : Char) : Bool := isSlugChar c || isJsSpace c || c == '-'

/-- The text up to `toLowerCase()`. -/
def folded (forms : TextForms) (value : String) : String :=
  forms.toLowerCase (String.ofList ((forms.normalize value).toList.filter fun c => !isMark c))

def slugify (forms : TextForms) (value : String) : String :=
  let kept := (jsTrim (folded forms value)).toList.filter isKept
  String.ofList (trimmed '-' (collapse isSeparator '-' false kept))

inductive SlugSuffix where
  | text (s : String)
  | number (n : JsNumber)

/-- `String(suffix)`. -/
def SlugSuffix.toText (rt : Runtime) : SlugSuffix → String
  | text s => s
  | number n => (JsValue.number n).toText rt

def uniqueSlug (forms : TextForms) (rt : Runtime) (base : String) (suffix : SlugSuffix) : String :=
  let slug := slugify forms base
  let tail := slugify forms (suffix.toText rt)
  if tail ≠ "" then slug ++ "-" ++ tail else slug

/-- `[a-z0-9]+(-[a-z0-9]+)*` -/
def isSlug (s : String) : Bool :=
  (s.toList.splitOn '-').all fun w => !w.isEmpty && w.all isSlugChar

def hasSlugChar (forms : TextForms) (value : String) : Bool := (folded forms value).toList.any isSlugChar

/-! ### Characters -/

variable {forms : TextForms} {rt : Runtime} {value : String} {w : List Char} {ws : List (List Char)}
  {c : Char}

theorem isSlugChar_lt (h : isSlugChar c = true) : c.toNat < 128 := by
  have h : (decide ('a'.val ≤ c.val) && decide (c.val ≤ 'z'.val) ||
      decide ('0'.val ≤ c.val) && decide (c.val ≤ '9'.val)) = true := h
  simp only [Bool.or_eq_true, Bool.and_eq_true, decide_eq_true_eq, UInt32.le_iff_toNat_le] at h
  change c.val.toNat < 128
  have hz : ('z' : Char).val.toNat = 122 := rfl
  have hnine : ('9' : Char).val.toNat = 57 := rfl
  omega

theorem forall_slugChar {p : Char → Bool} (hp : ∀ n < 128, isSlugChar (Char.ofNat n) = true →
    p (Char.ofNat n) = true) (h : isSlugChar c = true) : p c = true := by
  have hc := hp c.toNat (isSlugChar_lt h)
  rw [Char.ofNat_toNat] at hc
  exact hc h

theorem isJsSpace_of_slugChar (h : isSlugChar c = true) : isJsSpace c = false := by
  have hnot : (!isJsSpace c) = true :=
    forall_slugChar (p := fun c => !isJsSpace c) (by decide +kernel) h
  simpa using hnot

theorem isSeparator_of_slugChar (h : isSlugChar c = true) : isSeparator c = false := by
  have hnot : (!isSeparator c) = true :=
    forall_slugChar (p := fun c => !isSeparator c) (by decide +kernel) h
  simpa using hnot

theorem toLower_slugChar (h : isSlugChar c = true) : c.toLower = c := by
  have heq : (c.toLower == c) = true :=
    forall_slugChar (p := fun c => c.toLower == c) (by decide +kernel) h
  exact beq_iff_eq.mp heq

theorem isMark_of_lt (h : c.toNat < 128) : isMark c = false := by
  simp only [isMark, decide_eq_false_iff_not]
  omega

theorem isSlugChar_of_kept (h : isKept c = true) (hsep : isSeparator c = false) :
    isSlugChar c = true := by
  simp only [isSeparator, Bool.or_eq_false_iff] at hsep
  simpa [isKept, hsep.1.1, hsep.2] using h

/-! ### Trimming -/

theorem mem_jsTrim {s : String} (h : isJsSpace c = false) : c ∈ (jsTrim s).toList ↔ c ∈ s.toList := by
  rw [jsTrim, String.toList_ofList, List.mem_reverse, mem_dropWhile h, List.mem_reverse,
    mem_dropWhile h]

theorem jsTrim_eq_self {s : String} (h : ∀ c ∈ s.toList, isJsSpace c = false) : jsTrim s = s := by
  have hkeep : ∀ l : List Char, (∀ c ∈ l, isJsSpace c = false) → l.dropWhile isJsSpace = l := by
    intro l hl
    cases l with
    | nil => rfl
    | cons c l => exact List.dropWhile_cons_of_neg (by simp [hl c (.head _)])
  rw [jsTrim, hkeep _ h, hkeep _ (fun c hc => h c (List.mem_reverse.mp hc)), List.reverse_reverse,
    String.ofList_toList]

/-! ### The words of a slug -/

/-- The words that `slugify` joins. -/
def slugWords (forms : TextForms) (value : String) : List (List Char) :=
  words isSeparator ((jsTrim (folded forms value)).toList.filter isKept)

theorem toList_slugify : (slugify forms value).toList = ['-'].intercalate (slugWords forms value) := by
  rw [slugify, String.toList_ofList, trimmed_collapse (show isSeparator '-' = true from rfl)]
  rfl

theorem isWord_slugWords (hw : w ∈ slugWords forms value) : IsWord isSeparator w := isWord_of_mem hw

theorem slugChar_of_mem (hw : w ∈ slugWords forms value) (hc : c ∈ w) : isSlugChar c = true := by
  obtain ⟨hkept, hsolid⟩ := mem_of_mem_words hw hc
  exact isSlugChar_of_kept (List.of_mem_filter hkept) hsolid

theorem slugWords_eq_nil : slugWords forms value = [] ↔ hasSlugChar forms value = false := by
  rw [slugWords, words_eq_nil, hasSlugChar, List.any_eq_false]
  constructor
  · intro h c hc hslug
    have hkept : c ∈ (jsTrim (folded forms value)).toList.filter isKept :=
      List.mem_filter.mpr ⟨(mem_jsTrim (isJsSpace_of_slugChar hslug)).mpr hc, by simp [isKept, hslug]⟩
    have hsep := h c hkept
    rw [isSeparator_of_slugChar hslug] at hsep
    cases hsep
  · intro h c hc
    obtain ⟨hmem, hkept⟩ := List.mem_filter.mp hc
    by_contra hsep
    have hslug := isSlugChar_of_kept hkept (Bool.not_eq_true _ ▸ hsep)
    exact h c ((mem_jsTrim (isJsSpace_of_slugChar hslug)).mp hmem) hslug

theorem slugify_eq_empty : slugify forms value = "" ↔ slugWords forms value = [] := by
  rw [← String.toList_inj, toList_slugify]
  exact intercalate_eq_nil fun w hw => isWord_slugWords hw

theorem isSlug_of_words {s : String} (hs : s.toList = ['-'].intercalate ws) (hne : ws ≠ [])
    (hws : ∀ w ∈ ws, w ≠ [] ∧ ∀ c ∈ w, isSlugChar c = true) : isSlug s = true := by
  have hdash : ∀ w ∈ ws, '-' ∉ w := by
    intro w hw hmem
    have hslug := (hws w hw).2 '-' hmem
    revert hslug
    decide
  rw [isSlug, hs, List.splitOn_intercalate '-' hdash hne, List.all_eq_true]
  intro w hw
  obtain ⟨hnil, hchars⟩ := hws w hw
  simpa [hnil] using hchars

theorem words_slugWords (hw : w ∈ slugWords forms value) : w ≠ [] ∧ ∀ c ∈ w, isSlugChar c = true :=
  ⟨(isWord_slugWords hw).ne_nil, fun _ hc => slugChar_of_mem hw hc⟩

theorem slug_of_slugify (forms : TextForms) (value : String) :
    slugify forms value = "" ∨ isSlug (slugify forms value) = true := by
  by_cases hnil : slugWords forms value = []
  · exact .inl (slugify_eq_empty.mpr hnil)
  · exact .inr (isSlug_of_words toList_slugify hnil fun _ hw => words_slugWords hw)

/-! ### Repeating `slugify` -/

theorem mem_intercalate_dash (h : c ∈ ['-'].intercalate ws) : c = '-' ∨ ∃ w ∈ ws, c ∈ w := by
  induction ws with
  | nil => cases h
  | cons w ws ih =>
    cases ws with
    | nil =>
      rw [List.intercalate_singleton] at h
      exact .inr ⟨w, .head _, h⟩
    | cons v ws =>
      simp only [List.intercalate_cons_cons, List.mem_append, List.mem_singleton] at h
      rcases h with (h | h) | h
      · exact .inr ⟨w, .head _, h⟩
      · exact .inl h
      · rcases ih h with h | ⟨u, hu, hc⟩
        · exact .inl h
        · exact .inr ⟨u, .tail _ hu, hc⟩

theorem char_of_slugify (h : c ∈ (slugify forms value).toList) : c = '-' ∨ isSlugChar c = true := by
  rw [toList_slugify] at h
  rcases mem_intercalate_dash h with h | ⟨w, hw, hc⟩
  · exact .inl h
  · exact .inr (slugChar_of_mem hw hc)

theorem kept_of_slugChars {s : String} (h : ∀ c ∈ s.toList, c = '-' ∨ isSlugChar c = true) :
    (jsTrim (folded forms s)).toList.filter isKept = s.toList := by
  have hascii : ∀ c ∈ s.toList, c.toNat < 128 := by
    intro c hc
    rcases h c hc with rfl | hslug
    · decide
    · exact isSlugChar_lt hslug
  have hmarks : s.toList.filter (fun c => !isMark c) = s.toList :=
    List.filter_eq_self.mpr fun c hc => by simp [isMark_of_lt (hascii c hc)]
  have hlower : s.toList.map Char.toLower = s.toList := by
    refine (List.map_congr_left fun c hc => ?_).trans (List.map_id _)
    rcases h c hc with rfl | hslug
    · rfl
    · exact toLower_slugChar hslug
  have hfolded : folded forms s = s := by
    rw [folded, forms.normalize_ascii s hascii, hmarks, String.ofList_toList,
      forms.toLowerCase_ascii s hascii, hlower, String.ofList_toList]
  have htrim : jsTrim s = s := by
    refine jsTrim_eq_self fun c hc => ?_
    rcases h c hc with rfl | hslug
    · rfl
    · exact isJsSpace_of_slugChar hslug
  rw [hfolded, htrim, List.filter_eq_self]
  intro c hc
  rcases h c hc with rfl | hslug
  · rfl
  · simp [isKept, hslug]

theorem slugify_slugify (forms : TextForms) (value : String) :
    slugify forms (slugify forms value) = slugify forms value := by
  rw [← String.toList_inj, toList_slugify, slugWords,
    kept_of_slugChars fun _ hc => char_of_slugify hc, toList_slugify,
    words_intercalate rfl fun w hw => isWord_slugWords hw]

/-! ### Suffixes -/

theorem isSlug_dash {s : String} {rest : List Char} (h : s.toList = '-' :: rest) : isSlug s = false := by
  rw [isSlug, h, List.splitOn_cons_eq_if_modifyHead]
  rfl

/-- A slug and its repetition are always in form; a slug with a suffix is when the base has a word or
the suffix has none. -/
theorem slugs_well_formed_iff (forms : TextForms) (rt : Runtime) (value base : String)
    (suffix : SlugSuffix) :
    ((slugify forms value = "" ∨ isSlug (slugify forms value) = true) ∧
      slugify forms (slugify forms value) = slugify forms value) ∧
    ((uniqueSlug forms rt base suffix = "" ∨ isSlug (uniqueSlug forms rt base suffix) = true) ↔
      hasSlugChar forms base = true ∨ hasSlugChar forms (suffix.toText rt) = false) := by
  refine ⟨⟨slug_of_slugify forms value, slugify_slugify forms value⟩, ?_⟩
  unfold uniqueSlug
  by_cases htail : slugWords forms (suffix.toText rt) = []
  · have hempty := slugify_eq_empty.mpr htail
    rw [slugWords_eq_nil] at htail
    simp only [hempty, htail, ne_eq, not_true_eq_false, if_false, or_true, iff_true]
    exact slug_of_slugify forms base
  have hsuffix : slugify forms (suffix.toText rt) ≠ "" := fun he => htail (slugify_eq_empty.mp he)
  have hchar : ¬ hasSlugChar forms (suffix.toText rt) = false := fun he => htail (slugWords_eq_nil.mpr he)
  rw [if_pos hsuffix, or_iff_left hchar]
  have hwhole : (slugify forms base ++ "-" ++ slugify forms (suffix.toText rt)).toList =
      ['-'].intercalate (slugWords forms base) ++
        '-' :: ['-'].intercalate (slugWords forms (suffix.toText rt)) := by
    have hdash : "-".toList = ['-'] := by decide
    rw [String.toList_append, String.toList_append, toList_slugify, toList_slugify, hdash,
      List.append_assoc, List.singleton_append]
  by_cases hbase : slugWords forms base = []
  · have hnone := slugWords_eq_nil.mp hbase
    rw [hbase, List.intercalate_nil, List.nil_append] at hwhole
    rw [isSlug_dash hwhole, hnone, ← String.toList_inj, hwhole]
    simp
  · have hsome : hasSlugChar forms base = true :=
      (Bool.not_eq_false _).mp fun he => hbase (slugWords_eq_nil.mpr he)
    refine iff_of_true (.inr ?_) hsome
    rw [← intercalate_append hbase htail] at hwhole
    refine isSlug_of_words hwhole (by simp [hbase]) fun w hw => ?_
    rcases List.mem_append.mp hw with hw | hw
    · exact words_slugWords hw
    · exact words_slugWords hw

/-- An engine as far as ASCII goes. -/
def TextForms.ascii : TextForms where
  normalize s := s
  normalize_ascii _ _ := rfl
  toLowerCase s := String.ofList (s.toList.map Char.toLower)
  toLowerCase_ascii _ _ := rfl

/-- Of a base that has no word the dash is left. -/
theorem dash_before_suffix :
    ¬ ∀ (forms : TextForms) (rt : Runtime) (base : String) (suffix : SlugSuffix),
      uniqueSlug forms rt base suffix = "" ∨ isSlug (uniqueSlug forms rt base suffix) = true := by
  intro h
  have hslug := h .ascii .plain "!" (.text "7")
  revert hslug
  decide +kernel

end ElectronicsCart
