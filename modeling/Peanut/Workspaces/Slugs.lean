import Peanut.Library.WordRuns
import Peanut.Workspaces.Members

/-!
# Workspace names

What `normalize_slug` of `api/workspaces.rs` makes of a name.  A slug is the words of a name,
the longest runs of its ASCII letters and digits, in lower case with a dash between each two.
-/

namespace Peanut

open WordRuns

/-- `char::is_ascii_alphanumeric`. -/
def isAsciiAlphanumeric (c : Char) : Bool :=
  isAsciiLowercase c || isAsciiUppercase c || isAsciiDigit c

/-- The words of a name in lower case, with a dash between each two. -/
def slugText (value : String) : String :=
  String.ofList (['-'].intercalate (words isAsciiAlphanumeric (asciiLowercase value).toList))

/-! ### Letters and digits -/

theorem dash_not_alphanumeric : isAsciiAlphanumeric '-' = false := by decide

theorem not_alphanumeric_of_isWhitespace (c : Char) (h : isWhitespace c = true) :
    isAsciiAlphanumeric c = false := by
  have ha : 'a'.toNat = 97 := rfl
  have hz : 'z'.toNat = 122 := rfl
  have hA : 'A'.toNat = 65 := rfl
  have hZ : 'Z'.toNat = 90 := rfl
  have h0 : '0'.toNat = 48 := rfl
  have h9 : '9'.toNat = 57 := rfl
  simp only [isWhitespace, Bool.or_eq_true, Bool.and_eq_true, decide_eq_true_eq, beq_iff_eq] at h
  simp only [isAsciiAlphanumeric, isAsciiLowercase, isAsciiUppercase, isAsciiDigit,
    Bool.or_eq_false_iff, Bool.and_eq_false_iff, decide_eq_false_iff_not]
  omega

theorem toNat_asciiToLower {c : Char} (h : isAsciiUppercase c = true) :
    (asciiToLower c).toNat = c.toNat + 32 := by
  simp only [isAsciiUppercase, Bool.and_eq_true, decide_eq_true_eq] at h
  have hZ : 'Z'.toNat = 90 := rfl
  have hvalid : (c.toNat + 32).isValidChar := .inl (by omega)
  rw [asciiToLower, if_pos (by simpa [isAsciiUppercase] using h), Char.ofNat, dif_pos hvalid]
  rfl

theorem isAsciiUppercase_asciiToLower (c : Char) : isAsciiUppercase (asciiToLower c) = false := by
  cases h : isAsciiUppercase c with
  | false => rw [asciiToLower, h, if_neg Bool.false_ne_true, h]
  | true =>
    have hlower := toNat_asciiToLower h
    have hA : 'A'.toNat = 65 := rfl
    have hZ : 'Z'.toNat = 90 := rfl
    simp only [isAsciiUppercase, Bool.and_eq_true, decide_eq_true_eq] at h
    simp only [isAsciiUppercase, hlower, Bool.and_eq_false_iff, decide_eq_false_iff_not]
    omega

theorem isAsciiAlphanumeric_asciiToLower (c : Char) :
    isAsciiAlphanumeric (asciiToLower c) = isAsciiAlphanumeric c := by
  cases h : isAsciiUppercase c with
  | false => rw [asciiToLower, h, if_neg Bool.false_ne_true]
  | true =>
    have hlower := toNat_asciiToLower h
    have hsmall : isAsciiLowercase (asciiToLower c) = true := by
      have hA : 'A'.toNat = 65 := rfl
      have hZ : 'Z'.toNat = 90 := rfl
      have ha : 'a'.toNat = 97 := rfl
      have hz : 'z'.toNat = 122 := rfl
      simp only [isAsciiUppercase, Bool.and_eq_true, decide_eq_true_eq] at h
      simp only [isAsciiLowercase, hlower, Bool.and_eq_true, decide_eq_true_eq]
      omega
    rw [isAsciiAlphanumeric, hsmall, isAsciiAlphanumeric, h, Bool.true_or, Bool.true_or,
      Bool.or_true, Bool.true_or]

/-! ### The loop -/

theorem foldl_slugStep (text slug : List Char) (lastDash : Bool) :
    (text.foldl slugStep (slug, lastDash)).1 =
      slug ++ collapse isAsciiAlphanumeric '-' lastDash text := by
  induction text generalizing slug lastDash with
  | nil => simp [collapse]
  | cons c text ih =>
    rw [List.foldl_cons, slugStep, ← isAsciiAlphanumeric]
    cases hc : isAsciiAlphanumeric c with
    | true => rw [if_pos rfl, ih, collapse_of_pos hc, List.append_assoc, List.singleton_append]
    | false =>
      cases lastDash with
      | true => rw [if_neg Bool.false_ne_true, Bool.not_true, if_neg Bool.false_ne_true, ih,
          collapse_marked hc]
      | false => rw [if_neg Bool.false_ne_true, Bool.not_false, if_pos rfl, ih,
          collapse_unmarked hc, List.append_assoc, List.singleton_append]

theorem words_asciiLowercase (value : String) :
    words isAsciiAlphanumeric (asciiLowercase value).toList =
      (words isAsciiAlphanumeric value.toList).map (List.map asciiToLower) := by
  rw [asciiLowercase, String.toList_ofList]
  exact words_map isAsciiAlphanumeric_asciiToLower value.toList

theorem words_trim_text (value : String) :
    words isAsciiAlphanumeric (trim value).toList = words isAsciiAlphanumeric value.toList := by
  rw [trim, String.toList_ofList]
  exact words_trim not_alphanumeric_of_isWhitespace value.toList

/-- **The slug of a name** is made of its words. -/
theorem normalizeSlug_eq (value : String) : normalizeSlug value = (do
    Outcome.ensure (slugText value != "") "workspace_name is required"
    Outcome.ensure (decide (len (slugText value) ≤ 80)) "workspace_name must be 80 chars or fewer"
    return slugText value) := by
  have htext : String.ofList (trimMatches '-'
      (((trim value).toList.map asciiToLower).foldl slugStep ([], false)).1) = slugText value := by
    rw [foldl_slugStep, List.nil_append, slugText, words_asciiLowercase, ← words_trim_text,
      ← words_map isAsciiAlphanumeric_asciiToLower]
    exact congrArg String.ofList (trim_collapse dash_not_alphanumeric _)
  rw [normalizeSlug]
  simp only [htext]

theorem normalizeSlug_eq_ok {value t : String} :
    normalizeSlug value = .ok t ↔ slugText value = t ∧ t ≠ "" ∧ len t ≤ 80 := by
  rw [normalizeSlug_eq]
  simp only [Outcome.bind_eq_ok, Outcome.ensure_eq_ok, bne_iff_ne, decide_eq_true_eq, pure,
    Except.pure, Except.ok.injEq, exists_and_left, exists_const]
  constructor
  · rintro ⟨hne, hlen, rfl⟩
    exact ⟨rfl, hne, hlen⟩
  · rintro ⟨rfl, hne, hlen⟩
    exact ⟨hne, hlen, rfl⟩

theorem normalizeSlug_congr {value value' : String}
    (h : words isAsciiAlphanumeric (asciiLowercase value').toList =
      words isAsciiAlphanumeric (asciiLowercase value).toList) :
    normalizeSlug value' = normalizeSlug value := by
  have htext : slugText value' = slugText value := by rw [slugText, slugText, h]
  rw [normalizeSlug_eq, normalizeSlug_eq, htext]

/-! ### Slugs -/

/-- One to eighty small letters, digits and single dashes, with a letter or a digit at both
    ends. -/
structure IsSlug (t : String) : Prop where
  length : 1 ≤ t.length ∧ t.length ≤ 80
  chars : ∀ c ∈ t.toList, isAsciiLowercase c = true ∨ isAsciiDigit c = true ∨ c = '-'
  first : t.toList.head? ≠ some '-'
  last : t.toList.getLast? ≠ some '-'
  apart : t.toList.IsChain fun a b => ¬ (a = '-' ∧ b = '-')

theorem length_le_len (text : String) : text.length ≤ len text := by
  obtain ⟨l, rfl⟩ : ∃ l, text = String.ofList l := ⟨text.toList, by simp⟩
  induction l with
  | nil => exact Nat.zero_le _
  | cons c l ih =>
    have hsize := Char.utf8Size_pos c
    rw [len] at ih ⊢
    rw [String.ofList_cons, String.utf8ByteSize_append, String.length_append,
      String.utf8ByteSize_singleton, String.length_singleton]
    omega

theorem not_upper_of_mem_words {value : String} {w : List Char}
    (hw : w ∈ words isAsciiAlphanumeric (asciiLowercase value).toList) :
    ∀ c ∈ w, isAsciiUppercase c = false := by
  rw [words_asciiLowercase] at hw
  obtain ⟨w', -, rfl⟩ := List.mem_map.mp hw
  intro c hc
  obtain ⟨d, -, rfl⟩ := List.mem_map.mp hc
  exact isAsciiUppercase_asciiToLower d

theorem isSlug_of_normalizeSlug {s t : String} (h : normalizeSlug s = .ok t) : IsSlug t := by
  obtain ⟨rfl, hne, hlen⟩ := normalizeSlug_eq_ok.mp h
  have htidy := tidy_intercalate dash_not_alphanumeric fun w hw =>
    words_of_mem (l := (asciiLowercase s).toList) hw
  have hlength := length_le_len (slugText s)
  have hpos : (slugText s).length ≠ 0 := by
    rwa [Ne, String.length_eq_zero_iff]
  refine ⟨⟨by omega, by omega⟩, ?_, ?_, ?_, ?_⟩
  · intro c hc
    rw [slugText, String.toList_ofList] at hc
    rcases mem_intercalate_singleton hc with hdash | ⟨w, hw, hcw⟩
    · exact .inr (.inr hdash)
    · have hletter := (words_of_mem hw).2 c hcw
      rw [isAsciiAlphanumeric, not_upper_of_mem_words hw c hcw, Bool.or_false, Bool.or_eq_true]
        at hletter
      exact hletter.imp_right .inl
  · rw [slugText, String.toList_ofList]
    exact htidy.first
  · rw [slugText, String.toList_ofList]
    exact htidy.last
  · rw [slugText, String.toList_ofList]
    exact htidy.apart

theorem words_slugText (s : String) :
    words isAsciiAlphanumeric (asciiLowercase (slugText s)).toList =
      words isAsciiAlphanumeric (asciiLowercase s).toList := by
  have hlower : ∀ w ∈ words isAsciiAlphanumeric (asciiLowercase s).toList,
      w.map asciiToLower = w := by
    intro w hw
    refine (List.map_congr_left fun c hc => ?_).trans (List.map_id w)
    rw [asciiToLower, not_upper_of_mem_words hw c hc, if_neg Bool.false_ne_true, id]
  rw [words_asciiLowercase (slugText s), slugText, String.toList_ofList,
    words_intercalate dash_not_alphanumeric fun w hw => words_of_mem hw]
  exact (List.map_congr_left hlower).trans (List.map_id _)

theorem words_replace_run {before run run' after : String} (hne : run ≠ "") (hne' : run' ≠ "")
    (hrun : ∀ c ∈ run.toList, isAsciiAlphanumeric c = false)
    (hrun' : ∀ c ∈ run'.toList, isAsciiAlphanumeric c = false) :
    words isAsciiAlphanumeric (asciiLowercase (before ++ run' ++ after)).toList =
      words isAsciiAlphanumeric (asciiLowercase (before ++ run ++ after)).toList := by
  have hwords : ∀ r : String, r ≠ "" → (∀ c ∈ r.toList, isAsciiAlphanumeric c = false) →
      words isAsciiAlphanumeric (before ++ r ++ after).toList =
        words isAsciiAlphanumeric before.toList ++ words isAsciiAlphanumeric after.toList := by
    intro r hr hchars
    rw [String.toList_append, String.toList_append, List.append_assoc]
    exact words_append_run (by rwa [Ne, String.toList_eq_nil_iff]) hchars _ _
  rw [words_asciiLowercase, words_asciiLowercase, hwords run' hne' hrun', hwords run hne hrun]

/-- **Slugs are canonical.** -/
theorem normalize_slug_canonical {s t : String} (h : normalizeSlug s = .ok t) :
    IsSlug t ∧ normalizeSlug t = .ok t ∧
      (∀ s', asciiLowercase s' = asciiLowercase s → normalizeSlug s' = .ok t) ∧
      ∀ before run run' after : String, s = before ++ run ++ after → run ≠ "" → run' ≠ "" →
        (∀ c ∈ run.toList, isAsciiAlphanumeric c = false) →
        (∀ c ∈ run'.toList, isAsciiAlphanumeric c = false) →
          normalizeSlug (before ++ run' ++ after) = .ok t := by
  refine ⟨isSlug_of_normalizeSlug h, ?_, ?_, ?_⟩
  · obtain ⟨rfl, -, -⟩ := normalizeSlug_eq_ok.mp h
    rw [normalizeSlug_congr (words_slugText s), h]
  · intro s' hcase
    exact (normalizeSlug_congr (by rw [hcase])).trans h
  · rintro before run run' after rfl hne hne' hrun hrun'
    rw [normalizeSlug_congr (words_replace_run hne hne' hrun hrun'), h]

theorem normalize_slug_canonical_deja_vu :
    IsSlug "d-j-vu" ∧ normalizeSlug "d-j-vu" = .ok "d-j-vu" ∧
      (∀ s', asciiLowercase s' = asciiLowercase " Déjà -- Vu!" → normalizeSlug s' = .ok "d-j-vu") ∧
      ∀ before run run' after : String, " Déjà -- Vu!" = before ++ run ++ after → run ≠ "" →
        run' ≠ "" → (∀ c ∈ run.toList, isAsciiAlphanumeric c = false) →
        (∀ c ∈ run'.toList, isAsciiAlphanumeric c = false) →
          normalizeSlug (before ++ run' ++ after) = .ok "d-j-vu" :=
  normalize_slug_canonical (by decide +kernel)

end Peanut
