import Mathlib.Data.List.Infix

/-!
# Masking texts

Words are taken out of a text one after the other: `replaceAll` puts a mask in the
place of every occurrence of a word, from the left and without overlaps.

A mask may complete a word that was not there.  So that this can be said, the letters
are marked that a mask brought; `replaceAll` reads the letters through a function.
-/

universe u v w

namespace Masking

variable {α : Type u} {β : Type v} [DecidableEq α] {f : β → α} {mask l z : List β} {word : List α}

/-! ### Replacing one word -/

/-- `skip` letters of the last occurrence are still to be passed over. -/
def replaceFrom (f : β → α) (mask : List β) (word : List α) : Nat → List β → List β
  | _, [] => []
  | skip + 1, _ :: l => replaceFrom f mask word skip l
  | 0, c :: l =>
      if word.isPrefixOf ((c :: l).map f) then mask ++ replaceFrom f mask word (word.length - 1) l
      else c :: replaceFrom f mask word 0 l

def replaceAll (f : β → α) (mask : List β) (word : List α) : List β → List β :=
  replaceFrom f mask word 0

/-- Letters that are read alike are replaced alike. -/
theorem map_replaceFrom {γ : Type w} (g : γ → β) (mask : List γ) (skip : Nat) (l : List γ) :
    (replaceFrom (f ∘ g) mask word skip l).map g =
      replaceFrom f (mask.map g) word skip (l.map g) := by
  induction l generalizing skip with
  | nil => cases skip <;> rfl
  | cons c l ih =>
    cases skip with
    | succ skip => exact ih skip
    | zero =>
      simp only [List.map_cons, replaceFrom, List.map_map, Function.comp_apply]
      split
      · rw [List.map_append, ih]
      · rw [List.map_cons, ih]

section Untouched

/-- Letters that no mask brought. -/
def Untouched (mask z : List β) : Prop := ∀ c ∈ z, c ∉ mask

/-- What stands before a mask and a rest, and shares no letter with the mask. -/
theorem Untouched.prefix_mask {rest : List β} (hmask : mask ≠ []) (hz : Untouched mask z)
    (h : z <+: mask ++ rest) : z = [] := by
  cases mask with
  | nil => exact absurd rfl hmask
  | cons m mask =>
    cases z with
    | nil => rfl
    | cons c z =>
      obtain ⟨rfl, -⟩ := List.cons_prefix_cons.mp h
      exact absurd List.mem_cons_self (hz c List.mem_cons_self)

theorem Untouched.infix_mask {rest : List β} (hz : Untouched mask z) (h : z <:+: mask ++ rest) :
    z <:+: rest := by
  induction mask generalizing z with
  | nil => exact h
  | cons m mask ih =>
    have hrest : Untouched mask z := fun c hc hmem => hz c hc (List.mem_cons_of_mem m hmem)
    rw [List.cons_append, List.infix_cons_iff] at h
    apply h.elim
    · intro hfront
      cases z with
      | nil => exact List.nil_infix
      | cons c z =>
        obtain ⟨rfl, -⟩ := List.cons_prefix_cons.mp hfront
        exact absurd List.mem_cons_self (hz c List.mem_cons_self)
    · exact ih hrest

theorem prefix_replaceFrom (hmask : mask ≠ []) (hz : Untouched mask z) {skip : Nat}
    (h : z <+: replaceFrom f mask word skip l) : z <+: l.drop skip := by
  induction l generalizing skip z with
  | nil => cases skip <;> exact h
  | cons c l ih =>
    cases skip with
    | succ skip => exact ih hz h
    | zero =>
      rw [replaceFrom] at h
      split at h
      · rw [hz.prefix_mask hmask h]
        exact List.nil_prefix
      · cases z with
        | nil => exact List.nil_prefix
        | cons c' z =>
          obtain ⟨rfl, hrest⟩ := List.cons_prefix_cons.mp h
          have hz' : Untouched mask z := fun c hc => hz c (List.mem_cons_of_mem _ hc)
          exact List.cons_prefix_cons.mpr ⟨rfl, ih hz' hrest⟩

/-- What no mask brought was there before. -/
theorem infix_replaceFrom (hmask : mask ≠ []) (hz : Untouched mask z) {skip : Nat}
    (h : z <:+: replaceFrom f mask word skip l) : z <:+: l.drop skip := by
  induction l generalizing skip with
  | nil => cases skip <;> exact h
  | cons c l ih =>
    cases skip with
    | succ skip => exact ih h
    | zero =>
      rw [List.drop_zero]
      by_cases hmatch : word.isPrefixOf ((c :: l).map f) = true
      · rw [replaceFrom, if_pos hmatch] at h
        exact ((ih (hz.infix_mask h)).trans (List.drop_suffix _ _).isInfix).trans
          (List.suffix_cons c l).isInfix
      · have hwhole : c :: replaceFrom f mask word 0 l = replaceFrom f mask word 0 (c :: l) := by
          rw [replaceFrom, if_neg hmatch]
        rw [replaceFrom, if_neg hmatch, List.infix_cons_iff] at h
        apply h.elim
        · intro hfront
          rw [hwhole] at hfront
          exact (prefix_replaceFrom hmask hz hfront).isInfix
        · intro hrest
          exact (ih hrest).trans (List.suffix_cons c l).isInfix

/-- The word itself is left only where a mask is part of it. -/
theorem not_word_replaceFrom (hmask : mask ≠ []) (hz : Untouched mask z) (hword : word ≠ [])
    {skip : Nat} (h : z <:+: replaceFrom f mask word skip l) : z.map f ≠ word := by
  induction l generalizing skip with
  | nil =>
    have hnil : replaceFrom f mask word skip [] = [] := by cases skip <;> rfl
    rw [hnil, List.infix_nil] at h
    rw [h]
    exact fun hempty => hword hempty.symm
  | cons c l ih =>
    cases skip with
    | succ skip => exact ih h
    | zero =>
      by_cases hmatch : word.isPrefixOf ((c :: l).map f) = true
      · rw [replaceFrom, if_pos hmatch] at h
        exact ih (hz.infix_mask h)
      · have hwhole : c :: replaceFrom f mask word 0 l = replaceFrom f mask word 0 (c :: l) := by
          rw [replaceFrom, if_neg hmatch]
        rw [replaceFrom, if_neg hmatch, List.infix_cons_iff] at h
        apply h.elim
        · intro hfront heq
          rw [hwhole] at hfront
          apply hmatch
          rw [List.isPrefixOf_iff_prefix, ← heq]
          exact (prefix_replaceFrom hmask hz hfront).map f
        · exact ih

end Untouched

/-! ### Replacing one word after the other -/

/-- `replaceAll` for every word that has a letter. -/
def maskAll (f : β → α) (mask : List β) (words : List (List α)) (l : List β) : List β :=
  words.foldl (fun l word => if word.isEmpty then l else replaceAll f mask word l) l

theorem maskAll_cons (words : List (List α)) :
    maskAll f mask (word :: words) l =
      maskAll f mask words (if word.isEmpty then l else replaceAll f mask word l) := rfl

theorem map_maskAll {γ : Type w} (g : γ → β) (mask : List γ) (words : List (List α)) (l : List γ) :
    (maskAll (f ∘ g) mask words l).map g = maskAll f (mask.map g) words (l.map g) := by
  induction words generalizing l with
  | nil => rfl
  | cons word words ih =>
    simp only [maskAll, List.foldl_cons] at ih ⊢
    rw [ih]
    split
    · rfl
    · rw [replaceAll, map_replaceFrom, replaceAll]

/-- What no mask brought was there before, and is none of the words. -/
theorem untouched_maskAll (hmask : mask ≠ []) (hz : Untouched mask z) {words : List (List α)}
    (h : z <:+: maskAll f mask words l) :
    z <:+: l ∧ ∀ word ∈ words, word ≠ [] → z.map f ≠ word := by
  induction words generalizing l with
  | nil => exact ⟨h, fun _ hword => absurd hword List.not_mem_nil⟩
  | cons word words ih =>
    obtain ⟨hafter, hrest⟩ := ih h
    by_cases hempty : word = []
    · rw [hempty] at hafter ⊢
      refine ⟨hafter, ?_⟩
      intro other hother hne
      obtain rfl | hother := List.mem_cons.mp hother
      · exact absurd rfl hne
      · exact hrest other hother hne
    · have hreplaced : z <:+: replaceAll f mask word l := by
        simpa [hempty] using hafter
      refine ⟨infix_replaceFrom hmask hz hreplaced, ?_⟩
      intro other hother hne
      obtain rfl | hother := List.mem_cons.mp hother
      · exact not_word_replaceFrom hmask hz hempty hreplaced
      · exact hrest other hother hne

/-! ### What masks may spell -/

/-- The letters of a mask, marked. -/
def marks (mask : List α) : List (α × Bool) := mask.map fun c => (c, true)

/-- The marked texts that come of a text when words are masked, in whatever order. -/
inductive Masked (mask : List α) (words : List (List α)) (text : List α) :
    List (α × Bool) → Prop where
  | unmasked : Masked mask words text (text.map fun c => (c, false))
  | step {a r b : List (α × Bool)} (h : Masked mask words text (a ++ r ++ b))
      (hr : r.map Prod.fst ∈ words) : Masked mask words text (a ++ marks mask ++ b)

/-- The masks may complete `word`, with what stands around them. -/
def Spelled (mask : List α) (words : List (List α)) (text word : List α) : Prop :=
  ∃ y z, Masked mask words text y ∧ z <:+: y ∧ z.map Prod.fst = word ∧ ¬ Untouched (marks mask) z

section Spelled

variable {letters : List α} {words : List (List α)} {text : List α} {y : List (α × Bool)}

omit [DecidableEq α] in
theorem map_fst_marks (mask : List α) : (marks mask).map Prod.fst = mask := by
  rw [marks, List.map_map]
  exact List.map_id mask

theorem Masked.replaceFrom (hword : word ∈ words) (hne : word ≠ []) {l pre : List (α × Bool)}
    {skip : Nat} (h : Masked letters words text (pre ++ l.drop skip)) :
    Masked letters words text
      (pre ++ Masking.replaceFrom Prod.fst (marks letters) word skip l) := by
  induction l generalizing skip pre with
  | nil => cases skip <;> exact h
  | cons c l ih =>
    cases skip with
    | succ skip => exact ih h
    | zero =>
      rw [List.drop_zero] at h
      rw [Masking.replaceFrom]
      split
      next hmatch =>
        -- the occurrence, and what follows it
        have hfound : ((c :: l).take word.length).map Prod.fst = word := by
          rw [List.isPrefixOf_iff_prefix, List.prefix_iff_eq_take] at hmatch
          rw [List.map_take]
          exact hmatch.symm
        have hdrop : (c :: l).drop word.length = l.drop (word.length - 1) := by
          cases word with
          | nil => exact absurd rfl hne
          | cons d word => rfl
        rw [← List.take_append_drop word.length (c :: l), hdrop, ← List.append_assoc] at h
        rw [← List.append_assoc]
        exact ih (.step h (by rw [hfound]; exact hword))
      next =>
        have hstep : Masked letters words text ((pre ++ [c]) ++ l.drop 0) := by
          rw [List.append_assoc]
          exact h
        have hrest := ih hstep
        rw [List.append_assoc] at hrest
        exact hrest

theorem Masked.maskAll {some : List (List α)} (hsome : some ⊆ words)
    (h : Masked letters words text y) :
    Masked letters words text (Masking.maskAll Prod.fst (marks letters) some y) := by
  induction some generalizing y with
  | nil => exact h
  | cons word some ih =>
    obtain ⟨hword, hrest⟩ := List.cons_subset.mp hsome
    rw [Masking.maskAll, List.foldl_cons]
    split
    · exact ih hrest h
    next hne =>
      have hstep : Masked letters words text ([] ++ y.drop 0) := h
      exact ih hrest (hstep.replaceFrom hword (by simpa using hne))

/-- **What is left.**  A word that the masks cannot complete does not occur in the
    masked text. -/
theorem not_infix_maskAll (hletters : letters ≠ []) (hword : word ∈ words) (hne : word ≠ [])
    (hspelled : ¬ Spelled letters words text word) :
    ¬ word <:+: Masking.maskAll id letters words text := by
  intro hinfix
  have hmarked : (Masking.maskAll Prod.fst (marks letters) words
      (text.map fun c => (c, false))).map Prod.fst = Masking.maskAll id letters words text := by
    have hmap := map_maskAll (f := id) (Prod.fst : α × Bool → α) (marks letters) words
      (text.map fun c => (c, false))
    rw [map_fst_marks, List.map_map] at hmap
    exact hmap.trans (congrArg _ (List.map_id text))
  rw [← hmarked] at hinfix
  obtain ⟨pre, post, hsplit⟩ := hinfix
  obtain ⟨l₁, post', hmasked, hpre, -⟩ := List.map_eq_append_iff.mp hsplit.symm
  obtain ⟨pre', z, rfl, -, hz⟩ := List.map_eq_append_iff.mp hpre
  have hz' : z <:+: Masking.maskAll Prod.fst (marks letters) words
      (text.map fun c => (c, false)) := ⟨pre', post', hmasked.symm⟩
  have hmarks : marks letters ≠ [] := by
    rw [marks]
    exact fun hnil => hletters (List.map_eq_nil_iff.mp hnil)
  by_cases huntouched : Untouched (marks letters) z
  · exact (untouched_maskAll hmarks huntouched hz').2 word hword hne hz
  · exact hspelled ⟨_, z, .maskAll (List.Subset.refl words) .unmasked, hz', hz, huntouched⟩

omit [DecidableEq α] in
/-- A stretch of a text with a mask in it, whose ends no mask brought. -/
theorem infix_of_ends {a m b z : List α} (h : z <:+: a ++ (m ++ b))
    (hhead : ∀ c ∈ z.head?, c ∉ m) (hlast : ∀ c ∈ z.getLast?, c ∉ m) :
    z <:+: a ∨ z <:+: b ∨ m <:+: z := by
  obtain rfl | hne := eq_or_ne z []
  · exact .inl List.nil_infix
  obtain ⟨pre, post, hsplit⟩ := h
  apply (List.append_eq_append_iff.mp hsplit).elim
  · rintro ⟨rest, rfl, -⟩
    exact .inl ⟨pre, rest, rfl⟩
  · rintro ⟨tail, htail, hrest⟩
    apply (List.append_eq_append_iff.mp htail).elim
    · rintro ⟨front, rfl, rfl⟩
      -- the stretch begins before the mask
      apply (List.append_eq_append_iff.mp hrest).elim
      · rintro ⟨back, rfl, -⟩
        exact .inr (.inr ⟨front, back, by rw [List.append_assoc]⟩)
      · rintro ⟨back, rfl, -⟩
        cases hlastTail : tail.getLast? with
        | none =>
          rw [List.getLast?_eq_none_iff.mp hlastTail, List.append_nil]
          exact .inl (List.suffix_append pre front).isInfix
        | some c =>
          have hmem := List.mem_of_getLast? hlastTail
          exact absurd (List.mem_append_left back hmem)
            (hlast c (by rw [List.getLast?_append, hlastTail]; rfl))
    · rintro ⟨gap, rfl, rfl⟩
      -- the stretch begins behind the front of the mask
      apply (List.append_eq_append_iff.mp hrest).elim
      · rintro ⟨back, hback, rfl⟩
        apply (List.append_eq_append_iff.mp hback).elim
        · rintro ⟨front, rfl, rfl⟩
          cases front with
          | nil => exact .inr (.inl (List.prefix_append _ post).isInfix)
          | cons c front =>
            exact absurd (List.mem_append_right gap List.mem_cons_self) (hhead c rfl)
        · rintro ⟨front, -, rfl⟩
          exact .inr (.inl ⟨front, post, rfl⟩)
      · rintro ⟨back, rfl, -⟩
        cases z with
        | nil => exact absurd rfl hne
        | cons c z =>
          exact absurd (List.mem_append_left back (List.mem_append_right gap List.mem_cons_self))
            (hhead c rfl)

omit [DecidableEq α] in
/-- A stretch with a mark in it, whose ends are none, holds a whole mask. -/
theorem Masked.whole_mask {z : List (α × Bool)} (h : Masked letters words text y) (hz : z <:+: y)
    (hhead : ∀ c ∈ z.head?, c ∉ marks letters) (hlast : ∀ c ∈ z.getLast?, c ∉ marks letters)
    (hmark : ¬ Untouched (marks letters) z) : marks letters <:+: z := by
  induction h with
  | unmasked =>
    refine absurd ?_ hmark
    intro c hc hmem
    obtain ⟨d, -, rfl⟩ := List.mem_map.mp (hz.subset hc)
    obtain ⟨e, -, he⟩ := List.mem_map.mp hmem
    exact Bool.noConfusion (congrArg Prod.snd he)
  | step h hr ih =>
    rw [List.append_assoc] at hz
    obtain hin | hin | hin := infix_of_ends hz hhead hlast
    · exact ih (hin.trans ((List.prefix_append _ _).isInfix.trans (List.prefix_append _ _).isInfix))
    · exact ih (hin.trans (List.suffix_append _ _).isInfix)
    · exact hin

/-- A word that no mask completes: its ends are no letters of a mask, and no mask is
    part of it. -/
structure Apart (letters word : List α) : Prop where
  head : ∀ c ∈ word.head?, c ∉ letters
  last : ∀ c ∈ word.getLast?, c ∉ letters
  whole : ¬ letters <:+: word

omit [DecidableEq α] in
theorem not_mem_marks {c : α × Bool} (h : c.1 ∉ letters) : c ∉ marks letters := by
  intro hmem
  obtain ⟨d, hd, rfl⟩ := List.mem_map.mp hmem
  exact h hd

omit [DecidableEq α] in
theorem Apart.not_spelled (h : Apart letters word) : ¬ Spelled letters words text word := by
  rintro ⟨y, z, hmasked, hz, rfl, hmark⟩
  have hwhole := hmasked.whole_mask hz
    (fun c hc => not_mem_marks (h.head c.1 (by rw [List.head?_map, hc]; rfl)))
    (fun c hc => not_mem_marks (h.last c.1 (by rw [List.getLast?_map, hc]; rfl))) hmark
  apply h.whole
  rw [← map_fst_marks letters]
  exact hwhole.map Prod.fst

end Spelled

end Masking
