import Mathlib.Data.List.Basic
import Mathlib.Data.List.Chain
import Mathlib.Data.List.Infix
import Mathlib.Data.List.TakeWhile

/-!
# Runs of letters

A text is cut into words: the longest runs of its letters, where `p` tells what a
letter is.  `collapse` writes one mark for each run of other characters.  Without the
marks at its ends, what it writes is the words with a mark between each two.
-/

universe u v

namespace WordRuns

variable {α : Type u} {β : Type v}

def words (p : α → Bool) (l : List α) : List (List α) :=
  (l.splitOnP fun c => !p c).filter fun w => !w.isEmpty

variable {p : α → Bool}

@[simp] theorem words_nil : words p [] = [] := rfl

variable {w r : List α}

/-- A run of letters is a word. -/
theorem words_of_letters (hne : w ≠ []) (hw : ∀ c ∈ w, p c = true) :
    words p w = [w] := by
  have hsplit : (w.splitOnP fun c => !p c) = [w] :=
    List.splitOnP_eq_singleton fun c hc => by rw [hw c hc, Bool.not_true]
  rw [words, hsplit, List.filter_cons_of_pos (by simpa using hne), List.filter_nil]

variable {c d : α}

/-- Another character ends a word. -/
theorem words_append_cons (hc : p c = false) (l m : List α) :
    words p (l ++ c :: m) = words p l ++ words p m := by
  rw [words, List.splitOnP_append_cons l m (by rw [hc, Bool.not_false]), List.filter_append]
  rfl

theorem words_cons_of_neg (hc : p c = false) (l : List α) : words p (c :: l) = words p l :=
  words_append_cons hc [] l

theorem words_run_append (hr : ∀ c ∈ r, p c = false) (l : List α) :
    words p (r ++ l) = words p l := by
  induction r with
  | nil => rfl
  | cons c r ih =>
    rw [List.forall_mem_cons] at hr
    rw [List.cons_append, words_cons_of_neg hr.1, ih hr.2]

/-- **A run of other characters** ends a word, whichever they are. -/
theorem words_append_run (hne : r ≠ []) (hr : ∀ c ∈ r, p c = false) (l m : List α) :
    words p (l ++ (r ++ m)) = words p l ++ words p m := by
  obtain ⟨c, r, rfl⟩ := List.exists_cons_of_ne_nil hne
  rw [List.forall_mem_cons] at hr
  rw [List.cons_append, words_append_cons hr.1, words_run_append hr.2]

theorem words_append_run_end (hr : ∀ c ∈ r, p c = false) (l : List α) :
    words p (l ++ r) = words p l := by
  by_cases hne : r = []
  · rw [hne, List.append_nil]
  · rw [← List.append_nil r, words_append_run hne hr, words_nil, List.append_nil]

theorem words_of_mem {l w : List α} (h : w ∈ words p l) : w ≠ [] ∧ ∀ c ∈ w, p c = true := by
  obtain ⟨hmem, hne⟩ := List.mem_filter.mp h
  refine ⟨by simpa using hne, ?_⟩
  clear h hne
  induction l generalizing w with
  | nil =>
    obtain rfl := List.mem_singleton.mp hmem
    exact List.forall_mem_nil _
  | cons c l ih =>
    rw [List.splitOnP_cons_eq_if_modifyHead] at hmem
    split at hmem
    · rcases List.mem_cons.mp hmem with rfl | hmem
      · exact List.forall_mem_nil _
      · exact ih hmem
    · next hc =>
      obtain ⟨first, rest, hsplit⟩ := List.exists_cons_of_ne_nil (List.splitOnP_ne_nil
        (fun c => !p c) l)
      rw [hsplit] at ih hmem
      rw [List.modifyHead_cons] at hmem
      rcases List.mem_cons.mp hmem with rfl | hmem
      · rw [List.forall_mem_cons]
        exact ⟨by simpa using hc, ih List.mem_cons_self⟩
      · exact ih (List.mem_cons_of_mem _ hmem)

/-- A map that keeps the letters keeps the words. -/
theorem words_map {q : β → Bool} {f : α → β} (h : ∀ c, q (f c) = p c) (l : List α) :
    words q (l.map f) = (words p l).map (List.map f) := by
  have hsplit : ((l.map f).splitOnP fun c => !q c) = (l.splitOnP fun c => !p c).map
      (List.map f) := by
    induction l with
    | nil => rfl
    | cons c l ih =>
      rw [List.map_cons, List.splitOnP_cons_eq_if_modifyHead, List.splitOnP_cons_eq_if_modifyHead,
        ih, h]
      split
      · rfl
      · obtain ⟨first, rest, hsplit⟩ := List.exists_cons_of_ne_nil (List.splitOnP_ne_nil
          (fun c => !p c) l)
        rw [hsplit, List.modifyHead_cons, List.map_cons, List.modifyHead_cons, List.map_cons,
          List.map_cons]
  rw [words, hsplit, List.filter_map, words]
  exact congrArg _ (List.filter_congr fun w _ => by simp)

theorem words_dropWhile {q : α → Bool} (hq : ∀ c, q c = true → p c = false) (l : List α) :
    words p (l.dropWhile q) = words p l := by
  conv_rhs => rw [← List.takeWhile_append_dropWhile (p := q) (l := l)]
  rw [words_run_append]
  exact fun c hc => hq c (List.mem_takeWhile_imp hc)

/-- What is trimmed has no words. -/
theorem words_trim {q : α → Bool} (hq : ∀ c, q c = true → p c = false) (l : List α) :
    words p ((l.dropWhile q).reverse.dropWhile q).reverse = words p l := by
  rw [← words_dropWhile hq l]
  generalize l.dropWhile q = m
  have hsplit : (m.reverse.dropWhile q).reverse ++ (m.reverse.takeWhile q).reverse = m := by
    rw [← List.reverse_append, List.takeWhile_append_dropWhile, List.reverse_reverse]
  conv_rhs => rw [← hsplit]
  rw [words_append_run_end]
  intro c hc
  exact hq c (List.mem_takeWhile_imp (List.mem_reverse.mp hc))

/-! ### Words with a mark between each two -/

theorem words_intercalate (hd : p d = false) {ws : List (List α)}
    (hws : ∀ w ∈ ws, w ≠ [] ∧ ∀ c ∈ w, p c = true) : words p ([d].intercalate ws) = ws := by
  induction ws with
  | nil => rfl
  | cons w ws ih =>
    rw [List.forall_mem_cons] at hws
    cases ws with
    | nil => rw [List.intercalate_singleton, words_of_letters hws.1.1 hws.1.2]
    | cons next ws =>
      rw [List.intercalate_cons_cons, List.append_assoc, List.singleton_append,
        words_append_cons hd, words_of_letters hws.1.1 hws.1.2, ih hws.2, List.singleton_append]

/-- Letters and single marks, with letters at both ends. -/
structure Tidy (p : α → Bool) (d : α) (l : List α) : Prop where
  letters : ∀ c ∈ l, p c = true ∨ c = d
  first : l.head? ≠ some d
  last : l.getLast? ≠ some d
  apart : l.IsChain fun a b => ¬ (a = d ∧ b = d)

theorem tidy_of_letters (hd : p d = false) (hw : ∀ c ∈ w, p c = true) :
    Tidy p d w := by
  have hmark : d ∉ w := by
    intro hmem
    rw [hw d hmem] at hd
    cases hd
  refine ⟨fun c hc => .inl (hw c hc), fun h => hmark (List.mem_of_head? h),
    fun h => hmark (List.mem_of_getLast? h), List.Pairwise.isChain ?_⟩
  refine List.pairwise_of_forall_mem_list fun a ha _ _ h => ?_
  exact hmark (h.1 ▸ ha)

/-- **Words with a mark between each two** are tidy. -/
theorem tidy_intercalate (hd : p d = false) {ws : List (List α)}
    (hws : ∀ w ∈ ws, w ≠ [] ∧ ∀ c ∈ w, p c = true) : Tidy p d ([d].intercalate ws) := by
  induction ws with
  | nil => exact tidy_of_letters hd (List.forall_mem_nil _)
  | cons w ws ih =>
    rw [List.forall_mem_cons] at hws
    have hfirst := tidy_of_letters hd hws.1.2
    cases ws with
    | nil => rwa [List.intercalate_singleton]
    | cons next ws =>
      have hrest := ih hws.2
      have hne : [d].intercalate (next :: ws) ≠ [] := by
        intro hnil
        have hwords := words_intercalate hd hws.2
        rw [hnil] at hwords
        cases hwords
      rw [List.intercalate_cons_cons, List.append_assoc, List.singleton_append]
      refine ⟨?_, ?_, ?_, ?_⟩
      · intro c hc
        rcases List.mem_append.mp hc with hc | hc
        · exact hfirst.letters c hc
        · rcases List.mem_cons.mp hc with rfl | hc
          · exact .inr rfl
          · exact hrest.letters c hc
      · rw [List.head?_append_of_ne_nil w hws.1.1]
        exact hfirst.first
      · rw [List.getLast?_append_of_ne_nil w (List.cons_ne_nil d _), List.getLast?_cons,
          List.getLast?_eq_some_getLast hne, Option.getD_some, ← List.getLast?_eq_some_getLast hne]
        exact hrest.last
      · refine hfirst.apart.append (List.isChain_cons.mpr ⟨?_, hrest.apart⟩) ?_
        · rintro c hc ⟨-, rfl⟩
          exact hrest.first hc
        · rintro c hc _ _ ⟨rfl, -⟩
          exact hfirst.last hc

/-! ### One mark for a run -/

/-- Each run of other characters is written as one mark, and none when a mark is there. -/
def collapse (p : α → Bool) (d : α) : Bool → List α → List α
  | _, [] => []
  | marked, c :: l =>
      if p c then c :: collapse p d false l
      else if marked then collapse p d true l
      else d :: collapse p d true l

theorem collapse_of_pos {marked : Bool} (hc : p c = true) (l : List α) :
    collapse p d marked (c :: l) = c :: collapse p d false l := by
  rw [collapse, if_pos hc]

theorem collapse_marked (hc : p c = false) (l : List α) :
    collapse p d true (c :: l) = collapse p d true l := by
  rw [collapse, if_neg (by simp [hc]), if_pos rfl]

theorem collapse_unmarked (hc : p c = false) (l : List α) :
    collapse p d false (c :: l) = d :: collapse p d true l := by
  rw [collapse, if_neg (by simp [hc]), if_neg Bool.false_ne_true]

variable [DecidableEq α]

/-- A text without the marks at its end. -/
def trimEnd (d : α) (l : List α) : List α := (l.reverse.dropWhile (· == d)).reverse

theorem trimEnd_append_of_ne {m : List α} (h : trimEnd d m ≠ []) (l : List α) :
    trimEnd d (l ++ m) = l ++ trimEnd d m := by
  rw [trimEnd, List.reverse_append, List.dropWhile_append]
  rw [trimEnd, Ne, List.reverse_eq_nil_iff] at h
  rw [if_neg (by simpa using h), List.reverse_append, List.reverse_reverse, trimEnd]

theorem trimEnd_append_of_eq {m : List α} (h : trimEnd d m = []) (l : List α) :
    trimEnd d (l ++ m) = trimEnd d l := by
  rw [trimEnd, List.reverse_append, List.dropWhile_append]
  rw [trimEnd, List.reverse_eq_nil_iff] at h
  rw [if_pos (by simp [h]), trimEnd]

theorem trimEnd_of_letters (hd : p d = false) (hw : ∀ c ∈ w, p c = true) :
    trimEnd d w = w := by
  have hkeep : w.reverse.dropWhile (· == d) = w.reverse := by
    cases hrev : w.reverse with
    | nil => rfl
    | cons c l =>
      rw [List.dropWhile_cons_of_neg]
      rw [beq_iff_eq]
      rintro rfl
      have hc := hw c (List.mem_reverse.mp (hrev ▸ List.mem_cons_self))
      rw [hd] at hc
      cases hc
  rw [trimEnd, hkeep, List.reverse_reverse]

/-- Without the marks at its end, a collapsed text is its words.  The second half is about a
    text that goes on with a word. -/
theorem trimEnd_collapse (hd : p d = false) (l : List α) :
    trimEnd d (collapse p d true l) = [d].intercalate (words p l) ∧
      ∀ w, w ≠ [] → (∀ c ∈ w, p c = true) →
        trimEnd d (w ++ collapse p d false l) = [d].intercalate (words p (w ++ l)) := by
  induction l with
  | nil =>
    refine ⟨rfl, ?_⟩
    intro w hne hw
    rw [collapse, List.append_nil, trimEnd_of_letters hd hw, words_of_letters hne hw,
      List.intercalate_singleton]
  | cons c l ih =>
    obtain ⟨htext, hword⟩ := ih
    by_cases hc : p c = true
    · refine ⟨?_, ?_⟩
      · rw [collapse_of_pos hc]
        exact hword [c] (List.cons_ne_nil c []) (List.forall_mem_singleton.mpr hc)
      · intro w _ hw
        have hmore := hword (w ++ [c]) (by simp) (by
          rw [List.forall_mem_append]
          exact ⟨hw, List.forall_mem_singleton.mpr hc⟩)
        rw [List.append_assoc, List.append_assoc] at hmore
        rw [collapse_of_pos hc]
        exact hmore
    · rw [Bool.not_eq_true] at hc
      refine ⟨?_, ?_⟩
      · rw [collapse_marked hc, words_cons_of_neg hc, htext]
      · intro w hne hw
        rw [collapse_unmarked hc, words_append_cons hc, words_of_letters hne hw,
          ← List.singleton_append (x := d), ← List.append_assoc]
        have hmark : trimEnd d [d] = [] := by simp [trimEnd]
        cases hwords : words p l with
        | nil =>
          rw [hwords] at htext
          rw [trimEnd_append_of_eq htext, trimEnd_append_of_eq hmark, trimEnd_of_letters hd hw]
          simp
        | cons next ws =>
          have hnext := (words_of_mem (hwords ▸ List.mem_cons_self : next ∈ words p l)).1
          have htrim : trimEnd d (collapse p d true l) ≠ [] := by
            rw [htext, hwords]
            cases ws with
            | nil => rwa [List.intercalate_singleton]
            | cons _ _ => simp [List.intercalate_cons_cons]
          rw [trimEnd_append_of_ne htrim, htext, hwords, List.singleton_append,
            List.intercalate_cons_cons]

theorem dropWhile_collapse_marked (hd : p d = false) (l : List α) :
    (collapse p d true l).dropWhile (· == d) = collapse p d true l := by
  induction l with
  | nil => rfl
  | cons c l ih =>
    by_cases hc : p c = true
    · rw [collapse_of_pos hc, List.dropWhile_cons_of_neg]
      rw [beq_iff_eq]
      rintro rfl
      rw [hd] at hc
      cases hc
    · rw [Bool.not_eq_true] at hc
      rw [collapse_marked hc, ih]

/-- **Collapsed and trimmed**, a text is its words with a mark between each two. -/
theorem trim_collapse (hd : p d = false) (l : List α) :
    trimEnd d ((collapse p d false l).dropWhile (· == d)) = [d].intercalate (words p l) := by
  have hfront : (collapse p d false l).dropWhile (· == d) = collapse p d true l := by
    rw [← dropWhile_collapse_marked hd]
    cases l with
    | nil => rfl
    | cons c l =>
      by_cases hc : p c = true
      · rw [collapse_of_pos hc, collapse_of_pos hc]
      · rw [Bool.not_eq_true] at hc
        rw [collapse_unmarked hc, collapse_marked hc,
          List.dropWhile_cons_of_pos (p := (· == d)) (beq_self_eq_true d)]
  rw [hfront]
  exact (trimEnd_collapse hd l).1

end WordRuns
