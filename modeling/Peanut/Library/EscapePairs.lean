import Peanut.Library.Masking

/-!
# Chains of escapes

Texts in which a mark and the letter behind it stand for one letter, read by replacing
one pair after the other in the whole text.  As long as no replacement brings a mark or
the second letter of a later pair, the chain is a single pass (`replaceAll_unpair`).
-/

universe u

namespace EscapePairs

open Masking

variable {α : Type u} [DecidableEq α] {mark x y : α}

/-- Replacing a pair, one letter at a time. -/
theorem replaceAll_pair (mark x y c : α) (l : List α) :
    replaceAll id [y] [mark, x] (c :: l) = if c = mark ∧ l.head? = some x
      then y :: replaceAll id [y] [mark, x] l.tail else c :: replaceAll id [y] [mark, x] l := by
  rw [replaceAll, replaceFrom, List.map_id]
  cases l with
  | nil => simp [replaceFrom]
  | cons d l =>
    by_cases hpair : c = mark ∧ d = x
    · obtain ⟨rfl, rfl⟩ := hpair
      simp [replaceFrom]
    · have hhead : ¬ (c = mark ∧ (d :: l).head? = some x) := by
        rwa [List.head?_cons, Option.some.injEq]
      have hstart : ¬ [mark, x].isPrefixOf (c :: d :: l) = true := by
        rw [List.isPrefixOf_iff_prefix, List.cons_prefix_cons, List.cons_prefix_cons]
        exact fun h => hpair ⟨h.1.symm, h.2.1.symm⟩
      rw [if_neg hhead, if_neg hstart]

theorem replaceAll_pair_of_ne {c : α} (h : c ≠ mark) (l : List α) :
    replaceAll id [y] [mark, x] (c :: l) = c :: replaceAll id [y] [mark, x] l := by
  rw [replaceAll_pair, if_neg fun hc => h hc.1]

theorem replaceAll_pair_skip {l : List α} (h : l.head? ≠ some x) :
    replaceAll id [y] [mark, x] (mark :: l) = mark :: replaceAll id [y] [mark, x] l := by
  rw [replaceAll_pair, if_neg fun hl => h hl.2]

theorem replaceAll_pair_differs {d : α} (h : d ≠ x) (l : List α) :
    replaceAll id [y] [mark, x] (mark :: d :: l) = mark :: replaceAll id [y] [mark, x] (d :: l) :=
  replaceAll_pair_skip fun hd => h (Option.some.inj hd)

theorem replaceAll_pair_found (l : List α) :
    replaceAll id [y] [mark, x] (mark :: x :: l) = y :: replaceAll id [y] [mark, x] l := by
  rw [replaceAll_pair, if_pos ⟨rfl, rfl⟩, List.tail_cons]

/-! ### A single pass -/

/-- A mark and a letter that `pairs` knows are replaced by what it gives. -/
def unpair (mark : α) (pairs : α → Option α) : List α → List α
  | [] => []
  | [c] => [c]
  | c :: d :: l =>
      if c = mark then
        match pairs d with
        | some e => e :: unpair mark pairs l
        | none => c :: unpair mark pairs (d :: l)
      else c :: unpair mark pairs (d :: l)

variable {pairs : α → Option α}

theorem unpair_of_ne {c : α} (h : c ≠ mark) (l : List α) :
    unpair mark pairs (c :: l) = c :: unpair mark pairs l := by
  cases l with
  | nil => rfl
  | cons d l => rw [unpair, if_neg h]

theorem unpair_found {d e : α} (h : pairs d = some e) (l : List α) :
    unpair mark pairs (mark :: d :: l) = e :: unpair mark pairs l := by
  rw [unpair, if_pos rfl, h]

theorem unpair_skip {d : α} (h : pairs d = none) (l : List α) :
    unpair mark pairs (mark :: d :: l) = mark :: unpair mark pairs (d :: l) := by
  rw [unpair, if_pos rfl, h]

theorem unpair_none (l : List α) : unpair mark (fun _ => none) l = l := by
  induction l with
  | nil => rfl
  | cons c l ih =>
    by_cases hc : c = mark
    · subst hc
      cases l with
      | nil => rfl
      | cons d l => rw [unpair_skip rfl, ih]
    · rw [unpair_of_ne hc, ih]

/-- What stands in front after a pass: the first letter, or what a pair gave. -/
theorem head?_unpair_cons (d : α) (l : List α) :
    (unpair mark pairs (d :: l)).head? = some d ∨
      d = mark ∧ ∃ c e, pairs c = some e ∧ (unpair mark pairs (d :: l)).head? = some e := by
  by_cases hd : d = mark
  · subst hd
    cases l with
    | nil => exact .inl rfl
    | cons c l =>
      cases hc : pairs c with
      | none => exact .inl (by rw [unpair_skip hc, List.head?_cons])
      | some e => exact .inr ⟨rfl, c, e, hc, by rw [unpair_found hc, List.head?_cons]⟩
  · exact .inl (by rw [unpair_of_ne hd, List.head?_cons])

/-- **A further replacement joins the pass.**  No pair so far gives a mark or the letter of
    the new pair. -/
theorem replaceAll_unpair (hx : x ≠ mark) (hnew : pairs x = none)
    (hgiven : ∀ d e, pairs d = some e → e ≠ mark ∧ e ≠ x) (l : List α) :
    replaceAll id [y] [mark, x] (unpair mark pairs l) =
      unpair mark (Function.update pairs x (some y)) l := by
  induction l using unpair.induct mark pairs with
  | case1 => rfl
  | case2 c => simp [unpair, replaceAll, replaceFrom]
  | case3 d l e he ih =>
    have hd : d ≠ x := by
      rintro rfl
      rw [hnew] at he
      cases he
    rw [unpair_found he, replaceAll_pair_of_ne (hgiven d e he).1, ih, unpair_found]
    rw [Function.update_of_ne hd, he]
  | case4 d l he ih =>
    rw [unpair_skip he]
    by_cases hd : d = x
    · subst hd
      rw [unpair_of_ne hx, replaceAll_pair_found, unpair_found (Function.update_self _ _ _)]
      rw [unpair_of_ne hx, replaceAll_pair_of_ne hx, unpair_of_ne hx] at ih
      rw [(List.cons.inj ih).2]
    · have hhead : (unpair mark pairs (d :: l)).head? ≠ some x := by
        rcases @head?_unpair_cons α _ mark pairs d l with h | ⟨-, c, e, hc, h⟩
        · rw [h]
          exact fun heq => hd (Option.some.inj heq)
        · rw [h]
          exact fun heq => (hgiven c e hc).2 (Option.some.inj heq)
      rw [replaceAll_pair_skip hhead, ih, unpair_skip]
      rw [Function.update_of_ne hd, he]
  | case5 c d l hc ih =>
    rw [unpair_of_ne hc, replaceAll_pair_of_ne hc, ih, unpair_of_ne hc]

/-! ### A chain of replacements -/

/-- Each pair in turn is replaced in the whole text. -/
def replaceChain (mark : α) (rs : List (α × α)) (text : List α) : List α :=
  rs.foldl (fun text r => replaceAll id [r.2] [mark, r.1] text) text

/-- No pair has a letter that an earlier one has or gives, and none has or gives a mark. -/
def Ordered (mark : α) (rs : List (α × α)) : Prop :=
  rs.Pairwise (fun r r' => r'.1 ≠ r.1 ∧ r.2 ≠ r'.1) ∧ ∀ r ∈ rs, r.1 ≠ mark ∧ r.2 ≠ mark

instance (mark : α) (rs : List (α × α)) : Decidable (Ordered mark rs) :=
  inferInstanceAs (Decidable (_ ∧ _))

theorem replaceChain_unpair {rs : List (α × α)} (hrs : Ordered mark rs)
    (hnew : ∀ r ∈ rs, pairs r.1 = none)
    (hgiven : ∀ d e, pairs d = some e → e ≠ mark ∧ ∀ r ∈ rs, e ≠ r.1) (l : List α) :
    replaceChain mark rs (unpair mark pairs l) =
      unpair mark (fun c => pairs c <|> rs.lookup c) l := by
  induction rs generalizing pairs with
  | nil => simp [replaceChain]
  | cons r rs ih =>
    obtain ⟨hpairs, hletters⟩ := hrs
    rw [List.pairwise_cons] at hpairs
    have hrest : Ordered mark rs :=
      ⟨hpairs.2, fun r' hr' => hletters r' (List.mem_cons_of_mem r hr')⟩
    have hr := hletters r List.mem_cons_self
    rw [replaceChain, List.foldl_cons, replaceAll_unpair hr.1 (hnew r List.mem_cons_self)
      fun d e he => ⟨(hgiven d e he).1, (hgiven d e he).2 r List.mem_cons_self⟩]
    have hchain := @ih (Function.update pairs r.1 (some r.2)) hrest ?_ ?_
    · rw [replaceChain] at hchain
      rw [hchain]
      congr 1
      funext c
      by_cases hc : c = r.1
      · subst hc
        rw [Function.update_self, hnew r List.mem_cons_self, List.lookup_cons, beq_self_eq_true]
        rfl
      · rw [Function.update_of_ne hc, List.lookup_cons, beq_eq_false_iff_ne.mpr hc]
    · intro r' hr'
      rw [Function.update_of_ne (hpairs.1 r' hr').1]
      exact hnew r' (List.mem_cons_of_mem r hr')
    · intro d e he
      by_cases hd : d = r.1
      · subst hd
        rw [Function.update_self] at he
        cases he
        exact ⟨hr.2, fun r' hr' => (hpairs.1 r' hr').2⟩
      · rw [Function.update_of_ne hd] at he
        exact ⟨(hgiven d e he).1,
          fun r' hr' => (hgiven d e he).2 r' (List.mem_cons_of_mem r hr')⟩

/-- **A chain of replacements is one pass.** -/
theorem replaceChain_eq {rs : List (α × α)} (hrs : Ordered mark rs) (l : List α) :
    replaceChain mark rs l = unpair mark (rs.lookup ·) l := by
  have h := @replaceChain_unpair α _ mark (fun _ => none) rs hrs (fun _ _ => rfl)
    (fun _ _ he => by cases he) l
  rw [unpair_none] at h
  rw [h]
  rfl

end EscapePairs
