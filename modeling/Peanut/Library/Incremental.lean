import Mathlib.Data.List.Infix

/-!
# Reading input piece by piece

A reader takes what it can off the front of its input and leaves a rest, to be read
again with the input that comes next.  Reading is the same however the input is cut
when it goes on from the rest as it would have gone on from the whole (`feed_eq`).

`splitting` is the reader that cuts a text at a separator; the piece behind the last
separator is its rest.
-/

universe u v

namespace Incremental

variable {α : Type u} {β : Type v}

/-! ### Readers -/

structure Reader (α : Type u) (β : Type v) where
  output : List α → List β
  rest : List α → List α
  output_append : ∀ a b, output (a ++ b) = output a ++ output (rest a ++ b)
  rest_append : ∀ a b, rest (a ++ b) = rest (rest a ++ b)

namespace Reader

variable (r : Reader α β)

/-- Nothing can be taken off a rest. -/
theorem output_rest (a : List α) : r.output (r.rest a) = [] := by
  have h := r.output_append a []
  rw [List.append_nil, List.append_nil] at h
  exact List.self_eq_append_right.mp h

/-- What each piece of the input brings, after a rest. -/
def feed : List α → List (List α) → List (List β)
  | _, [] => []
  | buffer, chunk :: chunks => r.output (buffer ++ chunk) :: feed (r.rest (buffer ++ chunk)) chunks

/-- **It does not matter how the input is cut.** -/
theorem feed_eq {buffer : List α} (h : r.output buffer = []) (chunks : List (List α)) :
    (r.feed buffer chunks).flatten = r.output (buffer ++ chunks.flatten) := by
  induction chunks generalizing buffer with
  | nil =>
    rw [feed, List.flatten_nil, List.flatten_nil, List.append_nil, h]
  | cons chunk chunks ih =>
    rw [feed, List.flatten_cons, ih (r.output_rest _), List.flatten_cons, ← List.append_assoc,
      r.output_append (buffer ++ chunk)]

end Reader

/-! ### Splitting at a separator -/

variable [DecidableEq α]

/-- The pieces between the occurrences of a separator, found from the left.  `skip`
    letters of the last occurrence are still to be passed over. -/
def pieces (sep : List α) : Nat → List α → List (List α)
  | _, [] => [[]]
  | skip + 1, _ :: text => pieces sep skip text
  | 0, c :: text =>
      if sep.isPrefixOf (c :: text) then [] :: pieces sep (sep.length - 1) text
      else (pieces sep 0 text).modifyHead (c :: ·)

variable {sep : List α}

theorem pieces_ne_nil (skip : Nat) (text : List α) : pieces sep skip text ≠ [] := by
  induction text generalizing skip with
  | nil => simp [pieces]
  | cons c text ih =>
    cases skip with
    | succ skip => exact ih skip
    | zero =>
      rw [pieces]
      split
      · simp
      · rw [Ne, List.modifyHead_eq_nil_iff]
        exact ih 0

theorem isPrefixOf_append {c : α} {text : List α} (h : sep.isPrefixOf (c :: text) = true)
    (more : List α) : sep.isPrefixOf (c :: (text ++ more)) = true := by
  rw [List.isPrefixOf_iff_prefix] at h ⊢
  exact h.trans (List.prefix_append (c :: text) more)

/-- A text that is shorter than the separator is one piece. -/
theorem pieces_of_short {text : List α} (h : text.length < sep.length) :
    pieces sep 0 text = [text] := by
  induction text with
  | nil => rfl
  | cons c text ih =>
    have hnot : ¬ sep.isPrefixOf (c :: text) = true := by
      rw [List.isPrefixOf_iff_prefix]
      exact fun hprefix => absurd hprefix.length_le (Nat.not_le.mpr h)
    rw [pieces, if_neg hnot, ih (Nat.lt_of_succ_lt h)]
    rfl

/-- The only piece of a text is the text. -/
theorem eq_of_pieces_eq_singleton {text piece : List α} (h : pieces sep 0 text = [piece]) :
    piece = text := by
  induction text generalizing piece with
  | nil => exact (List.cons.inj h).1.symm
  | cons c text ih =>
    rw [pieces] at h
    split at h
    · exact absurd (List.cons.inj h).2 (pieces_ne_nil _ _)
    · obtain ⟨first, others, hpieces⟩ := List.exists_cons_of_ne_nil (@pieces_ne_nil α _ sep 0 text)
      rw [hpieces, List.modifyHead_cons, List.cons.injEq] at h
      rw [h.2] at hpieces
      rw [← h.1, ih hpieces]

/-- What is found in the front of a text is found in the text, and the search goes on
    from the piece behind it. -/
theorem pieces_append (more : List α) : ∀ {text : List α} {skip : Nat}, skip ≤ text.length →
    pieces sep skip (text ++ more) = (pieces sep skip text).dropLast ++
      pieces sep 0 ((pieces sep skip text).getLastD [] ++ more) := by
  intro text
  induction text with
  | nil =>
    intro skip hskip
    rw [Nat.le_zero.mp hskip]
    rfl
  | cons c text ih =>
    intro skip hskip
    cases skip with
    | succ skip => exact ih (Nat.le_of_succ_le_succ hskip)
    | zero =>
      by_cases hfound : sep.isPrefixOf (c :: text) = true
      · have hlength : sep.length - 1 ≤ text.length := by
          have := (List.isPrefixOf_iff_prefix.mp hfound).length_le
          rw [List.length_cons] at this
          omega
        rw [List.cons_append, pieces, if_pos (isPrefixOf_append hfound more), pieces,
          if_pos hfound, ih hlength, List.dropLast_cons_of_ne_nil (pieces_ne_nil _ _),
          List.cons_append]
        obtain ⟨first, others, hpieces⟩ :=
          List.exists_cons_of_ne_nil (@pieces_ne_nil α _ sep (sep.length - 1) text)
        rw [hpieces]
        simp only [List.getLastD_cons]
      · have hpieces : pieces sep 0 (c :: text) = (pieces sep 0 text).modifyHead (c :: ·) := by
          rw [pieces, if_neg hfound]
        rw [hpieces]
        obtain ⟨first, others, htext⟩ :=
          List.exists_cons_of_ne_nil (@pieces_ne_nil α _ sep 0 text)
        rcases others with _ | ⟨second, others⟩
        · -- there is no separator in front, and all of it is searched again
          rw [htext, eq_of_pieces_eq_singleton htext]
          rfl
        · have hlong : sep.length ≤ text.length := by
            by_contra hshort
            rw [pieces_of_short (Nat.not_le.mp hshort)] at htext
            cases htext
          have hnot : ¬ sep.isPrefixOf (c :: (text ++ more)) = true := by
            intro hstart
            rw [List.isPrefixOf_iff_prefix] at hstart
            refine hfound (List.isPrefixOf_iff_prefix.mpr ?_)
            exact List.prefix_of_prefix_length_le hstart (List.prefix_append (c :: text) more)
              (Nat.le_succ_of_le hlong)
          rw [List.cons_append, pieces, if_neg hnot, ih (Nat.zero_le _), htext]
          rfl

/-- The pieces that a separator ends. -/
def splitting (sep : List α) : Reader α (List α) where
  output text := (pieces sep 0 text).dropLast
  rest text := (pieces sep 0 text).getLastD []
  output_append a b := by
    rw [pieces_append b (Nat.zero_le _), List.dropLast_append_of_ne_nil (pieces_ne_nil _ _)]
  rest_append a b := by
    rw [pieces_append b (Nat.zero_le _)]
    simp only [List.getLastD_eq_getLast?]
    rw [List.getLast?_append_of_ne_nil _ (pieces_ne_nil _ _)]

/-- The pieces with their separators are the text. -/
theorem flatMap_pieces (hsep : sep ≠ []) : ∀ {text : List α} {skip : Nat}, skip ≤ text.length →
    (pieces sep skip text).dropLast.flatMap (· ++ sep) ++ (pieces sep skip text).getLastD [] =
      text.drop skip := by
  intro text
  induction text with
  | nil =>
    intro skip hskip
    rw [Nat.le_zero.mp hskip]
    rfl
  | cons c text ih =>
    intro skip hskip
    rcases skip with _ | skip
    · by_cases hfound : sep.isPrefixOf (c :: text) = true
      · obtain ⟨after, hafter⟩ := List.isPrefixOf_iff_prefix.mp hfound
        have hlength : sep.length - 1 ≤ text.length := by
          have := congrArg List.length hafter
          simp only [List.length_append, List.length_cons] at this
          omega
        have hdrop : text.drop (sep.length - 1) = after := by
          have hpos := List.length_pos_iff.mpr hsep
          have hshift : (c :: text).drop sep.length = text.drop (sep.length - 1) := by
            rw [← Nat.sub_add_cancel hpos, List.drop_succ_cons, Nat.add_sub_cancel]
          rw [← hshift, ← hafter, List.drop_left]
        have hrest := ih hlength
        obtain ⟨first, others, hpieces⟩ :=
          List.exists_cons_of_ne_nil (@pieces_ne_nil α _ sep (sep.length - 1) text)
        rw [pieces, if_pos hfound, List.dropLast_cons_of_ne_nil (pieces_ne_nil _ _),
          List.flatMap_cons, List.nil_append, List.append_assoc]
        rw [hpieces] at hrest ⊢
        simp only [List.getLastD_cons] at hrest ⊢
        rw [hrest, hdrop, List.drop_zero, hafter]
      · have hrest := ih (Nat.zero_le text.length)
        rw [pieces, if_neg hfound]
        obtain ⟨first, others, hpieces⟩ :=
          List.exists_cons_of_ne_nil (@pieces_ne_nil α _ sep 0 text)
        rw [hpieces] at hrest ⊢
        rcases others with _ | ⟨second, others⟩
        · simpa using hrest
        · simpa using hrest
    · exact ih (Nat.le_of_succ_le_succ hskip)

/-- A piece without the letter that separates the pieces is one of them. -/
theorem pieces_letter {c : α} {piece : List α} (h : c ∉ piece) (text : List α) :
    pieces [c] 0 (piece ++ c :: text) = piece :: pieces [c] 0 text := by
  induction piece with
  | nil => simp [pieces]
  | cons d piece ih =>
    rw [List.mem_cons, not_or] at h
    rw [List.cons_append, pieces, ih h.2, if_neg]
    · rfl
    · simp [h.1]

theorem output_lines {c : α} {lines : List (List α)} (h : ∀ line ∈ lines, c ∉ line) :
    (splitting [c]).output (lines.flatMap (· ++ [c])) = lines := by
  induction lines with
  | nil => rfl
  | cons line lines ih =>
    rw [List.forall_mem_cons] at h
    have hrest := ih h.2
    simp only [splitting] at hrest ⊢
    rw [List.flatMap_cons, List.append_assoc, List.singleton_append, pieces_letter h.1,
      List.dropLast_cons_of_ne_nil (pieces_ne_nil _ _), hrest]

/-- **Lines come out as they were written**, and what is left is the lines that are to
    come. -/
theorem splitting_cut {c : α} {lines : List (List α)} (h : ∀ line ∈ lines, c ∉ line)
    {text more : List α} (htext : text ++ more = lines.flatMap (· ++ [c])) :
    ∃ left, lines = (splitting [c]).output text ++ left ∧
      (splitting [c]).rest text ++ more = left.flatMap (· ++ [c]) := by
  have hparts : ∀ a, ((splitting [c]).output a).flatMap (· ++ [c]) ++ (splitting [c]).rest a = a :=
    fun a => flatMap_pieces (List.cons_ne_nil c []) (Nat.zero_le a.length)
  have hlines : lines = (splitting [c]).output text ++
      (splitting [c]).output ((splitting [c]).rest text ++ more) := by
    rw [← (splitting [c]).output_append, htext, output_lines h]
  refine ⟨_, hlines, ?_⟩
  have hwhole := congrArg (List.flatMap (· ++ [c])) hlines
  rw [← htext, List.flatMap_append] at hwhole
  nth_rewrite 1 [← hparts text] at hwhole
  rw [List.append_assoc] at hwhole
  exact List.append_cancel_left hwhole

end Incremental
