import Mathlib.Order.Lattice
import Mathlib.Data.List.Basic

/-!
# Polling a log behind a filter

A log is sorted by a key.  A reader asks for what comes after a cursor, is given
those of the next `n` entries that pass a filter, moves the cursor to the last
of them and asks again, until nothing is given.  Entries that do not pass do not
move the cursor, so `n` of them in a row end the polling whatever comes after.
-/

namespace CursorPolling

universe u v

variable {α : Type u} {κ : Type v}

/-- Ask until nothing comes, at most so many times. -/
def poll (key : α → κ) (fetch : κ → List α) : Nat → κ → Option (List α)
  | 0, _ => none
  | rounds + 1, cursor =>
      match (fetch cursor).getLast? with
      | none => some []
      | some last => (poll key fetch rounds (key last)).map (fetch cursor ++ ·)

/-- Fewer than `n` entries that do not pass stand before each that does; `run` of
    them were met already. -/
def gapsBelow (p : α → Bool) (n : Nat) : (run : Nat) → List α → Bool
  | _, [] => true
  | run, a :: log => if p a then decide (run < n) && gapsBelow p n 0 log
      else gapsBelow p n (run + 1) log

variable [LinearOrder κ] (key : α → κ) (p : α → Bool) (n : Nat)

/-- What comes after the cursor. -/
def after (log : List α) (cursor : κ) : List α := log.filter fun a => decide (cursor < key a)

/-- Those of the next `n` entries that pass. -/
def fetchPage (log : List α) (cursor : κ) : List α := ((after key log cursor).take n).filter p

variable {key p n} {log a c : List α} {x : α} {run rounds : Nat} {cursor : κ}

/-! ### The cursor -/

/-- Behind an entry of the log comes the rest of it. -/
theorem after_append_cons (h : (a ++ x :: c).Pairwise fun y z => key y < key z) :
    after key (a ++ x :: c) (key x) = c := by
  obtain ⟨-, hxc, hax⟩ := List.pairwise_append.mp h
  have ha : a.filter (fun y => decide (key x < key y)) = [] :=
    List.filter_eq_nil_iff.mpr fun y hy => by
      rw [decide_eq_true_eq]
      exact lt_asymm (hax y hy x List.mem_cons_self)
  have hc : c.filter (fun y => decide (key x < key y)) = c :=
    List.filter_eq_self.mpr fun y hy => decide_eq_true (List.rel_of_pairwise_cons hxc hy)
  rw [after, List.filter_append, ha, List.nil_append,
    List.filter_cons_of_neg (by rw [decide_eq_true_eq]; exact lt_irrefl _), hc]

/-- What comes after an entry behind the cursor is what comes after it in the rest. -/
theorem after_after (h : cursor < key x) : after key (after key log cursor) (key x) =
    after key log (key x) := by
  rw [after, after, List.filter_filter]
  refine List.filter_congr fun y _ => ?_
  rw [Bool.and_eq_left_iff_imp, decide_eq_true_eq, decide_eq_true_eq]
  exact lt_trans h

/-! ### Gaps -/

theorem gapsBelow_append (ha : ∀ y ∈ a, p y = false) :
    gapsBelow p n run (a ++ c) = gapsBelow p n (run + a.length) c := by
  induction a generalizing run with
  | nil => rfl
  | cons y a ih =>
    rw [List.forall_mem_cons] at ha
    rw [List.cons_append, gapsBelow, ha.1, if_neg Bool.false_ne_true, ih ha.2, List.length_cons,
      Nat.add_assoc, Nat.add_comm 1]

/-- A long gap has to be the last. -/
theorem gapsBelow_iff_of_le (hrun : n ≤ run) :
    gapsBelow p n run c = true ↔ c.filter p = [] := by
  induction c generalizing run with
  | nil => simp [gapsBelow]
  | cons y c ih =>
    cases hy : p y with
    | false =>
      rw [gapsBelow, hy, List.filter_cons_of_neg (by rw [hy]; exact Bool.false_ne_true)]
      exact ih (Nat.le_succ_of_le hrun)
    | true =>
      have hnot : ¬ run < n := Nat.not_lt.mpr hrun
      simp [gapsBelow, hy, hnot]

/-- Up to an entry within reach that passes there is no long gap. -/
theorem gapsBelow_append_cons (hx : p x = true) (hrun : run + a.length < n) :
    gapsBelow p n run (a ++ x :: c) = gapsBelow p n 0 c := by
  induction a generalizing run with
  | nil =>
    have hlt : run < n := hrun
    simp [gapsBelow, hx, hlt]
  | cons y a ih =>
    rw [List.length_cons] at hrun
    rw [List.cons_append, gapsBelow]
    cases hy : p y with
    | false => exact ih (by omega)
    | true =>
      have hlt : run < n := by omega
      rw [if_pos rfl, decide_eq_true hlt, Bool.true_and]
      exact ih (by omega)

/-! ### Polling -/

/-- A list with an entry that passes splits at the last of them. -/
theorem exists_last_filter {l : List α} (h : l.filter p ≠ []) :
    ∃ a x d, l = a ++ x :: d ∧ p x = true ∧ l.filter p = a.filter p ++ [x] ∧
      ∀ y ∈ d, p y = false := by
  induction l with
  | nil => exact absurd rfl h
  | cons y l ih =>
    by_cases hl : l.filter p = []
    · have hrest : ∀ z ∈ l, p z = false := fun z hz => by
        rw [List.filter_eq_nil_iff] at hl
        exact Bool.eq_false_iff.mpr (hl z hz)
      cases hy : p y with
      | false =>
        rw [List.filter_cons_of_neg (by rw [hy]; exact Bool.false_ne_true)] at h
        exact absurd hl h
      | true =>
        exact ⟨[], y, l, rfl, hy, by rw [List.filter_cons_of_pos hy, hl]; rfl, hrest⟩
    · obtain ⟨a, x, d, rfl, hx, hfilter, hd⟩ := ih hl
      refine ⟨y :: a, x, d, rfl, hx, ?_, hd⟩
      rw [List.filter_cons, List.filter_cons, hfilter]
      split <;> rfl

/-- Polling gives entries of the log. -/
theorem mem_of_poll {collected : List α}
    (h : poll key (fetchPage key p n log) rounds cursor = some collected) :
    ∀ y ∈ collected, y ∈ log := by
  induction rounds generalizing cursor collected with
  | zero => cases h
  | succ rounds ih =>
    rw [poll] at h
    split at h
    · cases h
      exact fun y hy => nomatch hy
    · obtain ⟨rest, hrest, rfl⟩ := Option.map_eq_some_iff.mp h
      intro y hy
      rcases List.mem_append.mp hy with hy | hy
      · exact List.mem_of_mem_filter (List.mem_of_mem_take (List.mem_of_mem_filter hy))
      · exact ih hrest y hy

theorem after_sorted (h : log.Pairwise fun y z => key y < key z) (cursor : κ) :
    (after key log cursor).Pairwise fun y z => key y < key z := h.sublist List.filter_sublist

/-- When nothing comes, what is left passes nothing exactly when the gap is the last. -/
theorem gapsBelow_of_nothing {l : List α} (h : (l.take n).filter p = []) :
    gapsBelow p n 0 l = true ↔ l.filter p = [] := by
  have htake : ∀ y ∈ l.take n, p y = false := fun y hy => by
    rw [List.filter_eq_nil_iff] at h
    exact Bool.eq_false_iff.mpr (h y hy)
  have hsplit : l = l.take n ++ l.drop n := (List.take_append_drop n l).symm
  rw [hsplit, gapsBelow_append htake, List.filter_append, h, List.nil_append, Nat.zero_add]
  rcases Nat.le_total n l.length with hle | hle
  · rw [List.length_take_of_le hle]
    exact gapsBelow_iff_of_le (Nat.le_refl n)
  · rw [List.drop_eq_nil_of_le hle]
    simp [gapsBelow]

/-- **Polling ends with all that passes exactly when** every gap before an entry
    that passes is shorter than a page. -/
theorem poll_eq_filter_iff (hlog : log.Pairwise fun y z => key y < key z)
    (hrounds : (after key log cursor).length < rounds) :
    poll key (fetchPage key p n log) rounds cursor = some ((after key log cursor).filter p) ↔
      gapsBelow p n 0 (after key log cursor) = true := by
  induction rounds generalizing cursor with
  | zero => exact absurd hrounds (Nat.not_lt_zero _)
  | succ rounds ih =>
    by_cases hpage : fetchPage key p n log cursor = []
    · rw [poll, hpage, List.getLast?_nil, gapsBelow_of_nothing hpage, Option.some.injEq, eq_comm]
    · obtain ⟨a, x, d, htake, hx, hfilter, -⟩ := exists_last_filter hpage
      have hlen : (a ++ x :: d).length ≤ n := htake ▸ List.length_take_le _ _
      rw [List.length_append, List.length_cons] at hlen
      have hsplit : after key log cursor = a ++ x :: (d ++ (after key log cursor).drop n) := by
        rw [← List.cons_append, ← List.append_assoc, ← htake, List.take_append_drop]
      generalize d ++ (after key log cursor).drop n = c at hsplit
      have hcursor : cursor < key x := by
        have hmem : x ∈ after key log cursor := by
          rw [hsplit]
          exact List.mem_append_right a List.mem_cons_self
        exact of_decide_eq_true (List.mem_filter.mp hmem).2
      -- the next request goes on behind `x`
      have hrest : after key log (key x) = c := by
        rw [← after_after hcursor, hsplit]
        exact after_append_cons (hsplit ▸ after_sorted hlog cursor)
      have hlast : (fetchPage key p n log cursor).getLast? = some x := by
        rw [fetchPage, hfilter, List.getLast?_append, List.getLast?_singleton]
        rfl
      have hsmall : (after key log (key x)).length < rounds := by
        rw [hsplit, List.length_append, List.length_cons] at hrounds
        rw [hrest]
        omega
      have hall : (after key log cursor).filter p = fetchPage key p n log cursor ++ c.filter p := by
        rw [fetchPage, hfilter, hsplit, List.filter_append, List.filter_cons_of_pos hx,
          List.append_assoc]
        rfl
      rw [poll, hlast, hall, Option.map_eq_some_iff]
      simp only [List.append_right_inj, exists_eq_right]
      rw [← hrest, ih hsmall, hrest, hsplit, gapsBelow_append_cons hx (by omega)]

end CursorPolling
