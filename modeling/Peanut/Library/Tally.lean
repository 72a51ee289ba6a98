import Mathlib.Data.List.Count
import Mathlib.Data.List.Nodup
import Mathlib.Data.List.Perm.Subperm

/-!
# Tallies

A tally counts how often each element of a list occurs, in a table that is searched for
the element and grows at its end.  What stands among the first `k` of a sorted list has
fewer than `k` elements before it (`length_lt_of_mem_take`).
-/

universe u

namespace Tally

variable {κ : Type u} [DecidableEq κ]

/-- Count an element once more. -/
def add : List (κ × Nat) → κ → List (κ × Nat)
  | [], k => [(k, 1)]
  | entry :: counts, k =>
      if entry.1 = k then (entry.1, entry.2 + 1) :: counts else entry :: add counts k

def tally (l : List κ) : List (κ × Nat) := l.foldl add []

/-- Each element stands once, with the number of its occurrences. -/
structure Counts (counts : List (κ × Nat)) (occurrences : κ → Nat) : Prop where
  keys : (counts.map Prod.fst).Nodup
  entry : ∀ k n, (k, n) ∈ counts ↔ 0 < n ∧ n = occurrences k

theorem keys_add (counts : List (κ × Nat)) (k k' : κ) :
    k' ∈ (add counts k).map Prod.fst ↔ k' ∈ counts.map Prod.fst ∨ k' = k := by
  induction counts with
  | nil => simp [add]
  | cons entry counts ih =>
    rw [add]
    split
    · next heq =>
      rw [List.map_cons, List.map_cons, List.mem_cons]
      refine ⟨.inl, ?_⟩
      rintro (h | rfl)
      · exact h
      · exact .inl heq.symm
    · rw [List.map_cons, List.map_cons, List.mem_cons, List.mem_cons, ih, or_assoc]

theorem keys_add_nodup {counts : List (κ × Nat)} (h : (counts.map Prod.fst).Nodup) (k : κ) :
    ((add counts k).map Prod.fst).Nodup := by
  induction counts with
  | nil => exact List.nodup_singleton k
  | cons entry counts ih =>
    rw [List.map_cons, List.nodup_cons] at h
    rw [add]
    split
    · rw [List.map_cons, List.nodup_cons]
      exact h
    · next hne =>
      rw [List.map_cons, List.nodup_cons, keys_add]
      refine ⟨?_, ih h.2⟩
      rintro (hmem | heq)
      · exact h.1 hmem
      · exact hne heq

/-- What stands in the table after one more. -/
theorem mem_add {counts : List (κ × Nat)} (h : (counts.map Prod.fst).Nodup) {k k' : κ} {n : Nat} :
    (k', n) ∈ add counts k ↔ if k' = k then
      (∃ m, (k, m) ∈ counts ∧ n = m + 1) ∨ k ∉ counts.map Prod.fst ∧ n = 1
      else (k', n) ∈ counts := by
  induction counts with
  | nil =>
    rw [add, List.mem_singleton, Prod.mk.injEq]
    split
    · next heq => simp [heq]
    · next hne => simp [hne]
  | cons entry counts ih =>
    obtain ⟨key, m⟩ := entry
    rw [List.map_cons, List.nodup_cons] at h
    have hnot : ∀ m', (key, m') ∉ counts := fun m' hmem =>
      h.1 (List.mem_map.mpr ⟨_, hmem, rfl⟩)
    rw [add]
    by_cases hkey : key = k
    · subst hkey
      rw [if_pos rfl, List.mem_cons, Prod.mk.injEq]
      by_cases hk : k' = key
      · subst hk
        simp [hnot]
      · simp [hk]
    · rw [if_neg hkey, List.mem_cons, ih h.2, Prod.mk.injEq]
      by_cases hk : k' = k
      · subst hk
        simp [Ne.symm hkey]
      · simp [hk]

theorem Counts.add {counts : List (κ × Nat)} {occurrences : κ → Nat} (h : Counts counts occurrences)
    (k : κ) : Counts (add counts k) fun k' => occurrences k' + if k' = k then 1 else 0 := by
  refine ⟨keys_add_nodup h.keys k, ?_⟩
  intro k' n
  rw [mem_add h.keys]
  have habsent : k ∉ counts.map Prod.fst ↔ occurrences k = 0 := by
    rw [← not_iff_not, not_not, ← Ne, ← Nat.pos_iff_ne_zero, List.mem_map]
    constructor
    · rintro ⟨⟨key, m⟩, hmem, rfl⟩
      obtain ⟨hpos, rfl⟩ := (h.entry _ _).mp hmem
      exact hpos
    · intro hpos
      exact ⟨(k, occurrences k), (h.entry _ _).mpr ⟨hpos, rfl⟩, rfl⟩
  by_cases hk : k' = k
  · subst hk
    simp only [if_true, h.entry, habsent]
    constructor
    · rintro (⟨m, ⟨-, rfl⟩, rfl⟩ | ⟨hzero, rfl⟩)
      · exact ⟨Nat.succ_pos _, rfl⟩
      · exact ⟨Nat.one_pos, by omega⟩
    · rintro ⟨-, rfl⟩
      by_cases hzero : occurrences k' = 0
      · exact .inr ⟨hzero, by omega⟩
      · exact .inl ⟨occurrences k', ⟨by omega, rfl⟩, rfl⟩
  · simp only [hk, if_false, h.entry, Nat.add_zero]

/-- **A tally counts the occurrences.** -/
theorem counts_tally (l : List κ) : Counts (tally l) fun k => l.count k := by
  have hfold : ∀ (l : List κ) (counts : List (κ × Nat)) (occurrences : κ → Nat),
      Counts counts occurrences →
        Counts (l.foldl Tally.add counts) fun k => occurrences k + l.count k := by
    intro l
    induction l with
    | nil =>
      intro counts occurrences h
      exact h
    | cons a l ih =>
      intro counts occurrences h
      have hstep := ih _ _ (h.add a)
      rw [List.foldl_cons]
      convert hstep using 2 with k
      rw [List.count_cons]
      by_cases hk : k = a
      · subst hk
        simp only [beq_self_eq_true, if_true]
        omega
      · simp only [beq_eq_false_iff_ne.mpr (Ne.symm hk), hk, if_false, Bool.false_eq_true]
        omega
  have hempty : Counts ([] : List (κ × Nat)) fun _ => 0 :=
    ⟨List.nodup_nil, fun k n => ⟨fun h => absurd h List.not_mem_nil, fun h =>
      absurd h.2 (by omega)⟩⟩
  simpa [tally] using hfold l [] _ hempty

theorem mem_tally {l : List κ} {k : κ} {n : Nat} : (k, n) ∈ tally l ↔ k ∈ l ∧ n = l.count k := by
  rw [(counts_tally l).entry, ← List.count_pos_iff]
  constructor
  · rintro ⟨hpos, rfl⟩
    exact ⟨hpos, rfl⟩
  · rintro ⟨hpos, rfl⟩
    exact ⟨hpos, rfl⟩

/-! ### The first of a sorted list -/

variable {α : Type u} {r : α → α → Prop}

/-- What is left out does not go before what is listed. -/
theorem rel_of_mem_take_of_mem_drop {l : List α} (hsorted : l.Pairwise r) {k : Nat} {a b : α}
    (ha : a ∈ l.take k) (hb : b ∈ l.drop k) : r a b := by
  rw [← List.take_append_drop k l, List.pairwise_append] at hsorted
  exact hsorted.2.2 a ha b hb

/-- **Fewer than `k` elements go before one of the first `k`.** -/
theorem length_lt_of_mem_take {l before : List α} (hsorted : l.Pairwise r) {k : Nat} {a : α}
    (ha : a ∈ l.take k) (hnodup : before.Nodup)
    (hbefore : ∀ b ∈ before, b ∈ l ∧ ¬ r a b ∧ b ≠ a) : before.length < k := by
  have hsubset : a :: before ⊆ l.take k := by
    intro b hb
    rcases List.mem_cons.mp hb with rfl | hb
    · exact ha
    · obtain ⟨hmem, hnot, -⟩ := hbefore b hb
      rw [← List.take_append_drop k l, List.mem_append] at hmem
      exact hmem.resolve_right fun hdrop => hnot (rel_of_mem_take_of_mem_drop hsorted ha hdrop)
  have hall : (a :: before).Nodup :=
    List.nodup_cons.mpr ⟨fun hmem => (hbefore a hmem).2.2 rfl, hnodup⟩
  have hlength := (List.subperm_of_subset hall hsubset).length_le
  rw [List.length_cons, List.length_take] at hlength
  omega

end Tally
