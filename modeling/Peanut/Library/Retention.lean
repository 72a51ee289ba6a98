import Mathlib.Data.List.Basic
import Mathlib.Data.List.Perm.Basic
import Mathlib.Data.List.Nodup

/-!
# Keeping the newest entries

A rotation sorts its entries by time, the oldest first, and drops all but the
last `n`.  Entries of the same time stay in the order in which they were read, so
which of them are dropped depends on that order.
-/

namespace Retention

universe u

variable {α : Type u} (time : α → Nat)

def notNewer (a b : α) : Bool := decide (time a ≤ time b)

/-- The oldest first. -/
def byTime (l : List α) : List α := l.mergeSort (notNewer time)

/-- What a rotation that keeps `n` entries drops. -/
def dropped (n : Nat) (l : List α) : List α :=
  (byTime time l).take ((byTime time l).length - n)

theorem dropped_of_pairwise {n : Nat} {l : List α}
    (h : l.Pairwise fun a b => notNewer time a b = true) :
    dropped time n l = l.take (l.length - n) := by
  rw [dropped, byTime, List.mergeSort_of_pairwise h]

theorem notNewer_trans (a b c : α) (hab : notNewer time a b = true)
    (hbc : notNewer time b c = true) : notNewer time a c = true := by
  simp only [notNewer, decide_eq_true_eq] at *
  omega

theorem notNewer_total (a b : α) : (notNewer time a b || notNewer time b a) = true := by
  simp only [notNewer, Bool.or_eq_true, decide_eq_true_eq]
  omega

theorem byTime_perm (l : List α) : (byTime time l).Perm l := List.mergeSort_perm l _

theorem byTime_sorted (l : List α) :
    (byTime time l).Pairwise fun a b => time a ≤ time b := by
  refine (List.pairwise_mergeSort (notNewer_trans time) (notNewer_total time) l).imp ?_
  intro a b hab
  exact of_decide_eq_true hab

theorem mem_of_mem_dropped {n : Nat} {l : List α} {x : α} (h : x ∈ dropped time n l) : x ∈ l :=
  (byTime_perm time l).mem_iff.mp (List.mem_of_mem_take h)

theorem dropped_nodup {n : Nat} {l : List α} (h : l.Nodup) : (dropped time n l).Nodup :=
  ((byTime_perm time l).nodup_iff.mpr h).sublist (List.take_sublist _ _)

variable {time}

/-- An entry stays when fewer than `n` others are as new. -/
theorem not_mem_dropped {n : Nat} {l : List α} {x : α} {p : α → Bool} (hnodup : l.Nodup)
    (hp : ∀ y ∈ l, y ≠ x → time x ≤ time y → p y = true) (hfew : (l.filter p).length < n) :
    x ∉ dropped time n l := by
  intro hx
  have hsplit := List.take_append_drop ((byTime time l).length - n) (byTime time l)
  -- everything behind `x` is as new as `x`
  have hlater : ∀ y ∈ (byTime time l).drop ((byTime time l).length - n), p y = true := by
    intro y hy
    have hsorted := byTime_sorted time l
    have hdistinct := (byTime_perm time l).nodup_iff.mpr hnodup
    rw [← hsplit] at hsorted hdistinct
    have hle : time x ≤ time y := (List.pairwise_append.mp hsorted).2.2 x hx y hy
    have hne : y ≠ x := by
      rintro rfl
      exact (List.nodup_append.mp hdistinct).2.2 y hx y hy rfl
    exact hp y ((byTime_perm time l).mem_iff.mp (List.mem_of_mem_drop hy)) hne hle
  have hcount : n ≤ (l.filter p).length := by
    have hpos : 0 < (dropped time n l).length := List.length_pos_of_mem hx
    have hlen : ((byTime time l).drop ((byTime time l).length - n)).length = n := by
      rw [dropped, List.length_take] at hpos
      rw [List.length_drop]
      omega
    calc n = ((byTime time l).drop ((byTime time l).length - n)).length := hlen.symm
      _ = (((byTime time l).drop ((byTime time l).length - n)).filter p).length := by
          rw [List.filter_eq_self.mpr hlater]
      _ ≤ ((byTime time l).filter p).length :=
          ((List.drop_sublist _ _).filter p).length_le
      _ = (l.filter p).length := ((byTime_perm time l).filter p).length_eq
  omega

/-- The entry read first is dropped when `n` others are as new. -/
theorem mem_dropped_cons {n : Nat} {rest : List α} {x : α} {p : α → Bool}
    (hp : ∀ y ∈ rest, p y = true → time x ≤ time y) (hmany : n ≤ (rest.filter p).length) :
    x ∈ dropped time n (x :: rest) := by
  obtain ⟨before, after, hcons, hrest, hbefore⟩ :=
    List.mergeSort_cons (notNewer_trans time) (notNewer_total time) x rest
  have hperm : (before ++ after).Perm rest := hrest ▸ List.mergeSort_perm rest _
  -- nothing as new as `x` is sorted before it
  have hnone : before.filter p = [] := by
    rw [List.filter_eq_nil_iff]
    intro y hy hpy
    have hle := hp y (hperm.mem_iff.mp (List.mem_append_left _ hy)) hpy
    have hlt := hbefore y hy
    simp only [notNewer, Bool.not_eq_true', decide_eq_false_iff_not] at hlt
    exact hlt hle
  have hafter : n ≤ after.length := by
    calc n ≤ (rest.filter p).length := hmany
      _ = ((before ++ after).filter p).length := (hperm.filter p).length_eq.symm
      _ = (after.filter p).length := by rw [List.filter_append, hnone, List.nil_append]
      _ ≤ after.length := List.length_filter_le _ _
  have hsorted : byTime time (x :: rest) = before ++ x :: after := hcons
  rw [dropped, hsorted]
  have hlen : before.length + 1 ≤ (before ++ x :: after).length - n := by
    simp only [List.length_append, List.length_cons]
    omega
  exact (List.take_subset_take_left _ hlen) (by simp [List.take_append])

/-- What stays is at least as new as what is dropped. -/
theorem dropped_le_kept {n : Nat} {l : List α} {x y : α} (hx : x ∈ dropped time n l) (hy : y ∈ l)
    (hkept : y ∉ dropped time n l) : time x ≤ time y := by
  have hsplit := List.take_append_drop ((byTime time l).length - n) (byTime time l)
  have hmem : y ∈ byTime time l := (byTime_perm time l).mem_iff.mpr hy
  have hsorted := byTime_sorted time l
  rw [← hsplit] at hsorted hmem
  rcases List.mem_append.mp hmem with hdropped | hstays
  · exact absurd hdropped hkept
  · exact (List.pairwise_append.mp hsorted).2.2 x hx y hstays

/-- **How many stay.** -/
theorem length_kept {n : Nat} {l : List α} {p : α → Bool} (hnodup : l.Nodup)
    (hp : ∀ x ∈ l, p x = true ↔ x ∉ dropped time n l) : (l.filter p).length = min l.length n := by
  have hsplit := List.take_append_drop ((byTime time l).length - n) (byTime time l)
  have hdistinct := (byTime_perm time l).nodup_iff.mpr hnodup
  rw [← hsplit] at hdistinct
  have hgone : ((byTime time l).take ((byTime time l).length - n)).filter p = [] := by
    rw [List.filter_eq_nil_iff]
    intro x hx hpx
    exact (hp x (mem_of_mem_dropped time hx)).mp hpx hx
  have hstay : ((byTime time l).drop ((byTime time l).length - n)).filter p =
      (byTime time l).drop ((byTime time l).length - n) := by
    rw [List.filter_eq_self]
    intro x hx
    rw [hp x ((byTime_perm time l).mem_iff.mp (List.mem_of_mem_drop hx))]
    exact fun hdropped => (List.nodup_append.mp hdistinct).2.2 x hdropped x hx rfl
  calc (l.filter p).length = ((byTime time l).filter p).length :=
        ((byTime_perm time l).filter p).length_eq.symm
    _ = ((byTime time l).drop ((byTime time l).length - n)).length := by
        rw [← hsplit, List.filter_append, hgone, List.nil_append, hsplit, hstay]
    _ = min l.length n := by
        rw [List.length_drop, (byTime_perm time l).length_eq]
        omega

end Retention
