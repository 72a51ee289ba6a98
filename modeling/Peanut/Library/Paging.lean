import Mathlib.Data.List.Basic
import Mathlib.Data.List.Nodup

/-!
# Pages of a sorted list

Rows are listed in an order in which some of them may tie, a page at a time, and
each page is cut from a listing of its own: rows that tie may have changed places
since the page before.  A row can stand anywhere from the number of rows that
come before it in every listing up to the number of those that may.  The pages
together are the rows, each once, whatever the listings were, exactly when for
each row these places are all on one page.
-/

namespace Paging

universe u

variable {α : Type u}

/-- Any two are comparable, and `le` is transitive. -/
structure WeakOrder (le : α → α → Bool) : Prop where
  total : ∀ a b, le a b = true ∨ le b a = true
  trans : ∀ {a b c}, le a b = true → le b c = true → le a c = true

variable (le : α → α → Bool)

/-- The rows in some order that `le` allows. -/
structure Listing (rows s : List α) : Prop where
  perm : s.Perm rows
  sorted : s.Pairwise fun a b => le a b = true

/-- The rows that come before `r` in every listing. -/
def before (rows : List α) (r : α) : Nat := rows.countP fun x => !le r x

/-- The rows that may come before `r`, and itself. -/
def upTo (rows : List α) (r : α) : Nat := rows.countP fun x => le x r

/-- The places that a row can take are all on one page of `n` rows. -/
def OnOnePage (n : Nat) (rows : List α) : Prop :=
  ∀ r ∈ rows, before le rows r / n = (upTo le rows r - 1) / n

def page (n k : Nat) (s : List α) : List α := (s.drop (k * n)).take n

/-- The first `m` pages, page `k` of the listing made for it. -/
def collected (n m : Nat) (listing : Nat → List α) : List α :=
  (List.range m).flatMap fun k => page n k (listing k)

variable {le} (hle : WeakOrder le) {rows s a b : List α} {r x y : α} {n k m : Nat}

include hle

theorem WeakOrder.refl (r : α) : le r r = true := by
  rcases hle.total r r with h | h <;> exact h

/-- A listing exists. -/
theorem listing_mergeSort (rows : List α) : Listing le rows (rows.mergeSort le) where
  perm := List.mergeSort_perm rows le
  sorted := by
    have htrans : ∀ a b c, le a b = true → le b c = true → le a c = true := fun _ _ _ => hle.trans
    have htotal : ∀ a b, (le a b || le b a) = true := fun a b => by
      rw [Bool.or_eq_true]
      exact hle.total a b
    exact List.pairwise_mergeSort htrans htotal rows

/-! ### Where a row can stand -/

/-- A row stands between its first and its last place. -/
theorem place_of_listing (h : Listing le rows (a ++ r :: b)) :
    before le rows r ≤ a.length ∧ a.length < upTo le rows r := by
  obtain ⟨-, hrb, hab⟩ := List.pairwise_append.mp h.sorted
  have hself := hle.refl r
  constructor
  · have hrest : (r :: b).countP (fun x => !le r x) = 0 := by
      rw [List.countP_eq_zero]
      intro x hx
      rcases List.mem_cons.mp hx with rfl | hx
      · simp [hself]
      · simp [List.rel_of_pairwise_cons hrb hx]
    rw [before, ← h.perm.countP_eq, List.countP_append, hrest]
    exact List.countP_le_length
  · have hfirst : a.countP (fun x => le x r) = a.length :=
      List.countP_eq_length.mpr fun x hx => hab x hx r List.mem_cons_self
    have hrest : 0 < (r :: b).countP fun x => le x r :=
      List.countP_pos_iff.mpr ⟨r, List.mem_cons_self, hself⟩
    rw [upTo, ← h.perm.countP_eq, List.countP_append, hfirst]
    omega

/-- A row at a place that another can take ties with it. -/
theorem tie_of_place (h : Listing le rows (a ++ x :: b)) (hlow : before le rows r ≤ a.length)
    (hhigh : a.length < upTo le rows r) : le r x = true ∧ le x r = true := by
  obtain ⟨-, hxb, hab⟩ := List.pairwise_append.mp h.sorted
  constructor
  · by_contra hnot
    -- `x` and all before it come before `r` in every listing
    have hfirst : a.countP (fun y => !le r y) = a.length := by
      refine List.countP_eq_length.mpr fun y hy => ?_
      rw [Bool.not_eq_true', Bool.eq_false_iff]
      exact fun hry => hnot (hle.trans hry (hab y hy x List.mem_cons_self))
    rw [before, ← h.perm.countP_eq, List.countP_append, hfirst,
      List.countP_cons_of_pos (by simp [hnot])] at hlow
    omega
  · by_contra hnot
    -- neither `x` nor any after it can come before `r`
    have hrest : (x :: b).countP (fun y => le y r) = 0 := by
      rw [List.countP_eq_zero]
      intro y hy hyr
      rcases List.mem_cons.mp hy with rfl | hy
      · exact hnot hyr
      · exact hnot (hle.trans (List.rel_of_pairwise_cons hxb hy) hyr)
    have hle' : a.countP (fun y => le y r) ≤ a.length := List.countP_le_length
    rw [upTo, ← h.perm.countP_eq, List.countP_append, hrest] at hhigh
    omega

omit hle in
/-- Neighbours that tie may change places. -/
theorem Listing.swap (h : Listing le rows (a ++ x :: y :: b)) (hyx : le y x = true) :
    Listing le rows (a ++ y :: x :: b) where
  perm := (List.Perm.append_left a (List.Perm.swap x y b)).trans h.perm
  sorted := by
    obtain ⟨ha, hxyb, hab⟩ := List.pairwise_append.mp h.sorted
    obtain ⟨hx, hyb⟩ := List.pairwise_cons.mp hxyb
    obtain ⟨hy, hb⟩ := List.pairwise_cons.mp hyb
    refine List.pairwise_append.mpr ⟨ha, ?_, fun c hc d hd => hab c hc d ?_⟩
    · refine List.pairwise_cons.mpr ⟨?_, List.pairwise_cons.mpr
        ⟨fun d hd => hx d (List.mem_cons_of_mem y hd), hb⟩⟩
      intro d hd
      rcases List.mem_cons.mp hd with rfl | hd
      · exact hyx
      · exact hy d hd
    · simp only [List.mem_cons] at hd ⊢
      tauto

/-! ### Pages -/

omit hle in
theorem take_succ_mul (s : List α) : s.take ((k + 1) * n) = s.take (k * n) ++ page n k s := by
  rw [Nat.succ_mul, List.take_add, page]

omit hle in
theorem collected_succ (listing : Nat → List α) :
    collected n (m + 1) listing = collected n m listing ++ page n m (listing m) := by
  rw [collected, List.range_succ, List.flatMap_append]
  simp [collected]

/-- When the places of each row are on one page, the first pages of every listing
    have the same rows. -/
theorem take_perm_filter (hone : OnOnePage le n rows) (h : Listing le rows s) :
    (s.take (k * n)).Perm (rows.filter fun r => decide (before le rows r < k * n)) := by
  have hsplit : s = s.take (k * n) ++ s.drop (k * n) := (List.take_append_drop (k * n) s).symm
  have hkept : (s.take (k * n)).filter (fun r => decide (before le rows r < k * n)) =
      s.take (k * n) := by
    refine List.filter_eq_self.mpr fun x hx => ?_
    obtain ⟨c, d, hcd⟩ := List.append_of_mem hx
    have hlist : Listing le rows (c ++ x :: (d ++ s.drop (k * n))) := by
      rw [← List.cons_append, ← List.append_assoc, ← hcd, ← hsplit]
      exact h
    have hlen : (s.take (k * n)).length ≤ k * n := List.length_take_le _ _
    rw [hcd, List.length_append, List.length_cons] at hlen
    have hplace := (place_of_listing hle hlist).1
    exact decide_eq_true (by omega)
  have hdropped : (s.drop (k * n)).filter (fun r => decide (before le rows r < k * n)) = [] := by
    refine List.filter_eq_nil_iff.mpr fun x hx hlt => ?_
    obtain ⟨c, d, hcd⟩ := List.append_of_mem hx
    have hlist : Listing le rows ((s.take (k * n) ++ c) ++ x :: d) := by
      rw [List.append_assoc, ← hcd, ← hsplit]
      exact h
    have hlen : (s.take (k * n)).length = min (k * n) s.length := List.length_take
    have hlong : k * n < s.length := by
      by_contra hshort
      rw [List.drop_eq_nil_of_le (Nat.le_of_not_lt hshort)] at hx
      cases hx
    have hplace := (place_of_listing hle hlist).2
    rw [List.length_append, hlen] at hplace
    -- the last place of `x` is past the boundary, and so is the first
    have hlast : k ≤ (upTo le rows x - 1) / n := by
      rcases Nat.eq_zero_or_pos n with rfl | hn
      · simp at hlt
      · exact (Nat.le_div_iff_mul_le hn).mpr (by omega)
    have hmem : x ∈ rows := h.perm.mem_iff.mp (List.mem_of_mem_drop hx)
    rw [← hone x hmem] at hlast
    have hfirst := Nat.mul_le_of_le_div n k _ hlast
    have := of_decide_eq_true hlt
    omega
  have hfilter := h.perm.filter fun r => decide (before le rows r < k * n)
  rw [hsplit, List.filter_append, hkept, hdropped, List.append_nil] at hfilter
  exact hfilter

theorem collected_perm_filter (hone : OnOnePage le n rows) {listing : Nat → List α}
    (h : ∀ k, Listing le rows (listing k)) :
    (collected n m listing).Perm (rows.filter fun r => decide (before le rows r < m * n)) := by
  induction m with
  | zero => simp [collected]
  | succ m ih =>
    rw [collected_succ]
    have hfirst := (take_perm_filter hle hone (h m) (k := m)).symm
    have hboth := (ih.trans hfirst).append_right (page n m (listing m))
    rw [← take_succ_mul] at hboth
    exact hboth.trans (take_perm_filter hle hone (h m))

/-- All pages together are the rows. -/
theorem collected_perm (hone : OnOnePage le n rows) {listing : Nat → List α}
    (h : ∀ k, Listing le rows (listing k)) (hm : rows.length ≤ m * n) :
    (collected n m listing).Perm rows := by
  have hall : (listing m).take (m * n) = listing m :=
    List.take_of_length_le (by rw [(h m).perm.length_eq]; exact hm)
  have htake := take_perm_filter hle hone (h m) (k := m)
  rw [hall] at htake
  exact (collected_perm_filter hle hone h).trans (htake.symm.trans (h m).perm)

omit hle in
theorem mem_page (hlow : k * n ≤ a.length) (hhigh : a.length < (k + 1) * n) :
    x ∈ page n k (a ++ x :: b) := by
  rw [Nat.succ_mul] at hhigh
  have hdrop : (a ++ x :: b).drop (k * n) = a.drop (k * n) ++ x :: b := by
    rw [List.drop_append_of_le_length hlow]
  have hlen : (a.drop (k * n)).length = a.length - k * n := List.length_drop
  rw [page, hdrop, List.take_append, List.mem_append]
  refine .inr ?_
  obtain ⟨j, hj⟩ : ∃ j, n - (a.drop (k * n)).length = j + 1 := ⟨n - (a.drop (k * n)).length - 1, by
    omega⟩
  rw [hj, List.take_succ_cons]
  exact List.mem_cons_self

omit hle in
theorem exists_neighbours {i : Nat} (h : i + 1 < s.length) :
    ∃ a x y b, s = a ++ x :: y :: b ∧ a.length = i := by
  refine ⟨s.take i, s[i], s[i + 1], s.drop (i + 2), ?_, ?_⟩
  · rw [← List.drop_eq_getElem_cons h, ← List.drop_eq_getElem_cons (by omega),
      List.take_append_drop]
  · rw [List.length_take]
    omega

omit hle in
/-- What stands on two pages is collected twice. -/
theorem not_nodup_collected {listing : Nat → List α} {i j : Nat} (hij : i < j) (hj : j < m)
    (hi : x ∈ page n i (listing i)) (hj' : x ∈ page n j (listing j)) :
    ¬ (collected n m listing).Nodup := by
  intro h
  rw [collected, List.nodup_flatMap] at h
  have hne := List.pairwise_iff_getElem.mp h.2 i j (by rw [List.length_range]; omega)
    (by rw [List.length_range]; omega) hij
  rw [List.getElem_range, List.getElem_range] at hne
  exact hne hi hj'

/-- Two rows that tie on either side of the end of a page can both be the last
    row of the one page and the first of the next. -/
theorem exists_repeated (hn : 0 < n) (hr : r ∈ rows)
    (hpages : before le rows r / n ≠ (upTo le rows r - 1) / n) (hm : rows.length ≤ m * n) :
    ∃ listing : Nat → List α, (∀ k, Listing le rows (listing k)) ∧
      ¬ (collected n m listing).Nodup := by
  let s := rows.mergeSort le
  have hs : Listing le rows s := listing_mergeSort hle rows
  have hplace : before le rows r < upTo le rows r := by
    obtain ⟨a, b, hab⟩ := List.append_of_mem (hs.perm.mem_iff.mpr hr)
    have := place_of_listing hle (hab ▸ hs)
    omega
  -- the boundary that the places of `r` lie on both sides of
  have hlt : before le rows r / n < (upTo le rows r - 1) / n :=
    Nat.lt_of_le_of_ne (Nat.div_le_div_right (by omega)) hpages
  let k := before le rows r / n
  have hlow : before le rows r < (k + 1) * n := by
    have := Nat.lt_div_mul_add (a := before le rows r) hn
    rw [Nat.succ_mul]
    exact this
  have hhigh : (k + 1) * n ≤ upTo le rows r - 1 := (Nat.le_div_iff_mul_le hn).mp hlt
  have hupTo : upTo le rows r ≤ s.length := by
    rw [hs.perm.length_eq]
    exact List.countP_le_length
  obtain ⟨a, x, y, b, hab, ha⟩ : ∃ a x y b, s = a ++ x :: y :: b ∧ a.length = (k + 1) * n - 1 :=
    exists_neighbours (by omega)
  have hpos : 0 < (k + 1) * n := Nat.mul_pos (Nat.succ_pos k) hn
  have hax : Listing le rows (a ++ x :: y :: b) := hab ▸ hs
  have hrx := tie_of_place hle hax (r := r) (by omega) (by omega)
  have hry := tie_of_place hle (a := a ++ [x]) (b := b) (x := y) (r := r)
    (by rw [List.append_assoc]; exact hax)
    (by rw [List.length_append, List.length_singleton]; omega)
    (by rw [List.length_append, List.length_singleton]; omega)
  have hswap := hax.swap (hle.trans hry.2 hrx.1)
  have hm' : k + 1 < m := by
    have hlt' : (k + 1) * n < m * n := by
      have := hs.perm.length_eq
      omega
    exact Nat.lt_of_mul_lt_mul_right hlt'
  refine ⟨fun i => if i ≤ k then a ++ x :: y :: b else a ++ y :: x :: b, fun i => ?_,
    not_nodup_collected (x := x) (i := k) (j := k + 1) (Nat.lt_succ_self k) hm' ?_ ?_⟩
  · dsimp only
    split
    · exact hax
    · exact hswap
  · rw [if_pos (Nat.le_refl k)]
    have hk : (k + 1) * n = k * n + n := Nat.succ_mul k n
    exact mem_page (by omega) (by omega)
  · rw [if_neg (Nat.not_succ_le_self k)]
    have hk : (k + 1 + 1) * n = (k + 1) * n + n := Nat.succ_mul (k + 1) n
    have happend : a ++ y :: x :: b = (a ++ [y]) ++ x :: b := by
      rw [List.append_assoc]
      rfl
    rw [happend]
    have hlen : (a ++ [y]).length = (k + 1) * n := by
      rw [List.length_append, List.length_singleton]
      omega
    exact mem_page (Nat.le_of_eq hlen.symm) (by omega)

end Paging
