import Mathlib.Data.List.Nodup
import Mathlib.Order.Lattice

/-!
# Pages behind a key

Rows are listed from the largest key down, `n` at a time.  A page begins behind the last row
of the page before, not at an offset, so it does not matter that rows were added meanwhile:
what was there at the start is met once, in order, whatever came on top of it or in between
(`follow_complete`, `follow_sorted`), and the end is reached (`follow_ends`).  So it is when
the last page is told by what is left behind it, not by an empty one (`scan`).
-/

namespace KeysetPaging

universe u v

variable {α : Type u} {κ : Type v} [LinearOrder κ] (key : α → κ) (n : Nat)

/-- The rows behind the cursor; without one all of them. -/
def behind (cursor : Option κ) (rows : List α) : List α :=
  rows.filter fun a => cursor.all fun c => decide (key a < c)

/-- The rows from the largest key down. -/
def descending (rows : List α) : List α := rows.mergeSort fun a b => decide (key b ≤ key a)

def page (rows : List α) (cursor : Option κ) : List α :=
  (descending key (behind key cursor rows)).take n

/-- Fetch page after page, each from what the rows are by then, until one is empty. -/
def follow : List (List α) → Option κ → Option (List α)
  | [], _ => none
  | rows :: later, cursor =>
      match (page key n rows cursor).getLast? with
      | none => some []
      | some last => (follow later (some (key last))).map (page key n rows cursor ++ ·)

/-- Fetch page after page, until one leaves nothing behind it. -/
def scan : List (List α) → Option κ → Option (List α)
  | [], _ => none
  | rows :: later, cursor =>
      let shown := page key n rows cursor
      if (behind key cursor rows).length ≤ n then some shown
      else shown.getLast?.bind fun last => (scan later (some (key last))).map (shown ++ ·)

variable {key n} {rows : List α} {later : List (List α)} {cursor : Option κ} {l : List α} {a : α}

theorem mem_behind : a ∈ behind key cursor rows ↔ a ∈ rows ∧ ∀ c, cursor = some c → key a < c := by
  rw [behind, List.mem_filter]
  cases cursor <;> simp

theorem mem_descending (key : α → κ) : a ∈ descending key rows ↔ a ∈ rows := List.mem_mergeSort

theorem pairwise_descending (key : α → κ) (rows : List α) :
    (descending key rows).Pairwise fun a b => key b ≤ key a := by
  have htrans : ∀ a b c : α, decide (key b ≤ key a) = true → decide (key c ≤ key b) = true →
      decide (key c ≤ key a) = true := by
    simp only [decide_eq_true_eq]
    intro a b c hab hbc
    exact hbc.trans hab
  have htotal : ∀ a b : α, (decide (key b ≤ key a) || decide (key a ≤ key b)) = true := by
    intro a b
    simp [le_total]
  exact (List.pairwise_mergeSort htrans htotal rows).imp fun h => of_decide_eq_true h

/-- No two rows have the same key. -/
def Keyed (key : α → κ) (rows : List α) : Prop := rows.Pairwise fun a b => key a ≠ key b

omit [LinearOrder κ] in
theorem Keyed.eq_of_key_eq (h : Keyed key rows) {b : α} (ha : a ∈ rows) (hb : b ∈ rows)
    (heq : key a = key b) : a = b :=
  List.inj_on_of_nodup_map (List.pairwise_map.mpr h) ha hb heq

theorem Keyed.descending (h : Keyed key rows) :
    (descending key rows).Pairwise fun a b => key b < key a := by
  have hperm := (List.mergeSort_perm rows fun a b => decide (key b ≤ key a)).symm
  have hne : (KeysetPaging.descending key rows).Pairwise fun a b => key a ≠ key b :=
    hperm.pairwise h fun hab => hab.symm
  exact ((pairwise_descending key rows).and hne).imp fun hab => lt_of_le_of_ne hab.1 hab.2.symm

theorem Keyed.behind (h : Keyed key rows) (cursor : Option κ) :
    Keyed key (behind key cursor rows) :=
  h.filter _

theorem mem_of_mem_page (h : a ∈ page key n rows cursor) : a ∈ behind key cursor rows :=
  (mem_descending key).mp (List.mem_of_mem_take h)

/-- What is behind the cursor and not on the page is behind the last row of the page. -/
theorem lt_of_not_mem_page (hkeyed : Keyed key rows) (ha : a ∈ behind key cursor rows)
    (hpage : a ∉ page key n rows cursor) {b : α} (hb : b ∈ page key n rows cursor) :
    key a < key b := by
  have hsorted := (hkeyed.behind cursor).descending
  have hsplit := List.take_append_drop n (descending key (behind key cursor rows))
  rw [← hsplit, List.pairwise_append] at hsorted
  have ha' := (mem_descending key).mpr ha
  rw [← hsplit, List.mem_append] at ha'
  rcases ha' with ha' | ha'
  · exact absurd ha' hpage
  · exact hsorted.2.2 b hb a ha'

/-- A page is empty only if nothing is behind the cursor. -/
theorem behind_of_page_nil (hn : 0 < n) (h : page key n rows cursor = []) :
    behind key cursor rows = [] := by
  rcases List.take_eq_nil_iff.mp h with h | h
  · omega
  · have hlength := (List.mergeSort_perm (behind key cursor rows)
      fun a b => decide (key b ≤ key a)).length_eq
    rw [show (behind key cursor rows).mergeSort _ = [] from h] at hlength
    exact List.eq_nil_of_length_eq_zero hlength.symm

theorem key_le_of_getLast? {last b : α} (hlast : (page key n rows cursor).getLast? = some last)
    (hb : b ∈ page key n rows cursor) : key last ≤ key b := by
  have hsorted := (pairwise_descending key (behind key cursor rows)).take (i := n)
  obtain ⟨before, hbefore⟩ := List.getLast?_eq_some_iff.mp hlast
  rw [page] at hbefore hb
  rw [hbefore] at hsorted hb
  rcases List.mem_append.mp hb with hb | hb
  · exact (List.pairwise_append.mp hsorted).2.2 b hb last (List.mem_singleton_self last)
  · rw [List.mem_singleton.mp hb]

/-- **One fetch** is the last one, or the rest comes from behind its last row. -/
theorem follow_cons (h : follow key n (rows :: later) cursor = some l) :
    (page key n rows cursor = [] ∧ l = []) ∨
      ∃ last rest, last ∈ page key n rows cursor ∧
        (∀ b ∈ page key n rows cursor, key last ≤ key b) ∧
        follow key n later (some (key last)) = some rest ∧ l = page key n rows cursor ++ rest := by
  rw [follow] at h
  rcases hlast : (page key n rows cursor).getLast? with _ | last
  · rw [hlast, Option.some.injEq] at h
    exact .inl ⟨List.getLast?_eq_none_iff.mp hlast, h.symm⟩
  · rw [hlast] at h
    obtain ⟨rest, hrest, rfl⟩ := Option.map_eq_some_iff.mp h
    exact .inr ⟨last, rest, List.mem_of_getLast? hlast, fun b hb => key_le_of_getLast? hlast hb,
      hrest, rfl⟩

variable {fetches : List (List α)}

/-- **Whatever is met** is behind the cursor and was there when its page was fetched. -/
theorem follow_sound (h : follow key n fetches cursor = some l)
    (ha : a ∈ l) : (∀ c, cursor = some c → key a < c) ∧ ∃ rows ∈ fetches, a ∈ rows := by
  induction fetches generalizing cursor l with
  | nil => cases h
  | cons rows later ih =>
    rcases follow_cons h with ⟨-, rfl⟩ | ⟨last, rest, hlast, -, hrest, rfl⟩
    · cases ha
    · rcases List.mem_append.mp ha with ha | ha
      · obtain ⟨hrows, hcursor⟩ := mem_behind.mp (mem_of_mem_page ha)
        exact ⟨hcursor, rows, List.mem_cons_self, hrows⟩
      · obtain ⟨hbehind, rows', hrows', ha'⟩ := ih hrest ha
        refine ⟨?_, rows', List.mem_cons_of_mem rows hrows', ha'⟩
        intro c hc
        exact (hbehind _ rfl).trans ((mem_behind.mp (mem_of_mem_page hlast)).2 c hc)

/-- **No row comes twice**, and none after a smaller one. -/
theorem follow_sorted (hkeyed : ∀ rows ∈ fetches, Keyed key rows)
    (h : follow key n fetches cursor = some l) : l.Pairwise fun a b => key b < key a := by
  induction fetches generalizing cursor l with
  | nil => cases h
  | cons rows later ih =>
    rcases follow_cons h with ⟨-, rfl⟩ | ⟨last, rest, -, hleast, hrest, rfl⟩
    · exact .nil
    · rw [List.pairwise_append]
      refine ⟨?_, ih (fun rows' h' => hkeyed rows' (List.mem_cons_of_mem rows h')) hrest, ?_⟩
      · exact (((hkeyed rows List.mem_cons_self).behind cursor).descending).take
      · intro a ha b hb
        exact ((follow_sound hrest hb).1 _ rfl).trans_le (hleast a ha)

/-- **No key is missed** that is behind the cursor and there at every fetch. -/
theorem follow_complete_key (hn : 0 < n)
    (hkeyed : ∀ rows ∈ fetches, Keyed key rows) (h : follow key n fetches cursor = some l) {k : κ}
    (hk : ∀ rows ∈ fetches, ∃ a ∈ rows, key a = k) (hcursor : ∀ c, cursor = some c → k < c) :
    ∃ a ∈ l, key a = k := by
  induction fetches generalizing cursor l with
  | nil => cases h
  | cons rows later ih =>
    obtain ⟨a, ha, rfl⟩ := hk rows List.mem_cons_self
    have hbehind : a ∈ behind key cursor rows := mem_behind.mpr ⟨ha, hcursor⟩
    rcases follow_cons h with ⟨hnil, -⟩ | ⟨last, rest, hlast, -, hrest, rfl⟩
    · rw [behind_of_page_nil hn hnil] at hbehind
      cases hbehind
    · by_cases hpage : a ∈ page key n rows cursor
      · exact ⟨a, List.mem_append_left rest hpage, rfl⟩
      · have hlater : ∀ c, some (key last) = some c → key a < c := by
          rintro c ⟨⟩
          exact lt_of_not_mem_page (hkeyed rows List.mem_cons_self) hbehind hpage hlast
        obtain ⟨b, hb, hkey⟩ :=
          ih (fun rows' h' => hkeyed rows' (List.mem_cons_of_mem rows h')) hrest
          (fun rows' h' => hk rows' (List.mem_cons_of_mem rows h')) hlater
        exact ⟨b, List.mem_append_right _ hb, hkey⟩

/-- **No row is missed** that is behind the cursor and there at every fetch. -/
theorem follow_complete (hn : 0 < n) (hkeyed : ∀ rows ∈ fetches, Keyed key rows)
    (h : follow key n fetches cursor = some l) (ha : ∀ rows ∈ fetches, a ∈ rows)
    (hcursor : ∀ c, cursor = some c → key a < c) : a ∈ l := by
  obtain ⟨b, hb, hkey⟩ :=
    follow_complete_key hn hkeyed h (fun rows h' => ⟨a, ha rows h', rfl⟩) hcursor
  obtain ⟨-, rows, hrows, hb'⟩ := follow_sound h hb
  rwa [(hkeyed rows hrows).eq_of_key_eq (ha rows hrows) hb' hkey.symm]

/-- Behind a row that is behind the cursor there is less than behind the cursor. -/
theorem length_behind_lt (ha : a ∈ behind key cursor rows) :
    (behind key (some (key a)) rows).length < (behind key cursor rows).length := by
  have hless : behind key (some (key a)) rows =
      (behind key cursor rows).filter fun b => decide (key b < key a) := by
    rw [behind, behind, List.filter_filter]
    refine List.filter_congr fun b _ => ?_
    rw [Option.all_some, Bool.eq_iff_iff, Bool.and_eq_true, decide_eq_true_eq]
    refine ⟨fun hb => ⟨hb, ?_⟩, And.left⟩
    rw [Option.all_eq_true]
    exact fun c hc => decide_eq_true (hb.trans ((mem_behind.mp ha).2 c hc))
  rw [hless]
  exact List.length_filter_lt_length_iff_exists.mpr ⟨a, ha, by simp⟩

/-- **The end is reached** by more fetches than there are keys in all of them. -/
theorem follow_ends (all : List κ) (hall : ∀ rows ∈ fetches, ∀ a ∈ rows, key a ∈ all)
    (hless : (behind id cursor all).length < fetches.length) :
    ∃ l, follow key n fetches cursor = some l := by
  induction fetches generalizing cursor with
  | nil => cases hless
  | cons rows later ih =>
    rw [follow]
    rcases hlast : (page key n rows cursor).getLast? with _ | last
    · exact ⟨[], rfl⟩
    · obtain ⟨hrows, hcursor⟩ := mem_behind.mp (mem_of_mem_page (List.mem_of_getLast? hlast))
      have hbehind : key last ∈ behind id cursor all :=
        mem_behind.mpr ⟨hall rows List.mem_cons_self last hrows, hcursor⟩
      have hfewer := length_behind_lt hbehind
      rw [List.length_cons] at hless
      have hlater : (behind id (some (key last)) all).length < later.length :=
        Nat.lt_of_lt_of_le hfewer (Nat.le_of_lt_succ hless)
      obtain ⟨rest, hrest⟩ := ih (fun rows' h' => hall rows' (List.mem_cons_of_mem rows h')) hlater
      exact ⟨page key n rows cursor ++ rest, by simp only [hrest, Option.map_some]⟩

/-! ### The last page told by what is behind it -/

theorem behind_getLast? (hshort : (behind key cursor rows).length ≤ n) {last : α}
    (hlast : (page key n rows cursor).getLast? = some last) :
    behind key (some (key last)) rows = [] := by
  rw [List.eq_nil_iff_forall_not_mem]
  intro a ha
  obtain ⟨hrows, hless⟩ := mem_behind.mp ha
  obtain ⟨-, hcursor⟩ := mem_behind.mp (mem_of_mem_page (List.mem_of_getLast? hlast))
  have hbehind : a ∈ behind key cursor rows :=
    mem_behind.mpr ⟨hrows, fun c hc => (hless _ rfl).trans (hcursor c hc)⟩
  have hpage : a ∈ page key n rows cursor := by
    rw [page, List.take_of_length_le, mem_descending]
    · exact hbehind
    · rw [descending, List.length_mergeSort]
      exact hshort
  exact absurd (hless _ rfl) (key_le_of_getLast? hlast hpage).not_gt

/-- The same rows are met when the last fetch is made once more, in vain. -/
theorem follow_of_scan (h : scan key n fetches cursor = some l) :
    ∃ fetches', (∀ rows ∈ fetches', rows ∈ fetches) ∧ follow key n fetches' cursor = some l := by
  induction fetches generalizing cursor l with
  | nil => cases h
  | cons rows later ih =>
    rw [scan] at h
    split at h
    · rename_i hshort
      cases h
      refine ⟨[rows, rows], by simp, ?_⟩
      rw [follow]
      rcases hlast : (page key n rows cursor).getLast? with _ | last
      · rw [List.getLast?_eq_none_iff.mp hlast]
      · have hnil : page key n rows (some (key last)) = [] := by
          rw [page, behind_getLast? hshort hlast]
          simp [descending]
        simp [follow, hnil]
    · obtain ⟨last, hlast, h⟩ := Option.bind_eq_some_iff.mp h
      obtain ⟨rest, hrest, rfl⟩ := Option.map_eq_some_iff.mp h
      obtain ⟨fetches', hsub, hfollow⟩ := ih hrest
      refine ⟨rows :: fetches', ?_, ?_⟩
      · rintro rows' (_ | ⟨_, h'⟩)
        · exact List.mem_cons_self
        · exact List.mem_cons_of_mem rows (hsub rows' h')
      · rw [follow, hlast]
        simp only [hfollow, Option.map_some]

/-- It ends no later. -/
theorem scan_of_follow (hn : 0 < n)
    (h : follow key n fetches cursor = some l) : ∃ l', scan key n fetches cursor = some l' := by
  induction fetches generalizing cursor l with
  | nil => cases h
  | cons rows later ih =>
    rw [scan]
    split
    · exact ⟨_, rfl⟩
    · rename_i hlong
      rcases hlast : (page key n rows cursor).getLast? with _ | last
      · have hnil := behind_of_page_nil hn (List.getLast?_eq_none_iff.mp hlast)
        rw [hnil] at hlong
        exact absurd (Nat.zero_le n) hlong
      · rw [follow, hlast] at h
        obtain ⟨rest, hrest, -⟩ := Option.map_eq_some_iff.mp h
        obtain ⟨rest', hrest'⟩ := ih hrest
        exact ⟨page key n rows cursor ++ rest', by
          simp only [Option.bind_some, hrest', Option.map_some]⟩

end KeysetPaging
