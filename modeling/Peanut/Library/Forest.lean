import Mathlib.Data.List.Basic
import Mathlib.Data.List.Nodup
import Mathlib.Data.List.Perm.Subperm

/-!
# Forests of rows with parent links

Rows name their parent by its key.  When a grade counts the links up to a row
without a parent, the links form a forest:

  * `Graded.rootAt`  every row has a root, and the grade is the distance to it;
  * `RootAt.unique`  it has no other;
  * `explore_tree`   what starts with a root and takes up the children of what it has
                     visited, in whatever order, visits the tree of the root, each row
                     once, and then ends; `visit_tree` is this for a queue.
-/

namespace Forest

universe u v

variable {α : Type u} {κ : Type v} (key : α → κ) (parent : α → Option κ)

/-- `n` parent links lead from `x` up to `r`. -/
inductive Climbs (rows : List α) (r : α) : α → Nat → Prop where
  | here : Climbs rows r r 0
  | up {x y : α} {n : Nat} (hy : y ∈ rows) (hlink : parent x = some (key y))
      (hrest : Climbs rows r y n) : Climbs rows r x (n + 1)

/-- `r` is the root of `x`, at distance `n`. -/
structure RootAt (rows : List α) (x r : α) (n : Nat) : Prop where
  climbs : Climbs key parent rows r x n
  mem : r ∈ rows
  top : parent r = none

/-- Keys are unique, and the grade counts the links. -/
structure Graded (rows : List α) (grade : α → Nat) : Prop where
  keys : (rows.map key).Nodup
  top : ∀ x ∈ rows, parent x = none → grade x = 0
  link : ∀ x ∈ rows, ∀ k, parent x = some k → ∃ y ∈ rows, key y = k ∧ grade x = grade y + 1

variable {key parent} {rows : List α} {grade : α → Nat}

namespace Graded

theorem eq_of_key_eq (h : Graded key parent rows grade) {x y : α} (hx : x ∈ rows) (hy : y ∈ rows)
    (hkey : key x = key y) : x = y :=
  List.inj_on_of_nodup_map h.keys hx hy hkey

theorem nodup (h : Graded key parent rows grade) : rows.Nodup := List.Nodup.of_map key h.keys

/-- **Every row has a root**, as far up as the grade says. -/
theorem rootAt (h : Graded key parent rows grade) {x : α} (hx : x ∈ rows) :
    ∃ r, RootAt key parent rows x r (grade x) := by
  -- the induction is on the grade: a link goes down by one
  induction hn : grade x generalizing x with
  | zero =>
    rcases hparent : parent x with _ | k
    · exact ⟨x, .here, hx, hparent⟩
    · obtain ⟨y, -, -, hgrade⟩ := h.link x hx k hparent
      rw [hn] at hgrade
      cases hgrade
  | succ n ih =>
    rcases hparent : parent x with _ | k
    · rw [h.top x hx hparent] at hn
      cases hn
    · obtain ⟨y, hy, rfl, hgrade⟩ := h.link x hx k hparent
      rw [hn, Nat.add_right_cancel_iff] at hgrade
      obtain ⟨r, hclimbs, hmem, htop⟩ := ih hy hgrade.symm
      exact ⟨r, .up hy hparent hclimbs, hmem, htop⟩

end Graded

/-- A row has one root, at one distance. -/
theorem RootAt.unique (h : Graded key parent rows grade) {x r s : α} {m n : Nat}
    (hr : RootAt key parent rows x r m) (hs : RootAt key parent rows x s n) : r = s ∧ m = n := by
  obtain ⟨hclimbs, hmem, htop⟩ := hr
  induction hclimbs generalizing n with
  | here =>
    obtain ⟨hclimbs', -, -⟩ := hs
    cases hclimbs' with
    | here => exact ⟨rfl, rfl⟩
    | up _ hlink _ =>
      rw [htop] at hlink
      cases hlink
  | up hy hlink _ ih =>
    obtain ⟨hclimbs', hmem', htop'⟩ := hs
    cases hclimbs' with
    | here =>
      rw [htop'] at hlink
      cases hlink
    | up hy' hlink' hrest' =>
      have hkey := Option.some.inj (hlink.symm.trans hlink')
      obtain rfl := h.eq_of_key_eq hy hy' hkey
      obtain ⟨rfl, rfl⟩ := ih ⟨hrest', hmem', htop'⟩
      exact ⟨rfl, rfl⟩

/-- The distance of a row is its grade. -/
theorem RootAt.grade_eq (h : Graded key parent rows grade) {x r : α} {n : Nat} (hx : x ∈ rows)
    (hr : RootAt key parent rows x r n) : grade x = n := by
  obtain ⟨s, hs⟩ := h.rootAt hx
  exact (hs.unique h hr).2

/-! ### Visiting a tree -/

/-- Take the first of what waits and let its children wait too; `none` when the fuel is
    spent first. -/
def explore (join : List α → List α → List α) (children : α → List α) :
    Nat → List α → Option (List α)
  | _, [] => some []
  | 0, _ :: _ => none
  | fuel + 1, x :: queue =>
      (explore join children fuel (join queue (children x))).map (x :: ·)

/-- Take the first of the queue and put its children at the end; `none` when the fuel
    is spent first. -/
def visit (children : α → List α) : Nat → List α → Option (List α)
  | _, [] => some []
  | 0, _ :: _ => none
  | fuel + 1, x :: queue => (visit children fuel (queue ++ children x)).map (x :: ·)

theorem visit_eq_explore (children : α → List α) (fuel : Nat) (queue : List α) :
    visit children fuel queue = explore (· ++ ·) children fuel queue := by
  induction fuel generalizing queue with
  | zero => cases queue <;> rfl
  | succ fuel ih =>
    rcases queue with _ | ⟨x, queue⟩
    · rfl
    · rw [visit, explore, ih]

/-- More fuel changes nothing once there is enough. -/
theorem explore_of_le {join : List α → List α → List α} {children : α → List α}
    {fuel fuel' : Nat} {queue visited : List α}
    (h : explore join children fuel queue = some visited) (hle : fuel ≤ fuel') :
    explore join children fuel' queue = some visited := by
  induction fuel generalizing fuel' queue visited with
  | zero =>
    rcases queue with _ | ⟨x, queue⟩
    · rw [explore] at h
      rw [explore, h]
    · cases h
  | succ fuel ih =>
    rcases queue with _ | ⟨x, queue⟩
    · rw [explore] at h
      rw [explore, h]
    · obtain ⟨fuel', rfl⟩ : ∃ k, fuel' = k + 1 := ⟨fuel' - 1, by omega⟩
      rw [explore, Option.map_eq_some_iff] at h
      obtain ⟨rest, hrest, rfl⟩ := h
      rw [explore, ih hrest (by omega), Option.map_some]

/-- The children of a row, each once. -/
def IsChildren (key : α → κ) (parent : α → Option κ) (rows : List α) (x : α)
    (children : List α) : Prop :=
  children.Nodup ∧ ∀ c, c ∈ children ↔ c ∈ rows ∧ parent c = some (key x)

/-- What has been visited, and what waits, of the tree of `r`. -/
structure Visiting (key : α → κ) (parent : α → Option κ) (rows : List α) (r : α)
    (visited queue : List α) : Prop where
  nodup : (visited ++ queue).Nodup
  start : r ∈ visited ++ queue
  sound : ∀ x ∈ visited ++ queue, x ∈ rows ∧ ∃ n, Climbs key parent rows r x n
  after : ∀ x ∈ visited ++ queue, x = r ∨ ∃ y ∈ visited, parent x = some (key y)
  closed : ∀ x ∈ visited, ∀ c ∈ rows, parent c = some (key x) → c ∈ visited ++ queue

namespace Visiting

variable {r : α} {visited queue : List α}

theorem init (hr : r ∈ rows) : Visiting key parent rows r [] [r] where
  nodup := List.nodup_singleton r
  start := List.mem_singleton.mpr rfl
  sound x hx := by
    obtain rfl := List.mem_singleton.mp hx
    exact ⟨hr, 0, .here⟩
  after x hx := .inl (List.mem_singleton.mp hx)
  closed x hx := absurd hx List.not_mem_nil

/-- The children of what is first in the queue have not been seen. -/
theorem not_seen (h : Visiting key parent rows r visited (x :: queue))
    (hgraded : Graded key parent rows grade) (htop : parent r = none) {c : α}
    (hlink : parent c = some (key x)) : c ∉ visited ++ x :: queue := by
  intro hc
  rcases h.after c hc with rfl | ⟨y, hy, hlink'⟩
  · rw [htop] at hlink
    cases hlink
  · have hx : x ∈ rows := (h.sound x (List.mem_append_right _ List.mem_cons_self)).1
    have hy' : y ∈ rows := (h.sound y (List.mem_append_left _ hy)).1
    have hkey := Option.some.inj (hlink.symm.trans hlink')
    obtain rfl := hgraded.eq_of_key_eq hx hy' hkey
    exact (List.nodup_append.mp h.nodup).2.2 x hy x List.mem_cons_self rfl

/-- **One row is visited.** -/
theorem step {x : α} {children : List α} (h : Visiting key parent rows r visited (x :: queue))
    (hgraded : Graded key parent rows grade) (htop : parent r = none)
    (hchildren : IsChildren key parent rows x children) :
    Visiting key parent rows r (visited ++ [x]) (queue ++ children) := by
  have hsplit : visited ++ [x] ++ (queue ++ children) = visited ++ x :: queue ++ children := by
    simp only [List.append_assoc, List.cons_append, List.nil_append]
  have hx := h.sound x (List.mem_append_right _ List.mem_cons_self)
  refine ⟨?_, ?_, ?_, ?_, ?_⟩
  · rw [hsplit, List.nodup_append]
    refine ⟨h.nodup, hchildren.1, ?_⟩
    rintro c hc _ hc' rfl
    exact h.not_seen hgraded htop ((hchildren.2 c).mp hc').2 hc
  · rw [hsplit]
    exact List.mem_append_left _ h.start
  · intro c hc
    rw [hsplit, List.mem_append] at hc
    rcases hc with hc | hc
    · exact h.sound c hc
    · obtain ⟨hmem, hlink⟩ := (hchildren.2 c).mp hc
      obtain ⟨n, hclimbs⟩ := hx.2
      exact ⟨hmem, n + 1, .up hx.1 hlink hclimbs⟩
  · intro c hc
    rw [hsplit, List.mem_append] at hc
    rcases hc with hc | hc
    · refine (h.after c hc).imp_right ?_
      rintro ⟨y, hy, hlink⟩
      exact ⟨y, List.mem_append_left _ hy, hlink⟩
    · refine .inr ⟨x, ?_, ((hchildren.2 c).mp hc).2⟩
      exact List.mem_append_right _ (List.mem_singleton.mpr rfl)
  · intro y hy c hc hlink
    rw [hsplit, List.mem_append]
    rcases List.mem_append.mp hy with hy | hy
    · exact .inl (h.closed y hy c hc hlink)
    · obtain rfl := List.mem_singleton.mp hy
      exact .inr ((hchildren.2 c).mpr ⟨hc, hlink⟩)

/-- In which order the rows wait makes no difference. -/
theorem perm (h : Visiting key parent rows r visited queue) {queue' : List α}
    (hperm : queue.Perm queue') : Visiting key parent rows r visited queue' := by
  have hall : (visited ++ queue).Perm (visited ++ queue') := hperm.append_left visited
  refine ⟨hall.nodup_iff.mp h.nodup, hall.mem_iff.mp h.start, ?_, ?_, ?_⟩
  · exact fun x hx => h.sound x (hall.mem_iff.mpr hx)
  · exact fun x hx => h.after x (hall.mem_iff.mpr hx)
  · exact fun x hx c hc hlink => hall.mem_iff.mp (h.closed x hx c hc hlink)

/-- Nothing is visited twice, so there is no more to visit than there are rows. -/
theorem length_le (h : Visiting key parent rows r visited queue) :
    visited.length + queue.length ≤ rows.length := by
  rw [← List.length_append]
  exact (List.subperm_of_subset h.nodup fun x hx => (h.sound x hx).1).length_le

/-- When nothing waits, the tree has been visited. -/
theorem mem_iff (h : Visiting key parent rows r visited []) (hr : r ∈ rows)
    (htop : parent r = none) {x : α} :
    x ∈ visited ↔ x ∈ rows ∧ ∃ n, RootAt key parent rows x r n := by
  constructor
  · intro hx
    obtain ⟨hmem, n, hclimbs⟩ := h.sound x (List.mem_append_left _ hx)
    exact ⟨hmem, n, hclimbs, hr, htop⟩
  · rintro ⟨hx, n, hclimbs, -, -⟩
    have hstart := h.start
    have hclosed := h.closed
    rw [List.append_nil] at hstart hclosed
    induction hclimbs with
    | here => exact hstart
    | up hy hlink _ ih => exact hclosed _ (ih hy) _ hx hlink

end Visiting

section Explore

variable {join : List α → List α → List α}
  (hjoin : ∀ queue new : List α, (queue ++ new).Perm (join queue new))
include hjoin

/-- The search comes to its end. -/
theorem explore_eq_some (hgraded : Graded key parent rows grade) {r : α} (htop : parent r = none)
    {children : α → List α}
    (hchildren : ∀ x ∈ rows, ∀ n, Climbs key parent rows r x n →
      IsChildren key parent rows x (children x)) {fuel : Nat} {visited queue : List α}
    (h : Visiting key parent rows r visited queue) (hfuel : rows.length ≤ visited.length + fuel) :
    ∃ rest, explore join children fuel queue = some rest ∧
      Visiting key parent rows r (visited ++ rest) [] := by
  induction fuel generalizing visited queue with
  | zero =>
    have hlength := h.length_le
    obtain rfl : queue = [] := List.length_eq_zero_iff.mp (by omega)
    exact ⟨[], rfl, (List.append_nil visited).symm ▸ h⟩
  | succ fuel ih =>
    rcases queue with _ | ⟨x, queue⟩
    · exact ⟨[], rfl, (List.append_nil visited).symm ▸ h⟩
    · obtain ⟨hx, n, hclimbs⟩ := h.sound x (List.mem_append_right _ List.mem_cons_self)
      have hnext := (h.step hgraded htop (hchildren x hx n hclimbs)).perm (hjoin queue (children x))
      have hlength : (visited ++ [x]).length = visited.length + 1 := List.length_append
      obtain ⟨rest, hexplore, hdone⟩ := ih hnext (by omega)
      refine ⟨x :: rest, ?_, ?_⟩
      · rw [explore, hexplore, Option.map_some]
      · rw [List.append_assoc, List.singleton_append] at hdone
        exact hdone

/-- **Exploring a tree.** -/
theorem explore_tree (hgraded : Graded key parent rows grade) {r : α} (hr : r ∈ rows)
    (htop : parent r = none) {children : α → List α}
    (hchildren : ∀ x ∈ rows, ∀ n, Climbs key parent rows r x n →
      IsChildren key parent rows x (children x)) :
    ∃ visited, (∀ fuel ≥ rows.length, explore join children fuel [r] = some visited) ∧
      visited.Nodup ∧ ∀ x, x ∈ visited ↔ x ∈ rows ∧ ∃ n, RootAt key parent rows x r n := by
  have hfuel : rows.length ≤ ([] : List α).length + rows.length := by simp
  obtain ⟨visited, hexplore, hdone⟩ :=
    explore_eq_some hjoin hgraded htop hchildren (.init hr) hfuel
  refine ⟨visited, fun fuel hle => explore_of_le hexplore hle, ?_, fun x => hdone.mem_iff hr htop⟩
  exact (List.append_nil visited) ▸ hdone.nodup

end Explore

/-- **Visiting a tree.** -/
theorem visit_tree (hgraded : Graded key parent rows grade) {r : α} (hr : r ∈ rows)
    (htop : parent r = none) {children : α → List α}
    (hchildren : ∀ x ∈ rows, ∀ n, Climbs key parent rows r x n →
      IsChildren key parent rows x (children x)) :
    ∃ visited, (∀ fuel ≥ rows.length, visit children fuel [r] = some visited) ∧ visited.Nodup ∧
      ∀ x, x ∈ visited ↔ x ∈ rows ∧ ∃ n, RootAt key parent rows x r n := by
  simp only [visit_eq_explore]
  exact explore_tree (fun _ _ => .refl _) hgraded hr htop hchildren

end Forest
