import Peanut.Library.FileTree
import Peanut.Library.Forest

/-!
# Walks over directories

A walk starts at a directory and goes down into every directory it meets, but not into
those where it stops.  Whatever order the entries of a directory come in and whichever
directory is taken next, it meets each directory once that has no stop above it, and
then it ends (`walk_reached`).
-/

namespace Relational

universe u v

/-- The order in which a directory gives its entries. -/
structure EntryOrder (ν : Type u) (γ : Type v) where
  arrange : List ν → List (TreeEntry ν γ) → List (TreeEntry ν γ)
  perm : ∀ p entries, (arrange p entries).Perm entries

namespace FileTree

variable {ν : Type u} {γ : Type v} [DecidableEq ν]

/-- The entries of a directory. -/
def readDir (order : EntryOrder ν γ) (t : FileTree ν γ) (p : List ν) : List (TreeEntry ν γ) :=
  order.arrange p (t.entries.rows.filter fun e => decide (e.path.dropLast = p))

def isDir (e : TreeEntry ν γ) : Bool :=
  match e.node with
  | .dir => true
  | .file _ => false

omit [DecidableEq ν] in
theorem isDir_eq_true {e : TreeEntry ν γ} : isDir e = true ↔ e.node = .dir := by
  rw [isDir]
  cases e.node with
  | dir => simp
  | file c => simp

/-- The directories in a directory. -/
def subdirs (order : EntryOrder ν γ) (t : FileTree ν γ) (p : List ν) : List (List ν) :=
  ((t.readDir order p).filter isDir).map (·.path)

/-- The directory is below the start, and no stop is above it. -/
structure Reached (t : FileTree ν γ) (stops : List ν → Bool) (start p : List ν) : Prop where
  dir : t.lookup p = some .dir
  below : start <+: p
  free : ∀ q, start <+: q → q <+: p → q ≠ p → stops q = false

section Walk

variable {order : EntryOrder ν γ} {t : FileTree ν γ} {stops : List ν → Bool} {start p c : List ν}

theorem mem_subdirs :
    c ∈ t.subdirs order p ↔ c ≠ [] ∧ t.lookup c = some .dir ∧ c.dropLast = p := by
  rw [subdirs, List.mem_map]
  simp only [List.mem_filter, isDir_eq_true, readDir, (order.perm _ _).mem_iff, decide_eq_true_eq]
  constructor
  · rintro ⟨⟨path, node⟩, ⟨⟨he, rfl⟩, rfl⟩, rfl⟩
    have hne := (t.closed _ he).1
    exact ⟨hne, (lookup_eq_some hne).mpr he, rfl⟩
  · rintro ⟨hne, hdir, rfl⟩
    exact ⟨⟨c, .dir⟩, ⟨⟨(lookup_eq_some hne).mp hdir, rfl⟩, rfl⟩, rfl⟩

theorem subdirs_nodup : (t.subdirs order p).Nodup := by
  have hentries : ((t.entries.rows.filter fun e => decide (e.path.dropLast = p)).map
      (·.path)).Nodup := t.entries.nodup.sublist (List.filter_sublist.map _)
  have hread : ((t.readDir order p).map (·.path)).Nodup :=
    ((order.perm p _).map (·.path)).nodup_iff.mpr hentries
  exact hread.sublist (List.filter_sublist.map _)

/-- What a directory leads to. -/
def below (order : EntryOrder ν γ) (t : FileTree ν γ) (stops : List ν → Bool) (p : List ν) :
    List (List ν) := if stops p then [] else (t.subdirs order p).reverse

/-- The directories that are met. -/
noncomputable def reachedDirs (t : FileTree ν γ) (stops : List ν → Bool) (start : List ν) :
    List (List ν) :=
  (t.entries.rows.map (·.path)).filter fun p =>
    @decide (t.Reached stops start p) (Classical.propDecidable _)

/-- The link from a directory to the one that holds it. -/
def above (start p : List ν) : Option (List ν) := if p = start then none else some p.dropLast

theorem Reached.ne_nil (h : t.Reached stops start p) (hstart : start ≠ []) : p ≠ [] := by
  rintro rfl
  exact hstart (List.prefix_nil.mp h.below)

theorem mem_reachedDirs (hstart : start ≠ []) :
    p ∈ t.reachedDirs stops start ↔ t.Reached stops start p := by
  rw [reachedDirs, List.mem_filter, @decide_eq_true_iff _ (Classical.propDecidable _),
    and_iff_right_iff_imp]
  intro h
  exact List.mem_map.mpr ⟨⟨p, .dir⟩, (lookup_eq_some (h.ne_nil hstart)).mp h.dir, rfl⟩

theorem start_reached (hdir : t.lookup start = some .dir) : t.Reached stops start start where
  dir := hdir
  below := List.prefix_rfl
  free q hq hq' hne := by
    exact absurd (hq'.eq_of_length_le hq.length_le) hne

/-- What holds a directory that is met is met before, and does not stop the walk. -/
theorem Reached.parent (h : t.Reached stops start p) (hne : p ≠ start) :
    t.Reached stops start p.dropLast ∧ stops p.dropLast = false ∧
      p.length = p.dropLast.length + 1 := by
  have hnil : p ≠ [] := by
    rintro rfl
    exact hne (List.prefix_nil.mp h.below).symm
  have hpos := List.length_pos_of_ne_nil hnil
  have hlength : p.length = p.dropLast.length + 1 := by
    rw [List.length_dropLast]
    omega
  have hproper : p.dropLast ≠ p := by
    intro heq
    rw [heq] at hlength
    omega
  have hbelow := prefix_parent h.below (Ne.symm hne)
  refine ⟨⟨lookup_above h.dir (List.dropLast_prefix p) hproper, hbelow, ?_⟩,
    h.free _ hbelow (List.dropLast_prefix p) hproper, hlength⟩
  intro q hq hq' hqne
  refine h.free q hq (hq'.trans (List.dropLast_prefix p)) ?_
  rintro rfl
  have hle := hq'.length_le
  omega

/-- What an open directory holds is met. -/
theorem Reached.child (h : t.Reached stops start p) (hopen : stops p = false)
    (hdir : t.lookup c = some .dir) (hparent : c.dropLast = p) : t.Reached stops start c := by
  refine ⟨hdir, h.below.trans (hparent ▸ List.dropLast_prefix c), ?_⟩
  intro q hq hq' hne
  have hle := prefix_parent hq' hne
  rw [hparent] at hle
  by_cases hqp : q = p
  · rw [hqp]
    exact hopen
  · exact h.free q hq hle hqp

theorem above_eq_some {k : List ν} : above start p = some k ↔ p ≠ start ∧ p.dropLast = k := by
  rw [above]
  split
  · next h => simp [h]
  · next h => simp [h]

theorem above_eq_none : above start p = none ↔ p = start := by
  rw [above]
  split
  · next h => simp [h]
  · next h => simp [h]

theorem reachedDirs_graded (hstart : start ≠ []) : Forest.Graded id (above start)
    (t.reachedDirs stops start) fun p => p.length - start.length where
  keys := by
    rw [List.map_id]
    exact t.entries.nodup.filter _
  top p _ hp := by
    rw [above_eq_none.mp hp]
    exact Nat.sub_self _
  link p hp k hk := by
    obtain ⟨hne, rfl⟩ := above_eq_some.mp hk
    obtain ⟨hparent, -, hlength⟩ := ((mem_reachedDirs hstart).mp hp).parent hne
    have hle := hparent.below.length_le
    exact ⟨p.dropLast, (mem_reachedDirs hstart).mpr hparent, rfl, by omega⟩

theorem below_isChildren (hstart : start ≠ []) (hp : t.Reached stops start p) :
    Forest.IsChildren id (above start) (t.reachedDirs stops start) p (t.below order stops p) := by
  rw [below]
  split
  · next hstop =>
    refine ⟨List.nodup_nil, fun c => iff_of_false List.not_mem_nil ?_⟩
    rintro ⟨hc, hlink⟩
    obtain ⟨hne, rfl⟩ := above_eq_some.mp hlink
    obtain ⟨-, hopen, -⟩ := ((mem_reachedDirs hstart).mp hc).parent hne
    rw [hopen] at hstop
    cases hstop
  · next hopen =>
    rw [Bool.not_eq_true] at hopen
    refine ⟨List.nodup_reverse.mpr subdirs_nodup, fun c => ?_⟩
    rw [List.mem_reverse, mem_subdirs, mem_reachedDirs hstart, above_eq_some]
    constructor
    · rintro ⟨hc, hdir, rfl⟩
      refine ⟨hp.child hopen hdir rfl, ?_, rfl⟩
      rintro rfl
      have hle := hp.below.length_le
      have hpos := List.length_pos_of_ne_nil hc
      rw [List.length_dropLast] at hle
      omega
    · rintro ⟨hc, -, heq⟩
      exact ⟨hc.ne_nil hstart, hc.dir, heq⟩

/-- **A walk** meets every directory with no stop above it once, and then ends. -/
theorem walk_reached (order : EntryOrder ν γ) (stops : List ν → Bool) (hstart : start ≠ [])
    (hdir : t.lookup start = some .dir) {join : List (List ν) → List (List ν) → List (List ν)}
    (hjoin : ∀ queue new : List (List ν), (queue ++ new).Perm (join queue new)) :
    ∃ met n, (∀ fuel ≥ n, Forest.explore join (t.below order stops) fuel [start] = some met) ∧
      met.Nodup ∧ ∀ p, p ∈ met ↔ t.Reached stops start p := by
  have hgraded : Forest.Graded id (above start) (t.reachedDirs stops start)
      fun p => p.length - start.length := reachedDirs_graded hstart
  have hmem : start ∈ t.reachedDirs stops start :=
    (mem_reachedDirs hstart).mpr (start_reached hdir)
  have hchildren : ∀ p ∈ t.reachedDirs stops start, ∀ n,
      Forest.Climbs id (above start) (t.reachedDirs stops start) start p n →
        Forest.IsChildren id (above start) (t.reachedDirs stops start) p (t.below order stops p) :=
    fun p hp _ _ => below_isChildren hstart ((mem_reachedDirs hstart).mp hp)
  obtain ⟨met, hexplore, hnodup, hmet⟩ :=
    Forest.explore_tree hjoin hgraded hmem (above_eq_none.mpr rfl) hchildren
  refine ⟨met, _, hexplore, hnodup, fun p => ?_⟩
  rw [hmet, mem_reachedDirs hstart, and_iff_left_iff_imp]
  intro hp
  obtain ⟨r, hr⟩ := hgraded.rootAt ((mem_reachedDirs hstart).mpr hp)
  obtain rfl := above_eq_none.mp hr.top
  exact ⟨_, hr⟩

end Walk

end FileTree

end Relational
