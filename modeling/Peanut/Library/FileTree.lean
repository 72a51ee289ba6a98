import Mathlib.Data.List.Infix
import Mathlib.Logic.Function.Basic
import Peanut.Library.KeyedTable
import Peanut.Library.Outcome

/-!
# File trees

Directories and files under one root directory.  A path is the list of its
components from the root, `[]` being the root itself, and a tree is the table of
what is below the root.  What lies on the way down to an entry is a directory,
which a tree carries as a field, so that the entries below a directory are those
a walk from it visits.

Operations fail as the file system's do.  A creation or a write fails before it
changes anything.
-/

namespace Relational

universe u v

inductive Node (γ : Type v) where
  | dir
  | file (content : γ)
deriving DecidableEq

structure TreeEntry (ν : Type u) (γ : Type v) where
  path : List ν
  node : Node γ
deriving DecidableEq

inductive FileError where
  | notFound
  | notADirectory
  | isADirectory
  | alreadyExists
deriving DecidableEq

variable {ν : Type u} {γ : Type v} [DecidableEq ν]

/-- What a table of entries says about a path. -/
def nodeAt (entries : KeyedTable (TreeEntry ν γ) (·.path)) (p : List ν) : Option (Node γ) :=
  if p = [] then some .dir else (entries.find? p).map (·.node)

structure FileTree (ν : Type u) (γ : Type v) [DecidableEq ν] where
  entries : KeyedTable (TreeEntry ν γ) (·.path)
  closed : ∀ e ∈ entries, e.path ≠ [] ∧
    ∀ q, q <+: e.path → q ≠ e.path → nodeAt entries q = some .dir

namespace FileTree

def lookup (t : FileTree ν γ) (p : List ν) : Option (Node γ) := nodeAt t.entries p

/-- The tree with nothing in it. -/
def empty : FileTree ν γ := ⟨.empty, fun e he => absurd he (KeyedTable.not_mem_empty e)⟩

@[simp] theorem lookup_root (t : FileTree ν γ) : t.lookup [] = some .dir := by
  rw [lookup, nodeAt, if_pos rfl]

variable {t t' : FileTree ν γ} {p q : List ν}

theorem lookup_eq_some (hp : p ≠ []) {n : Node γ} :
    t.lookup p = some n ↔ (⟨p, n⟩ : TreeEntry ν γ) ∈ t.entries := by
  rw [lookup, nodeAt, if_neg hp, Option.map_eq_some_iff]
  simp only [KeyedTable.find?_eq_some]
  constructor
  · rintro ⟨⟨path, node⟩, ⟨he, rfl⟩, rfl⟩
    exact he
  · intro he
    exact ⟨_, ⟨he, rfl⟩, rfl⟩

theorem lookup_empty (p : List ν) :
    (empty : FileTree ν γ).lookup p = if p = [] then some .dir else none := by
  split
  · rename_i hp
    rw [hp, lookup_root]
  · rename_i hp
    rw [← Option.not_isSome_iff_eq_none, Option.isSome_iff_exists]
    rintro ⟨n, hn⟩
    exact KeyedTable.not_mem_empty _ ((lookup_eq_some hp).mp hn)

/-- Above an entry there are directories. -/
theorem lookup_above {n : Node γ} (h : t.lookup p = some n)
    (hq : q <+: p) (hne : q ≠ p) : t.lookup q = some .dir := by
  by_cases hp : p = []
  · subst hp
    exact absurd (List.prefix_nil.mp hq) hne
  · exact (t.closed _ ((lookup_eq_some hp).mp h)).2 q hq hne

variable {c : γ}

/-- Nothing lies below a file. -/
theorem lookup_below_file
    (h : t.lookup p = some (.file c)) (hq : p <+: q) (hne : p ≠ q) : t.lookup q = none := by
  rw [← Option.not_isSome_iff_eq_none, Option.isSome_iff_exists]
  rintro ⟨n, hn⟩
  rw [lookup_above hn hq hne] at h
  cases h

/-! ### Writing one entry -/

/-- An entry may be written where there is a directory to hold it and none in its
    place. -/
def Writable (t : FileTree ν γ) (p : List ν) : Prop :=
  p ≠ [] ∧ t.lookup p.dropLast = some .dir ∧ t.lookup p ≠ some .dir

instance [DecidableEq γ] (t : FileTree ν γ) (p : List ν) : Decidable (t.Writable p) :=
  inferInstanceAs (Decidable (_ ∧ _ ∧ _))

theorem nodeAt_upsert (entries : KeyedTable (TreeEntry ν γ) (·.path)) (hp : p ≠ [])
    (n : Node γ) (q : List ν) :
    nodeAt (entries.upsert ⟨p, n⟩) q = if q = p then some n else nodeAt entries q := by
  by_cases hq : q = []
  · subst hq
    rw [nodeAt, if_pos rfl, if_neg (Ne.symm hp), nodeAt, if_pos rfl]
  · rw [nodeAt, if_neg hq, KeyedTable.find?_upsert]
    by_cases hpq : q = p
    · rw [if_pos hpq, if_pos hpq.symm]
      rfl
    · rw [if_neg hpq, if_neg (Ne.symm hpq), nodeAt, if_neg hq]

omit [DecidableEq ν] in
/-- What lies above an entry lies on the way to its directory. -/
theorem prefix_parent {p above : List ν} (h : above <+: p) (hne : above ≠ p) :
    above <+: p.dropLast := by
  rcases List.eq_nil_or_concat' p with rfl | ⟨parent, name, rfl⟩
  · exact absurd (List.prefix_nil.mp h) hne
  · rw [List.dropLast_concat]
    exact (List.prefix_concat_iff.mp h).resolve_left hne

/-- Write an entry. -/
def put (t : FileTree ν γ) (p : List ν) (n : Node γ) (h : t.Writable p) : FileTree ν γ where
  entries := t.entries.upsert ⟨p, n⟩
  closed := by
    obtain ⟨hp, hparent, hdir⟩ := h
    intro e he
    rcases KeyedTable.mem_upsert.mp he with ⟨he, hne⟩ | rfl
    · obtain ⟨hroot, habove⟩ := t.closed e he
      refine ⟨hroot, ?_⟩
      intro q hq hqe
      rw [nodeAt_upsert t.entries hp]
      split
      · rename_i hqp
        subst hqp
        exact absurd (habove q hq hqe) hdir
      · exact habove q hq hqe
    · refine ⟨hp, ?_⟩
      intro q hq hqp
      rw [nodeAt_upsert t.entries hp, if_neg hqp]
      have habove := prefix_parent hq hqp
      by_cases heq : q = p.dropLast
      · rw [heq]
        exact hparent
      · exact lookup_above hparent habove heq

theorem lookup_put (t : FileTree ν γ) (n : Node γ) (h : t.Writable p) (q : List ν) :
    (t.put p n h).lookup q = if q = p then some n else t.lookup q :=
  nodeAt_upsert t.entries h.1 n q

/-- The tree without what lies at or below a path that `gone` holds of. -/
def prune (t : FileTree ν γ) (gone : List ν → Bool)
    (hbelow : ∀ p q, gone p = true → p <+: q → t.lookup q ≠ none → gone q = true) :
    FileTree ν γ where
  entries := t.entries.deleteWhere fun e => gone e.path
  closed := by
    intro e he
    obtain ⟨he, hstays⟩ := KeyedTable.mem_deleteWhere.mp he
    obtain ⟨hroot, habove⟩ := t.closed e he
    refine ⟨hroot, ?_⟩
    intro q hq hne
    by_cases hqroot : q = []
    · rw [hqroot, nodeAt, if_pos rfl]
    · have hkept : gone q = false := by
        by_contra hgone
        have hstored : t.lookup e.path = some e.node := (lookup_eq_some hroot).mpr he
        rw [hbelow q e.path (by simpa using hgone) hq (by rw [hstored]; simp)] at hstays
        cases hstays
      rw [nodeAt, if_neg hqroot, KeyedTable.find?_deleteWhere_key, if_neg (by simp [hkept])]
      have hdir := habove q hq hne
      rwa [nodeAt, if_neg hqroot] at hdir

theorem lookup_prune (t : FileTree ν γ) (gone : List ν → Bool)
    (hbelow : ∀ p q, gone p = true → p <+: q → t.lookup q ≠ none → gone q = true)
    (hq : q ≠ []) : (t.prune gone hbelow).lookup q = if gone q then none else t.lookup q := by
  rw [lookup, nodeAt, if_neg hq, prune, KeyedTable.find?_deleteWhere_key, lookup, nodeAt, if_neg hq]
  split
  · rfl
  · rfl

variable [DecidableEq γ]

/-- Why there is nothing at a path: a file is in the way or the name is missing. -/
def missing (t : FileTree ν γ) (p : List ν) : FileError :=
  if p.inits.any fun q => match t.lookup q with
      | some (.file _) => true
      | _ => false
  then .notADirectory else .notFound

/-- `mkdir` that is content with a directory that is there. -/
def mkdir (t : FileTree ν γ) (p : List ν) : Except FileError (FileTree ν γ) :=
  match t.lookup p with
  | some .dir => .ok t
  | some (.file _) => .error .alreadyExists
  | none => if h : t.Writable p then .ok (t.put p .dir h) else .error (t.missing p)

/-- Create the directories on the way from `base` to a path below it.  A file above
    the last of them is reported for not being a directory. -/
def createBelow (t : FileTree ν γ) (base : List ν) : List ν → Except FileError (FileTree ν γ)
  | [] => .ok t
  | name :: rest => do
      let t ← (t.mkdir (base ++ [name])).mapError fun e => if rest = [] then e else .notADirectory
      t.createBelow (base ++ [name]) rest

/-- Create a directory and those above it. -/
def createDirAll (t : FileTree ν γ) (p : List ν) : Except FileError (FileTree ν γ) :=
  t.createBelow [] p

/-- Create a file, or replace the one that is there. -/
def write (t : FileTree ν γ) (p : List ν) (c : γ) : Except FileError (FileTree ν γ) :=
  if h : t.Writable p then .ok (t.put p (.file c) h)
  else if t.lookup p = some .dir then .error .isADirectory
  else .error (t.missing p)

def read (t : FileTree ν γ) (p : List ν) : Except FileError γ :=
  match t.lookup p with
  | some (.file c) => .ok c
  | some .dir => .error .isADirectory
  | none => .error (t.missing p)

/-- Remove a file. -/
def removeFile (t : FileTree ν γ) (p : List ν) : Except FileError (FileTree ν γ) :=
  match h : t.lookup p with
  | some (.file _) => .ok (t.prune (fun q => decide (q = p)) (by
      intro q q' hq hstart hthere
      rw [decide_eq_true_eq] at hq ⊢
      subst hq
      by_contra hne
      exact hthere (lookup_below_file h hstart (Ne.symm hne))))
  | some .dir => .error .isADirectory
  | none => .error (t.missing p)

/-- Remove a directory with everything below it. -/
def removeDirAll (t : FileTree ν γ) (p : List ν) : Except FileError (FileTree ν γ) :=
  match t.lookup p with
  | some .dir => .ok (t.prune (fun q => p.isPrefixOf q) (by
      intro q q' hq hstart _
      rw [List.isPrefixOf_iff_prefix] at hq ⊢
      exact hq.trans hstart))
  | some (.file _) => .error .notADirectory
  | none => .error (t.missing p)

/-- The files at or below a directory, by their paths from there. -/
def filesBelow (t : FileTree ν γ) (base : List ν) : List (List ν × γ) :=
  t.entries.rows.filterMap fun e =>
    match e.node with
    | .file c => if base.isPrefixOf e.path then some (e.path.drop base.length, c) else none
    | .dir => none

/-! ### What the operations do -/

omit [DecidableEq γ] in
theorem read_eq_ok :
    t.read p = .ok c ↔ t.lookup p = some (.file c) := by
  unfold read
  split
  · rename_i c' hfile
    rw [hfile]
    simp
  · rename_i hdir
    rw [hdir]
    simp
  · rename_i hnone
    rw [hnone]
    simp

/-- A directory is made where it is missing. -/
theorem mkdir_ok (h : t.mkdir p = .ok t') :
    t' = t ∧ t.lookup p = some .dir ∨
      t.lookup p = none ∧ ∃ hw, t' = t.put p .dir hw := by
  unfold mkdir at h
  split at h
  · rename_i hdir
    cases h
    exact .inl ⟨rfl, hdir⟩
  · cases h
  · rename_i hnone
    split at h
    · rename_i hw
      cases h
      exact .inr ⟨hnone, hw, rfl⟩
    · cases h

theorem lookup_mkdir (h : t.mkdir p = .ok t') (q : List ν) :
    t'.lookup q = if q = p then some .dir else t.lookup q := by
  rcases mkdir_ok h with ⟨rfl, hdir⟩ | ⟨-, hw, rfl⟩
  · split
    · rename_i hq
      rw [hq, hdir]
    · rfl
  · exact lookup_put t .dir hw q

theorem mkdir_isOk (hp : p ≠ [])
    (hparent : t.lookup p.dropLast = some .dir) (hfile : ∀ c, t.lookup p ≠ some (.file c)) :
    ∃ t', t.mkdir p = .ok t' := by
  unfold mkdir
  split
  · exact ⟨t, rfl⟩
  · rename_i c hc
    exact absurd hc (hfile c)
  · rename_i hnone
    have hw : t.Writable p := ⟨hp, hparent, by rw [hnone]; simp⟩
    exact ⟨t.put p .dir hw, dif_pos hw⟩

theorem lookup_createBelow : ∀ {p base : List ν} {t : FileTree ν γ},
    t.lookup base = some .dir → t.createBelow base p = .ok t' →
      ∀ q, t'.lookup q = if q <+: base ++ p then some .dir else t.lookup q := by
  intro p
  induction p with
  | nil =>
    intro base t hbase h q
    cases h
    rw [List.append_nil]
    split
    · rename_i hq
      by_cases hne : q = base
      · rw [hne, hbase]
      · exact lookup_above hbase hq hne
    · rfl
  | cons name rest ih =>
    intro base t hbase h q
    obtain ⟨t₁, hmkdir, hrest⟩ := Outcome.bind_eq_ok.mp h
    rw [Outcome.mapError_eq_ok] at hmkdir
    have hlookup := lookup_mkdir hmkdir
    have hdir : t₁.lookup (base ++ [name]) = some .dir := by rw [hlookup, if_pos rfl]
    rw [ih hdir hrest q, List.append_assoc, List.singleton_append]
    split
    · rfl
    · rename_i hq
      rw [hlookup, if_neg]
      rintro rfl
      exact hq ⟨rest, by simp⟩

/-- **Creating directories** makes directories of all that lies on the way and
    changes nothing else. -/
theorem lookup_createDirAll (h : t.createDirAll p = .ok t')
    (q : List ν) : t'.lookup q = if q <+: p then some .dir else t.lookup q :=
  lookup_createBelow (lookup_root t) h q

/-- No file is in the way of directories that were made. -/
theorem createBelow_no_file : ∀ {p base : List ν} {t : FileTree ν γ},
    t.lookup base = some .dir → t.createBelow base p = .ok t' →
      ∀ q, q <+: base ++ p → ∀ c, t.lookup q ≠ some (.file c) := by
  intro p
  induction p with
  | nil =>
    intro base t hbase _ q hq c hfile
    rw [List.append_nil] at hq
    by_cases hne : q = base
    · rw [hne, hbase] at hfile
      cases hfile
    · rw [lookup_above hbase hq hne] at hfile
      cases hfile
  | cons name rest ih =>
    intro base t hbase h q hq c hfile
    obtain ⟨t₁, hmkdir, hrest⟩ := Outcome.bind_eq_ok.mp h
    rw [Outcome.mapError_eq_ok] at hmkdir
    have hlookup := lookup_mkdir hmkdir
    by_cases hne : q = base ++ [name]
    · -- the directory is made here, where there was none or one already
      subst hne
      rcases mkdir_ok hmkdir with ⟨-, hdir⟩ | ⟨hnone, -⟩
      · rw [hdir] at hfile
        cases hfile
      · rw [hnone] at hfile
        cases hfile
    · have hdir : t₁.lookup (base ++ [name]) = some .dir := by rw [hlookup, if_pos rfl]
      refine ih hdir hrest q (by simpa using hq) c ?_
      rw [hlookup, if_neg hne]
      exact hfile

theorem createBelow_isOk : ∀ {p base : List ν} {t : FileTree ν γ}, t.lookup base = some .dir →
    (∀ q, q <+: base ++ p → ∀ c, t.lookup q ≠ some (.file c)) →
      ∃ t', t.createBelow base p = .ok t' := by
  intro p
  induction p with
  | nil =>
    intro base t _ _
    exact ⟨t, rfl⟩
  | cons name rest ih =>
    intro base t hbase hfiles
    have hstep : base ++ [name] <+: base ++ name :: rest := ⟨rest, by simp⟩
    obtain ⟨t₁, hmkdir⟩ := mkdir_isOk (by simp : base ++ [name] ≠ [])
      (by rw [List.dropLast_concat]; exact hbase) (hfiles _ hstep)
    have hlookup := lookup_mkdir hmkdir
    obtain ⟨t', hrest⟩ := @ih (base ++ [name]) t₁ (by rw [hlookup, if_pos rfl]) (by
      intro q hq c
      rw [hlookup]
      split
      · simp
      · exact hfiles q (by simpa using hq) c)
    exact ⟨t', Outcome.bind_eq_ok.mpr ⟨t₁, Outcome.mapError_eq_ok.mpr hmkdir, hrest⟩⟩

/-- The way is free exactly when there is no file on it. -/
theorem createDirAll_isOk_iff :
    (∃ t', t.createDirAll p = .ok t') ↔ ∀ q, q <+: p → ∀ c, t.lookup q ≠ some (.file c) := by
  constructor
  · rintro ⟨t', h⟩
    exact createBelow_no_file (lookup_root t) h
  · exact createBelow_isOk (lookup_root t)

theorem write_eq_ok :
    t.write p c = .ok t' ↔ ∃ h, t' = t.put p (.file c) h := by
  unfold write
  split
  · rename_i h
    constructor
    · rintro ⟨⟩
      exact ⟨h, rfl⟩
    · rintro ⟨_, rfl⟩
      rfl
  · rename_i h
    constructor
    · intro hok
      split at hok
      · cases hok
      · cases hok
    · rintro ⟨h', _⟩
      exact absurd h' h

theorem lookup_write (h : t.write p c = .ok t')
    (q : List ν) : t'.lookup q = if q = p then some (.file c) else t.lookup q := by
  obtain ⟨hw, rfl⟩ := write_eq_ok.mp h
  exact lookup_put t (.file c) hw q

theorem write_isOk_iff :
    (∃ t', t.write p c = .ok t') ↔ t.Writable p := by
  simp only [write_eq_ok]
  constructor
  · rintro ⟨_, h, _⟩
    exact h
  · intro h
    exact ⟨_, h, rfl⟩

omit [DecidableEq γ] in
theorem removeFile_ok (h : t.removeFile p = .ok t') :
    (∃ c, t.lookup p = some (.file c)) ∧
      ∀ q, t'.lookup q = if q = p then none else t.lookup q := by
  unfold removeFile at h
  split at h
  · rename_i c hfile
    have hp : p ≠ [] := by
      rintro rfl
      rw [lookup_root] at hfile
      cases hfile
    cases h
    refine ⟨⟨c, hfile⟩, ?_⟩
    intro q
    by_cases hq : q = []
    · rw [hq, lookup_root, lookup_root, if_neg (Ne.symm hp)]
    · rw [lookup_prune t _ _ hq]
      simp
  · cases h
  · cases h

omit [DecidableEq γ] in
theorem removeFile_isOk (h : t.lookup p = some (.file c)) :
    ∃ t', t.removeFile p = .ok t' := by
  unfold removeFile
  split
  · exact ⟨_, rfl⟩
  · rename_i hdir
    rw [h] at hdir
    cases hdir
  · rename_i hnone
    rw [h] at hnone
    cases hnone

omit [DecidableEq γ] in
theorem removeDirAll_ok (h : t.removeDirAll p = .ok t') :
    ∀ q, q ≠ [] → t'.lookup q = if p <+: q then none else t.lookup q := by
  unfold removeDirAll at h
  split at h
  · cases h
    intro q hq
    rw [lookup_prune t _ _ hq]
    simp only [List.isPrefixOf_iff_prefix]
  · cases h
  · cases h

omit [DecidableEq γ] in
theorem removeDirAll_isOk (h : t.lookup p = some .dir) :
    ∃ t', t.removeDirAll p = .ok t' := by
  unfold removeDirAll
  split
  · exact ⟨_, rfl⟩
  · rename_i hfile
    rw [h] at hfile
    cases hfile
  · rename_i hnone
    rw [h] at hnone
    cases hnone

omit [DecidableEq γ] in
/-- **A walk** meets exactly the files that are stored below its start. -/
theorem mem_filesBelow {base rel : List ν} :
    (rel, c) ∈ t.filesBelow base ↔ t.lookup (base ++ rel) = some (.file c) := by
  rw [filesBelow, List.mem_filterMap]
  constructor
  · rintro ⟨⟨path, node⟩, he, hread⟩
    cases node with
    | dir => cases hread
    | file c' =>
      simp only [Option.ite_none_right_eq_some, List.isPrefixOf_iff_prefix, Option.some.injEq,
        Prod.mk.injEq] at hread
      obtain ⟨⟨rest, rfl⟩, hrel, rfl⟩ := hread
      rw [List.drop_left] at hrel
      rw [← hrel]
      exact (lookup_eq_some (t.closed _ he).1).mpr he
  · intro hfile
    have hne : base ++ rel ≠ [] := by
      intro hnil
      rw [hnil, lookup_root] at hfile
      cases hfile
    refine ⟨_, (lookup_eq_some hne).mp hfile, ?_⟩
    have hstart : base.isPrefixOf (base ++ rel) = true :=
      List.isPrefixOf_iff_prefix.mpr ⟨rel, rfl⟩
    simp [hstart]

/-! ### The files of a tree -/

/-- What the file at a path contains. -/
def contentAt (t : FileTree ν γ) (p : List ν) : Option γ :=
  match t.lookup p with
  | some (.file c) => some c
  | _ => none

omit [DecidableEq γ] in
theorem contentAt_eq_some :
    t.contentAt p = some c ↔ t.lookup p = some (.file c) := by
  unfold contentAt
  split
  · rename_i c' hfile
    rw [hfile]
    simp
  · rename_i hnot
    constructor
    · intro h
      cases h
    · intro h
      exact absurd h (hnot c)

omit [DecidableEq γ] in
/-- Trees with the same entries at a path have the same content there. -/
theorem contentAt_congr (h : t'.lookup p = t.lookup p) :
    t'.contentAt p = t.contentAt p := by
  rw [contentAt, contentAt, h]

omit [DecidableEq γ] in
theorem read_eq_ok_iff :
    t.read p = .ok c ↔ t.contentAt p = some c :=
  read_eq_ok.trans contentAt_eq_some.symm

omit [DecidableEq γ] in
theorem mem_filesBelow_iff {base rel : List ν} :
    (rel, c) ∈ t.filesBelow base ↔ t.contentAt (base ++ rel) = some c :=
  mem_filesBelow.trans contentAt_eq_some.symm

omit [DecidableEq γ] in
/-- No file is met twice. -/
theorem filesBelow_nodup (t : FileTree ν γ) (base : List ν) :
    ((t.filesBelow base).map Prod.fst).Nodup := by
  have hrows : t.entries.rows.Pairwise fun e e' => e.path ≠ e'.path :=
    List.pairwise_map.mp t.entries.nodup
  rw [List.Nodup, List.pairwise_map, filesBelow]
  refine hrows.filterMap _ ?_
  rintro ⟨path, node⟩ ⟨path', node'⟩ hne ⟨rel, c⟩ hread ⟨rel', c'⟩ hread' rfl
  cases node with
  | dir => cases hread
  | file d =>
    cases node' with
    | dir => cases hread'
    | file d' =>
      simp only [Option.ite_none_right_eq_some, List.isPrefixOf_iff_prefix, Option.some.injEq,
        Prod.mk.injEq] at hread hread'
      obtain ⟨⟨rest, hrest⟩, hrel, -⟩ := hread
      obtain ⟨⟨rest', hrest'⟩, hrel', -⟩ := hread'
      rw [← hrest, List.drop_left] at hrel
      rw [← hrest', List.drop_left] at hrel'
      exact hne (by rw [← hrest, ← hrest', hrel, hrel'])

omit [DecidableEq γ] in
/-- Why there is nothing depends on the files on the way. -/
theorem missing_congr
    (h : ∀ q, q <+: p → t'.contentAt q = t.contentAt q) : t'.missing p = t.missing p := by
  have hfile : ∀ (t : FileTree ν γ) (q : List ν), (match t.lookup q with
      | some (.file _) => true
      | _ => false) = (t.contentAt q).isSome := by
    intro t q
    rw [contentAt]
    split <;> rfl
  have hfiles : (p.inits.any fun q => (t'.contentAt q).isSome) =
      p.inits.any fun q => (t.contentAt q).isSome := by
    rw [Bool.eq_iff_iff, List.any_eq_true, List.any_eq_true]
    refine exists_congr fun q => and_congr_right fun hq => ?_
    rw [h q ((List.mem_inits q p).mp hq)]
  simp only [missing, hfile, hfiles]

theorem contentAt_write (h : t.write p c = .ok t') :
    t'.contentAt = Function.update t.contentAt p (some c) := by
  funext q
  have hlookup := lookup_write h q
  by_cases hq : q = p
  · subst hq
    rw [Function.update_self, contentAt_eq_some, hlookup, if_pos rfl]
  · rw [Function.update_of_ne hq]
    rw [if_neg hq] at hlookup
    exact contentAt_congr hlookup

/-- A write over a file is not refused. -/
theorem contentAt_of_write_error {e : FileError} (h : t.write p c = .error e) :
    t.contentAt p = none := by
  rw [← Option.not_isSome_iff_eq_none, Option.isSome_iff_exists]
  rintro ⟨c', hc'⟩
  have hfile := contentAt_eq_some.mp hc'
  have hne : p ≠ [] := by
    rintro rfl
    rw [lookup_root] at hfile
    cases hfile
  have hparent : t.lookup p.dropLast = some .dir := by
    refine lookup_above hfile (List.dropLast_prefix p) ?_
    intro heq
    have hlength := congrArg List.length heq
    have hpos := List.length_pos_of_ne_nil hne
    rw [List.length_dropLast] at hlength
    omega
  have hfree : t.lookup p ≠ some .dir := by
    rw [hfile]
    rintro ⟨⟩
  have hwritable : t.Writable p := ⟨hne, hparent, hfree⟩
  obtain ⟨t', hok⟩ := (write_isOk_iff (c := c)).mpr hwritable
  rw [h] at hok
  cases hok

omit [DecidableEq γ] in
theorem contentAt_removeFile (h : t.removeFile p = .ok t') :
    t'.contentAt = Function.update t.contentAt p none := by
  funext q
  have hlookup := (removeFile_ok h).2 q
  by_cases hq : q = p
  · subst hq
    rw [if_pos rfl] at hlookup
    rw [Function.update_self, contentAt, hlookup]
  · rw [Function.update_of_ne hq]
    rw [if_neg hq] at hlookup
    exact contentAt_congr hlookup

omit [DecidableEq γ] in
/-- Removing a directory leaves the files elsewhere. -/
theorem contentAt_removeDirAll
    (h : t.removeDirAll p = .ok t') (hq : ¬ p <+: q) : t'.contentAt q = t.contentAt q := by
  by_cases hroot : q = []
  · subst hroot
    exact contentAt_congr (by rw [lookup_root, lookup_root])
  · have hlookup := removeDirAll_ok h q hroot
    rw [if_neg hq] at hlookup
    exact contentAt_congr hlookup

/-- New directories leave every file, and every walk, as they were. -/
theorem contentAt_createDirAll (h : t.createDirAll p = .ok t') :
    t'.contentAt = t.contentAt := by
  have hfree := createDirAll_isOk_iff.mp ⟨t', h⟩
  funext q
  have hlookup := lookup_createDirAll h q
  by_cases hq : q <+: p
  · rw [if_pos hq] at hlookup
    rw [contentAt, hlookup, eq_comm, ← Option.not_isSome_iff_eq_none, Option.isSome_iff_exists]
    rintro ⟨c, hc⟩
    exact hfree q hq c (contentAt_eq_some.mp hc)
  · rw [if_neg hq] at hlookup
    exact contentAt_congr hlookup

omit [DecidableEq γ] in
theorem filesBelow_put_dir (hnone : t.lookup p = none)
    (h : t.Writable p) (base : List ν) : (t.put p .dir h).filesBelow base = t.filesBelow base := by
  have hp : p ≠ [] := h.1
  rw [lookup, nodeAt, if_neg hp, Option.map_eq_none_iff] at hnone
  have hrows : (t.entries.upsert ⟨p, .dir⟩).rows = t.entries.rows ++ [⟨p, .dir⟩] :=
    KeyedTable.rows_upsert_of_find?_none hnone
  rw [filesBelow, put, hrows, List.filterMap_append]
  simp [filesBelow]

theorem filesBelow_createBelow (start : List ν) :
    ∀ {p base : List ν} {t : FileTree ν γ}, t.createBelow base p = .ok t' →
      t'.filesBelow start = t.filesBelow start := by
  intro p
  induction p with
  | nil =>
    intro base t h
    cases h
    rfl
  | cons name rest ih =>
    intro base t h
    obtain ⟨t₁, hmkdir, hrest⟩ := Outcome.bind_eq_ok.mp h
    rw [Outcome.mapError_eq_ok] at hmkdir
    rw [ih hrest]
    rcases mkdir_ok hmkdir with ⟨rfl, -⟩ | ⟨hnone, hw, rfl⟩
    · rfl
    · exact filesBelow_put_dir hnone hw start

theorem filesBelow_createDirAll (h : t.createDirAll p = .ok t')
    (base : List ν) : t'.filesBelow base = t.filesBelow base := filesBelow_createBelow base h

end FileTree

end Relational
