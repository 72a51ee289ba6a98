import Peanut.Backups.Files

/-!
# Creating and listing backups

`backup_db` and `list_backup_summaries` each derive the directory of the backups
from the database URL.  Both end up in the directory of the database file, but
`backup_db` spells the directory of a bare file name as the empty path, which
cannot be listed.
-/

namespace Peanut

open Relational

variable {π : Type}

/-! ### Files by directory and name -/

theorem FileSystem.file_child (fs : FileSystem π) (p : FsPath) (name : String) :
    fs.file (p.child name) = (fs p.location).bind (·.find? name) := by
  simp only [FileSystem.file, FsPath.parent_child, FsPath.fileName_child]

theorem FileSystem.change_child {fs : FileSystem π} {p : FsPath} {dir : Directory π}
    (hdir : fs p.location = some dir) (name : String) (f : Directory π → String → Directory π) :
    fs.change (p.child name) f = .ok (fs.setDirectory p (f dir name)) := by
  simp only [FileSystem.change, FsPath.parent_child, FsPath.fileName_child, hdir]

theorem FileSystem.change_child_none {fs : FileSystem π} {p : FsPath}
    (hdir : fs p.location = none) (name : String) (f : Directory π → String → Directory π) :
    fs.change (p.child name) f = .error notFoundError := by
  simp only [FileSystem.change, FsPath.parent_child, FsPath.fileName_child, hdir]

@[simp] theorem FileSystem.setDirectory_self (fs : FileSystem π) (p : FsPath)
    (dir : Directory π) : fs.setDirectory p dir p.location = some dir :=
  Function.update_self _ _ _

theorem FileSystem.setDirectory_of_eq (fs : FileSystem π) {p q : FsPath}
    (h : q.location = p.location) (dir : Directory π) :
    fs.setDirectory p dir q.location = some dir := by
  rw [h, FileSystem.setDirectory_self]

@[simp] theorem FileSystem.setDirectory_setDirectory (fs : FileSystem π) (p : FsPath)
    (dir dir' : Directory π) :
    (fs.setDirectory p dir).setDirectory p dir' = fs.setDirectory p dir' :=
  Function.update_idem _ _ _

theorem removeFiles_spec {p : FsPath} : ∀ (entries : List (FileEntry π)) {fs : FileSystem π}
    {dir : Directory π}, fs p.location = some dir → (∀ e ∈ entries, e ∈ dir) →
      (entries.map FileEntry.name).Nodup →
      ∃ fs' dir', removeFiles p fs entries = (fs', .ok ()) ∧ fs' p.location = some dir' ∧
        ∀ name, dir'.find? name =
          if name ∈ entries.map FileEntry.name then none else dir.find? name := by
  intro entries
  induction entries with
  | nil =>
    intro fs dir hdir _ _
    exact ⟨fs, dir, rfl, hdir, fun name => by simp⟩
  | cons entry rest ih =>
    intro fs dir hdir hmem hnodup
    rw [List.map_cons, List.nodup_cons] at hnodup
    have hfile : fs.file (p.child entry.name) = some entry := by
      rw [FileSystem.file_child, hdir, Option.bind_some, KeyedTable.find?_eq_some]
      exact ⟨hmem entry (by simp), rfl⟩
    have hrest : ∀ e ∈ rest, e ∈ dir.erase entry.name := by
      intro e he
      rw [KeyedTable.mem_erase]
      refine ⟨hmem e (by simp [he]), fun heq => hnodup.1 ?_⟩
      exact List.mem_map.mpr ⟨e, he, heq⟩
    have hremove : fs.removeFile (p.child entry.name) =
        .ok (fs.setDirectory p (dir.erase entry.name)) := by
      rw [FileSystem.removeFile, hfile, Outcome.require_some, Outcome.ok_bind,
        FileSystem.change_child hdir]
    obtain ⟨fs', dir', hrun, hdir', hfind⟩ :=
      ih (FileSystem.setDirectory_self fs p (dir.erase entry.name)) hrest hnodup.2
    refine ⟨fs', dir', ?_, hdir', ?_⟩
    · rw [removeFiles, hremove]
      exact hrun
    · intro name
      rw [hfind name, KeyedTable.find?_erase, List.map_cons]
      by_cases hname : entry.name = name
      · simp [hname]
      · simp [hname, Ne.symm hname]

/-! ### The two directories -/

variable {text : String}

theorem rotatedDir_file (h : isFilePath text = true) :
    rotatedDir (parsePath text) = dirOf text := by
  rw [rotatedDir, parsePath_file h, FsPath.parent_child, Option.getD_some]

theorem backupDirForDbPath_file (h : isFilePath text = true) :
    backupDirForDbPath (parsePath text) =
      if (dirOf text).isEmpty then FsPath.currentDir else dirOf text := by
  rw [backupDirForDbPath, parsePath_file h, FsPath.parent_child]

theorem FsPath.location_of_isEmpty {p : FsPath} (h : p.isEmpty = true) :
    p.location = FsPath.currentDir.location := by
  obtain ⟨root, components⟩ := p
  simp only [FsPath.isEmpty, Bool.and_eq_true, Bool.not_eq_true', List.isEmpty_iff] at h
  obtain ⟨rfl, rfl⟩ := h
  rfl

theorem backupDirForDbPath_location (h : isFilePath text = true) :
    (backupDirForDbPath (parsePath text)).location = (dirOf text).location := by
  rw [backupDirForDbPath_file h]
  by_cases hempty : (dirOf text).isEmpty = true
  · rw [if_pos hempty, FsPath.location_of_isEmpty hempty]
  · rw [if_neg hempty]

theorem backupDirForDbPath_isEmpty (h : isFilePath text = true) :
    (backupDirForDbPath (parsePath text)).isEmpty = false := by
  rw [backupDirForDbPath_file h]
  by_cases hempty : (dirOf text).isEmpty = true
  · rw [if_pos hempty]
    rfl
  · rw [if_neg hempty]
    simpa using hempty

/-- The same path for both exactly when the database path names a directory. -/
theorem rotatedDir_eq_iff (h : isFilePath text = true) :
    rotatedDir (parsePath text) = backupDirForDbPath (parsePath text) ↔ '/' ∈ text.toList := by
  rw [rotatedDir_file h, backupDirForDbPath_file h]
  have hslash : (dirOf text).isEmpty = true ↔ '/' ∉ text.toList := by
    rw [dirOf_isEmpty]
    simp
  by_cases hempty : (dirOf text).isEmpty = true
  · rw [if_pos hempty]
    refine iff_of_false ?_ (hslash.mp hempty)
    intro heq
    rw [heq] at hempty
    exact absurd hempty (by decide)
  · rw [if_neg hempty]
    exact iff_of_true rfl (not_not.mp fun hno => hempty (hslash.mpr hno))

/-! ### What `backup_db` does -/

/-- The name of the file `VACUUM INTO` writes. -/
def backupName (dbFilename : String) (stamp : Stamp) : String :=
  dbFilename ++ ("." ++ stamp.text ++ ".backup")

/-- The entry of that file. -/
def backupEntry (dbFilename : String) (m : WriteTime) (pages : List π) : FileEntry π :=
  { name := backupName dbFilename m.stamp, modified := m.modified, content := .database pages }

theorem Stamp.ne_slash (stamp : Stamp) : '/' ∉ ("." ++ stamp.text ++ ".backup").toList := by
  intro h
  rw [String.toList_append, String.toList_append, List.mem_append, List.mem_append] at h
  rcases h with (h | h) | h
  · exact absurd h (by decide)
  · exact absurd (stamp.chars _ h) (by decide)
  · exact absurd h (by decide)

theorem parsePath_backupPathText (h : isFilePath text = true) (stamp : Stamp) :
    parsePath (backupPathText text stamp) =
      (dirOf text).child (backupName (baseName text) stamp) := by
  apply parsePath_file_append h stamp.ne_slash
  rw [String.length_append, String.length_append, stamp.length]
  have hlen : ".".length = 1 ∧ ".backup".length = 7 := by decide
  omega

theorem baseName_backupPathText (stamp : Stamp) :
    baseName (backupPathText text stamp) = backupName (baseName text) stamp := by
  rw [baseName, backupPathText, splitAt_append text stamp.ne_slash]
  simp [baseName, backupName]

/-- A `VACUUM INTO` that succeeds writes one file next to the database. -/
theorem vacuumInto_ok (h : isFilePath text = true) {m : WriteTime} {pages : List π}
    {fs fs' : FileSystem π}
    (hvacuum : vacuumInto m pages (backupPathText text m.stamp) fs = .ok fs') :
    ∃ dir, fs (dirOf text).location = some dir ∧
      fs' = fs.setDirectory (dirOf text) (dir.upsert (backupEntry (baseName text) m pages)) := by
  simp only [vacuumInto, Outcome.bind_eq_ok, Outcome.mapError_eq_ok,
    parsePath_backupPathText h] at hvacuum
  obtain ⟨-, -, hwrite⟩ := hvacuum
  cases hdir : fs (dirOf text).location with
  | none =>
    rw [FileSystem.write, FileSystem.change_child_none hdir] at hwrite
    cases hwrite
  | some dir =>
    rw [FileSystem.write, FileSystem.change_child hdir] at hwrite
    cases hwrite
    exact ⟨dir, rfl, rfl⟩

theorem vacuumInto_free (h : isFilePath text = true) {m : WriteTime} {fs : FileSystem π}
    {dir : Directory π} (hdir : fs (dirOf text).location = some dir)
    (hfree : dir.find? (backupName (baseName text) m.stamp) = none) (pages : List π) :
    vacuumInto m pages (backupPathText text m.stamp) fs =
      .ok (fs.setDirectory (dirOf text) (dir.upsert (backupEntry (baseName text) m pages))) := by
  simp only [vacuumInto, parsePath_backupPathText h, FileSystem.file_child, hdir, Option.bind_some,
    hfree, Outcome.ensure_true, Outcome.ok_bind, FileSystem.write, FileSystem.change_child hdir,
    Outcome.mapError_ok]
  rfl

theorem isBackupOf_backupEntry (dbFilename : String) (m : WriteTime) (pages : List π) :
    isBackupOf dbFilename (backupEntry dbFilename m pages) = true := by
  simp only [isBackupOf, backupEntry, backupName, endsWith, Bool.and_eq_true,
    List.isPrefixOf_iff_prefix, List.isSuffixOf_iff_suffix]
  constructor
  · exact ⟨(m.stamp.text ++ ".backup").toList, by simp [String.toList_append]⟩
  · exact ⟨(dbFilename ++ "." ++ m.stamp.text).toList, by simp [String.toList_append]⟩

theorem isListedBackup_of_isBackupOf {dbFilename : String} {entry : FileEntry π}
    (h : isBackupOf dbFilename entry = true) : isListedBackup dbFilename entry = true := by
  simp only [isBackupOf, Bool.and_eq_true] at h
  simp only [isListedBackup, Bool.and_eq_true, Bool.or_eq_true]
  exact ⟨h.1, .inl h.2⟩

/-- The names a rotation of the directory deletes. -/
def rotatedNames (os : ReadOrder π) (dbFilename : String) (dir : Directory π) : List String :=
  (rotatedAway dbFilename (os.order dir.rows)).map FileEntry.name

/-- **What a backup leaves** when the database path names a directory: the new
    file is there, and the rotated ones are gone. -/
theorem backupDb_of_dir (os : ReadOrder π) {m : WriteTime} {pages : List π} {url : String}
    {fs : FileSystem π} {dir : Directory π} (hfile : isFilePath (extractDbPath url) = true)
    (hquote : strContains "'" (backupPathText (extractDbPath url) m.stamp) = false)
    (hvacuum : vacuumInto m pages (backupPathText (extractDbPath url) m.stamp) fs =
      .ok (fs.setDirectory (dirOf (extractDbPath url)) dir))
    (hlisted : (dirOf (extractDbPath url)).isEmpty = false) :
    ∃ fs' dir', backupDb os m pages url fs =
        (fs', .ok (backupPathText (extractDbPath url) m.stamp)) ∧
      fs' (dirOf (extractDbPath url)).location = some dir' ∧
      ∀ name, dir'.find? name =
        if name ∈ rotatedNames os (baseName (extractDbPath url)) dir then none
        else dir.find? name := by
  generalize htext : extractDbPath url = text at *
  have hperm := os.perm dir.rows
  have hsub : ∀ e ∈ rotatedAway (baseName text) (os.order dir.rows), e ∈ dir := by
    intro e he
    have hmem := Retention.mem_of_mem_dropped _ he
    exact hperm.mem_iff.mp (List.mem_of_mem_filter hmem)
  have hnodup : ((rotatedAway (baseName text) (os.order dir.rows)).map FileEntry.name).Nodup := by
    have hall : (os.order dir.rows).Nodup := hperm.nodup_iff.mpr dir.nodup.of_map
    have hrot : (rotatedAway (baseName text) (os.order dir.rows)).Nodup :=
      Retention.dropped_nodup _ (hall.filter _)
    refine List.Nodup.map_on ?_ hrot
    intro a ha b hb hab
    exact dir.eq_of_key_eq (hsub a ha) (hsub b hb) hab
  obtain ⟨fs', dir', hrun, hdir', hfind⟩ := removeFiles_spec
    (rotatedAway (baseName text) (os.order dir.rows))
    (FileSystem.setDirectory_self fs (dirOf text) dir) hsub hnodup
  refine ⟨fs', dir', ?_, hdir', hfind⟩
  have hname : (parsePath text).fileName = some (baseName text) := by
    rw [parsePath_file hfile, FsPath.fileName_child]
  simp only [backupDb, htext, hquote, hvacuum, hname, rotatedDir_file hfile, Outcome.proceed_ok,
    Outcome.require_some, readDir, hlisted, FileSystem.setDirectory_self, Outcome.mapError_ok,
    hrun, if_false, Bool.false_eq_true]

theorem backupDb_of_bare (os : ReadOrder π) {m : WriteTime} {pages : List π} {url : String}
    {fs fs' : FileSystem π} (hfile : isFilePath (extractDbPath url) = true)
    (hquote : strContains "'" (backupPathText (extractDbPath url) m.stamp) = false)
    (hvacuum : vacuumInto m pages (backupPathText (extractDbPath url) m.stamp) fs = .ok fs')
    (hbare : (dirOf (extractDbPath url)).isEmpty = true) :
    backupDb os m pages url fs = (fs', .error (.io notFoundError)) := by
  have hname : (parsePath (extractDbPath url)).fileName = some (baseName (extractDbPath url)) := by
    rw [parsePath_file hfile, FsPath.fileName_child]
  simp only [backupDb, hquote, hvacuum, hname, rotatedDir_file hfile, Outcome.proceed_ok,
    Outcome.require_some, readDir, hbare, if_true, Outcome.mapError_error, Outcome.proceed_error,
    if_false, Bool.false_eq_true]

/-! ### What the listing shows -/

/-- The listing shows a backup exactly when its file is in the directory. -/
theorem listed_iff {toRfc3339 : Nat → String} (os : ReadOrder π) {url : String}
    {fs : FileSystem π} {dir : Directory π} (hfile : isFilePath (extractDbPath url) = true)
    (hdir : fs (dirOf (extractDbPath url)).location = some dir) (name : String) :
    (∃ summaries, listBackupSummaries toRfc3339 os url fs = .ok summaries ∧
        ∃ s ∈ summaries, s.name = name) ↔
      ∃ entry ∈ dir, entry.name = name ∧
        isListedBackup (baseName (extractDbPath url)) entry = true := by
  have hname : (parsePath (extractDbPath url)).fileName = some (baseName (extractDbPath url)) := by
    rw [parsePath_file hfile, FsPath.fileName_child]
  simp only [listBackupSummaries, readDir, backupDirForDbPath_isEmpty hfile,
    backupDirForDbPath_location hfile, hdir, hname, Option.getD_some, Bool.false_eq_true, if_false,
    Outcome.ok_bind, pure, Except.pure, Except.ok.injEq, exists_eq_left', List.mem_mergeSort,
    List.mem_map, List.mem_filter, (os.perm dir.rows).mem_iff]
  constructor
  · rintro ⟨s, ⟨entry, ⟨hmem, hlisted⟩, rfl⟩, hs⟩
    exact ⟨entry, hmem, hs, hlisted⟩
  · rintro ⟨entry, hmem, hs, hlisted⟩
    exact ⟨_, ⟨entry, ⟨hmem, hlisted⟩, rfl⟩, hs⟩

/-! ### Does a new backup survive its own rotation? -/

/-- The entries of a directory; none when it does not exist. -/
def FileSystem.entries (fs : FileSystem π) (p : FsPath) : List (FileEntry π) :=
  ((fs p.location).map KeyedTable.rows).getD []

/-- Is this another backup, dated as the new one or later? -/
def isNewerBackup (dbFilename : String) (m : WriteTime) (entry : FileEntry π) : Bool :=
  isBackupOf dbFilename entry &&
    (entry.name != backupName dbFilename m.stamp && decide (m.modified ≤ entry.modified))

/-- A system that lists the file of this name first. -/
def ReadOrder.front (π : Type) (name : String) : ReadOrder π where
  order entries := entries.filter (·.name == name) ++ entries.filter fun e => !(e.name == name)
  perm entries := List.filter_append_perm _ entries

section Survival

variable {dbFilename : String} {m : WriteTime} {pages : List π} {dir : Directory π}

theorem filter_newer_upsert :
    ((dir.upsert (backupEntry dbFilename m pages)).rows.filter (isNewerBackup dbFilename m)) =
      dir.rows.filter (isNewerBackup dbFilename m) := by
  have hself : isNewerBackup dbFilename m (backupEntry dbFilename m pages) = false := by
    simp [isNewerBackup, backupEntry]
  have hrows : (dir.upsert (backupEntry dbFilename m pages)).rows =
      dir.rows.filter (fun e => !decide (e.name = backupName dbFilename m.stamp)) ++
        [backupEntry dbFilename m pages] := rfl
  rw [hrows, List.filter_append, List.filter_cons_of_neg (by simp [hself]), List.filter_nil,
    List.append_nil, List.filter_filter]
  apply List.filter_congr
  intro e _
  by_cases hname : e.name = backupName dbFilename m.stamp
  · simp [isNewerBackup, hname]
  · simp [isNewerBackup, hname]

theorem mem_rotatedNames_iff (os : ReadOrder π) :
    backupName dbFilename m.stamp ∈
        rotatedNames os dbFilename (dir.upsert (backupEntry dbFilename m pages)) ↔
      backupEntry dbFilename m pages ∈ rotatedAway dbFilename
        (os.order (dir.upsert (backupEntry dbFilename m pages)).rows) := by
  rw [rotatedNames, List.mem_map]
  constructor
  · rintro ⟨e, he, hname⟩
    have hmem : e ∈ dir.upsert (backupEntry dbFilename m pages) :=
      (os.perm _).mem_iff.mp (List.mem_of_mem_filter (Retention.mem_of_mem_dropped _ he))
    rcases KeyedTable.mem_upsert.mp hmem with ⟨-, hne⟩ | rfl
    · exact absurd hname hne
    · exact he
  · intro he
    exact ⟨_, he, rfl⟩

theorem survives_of_few (os : ReadOrder π)
    (hfew : (dir.rows.filter (isNewerBackup dbFilename m)).length < 7) :
    backupName dbFilename m.stamp ∉
      rotatedNames os dbFilename (dir.upsert (backupEntry dbFilename m pages)) := by
  rw [mem_rotatedNames_iff]
  have hperm := os.perm (dir.upsert (backupEntry dbFilename m pages)).rows
  have hnodup : (os.order (dir.upsert (backupEntry dbFilename m pages)).rows).Nodup :=
    hperm.nodup_iff.mpr (KeyedTable.nodup _).of_map
  apply Retention.not_mem_dropped (hnodup.filter _)
    (p := isNewerBackup dbFilename m)
  · intro y hy hne hle
    rw [List.mem_filter, hperm.mem_iff] at hy
    rcases KeyedTable.mem_upsert.mp hy.1 with ⟨-, hname⟩ | heq
    · simp only [isNewerBackup, hy.2, Bool.true_and, Bool.and_eq_true, bne_iff_ne, ne_eq,
        decide_eq_true_eq]
      exact ⟨hname, hle⟩
    · exact absurd heq hne
  · have hsame : (((os.order (dir.upsert (backupEntry dbFilename m pages)).rows).filter
        (isBackupOf dbFilename)).filter (isNewerBackup dbFilename m)).length =
        (dir.rows.filter (isNewerBackup dbFilename m)).length := by
      rw [List.filter_filter, ← filter_newer_upsert, ← (hperm.filter _).length_eq]
      congr 1
      apply List.filter_congr
      intro e _
      cases hb : isBackupOf dbFilename e <;> simp [isNewerBackup, hb]
    omega

theorem rotated_of_many
    (hmany : 7 ≤ (dir.rows.filter (isNewerBackup dbFilename m)).length) :
    backupName dbFilename m.stamp ∈
      rotatedNames (ReadOrder.front π (backupName dbFilename m.stamp)) dbFilename
        (dir.upsert (backupEntry dbFilename m pages)) := by
  rw [mem_rotatedNames_iff]
  -- the listing is the new file followed by the others
  have hrows : (dir.upsert (backupEntry dbFilename m pages)).rows =
      dir.rows.filter (fun e => !decide (e.name = backupName dbFilename m.stamp)) ++
        [backupEntry dbFilename m pages] := rfl
  have hfront : (ReadOrder.front π (backupName dbFilename m.stamp)).order
      (dir.upsert (backupEntry dbFilename m pages)).rows =
      backupEntry dbFilename m pages ::
        dir.rows.filter (fun e => !(e.name == backupName dbFilename m.stamp)) := by
    have hnone : (dir.rows.filter fun e => !decide (e.name = backupName dbFilename m.stamp)).filter
        (·.name == backupName dbFilename m.stamp) = [] := by
      rw [List.filter_filter, List.filter_eq_nil_iff]
      intro e _
      simp
    simp only [ReadOrder.front, hrows, List.filter_append, hnone, List.nil_append,
      List.filter_filter]
    simp [backupEntry, Bool.beq_eq_decide_eq]
  have hcount : (((dir.rows.filter fun e => !(e.name == backupName dbFilename m.stamp)).filter
      (isBackupOf dbFilename)).filter (isNewerBackup dbFilename m)) =
      dir.rows.filter (isNewerBackup dbFilename m) := by
    rw [List.filter_filter, List.filter_filter]
    apply List.filter_congr
    intro e _
    cases hb : isBackupOf dbFilename e <;> simp [isNewerBackup, hb]
    tauto
  rw [rotatedAway, hfront, List.filter_cons_of_pos (isBackupOf_backupEntry dbFilename m pages)]
  apply Retention.mem_dropped_cons (p := isNewerBackup dbFilename m)
  · intro y _ hy
    simp only [isNewerBackup, Bool.and_eq_true, decide_eq_true_eq] at hy
    exact hy.2.2
  · rw [hcount]
    exact hmany

end Survival

/-! ### Creation against listing -/

/-- Creation and listing use one directory; `backup_db` reports its file and the
    listing shows it, in whatever order the system lists directories. -/
def CreationListed (toRfc3339 : Nat → String) (m : WriteTime) (pages : List π) (url : String)
    (fs : FileSystem π) : Prop :=
  rotatedDir (parsePath (extractDbPath url)) = backupDirForDbPath (parsePath (extractDbPath url)) ∧
    ∀ os os' : ReadOrder π, ∃ fs' path, backupDb os m pages url fs = (fs', .ok path) ∧
      ∃ summaries, listBackupSummaries toRfc3339 os' url fs' = .ok summaries ∧
        ∃ s ∈ summaries, s.name = baseName path

/-- **Exactly when a written backup is reported and listed.** -/
theorem backup_listed_iff (toRfc3339 : Nat → String) {m : WriteTime} {pages : List π}
    {url : String} {fs fs' : FileSystem π} (hfile : isFilePath (extractDbPath url) = true)
    (hquote : strContains "'" (backupPathText (extractDbPath url) m.stamp) = false)
    (hvacuum : vacuumInto m pages (backupPathText (extractDbPath url) m.stamp) fs = .ok fs') :
    CreationListed toRfc3339 m pages url fs ↔
      '/' ∈ (extractDbPath url).toList ∧
        ((fs.entries (dirOf (extractDbPath url))).filter
          (isNewerBackup (baseName (extractDbPath url)) m)).length ≤ 6 := by
  obtain ⟨dir, hdir, rfl⟩ := vacuumInto_ok hfile hvacuum
  have hentries : fs.entries (dirOf (extractDbPath url)) = dir.rows := by
    simp [FileSystem.entries, hdir]
  rw [CreationListed, rotatedDir_eq_iff hfile, hentries]
  refine and_congr_right fun hslash => ?_
  have hlisted : (dirOf (extractDbPath url)).isEmpty = false := by
    rw [dirOf_isEmpty]
    simpa using hslash
  constructor
  · intro hall
    by_contra hmany
    obtain ⟨fs₁, path, hbackup, hshown⟩ := hall
      (ReadOrder.front π (backupName (baseName (extractDbPath url)) m.stamp))
      (ReadOrder.front π (backupName (baseName (extractDbPath url)) m.stamp))
    obtain ⟨fs₂, dir', hrun, hdir', hfind⟩ := backupDb_of_dir
      (ReadOrder.front π (backupName (baseName (extractDbPath url)) m.stamp)) hfile hquote hvacuum
      hlisted
    rw [hbackup] at hrun
    cases hrun
    rw [baseName_backupPathText, listed_iff _ hfile hdir'] at hshown
    obtain ⟨entry, hmem, hname, -⟩ := hshown
    have hgone := hfind (backupName (baseName (extractDbPath url)) m.stamp)
    rw [if_pos (rotated_of_many (by omega)), KeyedTable.find?, KeyedTable.selectOne_none] at hgone
    simpa [hname] using hgone entry hmem
  · intro hfew os os'
    obtain ⟨fs₁, dir', hrun, hdir', hfind⟩ := backupDb_of_dir os hfile hquote hvacuum hlisted
    refine ⟨fs₁, _, hrun, ?_⟩
    rw [baseName_backupPathText, listed_iff _ hfile hdir']
    have hkept := hfind (backupName (baseName (extractDbPath url)) m.stamp)
    rw [if_neg (survives_of_few os (by omega)), KeyedTable.find?_upsert] at hkept
    simp only [backupEntry, if_true] at hkept
    obtain ⟨hmem, hname⟩ := KeyedTable.find?_eq_some.mp hkept
    exact ⟨_, hmem, hname, isListedBackup_of_isBackupOf
      (isBackupOf_backupEntry (baseName (extractDbPath url)) m pages)⟩

/-- One empty directory. -/
def emptyDirectoryAt (π : Type) (p : FsPath) : FileSystem π := fun q =>
  if q = p.location then some KeyedTable.empty else none

def sampleTime : WriteTime :=
  { modified := 1777424523
    stamp :=
      { text := "20260429_010203", length := by decide
        chars := by simp [isStampChar, isAsciiDigit] } }

theorem backup_in_directory_listed :
    CreationListed (fun _ => "2026-04-29T01:02:03+00:00") sampleTime [(0 : Nat)]
      "sqlite:///data/peanut.db"
      (emptyDirectoryAt Nat (dirOf (extractDbPath "sqlite:///data/peanut.db"))) := by
  have hfile : isFilePath (extractDbPath "sqlite:///data/peanut.db") = true := by decide +kernel
  have hdir : emptyDirectoryAt Nat (dirOf (extractDbPath "sqlite:///data/peanut.db"))
      (dirOf (extractDbPath "sqlite:///data/peanut.db")).location = some KeyedTable.empty := by
    simp [emptyDirectoryAt]
  refine (backup_listed_iff _ hfile (by decide +kernel) (vacuumInto_free hfile hdir rfl _)).mpr ?_
  refine ⟨by decide +kernel, ?_⟩
  simp [FileSystem.entries, hdir]

/-- A database given by a bare file name: the backup is written and not reported. -/
theorem bare_name_backup_not_reported :
    isFilePath (extractDbPath "sqlite://peanut.db") = true ∧
      (∃ fs', vacuumInto sampleTime [(0 : Nat)]
        (backupPathText (extractDbPath "sqlite://peanut.db") sampleTime.stamp)
        (emptyDirectoryAt Nat FsPath.currentDir) = .ok fs') ∧
      ¬ CreationListed (fun _ => "2026-04-29T01:02:03+00:00") sampleTime [0] "sqlite://peanut.db"
        (emptyDirectoryAt Nat FsPath.currentDir) := by
  have hfile : isFilePath (extractDbPath "sqlite://peanut.db") = true := by decide +kernel
  have hbare : (dirOf (extractDbPath "sqlite://peanut.db")).isEmpty = true := by decide +kernel
  have hdir : emptyDirectoryAt Nat FsPath.currentDir
      (dirOf (extractDbPath "sqlite://peanut.db")).location = some KeyedTable.empty := by
    rw [FsPath.location_of_isEmpty hbare]
    simp [emptyDirectoryAt]
  have hvacuum := vacuumInto_free hfile (m := sampleTime) hdir rfl [0]
  refine ⟨hfile, ⟨_, hvacuum⟩, ?_⟩
  rintro ⟨-, hall⟩
  obtain ⟨fs', path, hbackup, -⟩ := hall (ReadOrder.front Nat "") (ReadOrder.front Nat "")
  rw [backupDb_of_bare _ hfile (by decide +kernel) hvacuum hbare] at hbackup
  cases hbackup

end Peanut
