import Peanut.Backups.Schedule

/-!
# Can the server start?

Between two starts, backups are made and rotated, restores scheduled and
cancelled.  The server starts exactly when there is no marker or the marker names
a database backup that is still there; this module says which of those steps lead
from such a directory to another.
-/

namespace Peanut

open Relational WriteAheadLog

variable {π : Type}

/-! ### Runs -/

/-- What happens to the database directory between two starts.  The database,
    the clock and the order of the directory are those of the moment. -/
inductive BackupAction (π : Type) where
  | scheduledBackup (os : ReadOrder π) (m : WriteTime) (pages : List π)
  | createBackup (toRfc3339 : Nat → String) (os : ReadOrder π) (m : WriteTime) (pages : List π)
      (db : Db) (claims : Claims)
  | createFullBackup (toRfc3339 : Nat → String) (os : ReadOrder π) (m m' : WriteTime)
      (tar : TarOutcome) (pages : List π) (db : Db) (claims : Claims)
  | restoreBackup (env : Env) (m : WriteTime) (db : Db) (claims : Claims) (backupName : String)
      (payload : RestoreBackupRequest)
  | deleteRestorePending (claims : Claims)

def backupStep (url : String) (fs : FileSystem π) : BackupAction π → FileSystem π
  | .scheduledBackup os m pages => (backupDb os m pages url fs).1
  | .createBackup toRfc3339 os m pages db claims =>
      (createBackup toRfc3339 os m pages db claims url fs).1
  | .createFullBackup toRfc3339 os m m' tar pages db claims =>
      (createFullBackup toRfc3339 os m m' tar pages db claims url fs).1
  | .restoreBackup env m db claims backupName payload =>
      (restoreBackup env m db claims url backupName payload fs).1.2
  | .deleteRestorePending claims => (deleteRestorePending claims url fs).1

/-- `main` gets past `apply_pending_restore`, file operations not failing. -/
def Starts (url : String) (fs : FileSystem π) : Prop :=
  ∀ m, ∃ applied, (applyPendingRestore {} m url FsPath.currentDir fs).2 = .ok applied

/-! ### When the server starts -/

/-- The directory of the database. -/
def databaseDir (url : String) (fs : FileSystem π) : Option (Directory π) :=
  fs (dirOf (extractDbPath url)).location

/-- A marker, if there is one, names a backup that is there. -/
def MarkerHonoured (files : Directory π) : Prop :=
  ∀ marker, files.find? restoreMarkerFile = some marker →
    ∃ value, marker.content = .text value ∧ isRestorableName (trim value) = true ∧
      files.hasKey (trim value) = true

variable {url : String} {fs fs' : FileSystem π} {files files' : Directory π}

theorem databaseDir_setDirectory (url : String) (fs : FileSystem π) (files : Directory π) :
    databaseDir url (fs.setDirectory (dirOf (extractDbPath url)) files) = some files :=
  FileSystem.setDirectory_self fs (dirOf (extractDbPath url)) files

theorem restoreDir_location (url : String) :
    (restoreDir url FsPath.currentDir).location = (dirOf (extractDbPath url)).location :=
  FsPath.location_currentDir_join _

/-- **When the server starts.** -/
theorem starts_iff (hfile : isFilePath (extractDbPath url) = true) (fs : FileSystem π) :
    Starts url fs ↔ ∀ files, databaseDir url fs = some files → MarkerHonoured files := by
  constructor
  · intro hstarts files hdir marker hmarker
    by_contra hno
    have hdir' : fs (restoreDir url FsPath.currentDir).location = some files := by
      rw [restoreDir_location]
      exact hdir
    obtain ⟨applied, hok⟩ := hstarts sampleTime
    obtain ⟨e, herr⟩ : ∃ e, applyPendingRestore {} sampleTime url FsPath.currentDir fs =
        (fs, .error e) := by
      apply applyPendingRestore_refused hfile hdir' hmarker
      intro value hvalue hvalid
      by_contra hthere
      exact hno ⟨value, hvalue, hvalid, Option.isSome_iff_ne_none.mpr hthere⟩
    rw [herr] at hok
    cases hok
  · intro hhonoured m
    cases hread : fs.file ((restoreDir url FsPath.currentDir).child restoreMarkerFile) with
    | none => exact ⟨none, by rw [applyPendingRestore_unmarked hfile hread]⟩
    | some marker =>
      obtain ⟨files, hdir, hfind⟩ :
          ∃ files, fs (restoreDir url FsPath.currentDir).location = some files ∧
            files.find? restoreMarkerFile = some marker := by
        rwa [FileSystem.file_child, Option.bind_eq_some_iff] at hread
      have hdir' : databaseDir url fs = some files := by
        rw [databaseDir, ← restoreDir_location]
        exact hdir
      obtain ⟨value, hvalue, hvalid, hthere⟩ := hhonoured files hdir' marker hfind
      obtain ⟨backup, hbackup⟩ := Option.isSome_iff_exists.mp hthere
      have hnofault : ({} : RestoreFaults π).preserve = none ∨
          files.find? (baseName (extractDbPath url)) = none := .inl rfl
      obtain ⟨fs', files', removed, hrun, -⟩ := copyBackup_restored (m := m) hdir hbackup
        (isRestorableName_backup hvalid) hnofault rfl
      rw [applyPendingRestore_pending hfile hdir hfind hvalue hvalid hbackup, hrun]
      exact ⟨_, rfl⟩

/-! ### What a backup deletes -/

/-- The files a backup rotates away. -/
def rotatedBy (os : ReadOrder π) (m : WriteTime) (pages : List π) (url : String)
    (fs : FileSystem π) : List String :=
  match databaseDir url fs with
  | none => []
  | some files =>
      if !strContains "'" (backupPathText (extractDbPath url) m.stamp) &&
          Outcome.succeeded (vacuumInto m pages (backupPathText (extractDbPath url) m.stamp) fs) &&
          (extractDbPath url).toList.contains '/' then
        rotatedNames os (baseName (extractDbPath url))
          (files.upsert (backupEntry (baseName (extractDbPath url)) m pages))
      else []

/-- The marker stays, and the files that were there stay unless deleted. -/
structure KeepsMarker (deleted : List String) (files files' : Directory π) : Prop where
  marker : files'.find? restoreMarkerFile = files.find? restoreMarkerFile
  kept : ∀ name, files.hasKey name = true → (files'.hasKey name = true ↔ name ∉ deleted)

theorem KeepsMarker.refl (files : Directory π) : KeepsMarker [] files files where
  marker := rfl
  kept name h := by simp [h]

theorem hasKey_upsert (files : Directory π) (entry : FileEntry π) (name : String) :
    (files.upsert entry).hasKey name = true ↔ entry.name = name ∨ files.hasKey name = true := by
  rw [KeyedTable.hasKey, KeyedTable.find?_upsert]
  by_cases hname : entry.name = name
  · simp [hname]
  · simp [hname, KeyedTable.hasKey]

theorem KeepsMarker.upsert {deleted : List String} (h : KeepsMarker deleted files files')
    {entry : FileEntry π} (hmarker : entry.name ≠ restoreMarkerFile)
    (hdeleted : entry.name ∉ deleted) : KeepsMarker deleted files (files'.upsert entry) where
  marker := by rw [KeyedTable.find?_upsert, if_neg hmarker, h.marker]
  kept name hname := by
    rw [hasKey_upsert, h.kept name hname]
    constructor
    · rintro (rfl | hkept)
      · exact hdeleted
      · exact hkept
    · exact .inr

theorem lastChar_rotatedNames {os : ReadOrder π} {dbFilename name : String}
    (h : name ∈ rotatedNames os dbFilename files) : lastChar name = some 'p' := by
  obtain ⟨entry, hentry, rfl⟩ := List.mem_map.mp h
  have hbackup := (List.mem_filter.mp (Retention.mem_of_mem_dropped _ hentry)).2
  simp only [isBackupOf, Bool.and_eq_true] at hbackup
  exact lastChar_backup hbackup.2

theorem lastChar_rotatedBy {os : ReadOrder π} {m : WriteTime} {pages : List π} {name : String}
    (h : name ∈ rotatedBy os m pages url fs) : lastChar name = some 'p' := by
  unfold rotatedBy at h
  split at h
  · cases h
  · split at h
    · exact lastChar_rotatedNames h
    · cases h

theorem lastChar_backupName (dbFilename : String) (stamp : Stamp) :
    lastChar (backupName dbFilename stamp) = some 'p' := by
  have hne : "." ++ stamp.text ++ ".backup" ≠ "" := by
    rw [← String.length_eq_zero_iff.ne, String.length_append, String.length_append, stamp.length]
    omega
  rw [backupName, lastChar_append _ hne, lastChar_append _ (by decide)]
  decide

theorem ne_marker_of_lastChar {name : String} {c : Char} (h : lastChar name = some c)
    (hc : c ≠ 'e') : name ≠ restoreMarkerFile := by
  rintro rfl
  rw [lastChar_marker, Option.some.injEq] at h
  exact hc h.symm

theorem backupDb_refused {os : ReadOrder π} {m : WriteTime} {pages : List π}
    (h : strContains "'" (backupPathText (extractDbPath url) m.stamp) = true ∨
      ∃ e, vacuumInto m pages (backupPathText (extractDbPath url) m.stamp) fs = .error e) :
    (∃ e, backupDb os m pages url fs = (fs, .error e)) ∧ rotatedBy os m pages url fs = [] := by
  constructor
  · unfold backupDb
    by_cases hquote : strContains "'" (backupPathText (extractDbPath url) m.stamp) = true
    · exact ⟨_, if_pos hquote⟩
    · obtain ⟨e, hvacuum⟩ := h.resolve_left hquote
      refine ⟨e, ?_⟩
      rw [if_neg hquote, hvacuum, Outcome.proceed_error]
  · unfold rotatedBy
    split
    · rfl
    · rw [if_neg]
      rcases h with hquote | ⟨e, hvacuum⟩
      · simp [hquote]
      · simp [hvacuum]

section Written

variable {os : ReadOrder π} {m : WriteTime} {pages : List π}
  (hfile : isFilePath (extractDbPath url) = true)
  (hquote : strContains "'" (backupPathText (extractDbPath url) m.stamp) = false)
  (hvacuum : vacuumInto m pages (backupPathText (extractDbPath url) m.stamp) fs =
    .ok (fs.setDirectory (dirOf (extractDbPath url))
      (files.upsert (backupEntry (baseName (extractDbPath url)) m pages))))
  (hdir : databaseDir url fs = some files)

include hfile hquote hvacuum hdir

theorem backupDb_keeps_listed (hlisted : (dirOf (extractDbPath url)).isEmpty = false) :
    ∃ files', databaseDir url (backupDb os m pages url fs).1 = some files' ∧
      KeepsMarker (rotatedBy os m pages url fs) files files' := by
  have hslash : (extractDbPath url).toList.contains '/' = true := by
    rw [dirOf_isEmpty, Bool.not_eq_false'] at hlisted
    exact hlisted
  have hrotated : rotatedBy os m pages url fs = rotatedNames os (baseName (extractDbPath url))
      (files.upsert (backupEntry (baseName (extractDbPath url)) m pages)) := by
    simp only [rotatedBy, hdir, hquote, hvacuum, hslash, Outcome.succeeded_ok, Bool.not_false,
      Bool.and_self, if_true]
  obtain ⟨fs', files', hrun, hfiles', hfind⟩ := backupDb_of_dir os hfile hquote hvacuum hlisted
  have hnew : (backupEntry (baseName (extractDbPath url)) m pages).name ≠ restoreMarkerFile :=
    ne_marker_of_lastChar (lastChar_backupName _ _) (by decide)
  rw [hrun, hrotated]
  refine ⟨files', hfiles', ?_, ?_⟩
  · rw [hfind, if_neg, KeyedTable.find?_upsert, if_neg hnew]
    intro hmem
    exact ne_marker_of_lastChar (lastChar_rotatedNames hmem) (by decide) rfl
  · intro name hname
    have hstays := (hasKey_upsert files
      (backupEntry (baseName (extractDbPath url)) m pages) name).mpr (.inr hname)
    rw [KeyedTable.hasKey, hfind]
    by_cases hdeleted : name ∈ rotatedNames os (baseName (extractDbPath url))
        (files.upsert (backupEntry (baseName (extractDbPath url)) m pages))
    · rw [if_pos hdeleted]
      exact iff_of_false Bool.false_ne_true (not_not_intro hdeleted)
    · rw [if_neg hdeleted]
      exact iff_of_true hstays hdeleted

theorem backupDb_keeps_bare (hbare : (dirOf (extractDbPath url)).isEmpty = true) :
    ∃ files', databaseDir url (backupDb os m pages url fs).1 = some files' ∧
      KeepsMarker (rotatedBy os m pages url fs) files files' := by
  have hslash : (extractDbPath url).toList.contains '/' = false := by
    rw [dirOf_isEmpty, Bool.not_eq_true'] at hbare
    exact hbare
  have hnone : rotatedBy os m pages url fs = [] := by
    simp only [rotatedBy, hdir, hslash, Bool.and_false, Bool.false_eq_true, if_false]
  have hnew : (backupEntry (baseName (extractDbPath url)) m pages).name ≠ restoreMarkerFile :=
    ne_marker_of_lastChar (lastChar_backupName _ _) (by decide)
  have hkeeps : KeepsMarker [] files
      (files.upsert (backupEntry (baseName (extractDbPath url)) m pages)) :=
    (KeepsMarker.refl files).upsert hnew List.not_mem_nil
  rw [hnone]
  refine ⟨_, ?_, hkeeps⟩
  rw [backupDb_of_bare os hfile hquote hvacuum hbare, databaseDir_setDirectory]

end Written

/-- **What a backup does to the directory.** -/
theorem backupDb_keeps (hfile : isFilePath (extractDbPath url) = true) (os : ReadOrder π)
    (m : WriteTime) (pages : List π) (hdir : databaseDir url fs = some files) :
    ∃ files', databaseDir url (backupDb os m pages url fs).1 = some files' ∧
      KeepsMarker (rotatedBy os m pages url fs) files files' := by
  by_cases hwritten : strContains "'" (backupPathText (extractDbPath url) m.stamp) = true ∨
      ∃ e, vacuumInto m pages (backupPathText (extractDbPath url) m.stamp) fs = .error e
  · obtain ⟨⟨e, hrun⟩, hnone⟩ : (∃ e, backupDb os m pages url fs = (fs, .error e)) ∧
        rotatedBy os m pages url fs = [] := backupDb_refused hwritten
    rw [hrun, hnone]
    exact ⟨files, hdir, KeepsMarker.refl files⟩
  · rw [not_or, Bool.not_eq_true] at hwritten
    obtain ⟨hquote, hnoerror⟩ := hwritten
    cases hvacuum : vacuumInto m pages (backupPathText (extractDbPath url) m.stamp) fs with
    | error e => exact absurd ⟨e, hvacuum⟩ hnoerror
    | ok fs₁ =>
      obtain ⟨dir, hdir₁, rfl⟩ := vacuumInto_ok hfile hvacuum
      have hsame : dir = files := Option.some.inj (hdir₁.symm.trans hdir)
      subst hsame
      cases hempty : (dirOf (extractDbPath url)).isEmpty with
      | false => exact backupDb_keeps_listed hfile hquote hvacuum hdir hempty
      | true => exact backupDb_keeps_bare hfile hquote hvacuum hdir hempty

theorem backupDb_of_none (hfile : isFilePath (extractDbPath url) = true) (os : ReadOrder π)
    (m : WriteTime) (pages : List π) (hdir : databaseDir url fs = none) :
    ∃ e, backupDb os m pages url fs = (fs, .error e) := by
  apply (backupDb_refused ?_).1
  apply Or.inr
  cases hvacuum : vacuumInto m pages (backupPathText (extractDbPath url) m.stamp) fs with
  | error e => exact ⟨e, rfl⟩
  | ok fs₁ =>
    obtain ⟨files, hfiles, -⟩ := vacuumInto_ok hfile hvacuum
    rw [databaseDir, hfiles] at hdir
    cases hdir

theorem backupDb_none (hfile : isFilePath (extractDbPath url) = true) (os : ReadOrder π)
    (m : WriteTime) (pages : List π) (hdir : databaseDir url fs = none) :
    (backupDb os m pages url fs).1 = fs := by
  obtain ⟨e, hrun⟩ := backupDb_of_none hfile os m pages hdir
  rw [hrun]

/-! ### What a step must respect -/

/-- The files an action deletes. -/
def deletedBy (url : String) (fs : FileSystem π) : BackupAction π → List String
  | .scheduledBackup os m pages => rotatedBy os m pages url fs
  | .createBackup _ os m pages db claims =>
      if Outcome.succeeded (requireAdminRole db claims .operator) then rotatedBy os m pages url fs
      else []
  | .createFullBackup _ os m _ _ pages db claims =>
      if Outcome.succeeded (requireAdminRole db claims .operator) then rotatedBy os m pages url fs
      else []
  | .restoreBackup .. => []
  | .deleteRestorePending _ => []

/-- An accepted restore names a database backup that is there under its trimmed name. -/
def NamesDatabaseBackup (url : String) (fs : FileSystem π) : BackupAction π → Prop
  | .restoreBackup _ _ db claims backupName payload =>
      Outcome.succeeded (restoreBackupChecks db claims url backupName payload fs) = true →
        endsWith ".backup" backupName = true ∧
          fs.exists_ ((restoreDir url FsPath.currentDir).child (trim backupName)) = true
  | .scheduledBackup .. => True
  | .createBackup .. => True
  | .createFullBackup .. => True
  | .deleteRestorePending _ => True

/-- That, and no backup rotates the file away that a marker names. -/
def KeepsStart (url : String) (fs : FileSystem π) (action : BackupAction π) : Prop :=
  NamesDatabaseBackup url fs action ∧
    ∀ backupName, restorePending fs (restoreDir url FsPath.currentDir) backupName →
      backupName ∉ deletedBy url fs action

theorem exists_restoreDir (hdir : databaseDir url fs = some files) (name : String) :
    fs.exists_ ((restoreDir url FsPath.currentDir).child name) = files.hasKey name := by
  have hdir' : fs (restoreDir url FsPath.currentDir).location = some files := by
    rw [restoreDir_location]
    exact hdir
  rw [FileSystem.exists_child hdir', KeyedTable.hasKey]

theorem file_restoreDir (hdir : databaseDir url fs = some files) (name : String) :
    fs.file ((restoreDir url FsPath.currentDir).child name) = files.find? name := by
  have hdir' : fs (restoreDir url FsPath.currentDir).location = some files := by
    rw [restoreDir_location]
    exact hdir
  rw [FileSystem.file_child, hdir', Option.bind_some]

/-- Where the marker stays, the start is kept exactly when the marked backup is. -/
theorem markerHonoured_iff {deleted : List String} (hdir : databaseDir url fs = some files)
    (hkeeps : KeepsMarker deleted files files') (hgood : MarkerHonoured files) :
    MarkerHonoured files' ↔
      ∀ backupName, restorePending fs (restoreDir url FsPath.currentDir) backupName →
        backupName ∉ deleted := by
  constructor
  · rintro hafter name ⟨marker, value, hread, hvalue, rfl, hvalid, hthere⟩
    rw [file_restoreDir hdir, ← hkeeps.marker] at hread
    rw [exists_restoreDir hdir] at hthere
    obtain ⟨value', hvalue', -, hkept⟩ := hafter marker hread
    rw [hvalue] at hvalue'
    cases hvalue'
    exact (hkeeps.kept _ hthere).mp hkept
  · intro hnot marker hmarker
    rw [hkeeps.marker] at hmarker
    obtain ⟨value, hvalue, hvalid, hthere⟩ := hgood marker hmarker
    refine ⟨value, hvalue, hvalid, (hkeeps.kept _ hthere).mpr (hnot _ ?_)⟩
    exact ⟨marker, value, by rw [file_restoreDir hdir, hmarker], hvalue, rfl, hvalid,
      by rw [exists_restoreDir hdir, hthere]⟩

theorem starts_of_files (hfile : isFilePath (extractDbPath url) = true)
    (hdir : databaseDir url fs = some files) : Starts url fs ↔ MarkerHonoured files := by
  rw [starts_iff hfile]
  constructor
  · intro h
    exact h files hdir
  · intro h files' hdir'
    rw [hdir, Option.some.injEq] at hdir'
    exact hdir' ▸ h

theorem not_restorePending_of_none (hdir : databaseDir url fs = none) (name : String) :
    ¬ restorePending fs (restoreDir url FsPath.currentDir) name := by
  rintro ⟨marker, value, hread, -⟩
  have hdir' : fs (restoreDir url FsPath.currentDir).location = none := by
    rw [restoreDir_location]
    exact hdir
  rw [FileSystem.file_child, hdir'] at hread
  cases hread

/-- An action that keeps the marker keeps the start exactly when it keeps the
    marked backup. -/
theorem starts_iff_of_keeps (hfile : isFilePath (extractDbPath url) = true) {deleted : List String}
    (hnone : databaseDir url fs = none → fs' = fs)
    (hsome : ∀ files, databaseDir url fs = some files →
      ∃ files', databaseDir url fs' = some files' ∧ KeepsMarker deleted files files')
    (hgood : Starts url fs) :
    Starts url fs' ↔ ∀ backupName,
      restorePending fs (restoreDir url FsPath.currentDir) backupName → backupName ∉ deleted := by
  cases hdir : databaseDir url fs with
  | none =>
    rw [hnone hdir]
    exact iff_of_true hgood fun name h => absurd h (not_restorePending_of_none hdir name)
  | some files =>
    obtain ⟨files', hdir', hkeeps⟩ := hsome files hdir
    rw [starts_of_files hfile hdir']
    exact markerHonoured_iff hdir hkeeps ((starts_of_files hfile hdir).mp hgood)

/-! ### The steps -/

theorem databaseDir_setBackupDir (hfile : isFilePath (extractDbPath url) = true)
    (fs : FileSystem π) (files : Directory π) :
    databaseDir url (fs.setDirectory
      (backupDirForDbPath (parsePath (extractDbPath url))) files) = some files :=
  FileSystem.setDirectory_of_eq fs (backupDirForDbPath_location hfile).symm files

theorem write_backupDir (hfile : isFilePath (extractDbPath url) = true)
    (hdir : databaseDir url fs = some files) (name : String) (modified : Nat)
    (content : FileContent π) :
    fs.write ((backupDirForDbPath (parsePath (extractDbPath url))).child name) modified content =
      .ok (fs.setDirectory (backupDirForDbPath (parsePath (extractDbPath url)))
        (files.upsert ⟨name, modified, content⟩)) := by
  have hdir' : fs (backupDirForDbPath (parsePath (extractDbPath url))).location = some files := by
    rw [backupDirForDbPath_location hfile]
    exact hdir
  rw [FileSystem.write, FileSystem.change_child hdir']

theorem createBackup_files {toRfc3339 : Nat → String} {os : ReadOrder π} {m : WriteTime}
    {pages : List π} {db : Db} {claims : Claims} :
    (createBackup toRfc3339 os m pages db claims url fs).1 =
      if Outcome.succeeded (requireAdminRole db claims .operator)
        then (backupDb os m pages url fs).1
      else fs := by
  unfold createBackup
  cases requireAdminRole db claims .operator with
  | error e => rfl
  | ok _ =>
    rw [Outcome.proceed_ok, Outcome.succeeded_ok, if_pos rfl]
    generalize backupDb os m pages url fs = outcome
    obtain ⟨fs₁, result⟩ := outcome
    cases result <;> rfl

theorem lastChar_bundleName (dbFilename : String) (stamp : Stamp) :
    lastChar (bundleName dbFilename stamp) = some 'z' := by
  have hne : "." ++ stamp.text ++ ".full-backup.tar.gz" ≠ "" := by
    rw [← String.length_eq_zero_iff.ne, String.length_append, String.length_append, stamp.length]
    omega
  rw [bundleName, lastChar_append _ hne, lastChar_append _ (by decide)]
  decide

theorem createFullBackupBundle_files (hfile : isFilePath (extractDbPath url) = true)
    (hdir : databaseDir url fs = some files) (m : WriteTime) (tar : TarOutcome) :
    ∃ entry : FileEntry π, lastChar entry.name = some 'z' ∧
      databaseDir url (createFullBackupBundle m tar url fs).1 = some (files.upsert entry) := by
  refine ⟨⟨bundleName ((parsePath (extractDbPath url)).fileName.getD "peanut.db") m.stamp,
    m.modified, .archive tar.size⟩, lastChar_bundleName _ _, ?_⟩
  unfold createFullBackupBundle
  dsimp only
  rw [write_backupDir hfile hdir]
  have hfst : ∀ (fs' : FileSystem π) (a b : Except IoError FsPath),
      (if tar.success = true then (fs', a) else (fs', b)).1 = fs' := by
    intro fs' a b
    split <;> rfl
  rw [hfst, databaseDir_setBackupDir hfile]

theorem createFullBackup_files (hfile : isFilePath (extractDbPath url) = true)
    (toRfc3339 : Nat → String) (os : ReadOrder π) (m m' : WriteTime) (tar : TarOutcome)
    (pages : List π) {db : Db} {claims : Claims}
    (hrole : Outcome.succeeded (requireAdminRole db claims .operator) = true)
    (hdir : databaseDir url fs = some files) :
    ∃ files', databaseDir url
        (createFullBackup toRfc3339 os m m' tar pages db claims url fs).1 = some files' ∧
      KeepsMarker (rotatedBy os m pages url fs) files files' := by
  obtain ⟨u, hrole⟩ := Outcome.succeeded_iff.mp hrole
  obtain ⟨files₁, hdir₁, hkeeps⟩ := backupDb_keeps hfile os m pages hdir
  unfold createFullBackup
  rw [hrole, Outcome.proceed_ok]
  revert hdir₁
  generalize backupDb os m pages url fs = outcome
  obtain ⟨fs₁, result⟩ := outcome
  intro hdir₁
  cases result with
  | error e => exact ⟨files₁, hdir₁, hkeeps⟩
  | ok path =>
    obtain ⟨entry, hlast, hbundle⟩ := createFullBackupBundle_files hfile hdir₁ m' tar
    refine ⟨files₁.upsert entry, ?_, hkeeps.upsert (ne_marker_of_lastChar hlast (by decide)) ?_⟩
    · revert hbundle
      dsimp only
      generalize createFullBackupBundle m' tar url fs₁ = bundled
      obtain ⟨fs₂, written⟩ := bundled
      intro hbundle
      cases written with
      | error e => exact hbundle
      | ok path => exact hbundle
    · intro hmem
      rw [lastChar_rotatedBy hmem] at hlast
      exact absurd hlast (by decide)

theorem deleteRestorePending_files (hfile : isFilePath (extractDbPath url) = true)
    (claims : Claims) :
    (deleteRestorePending claims url fs).1 = fs ∨
      ∃ files : Directory π, databaseDir url (deleteRestorePending claims url fs).1 =
        some (files.erase restoreMarkerFile) := by
  unfold deleteRestorePending
  cases claims.isAdmin with
  | false => exact .inl rfl
  | true =>
    rw [Outcome.ensure_true, Outcome.proceed_ok]
    cases hremove : fs.removeFile (restoreMarkerPath url) with
    | error e =>
      apply Or.inl
      dsimp only
      split <;> rfl
    | ok fs₁ =>
      apply Or.inr
      rw [FileSystem.removeFile, Outcome.bind_eq_ok] at hremove
      obtain ⟨entry, hfound, hchange⟩ := hremove
      rw [Outcome.require_eq_ok, restoreMarkerPath, FileSystem.file_child,
        Option.bind_eq_some_iff] at hfound
      obtain ⟨files, hdir, -⟩ := hfound
      rw [restoreMarkerPath, FileSystem.change_child hdir] at hchange
      cases hchange
      refine ⟨files, ?_⟩
      rw [databaseDir_setBackupDir hfile]

/-! ### Which names can be restored -/

theorem endsWith_iff {ending s : String} : endsWith ending s = true ↔
    ∃ front, s = front ++ ending := by
  rw [endsWith, List.isSuffixOf_iff_suffix]
  constructor
  · rintro ⟨front, hfront⟩
    refine ⟨String.ofList front, ?_⟩
    rw [← String.toList_inj, String.toList_append, String.toList_ofList, hfront]
  · rintro ⟨front, rfl⟩
    exact ⟨front.toList, by rw [String.toList_append]⟩

theorem validateBackupName_eq_ok {name : String} (h : validateBackupName name = .ok ()) :
    strContains "/" name = false ∧ strContains "\\" name = false ∧ strContains ".." name = false ∧
      (endsWith ".backup" name = true ∨ endsWith ".full-backup.tar.gz" name = true) := by
  simp only [validateBackupName, Outcome.ensure_eq_ok, Bool.not_eq_true', Bool.or_eq_false_iff,
    Bool.and_eq_false_iff, Bool.not_eq_false'] at h
  obtain ⟨⟨⟨⟨-, hslash⟩, hback⟩, hdots⟩, hending⟩ := h
  exact ⟨hslash, hback, hdots, hending⟩

/-- Of the names `restore_backup` accepts, the start accepts those of database backups. -/
theorem isRestorableName_trim_iff {name : String} (h : validateBackupName name = .ok ()) :
    isRestorableName (trim name) = true ↔ endsWith ".backup" name = true := by
  obtain ⟨hslash, hback, hdots, hending⟩ := validateBackupName_eq_ok h
  constructor
  · intro hvalid
    rcases hending with hbackup | hbundle
    · exact hbackup
    · -- a bundle keeps its ending
      obtain ⟨front, rfl⟩ := endsWith_iff.mp hbundle
      have hlast := lastChar_backup (isRestorableName_backup hvalid)
      rw [trim_append_word _ (by decide) (by simp [isWhitespace]),
        lastChar_append _ (by decide)] at hlast
      exact absurd hlast (by decide)
  · intro hbackup
    obtain ⟨front, rfl⟩ := endsWith_iff.mp hbackup
    have htrim : trim (front ++ ".backup") = trimStart front ++ ".backup" :=
      trim_append_word _ (by decide) (by simp [isWhitespace])
    have hsuffix : (trim (front ++ ".backup")).toList <:+ (front ++ ".backup").toList := by
      rw [htrim, String.toList_append, String.toList_append, trimStart, String.toList_ofList]
      obtain ⟨blank, hblank⟩ := List.dropWhile_suffix isWhitespace (l := front.toList)
      exact ⟨blank, by rw [← List.append_assoc, hblank]⟩
    have hclean : ∀ needle, strContains needle (front ++ ".backup") = false →
        strContains needle (trim (front ++ ".backup")) = false := by
      intro needle hnone
      by_contra hsome
      rw [strContains_of_suffix hsuffix (by simpa using hsome)] at hnone
      cases hnone
    have hne : trim (front ++ ".backup") ≠ "" := by
      rw [htrim, ← String.length_eq_zero_iff.ne, String.length_append]
      have hlen : ".backup".length = 7 := by decide
      omega
    have hend : endsWith ".backup" (trim (front ++ ".backup")) = true :=
      endsWith_iff.mpr ⟨_, htrim⟩
    simp [isRestorableName, hclean _ hslash, hclean _ hback, hclean _ hdots, hne, hend]

theorem restoreBackupChecks_ok {db : Db} {claims : Claims} {backupName : String}
    {payload : RestoreBackupRequest} {dbDir : FsPath}
    (h : restoreBackupChecks db claims url backupName payload fs = .ok dbDir) :
    validateBackupName backupName = .ok () ∧
      dbDir = backupDirForDbPath (parsePath (extractDbPath url)) ∧
      fs.exists_ (dbDir.child backupName) = true := by
  simp only [restoreBackupChecks, resolveBackupPath, Outcome.bind_eq_ok, Outcome.ensure_eq_ok,
    Outcome.mapError_eq_ok, Outcome.require_eq_ok, pure, Except.pure, Except.ok.injEq] at h
  obtain ⟨-, -, -, -, path, ⟨⟨⟩, hname, rfl⟩, -, hthere, hparent⟩ := h
  rw [FsPath.parent_child, Option.some.injEq] at hparent
  exact ⟨hname, hparent.symm, hparent ▸ hthere⟩

theorem markerHonoured_upsert {backupName : String} (h : validateBackupName backupName = .ok ())
    (files : Directory π) (modified : Nat) :
    MarkerHonoured (files.upsert ⟨restoreMarkerFile, modified, .text backupName⟩) ↔
      endsWith ".backup" backupName = true ∧ files.hasKey (trim backupName) = true := by
  have hmarker : (files.upsert ⟨restoreMarkerFile, modified, .text backupName⟩).find?
      restoreMarkerFile = some ⟨restoreMarkerFile, modified, .text backupName⟩ := by
    rw [KeyedTable.find?_upsert, if_pos rfl]
  have hthere : isRestorableName (trim backupName) = true →
      ((files.upsert ⟨restoreMarkerFile, modified, .text backupName⟩).hasKey (trim backupName) =
        true ↔ files.hasKey (trim backupName) = true) := by
    intro hvalid
    rw [hasKey_upsert]
    have hne : restoreMarkerFile ≠ trim backupName := Ne.symm
      (ne_marker_of_lastChar (lastChar_backup (isRestorableName_backup hvalid)) (by decide))
    exact ⟨fun h => h.resolve_left hne, .inr⟩
  rw [← isRestorableName_trim_iff h]
  constructor
  · intro hgood
    obtain ⟨value, hvalue, hvalid, hkey⟩ := hgood _ hmarker
    cases hvalue
    exact ⟨hvalid, (hthere hvalid).mp hkey⟩
  · rintro ⟨hvalid, hkey⟩ marker hfind
    rw [hmarker] at hfind
    cases hfind
    exact ⟨backupName, rfl, hvalid, (hthere hvalid).mpr hkey⟩

/-- A scheduled restore keeps the start exactly when it names a database backup
    that is there under its trimmed name. -/
theorem restoreBackup_starts_iff (hfile : isFilePath (extractDbPath url) = true) (env : Env)
    (m : WriteTime) {db : Db} {claims : Claims} {backupName : String}
    {payload : RestoreBackupRequest} (hgood : Starts url fs) :
    Starts url (restoreBackup env m db claims url backupName payload fs).1.2 ↔
      (Outcome.succeeded (restoreBackupChecks db claims url backupName payload fs) = true →
        endsWith ".backup" backupName = true ∧
          fs.exists_ ((restoreDir url FsPath.currentDir).child (trim backupName)) = true) := by
  unfold restoreBackup
  cases hchecks : restoreBackupChecks db claims url backupName payload fs with
  | error e =>
    rw [Outcome.proceed_error]
    exact iff_of_true hgood fun h => by cases h
  | ok dbDir =>
    obtain ⟨hname, hdbDir, hthere⟩ := restoreBackupChecks_ok hchecks
    rw [hdbDir] at hthere ⊢
    cases hdir : databaseDir url fs with
    | none =>
      rw [FileSystem.exists_, FileSystem.file_child, backupDirForDbPath_location hfile] at hthere
      rw [databaseDir] at hdir
      rw [hdir] at hthere
      cases hthere
    | some files =>
      have hwrite : writeRestoreMarker m (backupDirForDbPath (parsePath (extractDbPath url)))
          backupName fs = .ok (fs.setDirectory (backupDirForDbPath (parsePath (extractDbPath url)))
            (files.upsert ⟨restoreMarkerFile, m.modified, .text backupName⟩)) := by
        rw [writeRestoreMarker, hname, Outcome.mapError_ok, Outcome.ok_bind,
          write_backupDir hfile hdir]
      rw [Outcome.proceed_ok, hwrite, Outcome.mapError_ok, Outcome.proceed_ok]
      rw [starts_of_files hfile (databaseDir_setBackupDir hfile fs _), exists_restoreDir hdir,
        Outcome.succeeded_ok, markerHonoured_upsert hname]
      exact ⟨fun h _ => h, fun h => h rfl⟩

/-- **One step** from a directory that starts. -/
theorem starts_step_iff (hfile : isFilePath (extractDbPath url) = true) (fs : FileSystem π)
    (action : BackupAction π) (hgood : Starts url fs) :
    Starts url (backupStep url fs action) ↔ KeepsStart url fs action := by
  have hidle : ∀ files, databaseDir url fs = some files →
      ∃ files', databaseDir url fs = some files' ∧ KeepsMarker [] files files' :=
    fun files hdir => ⟨files, hdir, KeepsMarker.refl files⟩
  cases action with
  | scheduledBackup os m pages =>
    rw [KeepsStart, NamesDatabaseBackup, true_and]
    exact starts_iff_of_keeps hfile (backupDb_none hfile os m pages)
      (fun files hdir => backupDb_keeps hfile os m pages hdir) hgood
  | createBackup toRfc3339 os m pages db claims =>
    rw [KeepsStart, NamesDatabaseBackup, true_and, backupStep, deletedBy, createBackup_files]
    by_cases hrole : Outcome.succeeded (requireAdminRole db claims .operator) = true
    · rw [if_pos hrole, if_pos hrole]
      exact starts_iff_of_keeps hfile (backupDb_none hfile os m pages)
        (fun files hdir => backupDb_keeps hfile os m pages hdir) hgood
    · rw [if_neg hrole, if_neg hrole]
      exact starts_iff_of_keeps hfile (fun _ => rfl) hidle hgood
  | createFullBackup toRfc3339 os m m' tar pages db claims =>
    rw [KeepsStart, NamesDatabaseBackup, true_and, backupStep, deletedBy]
    by_cases hrole : Outcome.succeeded (requireAdminRole db claims .operator) = true
    · rw [if_pos hrole]
      refine starts_iff_of_keeps hfile ?_
        (fun files hdir => createFullBackup_files hfile toRfc3339 os m m' tar pages hrole hdir)
          hgood
      intro hdir
      obtain ⟨u, hrole⟩ := Outcome.succeeded_iff.mp hrole
      obtain ⟨e, hrun⟩ := backupDb_of_none hfile os m pages hdir
      rw [createFullBackup, hrole, Outcome.proceed_ok, hrun]
    · have hrefused : (createFullBackup toRfc3339 os m m' tar pages db claims url fs).1 = fs := by
        unfold createFullBackup
        cases hchecked : requireAdminRole db claims .operator with
        | error e => rfl
        | ok u => exact absurd (by rw [hchecked, Outcome.succeeded_ok]) hrole
      rw [if_neg hrole, hrefused]
      exact starts_iff_of_keeps hfile (fun _ => rfl) hidle hgood
  | restoreBackup env m db claims backupName payload =>
    have hnothing : ∀ name, restorePending fs (restoreDir url FsPath.currentDir) name →
        name ∉ deletedBy url fs (.restoreBackup env m db claims backupName payload) :=
      fun _ _ => List.not_mem_nil
    rw [KeepsStart, backupStep, restoreBackup_starts_iff hfile env m hgood]
    exact ⟨fun h => ⟨h, hnothing⟩, fun h => h.1⟩
  | deleteRestorePending claims =>
    have hnothing : ∀ name, restorePending fs (restoreDir url FsPath.currentDir) name →
        name ∉ deletedBy url fs (.deleteRestorePending claims) :=
      fun _ _ => List.not_mem_nil
    refine iff_of_true ?_ ⟨trivial, hnothing⟩
    rw [backupStep]
    rcases deleteRestorePending_files hfile claims with hsame | ⟨files, hdir⟩
    · rw [hsame]
      exact hgood
    · rw [starts_of_files hfile hdir]
      intro marker hmarker
      rw [KeyedTable.find?_erase, if_pos rfl] at hmarker
      cases hmarker

/-- **Exactly which runs leave a server that starts.** -/
theorem scheduled_restore_applies_iff (hfile : isFilePath (extractDbPath url) = true)
    (hstart : Starts url fs) (actions : List (BackupAction π)) :
    (∀ pre post, actions = pre ++ post → Starts url (Transition.run (backupStep url) fs pre)) ↔
      ∀ pre action post, actions = pre ++ action :: post →
        KeepsStart url (Transition.run (backupStep url) fs pre) action :=
  Transition.good_iff_admissible (starts_step_iff hfile) hstart actions

/-! ### A backup and a bundle -/

def operatorOwner : User :=
  { id := "olga", appId := "default", email := "olga@example.com", passwordHash := ""
    isActive := true, isAdmin := true, adminRole := .owner, createdAt := "2026-01-01 00:00:00" }

def operatorOwnerDb : Db := { users := ⟨[operatorOwner], by decide⟩ }

def operatorOwnerClaims : Claims := { sub := "olga", appId := "default", exp := 0, isAdmin := true }

/-- What a full backup leaves: the database backup and the bundle. -/
def fullBackupFiles : Directory Nat :=
  ⟨[⟨"peanut.db", 1, .database [1]⟩, ⟨"peanut.db.20260428_010203.backup", 1, .database [2]⟩,
    ⟨"peanut.db.20260428_010204.full-backup.tar.gz", 2, .archive 512⟩], by decide +kernel⟩

/-- Olga schedules the restore of a file. -/
def scheduleRestore (name : String) : BackupAction Nat :=
  .restoreBackup (sampleEnv "r") sampleTime operatorOwnerDb operatorOwnerClaims name
    { confirmation := name }

theorem databaseDir_workingDirectory (files : Directory π) :
    databaseDir "sqlite://peanut.db" (workingDirectory files) = some files := by
  rw [databaseDir, FsPath.location_of_isEmpty (by decide +kernel), workingDirectory, if_pos rfl]

theorem fullBackupFiles_starts :
    Starts "sqlite://peanut.db" (workingDirectory fullBackupFiles) := by
  rw [starts_of_files (by decide +kernel) (databaseDir_workingDirectory fullBackupFiles)]
  intro marker hmarker
  have hnone : fullBackupFiles.find? restoreMarkerFile = none := by decide +kernel
  rw [hnone] at hmarker
  cases hmarker

theorem database_backup_restore_applies :
    Starts "sqlite://peanut.db" (workingDirectory fullBackupFiles) ∧
      ∀ pre post, [scheduleRestore "peanut.db.20260428_010203.backup"] = pre ++ post →
        Starts "sqlite://peanut.db" (Transition.run (backupStep "sqlite://peanut.db")
          (workingDirectory fullBackupFiles) pre) := by
  refine ⟨fullBackupFiles_starts,
    (scheduled_restore_applies_iff (by decide +kernel) fullBackupFiles_starts _).mpr ?_⟩
  intro pre action post hsplit
  obtain ⟨rfl, hrest⟩ : pre = [] ∧ [scheduleRestore "peanut.db.20260428_010203.backup"] =
      action :: post := by
    cases pre with
    | nil => exact ⟨rfl, hsplit⟩
    | cons first rest =>
      have hlen := congrArg List.length hsplit
      simp at hlen
  cases hrest
  refine ⟨fun _ => ⟨by decide +kernel, ?_⟩, fun _ _ => List.not_mem_nil⟩
  rw [Transition.run, exists_restoreDir (databaseDir_workingDirectory fullBackupFiles)]
  decide +kernel

/-- The restore of a bundle is accepted, and the server does not start again. -/
theorem bundle_restore_blocks_start :
    Outcome.succeeded (restoreBackup (sampleEnv "r") sampleTime operatorOwnerDb operatorOwnerClaims
        "sqlite://peanut.db" "peanut.db.20260428_010204.full-backup.tar.gz"
        { confirmation := "peanut.db.20260428_010204.full-backup.tar.gz" }
        (workingDirectory fullBackupFiles)).2 = true ∧
      Starts "sqlite://peanut.db" (workingDirectory fullBackupFiles) ∧
      ¬ Starts "sqlite://peanut.db" (Transition.run (backupStep "sqlite://peanut.db")
        (workingDirectory fullBackupFiles)
        [scheduleRestore "peanut.db.20260428_010204.full-backup.tar.gz"]) := by
  refine ⟨by decide +kernel, fullBackupFiles_starts, ?_⟩
  rw [Transition.run, Transition.run, starts_step_iff (by decide +kernel) _ _
    fullBackupFiles_starts]
  rintro ⟨hnames, -⟩
  have hending := (hnames (by decide +kernel)).1
  exact absurd hending (by decide +kernel)

end Peanut
