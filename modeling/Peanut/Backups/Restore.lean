import Peanut.Backups.Rotation

/-!
# Applying a scheduled restore

`apply_pending_restore`, which `main` calls before it opens the database.  What
is read from a database is its main file together with the committed frames of
the `-wal` file next to it; a restore copies main files only.
-/

namespace Peanut

open Relational WriteAheadLog

variable {π : Type}

def restoreMarkerFile : String := ".peanut_restore"

structure AppliedRestore where
  backupPath : FsPath
  preRestorePath : Option FsPath
  markerRemoved : Bool
deriving DecidableEq, Repr

/-- The file operations of a restore that fail, if any, and what a failed copy
    has written by then. -/
structure RestoreFaults (π : Type) where
  preserve : Option (IoError × FileContent π) := none
  restore : Option (IoError × FileContent π) := none
  removeMarker : Option IoError := none

/-- `fs::copy` under a possible fault. -/
def copyFile (fault : Option (IoError × FileContent π)) (source target : FsPath) (modified : Nat)
    (fs : FileSystem π) : FileSystem π × Except BackupError Unit :=
  match fault with
  | some (e, written) =>
      match fs.write target modified written with
      | .ok fs => (fs, .error (.io e))
      | .error _ => (fs, .error (.io e))
  | none =>
      match fs.copy source target modified with
      | .ok fs => (fs, .ok ())
      | .error e => (fs, .error (.io e))

/-- The name check of `apply_pending_restore`. -/
def isRestorableName (backupName : String) : Bool :=
  backupName != "" && !strContains "/" backupName && !strContains "\\" backupName &&
    !strContains ".." backupName && endsWith ".backup" backupName

def resolveDbPath (databaseUrl : String) (baseDir : FsPath) : FsPath :=
  let path := parsePath (extractDbPath databaseUrl)
  if path.root then path else baseDir.join path

def preservedName (dbFilename : String) (stamp : Stamp) : String :=
  dbFilename ++ (".pre-restore." ++ stamp.text)

/-- The copy of the database that a restore leaves behind. -/
def preserveDatabase (faults : RestoreFaults π) (m : WriteTime) (dbDir dbPath : FsPath)
    (fs : FileSystem π) : FileSystem π × Except BackupError (Option FsPath) :=
  if fs.exists_ dbPath then
    Outcome.proceed fs (Outcome.require dbPath.fileName (.message "invalid database path"))
      fun dbFilename =>
    let preservedPath := dbDir.child (preservedName dbFilename m.stamp)
    match copyFile faults.preserve dbPath preservedPath m.modified fs with
    | (fs, .ok ()) => (fs, .ok (some preservedPath))
    | (fs, .error e) => (fs, .error e)
  else (fs, .ok none)

/-- `fs::remove_file(..).await.is_ok()`. -/
def removeMarker (fault : Option IoError) (markerPath : FsPath) (fs : FileSystem π) :
    FileSystem π × Bool :=
  match fault with
  | some _ => (fs, false)
  | none =>
      match fs.removeFile markerPath with
      | .ok fs => (fs, true)
      | .error _ => (fs, false)

/-- The copies of a restore, once its marker is checked. -/
def copyBackup (faults : RestoreFaults π) (m : WriteTime) (dbDir dbPath : FsPath)
    (backupName : String) (fs : FileSystem π) :
    FileSystem π × Except BackupError (Option AppliedRestore) :=
  let backupPath := dbDir.child backupName
  match preserveDatabase faults m dbDir dbPath fs with
  | (fs, .error e) => (fs, .error e)
  | (fs, .ok preRestorePath) =>
      match copyFile faults.restore backupPath dbPath m.modified fs with
      | (fs, .error e) => (fs, .error e)
      | (fs, .ok ()) =>
          let removal := removeMarker faults.removeMarker (dbDir.child restoreMarkerFile) fs
          (removal.1, .ok (some { backupPath := backupPath, preRestorePath := preRestorePath,
                                  markerRemoved := removal.2 }))

/-- `read_to_string` of the marker. -/
def markerText (content : FileContent π) : Except BackupError String :=
  match content with
  | .text value => .ok value
  | _ => .error (.io { kind := .invalidData, message := "stream did not contain valid UTF-8" })

def applyPendingRestore (faults : RestoreFaults π) (m : WriteTime) (databaseUrl : String)
    (baseDir : FsPath) (fs : FileSystem π) :
    FileSystem π × Except BackupError (Option AppliedRestore) :=
  let dbPath := resolveDbPath databaseUrl baseDir
  let dbDir := dbPath.parent.getD baseDir
  match fs.file (dbDir.child restoreMarkerFile) with
  | none => (fs, .ok none)
  | some marker =>
      Outcome.proceed fs (markerText marker.content) fun value =>
      if !isRestorableName (trim value) then
        (fs, .error (.message "invalid restore marker backup name"))
      else if !fs.exists_ (dbDir.child (trim value)) then
        (fs, .error (.message "restore backup file not found"))
      else copyBackup faults m dbDir dbPath (trim value) fs

/-! ### What is read from a database -/

/-- The path of a file with more text after its name. -/
def FsPath.withSuffix (p : FsPath) (suffix : String) : FsPath :=
  match p.parent, p.fileName with
  | some dir, some name => dir.child (name ++ suffix)
  | _, _ => p

def FileContent.pages? : FileContent π → Option (List π)
  | .database pages => some pages
  | _ => none

def FileContent.commits : FileContent π → List (Commit π)
  | .log commits => commits
  | _ => []

def FileSystem.pagesOf (fs : FileSystem π) (p : FsPath) : Option (List π) :=
  (fs.file p).bind fun entry => entry.content.pages?

/-- The committed frames next to a database file. -/
def FileSystem.logOf (fs : FileSystem π) (p : FsPath) : List (Commit π) :=
  ((fs.file (p.withSuffix "-wal")).map fun entry => entry.content.commits).getD []

/-- What opening a database file shows. -/
def FileSystem.opened (fs : FileSystem π) (p : FsPath) : Option (List π) :=
  (fs.pagesOf p).map fun pages => contents pages (fs.logOf p)

/-! ### Where a restore works -/

theorem FsPath.withSuffix_child (p : FsPath) (name suffix : String) :
    (p.child name).withSuffix suffix = p.child (name ++ suffix) := by
  simp only [FsPath.withSuffix, FsPath.parent_child, FsPath.fileName_child]

theorem FsPath.join_child (base p : FsPath) (name : String) :
    base.join (p.child name) = (base.join p).child name := by
  by_cases hroot : p.root = true
  · simp [FsPath.join, FsPath.child, hroot]
  · by_cases hempty : base.isEmpty = true
    · simp [FsPath.join, FsPath.child, hroot, hempty]
    · simp [FsPath.join, FsPath.child, hroot, hempty, List.filter_append]

theorem FsPath.location_currentDir_join (p : FsPath) :
    (FsPath.currentDir.join p).location = p.location := by
  obtain ⟨root, components⟩ := p
  cases root with
  | true => rfl
  | false => simp [FsPath.join, FsPath.currentDir, FsPath.isEmpty, FsPath.location]

/-- The directory in which a restore looks for the marker and the backup. -/
def restoreDir (databaseUrl : String) (baseDir : FsPath) : FsPath :=
  baseDir.join (dirOf (extractDbPath databaseUrl))

variable {url : String} {base : FsPath}

theorem resolveDbPath_file (h : isFilePath (extractDbPath url) = true) (base : FsPath) :
    resolveDbPath url base = (restoreDir url base).child (baseName (extractDbPath url)) := by
  have hjoin : base.join (parsePath (extractDbPath url)) =
      (restoreDir url base).child (baseName (extractDbPath url)) := by
    rw [parsePath_file h, FsPath.join_child, restoreDir]
  rw [resolveDbPath, ← hjoin]
  split
  · rename_i hroot
    rw [FsPath.join, if_pos hroot]
  · rfl

theorem FsPath.location_child (p : FsPath) (name : String) :
    (p.child name).location = p.location.child name := by
  simp [FsPath.location, FsPath.child, List.filter_append]

theorem FsPath.child_inj {p : FsPath} {name name' : String} :
    p.child name = p.child name' ↔ name = name' := by
  simp [FsPath.child]

/-! ### The names a restore uses -/

def lastChar (s : String) : Option Char := s.toList.getLast?

theorem lastChar_append (s : String) {t : String} (ht : t ≠ "") :
    lastChar (s ++ t) = lastChar t := by
  have hne : t.toList ≠ [] := by simpa using ht
  rw [lastChar, lastChar, String.toList_append, List.getLast?_append_of_ne_nil _ hne]

theorem Stamp.text_ne_empty (stamp : Stamp) : stamp.text ≠ "" := by
  intro h
  have hlen := stamp.length
  rw [h] at hlen
  exact absurd hlen (by decide)

theorem Stamp.lastChar_ne (stamp : Stamp) {c : Char} (hc : isStampChar c = false) :
    lastChar stamp.text ≠ some c := by
  intro h
  have hchar := stamp.chars c (List.mem_of_getLast? h)
  rw [hc] at hchar
  cases hchar

theorem append_ne_self (s : String) {t : String} (ht : t ≠ "") : s ++ t ≠ s := by
  intro h
  have hlen := congrArg String.length h
  have hpos : t.length ≠ 0 := by simpa using ht
  rw [String.length_append] at hlen
  omega

theorem lastChar_preservedName (dbFilename : String) (stamp : Stamp) :
    lastChar (preservedName dbFilename stamp) = lastChar stamp.text := by
  have hne : ".pre-restore." ++ stamp.text ≠ "" := by
    rw [← String.length_eq_zero_iff.ne, String.length_append, stamp.length]
    omega
  rw [preservedName, lastChar_append _ hne, lastChar_append _ stamp.text_ne_empty]

theorem lastChar_of_endsWith {ending s : String} (hne : ending ≠ "")
    (h : endsWith ending s = true) : lastChar s = lastChar ending := by
  rw [endsWith, List.isSuffixOf_iff_suffix] at h
  obtain ⟨front, hfront⟩ := h
  have hlist : ending.toList ≠ [] := by simpa using hne
  rw [lastChar, lastChar, ← hfront, List.getLast?_append_of_ne_nil _ hlist]

section Names

variable (dbFilename : String) (stamp : Stamp)

theorem preservedName_ne_self : preservedName dbFilename stamp ≠ dbFilename := by
  apply append_ne_self
  rw [← String.length_eq_zero_iff.ne, String.length_append, stamp.length]
  omega

theorem preservedName_ne {name : String} {c : Char} (hlast : lastChar name = some c)
    (hc : isStampChar c = false) : preservedName dbFilename stamp ≠ name := by
  intro h
  apply stamp.lastChar_ne hc
  rw [← lastChar_preservedName dbFilename stamp, h, hlast]

theorem lastChar_wal (name : String) : lastChar (name ++ "-wal") = some 'l' := by
  rw [lastChar_append _ (by decide)]
  decide

theorem wal_ne {name : String} {c : Char} (hlast : lastChar name = some c) (hc : c ≠ 'l') :
    dbFilename ++ "-wal" ≠ name := by
  intro h
  rw [← h, lastChar_wal, Option.some.injEq] at hlast
  exact hc hlast.symm

theorem lastChar_marker : lastChar restoreMarkerFile = some 'e' := by decide

theorem lastChar_backup {name : String} (h : endsWith ".backup" name = true) :
    lastChar name = some 'p' := by
  rw [lastChar_of_endsWith (by decide) h]
  decide

end Names

theorem isRestorableName_backup {name : String} (h : isRestorableName name = true) :
    endsWith ".backup" name = true := by
  simp only [isRestorableName, Bool.and_eq_true] at h
  exact h.2

/-! ### The steps of a restore in the database directory -/

section Steps

variable {dir : FsPath} {fs : FileSystem π} {files : Directory π}

theorem FileSystem.exists_child (hdir : fs dir.location = some files) (name : String) :
    fs.exists_ (dir.child name) = (files.find? name).isSome := by
  rw [FileSystem.exists_, FileSystem.file_child, hdir, Option.bind_some]

theorem copyFile_child (hdir : fs dir.location = some files) {source : String}
    {entry : FileEntry π} (hsource : files.find? source = some entry) (target : String)
    (modified : Nat) :
    copyFile none (dir.child source) (dir.child target) modified fs =
      (fs.setDirectory dir (files.upsert ⟨target, modified,
        if source = target then entry.content.emptied else entry.content⟩), .ok ()) := by
  have hsame : (dir.child source).location = (dir.child target).location ↔ source = target := by
    rw [FsPath.location_child, FsPath.location_child, FsPath.child_inj]
  simp only [copyFile, FileSystem.copy, FileSystem.file_child, hdir, Option.bind_some, hsource,
    Outcome.require_some, Outcome.ok_bind, FileSystem.write, FileSystem.change_child hdir, hsame]

theorem copyFile_fault (hdir : fs dir.location = some files) (e : IoError)
    (written : FileContent π) (source : FsPath) (target : String) (modified : Nat) :
    copyFile (some (e, written)) source (dir.child target) modified fs =
      (fs.setDirectory dir (files.upsert ⟨target, modified, written⟩), .error (.io e)) := by
  simp only [copyFile, FileSystem.write, FileSystem.change_child hdir]

theorem preserveDatabase_absent (hdir : fs dir.location = some files) {dbFilename : String}
    (habsent : files.find? dbFilename = none) (faults : RestoreFaults π) (m : WriteTime) :
    preserveDatabase faults m dir (dir.child dbFilename) fs = (fs, .ok none) := by
  simp [preserveDatabase, FileSystem.exists_child hdir, habsent]

theorem preserveDatabase_copied (hdir : fs dir.location = some files) {dbFilename : String}
    {entry : FileEntry π} (hdb : files.find? dbFilename = some entry) {faults : RestoreFaults π}
    (hfault : faults.preserve = none) (m : WriteTime) :
    preserveDatabase faults m dir (dir.child dbFilename) fs =
      (fs.setDirectory dir (files.upsert
          ⟨preservedName dbFilename m.stamp, m.modified, entry.content⟩),
        .ok (some (dir.child (preservedName dbFilename m.stamp)))) := by
  simp only [preserveDatabase, FileSystem.exists_child hdir, hdb, Option.isSome_some, if_true,
    FsPath.fileName_child, Outcome.require_some, Outcome.proceed_ok, hfault,
    copyFile_child hdir hdb, (preservedName_ne_self dbFilename m.stamp).symm, if_false]

theorem preserveDatabase_fault (hdir : fs dir.location = some files) {dbFilename : String}
    {entry : FileEntry π} (hdb : files.find? dbFilename = some entry) {faults : RestoreFaults π}
    {e : IoError} {written : FileContent π} (hfault : faults.preserve = some (e, written))
    (m : WriteTime) :
    preserveDatabase faults m dir (dir.child dbFilename) fs =
      (fs.setDirectory dir (files.upsert
          ⟨preservedName dbFilename m.stamp, m.modified, written⟩), .error (.io e)) := by
  simp only [preserveDatabase, FileSystem.exists_child hdir, hdb, Option.isSome_some, if_true,
    FsPath.fileName_child, Outcome.require_some, Outcome.proceed_ok, hfault, copyFile_fault hdir]

theorem removeMarker_spec (hdir : fs dir.location = some files) (fault : Option IoError)
    (marker : String) :
    ∃ fs' files' removed, removeMarker fault (dir.child marker) fs = (fs', removed) ∧
      fs' dir.location = some files' ∧ ∀ name, name ≠ marker →
        files'.find? name = files.find? name := by
  cases fault with
  | some e => exact ⟨fs, files, false, rfl, hdir, fun _ _ => rfl⟩
  | none =>
    cases hfile : files.find? marker with
    | none =>
      refine ⟨fs, files, false, ?_, hdir, fun _ _ => rfl⟩
      simp only [removeMarker, FileSystem.removeFile, FileSystem.file_child, hdir, Option.bind_some,
        hfile, Outcome.require_none, Outcome.error_bind]
    | some entry =>
      refine ⟨fs.setDirectory dir (files.erase marker), files.erase marker, true, ?_,
        FileSystem.setDirectory_self _ _ _, ?_⟩
      · simp only [removeMarker, FileSystem.removeFile, FileSystem.file_child, hdir,
          Option.bind_some, hfile, Outcome.require_some, Outcome.ok_bind,
          FileSystem.change_child hdir]
      · intro name hname
        rw [KeyedTable.find?_erase, if_neg (Ne.symm hname)]

theorem FileSystem.pagesOf_child (hdir : fs dir.location = some files) (name : String) :
    fs.pagesOf (dir.child name) = (files.find? name).bind fun entry => entry.content.pages? := by
  rw [FileSystem.pagesOf, FileSystem.file_child, hdir, Option.bind_some]

theorem FileSystem.logOf_child (hdir : fs dir.location = some files) (name : String) :
    fs.logOf (dir.child name) =
      ((files.find? (name ++ "-wal")).map fun entry => entry.content.commits).getD [] := by
  rw [FileSystem.logOf, FsPath.withSuffix_child, FileSystem.file_child, hdir, Option.bind_some]

theorem FileSystem.opened_congr {fs' : FileSystem π} {files' : Directory π}
    (hdir : fs dir.location = some files) (hdir' : fs' dir.location = some files') {name : String}
    (hmain : files'.find? name = files.find? name)
    (hlog : files'.find? (name ++ "-wal") = files.find? (name ++ "-wal")) :
    fs'.opened (dir.child name) = fs.opened (dir.child name) := by
  rw [FileSystem.opened, FileSystem.opened, FileSystem.pagesOf_child hdir,
    FileSystem.pagesOf_child hdir', FileSystem.logOf_child hdir, FileSystem.logOf_child hdir',
    hmain, hlog]

end Steps

theorem FileContent.pages?_emptied (content : FileContent π) :
    content.emptied.pages? = content.pages?.map fun _ => [] := by
  cases content <;> rfl

/-! ### The outcomes of a restore -/

section Outcomes

variable {faults : RestoreFaults π} {m : WriteTime} {fs : FileSystem π} {files : Directory π}
  {value : String}

/-- What the directory holds after a restore that went through. -/
structure RestoredFiles (dbFilename backupName : String) (m : WriteTime) (backup : FileEntry π)
    (files files' : Directory π) : Prop where
  main : dbFilename ≠ restoreMarkerFile → (files'.find? dbFilename).map FileEntry.content =
    some (if backupName = dbFilename then backup.content.emptied else backup.content)
  preserved : ∀ entry, files.find? dbFilename = some entry →
    (files'.find? (preservedName dbFilename m.stamp)).map FileEntry.content = some entry.content
  others : ∀ name, name ≠ dbFilename → name ≠ preservedName dbFilename m.stamp →
    name ≠ restoreMarkerFile → files'.find? name = files.find? name

theorem applyPendingRestore_file (hfile : isFilePath (extractDbPath url) = true) :
    applyPendingRestore faults m url base fs =
      match fs.file ((restoreDir url base).child restoreMarkerFile) with
      | none => (fs, .ok none)
      | some marker =>
          Outcome.proceed fs (markerText marker.content) fun value =>
          if !isRestorableName (trim value) then
            (fs, .error (.message "invalid restore marker backup name"))
          else if !fs.exists_ ((restoreDir url base).child (trim value)) then
            (fs, .error (.message "restore backup file not found"))
          else copyBackup faults m (restoreDir url base)
            ((restoreDir url base).child (baseName (extractDbPath url))) (trim value) fs := by
  unfold applyPendingRestore
  rw [resolveDbPath_file hfile base]
  dsimp only
  rw [FsPath.parent_child, Option.getD_some]

theorem applyPendingRestore_unmarked (hfile : isFilePath (extractDbPath url) = true)
    (hmarker : fs.file ((restoreDir url base).child restoreMarkerFile) = none) :
    applyPendingRestore faults m url base fs = (fs, .ok none) := by
  rw [applyPendingRestore_file hfile, hmarker]

theorem applyPendingRestore_refused (hfile : isFilePath (extractDbPath url) = true)
    (hdir : fs (restoreDir url base).location = some files) {marker : FileEntry π}
    (hmarker : files.find? restoreMarkerFile = some marker)
    (hrefused : ∀ value, marker.content = .text value → isRestorableName (trim value) = true →
      files.find? (trim value) = none) :
    ∃ e, applyPendingRestore faults m url base fs = (fs, .error e) := by
  have hread : fs.file ((restoreDir url base).child restoreMarkerFile) = some marker := by
    rw [FileSystem.file_child, hdir, Option.bind_some, hmarker]
  rw [applyPendingRestore_file hfile, hread]
  cases hkind : marker.content with
  | text value =>
    by_cases hname : isRestorableName (trim value) = true
    · have hmissing := hrefused value hkind hname
      refine ⟨.message "restore backup file not found", ?_⟩
      simp only [hkind, markerText, Outcome.proceed_ok, hname, FileSystem.exists_child hdir,
        hmissing, Option.isSome_none, Bool.not_true, Bool.false_eq_true, if_false, Bool.not_false,
        if_true]
    · refine ⟨.message "invalid restore marker backup name", ?_⟩
      simp only [hkind, markerText, Outcome.proceed_ok, hname, Bool.not_false, if_true]
  | database pages => simp [hkind, markerText]
  | log commits => simp [hkind, markerText]
  | archive size => simp [hkind, markerText]

theorem applyPendingRestore_pending (hfile : isFilePath (extractDbPath url) = true)
    (hdir : fs (restoreDir url base).location = some files) {marker backup : FileEntry π}
    (hmarker : files.find? restoreMarkerFile = some marker) (hvalue : marker.content = .text value)
    (hname : isRestorableName (trim value) = true)
    (hbackup : files.find? (trim value) = some backup) :
    applyPendingRestore faults m url base fs =
      copyBackup faults m (restoreDir url base)
        ((restoreDir url base).child (baseName (extractDbPath url))) (trim value) fs := by
  have hread : fs.file ((restoreDir url base).child restoreMarkerFile) = some marker := by
    rw [FileSystem.file_child, hdir, Option.bind_some, hmarker]
  rw [applyPendingRestore_file hfile, hread]
  simp only [hvalue, markerText, Outcome.proceed_ok, hname, FileSystem.exists_child hdir, hbackup,
    Option.isSome_some, Bool.not_true, Bool.false_eq_true, if_false]

variable {dir : FsPath} {dbFilename backupName : String} {backup : FileEntry π}

theorem copyBackup_restored (hdir : fs dir.location = some files)
    (hbackup : files.find? backupName = some backup) (hname : endsWith ".backup" backupName = true)
    (hpreserve : faults.preserve = none ∨ files.find? dbFilename = none)
    (hrestore : faults.restore = none) :
    ∃ fs' files' removed, copyBackup faults m dir (dir.child dbFilename) backupName fs =
        (fs', .ok (some
          { backupPath := dir.child backupName
            preRestorePath := (files.find? dbFilename).map fun _ =>
              dir.child (preservedName dbFilename m.stamp)
            markerRemoved := removed })) ∧
      fs' dir.location = some files' ∧
      RestoredFiles dbFilename backupName m backup files files' := by
  have hfresh : preservedName dbFilename m.stamp ≠ backupName :=
    preservedName_ne dbFilename m.stamp (lastChar_backup hname) (by decide)
  have hself : preservedName dbFilename m.stamp ≠ dbFilename :=
    preservedName_ne_self dbFilename m.stamp
  have hmark : preservedName dbFilename m.stamp ≠ restoreMarkerFile :=
    preservedName_ne dbFilename m.stamp lastChar_marker (by decide)
  cases hdb : files.find? dbFilename with
  | none =>
    obtain ⟨fs', files', removed, hremoved, hdir', hkept⟩ := removeMarker_spec
      (FileSystem.setDirectory_self fs dir (files.upsert ⟨dbFilename, m.modified,
        if backupName = dbFilename then backup.content.emptied else backup.content⟩))
      faults.removeMarker restoreMarkerFile
    refine ⟨fs', files', removed, ?_, hdir', ?_, ?_, ?_⟩
    · simp only [copyBackup, preserveDatabase_absent hdir hdb, hrestore,
        copyFile_child hdir hbackup, hremoved, Option.map_none]
    · intro hne
      rw [hkept _ hne, KeyedTable.find?_upsert, if_pos rfl, Option.map_some]
    · intro entry hentry
      rw [hdb] at hentry
      cases hentry
    · intro name hmain _ hmarker
      rw [hkept _ hmarker, KeyedTable.find?_upsert, if_neg (Ne.symm hmain)]
  | some entry =>
    have hnofault : faults.preserve = none := by
      rcases hpreserve with hnone | habsent
      · exact hnone
      · rw [hdb] at habsent
        cases habsent
    have hdir₁ := FileSystem.setDirectory_self fs dir
      (files.upsert ⟨preservedName dbFilename m.stamp, m.modified, entry.content⟩)
    have hbackup₁ : (files.upsert ⟨preservedName dbFilename m.stamp, m.modified,
        entry.content⟩).find? backupName = some backup := by
      rw [KeyedTable.find?_upsert, if_neg hfresh, hbackup]
    obtain ⟨fs', files', removed, hremoved, hdir', hkept⟩ := removeMarker_spec
      (FileSystem.setDirectory_self
        (fs.setDirectory dir (files.upsert ⟨preservedName dbFilename m.stamp, m.modified,
          entry.content⟩)) dir
        ((files.upsert ⟨preservedName dbFilename m.stamp, m.modified, entry.content⟩).upsert
          ⟨dbFilename, m.modified,
            if backupName = dbFilename then backup.content.emptied else backup.content⟩))
      faults.removeMarker restoreMarkerFile
    refine ⟨fs', files', removed, ?_, hdir', ?_, ?_, ?_⟩
    · simp only [copyBackup, preserveDatabase_copied hdir hdb hnofault, hrestore,
        copyFile_child hdir₁ hbackup₁, hremoved, Option.map_some]
    · intro hne
      rw [hkept _ hne, KeyedTable.find?_upsert, if_pos rfl, Option.map_some]
    · intro entry' hentry
      rw [hdb] at hentry
      cases hentry
      rw [hkept _ hmark, KeyedTable.find?_upsert, if_neg (Ne.symm hself), KeyedTable.find?_upsert,
        if_pos rfl, Option.map_some]
    · intro name hmain hpreserved hmarker
      rw [hkept _ hmarker, KeyedTable.find?_upsert, if_neg (Ne.symm hmain), KeyedTable.find?_upsert,
        if_neg (Ne.symm hpreserved)]

theorem copyBackup_preserve_fault (hdir : fs dir.location = some files) {entry : FileEntry π}
    (hdb : files.find? dbFilename = some entry) {e : IoError} {written : FileContent π}
    (hfault : faults.preserve = some (e, written)) (backupName : String) :
    copyBackup faults m dir (dir.child dbFilename) backupName fs =
      (fs.setDirectory dir (files.upsert ⟨preservedName dbFilename m.stamp, m.modified, written⟩),
        .error (.io e)) := by
  simp only [copyBackup, preserveDatabase_fault hdir hdb hfault]

theorem copyBackup_restore_fault {e : IoError} {written : FileContent π}
    (hfault : faults.restore = some (e, written)) (m : WriteTime) (dir dbPath : FsPath)
    (backupName : String) (fs : FileSystem π) :
    ∃ fs' e', copyBackup faults m dir dbPath backupName fs = (fs', .error e') := by
  unfold copyBackup
  generalize preserveDatabase faults m dir dbPath fs = preserved
  obtain ⟨fs₁, result⟩ := preserved
  cases result with
  | error e' => exact ⟨fs₁, e', rfl⟩
  | ok preRestorePath =>
    cases hwrite : fs₁.write dbPath m.modified written with
    | ok fs₂ => exact ⟨fs₂, .io e, by simp [hfault, copyFile, hwrite]⟩
    | error e' => exact ⟨fs₁, .io e, by simp [hfault, copyFile, hwrite]⟩

end Outcomes

/-! ### Does a restore yield the backup? -/

/-- An outcome that went through leaves a database that shows what the backup
    showed, and preserves what the database showed; one that fails before the
    backup is copied leaves the database as it was. -/
structure YieldsBackup (faults : RestoreFaults π) (fs : FileSystem π) (dbPath : FsPath)
    (outcome : FileSystem π × Except BackupError (Option AppliedRestore)) : Prop where
  applied : ∀ a, outcome.2 = .ok (some a) →
    outcome.1.opened dbPath = fs.opened a.backupPath ∧
      ∀ p, a.preRestorePath = some p → outcome.1.opened p = fs.opened dbPath
  failed : ∀ e, outcome.2 = .error e → faults.restore = none →
    outcome.1.opened dbPath = fs.opened dbPath

def RestoreYieldsBackup (faults : RestoreFaults π) (m : WriteTime) (url : String) (base : FsPath)
    (fs : FileSystem π) : Prop :=
  YieldsBackup faults fs (resolveDbPath url base) (applyPendingRestore faults m url base fs)

section

variable {faults : RestoreFaults π} {fs fs' : FileSystem π} {dbPath : FsPath}

theorem yieldsBackup_none : YieldsBackup faults fs dbPath (fs', .ok none) where
  applied a h := by cases h
  failed e h := by cases h

theorem yieldsBackup_error {e : BackupError}
    (h : faults.restore = none → fs'.opened dbPath = fs.opened dbPath) :
    YieldsBackup faults fs dbPath (fs', .error e) where
  applied a hok := by cases hok
  failed _ _ hno := h hno

theorem yieldsBackup_applied {a : AppliedRestore} :
    YieldsBackup faults fs dbPath (fs', .ok (some a)) ↔
      fs'.opened dbPath = fs.opened a.backupPath ∧
        ∀ p, a.preRestorePath = some p → fs'.opened p = fs.opened dbPath := by
  constructor
  · intro h
    exact h.applied a rfl
  · intro h
    refine ⟨?_, fun e herr => by cases herr⟩
    intro a' ha'
    cases ha'
    exact h

end

/-- What the log files next to the three database files must be for that. -/
structure LogsAgree (m : WriteTime) (dir : FsPath) (dbFilename backupName : String)
    (fs : FileSystem π) : Prop where
  restored : (fs.pagesOf (dir.child backupName)).map (fun pages =>
      contents (if backupName = dbFilename then [] else pages) (fs.logOf (dir.child dbFilename))) =
    fs.opened (dir.child backupName)
  preserved : (fs.pagesOf (dir.child dbFilename)).map (fun pages =>
      contents pages (fs.logOf (dir.child (preservedName dbFilename m.stamp)))) =
    fs.opened (dir.child dbFilename)

/-- Does a marker name a backup that a restore will copy? -/
def restorePending (fs : FileSystem π) (dir : FsPath) (backupName : String) : Prop :=
  ∃ marker value, fs.file (dir.child restoreMarkerFile) = some marker ∧
    marker.content = .text value ∧ backupName = trim value ∧
    isRestorableName backupName = true ∧ fs.exists_ (dir.child backupName) = true

section Yields

variable {faults : RestoreFaults π} {m : WriteTime} {fs fs' : FileSystem π}
  {files files' : Directory π} {dir : FsPath} {dbFilename backupName : String}
  {backup : FileEntry π}

theorem lastChar_wal_ne_marker (name : String) : name ++ "-wal" ≠ restoreMarkerFile :=
  wal_ne name lastChar_marker (by decide)

theorem RestoredFiles.opened_main (h : RestoredFiles dbFilename backupName m backup files files')
    (hdir : fs dir.location = some files) (hdir' : fs' dir.location = some files')
    (hbackup : files.find? backupName = some backup)
    (hmarker : dbFilename ≠ restoreMarkerFile) :
    fs'.opened (dir.child dbFilename) =
      (fs.pagesOf (dir.child backupName)).map fun pages =>
        contents (if backupName = dbFilename then [] else pages)
          (fs.logOf (dir.child dbFilename)) := by
  have hpages : fs'.pagesOf (dir.child dbFilename) =
      (fs.pagesOf (dir.child backupName)).map fun pages =>
        if backupName = dbFilename then [] else pages := by
    have hmain := h.main hmarker
    rw [Option.map_eq_some_iff] at hmain
    obtain ⟨entry, hentry, hcontent⟩ := hmain
    rw [FileSystem.pagesOf_child hdir', FileSystem.pagesOf_child hdir, hentry, hbackup,
      Option.bind_some, Option.bind_some, hcontent]
    by_cases hsame : backupName = dbFilename
    · simp only [hsame, if_true, FileContent.pages?_emptied]
    · simp [hsame]
  have hlog : fs'.logOf (dir.child dbFilename) = fs.logOf (dir.child dbFilename) := by
    rw [FileSystem.logOf_child hdir', FileSystem.logOf_child hdir, h.others]
    · exact append_ne_self dbFilename (by decide)
    · exact (preservedName_ne dbFilename m.stamp (lastChar_wal dbFilename) (by decide)).symm
    · exact lastChar_wal_ne_marker dbFilename
  rw [FileSystem.opened, hpages, hlog, Option.map_map]
  rfl

theorem RestoredFiles.opened_preserved
    (h : RestoredFiles dbFilename backupName m backup files files')
    (hdir : fs dir.location = some files) (hdir' : fs' dir.location = some files')
    {entry : FileEntry π} (hdb : files.find? dbFilename = some entry) :
    fs'.opened (dir.child (preservedName dbFilename m.stamp)) =
      (fs.pagesOf (dir.child dbFilename)).map fun pages =>
        contents pages (fs.logOf (dir.child (preservedName dbFilename m.stamp))) := by
  have hpages : fs'.pagesOf (dir.child (preservedName dbFilename m.stamp)) =
      fs.pagesOf (dir.child dbFilename) := by
    have hcopy := h.preserved entry hdb
    rw [Option.map_eq_some_iff] at hcopy
    obtain ⟨copied, hcopied, hcontent⟩ := hcopy
    rw [FileSystem.pagesOf_child hdir', FileSystem.pagesOf_child hdir, hcopied, hdb,
      Option.bind_some, Option.bind_some, hcontent]
  have hlog : fs'.logOf (dir.child (preservedName dbFilename m.stamp)) =
      fs.logOf (dir.child (preservedName dbFilename m.stamp)) := by
    rw [FileSystem.logOf_child hdir', FileSystem.logOf_child hdir, h.others]
    · intro heq
      have hlen := congrArg String.length heq
      simp only [preservedName, String.length_append] at hlen
      have hstamp := m.stamp.length
      omega
    · exact append_ne_self _ (by decide)
    · exact lastChar_wal_ne_marker _
  rw [FileSystem.opened, hpages, hlog]

end Yields

theorem restorePending_unique {fs : FileSystem π} {dir : FsPath} {name name' : String}
    (h : restorePending fs dir name) (h' : restorePending fs dir name') : name = name' := by
  obtain ⟨marker, value, hread, hvalue, rfl, -⟩ := h
  obtain ⟨marker', value', hread', hvalue', rfl, -⟩ := h'
  rw [hread] at hread'
  cases hread'
  rw [hvalue] at hvalue'
  cases hvalue'
  rfl

section Exact

variable {faults : RestoreFaults π} {m : WriteTime} {fs : FileSystem π} {files : Directory π}
  {backup : FileEntry π} {dir : FsPath} {dbFilename backupName : String}

/-- The copies of a restore yield the backup exactly when the logs agree. -/
theorem copyBackup_yields_iff (hdir : fs dir.location = some files)
    (hbackup : files.find? backupName = some backup) (hname : endsWith ".backup" backupName = true)
    (hmarker : dbFilename ≠ restoreMarkerFile) :
    YieldsBackup faults fs (dir.child dbFilename)
        (copyBackup faults m dir (dir.child dbFilename) backupName fs) ↔
      ((faults.preserve = none ∨ fs.exists_ (dir.child dbFilename) = false) →
        faults.restore = none → LogsAgree m dir dbFilename backupName fs) := by
  rw [FileSystem.exists_child hdir, Option.isSome_eq_false_iff, Option.isNone_iff_eq_none]
  cases hrestore : faults.restore with
  | some fault =>
    -- the second copy fails: nothing is claimed
    obtain ⟨fs', e, hrun⟩ := copyBackup_restore_fault hrestore m dir (dir.child dbFilename)
      backupName fs
    rw [hrun]
    refine iff_of_true (yieldsBackup_error ?_) ?_
    · intro hnone
      rw [hrestore] at hnone
      cases hnone
    · intro _ hnone
      cases hnone
  | none =>
    by_cases hpreserve : faults.preserve = none ∨ files.find? dbFilename = none
    · obtain ⟨fs', files', removed, hrun, hdir', hrestored⟩ :=
        copyBackup_restored (m := m) hdir hbackup hname hpreserve hrestore
      have hmain := hrestored.opened_main hdir hdir' hbackup hmarker
      rw [hrun, yieldsBackup_applied, hmain]
      constructor
      · rintro ⟨hshows, hkept⟩ - -
        refine ⟨hshows, ?_⟩
        cases hdb : files.find? dbFilename with
        | none => simp [FileSystem.opened, FileSystem.pagesOf_child hdir, hdb]
        | some entry =>
          rw [← hrestored.opened_preserved hdir hdir' hdb]
          exact hkept _ (by rw [hdb, Option.map_some])
      · intro hagree
        have hlogs := hagree hpreserve rfl
        refine ⟨hlogs.restored, ?_⟩
        intro p hp
        rw [Option.map_eq_some_iff] at hp
        obtain ⟨entry, hdb, rfl⟩ := hp
        exact (hrestored.opened_preserved hdir hdir' hdb).trans hlogs.preserved
    · -- the first copy fails: the database is as it was
      have hfails := not_or.mp hpreserve
      obtain ⟨⟨e, written⟩, hfault⟩ := Option.ne_none_iff_exists'.mp hfails.1
      obtain ⟨entry, hdb⟩ := Option.ne_none_iff_exists'.mp hfails.2
      rw [copyBackup_preserve_fault hdir hdb hfault]
      refine iff_of_true (yieldsBackup_error fun _ => ?_) fun h => absurd h hpreserve
      refine FileSystem.opened_congr hdir (FileSystem.setDirectory_self _ _ _) ?_ ?_
      · rw [KeyedTable.find?_upsert, if_neg (preservedName_ne_self _ _)]
      · rw [KeyedTable.find?_upsert, if_neg (preservedName_ne _ _ (lastChar_wal _) (by decide))]

end Exact

/-- **Exactly when a restore yields the backup.**  The database is the file at the path that
    `extract_db_path` takes out of the URL. -/
theorem restore_yields_backup_iff (faults : RestoreFaults π) (m : WriteTime)
    (hfile : isFilePath (extractDbPath url) = true)
    (hmarker : baseName (extractDbPath url) ≠ restoreMarkerFile) (fs : FileSystem π) :
    RestoreYieldsBackup faults m url base fs ↔
      ∀ backupName, restorePending fs (restoreDir url base) backupName →
        (faults.preserve = none ∨ fs.exists_ (resolveDbPath url base) = false) →
        faults.restore = none →
        LogsAgree m (restoreDir url base) (baseName (extractDbPath url)) backupName fs := by
  rw [RestoreYieldsBackup, resolveDbPath_file hfile]
  cases hread : fs.file ((restoreDir url base).child restoreMarkerFile) with
  | none =>
    rw [applyPendingRestore_unmarked hfile hread]
    refine iff_of_true yieldsBackup_none ?_
    rintro backupName ⟨marker, value, hmarked, -⟩
    rw [hread] at hmarked
    cases hmarked
  | some marker =>
    obtain ⟨files, hdir, hfind⟩ : ∃ files, fs (restoreDir url base).location = some files ∧
        files.find? restoreMarkerFile = some marker := by
      rwa [FileSystem.file_child, Option.bind_eq_some_iff] at hread
    by_cases hpending : ∃ name, restorePending fs (restoreDir url base) name
    · obtain ⟨name, hname⟩ := hpending
      have hunique : ∀ name', restorePending fs (restoreDir url base) name' → name' = name :=
        fun name' h => restorePending_unique h hname
      obtain ⟨marker', value, hread', hvalue, heq, hvalid, hexists⟩ := id hname
      rw [hread] at hread'
      cases hread'
      rw [FileSystem.exists_child hdir, Option.isSome_iff_exists] at hexists
      obtain ⟨backup, hbackup⟩ := hexists
      rw [applyPendingRestore_pending hfile hdir hfind hvalue (heq ▸ hvalid) (heq ▸ hbackup), ← heq,
        copyBackup_yields_iff hdir hbackup (isRestorableName_backup hvalid) hmarker]
      constructor
      · intro hagree name' hname'
        rw [hunique name' hname']
        exact hagree
      · intro hagree
        exact hagree name hname
    · -- the marker is refused and nothing is touched
      have hrefused : ∀ value, marker.content = .text value →
          isRestorableName (trim value) = true → files.find? (trim value) = none := by
        intro value hvalue hvalid
        by_contra hsome
        apply hpending
        refine ⟨trim value, marker, value, hread, hvalue, rfl, hvalid, ?_⟩
        rw [FileSystem.exists_child hdir, Option.isSome_iff_ne_none]
        exact hsome
      obtain ⟨e, hrun⟩ : ∃ e, applyPendingRestore faults m url base fs = (fs, .error e) :=
        applyPendingRestore_refused hfile hdir hfind hrefused
      rw [hrun]
      exact iff_of_true (yieldsBackup_error fun _ => rfl)
        fun name hname => absurd ⟨name, hname⟩ hpending

/-- A page of the database, one of the backup, and a commit that was not
    checkpointed. -/
def leftoverLogFiles : Directory Nat :=
  ⟨[⟨"peanut.db", 1, .database [1]⟩, ⟨"peanut.db-wal", 2, .log [⟨[(0, 3)], 1⟩]⟩,
    ⟨"peanut.db.20260428_010203.backup", 1, .database [2]⟩,
    ⟨restoreMarkerFile, 3, .text "peanut.db.20260428_010203.backup"⟩], by decide⟩

/-- The same after a clean shutdown. -/
def checkpointedFiles : Directory Nat :=
  ⟨[⟨"peanut.db", 1, .database [3]⟩, ⟨"peanut.db.20260428_010203.backup", 1, .database [2]⟩,
    ⟨restoreMarkerFile, 3, .text "peanut.db.20260428_010203.backup"⟩], by decide⟩

/-- One directory, the working directory. -/
def workingDirectory (files : Directory π) : FileSystem π := fun p =>
  if p = FsPath.currentDir.location then some files else none

theorem checkpointed_restore_yields_backup :
    RestoreYieldsBackup {} sampleTime "sqlite://peanut.db" FsPath.currentDir
      (workingDirectory checkpointedFiles) := by
  refine (restore_yields_backup_iff {} sampleTime (by decide +kernel) (by decide +kernel) _).mpr ?_
  rintro name ⟨marker, value, hread, hvalue, rfl, -, -⟩ - -
  have hmarker : marker = ⟨restoreMarkerFile, 3, .text "peanut.db.20260428_010203.backup"⟩ :=
    (Option.some.inj (Eq.trans (by decide +kernel) hread)).symm
  rw [hmarker] at hvalue
  cases hvalue
  exact ⟨by decide +kernel, by decide +kernel⟩

/-- The commit in the log is replayed over the backup. -/
theorem leftover_log_spoils_restore :
    ¬ RestoreYieldsBackup {} sampleTime "sqlite://peanut.db" FsPath.currentDir
      (workingDirectory leftoverLogFiles) := by
  have hfile : isFilePath (extractDbPath "sqlite://peanut.db") = true := by decide +kernel
  have hdir : workingDirectory leftoverLogFiles
      (restoreDir "sqlite://peanut.db" FsPath.currentDir).location = some leftoverLogFiles := by
    rw [restoreDir, FsPath.location_currentDir_join,
      FsPath.location_of_isEmpty (by decide +kernel), workingDirectory, if_pos rfl]
  have hmarker : leftoverLogFiles.find? restoreMarkerFile =
      some ⟨restoreMarkerFile, 3, .text "peanut.db.20260428_010203.backup"⟩ := by decide +kernel
  have hbackup : leftoverLogFiles.find? (trim "peanut.db.20260428_010203.backup") =
      some ⟨"peanut.db.20260428_010203.backup", 1, .database [2]⟩ := by decide +kernel
  rw [RestoreYieldsBackup, resolveDbPath_file hfile,
    applyPendingRestore_pending hfile hdir hmarker rfl (by decide +kernel) hbackup,
    copyBackup_yields_iff hdir hbackup (by decide +kernel) (by decide +kernel)]
  intro hagree
  have hshows := (hagree (.inl rfl) rfl).restored
  rw [FileSystem.opened, FileSystem.pagesOf_child hdir, FileSystem.logOf_child hdir,
    FileSystem.logOf_child hdir] at hshows
  exact absurd hshows (by decide +kernel)

end Peanut
