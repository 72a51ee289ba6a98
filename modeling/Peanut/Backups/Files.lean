import Peanut.Backups.Paths
import Peanut.Library.Retention
import Peanut.Library.WriteAheadLog
import Peanut.Storage.Local
import Mathlib.Algebra.GroupWithZero.Nat
import Mathlib.Logic.Function.Basic

/-!
# Files of the database directory

The file system as `db.rs` and `api/backups.rs` see it, and `backup_db` and
`list_backup_summaries` over it.  A directory is found by where its path leads;
the empty path leads to the working directory when a file name is joined to it,
but cannot be listed.  The order in which a directory lists its entries is a
parameter (`ReadOrder`).
-/

namespace Peanut

open Relational WriteAheadLog

/-! ### The file system -/

/-- What a file holds.  `π` is the type of a database page. -/
inductive FileContent (π : Type) where
  | text (value : String)
  | database (pages : List π)
  | log (commits : List (Commit π))
  | archive (size : Nat)
deriving DecidableEq, Repr

variable {π : Type}

/-- `Metadata::len`; a page has 4096 bytes and a frame of the log 24 more. -/
def FileContent.len : FileContent π → Nat
  | .text value => Peanut.len value
  | .database pages => 4096 * pages.length
  | .log commits => 32 + 4120 * (commits.map fun c => c.writes.length).sum
  | .archive size => size

/-- The same kind of file with nothing in it. -/
def FileContent.emptied : FileContent π → FileContent π
  | .text _ => .text ""
  | .database _ => .database []
  | .log _ => .log []
  | .archive _ => .archive 0

/-- `modified` counts from the epoch. -/
structure FileEntry (π : Type) where
  name : String
  modified : Nat
  content : FileContent π
deriving DecidableEq, Repr

abbrev Directory (π : Type) := KeyedTable (FileEntry π) FileEntry.name

def FileSystem (π : Type) := FsPath → Option (Directory π)

def notFoundError : IoError :=
  { kind := .notFound, message := "No such file or directory" }

namespace FileSystem

def file (fs : FileSystem π) (p : FsPath) : Option (FileEntry π) :=
  match p.parent, p.fileName with
  | some parent, some name => (fs parent.location).bind (·.find? name)
  | _, _ => none

/-- `Path::exists`. -/
def exists_ (fs : FileSystem π) (p : FsPath) : Bool := (fs.file p).isSome

def setDirectory (fs : FileSystem π) (p : FsPath) (dir : Directory π) : FileSystem π :=
  Function.update fs p.location (some dir)

/-- Apply a change to the directory of a file, given the name of the file. -/
def change (fs : FileSystem π) (p : FsPath) (f : Directory π → String → Directory π) :
    Except IoError (FileSystem π) :=
  match p.parent, p.fileName with
  | some parent, some name =>
      match fs parent.location with
      | some dir => .ok (fs.setDirectory parent (f dir name))
      | none => .error notFoundError
  | _, _ => .error notFoundError

/-- `fs::write`. -/
def write (fs : FileSystem π) (p : FsPath) (modified : Nat) (content : FileContent π) :
    Except IoError (FileSystem π) :=
  fs.change p fun dir name =>
    dir.upsert { name := name, modified := modified, content := content }

/-- `fs::remove_file`. -/
def removeFile (fs : FileSystem π) (p : FsPath) : Except IoError (FileSystem π) := do
  let _ ← Outcome.require (fs.file p) notFoundError
  fs.change p fun dir name => dir.erase name

/-- `fs::copy`.  The target is truncated before the source is read. -/
def copy (fs : FileSystem π) (source target : FsPath) (modified : Nat) :
    Except IoError (FileSystem π) := do
  let entry ← Outcome.require (fs.file source) notFoundError
  fs.write target modified
    (if source.location = target.location then entry.content.emptied else entry.content)

end FileSystem

/-- The order in which the operating system lists a directory. -/
structure ReadOrder (π : Type) where
  order : List (FileEntry π) → List (FileEntry π)
  perm : ∀ entries, (order entries).Perm entries

/-- `fs::read_dir`, to the end. -/
def readDir (os : ReadOrder π) (fs : FileSystem π) (p : FsPath) :
    Except IoError (List (FileEntry π)) :=
  if p.isEmpty then .error notFoundError
  else
    match fs p.location with
    | some dir => .ok (os.order dir.rows)
    | none => .error notFoundError

/-! ### Backups -/

def isStampChar (c : Char) : Bool := isAsciiDigit c || c == '_'

/-- A time as `%Y%m%d_%H%M%S` writes it. -/
structure Stamp where
  text : String
  length : text.length = 15
  chars : ∀ c ∈ text.toList, isStampChar c = true

/-- The clock when a file is written. -/
structure WriteTime where
  modified : Nat
  stamp : Stamp

inductive BackupError where
  | message (text : String)
  | database
  | io (error : IoError)
deriving DecidableEq, Repr

/-- The text of the path `VACUUM INTO` writes to. -/
def backupPathText (dbPath : String) (stamp : Stamp) : String :=
  dbPath ++ ("." ++ stamp.text ++ ".backup")

/-- `VACUUM INTO`: the pages the pool sees go to a new file. -/
def vacuumInto (m : WriteTime) (pages : List π) (path : String) (fs : FileSystem π) :
    Except BackupError (FileSystem π) := do
  let target := parsePath path
  Outcome.ensure (match fs.file target with
    | some entry => entry.content.len == 0
    | none => true) .database
  (fs.write target m.modified (.database pages)).mapError fun _ => .database

/-- `starts_with(&prefix) && ends_with(".backup")`. -/
def isBackupOf (dbFilename : String) (entry : FileEntry π) : Bool :=
  (dbFilename ++ ".").toList.isPrefixOf entry.name.toList && endsWith ".backup" entry.name

/-- The backups a rotation deletes: sorted by modification time, all but the last seven. -/
def rotatedAway (dbFilename : String) (entries : List (FileEntry π)) : List (FileEntry π) :=
  Retention.dropped FileEntry.modified 7 (entries.filter (isBackupOf dbFilename))

/-- The directory `backup_db` rotates. -/
def rotatedDir (dbPath : FsPath) : FsPath := dbPath.parent.getD FsPath.currentDir

def removeFiles (dir : FsPath) (fs : FileSystem π) :
    List (FileEntry π) → FileSystem π × Except BackupError Unit
  | [] => (fs, .ok ())
  | entry :: rest =>
      match fs.removeFile (dir.child entry.name) with
      | .ok fs => removeFiles dir fs rest
      | .error e => (fs, .error (.io e))

/-- `backup_db`; `pages` is what the pool sees. -/
def backupDb (os : ReadOrder π) (m : WriteTime) (pages : List π) (databaseUrl : String)
    (fs : FileSystem π) : FileSystem π × Except BackupError String :=
  let dbPath := extractDbPath databaseUrl
  let backupPath := backupPathText dbPath m.stamp
  if strContains "'" backupPath then
    (fs, .error (.message "Invalid backup path: contains single quotes"))
  else
    Outcome.proceed fs (vacuumInto m pages backupPath fs) fun fs =>
    let path := parsePath dbPath
    let dbDir := rotatedDir path
    Outcome.proceed fs (Outcome.require path.fileName (.message "Invalid database path"))
      fun dbFilename =>
    Outcome.proceed fs ((readDir os fs dbDir).mapError .io) fun entries =>
    match removeFiles dbDir fs (rotatedAway dbFilename entries) with
    | (fs, .ok ()) => (fs, .ok backupPath)
    | (fs, .error e) => (fs, .error e)

/-! ### Listing -/

structure BackupSummary where
  name : String
  sizeBytes : Nat
  modifiedAt : String
deriving DecidableEq, Repr

/-- `backup_summary_from_path`; `toRfc3339` writes a time as text. -/
def backupSummary (toRfc3339 : Nat → String) (entry : FileEntry π) : BackupSummary :=
  { name := entry.name, sizeBytes := entry.content.len, modifiedAt := toRfc3339 entry.modified }

def backupDirForDbPath (dbPath : FsPath) : FsPath :=
  match dbPath.parent with
  | some parent => if parent.isEmpty then FsPath.currentDir else parent
  | none => FsPath.currentDir

def isListedBackup (dbFilename : String) (entry : FileEntry π) : Bool :=
  (dbFilename ++ ".").toList.isPrefixOf entry.name.toList &&
    (endsWith ".backup" entry.name || endsWith ".full-backup.tar.gz" entry.name)

def listBackupSummaries (toRfc3339 : Nat → String) (os : ReadOrder π) (databaseUrl : String)
    (fs : FileSystem π) : Except IoError (List BackupSummary) := do
  let dbPath := parsePath (extractDbPath databaseUrl)
  let dbFilename := dbPath.fileName.getD "peanut.db"
  let entries ← readDir os fs (backupDirForDbPath dbPath)
  return ((entries.filter (isListedBackup dbFilename)).map (backupSummary toRfc3339)).mergeSort
    fun left right => !strLt left.modifiedAt right.modifiedAt

end Peanut
