import Peanut.Backups.Restore
import Peanut.Workspaces.Members
import Peanut.Library.Transition

/-!
# Scheduling a restore

The handlers of `api/backups.rs` that change the database directory, and the runs
of them between two starts of the server.  `restore_backup` writes a marker;
`apply_pending_restore` reads it at the next start, and `main` panics when that
answers an error.
-/

namespace Peanut

open Relational WriteAheadLog

variable {π : Type}

/-! ### Handlers -/

def roleRank : Role → Nat
  | .owner => 4
  | .developer => 3
  | .operator => 2
  | .viewer => 1
  | .unknown _ => 0

def requireAdminRole (db : Db) (claims : Claims) (minimumRole : Role) : Except ApiError Unit := do
  Outcome.ensure claims.isAdmin (jsonError .forbidden "admin access required")
  let role ← Outcome.require (loadInstanceAdminRole db claims.sub)
    (jsonError .unauthorized "admin user not found")
  Outcome.ensure (decide (roleRank minimumRole ≤ roleRank role))
    (jsonError .forbidden "admin role does not have required access")

def validateBackupName (backupName : String) : Except String Unit :=
  Outcome.ensure
    (!(isBlank backupName || strContains "/" backupName || strContains "\\" backupName ||
      strContains ".." backupName ||
      (!endsWith ".backup" backupName && !endsWith ".full-backup.tar.gz" backupName)))
    "invalid backup name"

def resolveBackupPath (databaseUrl backupName : String) : Except String FsPath := do
  validateBackupName backupName
  return (backupDirForDbPath (parsePath (extractDbPath databaseUrl))).child backupName

structure RestoreBackupRequest where
  confirmation : String
  reason : Option String := none
deriving DecidableEq, Repr

structure RestoreBackupResponse where
  message : String
  backupName : String
  restartRequired : Bool
deriving DecidableEq, Repr

/-- The checks of `restore_backup`; the result is the directory of the backup. -/
def restoreBackupChecks (db : Db) (claims : Claims) (databaseUrl backupName : String)
    (payload : RestoreBackupRequest) (fs : FileSystem π) : Except ApiError FsPath := do
  requireAdminRole db claims .owner
  Outcome.ensure (payload.confirmation == backupName)
    (jsonError .badRequest "confirmation must match backup name")
  let backupPath ← (resolveBackupPath databaseUrl backupName).mapError (jsonError .badRequest)
  Outcome.ensure (fs.exists_ backupPath) (jsonError .notFound "backup not found")
  Outcome.require backupPath.parent (jsonError .internalServerError "invalid backup path")

def writeRestoreMarker (m : WriteTime) (dbDir : FsPath) (backupName : String)
    (fs : FileSystem π) : Except IoError (FileSystem π) := do
  (validateBackupName backupName).mapError fun message => { kind := .other, message := message }
  fs.write (dbDir.child restoreMarkerFile) m.modified (.text backupName)

def restoreBackup (env : Env) (m : WriteTime) (db : Db) (claims : Claims)
    (databaseUrl backupName : String) (payload : RestoreBackupRequest) (fs : FileSystem π) :
    (Db × FileSystem π) × Except ApiError (Reply RestoreBackupResponse) :=
  Outcome.proceed (db, fs) (restoreBackupChecks db claims databaseUrl backupName payload fs)
    fun dbDir =>
  Outcome.proceed (db, fs) ((writeRestoreMarker m dbDir backupName fs).mapError fun _ =>
    jsonError .internalServerError "failed to schedule backup restore") fun fs =>
  let db := db.recordAuditLog env (env.uuid 0) none claims "backup.restore_scheduled" "backup"
    backupName (.object [("reason", (payload.reason.map Value.string).getD .null)])
  ((db, fs), .ok
    { status := .ok
      body :=
        { message := "backup restore scheduled; restart Peanut to apply it"
          backupName := backupName, restartRequired := true } })

/-- `backup_summary_from_path`, of a path given as text. -/
def backupSummaryFromPath (toRfc3339 : Nat → String) (path : FsPath) (fs : FileSystem π) :
    Except IoError BackupSummary := do
  let entry ← Outcome.require (fs.file path) notFoundError
  return backupSummary toRfc3339 entry

def createBackup (toRfc3339 : Nat → String) (os : ReadOrder π) (m : WriteTime) (pages : List π)
    (db : Db) (claims : Claims) (databaseUrl : String) (fs : FileSystem π) :
    FileSystem π × Except ApiError (Reply BackupSummary) :=
  Outcome.proceed fs (requireAdminRole db claims .operator) fun _ =>
  match backupDb os m pages databaseUrl fs with
  | (fs, .error _) => (fs, .error (jsonError .internalServerError "failed to create backup"))
  | (fs, .ok path) =>
      (fs, ((backupSummaryFromPath toRfc3339 (parsePath path) fs).mapError fun _ =>
        jsonError .internalServerError "failed to inspect backup").map fun summary =>
          { status := .created, body := summary })

/-- What `tar` left: the size of the archive, and whether it exited with success. -/
structure TarOutcome where
  size : Nat
  success : Bool
deriving DecidableEq, Repr

def bundleName (dbFilename : String) (stamp : Stamp) : String :=
  dbFilename ++ ("." ++ stamp.text ++ ".full-backup.tar.gz")

/-- `create_full_backup_bundle`. -/
def createFullBackupBundle (m : WriteTime) (tar : TarOutcome) (databaseUrl : String)
    (fs : FileSystem π) : FileSystem π × Except IoError FsPath :=
  let dbPath := parsePath (extractDbPath databaseUrl)
  let bundlePath := (backupDirForDbPath dbPath).child
    (bundleName (dbPath.fileName.getD "peanut.db") m.stamp)
  match fs.write bundlePath m.modified (.archive tar.size) with
  | .error e => (fs, .error e)
  | .ok fs =>
      if tar.success then (fs, .ok bundlePath)
      else (fs, .error { kind := .other, message := "tar failed to create full backup bundle" })

def createFullBackup (toRfc3339 : Nat → String) (os : ReadOrder π) (m m' : WriteTime)
    (tar : TarOutcome) (pages : List π) (db : Db) (claims : Claims) (databaseUrl : String)
    (fs : FileSystem π) : FileSystem π × Except ApiError (Reply BackupSummary) :=
  Outcome.proceed fs (requireAdminRole db claims .operator) fun _ =>
  match backupDb os m pages databaseUrl fs with
  | (fs, .error _) => (fs, .error (jsonError .internalServerError "failed to create backup"))
  | (fs, .ok _) =>
      match createFullBackupBundle m' tar databaseUrl fs with
      | (fs, .error _) =>
          (fs, .error (jsonError .internalServerError "failed to create full backup bundle"))
      | (fs, .ok path) =>
          (fs, ((backupSummaryFromPath toRfc3339 path fs).mapError fun _ =>
            jsonError .internalServerError "failed to inspect full backup bundle").map
              fun summary =>
              { status := .created, body := summary })

def restoreMarkerPath (databaseUrl : String) : FsPath :=
  (backupDirForDbPath (parsePath (extractDbPath databaseUrl))).child restoreMarkerFile

/-- `delete_restore_pending`; a marker that is not there is no error. -/
def deleteRestorePending (claims : Claims) (databaseUrl : String) (fs : FileSystem π) :
    FileSystem π × Except ApiError StatusCode :=
  Outcome.proceed fs
    (Outcome.ensure claims.isAdmin (jsonError .forbidden "admin access required")) fun _ =>
  match fs.removeFile (restoreMarkerPath databaseUrl) with
  | .ok fs => (fs, .ok .ok)
  | .error e =>
      if e.kind = .notFound then (fs, .ok .ok)
      else (fs, .error (jsonError .internalServerError "failed to clear pending restore"))

end Peanut
