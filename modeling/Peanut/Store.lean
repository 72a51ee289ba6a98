import Peanut.Library.KeyedTable
import Peanut.Data.Types

/-!
# The database

One record with a table for each relation the modelled code reads or writes,
and the SQL statements that touch more than one table because of a foreign key.
A statement either takes effect as a whole or fails by violating a primary key,
a `UNIQUE` or a foreign key; `none` is that failure.  `PRAGMA foreign_keys` is
`ON` for every connection.

Columns that no modelled function reads are left out.
-/

namespace Peanut

open Relational

inductive Role where
  | owner
  | developer
  | operator
  | viewer
  | unknown (text : String)
deriving DecidableEq, Repr

structure User where
  id : String
  appId : String
  email : String
  passwordHash : String
  isActive : Bool
  isAdmin : Bool
  adminRole : Role
  createdAt : String
deriving DecidableEq, Repr

/-- A row of `refresh_tokens`; `token` is the hash of the raw token. -/
structure RefreshToken where
  token : String
  appId : String
  userId : String
  expiresAt : String
  createdAt : String
  sessionId : String
  revokedAt : Option String
  replacedByToken : Option String
deriving DecidableEq, Repr

/-- A row of `password_reset_tokens`; `token` is the hash of the raw token. -/
structure PasswordResetToken where
  token : String
  appId : String
  userId : String
  expiresAt : String
  createdAt : String
  consumedAt : Option String
deriving DecidableEq, Repr

structure EmailVerificationToken where
  id : String
  appId : String
  userId : String
  email : String
  tokenHash : String
  purpose : String
  expiresAt : String
  consumedAt : Option String
  createdAt : String
deriving DecidableEq, Repr

structure OAuthState where
  stateHash : String
  appId : String
  provider : String
  redirectTo : Option String
  expiresAt : String
deriving DecidableEq, Repr

/-- A row of `auth_identities`; `profile` is the decoded `profile_json`. -/
structure AuthIdentity where
  id : String
  appId : String
  provider : String
  providerUserId : String
  userId : String
  email : String
  profile : Value
deriving DecidableEq, Repr

/-- A row of `auth_provider_configs`; `config` is the decoded `config_json`. -/
structure AuthProviderConfig where
  appId : String
  provider : String
  enabled : Bool
  clientId : Option String
  clientSecretCiphertext : Option String
  redirectUri : Option String
  config : Value
deriving DecidableEq, Repr

structure AuthEvent where
  id : String
  appId : String
  userId : String
  actorUserId : Option String
  action : String
  metadata : Option Value
  createdAt : String
deriving DecidableEq, Repr

structure App where
  id : String
  name : String
  displayName : String
  workspaceId : String
  createdBy : Option String
  createdAt : String
  updatedAt : String
  deletedAt : Option String
  disabledAt : Option String := none
  disabledReason : Option String := none
  pushWebhookUrl : Option String := none
  webhookSecret : Option String := none
deriving DecidableEq, Repr

structure Workspace where
  id : String
  name : String
  displayName : String
  createdBy : Option String
  createdAt : String
  updatedAt : String
  disabledAt : Option String := none
  disabledReason : Option String := none
deriving DecidableEq, Repr

structure WorkspaceMember where
  workspaceId : String
  userId : String
  role : Role
  createdAt : String
  updatedAt : String
deriving DecidableEq, Repr

structure WorkspaceSetupInvite where
  id : String
  label : String
  codeHash : String
  email : Option String
  domain : Option String
  maxUses : Int
  usedCount : Int
  expiresAt : Option String
  createdBy : String
  createdAt : String
  revokedAt : Option String
deriving DecidableEq, Repr

inductive ResourceKey where
  | apps
  | appUsers
  | dataRows
  | storageBytes
  | functionInvocationsMonth
  | pushSendsMonth
  | apiRequestsMonth
deriving DecidableEq, Repr

structure UsageCounter where
  workspaceId : String
  resourceKey : ResourceKey
  periodStart : String
  used : Int
  resourceLimit : Option Int
deriving DecidableEq, Repr

structure AuditLog where
  id : String
  appId : Option String
  actorUserId : String
  actorRole : Role
  action : String
  targetType : String
  targetId : String
  metadata : Value
  createdAt : String
deriving DecidableEq, Repr

inductive AppKeyType where
  | client
  | server
  | admin
deriving DecidableEq, Repr

/-- A row of `app_keys`; `scopes` is the decoded `scopes_json` column. -/
structure AppKey where
  id : String
  appId : String
  name : String
  keyPrefix : String
  keyHash : String
  keyType : AppKeyType
  scopes : List String
  createdBy : String
  createdAt : String
  lastUsedAt : Option String
  expiresAt : Option String
  revokedAt : Option String
  rateLimitPerMinute : Option Int
deriving DecidableEq, Repr

/-- A row of `functions`; `env` and `allowedOrigins` are the decoded `*_json` columns. -/
structure FunctionDetail where
  id : String
  appId : String
  name : String
  displayName : String
  endpointSlug : String
  runtime : String
  sourceCode : String
  invokePolicy : String
  env : BTreeMap String
  apiKeyHash : Option String
  allowedOrigins : List String
  rateLimitPerMinute : Int
  timeoutMs : Int
  enabled : Bool
  activeVersionNumber : Int
  activeVersionId : String
  secretKeyCount : Int
  createdBy : String
  updatedBy : String
  createdAt : String
  updatedAt : String
deriving DecidableEq

structure FunctionVersion where
  id : String
  appId : String
  functionId : String
  versionNumber : Int
  runtime : String
  sourceCode : String
  invokePolicy : String
  env : BTreeMap String
  apiKeyHash : Option String
  allowedOrigins : List String
  rateLimitPerMinute : Int
  timeoutMs : Int
  createdBy : String
  createdAt : String
deriving DecidableEq

structure FunctionVersionSecret where
  versionId : String
  secretKey : String
  secretValue : String
  secretCiphertext : Option String
  encryptionVersion : Option Int
deriving DecidableEq, Repr

/-- A row of `function_invocations`; `request` and `response` are the decoded
    `request_json` and `response_json`. -/
structure FunctionInvocation where
  id : String
  appId : String
  functionId : String
  status : String
  request : Value
  invokeMode : String
  functionVersionId : String
  retryCount : Int
  parentInvocationId : Option String
  createdAt : String
  response : Option Value := none
  error : Option String := none
  durationMs : Option Int := none
  finishedAt : Option String := none
deriving DecidableEq, Repr

/-- A row of `storage_buckets`; `allowedMimeTypes` is the decoded
    `allowed_mime_types_json`. -/
structure StorageBucket where
  appId : String
  name : String
  publicRead : Bool
  allowClientUploads : Bool
  maxObjectBytes : Option Int
  allowedMimeTypes : List String
  createdAt : String
  updatedAt : String
  deletedAt : Option String
deriving DecidableEq, Repr

structure FailedDestinationRecord where
  endpoint : String
  error : String
deriving DecidableEq, Repr

/-- A row of `push_queue`; `payload` and `failedDestinations` are the decoded
    `payload_json` and `failed_destinations_json`. -/
structure PushMessage where
  id : Nat
  appId : String
  userId : String
  title : String
  body : String
  status : String
  retryCount : Int
  payload : Option Value
  scheduledAt : Option String
  idempotencyKey : Option String
  broadcastTag : Option String
  createdAt : String
  lastError : Option String := none
  claimedAt : Option String := none
  processedAt : Option String := none
  partialFailureCount : Nat := 0
  failedDestinations : Option (List FailedDestinationRecord) := none
  nextRetryAt : Option String := none
deriving DecidableEq, Repr

structure PushSubscription where
  id : Nat
  appId : String
  userId : String
  endpoint : String
  p256dh : String := ""
  auth : String := ""
  createdAt : String
deriving DecidableEq, Repr

structure ScheduledJob where
  id : String
  appId : String
  functionId : String
  cronExpr : String
  enabled : Bool
  lastRunAt : Option String
  createdAt : String
deriving DecidableEq, Repr

structure DataFunctionTrigger where
  id : String
  appId : String
  tableId : String
  event : String
  functionId : String
  enabled : Bool
  createdAt : String
deriving DecidableEq, Repr

/-- The relations of the SQLite file.  `dataRowEventSeq` and `pushQueueSeq` are
    the entries of `sqlite_sequence` behind the `AUTOINCREMENT` keys of
    `data_row_events` and `push_queue`. -/
structure Db where
  users : KeyedTable User (·.id) := .empty
  refreshTokens : KeyedTable RefreshToken (·.token) := .empty
  passwordResetTokens : KeyedTable PasswordResetToken (·.token) := .empty
  emailVerificationTokens : KeyedTable EmailVerificationToken (·.id) := .empty
  oauthStates : KeyedTable OAuthState (·.stateHash) := .empty
  authIdentities : KeyedTable AuthIdentity (·.id) := .empty
  authProviderConfigs :
    KeyedTable AuthProviderConfig (fun c => (c.appId, c.provider)) := .empty
  authEvents : KeyedTable AuthEvent (·.id) := .empty
  apps : KeyedTable App (·.id) := .empty
  workspaces : KeyedTable Workspace (·.id) := .empty
  workspaceMembers : KeyedTable WorkspaceMember (fun m => (m.workspaceId, m.userId)) := .empty
  workspaceSetupInvites : KeyedTable WorkspaceSetupInvite (·.id) := .empty
  usageCounters :
    KeyedTable UsageCounter (fun c => (c.workspaceId, c.resourceKey, c.periodStart)) := .empty
  auditLogs : KeyedTable AuditLog (·.id) := .empty
  appKeys : KeyedTable AppKey (·.id) := .empty
  dataTables : KeyedTable LoadedTable (·.id) := .empty
  dataRows : KeyedTable DataRow (·.id) := .empty
  dataRowEvents : KeyedTable DataRowEvent (·.id) := .empty
  dataRowEventSeq : Nat := 0
  functions : KeyedTable FunctionDetail (·.id) := .empty
  functionVersions : KeyedTable FunctionVersion (·.id) := .empty
  functionVersionSecrets :
    KeyedTable FunctionVersionSecret (fun s => (s.versionId, s.secretKey)) := .empty
  functionInvocations : KeyedTable FunctionInvocation (·.id) := .empty
  scheduledJobs : KeyedTable ScheduledJob (·.id) := .empty
  dataFunctionTriggers : KeyedTable DataFunctionTrigger (·.id) := .empty
  storageBuckets : KeyedTable StorageBucket (fun b => (b.appId, b.name)) := .empty
  pushQueue : KeyedTable PushMessage (·.id) := .empty
  pushQueueSeq : Nat := 0
  pushSubscriptions : KeyedTable PushSubscription (·.id) := .empty

namespace Db

/-! ### Data tables and rows -/

/-- `INSERT INTO data_tables`: the pair of app and name is unique and the
    creator is a user. -/
def insertDataTable (db : Db) (t : LoadedTable) : Option Db :=
  if !(db.dataTables.rows.any fun s => s.appId == t.appId && s.name == t.name) &&
      db.users.hasKey t.createdBy then
    (db.dataTables.insert? t).map fun tables => { db with dataTables := tables }
  else none

theorem insertDataTable_eq_some {db db' : Db} {t : LoadedTable} :
    db.insertDataTable t = some db' ↔
      (∀ s ∈ db.dataTables, ¬ (s.appId = t.appId ∧ s.name = t.name)) ∧
        db.users.hasKey t.createdBy = true ∧
        ∃ tables, db.dataTables.insert? t = some tables ∧
          db' = { db with dataTables := tables } := by
  have hfresh : (!(db.dataTables.rows.any fun s => s.appId == t.appId && s.name == t.name)) = true ↔
      ∀ s ∈ db.dataTables, ¬ (s.appId = t.appId ∧ s.name = t.name) := by
    simp [KeyedTable.mem_def]
  simp only [insertDataTable, Option.ite_none_right_eq_some, Option.map_eq_some_iff,
    Bool.and_eq_true,
    hfresh, and_assoc, @eq_comm _ db']

/-- Does the optional foreign key point to a user? -/
def userOrNull (db : Db) (userId : Option String) : Bool :=
  match userId with
  | some u => db.users.hasKey u
  | none => true

/-- `INSERT INTO data_rows`: the id is unique over all tables and apps, the
    table exists and the owner, if any, is a user. -/
def insertDataRow (db : Db) (r : DataRow) : Option Db :=
  if db.dataTables.hasKey r.tableId && db.userOrNull r.ownerUserId then
    (db.dataRows.insert? r).map fun rows => { db with dataRows := rows }
  else none

theorem insertDataRow_eq_some {db db' : Db} {r : DataRow} :
    db.insertDataRow r = some db' ↔
      db.dataTables.hasKey r.tableId = true ∧ db.userOrNull r.ownerUserId = true ∧
        ∃ rows, db.dataRows.insert? r = some rows ∧ db' = { db with dataRows := rows } := by
  simp only [insertDataRow, Option.ite_none_right_eq_some, Option.map_eq_some_iff, Bool.and_eq_true,
    and_assoc, @eq_comm _ db']

theorem insertDataRow_eq_none {db : Db} {r : DataRow} :
    db.insertDataRow r = none ↔
      ¬ (db.dataTables.hasKey r.tableId = true ∧ db.userOrNull r.ownerUserId = true ∧
        db.dataRows.hasKey r.id = false) := by
  unfold insertDataRow
  split
  · rename_i h
    rw [Bool.and_eq_true] at h
    rw [Option.map_eq_none_iff, KeyedTable.insert?_eq_none]
    simp [h.1, h.2]
  · rename_i h
    rw [Bool.and_eq_true] at h
    simp only [true_iff]
    rintro ⟨h1, h2, -⟩
    exact h ⟨h1, h2⟩

/-- `DELETE FROM data_tables WHERE …`, cascading to rows and row events. -/
def deleteDataTables (db : Db) (p : LoadedTable → Bool) : Db :=
  let gone (tableId : String) : Bool := db.dataTables.rows.any fun t => p t && t.id == tableId
  { db with
    dataTables := db.dataTables.deleteWhere p
    dataRows := db.dataRows.deleteWhere fun r => gone r.tableId
    dataRowEvents := db.dataRowEvents.deleteWhere fun e => gone e.tableId }

/-! ### Logs -/

/-- `record_row_event`: the event refers to a table and to a user. -/
def recordRowEvent (db : Db) (env : Env) (appId tableId rowId actorUserId action : String)
    (diff : Option Value) : Option (Nat × Db) :=
  let event : DataRowEvent :=
    { id := db.dataRowEventSeq + 1, appId := appId, tableId := tableId, rowId := rowId,
      actorUserId := actorUserId, action := action, diff := diff, createdAt := env.now }
  if db.dataTables.hasKey tableId && db.users.hasKey actorUserId then
    (db.dataRowEvents.insert? event).map fun events =>
      (event.id, { db with dataRowEvents := events, dataRowEventSeq := event.id })
  else none

/-- The database after `if let Ok(event_id) = record_row_event(…)`: a failed
    insert is ignored. -/
def logRowEvent (db : Db) (env : Env) (appId tableId rowId actorUserId action : String)
    (diff : Option Value) : Db :=
  match db.recordRowEvent env appId tableId rowId actorUserId action diff with
  | some (_, db') => db'
  | none => db

/-- Does the optional foreign key point to an app? -/
def appOrNull (db : Db) (appId : Option String) : Bool :=
  match appId with
  | some a => db.apps.hasKey a
  | none => true

/-- `record_audit_log`, whose result every caller drops.  `uuid` is the id drawn
    for the entry. -/
def recordAuditLog (db : Db) (env : Env) (uuid : String) (appId : Option String)
    (claims : Claims) (action targetType targetId : String) (metadata : Value) : Db :=
  let actorRole :=
    match db.users.find? claims.sub with
    | some user => user.adminRole
    | none => if claims.isAdmin then .owner else .viewer
  if db.appOrNull appId && db.users.hasKey claims.sub then
    match db.auditLogs.insert?
        { id := uuid, appId := appId, actorUserId := claims.sub, actorRole := actorRole,
          action := action, targetType := targetType, targetId := targetId,
          metadata := metadata, createdAt := env.now } with
    | some logs => { db with auditLogs := logs }
    | none => db
  else db

theorem recordAuditLog_frame (db : Db) (env : Env) (uuid : String) (appId : Option String)
    (claims : Claims) (action targetType targetId : String) (metadata : Value) :
    ∃ logs, db.recordAuditLog env uuid appId claims action targetType targetId metadata =
      { db with auditLogs := logs } := by
  unfold recordAuditLog
  dsimp only
  split
  · generalize db.auditLogs.insert? _ = inserted
    cases inserted with
    | none => exact ⟨db.auditLogs, rfl⟩
    | some logs => exact ⟨logs, rfl⟩
  · exact ⟨db.auditLogs, rfl⟩

/-! ### Users -/

/-- `INSERT INTO users`: an address is used once per app. -/
def insertUser (db : Db) (u : User) : Option Db :=
  if db.users.rows.any fun v => v.appId == u.appId && v.email == u.email then none
  else (db.users.insert? u).map fun users => { db with users := users }

theorem insertUser_eq_some {db db' : Db} {u : User} (h : db.insertUser u = some db') :
    ∃ users, db.users.insert? u = some users ∧ db' = { db with users := users } := by
  unfold insertUser at h
  split at h
  · cases h
  · obtain ⟨users, hins, rfl⟩ := Option.map_eq_some_iff.mp h
    exact ⟨users, hins, rfl⟩

/-- Is the user referenced by a foreign key with `ON DELETE RESTRICT`? -/
def userRestricted (db : Db) (userId : String) : Bool :=
  (db.functions.rows.any fun f => f.createdBy == userId || f.updatedBy == userId) ||
    (db.functionVersions.rows.any fun v => v.createdBy == userId) ||
    (db.appKeys.rows.any fun k => k.createdBy == userId) ||
    (db.workspaceSetupInvites.rows.any fun i => i.createdBy == userId) ||
    db.auditLogs.rows.any fun l => l.actorUserId == userId

/-- What SQLite does to the other tables when a user goes: tables the user
    created are deleted with their rows and events, owned rows lose their
    owner, tokens, identities, events, queued messages, subscriptions and
    memberships of the user are deleted.  Email verification tokens have no
    foreign key. -/
def cascadeUser (db : Db) (userId : String) : Db :=
  let db := db.deleteDataTables fun t => t.createdBy == userId
  { db with
    dataRows := db.dataRows.updateWhere (fun r => r.ownerUserId == some userId)
      (fun r => { r with ownerUserId := none }) DataRow.id_disowned
    dataRowEvents := db.dataRowEvents.deleteWhere fun e => e.actorUserId == userId
    refreshTokens := db.refreshTokens.deleteWhere fun t => t.userId == userId
    passwordResetTokens := db.passwordResetTokens.deleteWhere fun t => t.userId == userId
    authIdentities := db.authIdentities.deleteWhere fun i => i.userId == userId
    pushQueue := db.pushQueue.deleteWhere fun m => m.userId == userId
    pushSubscriptions := db.pushSubscriptions.deleteWhere fun s => s.userId == userId
    authEvents := (db.authEvents.deleteWhere fun e => e.userId == userId).updateWhere
      (fun e => e.actorUserId == some userId) (fun e => { e with actorUserId := none })
      (fun _ => rfl)
    workspaceMembers := db.workspaceMembers.deleteWhere fun m => m.userId == userId
    workspaces := db.workspaces.updateWhere (fun w => w.createdBy == some userId)
      (fun w => { w with createdBy := none }) (fun _ => rfl)
    apps := db.apps.updateWhere (fun a => a.createdBy == some userId)
      (fun a => { a with createdBy := none }) (fun _ => rfl) }

/-- `DELETE FROM users WHERE app_id = ? AND id = ?`: `none` when a restricting
    reference remains, else the database and the number of rows affected. -/
def deleteUser (db : Db) (appId userId : String) : Option (Nat × Db) :=
  match db.users.selectOne fun u => u.appId == appId && u.id == userId with
  | none => some (0, db)
  | some _ =>
      if db.userRestricted userId then none
      else
        let db := db.cascadeUser userId
        some (1, { db with users := db.users.deleteWhere fun u => u.id == userId })

end Db

end Peanut
