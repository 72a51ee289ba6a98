import Peanut.Data.JsonColumns
import Peanut.Data.LiveRows
import Peanut.Functions.HostProtocol
import Peanut.Push.Batches
import Peanut.Storage.ObjectLists
import Peanut.Storage.ObjectStatements

/-!
# What a function reaches through the host

`functions/host.rs`: the calls with which a function that is running reads and writes the
objects, the rows and the push queue.  They are made under the claims of the request that
invoked it.  A call that is under way when the time of the function is over is given up where
it stands, and what its first statements have done stays.
-/

namespace Peanut

open Relational Interleaving

/-! ### The calls -/

/-- The database and the files. -/
structure HostStore where
  db : Db
  files : StorageFiles

/-- What the server runs on: the platform, SQLite, the place of the objects and their
    digests, and the JSON text of a response between the handler and the host. -/
structure HostConfig where
  platform : Platform
  engine : Sqlite
  root : FsPath
  digests : Digests
  body : JsonLink

/-- What a call draws from outside: that of the row and push handlers, and the time
    the storage writes down. -/
structure HostDraw where
  env : Env
  storageNow : String

section Calls

variable (cfg : HostConfig)

/-- `response_json_value`: the body of the response is read back. -/
def responseJsonValue {α : Type} (toValue : α → Value) (response : Except ApiError (Reply α)) :
    Except String Value :=
  match response with
  | .ok reply =>
      Outcome.require (cfg.body.read (cfg.body.write (toValue reply.body)))
        "host action returned invalid JSON body"
  | .error e => .error e.error

def handleStorageGet (s : HostStore) (claims : Option Claims) (args : Value) :
    Except String Value := do
  let claims ← requireClaims claims
  let bucket ← requiredString args "bucket"
  let key ← requiredString args "key"
  ensureStorageBucket s.db claims.appId bucket
  let object ← (StorageFiles.getObject cfg.root s.files
    (appStorageBucket claims.appId bucket) key).mapError fun e =>
      "storage.get failed: " ++ e.message
  let text ← Outcome.require (String.fromUTF8? ⟨object.1.toArray⟩)
    "storage.get returned non-utf8 content"
  return .string text

namespace HostStore

def handleStoragePut (s : HostStore) (now : String) (claims : Option Claims) (args : Value) :
    HostStore × Except String Value :=
  Outcome.proceed s (storagePutChecks s.db claims args) fun (bucket, key, body) =>
  let r := StorageFiles.putObject cfg.root cfg.digests now s.files bucket key (asBytes body)
    (some HOST_CONTENT_TYPE)
  ({ s with files := r.1 },
    (r.2.mapError fun e => "storage.put failed: " ++ e.message).map fun metadata =>
      .object [("etag", .string metadata.etag), ("key", .string key),
        ("size", .number (.ofInt metadata.contentLength))])

def handleStorageDelete (s : HostStore) (claims : Option Claims) (args : Value) :
    HostStore × Except String Value :=
  Outcome.proceed s (storageDeleteChecks s.db claims args) fun (bucket, key) =>
  let r := StorageFiles.deleteObject cfg.root s.files bucket key
  ({ s with files := r.1 },
    (r.2.mapError fun e => "storage.delete failed: " ++ e.message).map fun _ =>
      .object [("message", .string "object deleted")])

end HostStore

/-- `optional_string`. -/
def optionalString (args : Value) (field : String) : Option String :=
  (((args.member field).bind Value.asStr).map trim).filter fun value => value != ""

def EnqueuePushResponse.toValue (r : EnqueuePushResponse) : Value :=
  .object [("id", .number (.posInt (.ofNat r.id))), ("status", .string r.status)]

/-- `enqueue_message`. -/
def enqueueMessage (db : Db) (env : Env) (claims : Claims) (payload : EnqueuePushRequest) :
    Db × Except ApiError (Reply EnqueuePushResponse) :=
  let r := enqueuePush db env (payload.input claims)
  (r.1, r.2.map fun body => { status := .created, body := body })

def pushEnqueueChecks (claims : Option Claims) (args : Value) :
    Except String (Claims × EnqueuePushRequest) := do
  let claims ← requireClaims claims
  let title ← requiredString args "title"
  let body ← requiredString args "body"
  return (claims, { title := title, body := body, userId := optionalString args "user_id" })

def handlePushEnqueue (s : HostStore) (env : Env) (claims : Option Claims) (args : Value) :
    HostStore × Except String Value :=
  Outcome.proceed s (pushEnqueueChecks claims args) fun (claims, payload) =>
  let r := enqueueMessage s.db env claims payload
  ({ s with db := r.1 }, responseJsonValue cfg EnqueuePushResponse.toValue r.2)

/-- A member of type `Option<T>`: missing and `null` are `None`. -/
def optionalMember {α : Type} (decode : Value → Option α) (args : Value) (field : String) :
    Option (Option α) :=
  match args.member field with
  | none | some .null => some none
  | some v => (decode v).map some

def Value.asU64 : Value → Option UInt64
  | .number (.posInt n) => some n
  | _ => none

def Value.asBool : Value → Option Bool
  | .bool b => some b
  | _ => none

/-- `from_value::<ListRowsParams>`; other members are ignored. -/
def decodeListRowsParams (args : Value) : Option ListRowsParams := do
  let limit ← optionalMember Value.asU64 args "limit"
  let offset ← optionalMember Value.asU64 args "offset"
  let orderBy ← optionalMember Value.asStr args "order_by"
  let order ← optionalMember Value.asStr args "order"
  let search ← optionalMember Value.asStr args "search"
  let titleContains ← optionalMember Value.asStr args "title_contains"
  let done ← optionalMember Value.asBool args "done"
  let filterField ← optionalMember Value.asStr args "filter_field"
  let filterOp ← optionalMember Value.asStr args "filter_op"
  let filterValue ← optionalMember Value.asStr args "filter_value"
  let expand ← optionalMember Value.asStr args "expand"
  return { limit, offset, orderBy, order, search, titleContains, done, filterField, filterOp
           filterValue, expand }

def DataRowsResponse.toValue (r : DataRowsResponse) : Value :=
  .object [("has_more", .bool r.hasMore), ("limit", .number (.ofInt r.limit)),
    ("offset", .number (.ofInt r.offset)), ("rows", .array (r.rows.map (·.toValue))),
    ("total", .number (.ofInt r.total))]

def handleDataListRows (s : HostStore) (claims : Option Claims) (args : Value) :
    Except String Value := do
  let claims ← requireClaims claims
  let table ← requiredString args "table"
  let params ← Outcome.require (decodeListRowsParams args) "invalid data.listRows arguments"
  responseJsonValue cfg DataRowsResponse.toValue
    (listRows cfg.platform cfg.engine s.db claims table params)

def handleDataGetRow (s : HostStore) (claims : Option Claims) (args : Value) :
    Except String Value := do
  let claims ← requireClaims claims
  let table ← requiredString args "table"
  let rowId ← requiredString args "row_id"
  responseJsonValue cfg DataRowResponse.toValue
    (getRow cfg.platform s.db claims table rowId {})

def dataCreateRowChecks (claims : Option Claims) (args : Value) :
    Except String (Claims × String × Value) := do
  let claims ← requireClaims claims
  let table ← requiredString args "table"
  let data ← Outcome.require (args.member "data") "data is required"
  return (claims, table, data)

def handleDataCreateRow (s : HostStore) (env : Env) (claims : Option Claims) (args : Value) :
    HostStore × Except String Value :=
  Outcome.proceed s (dataCreateRowChecks claims args) fun (claims, table, data) =>
  let r := createRow cfg.platform s.db env claims table { data := data }
  ({ s with db := r.1 }, responseJsonValue cfg DataRowResponse.toValue r.2)

def dataUpdateRowChecks (claims : Option Claims) (args : Value) :
    Except String (Claims × String × String × Value) := do
  let claims ← requireClaims claims
  let table ← requiredString args "table"
  let rowId ← requiredString args "row_id"
  let data ← Outcome.require (args.member "data") "data is required"
  return (claims, table, rowId, data)

def handleDataUpdateRow (s : HostStore) (env : Env) (claims : Option Claims) (args : Value) :
    HostStore × Except String Value :=
  Outcome.proceed s (dataUpdateRowChecks claims args) fun (claims, table, rowId, data) =>
  let r := updateRow cfg.platform s.db env claims table rowId { data := data }
  ({ s with db := r.1 }, responseJsonValue cfg DataRowResponse.toValue r.2)

def dataDeleteRowChecks (claims : Option Claims) (args : Value) :
    Except String (Claims × String × String) := do
  let claims ← requireClaims claims
  let table ← requiredString args "table"
  let rowId ← requiredString args "row_id"
  return (claims, table, rowId)

def MessageResponse.toValue (r : MessageResponse) : Value :=
  .object [("message", .string r.message)]

def handleDataDeleteRow (s : HostStore) (env : Env) (claims : Option Claims) (args : Value) :
    HostStore × Except String Value :=
  Outcome.proceed s (dataDeleteRowChecks claims args) fun (claims, table, rowId) =>
  let r := deleteRow cfg.platform s.db env claims table rowId
  ({ s with db := r.1 }, responseJsonValue cfg MessageResponse.toValue r.2)

def handleHostCall (s : HostStore) (draw : HostDraw) (claims : Option Claims) (action : String)
    (args : Value) : HostStore × Except String Value :=
  match action with
  | "storage.list" => (s, handleStorageList cfg.root s.db s.files claims args)
  | "storage.get" => (s, handleStorageGet cfg s claims args)
  | "storage.put" => s.handleStoragePut cfg draw.storageNow claims args
  | "storage.delete" => s.handleStorageDelete cfg claims args
  | "push.enqueue" => handlePushEnqueue cfg s draw.env claims args
  | "data.listRows" => (s, handleDataListRows cfg s claims args)
  | "data.getRow" => (s, handleDataGetRow cfg s claims args)
  | "data.createRow" => handleDataCreateRow cfg s draw.env claims args
  | "data.updateRow" => handleDataUpdateRow cfg s draw.env claims args
  | "data.deleteRow" => handleDataDeleteRow cfg s draw.env claims args
  | _ => (s, .error ("unsupported peanut host action: " ++ action))

/-! ### Calls that are given up

The checks of a handler change nothing; `stop` counts the statements after them. -/

namespace HostStore

def interruptStoragePut (s : HostStore) (now : String) (claims : Option Claims) (args : Value)
    (stop : Nat) : HostStore :=
  Outcome.resume (storagePutChecks s.db claims args) (fun _ => s) fun (bucket, key, body) =>
  let call : PutObjectCall :=
    { bucket := bucket, key := key, data := asBytes body, contentType := some HOST_CONTENT_TYPE
      stage := .received }
  { s with files := (alone (PutObjectCall.step cfg.root cfg.digests) now stop s.files call).1 }

def interruptStorageDelete (s : HostStore) (claims : Option Claims) (args : Value) (stop : Nat) :
    HostStore :=
  Outcome.resume (storageDeleteChecks s.db claims args) (fun _ => s) fun (bucket, key) =>
  { s with files := (alone (DeleteObjectCall.step cfg.root) () stop s.files
      ⟨bucket, key, .received⟩).1 }

end HostStore

def interruptPushEnqueue (s : HostStore) (env : Env) (claims : Option Claims) (args : Value)
    (stop : Nat) : HostStore :=
  Outcome.resume (pushEnqueueChecks claims args) (fun _ => s) fun (claims, payload) =>
  { s with db := (alone EnqueuePushCall.step env stop s.db ⟨payload.input claims, .received⟩).1 }

def interruptDataCreateRow (s : HostStore) (env : Env) (claims : Option Claims) (args : Value)
    (stop : Nat) : HostStore :=
  Outcome.resume (dataCreateRowChecks claims args) (fun _ => s) fun (claims, table, data) =>
  { s with db := (alone (CreateRowCall.step cfg.platform) env stop s.db
      ⟨claims, table, { data := data }, .received⟩).1 }

def interruptDataUpdateRow (s : HostStore) (env : Env) (claims : Option Claims) (args : Value)
    (stop : Nat) : HostStore :=
  Outcome.resume (dataUpdateRowChecks claims args) (fun _ => s) fun (claims, table, rowId, data) =>
  { s with db := (alone (UpdateRowCall.step cfg.platform) env stop s.db
      ⟨claims, table, rowId, { data := data }, .received⟩).1 }

def interruptDataDeleteRow (s : HostStore) (env : Env) (claims : Option Claims) (args : Value)
    (stop : Nat) : HostStore :=
  Outcome.resume (dataDeleteRowChecks claims args) (fun _ => s) fun (claims, table, rowId) =>
  { s with db := (alone (DeleteRowCall.step cfg.platform) env stop s.db
      ⟨claims, table, rowId, .received⟩).1 }

/-- The store when a call is given up. -/
def interruptHostCall (s : HostStore) (draw : HostDraw) (claims : Option Claims) (action : String)
    (args : Value) (stop : Nat) : HostStore :=
  match action with
  | "storage.put" => s.interruptStoragePut cfg draw.storageNow claims args stop
  | "storage.delete" => s.interruptStorageDelete cfg claims args stop
  | "push.enqueue" => interruptPushEnqueue s draw.env claims args stop
  | "data.createRow" => interruptDataCreateRow cfg s draw.env claims args stop
  | "data.updateRow" => interruptDataUpdateRow cfg s draw.env claims args stop
  | "data.deleteRow" => interruptDataDeleteRow cfg s draw.env claims args stop
  | _ => s

/-- The host of a run; each call has its own draw. -/
def hostCalls (claims : Option Claims) (draws : Nat → HostDraw) : HostCalls (HostStore × Nat) where
  handle s call :=
    let r := handleHostCall cfg s.1 (draws s.2) claims call.1 call.2
    ((r.1, s.2 + 1), r.2)
  interrupt s stop call :=
    (interruptHostCall cfg s.1 (draws s.2) claims call.1 call.2 stop, s.2 + 1)

end Calls

/-! ### A call that is not given up -/

section Whole

variable {cfg : HostConfig} {s : HostStore} {claims : Option Claims}

theorem handleStoragePut_statements (now : String) (args : Value) :
    (s.handleStoragePut cfg now claims args).1 =
      s.interruptStoragePut cfg now claims args 6 := by
  rw [HostStore.handleStoragePut, Outcome.proceed_fst]
  refine congrArg (Outcome.resume _ _) (funext fun ⟨bucket, key, body⟩ => ?_)
  simp only [StorageFiles.putObject, putObject_alone]

theorem handleStorageDelete_statements (args : Value) :
    (s.handleStorageDelete cfg claims args).1 = s.interruptStorageDelete cfg claims args 2 := by
  rw [HostStore.handleStorageDelete, Outcome.proceed_fst]
  refine congrArg (Outcome.resume _ _) (funext fun ⟨bucket, key⟩ => ?_)
  simp only [deleteObject_alone]

theorem handlePushEnqueue_statements (env : Env) (args : Value) :
    (handlePushEnqueue cfg s env claims args).1 = interruptPushEnqueue s env claims args 8 := by
  rw [handlePushEnqueue, Outcome.proceed_fst]
  refine congrArg (Outcome.resume _ _) (funext fun ⟨claims, payload⟩ => ?_)
  simp only [enqueueMessage, enqueuePush_alone]

theorem handleDataCreateRow_statements (env : Env) (args : Value) :
    (handleDataCreateRow cfg s env claims args).1 =
      interruptDataCreateRow cfg s env claims args 9 := by
  rw [handleDataCreateRow, Outcome.proceed_fst]
  refine congrArg (Outcome.resume _ _) (funext fun ⟨claims, table, data⟩ => ?_)
  simp only [createRow_alone]

theorem handleDataUpdateRow_statements (env : Env) (args : Value) :
    (handleDataUpdateRow cfg s env claims args).1 =
      interruptDataUpdateRow cfg s env claims args 6 := by
  rw [handleDataUpdateRow, Outcome.proceed_fst]
  refine congrArg (Outcome.resume _ _) (funext fun ⟨claims, table, rowId, data⟩ => ?_)
  simp only [updateRow_alone]

theorem handleDataDeleteRow_statements (env : Env) (args : Value) :
    (handleDataDeleteRow cfg s env claims args).1 =
      interruptDataDeleteRow cfg s env claims args 5 := by
  rw [handleDataDeleteRow, Outcome.proceed_fst]
  refine congrArg (Outcome.resume _ _) (funext fun ⟨claims, table, rowId⟩ => ?_)
  simp only [deleteRow_alone]

/-- **All statements of a call** are what its handler does to the store. -/
theorem handleHostCall_eq_interrupted (draw : HostDraw) (action : String) (args : Value) :
    ∃ stop, (handleHostCall cfg s draw claims action args).1 =
      interruptHostCall cfg s draw claims action args stop := by
  unfold handleHostCall
  split
  · exact ⟨0, rfl⟩
  · exact ⟨0, rfl⟩
  · exact ⟨6, handleStoragePut_statements _ _⟩
  · exact ⟨2, handleStorageDelete_statements _⟩
  · exact ⟨8, handlePushEnqueue_statements _ _⟩
  · exact ⟨0, rfl⟩
  · exact ⟨0, rfl⟩
  · exact ⟨9, handleDataCreateRow_statements _ _⟩
  · exact ⟨6, handleDataUpdateRow_statements _ _⟩
  · exact ⟨5, handleDataDeleteRow_statements _ _⟩
  · refine ⟨0, ?_⟩
    simp_all only [interruptHostCall]

end Whole

end Peanut
