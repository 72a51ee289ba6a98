import Mathlib.Data.List.Sort
import Peanut.Data.Tables
import Peanut.Workspaces.Usage

/-!
# Buckets

`api/storage/policies.rs`: the buckets of an app and the policy each carries.
A deleted bucket keeps its row, with `deleted_at` set, and with it its name.
-/

namespace Peanut

open Relational

structure UpsertStorageBucketRequest where
  name : Option String
  publicRead : Bool
  allowClientUploads : Bool
  maxObjectBytes : Option Int
  allowedMimeTypes : Option (List String)
deriving DecidableEq, Repr

def appExists (db : Db) (appId : String) : Bool :=
  (db.apps.selectOne fun a => a.id == appId && a.deletedAt.isNone).isSome

/-- `SELECT … FROM storage_buckets WHERE app_id = ? AND name = ? AND deleted_at IS NULL`. -/
def fetchBucket (db : Db) (appId bucket : String) : Option StorageBucket :=
  db.storageBuckets.selectOne fun b => b.appId == appId && b.name == bucket && b.deletedAt.isNone

theorem fetchBucket_some {db : Db} {appId bucket : String} {b : StorageBucket}
    (h : fetchBucket db appId bucket = some b) :
    b ∈ db.storageBuckets ∧ b.appId = appId ∧ b.name = bucket ∧ b.deletedAt = none := by
  obtain ⟨hmem, hb⟩ := KeyedTable.selectOne_some h
  simp only [Bool.and_eq_true, beq_iff_eq, Option.isNone_iff_eq_none] at hb
  exact ⟨hmem, hb.1.1, hb.1.2, hb.2⟩

def normalizeBucketName (value : String) : Except String String := do
  let value := asciiLowercase (strTrimMatches '/' (trim value))
  Outcome.ensure (value != "") "bucket name is required"
  Outcome.ensure (decide (len value ≤ 63)) "bucket name must be 63 chars or fewer"
  Outcome.ensure (charsAll isNameChar value)
    "bucket name may only contain lowercase letters, numbers, hyphen, or underscore"
  return value

theorem normalizeBucketName_ok {value name : String} (h : normalizeBucketName value = .ok name) :
    name ≠ "" ∧ charsAll isNameChar name = true := by
  unfold normalizeBucketName at h
  obtain ⟨u, hne, h⟩ := Outcome.bind_eq_ok.mp h
  obtain ⟨-, -, h⟩ := Outcome.bind_eq_ok.mp h
  obtain ⟨u', hchars, hok⟩ := Outcome.bind_eq_ok.mp h
  rw [← Except.ok.inj hok]
  exact ⟨by simpa using hne, Outcome.ensure_eq_ok.mp hchars⟩

theorem normalizeBucketName_chars {value name : String} (h : normalizeBucketName value = .ok name) :
    charsAll isNameChar name = true := (normalizeBucketName_ok h).2

/-- `Vec::dedup`: of equal neighbours the first stays. -/
def dedupNeighbours (l : List String) : List String := l.destutter (· ≠ ·)

/-- The decoded result of `normalize_mime_types`.  The texts are checked trimmed
    and stored as they are. -/
def normalizeMimeTypes (value : Option (List String)) : Except String (List String) := do
  let mimeTypes := dedupNeighbours ((value.getD []).insertionSort fun a b => strLt b a = false)
  Outcome.checkAll
    (fun mimeType => Outcome.ensure (!isBlank mimeType && strContains "/" (trim mimeType))
      "allowed_mime_types must contain MIME types")
    mimeTypes
  return mimeTypes

theorem normalizeMimeTypes_not_blank {value : Option (List String)} {mimeTypes : List String}
    (h : normalizeMimeTypes value = .ok mimeTypes) :
    ∀ mimeType ∈ mimeTypes, isBlank mimeType = false := by
  unfold normalizeMimeTypes at h
  obtain ⟨u, hchecked, hok⟩ := Outcome.bind_eq_ok.mp h
  cases hok
  intro mimeType hmem
  have hone := Outcome.checkAll_eq_ok.mp hchecked mimeType hmem
  rw [Outcome.ensure_eq_ok, Bool.and_eq_true, Bool.not_eq_true'] at hone
  exact hone.1

/-- The part of a request that `create` and `update` check alike. -/
def bucketPolicyChecks (payload : UpsertStorageBucketRequest) : Except ApiError (List String) := do
  let mimeTypes ← (normalizeMimeTypes payload.allowedMimeTypes).mapError (jsonError .badRequest)
  Outcome.ensure ((payload.maxObjectBytes.map fun n => decide (0 < n)).getD true)
    (jsonError .badRequest "max_object_bytes must be positive")
  return mimeTypes

def createStorageBucketChecks (db : Db) (claims : Claims) (appId : String)
    (payload : UpsertStorageBucketRequest) : Except ApiError (String × List String) := do
  requireAdmin claims
  Outcome.ensure (appExists db appId) (jsonError .notFound "app not found")
  let name ← Outcome.require payload.name (jsonError .badRequest "name is required")
  let bucket ← (normalizeBucketName name).mapError (jsonError .badRequest)
  let mimeTypes ← bucketPolicyChecks payload
  return (bucket, mimeTypes)

/-- `INSERT INTO storage_buckets`: the name is free in the app, and the app exists. -/
def insertStorageBucket (db : Db) (b : StorageBucket) : Option Db :=
  if db.apps.hasKey b.appId then
    (db.storageBuckets.insert? b).map fun buckets => { db with storageBuckets := buckets }
  else none

def bucketAuditMetadata (b : StorageBucket) : Value :=
  .object [("allow_client_uploads", .bool b.allowClientUploads),
    ("public_read", .bool b.publicRead)]

def createStorageBucket (db : Db) (env : Env) (claims : Claims) (appId : String)
    (payload : UpsertStorageBucketRequest) : Db × Except ApiError (Reply StorageBucket) :=
  Outcome.proceed db (createStorageBucketChecks db claims appId payload) fun (bucket, mimeTypes) =>
    let row : StorageBucket :=
      { appId := appId, name := bucket, publicRead := payload.publicRead
        allowClientUploads := payload.allowClientUploads
        maxObjectBytes := payload.maxObjectBytes, allowedMimeTypes := mimeTypes
        createdAt := env.now, updatedAt := env.now, deletedAt := none }
    match insertStorageBucket db row with
    | none =>
        (db, .error (jsonError .conflict "storage bucket already exists or could not be created"))
    | some db' =>
        (db'.recordAuditLog env (env.uuid 0) (some appId) claims "storage.bucket.created"
          "storage_bucket" bucket (bucketAuditMetadata row),
          .ok { status := .created, body := row })

def updateStorageBucketChecks (claims : Claims) (bucket : String)
    (payload : UpsertStorageBucketRequest) : Except ApiError (String × List String) := do
  requireAdmin claims
  let bucket ← (normalizeBucketName bucket).mapError (jsonError .badRequest)
  let mimeTypes ← bucketPolicyChecks payload
  return (bucket, mimeTypes)

/-- `UPDATE storage_buckets SET … WHERE app_id = ? AND name = ? AND deleted_at IS NULL`. -/
def updateBuckets (db : Db) (appId bucket : String) (f : StorageBucket → StorageBucket)
    (hf : ∀ b, ((f b).appId, (f b).name) = (b.appId, b.name)) : Db :=
  { db with
    storageBuckets := db.storageBuckets.updateWhere
      (fun b => b.appId == appId && b.name == bucket && b.deletedAt.isNone) f hf }

theorem mem_updateBuckets {db : Db} {appId bucket : String} {f : StorageBucket → StorageBucket}
    {hf : ∀ b, ((f b).appId, (f b).name) = (b.appId, b.name)} {b : StorageBucket}
    (h : b ∈ (updateBuckets db appId bucket f hf).storageBuckets) :
    b ∈ db.storageBuckets ∨ ∃ old ∈ db.storageBuckets, b = f old := by
  obtain ⟨old, hold, rfl⟩ := (KeyedTable.mem_updateWhere hf).mp h
  split
  · exact .inr ⟨old, hold, rfl⟩
  · exact .inl hold

def StorageBucket.withPolicy (payload : UpsertStorageBucketRequest) (mimeTypes : List String)
    (now : String) (b : StorageBucket) : StorageBucket :=
  { b with
    publicRead := payload.publicRead
    allowClientUploads := payload.allowClientUploads
    maxObjectBytes := payload.maxObjectBytes
    allowedMimeTypes := mimeTypes
    updatedAt := now }

theorem StorageBucket.withPolicy_key (payload : UpsertStorageBucketRequest)
    (mimeTypes : List String) (now : String) (b : StorageBucket) :
    ((b.withPolicy payload mimeTypes now).appId, (b.withPolicy payload mimeTypes now).name) =
      (b.appId, b.name) := rfl

def StorageBucket.asDeleted (now : String) (b : StorageBucket) : StorageBucket :=
  { b with deletedAt := some now, updatedAt := now }

theorem StorageBucket.asDeleted_key (now : String) (b : StorageBucket) :
    ((b.asDeleted now).appId, (b.asDeleted now).name) = (b.appId, b.name) := rfl

def updateStorageBucket (db : Db) (env : Env) (claims : Claims) (appId bucketPath : String)
    (payload : UpsertStorageBucketRequest) : Db × Except ApiError (Reply StorageBucket) :=
  Outcome.proceed db (updateStorageBucketChecks claims bucketPath payload)
    fun (bucket, mimeTypes) =>
    match fetchBucket db appId bucket with
    | none => (db, .error (jsonError .notFound "storage bucket not found"))
    | some row =>
        let db' := updateBuckets db appId bucket (.withPolicy payload mimeTypes env.now)
          (StorageBucket.withPolicy_key payload mimeTypes env.now)
        let updated := row.withPolicy payload mimeTypes env.now
        (db'.recordAuditLog env (env.uuid 0) (some appId) claims "storage.bucket.updated"
          "storage_bucket" bucket (bucketAuditMetadata updated),
          .ok { status := .ok, body := updated })

/-- `delete_storage_bucket`: the name of the path is not normalised, and the
    objects stay. -/
def deleteStorageBucket (db : Db) (env : Env) (claims : Claims) (appId bucket : String) :
    Db × Except ApiError (Reply Unit) :=
  Outcome.proceed db (requireAdmin claims) fun _ =>
    match fetchBucket db appId bucket with
    | none => (db, .error (jsonError .notFound "storage bucket not found"))
    | some _ =>
        let db' := updateBuckets db appId bucket (.asDeleted env.now)
          (StorageBucket.asDeleted_key env.now)
        (db'.recordAuditLog env (env.uuid 0) (some appId) claims "storage.bucket.deleted"
          "storage_bucket" bucket (.object []),
          .ok { status := .noContent, body := () })

/-! ### The policy of a bucket -/

/-- `eq_ignore_ascii_case`. -/
def eqIgnoreAsciiCase (a b : String) : Bool := asciiLowercase a == asciiLowercase b

def mimeAllowed (policy : StorageBucket) (contentType : String) : Bool :=
  policy.allowedMimeTypes.isEmpty ||
    policy.allowedMimeTypes.any fun mimeType => eqIgnoreAsciiCase mimeType contentType

/-- Is the size within the limit of the bucket, if it has one? -/
def withinObjectLimit (policy : StorageBucket) (size : Nat) : Bool :=
  (policy.maxObjectBytes.map fun limit => decide ((size : Int) ≤ limit)).getD true

end Peanut
