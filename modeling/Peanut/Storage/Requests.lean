import Peanut.Auth.Principal
import Peanut.Storage.Buckets
import Peanut.Storage.Local

/-!
# Storage requests

The handlers that read and write objects: the SDK routes (`sdk.rs`), presigned
URLs (`presign.rs`), uploads in parts (`multipart.rs`) and the storage calls of
the function host (`functions/host.rs`).
-/

namespace Peanut

open Relational

/-- The database and the files. -/
structure StorageState where
  db : Db
  storage : LocalStorage

/-- The value of a header: the HTTP parser strips the white space around it. -/
abbrev HeaderText := { text : String // trim text = text }

/-- The `Content-Type` a request is taken to have. -/
def headerContentType (header : Option HeaderText) : String :=
  (header.map (·.val)).getD "application/octet-stream"

/-- The answer to a failed file operation: a missing file, an error whose text
    goes to the caller, or `fallback`. -/
def ioResponse (notFound : Option String) (shown : List IoErrorKind) (fallback : String)
    (e : IoError) : ApiError :=
  match notFound, e.kind with
  | some message, .notFound => jsonError .notFound message
  | _, kind =>
      if shown.contains kind then jsonError .badRequest e.message
      else jsonError .internalServerError fallback

/-! ### The SDK routes -/

def canWrite (auth : SdkAuthContext) (policy : StorageBucket) : Bool :=
  auth.principal.hasScope "admin:all" || auth.principal.hasScope "storage:write" ||
    (policy.allowClientUploads && auth.user.isSome && auth.principal.hasScope "storage:read")

def canDelete (auth : SdkAuthContext) (_policy : StorageBucket) : Bool :=
  auth.principal.hasScope "admin:all" || auth.principal.hasScope "storage:write"

def loadPolicy (db : Db) (appId bucket : String) : Except ApiError StorageBucket :=
  Outcome.require (fetchBucket db appId bucket) (jsonError .notFound "storage bucket not found")

/-- The claims under which a storage request is logged. -/
def auditClaims (auth : SdkAuthContext) (appId : String) : Claims :=
  auth.user.getD
    { sub := auth.principal.actorId, appId := appId, exp := 0, isAdmin := auth.principal.isAdmin }

/-- The size of the object in the way, 0 when `head_object` fails. -/
def previousSize (st : LocalStorage) (os : Os) (bucket : Namespace) (key : String) : Int :=
  match st.headObject os bucket key with
  | .ok metadata => metadata.contentLength
  | .error _ => 0

/-- The policy checks of `put_sdk_object`. -/
def putSdkPolicy (db : Db) (auth : SdkAuthContext) (appId bucket contentType : String)
    (size : Nat) : Except ApiError StorageBucket := do
  let policy ← loadPolicy db appId bucket
  Outcome.ensure (canWrite auth policy) (jsonError .forbidden "storage write scope required")
  Outcome.ensure (withinObjectLimit policy size)
    (jsonError .payloadTooLarge "object exceeds bucket limit")
  Outcome.ensure (mimeAllowed policy contentType)
    (jsonError .badRequest "content type is not allowed")
  return policy

/-- The checks of `put_sdk_object`; the result is the workspace to charge. -/
def putSdkChecks (s : StorageState) (env : Env) (os : Os) (auth : SdkAuthContext)
    (appId bucket key contentType : String) (size : Nat) : Except ApiError String := do
  let _ ← putSdkPolicy s.db auth appId bucket contentType size
  requireAppResourceAvailable s.db env appId .storageBytes
    (max (size - previousSize s.storage os ⟨appId, bucket⟩ key) 0)

def putSdkObject (dg : Digests) (s : StorageState) (env : Env) (os : Os) (auth : SdkAuthContext)
    (appId bucket key : String) (header : Option HeaderText) (body : List UInt8) :
    StorageState × Except ApiError (Reply StorageObjectMetadata) :=
  let contentType := headerContentType header
  Outcome.proceed s (putSdkChecks s env os auth appId bucket key contentType body.length)
    fun workspaceId =>
  Outcome.proceed s
    ((s.storage.putObject dg os ⟨appId, bucket⟩ key body (some contentType)).mapError
      (ioResponse none [.invalidInput] "failed to save object"))
    fun (metadata, storage) =>
  let db := recordUsage s.db env workspaceId .storageBytes
    (metadata.contentLength - previousSize s.storage os ⟨appId, bucket⟩ key)
  let db := db.recordAuditLog env (env.uuid 0) (some appId) (auditClaims auth appId)
    "storage.object.put" "storage_object" (bucket ++ "/" ++ key)
    (.object [("bucket", .string bucket), ("key", .string key),
      ("size", .number (.ofInt metadata.contentLength))])
  ({ s with db := db, storage := storage }, .ok { status := .created, body := metadata })

/-- The checks of `delete_sdk_object`; the result is the size of the object. -/
def deleteSdkChecks (s : StorageState) (os : Os) (auth : SdkAuthContext)
    (appId bucket key : String) : Except ApiError Nat := do
  let policy ← loadPolicy s.db appId bucket
  Outcome.ensure (canDelete auth policy) (jsonError .forbidden "storage delete scope required")
  let metadata ← (s.storage.headObject os ⟨appId, bucket⟩ key).mapError
    (ioResponse (some "object not found") [.invalidInput] "failed to load object")
  return metadata.contentLength

/-- The usage a deletion gives back, when the app has a workspace. -/
def releaseUsage (db : Db) (env : Env) (appId : String) (size : Nat) : Db :=
  match appWorkspaceId db appId with
  | some workspaceId => recordUsage db env workspaceId .storageBytes (-(size : Int))
  | none => db

def deleteSdkObject (s : StorageState) (env : Env) (os : Os) (auth : SdkAuthContext)
    (appId bucket key : String) : StorageState × Except ApiError (Reply Unit) :=
  Outcome.proceed s (deleteSdkChecks s os auth appId bucket key) fun size =>
  Outcome.proceed s
    ((s.storage.deleteObject os ⟨appId, bucket⟩ key).mapError
      (ioResponse (some "object not found") [.invalidInput] "failed to delete object"))
    fun storage =>
  let db := (releaseUsage s.db env appId size).recordAuditLog env (env.uuid 0) (some appId)
    (auditClaims auth appId) "storage.object.deleted" "storage_object" (bucket ++ "/" ++ key)
    (.object [("bucket", .string bucket), ("key", .string key)])
  ({ s with db := db, storage := storage }, .ok { status := .noContent, body := () })

/-! ### Presigned URLs -/

structure PresignClaims where
  appId : String
  bucket : String
  key : String
  operation : String
  exp : Int
deriving DecidableEq, Repr

/-- How tokens are signed: `signPayload` is the hexadecimal HMAC-SHA-256 under the
    server's secret, `encodeClaims` and `decodeClaims` the URL-safe Base64 of the
    JSON text of the claims. -/
structure Signer where
  signPayload : String → String
  encodeClaims : PresignClaims → String
  decodeClaims : String → Option PresignClaims

def PRESIGN_TOKEN_TTL_MINUTES : Int := 15

def signPresignToken (sg : Signer) (claims : PresignClaims) : String :=
  sg.encodeClaims claims ++ "." ++ sg.signPayload (sg.encodeClaims claims)

def verifyPresignToken (sg : Signer) (os : Os) (token appId bucket key operation : String) :
    Except String PresignClaims := do
  let parts ← Outcome.require (splitOnce '.' token) "invalid presigned token"
  Outcome.ensure (sg.signPayload parts.1 == parts.2) "invalid presigned token signature"
  let claims ← Outcome.require (sg.decodeClaims parts.1) "invalid presigned token payload"
  Outcome.ensure (claims.appId == appId && claims.bucket == bucket && claims.key == key)
    "presigned token does not match request"
  Outcome.ensure (claims.operation == operation) "presigned token operation mismatch"
  Outcome.ensure (decide (os.timestamp ≤ claims.exp)) "presigned token has expired"
  return claims

/-- `can_presign` and the `can_write` of uploads in parts. -/
def canWriteObjects (auth : SdkAuthContext) : Bool :=
  auth.principal.hasScope "admin:all" || auth.principal.hasScope "storage:write"

def ensureBucketExists (db : Db) (appId bucket : String) : Except ApiError Unit :=
  Outcome.ensure (fetchBucket db appId bucket).isSome
    (jsonError .notFound "storage bucket not found")

structure PresignUrlResponse where
  url : String
  token : String
  expiresAt : Int
deriving DecidableEq, Repr

/-- `issue_presigned_url`, which does not use the content type of the request. -/
def issuePresignedUrl (sg : Signer) (os : Os) (appId bucket key operation : String) :
    PresignUrlResponse :=
  let expiresAt := os.timestamp + 60 * PRESIGN_TOKEN_TTL_MINUTES
  let token := signPresignToken sg
    { appId := appId, bucket := bucket, key := key, operation := operation, exp := expiresAt }
  { url := "/api/apps/" ++ appId ++ "/storage/buckets/" ++ bucket ++ "/presigned-objects/" ++ key ++
      "?presign_token=" ++ token
    token := token, expiresAt := expiresAt }

def createPresignedUploadUrl (sg : Signer) (s : StorageState) (os : Os) (auth : SdkAuthContext)
    (appId bucket key : String) : Except ApiError (Reply PresignUrlResponse) := do
  Outcome.ensure (canWriteObjects auth) (jsonError .forbidden "storage write scope required")
  Outcome.ensure (!isBlank key) (jsonError .badRequest "key is required")
  ensureBucketExists s.db appId bucket
  return { status := .ok, body := issuePresignedUrl sg os appId bucket key "upload" }

def presignedUploadChecks (sg : Signer) (os : Os) (appId bucket key token : String) :
    Except ApiError Unit := do
  let claims ← (verifyPresignToken sg os token appId bucket key "upload").mapError
    (jsonError .unauthorized)
  Outcome.ensure (claims.operation == "upload")
    (jsonError .forbidden "presigned token is not valid for upload")

theorem verifyPresignToken_signed {sg : Signer} {claims : PresignClaims}
    (hdecode : sg.decodeClaims (sg.encodeClaims claims) = some claims)
    (hdot : '.' ∉ (sg.encodeClaims claims).toList) {os : Os} (hexp : os.timestamp ≤ claims.exp) :
    verifyPresignToken sg os (signPresignToken sg claims) claims.appId claims.bucket claims.key
      claims.operation = .ok claims := by
  have hsplit : splitOnce '.' (signPresignToken sg claims) =
      some (sg.encodeClaims claims, sg.signPayload (sg.encodeClaims claims)) :=
    splitOnce_append hdot _
  unfold verifyPresignToken
  rw [hsplit]
  simp only [Outcome.require_some, Outcome.ok_bind, beq_self_eq_true, Outcome.ensure_true, hdecode,
    Bool.and_self, hexp, decide_true, pure, Except.pure]

/-- A token that was issued is accepted until it expires, whatever has happened to
    the bucket since. -/
theorem issued_token_accepted {sg : Signer}
    (hdecode : ∀ claims, sg.decodeClaims (sg.encodeClaims claims) = some claims)
    (hdot : ∀ claims, '.' ∉ (sg.encodeClaims claims).toList) (issued used : Os)
    (appId bucket key : String)
    (hexp : used.timestamp ≤ issued.timestamp + 60 * PRESIGN_TOKEN_TTL_MINUTES) :
    presignedUploadChecks sg used appId bucket key
      (issuePresignedUrl sg issued appId bucket key "upload").token = .ok () := by
  let claims : PresignClaims :=
    { appId := appId, bucket := bucket, key := key, operation := "upload"
      exp := issued.timestamp + 60 * PRESIGN_TOKEN_TTL_MINUTES }
  have hverified := verifyPresignToken_signed (hdecode claims) (hdot claims) hexp
  have htoken : (issuePresignedUrl sg issued appId bucket key "upload").token =
      signPresignToken sg claims := rfl
  rw [presignedUploadChecks, htoken, hverified]
  rfl

/-- `put_presigned_object`: the token alone decides. -/
def putPresignedObject (dg : Digests) (sg : Signer) (s : StorageState) (os : Os)
    (appId bucket key token : String) (header : Option HeaderText) (body : List UInt8) :
    StorageState × Except ApiError (Reply StorageObjectMetadata) :=
  Outcome.proceed s (presignedUploadChecks sg os appId bucket key token) fun _ =>
  Outcome.proceed s
    ((s.storage.putObject dg os ⟨appId, bucket⟩ key body (some (headerContentType header))).mapError
      (ioResponse none [.invalidInput] "failed to save object"))
    fun (metadata, storage) =>
  ({ s with storage := storage }, .ok { status := .created, body := metadata })

/-! ### Uploads in parts -/

def multipartChecks (db : Db) (auth : SdkAuthContext) (appId bucket : String) :
    Except ApiError Unit := do
  Outcome.ensure (canWriteObjects auth) (jsonError .forbidden "storage write scope required")
  ensureBucketExists db appId bucket

def createMultipartUploadChecks (db : Db) (auth : SdkAuthContext) (appId bucket key : String) :
    Except ApiError Unit := do
  Outcome.ensure (canWriteObjects auth) (jsonError .forbidden "storage write scope required")
  Outcome.ensure (!isBlank key) (jsonError .badRequest "key is required")
  ensureBucketExists db appId bucket

def createMultipartUpload (s : StorageState) (env : Env) (os : Os) (auth : SdkAuthContext)
    (appId bucket key : String) (contentType : Option String) :
    StorageState × Except ApiError (Reply MultipartUpload) :=
  Outcome.proceed s (createMultipartUploadChecks s.db auth appId bucket key) fun _ =>
  Outcome.proceed s
    ((s.storage.createMultipartUpload os (env.uuid 0) ⟨appId, bucket⟩ key contentType).mapError
      (ioResponse none [.invalidInput] "failed to create multipart upload"))
    fun (upload, storage) =>
  ({ s with storage := storage }, .ok { status := .created, body := upload })

def uploadMultipartPart (dg : Digests) (s : StorageState) (os : Os) (auth : SdkAuthContext)
    (appId bucket uploadId : String) (partNumber : Nat) (keyHeader : Option HeaderText)
    (body : List UInt8) : StorageState × Except ApiError (Reply MultipartUploadPart) :=
  Outcome.proceed s (multipartChecks s.db auth appId bucket) fun _ =>
  Outcome.proceed s
    (Outcome.require ((keyHeader.map fun value => trim value.val).filter fun value => value != "")
      (jsonError .badRequest "x-peanut-object-key header is required"))
    fun key =>
  Outcome.proceed s
    ((s.storage.putMultipartPart dg os ⟨appId, bucket⟩ key uploadId partNumber body).mapError
      (ioResponse (some "multipart upload not found") [.invalidInput]
        "failed to upload multipart part"))
    fun (part, storage) =>
  ({ s with storage := storage }, .ok { status := .ok, body := part })

def completeMultipartUpload (dg : Digests) (s : StorageState) (os : Os) (auth : SdkAuthContext)
    (appId bucket key uploadId : String) (parts : List CompletedMultipartPart) :
    StorageState × Except ApiError (Reply StorageObjectMetadata) :=
  Outcome.proceed s (multipartChecks s.db auth appId bucket) fun _ =>
  Outcome.proceed s
    ((s.storage.completeMultipartUpload dg os ⟨appId, bucket⟩ key uploadId parts).mapError
      (ioResponse (some "multipart upload not found") [.invalidInput, .invalidData]
        "failed to complete multipart upload"))
    fun (metadata, storage) =>
  ({ s with storage := storage }, .ok { status := .created, body := metadata })

def abortMultipartUpload (s : StorageState) (os : Os) (auth : SdkAuthContext)
    (appId bucket key uploadId : String) : StorageState × Except ApiError (Reply Unit) :=
  Outcome.proceed s (multipartChecks s.db auth appId bucket) fun _ =>
  Outcome.proceed s
    ((s.storage.abortMultipartUpload os ⟨appId, bucket⟩ key uploadId).mapError
      (ioResponse (some "multipart upload not found") [.invalidInput]
        "failed to abort multipart upload"))
    fun storage =>
  ({ s with storage := storage }, .ok { status := .noContent, body := () })

/-! ### The function host -/

def requireClaims (claims : Option Claims) : Except String Claims :=
  Outcome.require claims "authenticated function context required for peanut host bindings"

def requiredString (args : Value) (field : String) : Except String String :=
  Outcome.require
    ((((args.member field).bind Value.asStr).map trim).filter fun value => value != "")
    (field ++ " is required")

def ensureStorageBucket (db : Db) (appId bucket : String) : Except String Unit :=
  Outcome.ensure (fetchBucket db appId (trim bucket)).isSome "storage bucket not found"

def appStorageBucket (appId bucket : String) : Namespace :=
  ⟨appId, strTrimMatches '/' (trim bucket)⟩

/-- What `storage.put` is asked to write: the bucket, the key and the body. -/
def storagePutChecks (db : Db) (claims : Option Claims) (args : Value) :
    Except String (Namespace × String × String) := do
  let claims ← requireClaims claims
  let bucket ← requiredString args "bucket"
  let key ← requiredString args "key"
  let body ← requiredString args "body"
  ensureStorageBucket db claims.appId bucket
  return (appStorageBucket claims.appId bucket, key, body)

def HOST_CONTENT_TYPE : String := "text/plain; charset=utf-8"

/-- The write of `storage.put`; the host answers with the key, the ETag and the size. -/
def storagePut (dg : Digests) (s : StorageState) (os : Os) (claims : Option Claims) (args : Value) :
    StorageState × Except String (String × StorageObjectMetadata) :=
  Outcome.proceed s (storagePutChecks s.db claims args) fun (bucket, key, body) =>
  Outcome.proceed s
    ((s.storage.putObject dg os bucket key (asBytes body) (some HOST_CONTENT_TYPE)).mapError
      fun e => "storage.put failed: " ++ e.message)
    fun (metadata, storage) => ({ s with storage := storage }, .ok (key, metadata))

def handleStoragePut (dg : Digests) (s : StorageState) (os : Os) (claims : Option Claims)
    (args : Value) : StorageState × Except String Value :=
  let result := storagePut dg s os claims args
  (result.1, result.2.map fun (key, metadata) =>
    .object [("etag", .string metadata.etag), ("key", .string key),
      ("size", .number (.ofInt metadata.contentLength))])

def storageDeleteChecks (db : Db) (claims : Option Claims) (args : Value) :
    Except String (Namespace × String) := do
  let claims ← requireClaims claims
  let bucket ← requiredString args "bucket"
  let key ← requiredString args "key"
  ensureStorageBucket db claims.appId bucket
  return (appStorageBucket claims.appId bucket, key)

def handleStorageDelete (s : StorageState) (os : Os) (claims : Option Claims) (args : Value) :
    StorageState × Except String Value :=
  Outcome.proceed s (storageDeleteChecks s.db claims args) fun (bucket, key) =>
  Outcome.proceed s
    ((s.storage.deleteObject os bucket key).mapError fun e =>
      "storage.delete failed: " ++ e.message)
    fun storage =>
  ({ s with storage := storage }, .ok (.object [("message", .string "object deleted")]))

end Peanut
