import Peanut.Library.KeyedTable
import Peanut.Library.Outcome
import Peanut.Common

/-!
# Local storage

`storage/local`: objects, their metadata and the uploads in parts, which the
source keeps as files under one root directory.

A namespace `{app_id}/{bucket}` is kept as the pair it is made from: a bucket
name has no `/`, so different pairs are different directories.  What a request
takes from the operating system is a parameter (`Os`): the clock, and whether
reads and writes are carried out.  A refused operation leaves the files as they
were.
-/

namespace Peanut

open Relational

/-! ### Paths and errors -/

inductive IoErrorKind where
  | notFound
  | invalidInput
  | invalidData
  | other
deriving DecidableEq, Repr

structure IoError where
  kind : IoErrorKind
  message : String
deriving DecidableEq, Repr

/-- The clock, and the errors with which reads and writes of files end, if they do. -/
structure Os where
  now : String
  timestamp : Int
  readError : Option IoError := none
  writeError : Option IoError := none
deriving DecidableEq, Repr

/-- The digests of third-party crates: `sha256Etag` and `partEtag` are the
    hexadecimal SHA-256 of an object and MD5 of a part, `compositeEtag` the MD5
    of the digests of some parts followed by their number. -/
structure Digests where
  sha256Etag : List UInt8 → String
  partEtag : List UInt8 → String
  compositeEtag : List String → String

/-- The directory `{app_id}/{bucket}`. -/
structure Namespace where
  appId : String
  bucket : String
deriving DecidableEq, Repr

/-- An object's place: its directory and the components of its key. -/
structure ObjectPath where
  namespace_ : Namespace
  key : List String
deriving DecidableEq, Repr

def emptyKeyError : IoError :=
  { kind := .invalidInput, message := "storage key cannot be empty" }

/-- `normalize_object_key`: the components of the key, as `Path::components` gives them. -/
def normalizeObjectKey (key : String) : Except IoError (List String) := do
  let trimmed := trimStartMatches '/' (trim key)
  Outcome.ensure (trimmed != "") emptyKeyError
  let parts := (splitAt '/' trimmed).filter fun part => part != "" && part != "."
  Outcome.ensure (parts.all (· != ".."))
    { kind := .invalidInput, message := "storage key contains invalid path segments" }
  Outcome.ensure (!parts.isEmpty) emptyKeyError
  return parts

def resolveObjectPath (bucket : Namespace) (key : String) : Except IoError ObjectPath := do
  let parts ← normalizeObjectKey key
  return { namespace_ := bucket, key := parts }

/-- The text of a normalised key, `to_string_lossy().replace('\\', "/")`. -/
def keyText (parts : List String) : String :=
  String.ofList ((("/".intercalate parts).toList).map fun c => if c == '\\' then '/' else c)

def resolveUploadId (uploadId : String) : Except IoError String := do
  let trimmed := trim uploadId
  Outcome.ensure
    (trimmed != "" && !strContains "/" trimmed && !strContains ".." trimmed)
    { kind := .invalidInput, message := "invalid multipart upload id" }
  return trimmed

/-! ### Objects -/

structure StorageObjectMetadata where
  contentType : String
  contentLength : Nat
  etag : String
  createdAt : String
  updatedAt : String
deriving DecidableEq, Repr

structure StoredObject where
  path : ObjectPath
  data : List UInt8
  metadata : StorageObjectMetadata
deriving DecidableEq, Repr

structure MultipartUpload where
  uploadId : String
  bucket : Namespace
  key : String
  contentType : String
  initiatedAt : String
deriving DecidableEq, Repr

structure MultipartUploadPart where
  partNumber : Nat
  etag : String
  size : Nat
deriving DecidableEq, Repr

/-- The two files of a part. -/
structure StoredPart where
  bucket : Namespace
  uploadId : String
  metadata : MultipartUploadPart
  data : List UInt8
deriving DecidableEq, Repr

structure CompletedMultipartPart where
  partNumber : Nat
  etag : String
deriving DecidableEq, Repr

structure LocalStorage where
  objects : KeyedTable StoredObject (·.path) := .empty
  uploads : KeyedTable MultipartUpload (fun u => (u.bucket, u.uploadId)) := .empty
  parts : KeyedTable StoredPart (fun p => (p.bucket, p.uploadId, p.metadata.partNumber)) := .empty

/-- The content type an object is stored with. -/
def storedContentType (contentType : Option String) : String :=
  ((contentType.map trim).filter fun value => value != "").getD "application/octet-stream"

namespace LocalStorage

def refusal (error : Option IoError) : Except IoError Unit :=
  match error with
  | some e => .error e
  | none => .ok ()

@[simp] theorem refusal_eq_ok {error : Option IoError} {u : Unit} :
    refusal error = .ok u ↔ error = none := by
  cases error <;> simp [refusal]

def headObject (st : LocalStorage) (os : Os) (bucket : Namespace) (key : String) :
    Except IoError StorageObjectMetadata := do
  let path ← resolveObjectPath bucket key
  refusal os.readError
  let object ← Outcome.require (st.objects.find? path)
    { kind := .notFound, message := "No such file or directory (os error 2)" }
  return object.metadata

/-- `put_object`: the data and the metadata are written in the place of what was there. -/
def putObject (dg : Digests) (st : LocalStorage) (os : Os) (bucket : Namespace) (key : String)
    (data : List UInt8) (contentType : Option String) :
    Except IoError (StorageObjectMetadata × LocalStorage) := do
  let path ← resolveObjectPath bucket key
  refusal os.writeError
  let previous := if os.readError.isNone then st.objects.find? path else none
  let metadata : StorageObjectMetadata :=
    { contentType := storedContentType contentType
      contentLength := data.length
      etag := dg.sha256Etag data
      createdAt := (previous.map fun o => o.metadata.createdAt).getD os.now
      updatedAt := os.now }
  return (metadata,
    { st with objects := st.objects.upsert { path := path, data := data, metadata := metadata } })

def deleteObject (st : LocalStorage) (os : Os) (bucket : Namespace) (key : String) :
    Except IoError LocalStorage := do
  let path ← resolveObjectPath bucket key
  refusal os.writeError
  let _ ← Outcome.require (st.objects.find? path)
    { kind := .notFound, message := "No such file or directory (os error 2)" }
  return { st with objects := st.objects.erase path }

/-! ### Uploads in parts -/

def MIN_MULTIPART_PART_SIZE_BYTES : Nat := 5 * 1024 * 1024

/-- `create_multipart_upload`; `uploadId` is the id drawn. -/
def createMultipartUpload (st : LocalStorage) (os : Os) (uploadId : String) (bucket : Namespace)
    (key : String) (contentType : Option String) :
    Except IoError (MultipartUpload × LocalStorage) := do
  let parts ← normalizeObjectKey key
  let upload : MultipartUpload :=
    { uploadId := uploadId, bucket := bucket, key := keyText parts
      contentType := storedContentType contentType, initiatedAt := os.now }
  refusal os.writeError
  return (upload, { st with uploads := st.uploads.upsert upload })

def readMultipartUpload (st : LocalStorage) (os : Os) (bucket : Namespace) (key uploadId : String) :
    Except IoError MultipartUpload := do
  let id ← resolveUploadId uploadId
  refusal os.readError
  let upload ← Outcome.require (st.uploads.find? (bucket, id))
    { kind := .notFound, message := "No such file or directory (os error 2)" }
  let parts ← normalizeObjectKey key
  Outcome.ensure (upload.bucket == bucket && upload.key == keyText parts)
    { kind := .notFound, message := "multipart upload not found for object" }
  return upload

def putMultipartPart (dg : Digests) (st : LocalStorage) (os : Os) (bucket : Namespace)
    (key uploadId : String) (partNumber : Nat) (data : List UInt8) :
    Except IoError (MultipartUploadPart × LocalStorage) := do
  Outcome.ensure (partNumber != 0)
    { kind := .invalidInput, message := "multipart part number must be greater than zero" }
  let upload ← st.readMultipartUpload os bucket key uploadId
  refusal os.writeError
  let metadata : MultipartUploadPart :=
    { partNumber := partNumber, etag := dg.partEtag data, size := data.length }
  return (metadata,
    { st with
      parts := st.parts.upsert
        { bucket := bucket, uploadId := upload.uploadId, metadata := metadata, data := data } })

/-- The loop of `complete_multipart_upload`: the data of the parts one after the
    other, and their ETags. -/
def assembleParts (st : LocalStorage) (bucket : Namespace) (uploadId : String) :
    Nat → List CompletedMultipartPart → Except IoError (List UInt8 × List String)
  | _, [] => .ok ([], [])
  | previousPartNumber, part :: rest => do
      Outcome.ensure (part.partNumber != 0)
        { kind := .invalidInput, message := "multipart part number must be greater than zero" }
      Outcome.ensure (decide (previousPartNumber < part.partNumber))
        { kind := .invalidInput, message := "multipart parts must be in ascending order" }
      let stored ← Outcome.require (st.parts.find? (bucket, uploadId, part.partNumber))
        { kind := .notFound, message := "No such file or directory (os error 2)" }
      Outcome.ensure (stored.metadata.etag == part.etag)
        { kind := .invalidData
          message := "multipart part " ++ toString part.partNumber ++ " etag mismatch" }
      Outcome.ensure
        (rest.isEmpty || decide (MIN_MULTIPART_PART_SIZE_BYTES ≤ stored.metadata.size))
        { kind := .invalidInput
          message := "multipart part " ++ toString part.partNumber ++
            " is smaller than the required 5 MiB minimum for non-final parts" }
      let (data, etags) ← assembleParts st bucket uploadId part.partNumber rest
      return (stored.data ++ data, stored.metadata.etag :: etags)

def abortMultipartUpload (st : LocalStorage) (os : Os) (bucket : Namespace)
    (key uploadId : String) : Except IoError LocalStorage := do
  let upload ← st.readMultipartUpload os bucket key uploadId
  refusal os.writeError
  return { st with
    uploads := st.uploads.erase (bucket, upload.uploadId)
    parts := st.parts.deleteWhere fun p => p.bucket == bucket && p.uploadId == upload.uploadId }

/-- The manifest, the data and the ETags of the upload to complete. -/
def multipartContents (st : LocalStorage) (os : Os) (bucket : Namespace) (key uploadId : String)
    (parts : List CompletedMultipartPart) :
    Except IoError (MultipartUpload × List UInt8 × List String) := do
  Outcome.ensure (!parts.isEmpty)
    { kind := .invalidInput, message := "multipart completion requires at least one part" }
  let upload ← st.readMultipartUpload os bucket key uploadId
  let contents ← st.assembleParts bucket upload.uploadId 0 parts
  return (upload, contents)

def completeMultipartUpload (dg : Digests) (st : LocalStorage) (os : Os) (bucket : Namespace)
    (key uploadId : String) (parts : List CompletedMultipartPart) :
    Except IoError (StorageObjectMetadata × LocalStorage) := do
  let (upload, assembled, etags) ← st.multipartContents os bucket key uploadId parts
  let (metadata, st) ← putObject dg st os bucket upload.key assembled (some upload.contentType)
  let metadata := { metadata with etag := dg.compositeEtag etags }
  let path ← resolveObjectPath bucket upload.key
  let st := { st with
    objects := st.objects.upsert { path := path, data := assembled, metadata := metadata } }
  let st ← st.abortMultipartUpload os bucket key uploadId
  return (metadata, st)

/-! ### What the operations do -/

/-- The place of a key, when the operating system lets the request write. -/
def writablePath (os : Os) (bucket : Namespace) (key : String) : Option ObjectPath :=
  if os.writeError.isNone then (resolveObjectPath bucket key).toOption else none

variable {os : Os} {bucket : Namespace} {key : String} {path : ObjectPath}

theorem writablePath_eq_some :
    writablePath os bucket key = some path ↔
      os.writeError = none ∧ resolveObjectPath bucket key = .ok path := by
  unfold writablePath
  cases os.writeError with
  | none => cases resolveObjectPath bucket key <;> simp [Except.toOption]
  | some e => simp

theorem resolveObjectPath_namespace
    (h : resolveObjectPath bucket key = .ok path) : path.namespace_ = bucket := by
  unfold resolveObjectPath at h
  obtain ⟨parts, -, hok⟩ := Outcome.bind_eq_ok.mp h
  cases hok
  rfl

theorem writablePath_namespace
    (h : writablePath os bucket key = some path) : path.namespace_ = bucket :=
  resolveObjectPath_namespace (writablePath_eq_some.mp h).2

/-- The size of the object at a path, 0 when there is none. -/
def sizeAt (st : LocalStorage) (path : ObjectPath) : Int :=
  st.objects.weightAt (fun o => (o.metadata.contentLength : Int)) path

/-- A write with a usable key and a willing operating system stores the data in
    the place of the key; any other write fails. -/
theorem putObject_spec (dg : Digests) (st : LocalStorage) (os : Os) (bucket : Namespace)
    (key : String) (data : List UInt8) (contentType : Option String) :
    (∃ path metadata, writablePath os bucket key = some path ∧
        metadata.contentLength = data.length ∧
        metadata.contentType = storedContentType contentType ∧
        st.putObject dg os bucket key data contentType = .ok (metadata,
          { st with objects := st.objects.upsert ⟨path, data, metadata⟩ })) ∨
      (writablePath os bucket key = none ∧
        ∃ e, st.putObject dg os bucket key data contentType = .error e) := by
  unfold putObject writablePath refusal
  cases os.writeError with
  | none =>
    cases resolveObjectPath bucket key with
    | ok path => exact .inl ⟨path, _, rfl, rfl, rfl, rfl⟩
    | error e => exact .inr ⟨rfl, e, rfl⟩
  | some e =>
    cases resolveObjectPath bucket key with
    | ok path => exact .inr ⟨rfl, e, rfl⟩
    | error e => exact .inr ⟨rfl, e, rfl⟩

variable {st st' : LocalStorage}

theorem headObject_eq_ok {metadata : StorageObjectMetadata} :
    st.headObject os bucket key = .ok metadata ↔
      ∃ path o, resolveObjectPath bucket key = .ok path ∧ os.readError = none ∧
        st.objects.find? path = some o ∧ o.metadata = metadata := by
  unfold headObject
  simp only [Outcome.bind_eq_ok, refusal_eq_ok, Outcome.require_eq_ok, pure, Except.pure,
    Except.ok.injEq]
  constructor
  · rintro ⟨path, hpath, -, hread, o, ho, hm⟩
    exact ⟨path, o, hpath, hread, ho, hm⟩
  · rintro ⟨path, o, hpath, hread, ho, hm⟩
    exact ⟨path, hpath, (), hread, o, ho, hm⟩

theorem deleteObject_eq_ok :
    st.deleteObject os bucket key = .ok st' ↔
      ∃ path o, writablePath os bucket key = some path ∧ st.objects.find? path = some o ∧
        st' = { st with objects := st.objects.erase path } := by
  unfold deleteObject
  simp only [Outcome.bind_eq_ok, refusal_eq_ok, Outcome.require_eq_ok, pure, Except.pure,
    Except.ok.injEq, writablePath_eq_some]
  constructor
  · rintro ⟨path, hpath, -, hwrite, o, ho, hst⟩
    exact ⟨path, o, ⟨hwrite, hpath⟩, ho, hst.symm⟩
  · rintro ⟨path, o, ⟨hwrite, hpath⟩, ho, hst⟩
    exact ⟨path, hpath, (), hwrite, o, ho, hst.symm⟩

theorem readMultipartUpload_congr (h : st'.uploads = st.uploads) (os : Os)
    (bucket : Namespace) (key uploadId : String) :
    st'.readMultipartUpload os bucket key uploadId =
      st.readMultipartUpload os bucket key uploadId := by
  unfold readMultipartUpload
  rw [h]

/-- An upload is completed when its manifest and parts are in order and the place
    of its key can be written; the object then holds the parts. -/
theorem completeMultipartUpload_eq_ok {dg : Digests} {key uploadId : String}
    {parts : List CompletedMultipartPart} {metadata : StorageObjectMetadata}
    (h : st.completeMultipartUpload dg os bucket key uploadId parts = .ok (metadata, st')) :
    ∃ upload data etags path,
      st.multipartContents os bucket key uploadId parts = .ok (upload, data, etags) ∧
        writablePath os bucket upload.key = some path ∧
        metadata.contentLength = data.length ∧
        metadata.contentType = storedContentType (some upload.contentType) ∧
        st'.objects = st.objects.upsert ⟨path, data, metadata⟩ := by
  unfold completeMultipartUpload at h
  obtain ⟨⟨upload, data, etags⟩, hcontents, h⟩ := Outcome.bind_eq_ok.mp h
  obtain ⟨⟨written, st1⟩, hput, h⟩ := Outcome.bind_eq_ok.mp h
  obtain ⟨path, hpath, h⟩ := Outcome.bind_eq_ok.mp h
  obtain ⟨st2, habort, hok⟩ := Outcome.bind_eq_ok.mp h
  cases hok
  rcases putObject_spec dg st os bucket upload.key data (some upload.contentType) with
    ⟨path', m, hwritable, hlength, htype, heq⟩ | ⟨-, e, heq⟩
  · rw [heq] at hput
    cases hput
    obtain rfl : path = path' := by
      rw [(writablePath_eq_some.mp hwritable).2] at hpath
      cases hpath
      rfl
    refine ⟨upload, data, etags, path, hcontents, hwritable, hlength, htype, ?_⟩
    unfold abortMultipartUpload at habort
    obtain ⟨again, -, habort⟩ := Outcome.bind_eq_ok.mp habort
    obtain ⟨-, -, hok⟩ := Outcome.bind_eq_ok.mp habort
    cases hok
    exact st.objects.upsert_upsert rfl
  · rw [heq] at hput
    cases hput

theorem completeMultipartUpload_of_contents (dg : Digests) {key uploadId : String}
    {parts : List CompletedMultipartPart}
    {upload : MultipartUpload} {data : List UInt8} {etags : List String}
    (hcontents : st.multipartContents os bucket key uploadId parts = .ok (upload, data, etags))
    (hpath : writablePath os bucket upload.key = some path) :
    ∃ result, st.completeMultipartUpload dg os bucket key uploadId parts = .ok result := by
  obtain ⟨hwrite, hresolve⟩ := writablePath_eq_some.mp hpath
  have hread : st.readMultipartUpload os bucket key uploadId = .ok upload := by
    unfold multipartContents at hcontents
    obtain ⟨-, -, h⟩ := Outcome.bind_eq_ok.mp hcontents
    obtain ⟨upload', hread, h⟩ := Outcome.bind_eq_ok.mp h
    obtain ⟨contents, _, hok⟩ := Outcome.bind_eq_ok.mp h
    cases hok
    exact hread
  have hagain : ∀ objects, ({ st with objects := objects } : LocalStorage).readMultipartUpload os
      bucket key uploadId = .ok upload :=
    fun objects => (readMultipartUpload_congr rfl os bucket key uploadId).trans hread
  rcases putObject_spec dg st os bucket upload.key data (some upload.contentType) with
    ⟨path', m, -, -, -, hput⟩ | ⟨hnone, -⟩
  · unfold completeMultipartUpload abortMultipartUpload
    simp only [hcontents, Outcome.ok_bind, hput, hresolve, hagain, refusal, hwrite]
    exact ⟨_, rfl⟩
  · rw [hpath] at hnone
    cases hnone

end LocalStorage

end Peanut
