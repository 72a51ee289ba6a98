import Peanut.Library.FileTree
import Peanut.Storage.Paths

/-!
# Files of the storage

`storage/local/object.rs` and `storage/local/multipart.rs` over a tree of files.
An object is two files: the data in the tree of objects and the metadata, under
the same key, in the tree of metadata.  Each operation is the sequence of its file
operations, and where one fails those before it stay.

The JSON files are kept decoded.  The names a file system cannot store and the
operations it refuses for reasons of its own (no space, no permission) are left
out: they make operations fail.
-/

namespace Peanut

open Relational

/-! ### Contents -/

structure StorageObjectResponseHeaders where
  cacheControl : Option String := none
  contentDisposition : Option String := none
  contentEncoding : Option String := none
  contentLanguage : Option String := none
  expires : Option String := none
deriving DecidableEq, Repr

/-- The part of the metadata that is stored as the request gives it. -/
structure ObjectDetails where
  customMetadata : List (String × String) := []
  responseHeaders : StorageObjectResponseHeaders := {}
  checksumSha256 : Option String := none
  checksumSha1 : Option String := none
  tagging : Option String := none
deriving DecidableEq, Repr

/-- `StorageObjectMetadata` with all its fields. -/
structure ObjectMetadata extends StorageObjectMetadata where
  details : ObjectDetails
deriving DecidableEq, Repr

inductive StorageContent where
  | bytes (data : List UInt8)
  | metadata (metadata : ObjectMetadata)
  | upload (upload : MultipartUpload)
  | part (part : MultipartUploadPart)
deriving DecidableEq, Repr

/-- The error of `serde_json` for a file of another kind. -/
def serdeError : IoError := { kind := .other, message := "expected value at line 1 column 1" }

namespace StorageContent

def asBytes : StorageContent → Except IoError (List UInt8)
  | .bytes data => .ok data
  | _ => .error serdeError

def asMetadata : StorageContent → Except IoError ObjectMetadata
  | .metadata m => .ok m
  | _ => .error serdeError

def asUpload : StorageContent → Except IoError MultipartUpload
  | .upload u => .ok u
  | _ => .error serdeError

def asPart : StorageContent → Except IoError MultipartUploadPart
  | .part p => .ok p
  | _ => .error serdeError

variable {c : StorageContent}

theorem asBytes_eq_ok {data : List UInt8} :
    c.asBytes = .ok data ↔ c = .bytes data := by
  cases c <;> simp [asBytes]

theorem asMetadata_eq_ok {m : ObjectMetadata} :
    c.asMetadata = .ok m ↔ c = .metadata m := by
  cases c <;> simp [asMetadata]

theorem asPart_eq_ok {p : MultipartUploadPart} :
    c.asPart = .ok p ↔ c = .part p := by
  cases c <;> simp [asPart]

end StorageContent

/-- The error of the operating system. -/
def ioError : FileError → IoError
  | .notFound => { kind := .notFound, message := "No such file or directory (os error 2)" }
  | .notADirectory => { kind := .other, message := "Not a directory (os error 20)" }
  | .isADirectory => { kind := .other, message := "Is a directory (os error 21)" }
  | .alreadyExists => { kind := .other, message := "File exists (os error 17)" }

abbrev StorageFiles := FileTree String StorageContent

/-- The text of a component. -/
def PathComponent.text : PathComponent → String
  | .curDir => "."
  | .parentDir => ".."
  | .normal name => name

/-- A path as the file system walks it. -/
def FsPath.names (p : FsPath) : List String := p.components.map PathComponent.text

@[simp] theorem FsPath.names_joinNames (base : FsPath) (names : List String) :
    (base.joinNames names).names = base.names ++ names := by
  have htext : ∀ l : List String, (l.map PathComponent.normal).map PathComponent.text = l := by
    intro l
    rw [List.map_map]
    exact List.map_id l
  rw [FsPath.names, FsPath.joinNames, List.map_append, htext]
  rfl

theorem FsPath.names_child (base : FsPath) (name : String) :
    (base.child name).names = base.names ++ [name] := by
  simp [FsPath.names, FsPath.child, PathComponent.text]

/-- The namespace of a bucket, `{app_id}/{bucket}`. -/
def Namespace.text (b : Namespace) : String := sdkBucket b.appId b.bucket

/-- A namespace that requests can name. -/
structure BucketNamespace extends Namespace where
  served : ServedBucket appId bucket

/-! ### Single files -/

namespace StorageFiles

def readFile (t : StorageFiles) (path : FsPath) : Except IoError StorageContent :=
  (t.read path.names).mapError ioError

def writeFile (t : StorageFiles) (path : FsPath) (content : StorageContent) :
    Except IoError StorageFiles :=
  (t.write path.names content).mapError ioError

/-- `if let Some(parent) = path.parent() { create_dir_all(parent) }`. -/
def createParent (t : StorageFiles) (path : FsPath) : Except IoError StorageFiles :=
  match path.parent with
  | some parent => (t.createDirAll parent.names).mapError ioError
  | none => .ok t

/-! ### Objects -/

def readMetadata (root : FsPath) (t : StorageFiles) (bucket : Namespace) (key : String) :
    Except IoError ObjectMetadata := do
  let metadataPath ← root.resolveMetadataPath bucket.text key
  let raw ← t.readFile metadataPath
  raw.asMetadata

def writeMetadata (root : FsPath) (t : StorageFiles) (bucket : Namespace) (key : String)
    (metadata : ObjectMetadata) : StorageFiles × Except IoError Unit :=
  Outcome.proceed t (root.resolveMetadataPath bucket.text key) fun metadataPath =>
  Outcome.proceed t (t.createParent metadataPath) fun t =>
  Outcome.proceed t (t.writeFile metadataPath (.metadata metadata)) fun t =>
  (t, .ok ())

/-- The metadata a put stores. -/
def newMetadata (dg : Digests) (now : String) (previous : Option ObjectMetadata)
    (data : List UInt8) (contentType : Option String) (details : ObjectDetails) : ObjectMetadata :=
  { contentType := storedContentType contentType
    contentLength := data.length
    etag := dg.sha256Etag data
    createdAt := (previous.map fun m => m.createdAt).getD now
    updatedAt := now
    details := details }

/-- `put_object_with_metadata`. -/
def putObjectWithMetadata (root : FsPath) (dg : Digests) (now : String) (t : StorageFiles)
    (bucket : Namespace) (key : String) (data : List UInt8) (contentType : Option String)
    (details : ObjectDetails) : StorageFiles × Except IoError ObjectMetadata :=
  Outcome.proceed t (root.resolveObjectPath bucket.text key) fun path =>
  Outcome.proceed t (root.resolveMetadataPath bucket.text key) fun metadataPath =>
  Outcome.proceed t (t.createParent path) fun t =>
  Outcome.proceed t (t.createParent metadataPath) fun t =>
  let previous := (readMetadata root t bucket key).toOption
  let metadata := newMetadata dg now previous data contentType details
  Outcome.proceed t (t.writeFile path (.bytes data)) fun t =>
  let (t, written) := writeMetadata root t bucket key metadata
  (t, written.map fun _ => metadata)

/-- `put_object`. -/
def putObject (root : FsPath) (dg : Digests) (now : String) (t : StorageFiles)
    (bucket : Namespace) (key : String) (data : List UInt8) (contentType : Option String) :
    StorageFiles × Except IoError ObjectMetadata :=
  putObjectWithMetadata root dg now t bucket key data contentType {}

/-- `get_object`: the data and the metadata. -/
def getObject (root : FsPath) (t : StorageFiles) (bucket : Namespace) (key : String) :
    Except IoError (List UInt8 × ObjectMetadata) := do
  let path ← root.resolveObjectPath bucket.text key
  let raw ← t.readFile path
  let data ← raw.asBytes
  let metadata ← readMetadata root t bucket key
  return (data, metadata)

def deleteObject (root : FsPath) (t : StorageFiles) (bucket : Namespace) (key : String) :
    StorageFiles × Except IoError Unit :=
  Outcome.proceed t (root.resolveObjectPath bucket.text key) fun path =>
  Outcome.proceed t (root.resolveMetadataPath bucket.text key) fun metadataPath =>
  Outcome.proceed t ((t.removeFile path.names).mapError ioError) fun t =>
  match t.removeFile metadataPath.names with
  | .ok t => (t, .ok ())
  | .error .notFound => (t, .ok ())
  | .error e => (t, .error (ioError e))

/-! ### Uploads in parts -/

/-- `create_multipart_upload`; `uploadId` is the id drawn. -/
def createMultipartUpload (root : FsPath) (now uploadId : String) (t : StorageFiles)
    (bucket : Namespace) (key : String) (contentType : Option String) :
    StorageFiles × Except IoError MultipartUpload :=
  Outcome.proceed t (normalizeObjectKey key) fun parts =>
  let upload : MultipartUpload :=
    { uploadId := uploadId, bucket := bucket, key := keyText parts
      contentType := storedContentType contentType, initiatedAt := now }
  Outcome.proceed t (root.resolveMultipartManifestPath bucket.text uploadId) fun manifestPath =>
  Outcome.proceed t (t.createParent manifestPath) fun t =>
  Outcome.proceed t (t.writeFile manifestPath (.upload upload)) fun t =>
  (t, .ok upload)

def readMultipartUpload (root : FsPath) (t : StorageFiles) (bucket : Namespace)
    (key uploadId : String) : Except IoError MultipartUpload := do
  let manifestPath ← root.resolveMultipartManifestPath bucket.text uploadId
  let raw ← t.readFile manifestPath
  let upload ← raw.asUpload
  let parts ← normalizeObjectKey key
  Outcome.ensure (upload.bucket == bucket && upload.key == keyText parts)
    { kind := .notFound, message := "multipart upload not found for object" }
  return upload

def putMultipartPart (root : FsPath) (dg : Digests) (t : StorageFiles) (bucket : Namespace)
    (key uploadId : String) (partNumber : Nat) (data : List UInt8) :
    StorageFiles × Except IoError MultipartUploadPart :=
  Outcome.proceed t (Outcome.ensure (partNumber != 0)
    { kind := .invalidInput, message := "multipart part number must be greater than zero" })
      fun _ =>
  Outcome.proceed t (readMultipartUpload root t bucket key uploadId) fun upload =>
  Outcome.proceed t (root.resolveMultipartPartPath bucket.text upload.uploadId partNumber)
    fun path =>
  Outcome.proceed t (root.resolveMultipartPartMetadataPath bucket.text upload.uploadId partNumber)
    fun metadataPath =>
  Outcome.proceed t (t.createParent path) fun t =>
  let metadata : MultipartUploadPart :=
    { partNumber := partNumber, etag := dg.partEtag data, size := data.length }
  Outcome.proceed t (t.writeFile path (.bytes data)) fun t =>
  Outcome.proceed t (t.writeFile metadataPath (.part metadata)) fun t =>
  (t, .ok metadata)

/-- `read_multipart_part`: the metadata, then the data. -/
def readMultipartPart (root : FsPath) (t : StorageFiles) (bucket : Namespace) (uploadId : String)
    (partNumber : Nat) : Except IoError (MultipartUploadPart × List UInt8) := do
  let metadataPath ← root.resolveMultipartPartMetadataPath bucket.text uploadId partNumber
  let path ← root.resolveMultipartPartPath bucket.text uploadId partNumber
  let raw ← t.readFile metadataPath
  let metadata ← raw.asPart
  let raw ← t.readFile path
  let data ← raw.asBytes
  return (metadata, data)

/-- What the loop of `complete_multipart_upload` checks of a part before it is read. -/
def checkPartOrder (previousPartNumber : Nat) (part : CompletedMultipartPart) :
    Except IoError Unit := do
  Outcome.ensure (part.partNumber != 0)
    { kind := .invalidInput, message := "multipart part number must be greater than zero" }
  Outcome.ensure (decide (previousPartNumber < part.partNumber))
    { kind := .invalidInput, message := "multipart parts must be in ascending order" }

/-- And what it checks of the metadata that was stored. -/
def checkStoredPart (part : CompletedMultipartPart) (isLast : Bool) (stored : MultipartUploadPart) :
    Except IoError Unit := do
  Outcome.ensure (stored.etag == part.etag)
    { kind := .invalidData
      message := "multipart part " ++ toString part.partNumber ++ " etag mismatch" }
  Outcome.ensure (isLast || decide (LocalStorage.MIN_MULTIPART_PART_SIZE_BYTES ≤ stored.size))
    { kind := .invalidInput
      message := "multipart part " ++ toString part.partNumber ++
        " is smaller than the required 5 MiB minimum for non-final parts" }

/-- The loop of `complete_multipart_upload`: the data of the parts one after the
    other, and their ETags. -/
def assembleParts (root : FsPath) (t : StorageFiles) (bucket : Namespace) (uploadId : String) :
    Nat → List CompletedMultipartPart → Except IoError (List UInt8 × List String)
  | _, [] => .ok ([], [])
  | previousPartNumber, part :: rest => do
      checkPartOrder previousPartNumber part
      let (stored, partData) ← readMultipartPart root t bucket uploadId part.partNumber
      checkStoredPart part rest.isEmpty stored
      let (data, etags) ← assembleParts root t bucket uploadId part.partNumber rest
      return (partData ++ data, stored.etag :: etags)

def abortMultipartUpload (root : FsPath) (t : StorageFiles) (bucket : Namespace)
    (key uploadId : String) : StorageFiles × Except IoError Unit :=
  Outcome.proceed t (readMultipartUpload root t bucket key uploadId) fun upload =>
  Outcome.proceed t (root.resolveMultipartUploadRoot bucket.text upload.uploadId) fun uploadRoot =>
  Outcome.proceed t ((t.removeDirAll uploadRoot.names).mapError ioError) fun t =>
  (t, .ok ())

def completeMultipartUpload (root : FsPath) (dg : Digests) (now : String) (t : StorageFiles)
    (bucket : Namespace) (key uploadId : String) (parts : List CompletedMultipartPart) :
    StorageFiles × Except IoError ObjectMetadata :=
  Outcome.proceed t (Outcome.ensure (!parts.isEmpty)
    { kind := .invalidInput, message := "multipart completion requires at least one part" })
    fun _ =>
  Outcome.proceed t (readMultipartUpload root t bucket key uploadId) fun upload =>
  Outcome.proceed t (assembleParts root t bucket upload.uploadId 0 parts) fun (assembled, etags) =>
  let (t, put) := putObject root dg now t bucket upload.key assembled (some upload.contentType)
  Outcome.proceed t put fun metadata =>
  let metadata := { metadata with etag := dg.compositeEtag etags }
  let (t, written) := writeMetadata root t bucket upload.key metadata
  Outcome.proceed t written fun _ =>
  let (t, aborted) := abortMultipartUpload root t bucket key uploadId
  (t, aborted.map fun _ => metadata)

/-! ### Where the files are -/

/-- A path in the part of a tree that belongs to a bucket. -/
def treePath (root : FsPath) (tree : StorageTree) (b : Namespace) (rel : List String) :
    List String :=
  root.names ++ (tree.dirs ++ [b.appId, b.bucket] ++ rel)

/-- The path of a metadata file, from that of the object. -/
def withJson (parts : List String) : List String :=
  parts.dropLast ++ [parts.getLastD "" ++ ".json"]

def objectFile (root : FsPath) (b : Namespace) (parts : List String) : List String :=
  treePath root .objects b parts

def metadataFile (root : FsPath) (b : Namespace) (parts : List String) : List String :=
  treePath root .metadata b (withJson parts)

theorem withJson_concat (init : List String) (last : String) :
    withJson (init ++ [last]) = init ++ [last ++ ".json"] := by
  simp [withJson]

theorem concat_extension_inj {dir dir' : List String} {name name' extension : String} :
    dir ++ [name ++ extension] = dir' ++ [name' ++ extension] ↔ dir = dir' ∧ name = name' := by
  constructor
  · intro h
    obtain ⟨hdir, hlast⟩ := List.append_inj' h rfl
    rw [List.cons.injEq, and_iff_left rfl] at hlast
    exact ⟨hdir, (String.append_left_inj extension).mp hlast⟩
  · rintro ⟨rfl, rfl⟩
    rfl

theorem withJson_injective {parts parts' : List String} (hne : parts ≠ []) (hne' : parts' ≠ [])
    (h : withJson parts = withJson parts') : parts = parts' := by
  obtain ⟨init, last, rfl⟩ := (List.eq_nil_or_concat' parts).resolve_left hne
  obtain ⟨init', last', rfl⟩ := (List.eq_nil_or_concat' parts').resolve_left hne'
  rw [withJson_concat, withJson_concat, concat_extension_inj] at h
  obtain ⟨rfl, rfl⟩ := h
  rfl

theorem names_bucketTree (root : FsPath) (tree : StorageTree) (b : Namespace) (rel : List String) :
    ((root.bucketTree tree b.appId b.bucket).joinNames rel).names = treePath root tree b rel := by
  rw [FsPath.bucketTree, FsPath.joinNames_joinNames, FsPath.names_joinNames, treePath]

theorem treePath_ne_nil (root : FsPath) (tree : StorageTree) (b : Namespace) (rel : List String) :
    treePath root tree b rel ≠ [] := by
  simp [treePath]

variable {root path : FsPath}

theorem treePath_isPrefix {tree tree' : StorageTree} {b b' : BucketNamespace}
    {rel rel' : List String} :
    treePath root tree b.toNamespace rel <+: treePath root tree' b'.toNamespace rel' ↔
      (tree = tree' ∧ b.toNamespace = b'.toNamespace) ∧ rel <+: rel' := by
  rw [treePath, treePath, List.prefix_append_right_inj]
  constructor
  · intro h
    have hsame : tree = tree' ∧ b.toNamespace = b'.toNamespace := by
      by_contra hne
      refine bucketTree_apart b.served b'.served ?_ h
      by_contra hboth
      rw [not_or, not_not, not_not, Prod.mk.injEq] at hboth
      obtain ⟨⟨happ, hbucket⟩, htree⟩ := hboth
      refine hne ⟨htree, ?_⟩
      rw [Namespace.mk.injEq]
      exact ⟨happ, hbucket⟩
    refine ⟨hsame, ?_⟩
    obtain ⟨rfl, hb⟩ := hsame
    rw [hb] at h
    exact (List.prefix_append_right_inj _).mp h
  · rintro ⟨⟨rfl, hb⟩, h⟩
    rw [hb]
    exact (List.prefix_append_right_inj _).mpr h

theorem treePath_inj {tree tree' : StorageTree} {b b' : BucketNamespace} {rel rel' : List String} :
    treePath root tree b.toNamespace rel = treePath root tree' b'.toNamespace rel' ↔
      (tree = tree' ∧ b.toNamespace = b'.toNamespace) ∧ rel = rel' := by
  constructor
  · intro h
    have hle : treePath root tree b.toNamespace rel <+:
        treePath root tree' b'.toNamespace rel' := by
      rw [h]
    have hge : treePath root tree' b'.toNamespace rel' <+:
        treePath root tree b.toNamespace rel := by
      rw [h]
    obtain ⟨hsame, hrel⟩ := treePath_isPrefix.mp hle
    obtain ⟨-, hrel'⟩ := treePath_isPrefix.mp hge
    exact ⟨hsame, hrel.eq_of_length_le hrel'.length_le⟩
  · rintro ⟨⟨rfl, hb⟩, rfl⟩
    rw [hb]

variable {parts : List String}

theorem resolveObjectPath_served (root : FsPath) (b : BucketNamespace) {key : String}
    (hkey : normalizeObjectKey key = .ok parts) :
    ∃ path, root.resolveObjectPath b.text key = .ok path ∧
      path.names = objectFile root b.toNamespace parts :=
  ⟨_, resolveObjectPath_sdkBucket b.served hkey, names_bucketTree root .objects b.toNamespace parts⟩

theorem resolveMetadataPath_served (root : FsPath) (b : BucketNamespace) {key : String}
    (hkey : normalizeObjectKey key = .ok parts) :
    ∃ path, root.resolveMetadataPath b.text key = .ok path ∧
      path.names = metadataFile root b.toNamespace parts := by
  obtain ⟨init, last, rfl⟩ :=
    (List.eq_nil_or_concat' parts).resolve_left (normalizeObjectKey_ok hkey).1
  refine ⟨_, resolveMetadataPath_sdkBucket b.served hkey, ?_⟩
  rw [names_bucketTree, metadataFile, withJson_concat]

/-! ### What an operation leaves alone -/

/-- The same files with the same contents, met in the same order. -/
structure SameFiles (t t' : StorageFiles) : Prop where
  content : t'.contentAt = t.contentAt
  walk : ∀ base, t'.filesBelow base = t.filesBelow base

theorem SameFiles.refl (t : StorageFiles) : SameFiles t t := ⟨rfl, fun _ => rfl⟩

theorem SameFiles.trans {t t' t'' : StorageFiles} (h : SameFiles t t') (h' : SameFiles t' t'') :
    SameFiles t t'' :=
  ⟨h'.content.trans h.content, fun base => (h'.walk base).trans (h.walk base)⟩

theorem createParent_eq (t : StorageFiles) (hpath : path.names ≠ []) :
    t.createParent path = (t.createDirAll path.names.dropLast).mapError ioError := by
  have hne : path.components ≠ [] := by
    intro hnil
    exact hpath (by rw [FsPath.names, hnil, List.map_nil])
  rw [createParent, FsPath.parent, if_neg hne]
  simp [FsPath.names, List.map_dropLast]

theorem createParent_ok {t t' : StorageFiles} (hpath : path.names ≠ [])
    (h : t.createParent path = .ok t') :
    SameFiles t t' ∧
      ∀ q, t'.lookup q = if q <+: path.names.dropLast then some .dir else t.lookup q := by
  rw [createParent_eq t hpath, Outcome.mapError_eq_ok] at h
  exact ⟨⟨FileTree.contentAt_createDirAll h, FileTree.filesBelow_createDirAll h⟩,
    FileTree.lookup_createDirAll h⟩

variable {t : StorageFiles}

theorem createParent_isOk_iff (hpath : path.names ≠ []) :
    (∃ t', t.createParent path = .ok t') ↔
      ∀ q, q <+: path.names.dropLast → ∀ c, t.lookup q ≠ some (.file c) := by
  rw [createParent_eq t hpath]
  simp only [Outcome.mapError_eq_ok]
  exact FileTree.createDirAll_isOk_iff

theorem createParent_error (hpath : path.names ≠ [])
    {e : IoError} (h : t.createParent path = .error e) :
    ∃ q, q <+: path.names.dropLast ∧ ∃ c, t.lookup q = some (.file c) := by
  by_contra hfree
  simp only [not_exists, not_and] at hfree
  obtain ⟨t₁, hok⟩ := (createParent_isOk_iff hpath).mpr hfree
  rw [h] at hok
  cases hok

theorem SameFiles.lookup_file {t t' : StorageFiles} (h : SameFiles t t') {q : List String}
    {c : StorageContent} : t'.lookup q = some (.file c) ↔ t.lookup q = some (.file c) := by
  rw [← FileTree.contentAt_eq_some, ← FileTree.contentAt_eq_some, h.content]

theorem not_isPrefix_dropLast {p : List String} (h : p ≠ []) : ¬ p <+: p.dropLast := by
  intro hprefix
  have hlength := hprefix.length_le
  have hpos := List.length_pos_iff.mpr h
  rw [List.length_dropLast] at hlength
  omega

/-! ### What a put does -/

/-- The data of an object can be written and its metadata cannot, for there is a
    directory in its place. -/
def Torn (root : FsPath) (t : StorageFiles) (b : Namespace) (parts : List String) : Prop :=
  t.lookup (metadataFile root b parts) = some .dir ∧
    t.lookup (objectFile root b parts) ≠ some .dir ∧
      ∀ q, q <+: (objectFile root b parts).dropLast → ∀ c, t.lookup q ≠ some (.file c)

/-- A file is in the way of the directories of an object, or a directory in its place. -/
def Blocked (root : FsPath) (t : StorageFiles) (b : Namespace) (parts : List String) : Prop :=
  (∃ q, q <+: (objectFile root b parts).dropLast ∧ ∃ c, t.lookup q = some (.file c)) ∨
    (∃ q, q <+: (metadataFile root b parts).dropLast ∧ ∃ c, t.lookup q = some (.file c)) ∨
      t.lookup (objectFile root b parts) = some .dir

theorem Blocked.not_torn {b : Namespace} (h : Blocked root t b parts) : ¬ Torn root t b parts := by
  rintro ⟨hdir, hobject, hfree⟩
  rcases h with ⟨q, hq, c, hfile⟩ | ⟨q, hq, c, hfile⟩ | hobject'
  · exact hfree q hq c hfile
  · have habove := FileTree.lookup_above hdir (hq.trans (List.dropLast_prefix _)) (by
      rintro rfl
      exact not_isPrefix_dropLast (treePath_ne_nil root .metadata b _) hq)
    rw [hfile] at habove
    cases habove
  · exact hobject hobject'

/-- How a put ends.  A refused one may have made directories. -/
inductive PutOutcome (root : FsPath) (t : StorageFiles) (b : Namespace) (parts : List String)
    (data : List UInt8) : StorageFiles × Except IoError ObjectMetadata → Prop where
  | stored {t' : StorageFiles} {m : ObjectMetadata} (htorn : ¬ Torn root t b parts)
      (hlength : m.contentLength = data.length)
      (hcontent : t'.contentAt = Function.update
        (Function.update t.contentAt (objectFile root b parts) (some (.bytes data)))
        (metadataFile root b parts) (some (.metadata m))) :
      PutOutcome root t b parts data (t', .ok m)
  | refused {t' : StorageFiles} {e : IoError} (hblocked : Blocked root t b parts)
      (hsame : SameFiles t t') : PutOutcome root t b parts data (t', .error e)
  | torn {t' : StorageFiles} {e : IoError} (htorn : Torn root t b parts)
      (hcontent : t'.contentAt =
        Function.update t.contentAt (objectFile root b parts) (some (.bytes data))) :
      PutOutcome root t b parts data (t', .error e)

section Put

variable (root : FsPath) (dg : Digests) (now : String) (b : BucketNamespace)

theorem not_object_isPrefix_metadata (parts parts' : List String) :
    ¬ objectFile root b.toNamespace parts <+: metadataFile root b.toNamespace parts' := by
  rw [objectFile, metadataFile, treePath_isPrefix]
  rintro ⟨⟨htree, -⟩, -⟩
  cases htree

theorem not_metadata_isPrefix_object (parts parts' : List String) :
    ¬ metadataFile root b.toNamespace parts <+: objectFile root b.toNamespace parts' := by
  rw [objectFile, metadataFile, treePath_isPrefix]
  rintro ⟨⟨htree, -⟩, -⟩
  cases htree

variable {t t' : StorageFiles} {key uploadId : String} {parts : List String}

/-- Metadata goes where its directory can be made, unless there is a directory in
    its place. -/
theorem writeMetadata_outcome
    (hkey : normalizeObjectKey key = .ok parts) (metadata : ObjectMetadata)
    (hfree : ∀ q, q <+: (metadataFile root b.toNamespace parts).dropLast →
      ∀ c, t.lookup q ≠ some (.file c)) :
    (t.lookup (metadataFile root b.toNamespace parts) ≠ some .dir ∧
      ∃ t', writeMetadata root t b.toNamespace key metadata = (t', .ok ()) ∧
        t'.contentAt = Function.update t.contentAt (metadataFile root b.toNamespace parts)
          (some (.metadata metadata))) ∨
      (t.lookup (metadataFile root b.toNamespace parts) = some .dir ∧
        ∃ t' e, writeMetadata root t b.toNamespace key metadata = (t', .error e) ∧
          SameFiles t t') := by
  obtain ⟨path, hresolve, hpath⟩ := resolveMetadataPath_served root b hkey
  have hne : path.names ≠ [] :=
    hpath ▸ treePath_ne_nil root .metadata b.toNamespace (withJson parts)
  rw [← hpath] at hfree ⊢
  obtain ⟨t₁, hdirs⟩ := (createParent_isOk_iff hne).mpr hfree
  obtain ⟨hsame, hlookup⟩ := createParent_ok hne hdirs
  have hhere : t₁.lookup path.names = t.lookup path.names := by
    rw [hlookup, if_neg (not_isPrefix_dropLast hne)]
  have hparent : t₁.lookup path.names.dropLast = some .dir := by
    rw [hlookup, if_pos List.prefix_rfl]
  unfold writeMetadata
  rw [hresolve, Outcome.proceed_ok, hdirs, Outcome.proceed_ok, ← hhere]
  cases hwrite : t₁.writeFile path (.metadata metadata) with
  | error e =>
    refine .inr ⟨?_, t₁, e, rfl, hsame⟩
    by_contra hdir
    obtain ⟨t₂, hok⟩ := FileTree.write_isOk_iff.mpr (⟨hne, hparent, hdir⟩ : t₁.Writable path.names)
    rw [writeFile, hok] at hwrite
    cases hwrite
  | ok t₂ =>
    rw [writeFile, Outcome.mapError_eq_ok] at hwrite
    obtain ⟨hw, -⟩ := FileTree.write_eq_ok.mp hwrite
    exact .inl ⟨hw.2.2, t₂, rfl, by rw [FileTree.contentAt_write hwrite, hsame.content]⟩

/-- The directories of an object and of its metadata are there, and nothing else has changed. -/
structure PutPlace (t t' : StorageFiles) (parts : List String) : Prop where
  same : SameFiles t t'
  object : t'.lookup (objectFile root b.toNamespace parts) =
    t.lookup (objectFile root b.toNamespace parts)
  parent : t'.lookup (objectFile root b.toNamespace parts).dropLast = some .dir
  metadata : t'.lookup (metadataFile root b.toNamespace parts) =
    t.lookup (metadataFile root b.toNamespace parts)
  way : ∀ q, q <+: (metadataFile root b.toNamespace parts).dropLast → t'.lookup q = some .dir
  free : ∀ q, q <+: (objectFile root b.toNamespace parts).dropLast →
    ∀ c, t.lookup q ≠ some (.file c)

theorem putPlace_of_createParent {t t₁ t₂ : StorageFiles} {path metadataPath : FsPath}
    (hpath : path.names = objectFile root b.toNamespace parts)
    (hpath' : metadataPath.names = metadataFile root b.toNamespace parts)
    (hdirs : t.createParent path = .ok t₁) (hdirs' : t₁.createParent metadataPath = .ok t₂) :
    PutPlace root b t t₂ parts := by
  have hne : path.names ≠ [] := hpath ▸ treePath_ne_nil root .objects b.toNamespace parts
  have hne' : metadataPath.names ≠ [] :=
    hpath' ▸ treePath_ne_nil root .metadata b.toNamespace (withJson parts)
  -- neither file lies above the other
  have hapart : ¬ path.names <+: metadataPath.names.dropLast := by
    rw [hpath, hpath']
    exact fun h => not_object_isPrefix_metadata root b parts parts
      (h.trans (List.dropLast_prefix _))
  have hapart' : ¬ metadataPath.names <+: path.names.dropLast := by
    rw [hpath, hpath']
    exact fun h => not_metadata_isPrefix_object root b parts parts
      (h.trans (List.dropLast_prefix _))
  obtain ⟨hsame₁, hlookup₁⟩ := createParent_ok hne hdirs
  obtain ⟨hsame₂, hlookup₂⟩ := createParent_ok hne' hdirs'
  have hfree := (createParent_isOk_iff hne).mp ⟨t₁, hdirs⟩
  rw [hpath] at hfree hapart hapart' hlookup₁ hne
  rw [hpath'] at hapart hapart' hlookup₂ hne'
  refine ⟨hsame₁.trans hsame₂, ?_, ?_, ?_, ?_, hfree⟩
  · rw [hlookup₂, if_neg hapart, hlookup₁, if_neg (not_isPrefix_dropLast hne)]
  · rw [hlookup₂]
    split
    · rfl
    · rw [hlookup₁, if_pos List.prefix_rfl]
  · rw [hlookup₂, if_neg (not_isPrefix_dropLast hne'), hlookup₁, if_neg hapart']
  · intro q hq
    rw [hlookup₂, if_pos hq]

variable {path : FsPath}

theorem PutPlace.writeFile_error (h : PutPlace root b t t' parts)
    (hpath : path.names = objectFile root b.toNamespace parts) {content : StorageContent}
    {e : IoError} (hwrite : t'.writeFile path content = .error e) :
    t.lookup (objectFile root b.toNamespace parts) = some .dir := by
  by_contra hdir
  have hne := treePath_ne_nil root .objects b.toNamespace parts
  rw [← h.object] at hdir
  obtain ⟨t₃, hok⟩ := FileTree.write_isOk_iff.mpr
    (⟨hne, h.parent, hdir⟩ : t'.Writable (objectFile root b.toNamespace parts))
  rw [writeFile, hpath, hok] at hwrite
  cases hwrite

variable {data : List UInt8} {metadata : ObjectMetadata}

theorem PutPlace.outcome {t t' t₃ : StorageFiles} (h : PutPlace root b t t' parts)
    (hkey : normalizeObjectKey key = .ok parts)
    (hpath : path.names = objectFile root b.toNamespace parts)
    (hwrite : t'.writeFile path (.bytes data) = .ok t₃)
    (hlength : metadata.contentLength = data.length) :
    PutOutcome root t b.toNamespace parts data
      ((writeMetadata root t₃ b.toNamespace key metadata).1,
        (writeMetadata root t₃ b.toNamespace key metadata).2.map fun _ => metadata) := by
  rw [writeFile, Outcome.mapError_eq_ok, hpath] at hwrite
  have hlookup := FileTree.lookup_write hwrite
  have hcontent := FileTree.contentAt_write hwrite
  obtain ⟨hw, -⟩ := FileTree.write_eq_ok.mp hwrite
  rw [h.same.content] at hcontent
  have hother : metadataFile root b.toNamespace parts ≠ objectFile root b.toNamespace parts :=
    fun heq => not_metadata_isPrefix_object root b parts parts (heq ▸ List.prefix_rfl)
  have hmetadata : t₃.lookup (metadataFile root b.toNamespace parts) =
      t.lookup (metadataFile root b.toNamespace parts) := by
    rw [hlookup, if_neg hother, h.metadata]
  -- the way to the metadata is still there
  have hway : ∀ q, q <+: (metadataFile root b.toNamespace parts).dropLast →
      ∀ c, t₃.lookup q ≠ some (.file c) := by
    intro q hq c hfile
    rw [hlookup] at hfile
    split at hfile
    · rename_i heq
      exact not_object_isPrefix_metadata root b parts parts
        (heq ▸ hq.trans (List.dropLast_prefix _))
    · rw [h.way q hq] at hfile
      cases hfile
  rcases writeMetadata_outcome root b hkey metadata hway with
    ⟨hdir, t₄, hok, hcontent'⟩ | ⟨hdir, t₄, e, herror, hsame⟩
  · rw [hok]
    refine .stored ?_ hlength ?_
    · rintro ⟨hdir', -, -⟩
      rw [hmetadata] at hdir
      exact hdir hdir'
    · rw [hcontent', hcontent]
  · rw [herror]
    rw [hmetadata] at hdir
    refine .torn ⟨hdir, ?_, h.free⟩ ?_
    · rw [← h.object]
      exact hw.2.2
    · rw [hsame.content, hcontent]

/-- **A put** stores both files, or makes directories only, or leaves the object
    without its metadata. -/
theorem putObject_outcome (t : StorageFiles)
    (hkey : normalizeObjectKey key = .ok parts) (data : List UInt8) (contentType : Option String)
    (details : ObjectDetails) :
    PutOutcome root t b.toNamespace parts data
      (putObjectWithMetadata root dg now t b.toNamespace key data contentType details) := by
  obtain ⟨path, hresolve, hpath⟩ := resolveObjectPath_served root b hkey
  obtain ⟨metadataPath, hresolve', hpath'⟩ := resolveMetadataPath_served root b hkey
  have hne : path.names ≠ [] := hpath ▸ treePath_ne_nil root .objects b.toNamespace parts
  have hne' : metadataPath.names ≠ [] :=
    hpath' ▸ treePath_ne_nil root .metadata b.toNamespace (withJson parts)
  unfold putObjectWithMetadata
  rw [hresolve, hresolve', Outcome.proceed_ok, Outcome.proceed_ok]
  -- the directories of the object
  cases hdirs : t.createParent path with
  | error e => exact .refused (.inl (hpath ▸ createParent_error hne hdirs)) (.refl t)
  | ok t₁ =>
    rw [Outcome.proceed_ok]
    have hsame₁ := (createParent_ok hne hdirs).1
    -- the directories of the metadata
    cases hdirs' : t₁.createParent metadataPath with
    | error e =>
      refine .refused (.inr (.inl ?_)) hsame₁
      obtain ⟨q, hq, c, hfile⟩ := createParent_error hne' hdirs'
      exact ⟨q, hpath' ▸ hq, c, hsame₁.lookup_file.mp hfile⟩
    | ok t₂ =>
      rw [Outcome.proceed_ok]
      have hplace := putPlace_of_createParent root b hpath hpath' hdirs hdirs'
      -- the data
      cases hwrite : t₂.writeFile path (.bytes data) with
      | error e =>
        exact .refused (.inr (.inr (hplace.writeFile_error root b hpath hwrite))) hplace.same
      | ok t₃ =>
        rw [Outcome.proceed_ok]
        have hlength : (newMetadata dg now (readMetadata root t₂ b.toNamespace key).toOption data
            contentType details).contentLength = data.length := rfl
        have houtcome := hplace.outcome root b hkey hpath hwrite hlength
        generalize writeMetadata root t₃ b.toNamespace key (newMetadata dg now
          (readMetadata root t₂ b.toNamespace key).toOption data contentType details) = written
          at houtcome ⊢
        exact houtcome

theorem writeMetadata_ok (hkey : normalizeObjectKey key = .ok parts)
    (h : writeMetadata root t b.toNamespace key metadata = (t', .ok ())) :
    t'.contentAt = Function.update t.contentAt (metadataFile root b.toNamespace parts)
      (some (.metadata metadata)) := by
  have hfree : ∀ q, q <+: (metadataFile root b.toNamespace parts).dropLast →
      ∀ c, t.lookup q ≠ some (.file c) := by
    obtain ⟨path, hresolve, hpath⟩ := resolveMetadataPath_served root b hkey
    rw [← hpath]
    apply (createParent_isOk_iff (hpath ▸ treePath_ne_nil root .metadata _ _)).mp
    have hok := congrArg Prod.snd h
    rw [writeMetadata, hresolve, Outcome.proceed_ok, Outcome.proceed_eq_ok] at hok
    obtain ⟨t₁, hdirs, -⟩ := hok
    exact ⟨t₁, hdirs⟩
  rcases writeMetadata_outcome root b hkey metadata hfree with
    ⟨-, t₁, hok, hcontent⟩ | ⟨-, t₁, e, herror, -⟩
  · rw [h, Prod.mk.injEq] at hok
    rw [hok.1, hcontent]
  · rw [h, Prod.mk.injEq] at herror
    cases herror.2

theorem getObject_eq_ok (hkey : normalizeObjectKey key = .ok parts) :
    getObject root t b.toNamespace key = .ok (data, metadata) ↔
      t.contentAt (objectFile root b.toNamespace parts) = some (.bytes data) ∧
        t.contentAt (metadataFile root b.toNamespace parts) = some (.metadata metadata) := by
  obtain ⟨path, hresolve, hpath⟩ := resolveObjectPath_served root b hkey
  obtain ⟨path', hresolve', hpath'⟩ := resolveMetadataPath_served root b hkey
  unfold getObject readMetadata readFile
  rw [← hpath, ← hpath', hresolve, hresolve', Outcome.ok_bind, Outcome.ok_bind]
  simp only [Outcome.bind_eq_ok, Outcome.mapError_eq_ok, FileTree.read_eq_ok_iff,
    StorageContent.asBytes_eq_ok, StorageContent.asMetadata_eq_ok, pure, Except.pure,
      Except.ok.injEq,
    Prod.mk.injEq]
  constructor
  · rintro ⟨raw, hraw, data', rfl, m, ⟨raw', hraw', rfl⟩, rfl, rfl⟩
    exact ⟨hraw, hraw'⟩
  · rintro ⟨hraw, hraw'⟩
    exact ⟨_, hraw, data, rfl, metadata, ⟨_, hraw', rfl⟩, rfl, rfl⟩

theorem removeFile_error {p : List String} {e : FileError}
    (h : t.removeFile p = .error e) : t.contentAt p = none := by
  rw [← Option.not_isSome_iff_eq_none, Option.isSome_iff_exists]
  rintro ⟨c, hc⟩
  obtain ⟨t', hok⟩ := FileTree.removeFile_isOk (FileTree.contentAt_eq_some.mp hc)
  rw [h] at hok
  cases hok

/-- **A deletion** removes both files, or nothing, or the data of an object whose
    metadata is not a file. -/
theorem deleteObject_outcome (t : StorageFiles) (hkey : normalizeObjectKey key = .ok parts) :
    (∃ e, deleteObject root t b.toNamespace key = (t, .error e)) ∨
      (∃ t', deleteObject root t b.toNamespace key = (t', .ok ()) ∧
        t'.contentAt = Function.update
          (Function.update t.contentAt (objectFile root b.toNamespace parts) none)
          (metadataFile root b.toNamespace parts) none) ∨
      ((∃ c, t.contentAt (objectFile root b.toNamespace parts) = some c) ∧
        t.contentAt (metadataFile root b.toNamespace parts) = none ∧
        ∃ t' e, deleteObject root t b.toNamespace key = (t', .error e)) := by
  obtain ⟨path, hresolve, hpath⟩ := resolveObjectPath_served root b hkey
  obtain ⟨path', hresolve', hpath'⟩ := resolveMetadataPath_served root b hkey
  unfold deleteObject
  rw [← hpath, ← hpath', hresolve, hresolve', Outcome.proceed_ok, Outcome.proceed_ok]
  cases hremove : t.removeFile path.names with
  | error e => exact .inl ⟨ioError e, rfl⟩
  | ok t₁ =>
    right
    have hcontent := FileTree.contentAt_removeFile hremove
    obtain ⟨⟨c, hfile⟩, -⟩ := FileTree.removeFile_ok hremove
    have hother : path'.names ≠ path.names := by
      intro heq
      refine not_metadata_isPrefix_object root b parts parts ?_
      rw [← hpath', ← hpath, heq]
    rw [Outcome.mapError_ok, Outcome.proceed_ok]
    split
    · rename_i t₂ hremove'
      exact .inl ⟨t₂, rfl, by rw [FileTree.contentAt_removeFile hremove', hcontent]⟩
    · rename_i hnone
      refine .inl ⟨t₁, rfl, ?_⟩
      rw [← hcontent, ← removeFile_error hnone, Function.update_eq_self]
    · rename_i e _ herror
      refine .inr ⟨⟨c, FileTree.contentAt_eq_some.mpr hfile⟩, ?_, t₁, ioError e, rfl⟩
      rw [← removeFile_error herror, hcontent, Function.update_of_ne hother]

/-! ### What uploads do -/

/-- Nothing changed outside the tree of uploads. -/
def KeepsObjects (t t' : StorageFiles) : Prop :=
  ∀ tree, tree ≠ .multipart → ∀ (b : BucketNamespace) rel,
    t'.contentAt (treePath root tree b.toNamespace rel) =
      t.contentAt (treePath root tree b.toNamespace rel)

theorem KeepsObjects.refl (t : StorageFiles) : KeepsObjects root t t := fun _ _ _ _ => rfl

theorem KeepsObjects.trans {t t' t'' : StorageFiles} (h : KeepsObjects root t t')
    (h' : KeepsObjects root t' t'') : KeepsObjects root t t'' :=
  fun tree htree b rel => (h' tree htree b rel).trans (h tree htree b rel)

theorem keepsObjects_of_same (h : SameFiles t t') : KeepsObjects root t t' :=
  fun _ _ _ _ => by rw [h.content]

variable {root} {b}

theorem keepsObjects_writeFile {content : StorageContent}
    (hpath : StoragePath root b.text .multipart path) (h : t.writeFile path content = .ok t') :
    KeepsObjects root t t' := by
  obtain ⟨names, -, -, rfl⟩ := hpath.below_bucketTree b.served
  rw [writeFile, names_bucketTree, Outcome.mapError_eq_ok] at h
  intro tree htree b' rel
  rw [FileTree.contentAt_write h, Function.update_of_ne]
  rw [Ne, treePath_inj]
  rintro ⟨⟨rfl, -⟩, -⟩
  exact htree rfl

theorem keepsObjects_createParent
    (hpath : StoragePath root b.text .multipart path) (h : t.createParent path = .ok t') :
    KeepsObjects root t t' := by
  obtain ⟨names, -, -, rfl⟩ := hpath.below_bucketTree b.served
  refine keepsObjects_of_same root (createParent_ok ?_ h).1
  rw [names_bucketTree]
  exact treePath_ne_nil root .multipart b.toNamespace names

theorem createMultipartUpload_keepsObjects (uploadId : String) (t : StorageFiles) (key : String)
    (contentType : Option String) :
    KeepsObjects root t
      (createMultipartUpload root now uploadId t b.toNamespace key contentType).1 := by
  unfold createMultipartUpload
  refine Outcome.proceed_rule (.refl root t) fun parts _ => ?_
  refine Outcome.proceed_rule (.refl root t) fun path hpath => ?_
  refine Outcome.proceed_rule (.refl root t) fun t₁ hdirs => ?_
  have hkept := keepsObjects_createParent (b := b) (.manifest hpath) hdirs
  refine Outcome.proceed_rule hkept fun t₂ hwrite => ?_
  exact hkept.trans root (keepsObjects_writeFile (b := b) (.manifest hpath) hwrite)

theorem putMultipartPart_keepsObjects (t : StorageFiles) (key uploadId : String) (partNumber : Nat)
    (data : List UInt8) :
    KeepsObjects root t
      (putMultipartPart root dg t b.toNamespace key uploadId partNumber data).1 := by
  unfold putMultipartPart
  refine Outcome.proceed_rule (.refl root t) fun _ _ => ?_
  refine Outcome.proceed_rule (.refl root t) fun upload _ => ?_
  refine Outcome.proceed_rule (.refl root t) fun path hpath => ?_
  refine Outcome.proceed_rule (.refl root t) fun path' hpath' => ?_
  refine Outcome.proceed_rule (.refl root t) fun t₁ hdirs => ?_
  have hkept := keepsObjects_createParent (b := b) (.part hpath) hdirs
  refine Outcome.proceed_rule hkept fun t₂ hwrite => ?_
  have hkept' := hkept.trans root (keepsObjects_writeFile (b := b) (.part hpath) hwrite)
  refine Outcome.proceed_rule hkept' fun t₃ hwrite' => ?_
  exact hkept'.trans root (keepsObjects_writeFile (b := b) (.partMetadata hpath') hwrite')

theorem keepsObjects_removeUpload {uploadRoot : FsPath}
    (hroot : root.resolveMultipartUploadRoot b.text uploadId = .ok uploadRoot)
    (hremove : t.removeDirAll uploadRoot.names = .ok t') : KeepsObjects root t t' := by
  have hbind := hroot
  rw [FsPath.resolveMultipartUploadRoot] at hbind
  obtain ⟨_, -, hbind⟩ := Outcome.bind_eq_ok.mp hbind
  obtain ⟨id, hid, -⟩ := Outcome.bind_eq_ok.mp hbind
  obtain ⟨names, -, hnames⟩ := @resolveMultipartUploadRoot_sdkBucket root _ _ b.served _ _ hid
  obtain rfl := Except.ok.inj (hroot.symm.trans hnames)
  rw [names_bucketTree] at hremove
  intro tree htree b' rel
  refine FileTree.contentAt_removeDirAll hremove ?_
  rw [treePath_isPrefix]
  rintro ⟨⟨rfl, -⟩, -⟩
  exact htree rfl

theorem abortMultipartUpload_keepsObjects (t : StorageFiles) (key uploadId : String) :
    KeepsObjects root t (abortMultipartUpload root t b.toNamespace key uploadId).1 := by
  unfold abortMultipartUpload
  refine Outcome.proceed_rule (.refl root t) fun upload _ => ?_
  refine Outcome.proceed_rule (.refl root t) fun path hpath => ?_
  refine Outcome.proceed_rule (.refl root t) fun t₁ hremove => ?_
  exact keepsObjects_removeUpload hpath (Outcome.mapError_eq_ok.mp hremove)

theorem readMultipartUpload_key {bucket : Namespace}
    {upload : MultipartUpload} (h : readMultipartUpload root t bucket key uploadId = .ok upload) :
    ∃ parts, normalizeObjectKey key = .ok parts ∧ upload.key = keyText parts := by
  unfold readMultipartUpload at h
  obtain ⟨_, -, h⟩ := Outcome.bind_eq_ok.mp h
  obtain ⟨_, -, h⟩ := Outcome.bind_eq_ok.mp h
  obtain ⟨upload', -, h⟩ := Outcome.bind_eq_ok.mp h
  obtain ⟨parts, hkey, h⟩ := Outcome.bind_eq_ok.mp h
  obtain ⟨_, hsame, hok⟩ := Outcome.bind_eq_ok.mp h
  rw [Outcome.ensure_eq_ok, Bool.and_eq_true, beq_iff_eq, beq_iff_eq] at hsame
  rw [← Except.ok.inj hok]
  exact ⟨parts, hkey, hsame.2⟩

theorem normalizeObjectKey_of_resolve {bucket key : String}
    (h : root.resolveObjectPath bucket key = .ok path) :
    ∃ parts, normalizeObjectKey key = .ok parts := by
  rw [FsPath.resolveObjectPath] at h
  obtain ⟨_, -, h⟩ := Outcome.bind_eq_ok.mp h
  obtain ⟨parts, hkey, -⟩ := Outcome.bind_eq_ok.mp h
  exact ⟨parts, hkey⟩

/-- Where an object whose path is resolved lies. -/
theorem objectFile_of_resolve (h : root.resolveObjectPath b.text key = .ok path) :
    ∃ parts, normalizeObjectKey key = .ok parts ∧
      path.names = objectFile root b.toNamespace parts := by
  obtain ⟨parts, hkey⟩ := normalizeObjectKey_of_resolve h
  obtain ⟨path', hpath, hnames⟩ := resolveObjectPath_served root b hkey
  obtain rfl : path = path' := Except.ok.inj (h.symm.trans hpath)
  exact ⟨parts, hkey, hnames⟩

theorem metadataFile_of_resolve (h : root.resolveMetadataPath b.text key = .ok path) :
    ∃ parts, normalizeObjectKey key = .ok parts ∧
      path.names = metadataFile root b.toNamespace parts := by
  obtain ⟨_, -, hkey'⟩ := Outcome.bind_eq_ok.mp h
  obtain ⟨parts, hkey, -⟩ := Outcome.bind_eq_ok.mp hkey'
  obtain ⟨path', hpath, hnames⟩ := resolveMetadataPath_served root b hkey
  obtain rfl : path = path' := Except.ok.inj (h.symm.trans hpath)
  exact ⟨parts, hkey, hnames⟩

theorem normalizeObjectKey_of_put
    {contentType : Option String} {details : ObjectDetails} {m : ObjectMetadata}
    (h : (putObjectWithMetadata root dg now t b.toNamespace key data contentType details).2 =
      .ok m) :
    ∃ parts, normalizeObjectKey key = .ok parts := by
  rw [putObjectWithMetadata] at h
  obtain ⟨path, hresolve, -⟩ := Outcome.proceed_eq_ok.mp h
  exact normalizeObjectKey_of_resolve hresolve

theorem normalizeObjectKey_of_delete {u : Unit}
    (h : (deleteObject root t b.toNamespace key).2 = .ok u) :
    ∃ parts, normalizeObjectKey key = .ok parts := by
  rw [deleteObject] at h
  obtain ⟨path, hresolve, -⟩ := Outcome.proceed_eq_ok.mp h
  exact normalizeObjectKey_of_resolve hresolve

/-- An upload that is completed is stored like a put under its own key, with the
    ETag of its parts. -/
theorem completeMultipartUpload_ok {parts : List CompletedMultipartPart} {result : ObjectMetadata}
    (h : (completeMultipartUpload root dg now t b.toNamespace key uploadId parts).2 = .ok result) :
    ∃ requested stored data t', normalizeObjectKey key = .ok requested ∧
      normalizeObjectKey (keyText requested) = .ok stored ∧
      result.contentLength = data.length ∧
      t'.contentAt = Function.update
        (Function.update t.contentAt (objectFile root b.toNamespace stored) (some (.bytes data)))
        (metadataFile root b.toNamespace stored) (some (.metadata result)) ∧
      KeepsObjects root t'
        (completeMultipartUpload root dg now t b.toNamespace key uploadId parts).1 := by
  unfold completeMultipartUpload at h ⊢
  obtain ⟨_, hnonempty, h⟩ := Outcome.proceed_eq_ok.mp h
  rw [hnonempty, Outcome.proceed_ok]
  obtain ⟨upload, hread, h⟩ := Outcome.proceed_eq_ok.mp h
  rw [hread, Outcome.proceed_ok]
  obtain ⟨⟨assembled, etags⟩, hassembled, h⟩ := Outcome.proceed_eq_ok.mp h
  rw [hassembled, Outcome.proceed_ok]
  obtain ⟨requested, hkey, hupload⟩ := readMultipartUpload_key hread
  simp only at h ⊢
  -- the put under the key of the upload
  generalize hput : putObject root dg now t b.toNamespace upload.key assembled
    (some upload.contentType) = put at h ⊢
  obtain ⟨t₁, put⟩ := put
  obtain ⟨metadata, rfl, h⟩ := Outcome.proceed_eq_ok.mp h
  rw [Outcome.proceed_ok]
  obtain ⟨stored, hstored⟩ := normalizeObjectKey_of_put dg now (congrArg Prod.snd hput)
  have houtcome := putObject_outcome root dg now b t hstored assembled (some upload.contentType) {}
  rw [← putObject, hput] at houtcome
  cases houtcome with
  | stored _ hlength hcontent =>
    -- the metadata once more, with the other ETag
    generalize hwrite : writeMetadata root t₁ b.toNamespace upload.key
      { metadata with etag := dg.compositeEtag etags } = written at h ⊢
    obtain ⟨t₂, written⟩ := written
    obtain ⟨⟨⟩, rfl, h⟩ := Outcome.proceed_eq_ok.mp h
    have hcontent₂ := writeMetadata_ok root b hstored hwrite
    have hkept := @abortMultipartUpload_keepsObjects root b t₂ key uploadId
    rw [Outcome.proceed_ok]
    simp only at h ⊢
    generalize abortMultipartUpload root t₂ b.toNamespace key uploadId = aborted at h hkept ⊢
    obtain ⟨t₃, aborted⟩ := aborted
    obtain ⟨_, -, hresult⟩ := Outcome.map_eq_ok.mp h
    rw [hupload] at hstored
    refine ⟨requested, stored, assembled, t₂, hkey, hstored, ?_, ?_, ?_⟩
    · rw [← hresult]
      exact hlength
    · rw [hcontent₂, hcontent, Function.update_idem, hresult]
    · exact hkept

end Put

end StorageFiles

end Peanut
