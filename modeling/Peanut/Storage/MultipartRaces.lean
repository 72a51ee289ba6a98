import Peanut.Library.Interleaving
import Peanut.Storage.Listing

/-!
# Uploads in parts under concurrency

A part is a data file and a metadata file, written and read one after the other.
`complete_multipart_upload` checks the ETag of the metadata and then reads the
data, so a part that is sent again with other bytes can slip in between: what is
stored then is not what the client listed.
-/

namespace Peanut

open Relational StorageFiles Interleaving

/-- The two files of a part of a bucket. -/
structure PartFiles (root : FsPath) (b : BucketNamespace) where
  uploadId : String
  partNumber : Nat
  data : FsPath
  metadata : FsPath
  data_eq : root.resolveMultipartPartPath b.text uploadId partNumber = .ok data
  metadata_eq : root.resolveMultipartPartMetadataPath b.text uploadId partNumber = .ok metadata

def resolvePartFiles (root : FsPath) (b : BucketNamespace) (uploadId : String) (partNumber : Nat) :
    Except IoError (PartFiles root b) :=
  match hdata : root.resolveMultipartPartPath b.text uploadId partNumber,
      hmetadata : root.resolveMultipartPartMetadataPath b.text uploadId partNumber with
  | .ok data, .ok metadata => .ok ⟨uploadId, partNumber, data, metadata, hdata, hmetadata⟩
  | .error e, _ => .error e
  | _, .error e => .error e

/-- A listed part with the metadata and the data that were read for it. -/
structure AssembledPart where
  part : CompletedMultipartPart
  stored : MultipartUploadPart
  data : List UInt8

/-- The bytes that are put together of some parts. -/
def assembledData (pieces : List AssembledPart) : List UInt8 := pieces.flatMap AssembledPart.data

/-- Where the storing of the assembled object stands. -/
inductive FinishStage where
  | metadataDir
  | previous
  | data (metadata : ObjectMetadata)
  | metadataDirAgain (metadata : ObjectMetadata)
  | metadata (metadata : ObjectMetadata)
  | etagDir (metadata : ObjectMetadata)
  | etag (metadata : ObjectMetadata)
  | manifest (metadata : ObjectMetadata)
  | remove (metadata : ObjectMetadata) (uploadId : String)

/-- Where a request stands: what it has read, and the statement it executes next. -/
inductive PartStage (root : FsPath) (b : BucketNamespace) where
  | put (partNumber : Nat) (data : List UInt8)
  | opened (uploadId : String) (partNumber : Nat) (data : List UInt8)
  | prepared (files : PartFiles root b) (data : List UInt8)
  | written (files : PartFiles root b) (data : List UInt8)
  | putDone (reply : Except IoError MultipartUploadPart)
  | complete (parts : List CompletedMultipartPart)
  | assembling (upload : MultipartUpload) (previous : Nat) (rest : List CompletedMultipartPart)
      (pieces : List AssembledPart)
  | checking (upload : MultipartUpload) (files : PartFiles root b) (part : CompletedMultipartPart)
      (stored : MultipartUploadPart) (rest : List CompletedMultipartPart)
      (pieces : List AssembledPart)
  | finishing (upload : MultipartUpload) (pieces : List AssembledPart) (stage : FinishStage)
  | completed (upload : MultipartUpload) (pieces : List AssembledPart) (result : ObjectMetadata)
  | failed (error : IoError)

namespace PartStage

section Step

variable (root : FsPath) (dg : Digests) (b : BucketNamespace) (key uploadId now : String)

/-- The metadata of a part with the given bytes. -/
def partMetadata (partNumber : Nat) (data : List UInt8) : MultipartUploadPart :=
  { partNumber := partNumber, etag := dg.partEtag data, size := data.length }

/-- One statement of `put_multipart_part`. -/
def putStep (t : StorageFiles) : PartStage root b → StorageFiles × PartStage root b
  | .put partNumber data =>
      let checked := do
        Outcome.ensure (partNumber != 0)
          { kind := .invalidInput, message := "multipart part number must be greater than zero" }
        readMultipartUpload root t b.toNamespace key uploadId
      Outcome.resume checked (fun e => (t, .putDone (.error e))) fun upload =>
      (t, .opened upload.uploadId partNumber data)
  | .opened uploadId partNumber data =>
      let made := do
        let files ← resolvePartFiles root b uploadId partNumber
        let t ← t.createParent files.data
        return (t, files)
      Outcome.resume made (fun e => (t, .putDone (.error e))) fun (t, files) =>
      (t, .prepared files data)
  | .prepared files data =>
      Outcome.resume (t.writeFile files.data (.bytes data)) (fun e => (t, .putDone (.error e)))
        fun t => (t, .written files data)
  | .written files data =>
      let metadata := partMetadata dg files.partNumber data
      Outcome.resume (t.writeFile files.metadata (.part metadata))
        (fun e => (t, .putDone (.error e))) fun t => (t, .putDone (.ok metadata))
  | stage => (t, stage)

/-- One statement of the end of `complete_multipart_upload`: `put_object` after its first
    directory, `write_metadata` and `abort_multipart_upload`. -/
def finishStep (t : StorageFiles) (upload : MultipartUpload) (pieces : List AssembledPart)
    (path metadataPath : FsPath) : FinishStage → StorageFiles × PartStage root b
  | .metadataDir =>
      Outcome.resume (t.createParent metadataPath) (fun e => (t, .failed e)) fun t =>
      (t, .finishing upload pieces .previous)
  | .previous =>
      let previous := (readMetadata root t b.toNamespace upload.key).toOption
      let metadata := newMetadata dg now previous (assembledData pieces) (some upload.contentType)
        {}
      (t, .finishing upload pieces (.data metadata))
  | .data metadata =>
      Outcome.resume (t.writeFile path (.bytes (assembledData pieces))) (fun e => (t, .failed e))
        fun t => (t, .finishing upload pieces (.metadataDirAgain metadata))
  | .metadataDirAgain metadata =>
      Outcome.resume (t.createParent metadataPath) (fun e => (t, .failed e)) fun t =>
      (t, .finishing upload pieces (.metadata metadata))
  | .metadata metadata =>
      Outcome.resume (t.writeFile metadataPath (.metadata metadata)) (fun e => (t, .failed e))
        fun t =>
      let etag := dg.compositeEtag (pieces.map fun x => x.stored.etag)
      (t, .finishing upload pieces (.etagDir { metadata with etag := etag }))
  | .etagDir metadata =>
      Outcome.resume (t.createParent metadataPath) (fun e => (t, .failed e)) fun t =>
      (t, .finishing upload pieces (.etag metadata))
  | .etag metadata =>
      Outcome.resume (t.writeFile metadataPath (.metadata metadata)) (fun e => (t, .failed e))
        fun t => (t, .finishing upload pieces (.manifest metadata))
  | .manifest metadata =>
      Outcome.resume (readMultipartUpload root t b.toNamespace key uploadId)
        (fun e => (t, .failed e)) fun again =>
      (t, .finishing upload pieces (.remove metadata again.uploadId))
  | .remove metadata uploadId =>
      let removed := do
        let uploadRoot ← root.resolveMultipartUploadRoot b.text uploadId
        (t.removeDirAll uploadRoot.names).mapError ioError
      Outcome.resume removed (fun e => (t, .failed e)) fun t =>
      (t, .completed upload pieces metadata)

/-- The paths of the object and of its metadata. -/
def objectPaths (upload : MultipartUpload) : Except IoError (FsPath × FsPath) := do
  let path ← root.resolveObjectPath b.text upload.key
  let metadataPath ← root.resolveMetadataPath b.text upload.key
  return (path, metadataPath)

/-- One statement of `complete_multipart_upload`. -/
def completeStep (t : StorageFiles) : PartStage root b → StorageFiles × PartStage root b
  | .complete parts =>
      let checked := do
        Outcome.ensure (!parts.isEmpty)
          { kind := .invalidInput, message := "multipart completion requires at least one part" }
        readMultipartUpload root t b.toNamespace key uploadId
      Outcome.resume checked (fun e => (t, .failed e)) fun upload =>
      (t, .assembling upload 0 parts [])
  | .assembling upload previous (part :: rest) pieces =>
      let read := do
        checkPartOrder previous part
        let files ← resolvePartFiles root b upload.uploadId part.partNumber
        let raw ← t.readFile files.metadata
        let stored ← raw.asPart
        return (files, stored)
      Outcome.resume read (fun e => (t, .failed e)) fun (files, stored) =>
      (t, .checking upload files part stored rest pieces)
  | .checking upload files part stored rest pieces =>
      let read := do
        let raw ← t.readFile files.data
        let data ← raw.asBytes
        checkStoredPart part rest.isEmpty stored
        return data
      Outcome.resume read (fun e => (t, .failed e)) fun data =>
      (t, .assembling upload part.partNumber rest (pieces ++ [⟨part, stored, data⟩]))
  -- all parts are read: `put_object` begins with the directory of the object
  | .assembling upload _ [] pieces =>
      let made := do
        let (path, _) ← objectPaths root b upload
        t.createParent path
      Outcome.resume made (fun e => (t, .failed e)) fun t =>
      (t, .finishing upload pieces .metadataDir)
  | .finishing upload pieces stage =>
      Outcome.resume (objectPaths root b upload) (fun e => (t, .failed e))
        fun (path, metadataPath) =>
      finishStep root dg b key uploadId now t upload pieces path metadataPath stage
  | stage => (t, stage)

end Step

end PartStage

/-- The requests on one upload. -/
structure UploadCalls where
  root : FsPath
  dg : Digests
  b : BucketNamespace
  key : String
  uploadId : String

namespace UploadCalls

/-- One statement of a request; `now` is the clock. -/
def step (u : UploadCalls) (now : String) (t : StorageFiles) (stage : PartStage u.root u.b) :
    StorageFiles × PartStage u.root u.b :=
  match stage with
  | .put .. | .opened .. | .prepared .. | .written .. | .putDone _ =>
      PartStage.putStep u.root u.dg u.b u.key u.uploadId t stage
  | .complete _ | .assembling .. | .checking .. | .finishing .. | .completed .. | .failed _ =>
      PartStage.completeStep u.root u.dg u.b u.key u.uploadId now t stage

end UploadCalls

/-! ### The files of a part -/

theorem PartFiles.names {root : FsPath} {b : BucketNamespace} (files : PartFiles root b) :
    ∃ dir name, files.data.names = dir ++ [name ++ ".part"] ∧
      files.metadata.names = dir ++ [name ++ ".json"] := by
  obtain ⟨uploadRoot, hroot, hdata⟩ := Outcome.bind_eq_ok.mp files.data_eq
  obtain ⟨uploadRoot', hroot', hmetadata⟩ := Outcome.bind_eq_ok.mp files.metadata_eq
  obtain rfl := Except.ok.inj (hroot.symm.trans hroot')
  refine ⟨uploadRoot.names ++ ["parts"], fiveDigits files.partNumber, ?_, ?_⟩
  · rw [← Except.ok.inj hdata, FsPath.names_child, FsPath.names_child]
  · rw [← Except.ok.inj hmetadata, FsPath.names_child, FsPath.names_child]

theorem PartFiles.same_iff {root : FsPath} {b : BucketNamespace} (files files' : PartFiles root b) :
    files.metadata.names = files'.metadata.names ↔ files.data.names = files'.data.names := by
  obtain ⟨dir, name, hdata, hmetadata⟩ := files.names
  obtain ⟨dir', name', hdata', hmetadata'⟩ := files'.names
  rw [hdata, hdata', hmetadata, hmetadata', concat_extension_inj, concat_extension_inj]

theorem PartFiles.data_ne_metadata {root : FsPath} {b : BucketNamespace}
    (files files' : PartFiles root b) : files.data.names ≠ files'.metadata.names := by
  obtain ⟨dir, name, hdata, -⟩ := files.names
  obtain ⟨dir', name', -, hmetadata⟩ := files'.names
  rw [hdata, hmetadata]
  intro heq
  have hlast := congrArg (fun l => l.getLast?.bind fun s => s.toList.getLast?) heq
  simp at hlast

/-! ### What is read and what is listed -/

namespace PartStage

variable {root : FsPath} {b : BucketNamespace}

/-- The parts that have been read. -/
def pieces : PartStage root b → List AssembledPart
  | .assembling _ _ _ pieces => pieces
  | .checking _ _ _ _ _ pieces => pieces
  | .finishing _ pieces _ => pieces
  | .completed _ pieces _ => pieces
  | _ => []

/-- The stages of `put_multipart_part`. -/
def IsPut : PartStage root b → Prop
  | .put .. | .opened .. | .prepared .. | .written .. | .putDone _ => True
  | _ => False

/-- The stages of `complete_multipart_upload` for some parts: those that have been read
    and those that are left are the ones that are listed. -/
def IsComplete (key : String) (parts : List CompletedMultipartPart) : PartStage root b → Prop
  | .complete listed => listed = parts
  | .assembling upload _ rest pieces =>
      (∃ requested, normalizeObjectKey key = .ok requested ∧ upload.key = keyText requested) ∧
        pieces.map AssembledPart.part ++ rest = parts
  | .checking upload _ part _ rest pieces =>
      (∃ requested, normalizeObjectKey key = .ok requested ∧ upload.key = keyText requested) ∧
        pieces.map AssembledPart.part ++ part :: rest = parts
  | .finishing upload pieces _ =>
      (∃ requested, normalizeObjectKey key = .ok requested ∧ upload.key = keyText requested) ∧
        pieces.map AssembledPart.part = parts
  | .completed upload pieces _ =>
      (∃ requested, normalizeObjectKey key = .ok requested ∧ upload.key = keyText requested) ∧
        pieces.map AssembledPart.part = parts
  | .failed _ => True
  | _ => False

end PartStage

/-- Has the data of the object been written? -/
def FinishStage.hasData : FinishStage → Prop
  | .metadataDir | .previous | .data _ => False
  | _ => True

/-- The object of an upload is what has been assembled. -/
def ObjectIs (root : FsPath) (b : BucketNamespace) (t : StorageFiles) (upload : MultipartUpload)
    (pieces : List AssembledPart) : Prop :=
  ∃ stored, normalizeObjectKey upload.key = .ok stored ∧
    t.contentAt (objectFile root b.toNamespace stored) = some (.bytes (assembledData pieces))

/-- Once its data is written, the object is what was assembled. -/
def PartStage.DataKept {root : FsPath} {b : BucketNamespace} (t : StorageFiles) :
    PartStage root b → Prop
  | .finishing upload pieces stage => stage.hasData → ObjectIs root b t upload pieces
  | .completed upload pieces _ => ObjectIs root b t upload pieces
  | _ => True

/-- The data that was read for each part has the ETag that is listed for it. -/
def Matches (dg : Digests) (pieces : List AssembledPart) : Prop :=
  ∀ x ∈ pieces, dg.partEtag x.data = x.part.etag

section Steps

variable {u : UploadCalls} {now : String} {t : StorageFiles} {stage : PartStage u.root u.b}
  {parts : List CompletedMultipartPart}

theorem ObjectIs.elsewhere {root : FsPath} {b : BucketNamespace} {t t' : StorageFiles}
    {upload : MultipartUpload} {pieces : List AssembledPart} (h : ObjectIs root b t upload pieces)
    (hkeeps : KeepsObjects root t t') : ObjectIs root b t' upload pieces := by
  obtain ⟨stored, hstored, hcontent⟩ := h
  refine ⟨stored, hstored, ?_⟩
  rw [objectFile, hkeeps _ (by decide), ← objectFile]
  exact hcontent

theorem step_of_isPut (h : stage.IsPut) :
    u.step now t stage = stage.putStep u.root u.dg u.b u.key u.uploadId t := by
  cases stage <;> first | exact absurd h id | rfl

/-- What a statement of a put leaves behind: no object has changed. -/
structure PutKeeps (u : UploadCalls) (t : StorageFiles)
    (r : StorageFiles × PartStage u.root u.b) : Prop where
  objects : KeepsObjects u.root t r.1
  isPut : r.2.IsPut

theorem putStep_keeps (hput : stage.IsPut) :
    PutKeeps u t (stage.putStep u.root u.dg u.b u.key u.uploadId t) := by
  have hdone : ∀ e, PutKeeps u t (t, .putDone (.error e)) := fun e => ⟨.refl u.root t, trivial⟩
  cases stage with
  | put partNumber data =>
    rw [PartStage.putStep]
    exact Outcome.resume_rule (fun e _ => hdone e) fun _ _ => ⟨.refl u.root t, trivial⟩
  | opened uploadId partNumber data =>
    rw [PartStage.putStep]
    refine Outcome.resume_rule (fun e _ => hdone e) ?_
    rintro ⟨t', files⟩ hmade
    obtain ⟨files', -, hmade⟩ := Outcome.bind_eq_ok.mp hmade
    obtain ⟨t'', hdirs, hok⟩ := Outcome.bind_eq_ok.mp hmade
    obtain ⟨rfl, -⟩ := Prod.mk.inj (Except.ok.inj hok)
    exact ⟨keepsObjects_createParent (.part files'.data_eq) hdirs, trivial⟩
  | prepared files data =>
    rw [PartStage.putStep]
    refine Outcome.resume_rule (fun e _ => hdone e) fun t' hwrite => ?_
    exact ⟨keepsObjects_writeFile (.part files.data_eq) hwrite, trivial⟩
  | written files data =>
    rw [PartStage.putStep]
    refine Outcome.resume_rule (fun e _ => hdone e) fun t' hwrite => ?_
    exact ⟨keepsObjects_writeFile (.partMetadata files.metadata_eq) hwrite, trivial⟩
  | putDone reply => exact ⟨.refl u.root t, trivial⟩
  | _ => exact absurd hput id

/-- The data of a part is written and its metadata is not. -/
def PartStage.BetweenWrites {root : FsPath} {b : BucketNamespace} : PartStage root b → Prop
  | .written .. => True
  | _ => False

/-- What a statement of a put writes: nothing, the data of a part, or its metadata. -/
inductive PutWrites (u : UploadCalls) (t : StorageFiles) (stage : PartStage u.root u.b)
    (r : StorageFiles × PartStage u.root u.b) : Prop where
  | idle (hcontent : r.1.contentAt = t.contentAt) (hbefore : ¬ stage.BetweenWrites)
      (hafter : ¬ r.2.BetweenWrites)
  | data {files : PartFiles u.root u.b} {data : List UInt8} (hstage : stage = .prepared files data)
      (hcontent : r.1.contentAt =
        Function.update t.contentAt files.data.names (some (.bytes data)))
      (hafter : r.2 = .written files data)
  | metadata {files : PartFiles u.root u.b} {data : List UInt8}
      (hstage : stage = .written files data)
      (hcontent : r.1.contentAt = Function.update t.contentAt files.metadata.names
          (some (.part (PartStage.partMetadata u.dg files.partNumber data))) ∨
        r.1.contentAt = t.contentAt ∧ t.contentAt files.metadata.names = none)
      (hafter : ¬ r.2.BetweenWrites)

theorem putStep_writes (hput : stage.IsPut) :
    PutWrites u t stage (stage.putStep u.root u.dg u.b u.key u.uploadId t) := by
  cases stage with
  | put partNumber data =>
    rw [PartStage.putStep]
    exact Outcome.resume_rule (fun _ _ => .idle rfl id id) fun _ _ => .idle rfl id id
  | opened uploadId partNumber data =>
    rw [PartStage.putStep]
    refine Outcome.resume_rule (fun _ _ => .idle rfl id id) ?_
    rintro ⟨t', files⟩ hmade
    obtain ⟨files', -, hmade⟩ := Outcome.bind_eq_ok.mp hmade
    obtain ⟨t'', hdirs, hok⟩ := Outcome.bind_eq_ok.mp hmade
    obtain ⟨rfl, rfl⟩ := Prod.mk.inj (Except.ok.inj hok)
    obtain ⟨dir, name, hnames, -⟩ := files'.names
    have hne : files'.data.names ≠ [] := by
      rw [hnames]
      exact List.append_ne_nil_of_right_ne_nil dir (List.cons_ne_nil _ _)
    exact .idle (createParent_ok hne hdirs).1.content id id
  | prepared files data =>
    rw [PartStage.putStep]
    refine Outcome.resume_rule (fun _ _ => .idle rfl id id) fun t' hwrite => ?_
    rw [writeFile, Outcome.mapError_eq_ok] at hwrite
    exact .data rfl (FileTree.contentAt_write hwrite) rfl
  | written files data =>
    rw [PartStage.putStep]
    refine Outcome.resume_rule (fun e hwrite => ?_) fun t' hwrite => ?_
    · refine .metadata rfl (.inr ⟨rfl, ?_⟩) id
      rw [writeFile] at hwrite
      cases hfile : t.write files.metadata.names
          (.part (PartStage.partMetadata u.dg files.partNumber data)) with
      | ok t' =>
        rw [hfile] at hwrite
        cases hwrite
      | error e => exact FileTree.contentAt_of_write_error hfile
    · rw [writeFile, Outcome.mapError_eq_ok] at hwrite
      exact .metadata rfl (.inl (FileTree.contentAt_write hwrite)) id
  | putDone reply => exact .idle rfl id id
  | _ => exact absurd hput id

theorem step_of_isComplete (h : stage.IsComplete u.key parts) :
    u.step now t stage = stage.completeStep u.root u.dg u.b u.key u.uploadId now t := by
  cases stage <;> first | exact absurd h id | rfl

/-- What a statement of the completion leaves behind. -/
structure CompleteKeeps (u : UploadCalls) (parts : List CompletedMultipartPart)
    (r : StorageFiles × PartStage u.root u.b) : Prop where
  listed : r.2.IsComplete u.key parts
  data : r.2.DataKept r.1

theorem CompleteKeeps.failed (e : IoError) : CompleteKeeps u parts (t, .failed e) :=
  ⟨trivial, trivial⟩

theorem objectPaths_ok {root : FsPath} {b : BucketNamespace} {upload : MultipartUpload}
    {path metadataPath : FsPath}
    (h : PartStage.objectPaths root b upload = .ok (path, metadataPath)) :
    ∃ stored, normalizeObjectKey upload.key = .ok stored ∧
      path.names = objectFile root b.toNamespace stored ∧
      metadataPath.names = metadataFile root b.toNamespace stored := by
  obtain ⟨path', hpath, h⟩ := Outcome.bind_eq_ok.mp h
  obtain ⟨metadataPath', hmetadata, hok⟩ := Outcome.bind_eq_ok.mp h
  obtain ⟨rfl, rfl⟩ := Prod.mk.inj (Except.ok.inj hok)
  obtain ⟨stored, hstored, hnames⟩ := objectFile_of_resolve hpath
  obtain ⟨stored', hstored', hnames'⟩ := metadataFile_of_resolve hmetadata
  obtain rfl := Except.ok.inj (hstored'.symm.trans hstored)
  exact ⟨stored', hstored, hnames, hnames'⟩

theorem ObjectIs.createParent {root : FsPath} {b : BucketNamespace} {t t' : StorageFiles}
    {upload : MultipartUpload} {pieces : List AssembledPart} (h : ObjectIs root b t upload pieces)
    {path : FsPath} (hpath : path.names ≠ []) (hdirs : t.createParent path = .ok t') :
    ObjectIs root b t' upload pieces :=
  h.elsewhere (keepsObjects_of_same root (createParent_ok hpath hdirs).1)

theorem ObjectIs.writeMetadata {root : FsPath} {b : BucketNamespace} {t t' : StorageFiles}
    {upload : MultipartUpload} {pieces : List AssembledPart} (h : ObjectIs root b t upload pieces)
    {path : FsPath} {parts : List String}
    (hpath : path.names = metadataFile root b.toNamespace parts)
    {c : StorageContent} (hwrite : t.writeFile path c = .ok t') :
    ObjectIs root b t' upload pieces := by
  obtain ⟨stored, hstored, hcontent⟩ := h
  refine ⟨stored, hstored, ?_⟩
  rw [writeFile, Outcome.mapError_eq_ok, hpath] at hwrite
  rw [FileTree.contentAt_write hwrite, Function.update_of_ne]
  · exact hcontent
  · rw [objectFile, metadataFile, Ne, treePath_inj]
    rintro ⟨⟨htree, -⟩, -⟩
    cases htree

theorem finishStep_keeps {upload : MultipartUpload} {pieces : List AssembledPart}
    {path metadataPath : FsPath} {stored : List String}
    (hlisted : (PartStage.finishing upload pieces .metadataDir :
      PartStage u.root u.b).IsComplete u.key parts)
    (hstored : normalizeObjectKey upload.key = .ok stored)
    (hpath : path.names = objectFile u.root u.b.toNamespace stored)
    (hmetadata : metadataPath.names = metadataFile u.root u.b.toNamespace stored)
    {stage : FinishStage} (hdata : stage.hasData → ObjectIs u.root u.b t upload pieces) :
    CompleteKeeps u parts (PartStage.finishStep u.root u.dg u.b u.key u.uploadId now t upload pieces
      path metadataPath stage) := by
  have hne : metadataPath.names ≠ [] :=
    hmetadata ▸ treePath_ne_nil u.root .metadata u.b.toNamespace (withJson stored)
  cases stage with
  | metadataDir =>
    rw [PartStage.finishStep]
    exact Outcome.resume_rule (fun e _ => .failed e) fun _ _ => ⟨hlisted, False.elim⟩
  | previous => exact ⟨hlisted, False.elim⟩
  | data metadata =>
    rw [PartStage.finishStep]
    refine Outcome.resume_rule (fun e _ => .failed e) fun t' hwrite => ⟨hlisted, fun _ => ?_⟩
    refine ⟨stored, hstored, ?_⟩
    rw [writeFile, Outcome.mapError_eq_ok, hpath] at hwrite
    rw [FileTree.contentAt_write hwrite, Function.update_self]
  | metadataDirAgain metadata =>
    rw [PartStage.finishStep]
    refine Outcome.resume_rule (fun e _ => .failed e) fun t' hdirs => ⟨hlisted, fun _ => ?_⟩
    exact (hdata trivial).createParent hne hdirs
  | metadata metadata =>
    rw [PartStage.finishStep]
    refine Outcome.resume_rule (fun e _ => .failed e) fun t' hwrite => ⟨hlisted, fun _ => ?_⟩
    exact (hdata trivial).writeMetadata hmetadata hwrite
  | etagDir metadata =>
    rw [PartStage.finishStep]
    refine Outcome.resume_rule (fun e _ => .failed e) fun t' hdirs => ⟨hlisted, fun _ => ?_⟩
    exact (hdata trivial).createParent hne hdirs
  | etag metadata =>
    rw [PartStage.finishStep]
    refine Outcome.resume_rule (fun e _ => .failed e) fun t' hwrite => ⟨hlisted, fun _ => ?_⟩
    exact (hdata trivial).writeMetadata hmetadata hwrite
  | manifest metadata =>
    rw [PartStage.finishStep]
    exact Outcome.resume_rule (fun e _ => .failed e) fun _ _ => ⟨hlisted, fun _ => hdata trivial⟩
  | remove metadata uploadId =>
    rw [PartStage.finishStep]
    refine Outcome.resume_rule (fun e _ => .failed e) fun t' hremoved => ⟨hlisted, ?_⟩
    obtain ⟨uploadRoot, hroot, hremove⟩ := Outcome.bind_eq_ok.mp hremoved
    rw [Outcome.mapError_eq_ok] at hremove
    exact (hdata trivial).elsewhere (keepsObjects_removeUpload hroot hremove)

/-- **Step lemma for the completion.** -/
theorem completeStep_keeps (hlisted : stage.IsComplete u.key parts) (hdata : stage.DataKept t) :
    CompleteKeeps u parts
      (stage.completeStep u.root u.dg u.b u.key u.uploadId now t) := by
  cases stage with
  | complete listed =>
    rw [PartStage.completeStep]
    refine Outcome.resume_rule (fun e _ => .failed e) fun upload hread => ?_
    obtain ⟨_, -, hread⟩ := Outcome.bind_eq_ok.mp hread
    exact ⟨⟨readMultipartUpload_key hread, hlisted⟩, trivial⟩
  | assembling upload previous rest pieces =>
    cases rest with
    | nil =>
      rw [PartStage.completeStep]
      refine Outcome.resume_rule (fun e _ => .failed e) fun t' _ => ⟨⟨hlisted.1, ?_⟩, False.elim⟩
      have hall := hlisted.2
      rwa [List.append_nil] at hall
    | cons part rest =>
      rw [PartStage.completeStep]
      refine Outcome.resume_rule (fun e _ => .failed e) ?_
      rintro ⟨files, stored⟩ _
      exact ⟨hlisted, trivial⟩
  | checking upload files part stored rest pieces =>
    rw [PartStage.completeStep]
    refine Outcome.resume_rule (fun e _ => .failed e) fun data _ => ⟨⟨hlisted.1, ?_⟩, trivial⟩
    have hall := hlisted.2
    rw [List.map_append, List.append_assoc]
    exact hall
  | finishing upload pieces stage =>
    rw [PartStage.completeStep]
    refine Outcome.resume_rule (fun e _ => .failed e) ?_
    rintro ⟨path, metadataPath⟩ hpaths
    obtain ⟨stored, hstored, hpath, hmetadata⟩ := objectPaths_ok hpaths
    exact finishStep_keeps hlisted hstored hpath hmetadata hdata
  | completed upload pieces result => exact ⟨hlisted, hdata⟩
  | failed e => exact .failed e
  | _ => exact absurd hlisted id

/-- The data of a part is read from its file, and its metadata passes the checks. -/
def ReadsPart (t : StorageFiles) {root : FsPath} {b : BucketNamespace} (files : PartFiles root b)
    (part : CompletedMultipartPart) (stored : MultipartUploadPart)
    (rest : List CompletedMultipartPart) (data : List UInt8) : Prop :=
  t.contentAt files.data.names = some (.bytes data) ∧
    checkStoredPart part rest.isEmpty stored = .ok ()

theorem completeStep_checking {upload : MultipartUpload} {files : PartFiles u.root u.b}
    {part : CompletedMultipartPart} {stored : MultipartUploadPart}
    {rest : List CompletedMultipartPart} {pieces : List AssembledPart} {data : List UInt8}
    (h : ReadsPart t files part stored rest data) :
    (PartStage.checking upload files part stored rest pieces).completeStep u.root u.dg u.b u.key
      u.uploadId now t =
        (t, .assembling upload part.partNumber rest (pieces ++ [⟨part, stored, data⟩])) := by
  rw [PartStage.completeStep, readFile, FileTree.read_eq_ok_iff.mpr h.1, h.2]
  rfl

/-- How the parts that have been read change: they do not, or one is added, or the
    completion fails. -/
inductive PiecesStep (u : UploadCalls) (t : StorageFiles) (stage : PartStage u.root u.b)
    (r : StorageFiles × PartStage u.root u.b) : Prop where
  | same (h : r.2.pieces = stage.pieces)
  | failed {e : IoError} (h : r.2 = .failed e)
  | read {upload : MultipartUpload} {files : PartFiles u.root u.b} {part : CompletedMultipartPart}
      {stored : MultipartUploadPart} {rest : List CompletedMultipartPart}
      {pieces : List AssembledPart} {data : List UInt8}
      (hstage : stage = .checking upload files part stored rest pieces)
      (hread : ReadsPart t files part stored rest data)
      (h : r.2.pieces = pieces ++ [⟨part, stored, data⟩])

theorem finishStep_pieces {upload : MultipartUpload} {pieces : List AssembledPart}
    {path metadataPath : FsPath} (stage : FinishStage) :
    PiecesStep u t (.finishing upload pieces stage) (PartStage.finishStep u.root u.dg u.b u.key
      u.uploadId now t upload pieces path metadataPath stage) := by
  cases stage with
  | previous => exact .same rfl
  | _ =>
    rw [PartStage.finishStep]
    exact Outcome.resume_rule (fun _ _ => .failed rfl) fun _ _ => .same rfl

theorem completeStep_pieces (hlisted : stage.IsComplete u.key parts) :
    PiecesStep u t stage (stage.completeStep u.root u.dg u.b u.key u.uploadId now t) := by
  cases stage with
  | complete listed =>
    rw [PartStage.completeStep]
    exact Outcome.resume_rule (fun _ _ => .failed rfl) fun _ _ => .same rfl
  | assembling upload previous rest pieces =>
    cases rest with
    | nil =>
      rw [PartStage.completeStep]
      exact Outcome.resume_rule (fun _ _ => .failed rfl) fun _ _ => .same rfl
    | cons part rest =>
      rw [PartStage.completeStep]
      exact Outcome.resume_rule (fun _ _ => .failed rfl) fun _ _ => .same rfl
  | checking upload files part stored rest pieces =>
    rw [PartStage.completeStep]
    refine Outcome.resume_rule (fun _ _ => .failed rfl) fun data hread => .read rfl ?_ rfl
    obtain ⟨raw, hraw, hread⟩ := Outcome.bind_eq_ok.mp hread
    obtain ⟨data', hdata, hread⟩ := Outcome.bind_eq_ok.mp hread
    obtain ⟨⟨⟩, hchecked, hok⟩ := Outcome.bind_eq_ok.mp hread
    obtain rfl := Except.ok.inj hok
    rw [readFile, Outcome.mapError_eq_ok, FileTree.read_eq_ok_iff,
      StorageContent.asBytes_eq_ok.mp hdata] at hraw
    exact ⟨hraw, hchecked⟩
  | finishing upload pieces stage =>
    rw [PartStage.completeStep]
    refine Outcome.resume_rule (fun _ _ => .failed rfl) ?_
    rintro ⟨path, metadataPath⟩ _
    exact finishStep_pieces stage
  | completed upload pieces result => exact .same rfl
  | failed e => exact .failed rfl
  | _ => exact absurd hlisted id

/-- The stages in which parts are still to be read. -/
def PartStage.Reading {root : FsPath} {b : BucketNamespace} : PartStage root b → Prop
  | .complete _ | .assembling .. | .checking .. => True
  | _ => False

/-- A statement after which parts are still to be read changes no file, and what it takes
    for the metadata of a part is in its file. -/
inductive ReadStep (u : UploadCalls) (t : StorageFiles) (stage : PartStage u.root u.b)
    (r : StorageFiles × PartStage u.root u.b) : Prop where
  | finished (h : ¬ r.2.Reading)
  | reading (hreading : stage.Reading) (hstore : r.1 = t)
      (hchecking : ∀ upload files part stored rest pieces,
        r.2 = .checking upload files part stored rest pieces →
          (∃ previous, stage = .assembling upload previous (part :: rest) pieces) ∧
            resolvePartFiles u.root u.b upload.uploadId part.partNumber = .ok files ∧
              t.contentAt files.metadata.names = some (.part stored))

theorem finishStep_reading {upload : MultipartUpload} {pieces : List AssembledPart}
    {path metadataPath : FsPath} {before : PartStage u.root u.b} (stage : FinishStage) :
    ReadStep u t before (PartStage.finishStep u.root u.dg u.b u.key u.uploadId now t upload pieces
      path metadataPath stage) := by
  cases stage with
  | previous => exact .finished id
  | _ =>
    rw [PartStage.finishStep]
    exact Outcome.resume_rule (fun _ _ => .finished id) fun _ _ => .finished id

theorem completeStep_reading (hlisted : stage.IsComplete u.key parts) :
    ReadStep u t stage (stage.completeStep u.root u.dg u.b u.key u.uploadId now t) := by
  cases stage with
  | complete listed =>
    rw [PartStage.completeStep]
    refine Outcome.resume_rule (fun _ _ => .finished id) fun upload _ => .reading trivial rfl ?_
    rintro _ _ _ _ _ _ ⟨⟩
  | assembling upload previous rest pieces =>
    cases rest with
    | nil =>
      rw [PartStage.completeStep]
      exact Outcome.resume_rule (fun _ _ => .finished id) fun _ _ => .finished id
    | cons part rest =>
      rw [PartStage.completeStep]
      refine Outcome.resume_rule (fun _ _ => .finished id) ?_
      rintro ⟨files, stored⟩ hread
      refine .reading trivial rfl ?_
      rintro _ _ _ _ _ _ ⟨⟩
      obtain ⟨_, -, hread⟩ := Outcome.bind_eq_ok.mp hread
      obtain ⟨files', hfiles, hread⟩ := Outcome.bind_eq_ok.mp hread
      obtain ⟨raw, hraw, hread⟩ := Outcome.bind_eq_ok.mp hread
      obtain ⟨stored', hstored, hok⟩ := Outcome.bind_eq_ok.mp hread
      obtain ⟨rfl, rfl⟩ := Prod.mk.inj (Except.ok.inj hok)
      rw [readFile, Outcome.mapError_eq_ok, FileTree.read_eq_ok_iff,
        StorageContent.asPart_eq_ok.mp hstored] at hraw
      exact ⟨⟨previous, rfl⟩, hfiles, hraw⟩
  | checking upload files part stored rest pieces =>
    rw [PartStage.completeStep]
    refine Outcome.resume_rule (fun _ _ => .finished id) fun data _ => .reading trivial rfl ?_
    rintro _ _ _ _ _ _ ⟨⟩
  | finishing upload pieces stage =>
    rw [PartStage.completeStep]
    refine Outcome.resume_rule (fun _ _ => .finished id) ?_
    rintro ⟨path, metadataPath⟩ _
    exact finishStep_reading stage
  | completed upload pieces result => exact .finished id
  | failed e => exact .finished id
  | _ => exact absurd hlisted id

end Steps

/-! ### A request on its own -/

/-- The files of a part are found, or the id of the upload is refused. -/
inductive PartFilesOutcome (root : FsPath) (b : BucketNamespace) (uploadId : String)
    (partNumber : Nat) : Except IoError (PartFiles root b) → Prop where
  | ok {files : PartFiles root b}
      (hdata : root.resolveMultipartPartPath b.text uploadId partNumber = .ok files.data)
      (hmetadata :
        root.resolveMultipartPartMetadataPath b.text uploadId partNumber = .ok files.metadata)
      (hnumber : files.partNumber = partNumber) :
      PartFilesOutcome root b uploadId partNumber (.ok files)
  | error {e : IoError} (hdata : root.resolveMultipartPartPath b.text uploadId partNumber =
    .error e)
      (hmetadata : root.resolveMultipartPartMetadataPath b.text uploadId partNumber = .error e) :
      PartFilesOutcome root b uploadId partNumber (.error e)

theorem resolvePartFiles_outcome (root : FsPath) (b : BucketNamespace) (uploadId : String)
    (partNumber : Nat) :
    PartFilesOutcome root b uploadId partNumber (resolvePartFiles root b uploadId partNumber) := by
  have hboth : ∀ e, root.resolveMultipartPartPath b.text uploadId partNumber = .error e ↔
      root.resolveMultipartPartMetadataPath b.text uploadId partNumber = .error e := by
    intro e
    rw [FsPath.resolveMultipartPartPath, FsPath.resolveMultipartPartMetadataPath,
      FsPath.resolvePartFile, FsPath.resolvePartFile, Outcome.bind_pure_eq_error,
      Outcome.bind_pure_eq_error]
  unfold resolvePartFiles
  split
  · rename_i hdata hmetadata
    exact .ok hdata hmetadata rfl
  · rename_i e hdata
    exact .error hdata ((hboth e).mp hdata)
  · rename_i e hmetadata _
    exact .error ((hboth e).mpr hmetadata) hmetadata

section Alone

/-- What `put_multipart_part` answers. -/
def PartStage.putReply {root : FsPath} {b : BucketNamespace} :
    PartStage root b → Option (Except IoError MultipartUploadPart)
  | .putDone reply => some reply
  | _ => none

/-- What `complete_multipart_upload` answers. -/
def PartStage.completeReply {root : FsPath} {b : BucketNamespace} :
    PartStage root b → Option (Except IoError ObjectMetadata)
  | .completed _ _ metadata => some (.ok metadata)
  | .failed e => some (.error e)
  | _ => none

variable {u : UploadCalls} {now : String} {t : StorageFiles}

theorem putMultipartPart_alone (partNumber : Nat) (data : List UInt8) :
    Answers u.step now PartStage.putReply (t, .put partNumber data)
      (putMultipartPart u.root u.dg t u.b.toNamespace u.key u.uploadId partNumber data) := by
  have hstop : ∀ e, (.putDone (.error e) : PartStage u.root u.b).putReply = some (.error e) :=
    fun _ => rfl
  refine .next ?_
  rw [UploadCalls.step, PartStage.putStep, putMultipartPart, ← Outcome.proceed_bind]
  refine answers_resume hstop fun upload _ => .next ?_
  have hfiles := resolvePartFiles_outcome u.root u.b upload.uploadId partNumber
  rw [UploadCalls.step, PartStage.putStep]
  generalize resolvePartFiles u.root u.b upload.uploadId partNumber = resolved at hfiles ⊢
  cases hfiles with
  | error hdata _ =>
    rw [hdata]
    exact .done (hstop _)
  | @ok files hdata hmetadata hnumber =>
    rw [hdata, hmetadata, Outcome.ok_bind, Outcome.proceed_ok, Outcome.proceed_ok]
    cases hdirs : t.createParent files.data with
    | error e => exact .done (hstop e)
    | ok prepared =>
      refine .next ?_
      rw [UploadCalls.step, PartStage.putStep, Outcome.proceed_ok]
      refine answers_resume hstop fun _ _ => .next ?_
      rw [UploadCalls.step, PartStage.putStep, PartStage.partMetadata, hnumber]
      refine answers_resume hstop fun _ _ => ?_
      exact .done rfl

theorem readPart_alone {upload : MultipartUpload} {previous : Nat} {part : CompletedMultipartPart}
    {rest : List CompletedMultipartPart} {pieces : List AssembledPart}
    {next : MultipartUploadPart × List UInt8 → StorageFiles × Except IoError ObjectMetadata}
    (h : ∀ stored data, Answers u.step now PartStage.completeReply
      (t, .assembling upload part.partNumber rest (pieces ++ [⟨part, stored, data⟩]))
      (next (stored, data))) :
    Answers u.step now PartStage.completeReply
      (t, .assembling upload previous (part :: rest) pieces)
      (Outcome.proceed t (checkPartOrder previous part) fun _ =>
        Outcome.proceed t (readMultipartPart u.root t u.b.toNamespace upload.uploadId
          part.partNumber)
          fun (stored, data) =>
            Outcome.proceed t (checkStoredPart part rest.isEmpty stored) fun _ =>
              next (stored, data)) := by
  have hstop : ∀ e, (.failed e : PartStage u.root u.b).completeReply = some (.error e) :=
    fun _ => rfl
  refine .next ?_
  rw [UploadCalls.step, PartStage.completeStep, Outcome.resume_bind]
  refine answers_resume hstop fun _ _ => ?_
  have hfiles := resolvePartFiles_outcome u.root u.b upload.uploadId part.partNumber
  rw [readMultipartPart, Outcome.resume_bind]
  generalize resolvePartFiles u.root u.b upload.uploadId part.partNumber = resolved at hfiles ⊢
  cases hfiles with
  | error _ hmetadata =>
    rw [hmetadata]
    exact .done (hstop _)
  | @ok files hdata hmetadata _ =>
    rw [hdata, hmetadata, Outcome.ok_bind, Outcome.ok_bind, Outcome.resume_ok, Outcome.resume_bind,
      Outcome.proceed_bind]
    refine answers_resume hstop fun raw _ => ?_
    rw [Outcome.resume_bind, Outcome.proceed_bind]
    refine answers_resume hstop fun stored _ => .next ?_
    rw [UploadCalls.step, PartStage.completeStep, Outcome.resume_bind, Outcome.proceed_bind]
    refine answers_resume hstop fun raw' _ => ?_
    rw [Outcome.resume_bind, Outcome.proceed_bind]
    refine answers_resume hstop fun data _ => ?_
    rw [Outcome.resume_bind]
    refine answers_resume hstop fun _ _ => ?_
    exact h stored data

theorem assembleParts_alone {upload : MultipartUpload} {rest : List CompletedMultipartPart} :
    ∀ (previous : Nat) (pieces : List AssembledPart)
      {next : List UInt8 × List String → StorageFiles × Except IoError ObjectMetadata},
      (∀ previous' pieces', Answers u.step now PartStage.completeReply
        (t, .assembling upload previous' [] (pieces ++ pieces'))
        (next (assembledData pieces', pieces'.map fun x => x.stored.etag))) →
      Answers u.step now PartStage.completeReply (t, .assembling upload previous rest pieces)
        (Outcome.proceed t (assembleParts u.root t u.b.toNamespace upload.uploadId previous rest)
          next) := by
  induction rest with
  | nil =>
    intro previous pieces next h
    have hall := h previous []
    rw [List.append_nil] at hall
    exact hall
  | cons part rest ih =>
    intro previous pieces next h
    rw [assembleParts, Outcome.proceed_bind]
    simp only [Outcome.proceed_bind]
    let next' : MultipartUploadPart × List UInt8 → StorageFiles × Except IoError ObjectMetadata :=
      fun read => Outcome.proceed t
        (assembleParts u.root t u.b.toNamespace upload.uploadId part.partNumber rest)
          fun tail => next (read.2 ++ tail.1, read.1.etag :: tail.2)
    refine @readPart_alone u now t upload previous part rest pieces next' ?_
    intro stored data
    refine ih part.partNumber (pieces ++ [⟨part, stored, data⟩]) ?_
    intro previous' pieces'
    have hall := h previous' (⟨part, stored, data⟩ :: pieces')
    rw [List.append_assoc]
    exact hall

theorem finish_alone {upload : MultipartUpload} {pieces : List AssembledPart} (previous : Nat) :
    Answers u.step now PartStage.completeReply (t, .assembling upload previous [] pieces)
      (let (t, put) := putObject u.root u.dg now t u.b.toNamespace upload.key (assembledData pieces)
        (some upload.contentType)
      Outcome.proceed t put fun metadata =>
      let metadata := { metadata with
        etag := u.dg.compositeEtag (pieces.map fun x => x.stored.etag) }
      let (t, written) := writeMetadata u.root t u.b.toNamespace upload.key metadata
      Outcome.proceed t written fun _ =>
      let (t, aborted) := abortMultipartUpload u.root t u.b.toNamespace u.key u.uploadId
      (t, aborted.map fun _ => metadata)) := by
  have hstop : ∀ e, (.failed e : PartStage u.root u.b).completeReply = some (.error e) :=
    fun _ => rfl
  refine .next ?_
  rw [UploadCalls.step, PartStage.completeStep]
  rw [putObject, putObjectWithMetadata]
  cases hpath : u.root.resolveObjectPath u.b.text upload.key with
  | error e =>
    rw [PartStage.objectPaths, hpath]
    exact .done (hstop e)
  | ok path =>
    cases hmetadata : u.root.resolveMetadataPath u.b.text upload.key with
    | error e =>
      rw [PartStage.objectPaths, hpath, hmetadata]
      exact .done (hstop e)
    | ok metadataPath =>
      have hpaths : PartStage.objectPaths u.root u.b upload = .ok (path, metadataPath) := by
        rw [PartStage.objectPaths, hpath, hmetadata]
        rfl
      have hstep : ∀ t stage, u.step now t (.finishing upload pieces stage) =
          PartStage.finishStep u.root u.dg u.b u.key u.uploadId now t upload pieces path
            metadataPath
            stage := by
        intro t stage
        rw [UploadCalls.step, PartStage.completeStep, hpaths, Outcome.resume_ok]
      rw [hpaths, Outcome.ok_bind, Outcome.proceed_ok, Outcome.proceed_ok]
      dsimp only
      cases t.createParent path with
      | error e => exact .done (hstop e)
      | ok t =>
      refine .next ?_
      rw [hstep, PartStage.finishStep, Outcome.proceed_ok]
      cases t.createParent metadataPath with
      | error e => exact .done (hstop e)
      | ok t =>
      refine .next ?_
      rw [hstep, PartStage.finishStep, Outcome.proceed_ok]
      refine .next ?_
      rw [hstep, PartStage.finishStep]
      cases t.writeFile path (.bytes (assembledData pieces)) with
      | error e => exact .done (hstop e)
      | ok t' =>
      refine .next ?_
      rw [hstep, PartStage.finishStep, Outcome.proceed_ok]
      generalize newMetadata u.dg now _ (assembledData pieces) (some upload.contentType) {} =
        metadata
      rw [writeMetadata, hmetadata, Outcome.proceed_ok]
      cases t'.createParent metadataPath with
      | error e => exact .done (hstop e)
      | ok t =>
      refine .next ?_
      rw [hstep, PartStage.finishStep, Outcome.proceed_ok]
      cases t.writeFile metadataPath (.metadata metadata) with
      | error e => exact .done (hstop e)
      | ok t =>
      refine .next ?_
      rw [hstep, PartStage.finishStep, Outcome.proceed_ok, Except.map, Outcome.proceed_ok,
        writeMetadata, hmetadata, Outcome.proceed_ok]
      cases t.createParent metadataPath with
      | error e => exact .done (hstop e)
      | ok t =>
      refine .next ?_
      rw [hstep, PartStage.finishStep, Outcome.proceed_ok]
      generalize ({ metadata with etag := _ } : ObjectMetadata) = metadata
      cases t.writeFile metadataPath (.metadata metadata) with
      | error e => exact .done (hstop e)
      | ok t =>
      refine .next ?_
      rw [hstep, PartStage.finishStep, Outcome.proceed_ok, Outcome.proceed_ok, abortMultipartUpload]
      cases readMultipartUpload u.root t u.b.toNamespace u.key u.uploadId with
      | error e => exact .done (hstop e)
      | ok again =>
      refine .next ?_
      rw [hstep, PartStage.finishStep, Outcome.proceed_ok]
      cases u.root.resolveMultipartUploadRoot u.b.text again.uploadId with
      | error e => exact .done (hstop e)
      | ok uploadRoot =>
      rw [Outcome.ok_bind, Outcome.proceed_ok]
      cases (t.removeDirAll uploadRoot.names).mapError ioError with
      | error e => exact .done (hstop e)
      | ok t => exact .done rfl

theorem completeMultipartUpload_alone (parts : List CompletedMultipartPart) :
    Answers u.step now PartStage.completeReply (t, .complete parts)
      (completeMultipartUpload u.root u.dg now t u.b.toNamespace u.key u.uploadId parts) := by
  have hstop : ∀ e, (.failed e : PartStage u.root u.b).completeReply = some (.error e) :=
    fun _ => rfl
  refine .next ?_
  rw [UploadCalls.step, PartStage.completeStep, completeMultipartUpload, ← Outcome.proceed_bind]
  refine answers_resume hstop fun upload _ => ?_
  refine assembleParts_alone 0 [] fun previous pieces => ?_
  rw [List.nil_append]
  exact finish_alone previous

end Alone

/-! ### Every overlap -/

section Overlaps

variable {ι : Type} [DecidableEq ι] {u : UploadCalls} {c : ι}
  {parts : List CompletedMultipartPart} {p : Pool ι StorageFiles (PartStage u.root u.b)}
  {t : ι × String}

/-- One request completes the upload with the given list, and the others put parts. -/
structure Underway (u : UploadCalls) (c : ι) (parts : List CompletedMultipartPart)
    (p : Pool ι StorageFiles (PartStage u.root u.b)) : Prop where
  completing : (p.request c).IsComplete u.key parts
  data : (p.request c).DataKept p.store
  puts : ∀ i, i ≠ c → (p.request i).IsPut

theorem tick_completing (h : Underway u c parts p) (ht : t.1 = c) :
    (tick u.step p t).store =
        ((p.request c).completeStep u.root u.dg u.b u.key u.uploadId t.2 p.store).1 ∧
      (tick u.step p t).request c =
        ((p.request c).completeStep u.root u.dg u.b u.key u.uploadId t.2 p.store).2 := by
  subst ht
  rw [tick_store, tick_request_self, step_of_isComplete h.completing]
  exact ⟨rfl, rfl⟩

theorem PartStage.DataKept.elsewhere {root : FsPath} {b : BucketNamespace} {t t' : StorageFiles}
    {stage : PartStage root b} (h : stage.DataKept t) (hkeeps : KeepsObjects root t t') :
    stage.DataKept t' := by
  cases stage with
  | finishing upload pieces stage => exact fun hdata => (h hdata).elsewhere hkeeps
  | completed upload pieces result => exact ObjectIs.elsewhere h hkeeps
  | _ => trivial

/-- **Step lemma.** -/
theorem Underway.tick (h : Underway u c parts p) (t : ι × String) :
    Underway u c parts (tick u.step p t) := by
  by_cases ht : t.1 = c
  · obtain ⟨hstore, hself⟩ := tick_completing h ht
    have hkeeps := @completeStep_keeps u t.2 p.store _ parts h.completing h.data
    refine ⟨?_, ?_, ?_⟩
    · rw [hself]
      exact hkeeps.listed
    · rw [hself, hstore]
      exact hkeeps.data
    · intro i hi
      rw [tick_request_of_ne p t (ht ▸ hi)]
      exact h.puts i hi
  · have hkeeps := putStep_keeps (t := p.store) (h.puts t.1 ht)
    have hother : (Interleaving.tick u.step p t).request c = p.request c :=
      tick_request_of_ne p t (Ne.symm ht)
    refine ⟨?_, ?_, ?_⟩
    · rw [hother]
      exact h.completing
    · rw [hother, tick_store, step_of_isPut (h.puts t.1 ht)]
      exact h.data.elsewhere hkeeps.objects
    · intro i hi
      by_cases hit : i = t.1
      · rw [hit, tick_request_self, step_of_isPut (h.puts t.1 ht)]
        exact hkeeps.isPut
      · rw [tick_request_of_ne p t hit]
        exact h.puts i hi

/-- When the data of a part is read and its metadata passes the checks, the data has the
    ETag that is listed. -/
def ReadsListed (u : UploadCalls) (c : ι) (p : Pool ι StorageFiles (PartStage u.root u.b))
    (t : ι × String) : Prop :=
  t.1 = c → ∀ upload files part stored rest pieces data,
    p.request c = .checking upload files part stored rest pieces →
      ReadsPart p.store files part stored rest data → u.dg.partEtag data = part.etag

/-- Bytes were taken that were not listed, or the completion failed. -/
def Mismatched (u : UploadCalls) (c : ι) (p : Pool ι StorageFiles (PartStage u.root u.b)) : Prop :=
  ¬ Matches u.dg (p.request c).pieces ∨ ∃ e, p.request c = .failed e

theorem matches_tick (h : Underway u c parts p) (hreads : ReadsListed u c p t)
    (hmatches : Matches u.dg (p.request c).pieces) :
    Matches u.dg ((tick u.step p t).request c).pieces := by
  by_cases ht : t.1 = c
  · rw [(tick_completing h ht).2]
    cases @completeStep_pieces u t.2 p.store _ parts h.completing with
    | same hsame =>
      rw [hsame]
      exact hmatches
    | failed hfailed =>
      rw [hfailed]
      intro x hx
      cases hx
    | read hstage hread hpieces =>
      rw [hpieces]
      rw [hstage] at hmatches
      intro x hx
      rcases List.mem_append.mp hx with hx | hx
      · exact hmatches x hx
      · rw [List.mem_singleton.mp hx]
        exact hreads ht _ _ _ _ _ _ _ hstage hread
  · rw [tick_request_of_ne p t (Ne.symm ht)]
    exact hmatches

theorem mismatched_tick (h : Underway u c parts p) (hreads : ¬ ReadsListed u c p t) :
    Mismatched u c (tick u.step p t) := by
  simp only [ReadsListed, not_forall] at hreads
  obtain ⟨ht, upload, files, part, stored, rest, pieces, data, hstage, hread, hne⟩ := hreads
  rw [Mismatched, (tick_completing h ht).2, hstage, completeStep_checking hread]
  refine .inl ?_
  intro hmatches
  exact hne (hmatches ⟨part, stored, data⟩ (List.mem_append_right _ (List.mem_singleton_self _)))

theorem mismatched_lasts (h : Underway u c parts p) (hdamage : Mismatched u c p) :
    Mismatched u c (tick u.step p t) := by
  by_cases ht : t.1 = c
  · rw [Mismatched, (tick_completing h ht).2]
    rcases hdamage with hmatches | ⟨e, hfailed⟩
    · cases @completeStep_pieces u t.2 p.store _ parts h.completing with
      | same hsame =>
        rw [hsame]
        exact .inl hmatches
      | failed hfailed => exact .inr ⟨_, hfailed⟩
      | read hstage _ hpieces =>
        rw [hstage] at hmatches
        rw [hpieces]
        refine .inl ?_
        intro hall
        exact hmatches fun x hx => hall x (List.mem_append_left _ hx)
    · rw [hfailed]
      exact .inr ⟨e, rfl⟩
  · rw [Mismatched, tick_request_of_ne p t (Ne.symm ht)]
    exact hdamage

/-- Completing and putting begin. -/
structure Begins (u : UploadCalls) (c : ι) (parts : List CompletedMultipartPart)
    (p : Pool ι StorageFiles (PartStage u.root u.b)) : Prop where
  completing : p.request c = .complete parts
  puts : ∀ i, i ≠ c → ∃ partNumber data, p.request i = .put partNumber data

omit [DecidableEq ι] in
theorem Begins.underway (h : Begins u c parts p) : Underway u c parts p := by
  refine ⟨?_, ?_, ?_⟩
  · rw [h.completing]
    exact rfl
  · rw [h.completing]
    trivial
  · intro i hi
    obtain ⟨partNumber, data, heq⟩ := h.puts i hi
    rw [heq]
    trivial

/-- **What is stored.**  A completion that succeeds stores the data it read for the parts
    that were listed; and this data has the ETags that were listed exactly if each
    part was read so. -/
theorem completed_iff (h : Begins u c parts p) (ticks : List (ι × String))
    {upload : MultipartUpload} {pieces : List AssembledPart} {result : ObjectMetadata}
    (hdone : (run u.step p ticks).request c = .completed upload pieces result) :
    pieces.map AssembledPart.part = parts ∧
      ObjectIs u.root u.b (run u.step p ticks).store upload pieces ∧
        (Matches u.dg pieces ↔ Admissible u.step (ReadsListed u c) p ticks) := by
  have hunderway : Underway u c parts (run u.step p ticks) :=
    run_always (fun q t hq => hq.tick t) h.underway ticks ticks [] (List.append_nil _).symm
  have hlisted := hunderway.completing
  have hdata := hunderway.data
  rw [hdone] at hlisted hdata
  refine ⟨hlisted.2, hdata, ?_⟩
  constructor
  · intro hmatches
    have hkeep : ∀ q t, Underway u c parts q → Underway u c parts (tick u.step q t) :=
      fun q t hq => hq.tick t
    have hdamage : ∀ q t, Underway u c parts q → ¬ ReadsListed u c q t →
        Mismatched u c (tick u.step q t) := fun q t hq hmiss => mismatched_tick hq hmiss
    have hlasts : ∀ q t, Underway u c parts q → Mismatched u c q →
        Mismatched u c (tick u.step q t) := fun q t hq hbad => mismatched_lasts hq hbad
    refine admissible_of_lasting hkeep hdamage hlasts h.underway ?_
    rw [Mismatched, hdone]
    rintro (hnot | ⟨e, heq⟩)
    · exact hnot hmatches
    · cases heq
  · intro hadm
    have hstart : Matches u.dg (p.request c).pieces := by
      rw [h.completing]
      intro x hx
      cases hx
    have hkeep : ∀ q t, Underway u c parts q ∧ Matches u.dg (q.request c).pieces →
        ReadsListed u c q t → Underway u c parts (tick u.step q t) ∧
          Matches u.dg ((tick u.step q t).request c).pieces := by
      rintro q t ⟨hq, hmatches⟩ hreads
      exact ⟨hq.tick t, matches_tick hq hreads hmatches⟩
    have hend := (run_rule hkeep ⟨h.underway, hstart⟩ hadm ticks [] (List.append_nil _).symm).2
    rwa [hdone] at hend

/-! ### Puts that do not overlap -/

/-- A put has written the data of a part and not yet its metadata. -/
def Pending (p : Pool ι StorageFiles (PartStage u.root u.b)) (files : PartFiles u.root u.b)
    (data : List UInt8) : Prop :=
  ∃ i, p.request i = .written files data

/-- No put of the same part with other bytes is in the way of a tick: not between its two
    writes when a put of the part writes its data or the completion reads its metadata,
    nor about to write where the completion has read the metadata and not yet the data. -/
def Quiet (u : UploadCalls) (c : ι) (p : Pool ι StorageFiles (PartStage u.root u.b))
    (t : ι × String) : Prop :=
  match p.request t.1 with
  | .prepared files data =>
      (∀ files' data', Pending p files' data' → files'.data.names = files.data.names →
        u.dg.partEtag data' = u.dg.partEtag data) ∧
      ∀ upload files' part stored rest pieces,
        p.request c = .checking upload files' part stored rest pieces →
          files'.data.names = files.data.names → u.dg.partEtag data = part.etag
  | .assembling upload _ (part :: _) _ =>
      ∀ files, resolvePartFiles u.root u.b upload.uploadId part.partNumber = .ok files →
        ∀ files' data', Pending p files' data' → files'.data.names = files.data.names →
          u.dg.partEtag data' = part.etag
  | _ => True

/-- The metadata of a part is that of its data, or of the data that a put under way has
    replaced. -/
structure PartsConsistent (u : UploadCalls) (c : ι)
    (p : Pool ι StorageFiles (PartStage u.root u.b)) : Prop where
  pending : ∀ files data, Pending p files data →
    ∃ d, p.store.contentAt files.data.names = some (.bytes d) ∧
      u.dg.partEtag d = u.dg.partEtag data
  stored : ∀ (files : PartFiles u.root u.b) m,
    p.store.contentAt files.metadata.names = some (.part m) →
      ∃ d, p.store.contentAt files.data.names = some (.bytes d) ∧
        (m.etag = u.dg.partEtag d ∨ ∃ files' data', Pending p files' data' ∧
          files'.data.names = files.data.names ∧ u.dg.partEtag data' = u.dg.partEtag d)
  checked : ∀ upload files part stored rest pieces,
    p.request c = .checking upload files part stored rest pieces → stored.etag = part.etag →
      ∃ d, p.store.contentAt files.data.names = some (.bytes d) ∧ u.dg.partEtag d = part.etag

omit [DecidableEq ι] in
theorem PartsConsistent.same {q : Pool ι StorageFiles (PartStage u.root u.b)}
    (h : PartsConsistent u c p) (hcontent : q.store.contentAt = p.store.contentAt)
    (hpending : ∀ files data, Pending q files data ↔ Pending p files data)
    (hchecked : ∀ upload files part stored rest pieces,
      q.request c = .checking upload files part stored rest pieces → stored.etag = part.etag →
        ∃ d, p.store.contentAt files.data.names = some (.bytes d) ∧
          u.dg.partEtag d = part.etag) : PartsConsistent u c q := by
  refine ⟨?_, ?_, ?_⟩
  · intro files data hp
    rw [hcontent]
    exact h.pending files data ((hpending files data).mp hp)
  · intro files m hm
    rw [hcontent] at hm ⊢
    simp only [hpending]
    exact h.stored files m hm
  · rw [hcontent]
    exact hchecked

/-- A tick of a request that is not between its writes before or after leaves the puts
    under way the same. -/
theorem pending_tick (hbefore : ¬ (p.request t.1).BetweenWrites)
    (hafter : ¬ ((tick u.step p t).request t.1).BetweenWrites)
    (files : PartFiles u.root u.b) (data : List UInt8) :
    Pending (tick u.step p t) files data ↔ Pending p files data := by
  constructor
  · rintro ⟨i, hi⟩
    have hne : i ≠ t.1 := by
      rintro rfl
      rw [hi] at hafter
      exact hafter trivial
    rw [tick_request_of_ne p t hne] at hi
    exact ⟨i, hi⟩
  · rintro ⟨i, hi⟩
    have hne : i ≠ t.1 := by
      rintro rfl
      rw [hi] at hbefore
      exact hbefore trivial
    refine ⟨i, ?_⟩
    rw [tick_request_of_ne p t hne]
    exact hi

section Writes

variable {q : Pool ι StorageFiles (PartStage u.root u.b)} {files : PartFiles u.root u.b}
  {data : List UInt8}

omit [DecidableEq ι] in
theorem PartsConsistent.writeData (h : PartsConsistent u c p)
    (hcontent : q.store.contentAt =
      Function.update p.store.contentAt files.data.names (some (.bytes data)))
    (hself : Pending q files data)
    (hpending : ∀ files' data', Pending q files' data' →
      Pending p files' data' ∨ files' = files ∧ data' = data)
    (hstill : ∀ files' data', Pending p files' data' → Pending q files' data')
    (hrequest : q.request c = p.request c)
    (hquiet : ∀ files' data', Pending p files' data' → files'.data.names = files.data.names →
      u.dg.partEtag data' = u.dg.partEtag data)
    (hchecking : ∀ upload files' part stored rest pieces,
      p.request c = .checking upload files' part stored rest pieces →
        files'.data.names = files.data.names → u.dg.partEtag data = part.etag) :
    PartsConsistent u c q := by
  refine ⟨?_, ?_, ?_⟩
  · intro files' data' hp
    rw [hcontent]
    by_cases hsame : files'.data.names = files.data.names
    · refine ⟨data, by rw [hsame, Function.update_self], ?_⟩
      rcases hpending files' data' hp with hp | ⟨rfl, rfl⟩
      · exact (hquiet files' data' hp hsame).symm
      · rfl
    · rw [Function.update_of_ne hsame]
      rcases hpending files' data' hp with hp | ⟨rfl, -⟩
      · exact h.pending files' data' hp
      · exact absurd rfl hsame
  · intro files' m hm
    rw [hcontent] at hm ⊢
    rw [Function.update_of_ne (files.data_ne_metadata files').symm] at hm
    by_cases hsame : files'.data.names = files.data.names
    · exact ⟨data, by rw [hsame, Function.update_self], .inr ⟨files, data, hself, hsame.symm, rfl⟩⟩
    · rw [Function.update_of_ne hsame]
      obtain ⟨d, hd, hor⟩ := h.stored files' m hm
      refine ⟨d, hd, hor.imp_right ?_⟩
      rintro ⟨files'', data'', hp, hnames, hetag⟩
      exact ⟨files'', data'', hstill _ _ hp, hnames, hetag⟩
  · intro upload files' part stored rest pieces hstage hetag
    rw [hrequest] at hstage
    rw [hcontent]
    by_cases hsame : files'.data.names = files.data.names
    · exact ⟨data, by rw [hsame, Function.update_self],
        hchecking upload files' part stored rest pieces hstage hsame⟩
    · rw [Function.update_of_ne hsame]
      exact h.checked upload files' part stored rest pieces hstage hetag

omit [DecidableEq ι] in
/-- The metadata of a part is written, or cannot be because there is no file in its place. -/
theorem PartsConsistent.writeMetadata (h : PartsConsistent u c p) (hbefore : Pending p files data)
    (hcontent : q.store.contentAt = Function.update p.store.contentAt files.metadata.names
        (some (.part (PartStage.partMetadata u.dg files.partNumber data))) ∨
      q.store.contentAt = p.store.contentAt ∧ p.store.contentAt files.metadata.names = none)
    (hpending : ∀ files' data', Pending q files' data' → Pending p files' data')
    (hstill : ∀ files' data', Pending p files' data' →
      Pending q files' data' ∨ files' = files ∧ data' = data)
    (hrequest : q.request c = p.request c) : PartsConsistent u c q := by
  have hdata : ∀ files' : PartFiles u.root u.b,
      q.store.contentAt files'.data.names = p.store.contentAt files'.data.names := by
    intro files'
    rcases hcontent with hcontent | ⟨hcontent, -⟩
    · rw [hcontent, Function.update_of_ne (files'.data_ne_metadata files)]
    · rw [hcontent]
  refine ⟨?_, ?_, ?_⟩
  · intro files' data' hp
    rw [hdata]
    exact h.pending files' data' (hpending files' data' hp)
  · intro files' m hm
    rw [hdata]
    by_cases hsame : files'.metadata.names = files.metadata.names
    · have hsame' := (files'.same_iff files).mp hsame
      obtain ⟨d, hd, hetag⟩ := h.pending files data hbefore
      rw [← hsame'] at hd
      refine ⟨d, hd, .inl ?_⟩
      rcases hcontent with hcontent | ⟨hcontent, hnone⟩
      · rw [hcontent, hsame, Function.update_self, Option.some.injEq,
          StorageContent.part.injEq] at hm
        rw [← hm, hetag]
        rfl
      · rw [hcontent, hsame, hnone] at hm
        cases hm
    · have hm' : p.store.contentAt files'.metadata.names = some (.part m) := by
        rcases hcontent with hcontent | ⟨hcontent, -⟩
        · rwa [hcontent, Function.update_of_ne hsame] at hm
        · rwa [hcontent] at hm
      obtain ⟨d, hd, hor⟩ := h.stored files' m hm'
      refine ⟨d, hd, hor.imp_right ?_⟩
      rintro ⟨files'', data'', hp, hnames, hetag⟩
      rcases hstill files'' data'' hp with hp | ⟨rfl, -⟩
      · exact ⟨files'', data'', hp, hnames, hetag⟩
      · exact absurd ((files'.same_iff files'').mpr hnames.symm) hsame
  · intro upload files' part stored rest pieces hstage hetag
    rw [hrequest] at hstage
    rw [hdata]
    exact h.checked upload files' part stored rest pieces hstage hetag

end Writes

omit [DecidableEq ι] in
theorem not_betweenWrites {stage : PartStage u.root u.b} (h : stage.IsComplete u.key parts) :
    ¬ stage.BetweenWrites := by
  cases stage with
  | written files data => exact absurd h id
  | _ => exact id

theorem consistent_tick_completing (h : Underway u c parts p) (ht : t.1 = c)
    (hcons : (p.request c).Reading → PartsConsistent u c p) (hquiet : Quiet u c p t)
    (hreading : ((tick u.step p t).request c).Reading) :
    PartsConsistent u c (tick u.step p t) := by
  obtain ⟨hstore, hself⟩ := tick_completing h ht
  cases @completeStep_reading u t.2 p.store _ parts h.completing with
  | finished hover =>
    rw [hself] at hreading
    exact absurd hreading hover
  | reading hbefore hsame hchecking =>
    have hp := hcons hbefore
    have hafter := (h.tick t).completing
    refine hp.same ?_ ?_ ?_
    · rw [hstore, hsame]
    · apply pending_tick
      · rw [ht]
        exact not_betweenWrites h.completing
      · rw [ht]
        exact not_betweenWrites hafter
    · intro upload files part stored rest pieces hstage hetag
      rw [hself] at hstage
      obtain ⟨⟨previous, hprevious⟩, hfiles, hmetadata⟩ :=
        hchecking upload files part stored rest pieces hstage
      rw [Quiet, ht, hprevious] at hquiet
      obtain ⟨d, hd, hor⟩ := hp.stored files stored hmetadata
      refine ⟨d, hd, ?_⟩
      rcases hor with hd' | ⟨files', data', hpending, hnames, hd'⟩
      · rw [← hd', hetag]
      · rw [← hd', hquiet files hfiles files' data' hpending hnames]

theorem consistent_tick_put (hput : (p.request t.1).IsPut) (ht : t.1 ≠ c)
    (hp : PartsConsistent u c p) (hquiet : Quiet u c p t) :
    PartsConsistent u c (tick u.step p t) := by
  have hother : (tick u.step p t).request c = p.request c := tick_request_of_ne p t (Ne.symm ht)
  have hself : (tick u.step p t).request t.1 =
      ((p.request t.1).putStep u.root u.dg u.b u.key u.uploadId p.store).2 := by
    rw [tick_request_self, step_of_isPut hput]
  have hstore : (tick u.step p t).store =
      ((p.request t.1).putStep u.root u.dg u.b u.key u.uploadId p.store).1 := by
    rw [tick_store, step_of_isPut hput]
  cases @putStep_writes u p.store _ hput with
  | idle hcontent hbefore hafter =>
    rw [← hstore] at hcontent
    rw [← hself] at hafter
    refine hp.same hcontent (pending_tick hbefore hafter) ?_
    intro upload files part stored rest pieces hstage hetag
    rw [hother] at hstage
    exact hp.checked upload files part stored rest pieces hstage hetag
  | data hstage hcontent hafter =>
    rw [← hstore] at hcontent
    rw [← hself] at hafter
    rw [Quiet, hstage] at hquiet
    refine hp.writeData hcontent ⟨t.1, hafter⟩ ?_ ?_ hother hquiet.1 hquiet.2
    · rintro files' data' ⟨i, hi⟩
      by_cases hit : i = t.1
      · rw [hit, hafter] at hi
        cases hi
        exact .inr ⟨rfl, rfl⟩
      · rw [tick_request_of_ne p t hit] at hi
        exact .inl ⟨i, hi⟩
    · rintro files' data' ⟨i, hi⟩
      have hit : i ≠ t.1 := by
        rintro rfl
        rw [hstage] at hi
        cases hi
      rw [← tick_request_of_ne p t hit] at hi
      exact ⟨i, hi⟩
  | metadata hstage hcontent hafter =>
    rw [← hstore] at hcontent
    rw [← hself] at hafter
    refine hp.writeMetadata ⟨t.1, hstage⟩ hcontent ?_ ?_ hother
    · rintro files' data' ⟨i, hi⟩
      have hit : i ≠ t.1 := by
        rintro rfl
        rw [hi] at hafter
        exact hafter trivial
      rw [tick_request_of_ne p t hit] at hi
      exact ⟨i, hi⟩
    · rintro files' data' ⟨i, hi⟩
      by_cases hit : i = t.1
      · rw [hit, hstage] at hi
        cases hi
        exact .inr ⟨rfl, rfl⟩
      · rw [← tick_request_of_ne p t hit] at hi
        exact .inl ⟨i, hi⟩

/-- **Step lemma.**  While parts are read, ticks that are quiet keep them consistent. -/
theorem consistent_tick (h : Underway u c parts p)
    (hcons : (p.request c).Reading → PartsConsistent u c p) (hquiet : Quiet u c p t) :
    ((tick u.step p t).request c).Reading → PartsConsistent u c (tick u.step p t) := by
  intro hreading
  by_cases ht : t.1 = c
  · exact consistent_tick_completing h ht hcons hquiet hreading
  · rw [tick_request_of_ne p t (Ne.symm ht)] at hreading
    exact consistent_tick_put (h.puts t.1 ht) ht (hcons hreading) hquiet

/-- The metadata of a part is read and its data is not. -/
def PartStage.IsChecking {root : FsPath} {b : BucketNamespace} : PartStage root b → Prop
  | .checking .. => True
  | _ => False

/-- Data is written next, or metadata is read. -/
def PartStage.TouchesPart {root : FsPath} {b : BucketNamespace} : PartStage root b → Prop
  | .prepared .. | .assembling .. => True
  | _ => False

/-- When data is written or metadata is read, no put is between its two writes, and the
    completion has not read the metadata of a part without its data. -/
def PutsApart (u : UploadCalls) (c : ι) (p : Pool ι StorageFiles (PartStage u.root u.b))
    (t : ι × String) : Prop :=
  (p.request t.1).TouchesPart →
    (∀ i, ¬ (p.request i).BetweenWrites) ∧ ¬ (p.request c).IsChecking

omit [DecidableEq ι] in
theorem PutsApart.quiet (h : PutsApart u c p t) : Quiet u c p t := by
  unfold PutsApart at h
  unfold Quiet
  have hpending : (∀ i, ¬ (p.request i).BetweenWrites) → ∀ files data, ¬ Pending p files data := by
    rintro hnone files data ⟨i, hi⟩
    have hbetween := hnone i
    rw [hi] at hbetween
    exact hbetween trivial
  cases hstage : p.request t.1 with
  | prepared files data =>
    rw [hstage] at h
    obtain ⟨hnone, hnot⟩ := h trivial
    refine ⟨fun files' data' hp => absurd hp (hpending hnone files' data'), ?_⟩
    intro upload files' part stored rest pieces hchecking
    rw [hchecking] at hnot
    exact absurd trivial hnot
  | assembling upload previous rest pieces =>
    rw [hstage] at h
    cases rest with
    | nil => trivial
    | cons part rest =>
      intro files _ files' data' hp
      exact absurd hp (hpending (h trivial).1 files' data')
  | _ => trivial

/-- The parts that are there at the start have the metadata of their data.  A new upload
    has no parts. -/
def PartsIntact (u : UploadCalls) (t : StorageFiles) : Prop :=
  ∀ (files : PartFiles u.root u.b) m, t.contentAt files.metadata.names = some (.part m) →
    ∃ d, t.contentAt files.data.names = some (.bytes d) ∧ m.etag = u.dg.partEtag d

omit [DecidableEq ι] in
theorem Begins.consistent (h : Begins u c parts p) (hintact : PartsIntact u p.store) :
    PartsConsistent u c p := by
  refine ⟨?_, ?_, ?_⟩
  · rintro files data ⟨i, hi⟩
    by_cases hic : i = c
    · rw [hic, h.completing] at hi
      cases hi
    · obtain ⟨partNumber, data', hput⟩ := h.puts i hic
      rw [hput] at hi
      cases hi
  · intro files m hm
    obtain ⟨d, hd, hetag⟩ := hintact files m hm
    exact ⟨d, hd, .inl hetag⟩
  · intro upload files part stored rest pieces hstage
    rw [h.completing] at hstage
    cases hstage

theorem checkStoredPart_etag {part : CompletedMultipartPart} {isLast : Bool}
    {stored : MultipartUploadPart} (h : checkStoredPart part isLast stored = .ok ()) :
    stored.etag = part.etag := by
  obtain ⟨⟨⟩, hetag, -⟩ := Outcome.bind_eq_ok.mp h
  exact eq_of_beq (Outcome.ensure_eq_ok.mp hetag)

omit [DecidableEq ι] in
theorem PartsConsistent.readsListed (hcons : (p.request c).Reading → PartsConsistent u c p) :
    ReadsListed u c p t := by
  rintro - upload files part stored rest pieces data hstage ⟨hdata, hchecked⟩
  have hreading : (p.request c).Reading := by
    rw [hstage]
    trivial
  obtain ⟨d, hd, hetag⟩ := (hcons hreading).checked upload files part stored rest pieces hstage
    (checkStoredPart_etag hchecked)
  rw [hdata] at hd
  cases hd
  exact hetag

theorem admissible_readsListed (h : Begins u c parts p) (hintact : PartsIntact u p.store)
    {ticks : List (ι × String)} (hquiet : Admissible u.step (Quiet u c) p ticks) :
    Admissible u.step (ReadsListed u c) p ticks := by
  have hkeep : ∀ q t, Underway u c parts q ∧ ((q.request c).Reading → PartsConsistent u c q) →
      Quiet u c q t → Underway u c parts (tick u.step q t) ∧
        (((tick u.step q t).request c).Reading → PartsConsistent u c (tick u.step q t)) := by
    rintro q t ⟨hq, hcons⟩ ht
    exact ⟨hq.tick t, consistent_tick hq hcons ht⟩
  have hstart : Underway u c parts p ∧ ((p.request c).Reading → PartsConsistent u c p) :=
    ⟨h.underway, fun _ => h.consistent hintact⟩
  intro pre t post hsplit
  exact PartsConsistent.readsListed (run_rule hkeep hstart hquiet pre (t :: post) hsplit).2

/-- The object is put together of bytes with the ETags that were listed for its parts. -/
def StoresListed (u : UploadCalls) (parts : List CompletedMultipartPart) (t : StorageFiles) :
    Prop :=
  ∃ requested stored data, normalizeObjectKey u.key = .ok requested ∧
    normalizeObjectKey (keyText requested) = .ok stored ∧
    t.contentAt (objectFile u.root u.b.toNamespace stored) = some (.bytes data.flatten) ∧
    List.Forall₂ (fun d part => u.dg.partEtag d = part.etag) data parts

/-- **A completed object consists of the parts the client listed**, whatever requests
    overlap, as long as no put of other bytes slips in between what belongs together. -/
theorem completed_object_consists_of_listed (h : Begins u c parts p)
    (hintact : PartsIntact u p.store) (ticks : List (ι × String))
    (hquiet : Admissible u.step (Quiet u c) p ticks)
    {upload : MultipartUpload} {pieces : List AssembledPart} {result : ObjectMetadata}
    (hdone : (run u.step p ticks).request c = .completed upload pieces result) :
    StoresListed u parts (run u.step p ticks).store := by
  obtain ⟨hparts, ⟨stored, hstored, hcontent⟩, hmatches⟩ := completed_iff h ticks hdone
  have hunderway : Underway u c parts (run u.step p ticks) :=
    run_always (fun q t hq => hq.tick t) h.underway ticks ticks [] (List.append_nil _).symm
  have hlisted := hunderway.completing
  rw [hdone] at hlisted
  obtain ⟨⟨requested, hrequested, hkey⟩, -⟩ := hlisted
  rw [hkey] at hstored
  refine ⟨requested, stored, pieces.map AssembledPart.data, hrequested, hstored, ?_, ?_⟩
  · rw [hcontent, assembledData, List.flatMap_def]
  · rw [← hparts, List.forall₂_map_left_iff, List.forall₂_map_right_iff, List.forall₂_same]
    exact hmatches.mpr (admissible_readsListed h hintact hquiet)

end Overlaps

/-! ### A part that is sent again -/

/-- The digests of the bytes below. -/
def abDigests : Digests where
  sha256Etag data :=
    if data = [97] then "ca978112ca1bbdcafac231b39a23dc4da786eff8147c4e72b9807785afee48bb"
    else "3e23e8160039594a33894f6564e1b1348bbd7a0088d42c4acb73eeaed59c009d"
  partEtag data :=
    if data = [97] then "0cc175b9c0f1b6a831c399e269772661" else "92eb5ffee6ae2fec3ad71c777531578f"
  compositeEtag etags :=
    if etags = ["0cc175b9c0f1b6a831c399e269772661"] then "b6ff9a06b7e20bcb2858c5b8ff744aea-1"
    else "ecaff4cba345cf6ede5325370fefe713-1"

/-- Is this the metadata of a part? -/
def isPartFile : Node StorageContent → Bool
  | .file (.part _) => true
  | _ => false

def noon : String := "2025-01-01T12:00:00+00:00"

def photoCalls : UploadCalls where
  root := dataRoot
  dg := abDigests
  b := avatarsNamespace
  key := "photo"
  uploadId := "5f0c6a4e-8d1b-4f3a-9c2e-7b6d5a4f3e21"

/-- The upload is created, and its one part is listed with the ETag of `a`. -/
def photoStore : StorageFiles :=
  (createMultipartUpload dataRoot noon photoCalls.uploadId FileTree.empty
    avatarsNamespace.toNamespace "photo" none).1

def listedA : List CompletedMultipartPart := [⟨1, "0cc175b9c0f1b6a831c399e269772661"⟩]

inductive PhotoCall
  | complete
  | putA
  | putB
  deriving DecidableEq

/-- One request completes the upload, one puts `a` and one puts `b` in its place. -/
def photoPool : Pool PhotoCall StorageFiles (PartStage photoCalls.root photoCalls.b) where
  store := photoStore
  request
    | .complete => .complete listedA
    | .putA => .put 1 [97]
    | .putB => .put 1 [98]

theorem photoPool_begins : Begins photoCalls .complete listedA photoPool := by
  refine ⟨rfl, ?_⟩
  intro i hi
  cases i with
  | complete => exact absurd rfl hi
  | putA => exact ⟨1, [97], rfl⟩
  | putB => exact ⟨1, [98], rfl⟩

def ticksOf (i : PhotoCall) (n : Nat) : List (PhotoCall × String) := List.replicate n (i, noon)

/-- Has the completion succeeded? -/
def PartStage.isCompleted {root : FsPath} {b : BucketNamespace} : PartStage root b → Bool
  | .completed .. => true
  | _ => false

theorem PartStage.exists_of_isCompleted {root : FsPath} {b : BucketNamespace}
    {stage : PartStage root b} (h : stage.isCompleted = true) :
    ∃ upload pieces result, stage = .completed upload pieces result := by
  cases stage with
  | completed upload pieces result => exact ⟨upload, pieces, result, rfl⟩
  | _ => cases h

instance {root : FsPath} {b : BucketNamespace} (stage : PartStage root b) :
    Decidable stage.BetweenWrites :=
  match stage with
  | .written .. => .isTrue trivial
  | .put .. | .opened .. | .prepared .. | .putDone _ | .complete _ | .assembling .. | .checking ..
  | .finishing .. | .completed .. | .failed _ => .isFalse id

instance {root : FsPath} {b : BucketNamespace} (stage : PartStage root b) :
    Decidable stage.IsChecking :=
  match stage with
  | .checking .. => .isTrue trivial
  | .put .. | .opened .. | .prepared .. | .written .. | .putDone _ | .complete _ | .assembling ..
  | .finishing .. | .completed .. | .failed _ => .isFalse id

instance {root : FsPath} {b : BucketNamespace} (stage : PartStage root b) :
    Decidable stage.TouchesPart :=
  match stage with
  | .prepared .. | .assembling .. => .isTrue trivial
  | .put .. | .opened .. | .written .. | .putDone _ | .complete _ | .checking ..
  | .finishing .. | .completed .. | .failed _ => .isFalse id

theorem PhotoCall.forall_iff {q : PhotoCall → Prop} :
    q .complete ∧ q .putA ∧ q .putB ↔ ∀ call, q call := by
  refine ⟨?_, fun h => ⟨h _, h _, h _⟩⟩
  rintro ⟨hcomplete, hputA, hputB⟩ call
  cases call <;> assumption

instance (q : PhotoCall → Prop) [DecidablePred q] : Decidable (∀ call, q call) :=
  decidable_of_iff _ PhotoCall.forall_iff

instance {u : UploadCalls} (c : PhotoCall)
    (p : Pool PhotoCall StorageFiles (PartStage u.root u.b)) (t : PhotoCall × String) :
    Decidable (PutsApart u c p t) :=
  inferInstanceAs (Decidable (_ → _))

theorem photoStore_partsIntact : PartsIntact photoCalls photoStore := by
  intro files m hm
  obtain ⟨dir, name, -, hnames⟩ := files.names
  have hne : files.metadata.names ≠ [] := by
    rw [hnames]
    exact List.append_ne_nil_of_right_ne_nil dir (List.cons_ne_nil _ _)
  have hentry := (FileTree.lookup_eq_some hne).mp (FileTree.contentAt_eq_some.mp hm)
  have hnone : photoStore.entries.rows.all (fun e => !isPartFile e.node) = true := by decide +kernel
  have hnot := List.all_eq_true.mp hnone _ hentry
  cases hnot

/-- The part is sent again between the read of its metadata and that of its data. -/
def resentSchedule : List (PhotoCall × String) :=
  ticksOf .putA 4 ++ ticksOf .complete 2 ++ ticksOf .putB 3 ++ ticksOf .complete 11

/-- The completion succeeds, and the object is `b` where `a` was listed. -/
theorem resent_part_slips_in :
    Begins photoCalls .complete listedA photoPool ∧
      (∃ upload pieces result, (run photoCalls.step photoPool resentSchedule).request .complete =
        .completed upload pieces result) ∧
      ¬ StoresListed photoCalls listedA (run photoCalls.step photoPool resentSchedule).store := by
  have hruns : ((run photoCalls.step photoPool resentSchedule).request .complete).isCompleted =
        true ∧
      (run photoCalls.step photoPool resentSchedule).store.contentAt
          (objectFile photoCalls.root photoCalls.b.toNamespace ["photo"]) = some (.bytes [98]) := by
    decide +kernel
  obtain ⟨hcompleted, hb⟩ := hruns
  refine ⟨photoPool_begins, PartStage.exists_of_isCompleted hcompleted, ?_⟩
  rintro ⟨requested, stored, data, hrequested, hstored, hcontent, hetags⟩
  have hkey : normalizeObjectKey photoCalls.key = .ok ["photo"] := by decide +kernel
  obtain rfl := Except.ok.inj (hkey.symm.trans hrequested)
  have hkey' : normalizeObjectKey (keyText ["photo"]) = .ok ["photo"] := by decide +kernel
  obtain rfl := Except.ok.inj (hkey'.symm.trans hstored)
  rw [hb, Option.some.injEq, StorageContent.bytes.injEq] at hcontent
  cases hetags with
  | @cons d _ rest _ hetag hrest =>
    cases hrest
    rw [List.flatten_cons, List.flatten_nil, List.append_nil] at hcontent
    rw [← hcontent] at hetag
    revert hetag
    decide +kernel

/-- A part that is put before the upload is completed is what is stored. -/
theorem part_put_before_is_stored :
    StoresListed photoCalls listedA
      (run photoCalls.step photoPool (ticksOf .putA 4 ++ ticksOf .complete 13)).store := by
  have hruns : Admissible photoCalls.step (PutsApart photoCalls .complete) photoPool
        (ticksOf .putA 4 ++ ticksOf .complete 13) ∧
      ((run photoCalls.step photoPool (ticksOf .putA 4 ++ ticksOf .complete 13)).request
        .complete).isCompleted = true := by decide +kernel
  obtain ⟨happart, hcompleted⟩ := hruns
  obtain ⟨upload, pieces, result, hdone⟩ := PartStage.exists_of_isCompleted hcompleted
  exact completed_object_consists_of_listed photoPool_begins photoStore_partsIntact _
    (happart.imp fun _ _ h => h.quiet) hdone

end Peanut
