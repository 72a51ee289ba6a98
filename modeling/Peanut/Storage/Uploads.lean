import Peanut.Library.Transition
import Peanut.Storage.Files

/-!
# Uploads and what is recorded of them

Uploads in parts as calls follow one another: `create_multipart_upload`,
`put_multipart_part`, `complete_multipart_upload` and `abort_multipart_upload`.  A
ledger records of the calls that succeed which uploads there are, and the bytes each
part was last sent with.  The files under `.peanut_multipart` are at all times those
the ledger calls for, in directories that uploads have (`runUploads_describes`).
-/

namespace Peanut

open Relational StorageFiles

/-! ### Calls -/

/-- What `Uuid::new_v4().to_string()` draws. -/
abbrev UploadId := {text : String // isUuid text = true}

inductive UploadOp where
  | create (now : String) (uploadId : UploadId) (bucket : BucketNamespace) (key : String)
      (contentType : Option String)
  | putPart (bucket : BucketNamespace) (key uploadId : String) (partNumber : Nat)
      (data : List UInt8)
  | complete (now : String) (bucket : BucketNamespace) (key uploadId : String)
      (parts : List CompletedMultipartPart)
  | abort (bucket : BucketNamespace) (key uploadId : String)

/-- What a call that succeeds has done to the uploads. -/
inductive UploadEvent where
  | created (upload : MultipartUpload)
  | stored (bucket : Namespace) (uploadId : String) (partNumber : Nat) (data : List UInt8)
  | removed (bucket : Namespace) (uploadId : String)

/-- The uploads, and the bytes each of their parts was last sent with. -/
structure UploadLedger where
  upload : Namespace × String → Option MultipartUpload
  part : Namespace × String × Nat → Option (List UInt8)

namespace UploadLedger

def empty : UploadLedger := ⟨fun _ => none, fun _ => none⟩

/-- The ledger after an event.  A new upload under an old id keeps the parts. -/
def record (ledger : UploadLedger) : UploadEvent → UploadLedger
  | .created u =>
      { ledger with upload := Function.update ledger.upload (u.bucket, u.uploadId) (some u) }
  | .stored b id n data =>
      { ledger with part := Function.update ledger.part (b, id, n) (some data) }
  | .removed b id =>
      { upload := Function.update ledger.upload (b, id) none
        part := fun p => if p.1 = b ∧ p.2.1 = id then none else ledger.part p }

/-- A call that fails leaves nothing to record. -/
def after (ledger : UploadLedger) : Except IoError UploadEvent → UploadLedger
  | .ok event => ledger.record event
  | .error _ => ledger

end UploadLedger

section Runs

variable (root : FsPath) (dg : Digests)

def UploadOp.exec (t : StorageFiles) : UploadOp → StorageFiles × Except IoError UploadEvent
  | .create now uploadId bucket key contentType =>
      let r := StorageFiles.createMultipartUpload root now uploadId.val t bucket.toNamespace key
        contentType
      (r.1, r.2.map .created)
  | .putPart bucket key uploadId partNumber data =>
      let r := StorageFiles.putMultipartPart root dg t bucket.toNamespace key uploadId partNumber
        data
      (r.1, r.2.map fun _ => .stored bucket.toNamespace (trim uploadId) partNumber data)
  | .complete now bucket key uploadId parts =>
      let r := StorageFiles.completeMultipartUpload root dg now t bucket.toNamespace key uploadId
        parts
      (r.1, r.2.map fun _ => .removed bucket.toNamespace (trim uploadId))
  | .abort bucket key uploadId =>
      let r := StorageFiles.abortMultipartUpload root t bucket.toNamespace key uploadId
      (r.1, r.2.map fun _ => .removed bucket.toNamespace (trim uploadId))

structure UploadState where
  files : StorageFiles
  ledger : UploadLedger

def UploadState.step (s : UploadState) (op : UploadOp) : UploadState :=
  let r := op.exec root dg s.files
  ⟨r.1, s.ledger.after r.2⟩

/-- The state after calls that follow one another. -/
def runUploads (t : StorageFiles) (ops : List UploadOp) : UploadState :=
  Transition.run (UploadState.step root dg) ⟨t, .empty⟩ ops

variable {root dg}

theorem runUploads_concat {t : StorageFiles} (ops : List UploadOp) (op : UploadOp) :
    runUploads root dg t (ops ++ [op]) = (runUploads root dg t ops).step root dg op :=
  Transition.run_append ..

theorem UploadState.part_of_isSome {s : UploadState} {b : BucketNamespace}
    {key uploadId : String} {n : Nat} {data : List UInt8}
    (h : ((UploadOp.putPart b key uploadId n data).exec root dg s.files).2.toOption.isSome = true)
    (n' : Nat) :
    (s.step root dg (.putPart b key uploadId n data)).ledger.part
        (b.toNamespace, trim uploadId, n') =
      if n' = n then some data else s.ledger.part (b.toNamespace, trim uploadId, n') := by
  have hevent : ((UploadOp.putPart b key uploadId n data).exec root dg s.files).2 =
      .ok (.stored b.toNamespace (trim uploadId) n data) := by
    rw [UploadOp.exec] at h ⊢
    simp only at h ⊢
    generalize (putMultipartPart root dg s.files b.toNamespace key uploadId n data).2 = r at h ⊢
    cases r with
    | error e => cases h
    | ok _ => rfl
  rw [UploadState.step, hevent]
  simp [UploadLedger.after, UploadLedger.record, Function.update_apply]

end Runs

/-! ### Where the files of an upload are -/

/-- A path under `.peanut_multipart`. -/
def multipartPath (root : FsPath) (rel : List String) : List String :=
  root.names ++ MULTIPART_ROOT_DIR :: rel

/-- There is no directory of uploads yet. -/
def NoUploads (root : FsPath) (t : StorageFiles) : Prop := t.lookup (multipartPath root []) = none

theorem treePath_multipart (root : FsPath) (b : Namespace) (rel : List String) :
    treePath root .multipart b rel = multipartPath root (b.appId :: b.bucket :: rel) := by
  simp [treePath, StorageTree.dirs, multipartPath]

theorem multipartPath_isPrefix {root : FsPath} {rel rel' : List String} :
    multipartPath root rel <+: multipartPath root rel' ↔ rel <+: rel' := by
  rw [multipartPath, multipartPath, List.prefix_append_right_inj, List.cons_prefix_cons,
    and_iff_right rfl]

theorem multipartPath_inj {root : FsPath} {rel rel' : List String} :
    multipartPath root rel = multipartPath root rel' ↔ rel = rel' := by
  rw [multipartPath, multipartPath, List.append_right_inj, List.cons_inj_right]

theorem multipartPath_ne_nil (root : FsPath) (rel : List String) : multipartPath root rel ≠ [] := by
  simp [multipartPath]

theorem dropLast_multipartPath (root : FsPath) {rel : List String} (hne : rel ≠ []) :
    (multipartPath root rel).dropLast = multipartPath root rel.dropLast := by
  obtain ⟨name, rest, rfl⟩ := List.exists_cons_of_ne_nil hne
  rw [multipartPath, List.dropLast_append_of_ne_nil (List.cons_ne_nil _ _),
    List.dropLast_cons_of_ne_nil (List.cons_ne_nil _ _), multipartPath]

inductive UploadFile where
  | manifest
  | part (partNumber : Nat)
  | partMetadata (partNumber : Nat)
deriving DecidableEq

/-- The path of a file, from the directory of its upload. -/
def UploadFile.names : UploadFile → List String
  | .manifest => ["upload.json"]
  | .part n => ["parts", fiveDigits n ++ ".part"]
  | .partMetadata n => ["parts", fiveDigits n ++ ".json"]

theorem part_ne_json (name name' : String) : name ++ ".part" ≠ name' ++ ".json" := by
  intro heq
  have hlast := congrArg (fun text => text.toList.getLast?) heq
  simp at hlast

theorem UploadFile.names_inj {file file' : UploadFile} : file.names = file'.names ↔
    file = file' := by
  refine ⟨?_, congrArg UploadFile.names⟩
  intro h
  cases file <;> cases file' <;>
    simp only [names, List.cons.injEq, reduceCtorEq, and_false, and_true, true_and] at h ⊢
  · rw [fiveDigits_injective ((String.append_left_inj ".part").mp h)]
  · exact absurd h (part_ne_json _ _)
  · exact absurd h.symm (part_ne_json _ _)
  · rw [fiveDigits_injective ((String.append_left_inj ".json").mp h)]

structure UploadAddress where
  bucket : Namespace
  uploadId : String
  file : UploadFile
deriving DecidableEq

/-- The directory of an upload. -/
def uploadDir (b : Namespace) (id : String) : List String := [b.appId, b.bucket, id]

def UploadAddress.path (a : UploadAddress) : List String :=
  uploadDir a.bucket a.uploadId ++ a.file.names

theorem uploadDir_inj {b b' : Namespace} {id id' : String} :
    uploadDir b id = uploadDir b' id' ↔ b = b' ∧ id = id' := by
  obtain ⟨app, bucket⟩ := b
  obtain ⟨app', bucket'⟩ := b'
  simp [uploadDir, and_assoc]

theorem UploadAddress.path_inj {a a' : UploadAddress} : a.path = a'.path ↔ a = a' := by
  refine ⟨?_, congrArg path⟩
  obtain ⟨b, id, file⟩ := a
  obtain ⟨b', id', file'⟩ := a'
  intro h
  have hpath : uploadDir b id ++ file.names = uploadDir b' id' ++ file'.names := h
  obtain ⟨hdir, hfile⟩ := List.append_inj hpath rfl
  obtain ⟨hb, hid⟩ := uploadDir_inj.mp hdir
  rw [hb, hid, UploadFile.names_inj.mp hfile]

theorem uploadDir_isPrefix_path {b : Namespace} {id : String} {a : UploadAddress} :
    uploadDir b id <+: a.path ↔ a.bucket = b ∧ a.uploadId = id := by
  constructor
  · rintro ⟨rest, hrest⟩
    obtain ⟨hdir, -⟩ := List.append_inj hrest rfl
    obtain ⟨rfl, rfl⟩ := uploadDir_inj.mp hdir
    exact ⟨rfl, rfl⟩
  · rintro ⟨rfl, rfl⟩
    exact List.prefix_append _ _

theorem UploadAddress.path_ne_nil (a : UploadAddress) : a.path ≠ [] := by
  rw [path, uploadDir]
  exact List.cons_ne_nil _ _

theorem dropLast_path_part (b : Namespace) (id : String) (n : Nat) :
    (⟨b, id, .part n⟩ : UploadAddress).path.dropLast = uploadDir b id ++ ["parts"] := by
  simp [UploadAddress.path, UploadFile.names, uploadDir]

theorem dropLast_path_partMetadata (b : Namespace) (id : String) (n : Nat) :
    (⟨b, id, .partMetadata n⟩ : UploadAddress).path.dropLast = uploadDir b id ++ ["parts"] := by
  simp [UploadAddress.path, UploadFile.names, uploadDir]

/-- A directory that uploads have. -/
def IsUploadDir (rel : List String) : Prop :=
  ∃ (b : BucketNamespace) (id : UploadId), rel <+: uploadDir b.toNamespace id.val ++ ["parts"]

theorem not_isUploadDir_path (a : UploadAddress) : ¬ IsUploadDir a.path := by
  rintro ⟨b, id, hprefix⟩
  have hlength := hprefix.length_le
  obtain ⟨b', id', file⟩ := a
  cases file with
  | manifest => simp [UploadAddress.path, UploadFile.names, uploadDir] at hprefix
  | part n => simp [UploadAddress.path, UploadFile.names, uploadDir] at hlength
  | partMetadata n => simp [UploadAddress.path, UploadFile.names, uploadDir] at hlength

/-- An upload that requests can make. -/
structure UploadAddress.Served (a : UploadAddress) : Prop where
  bucket : ∃ b : BucketNamespace, b.toNamespace = a.bucket
  uploadId : isUuid a.uploadId = true

theorem UploadAddress.Served.isUploadDir {a : UploadAddress} (h : a.Served) {rel : List String}
    (hrel : rel <+: a.path.dropLast) : IsUploadDir rel := by
  obtain ⟨b, hb⟩ := h.bucket
  refine ⟨b, ⟨a.uploadId, h.uploadId⟩, hrel.trans ?_⟩
  obtain ⟨b', id', file⟩ := a
  cases hb
  cases file with
  | manifest => simp [UploadAddress.path, UploadFile.names, uploadDir]
  | part n => rw [dropLast_path_part]
  | partMetadata n => rw [dropLast_path_partMetadata]

/-! ### The files that are stored -/

section Stores

variable {root : FsPath} {content : UploadAddress → Option StorageContent} {t t' : StorageFiles}

/-- The tree of uploads has these contents, in directories that uploads have. -/
structure StoresUploads (root : FsPath) (content : UploadAddress → Option StorageContent)
    (t : StorageFiles) : Prop where
  content : ∀ a : UploadAddress, t.contentAt (multipartPath root a.path) = content a
  elsewhere : ∀ rel, (∀ a : UploadAddress, rel ≠ a.path) →
    t.contentAt (multipartPath root rel) = none
  dirs : ∀ rel, t.lookup (multipartPath root rel) = some .dir → IsUploadDir rel

/-- Nothing changed in the tree of uploads. -/
def SameUploads (root : FsPath) (t t' : StorageFiles) : Prop :=
  ∀ rel, t'.lookup (multipartPath root rel) = t.lookup (multipartPath root rel)

theorem SameUploads.refl (t : StorageFiles) : SameUploads root t t := fun _ => rfl

theorem SameUploads.trans {t'' : StorageFiles} (h : SameUploads root t t')
    (h' : SameUploads root t' t'') : SameUploads root t t'' :=
  fun rel => (h' rel).trans (h rel)

namespace StoresUploads

theorem congr (h : StoresUploads root content t) (hsame : SameUploads root t t') :
    StoresUploads root content t' where
  content a := (FileTree.contentAt_congr (hsame a.path)).trans (h.content a)
  elsewhere rel hrel := (FileTree.contentAt_congr (hsame rel)).trans (h.elsewhere rel hrel)
  dirs rel hdir := h.dirs rel ((hsame rel).symm.trans hdir)

theorem of_noUploads (h : NoUploads root t) : StoresUploads root (fun _ => none) t := by
  have hnone : ∀ rel, t.lookup (multipartPath root rel) = none := by
    intro rel
    by_cases hrel : rel = []
    · rw [hrel]
      exact h
    · rw [← Option.not_isSome_iff_eq_none, Option.isSome_iff_exists]
      rintro ⟨n, hn⟩
      have habove := FileTree.lookup_above hn
        (multipartPath_isPrefix.mpr (List.nil_prefix (l := rel)))
        (fun heq => hrel (multipartPath_inj.mp heq).symm)
      rw [NoUploads, habove] at h
      cases h
  have hcontent : ∀ rel, t.contentAt (multipartPath root rel) = none := by
    intro rel
    rw [FileTree.contentAt, hnone]
  refine ⟨fun a => hcontent a.path, fun rel _ => hcontent rel, ?_⟩
  intro rel hdir
  rw [hnone] at hdir
  cases hdir

variable {a : UploadAddress} {path : FsPath}

theorem createParent (h : StoresUploads root content t) (ha : a.Served)
    (hpath : path.names = multipartPath root a.path) (hdirs : t.createParent path = .ok t') :
    StoresUploads root content t' ∧
      t'.lookup (multipartPath root a.path.dropLast) = some .dir := by
  have hne : path.names ≠ [] := hpath ▸ multipartPath_ne_nil root a.path
  obtain ⟨hsame, hlookup⟩ := createParent_ok hne hdirs
  rw [hpath, dropLast_multipartPath root a.path_ne_nil] at hlookup
  refine ⟨⟨?_, ?_, ?_⟩, ?_⟩
  · intro a'
    rw [hsame.content]
    exact h.content a'
  · intro rel hrel
    rw [hsame.content]
    exact h.elsewhere rel hrel
  · intro rel hdir
    rw [hlookup] at hdir
    split at hdir
    · next hprefix => exact ha.isUploadDir (multipartPath_isPrefix.mp hprefix)
    · exact h.dirs rel hdir
  · rw [hlookup, if_pos List.prefix_rfl]

theorem writeFile (h : StoresUploads root content t) {c : StorageContent}
    (hpath : path.names = multipartPath root a.path) (hwrite : t.writeFile path c = .ok t') :
    StoresUploads root (Function.update content a (some c)) t' := by
  rw [StorageFiles.writeFile, Outcome.mapError_eq_ok, hpath] at hwrite
  have hcontent := FileTree.contentAt_write hwrite
  refine ⟨?_, ?_, ?_⟩
  · intro a'
    rw [hcontent]
    by_cases ha : a' = a
    · rw [ha, Function.update_self, Function.update_self]
    · rw [Function.update_of_ne ha, Function.update_of_ne, h.content]
      exact fun heq => ha (UploadAddress.path_inj.mp (multipartPath_inj.mp heq))
  · intro rel hrel
    rw [hcontent, Function.update_of_ne, h.elsewhere rel hrel]
    exact fun heq => hrel a (multipartPath_inj.mp heq)
  · intro rel hdir
    rw [FileTree.lookup_write hwrite] at hdir
    split at hdir
    · cases hdir
    · exact h.dirs rel hdir

theorem writeFile_isOk (h : StoresUploads root content t) (c : StorageContent)
    (hpath : path.names = multipartPath root a.path)
    (hparent : t.lookup (multipartPath root a.path.dropLast) = some .dir) :
    ∃ t', t.writeFile path c = .ok t' := by
  simp only [StorageFiles.writeFile, Outcome.mapError_eq_ok, hpath]
  refine FileTree.write_isOk_iff.mpr ⟨multipartPath_ne_nil root a.path, ?_, ?_⟩
  · rw [dropLast_multipartPath root a.path_ne_nil]
    exact hparent
  · intro hdir
    exact not_isUploadDir_path a (h.dirs _ hdir)

theorem removeDirAll (h : StoresUploads root content t) {b : Namespace} {id : String}
    (hremove : t.removeDirAll (multipartPath root (uploadDir b id)) = .ok t') :
    StoresUploads root (fun a => if a.bucket = b ∧ a.uploadId = id then none else content a)
      t' := by
  have hlookup : ∀ rel, t'.lookup (multipartPath root rel) =
      if uploadDir b id <+: rel then none else t.lookup (multipartPath root rel) := by
    intro rel
    rw [FileTree.removeDirAll_ok hremove _ (multipartPath_ne_nil root rel)]
    simp only [multipartPath_isPrefix]
  have hgone : ∀ rel, uploadDir b id <+: rel → t'.contentAt (multipartPath root rel) = none := by
    intro rel hrel
    rw [FileTree.contentAt, hlookup, if_pos hrel]
  have hkept : ∀ rel, ¬ uploadDir b id <+: rel →
      t'.contentAt (multipartPath root rel) = t.contentAt (multipartPath root rel) := by
    intro rel hrel
    exact FileTree.contentAt_congr (by rw [hlookup, if_neg hrel])
  refine ⟨?_, ?_, ?_⟩
  · intro a
    split
    · next hin => exact hgone _ (uploadDir_isPrefix_path.mpr hin)
    · next hout => rw [hkept _ fun hprefix => hout (uploadDir_isPrefix_path.mp hprefix), h.content]
  · intro rel hrel
    by_cases hprefix : uploadDir b id <+: rel
    · exact hgone rel hprefix
    · rw [hkept rel hprefix, h.elsewhere rel hrel]
  · intro rel hdir
    rw [hlookup] at hdir
    split at hdir
    · cases hdir
    · exact h.dirs rel hdir

end StoresUploads

end Stores

/-! ### Paths of uploads -/

theorem mem_of_strContains {needle text : String} (h : strContains needle text = true) {c : Char}
    (hc : c ∈ needle.toList) : c ∈ text.toList := by
  simp only [strContains, List.any_eq_true, List.mem_tails] at h
  obtain ⟨tail, htail, hstart⟩ := h
  exact htail.subset ((List.isPrefixOf_iff_prefix.mp hstart).subset hc)

theorem trim_uuid {id : String} (h : isUuid id = true) : trim id = id :=
  trim_eq_self fun _ hc => ((isUuid_isPlain h).char hc).1

theorem resolveUploadId_uuid {uploadId : String} (h : isUuid (trim uploadId) = true) :
    resolveUploadId uploadId = .ok (trim uploadId) := by
  have hplain := isUuid_isPlain h
  have hslash : strContains "/" (trim uploadId) = false := by
    rw [Bool.eq_false_iff]
    intro hmem
    have hin : '/' ∈ (trim uploadId).toList := mem_of_strContains hmem (by decide)
    exact (hplain.char hin).2.1 rfl
  have hdots : strContains ".." (trim uploadId) = false := by
    rw [Bool.eq_false_iff]
    intro hmem
    have hin : '.' ∈ (trim uploadId).toList := mem_of_strContains hmem (by decide)
    exact (hplain.char hin).2.2 rfl
  have hne : (trim uploadId != "") = true := bne_iff_ne.mpr hplain.ne_empty
  rw [resolveUploadId, hslash, hdots, hne]
  rfl

theorem resolveUploadId_self {id : String} (h : isUuid id = true) :
    resolveUploadId id = .ok id := by
  have htrim := trim_uuid h
  rw [resolveUploadId_uuid (htrim.symm ▸ h), htrim]

section Resolve

variable (root : FsPath) (b : BucketNamespace) {uploadId id : String}

theorem resolveUploadRoot_served (hid : resolveUploadId uploadId = .ok id) :
    ∃ path, root.resolveMultipartUploadRoot b.text uploadId = .ok path ∧
      path.names = multipartPath root (b.appId :: b.bucket :: uploadDirs id) := by
  refine ⟨_, resolveMultipartUploadRoot_eq b.served hid, ?_⟩
  rw [names_bucketTree, treePath_multipart]

theorem resolveManifest_served (hid : resolveUploadId uploadId = .ok id) :
    ∃ path, root.resolveMultipartManifestPath b.text uploadId = .ok path ∧
      path.names = multipartPath root (b.appId :: b.bucket :: uploadDirs id ++
        ["upload.json"]) := by
  obtain ⟨path, hroot, hpath⟩ := resolveUploadRoot_served root b hid
  refine ⟨path.child "upload.json", ?_, ?_⟩
  · rw [FsPath.resolveMultipartManifestPath, hroot]
    rfl
  · rw [FsPath.names_child, hpath]
    simp [multipartPath]

theorem resolvePartFile_served (hid : resolveUploadId uploadId = .ok id) (n : Nat)
    (extension : String) :
    ∃ path, root.resolvePartFile b.text uploadId n extension = .ok path ∧
      path.names = multipartPath root
        (b.appId :: b.bucket :: uploadDirs id ++ ["parts", fiveDigits n ++ extension]) := by
  obtain ⟨path, hroot, hpath⟩ := resolveUploadRoot_served root b hid
  refine ⟨(path.child "parts").child (fiveDigits n ++ extension), ?_, ?_⟩
  · rw [FsPath.resolvePartFile, hroot]
    rfl
  · rw [FsPath.names_child, FsPath.names_child, hpath]
    simp [multipartPath]

end Resolve

theorem uploadDirs_uuid {id : String} (h : isUuid id = true) : uploadDirs id = [id] :=
  if_neg (isUuid_isPlain h).isName.ne_curDir

/-- What is in the place of a manifest is one, if it is the manifest of an upload at all. -/
theorem manifest_address {b : Namespace} {id : String} {a : UploadAddress}
    (h : b.appId :: b.bucket :: uploadDirs id ++ ["upload.json"] = a.path) :
    id ≠ "." ∧ a = ⟨b, id, .manifest⟩ := by
  have hid : id ≠ "." := by
    rintro rfl
    have hlength := congrArg List.length h
    obtain ⟨b', id', file⟩ := a
    cases file <;> simp [uploadDirs, UploadAddress.path, uploadDir, UploadFile.names] at hlength
  refine ⟨hid, UploadAddress.path_inj.mp ?_⟩
  rw [← h, uploadDirs, if_neg hid]
  rfl

/-! ### What the ledger calls for -/

/-- The contents of the files. -/
def UploadLedger.content (dg : Digests) (ledger : UploadLedger) :
    UploadAddress → Option StorageContent
  | ⟨b, id, .manifest⟩ => (ledger.upload (b, id)).map .upload
  | ⟨b, id, .part n⟩ => (ledger.part (b, id, n)).map .bytes
  | ⟨b, id, .partMetadata n⟩ => (ledger.part (b, id, n)).map fun data =>
      .part { partNumber := n, etag := dg.partEtag data, size := data.length }

/-- The uploads are such as requests can make, under their own ids. -/
def UploadLedger.Served (ledger : UploadLedger) : Prop :=
  ∀ b id u, ledger.upload (b, id) = some u →
    (∃ b' : BucketNamespace, b'.toNamespace = b) ∧ isUuid id = true ∧ u.bucket = b ∧ u.uploadId = id

/-- **The ledger describes the files.** -/
structure Describes (root : FsPath) (dg : Digests) (ledger : UploadLedger) (t : StorageFiles) :
    Prop where
  stores : StoresUploads root (ledger.content dg) t
  served : ledger.Served

namespace UploadLedger

variable (dg : Digests) (ledger : UploadLedger)

theorem content_created (u : MultipartUpload) : (ledger.record (.created u)).content dg =
    Function.update (ledger.content dg) ⟨u.bucket, u.uploadId, .manifest⟩ (some (.upload u)) := by
  funext a
  obtain ⟨b, id, file⟩ := a
  cases file with
  | manifest =>
    by_cases hsame : (b, id) = (u.bucket, u.uploadId)
    · obtain ⟨rfl, rfl⟩ := Prod.mk.injEq .. ▸ hsame
      simp [content, record]
    · have haddress : (⟨b, id, .manifest⟩ : UploadAddress) ≠ ⟨u.bucket, u.uploadId, .manifest⟩ := by
        rintro ⟨⟩
        exact hsame rfl
      rw [Function.update_of_ne haddress]
      simp only [content, record, Function.update_of_ne hsame]
  | part n => rw [Function.update_of_ne (by simp)]; rfl
  | partMetadata n => rw [Function.update_of_ne (by simp)]; rfl

theorem content_stored (b : Namespace) (id : String) (n : Nat) (data : List UInt8) :
    (ledger.record (.stored b id n data)).content dg =
      Function.update (Function.update (ledger.content dg) ⟨b, id, .part n⟩ (some (.bytes data)))
        ⟨b, id, .partMetadata n⟩
          (some (.part { partNumber := n, etag := dg.partEtag data, size := data.length })) := by
  funext a
  obtain ⟨b', id', file⟩ := a
  cases file with
  | manifest =>
    rw [Function.update_of_ne (by simp), Function.update_of_ne (by simp)]
    rfl
  | part m =>
    rw [Function.update_of_ne (by simp)]
    by_cases hsame : (b', id', m) = (b, id, n)
    · simp only [Prod.mk.injEq] at hsame
      obtain ⟨rfl, rfl, rfl⟩ := hsame
      simp [content, record]
    · have haddress : (⟨b', id', .part m⟩ : UploadAddress) ≠ ⟨b, id, .part n⟩ := by
        rintro ⟨⟩
        exact hsame rfl
      rw [Function.update_of_ne haddress]
      simp only [content, record, Function.update_of_ne hsame]
  | partMetadata m =>
    by_cases hsame : (b', id', m) = (b, id, n)
    · simp only [Prod.mk.injEq] at hsame
      obtain ⟨rfl, rfl, rfl⟩ := hsame
      simp [content, record]
    · have haddress : (⟨b', id', .partMetadata m⟩ : UploadAddress) ≠ ⟨b, id, .partMetadata n⟩ := by
        rintro ⟨⟩
        exact hsame rfl
      rw [Function.update_of_ne haddress, Function.update_of_ne (by simp)]
      simp only [content, record, Function.update_of_ne hsame]

theorem content_removed (b : Namespace) (id : String) :
    (ledger.record (.removed b id)).content dg =
      fun a => if a.bucket = b ∧ a.uploadId = id then none else ledger.content dg a := by
  funext a
  obtain ⟨b', id', file⟩ := a
  by_cases hsame : b' = b ∧ id' = id
  · obtain ⟨rfl, rfl⟩ := hsame
    cases file <;> simp [content, record]
  · cases file <;> simp [content, record, hsame]

end UploadLedger

/-! ### What the calls read -/

section Calls

variable {root : FsPath} {dg : Digests} {ledger : UploadLedger} {t t' : StorageFiles}
  {b : BucketNamespace} {key uploadId : String}

theorem resolveUploadId_eq_trim {id : String} (h : resolveUploadId uploadId = .ok id) :
    id = trim uploadId := by
  rw [resolveUploadId] at h
  obtain ⟨_, -, hok⟩ := Outcome.bind_eq_ok.mp h
  exact (Except.ok.inj hok).symm

theorem partFiles_served {id : String} (hid : isUuid id = true) (n : Nat) :
    (∃ path, root.resolveMultipartPartPath b.text id n = .ok path ∧
      path.names = multipartPath root (⟨b.toNamespace, id, .part n⟩ : UploadAddress).path) ∧
    ∃ path, root.resolveMultipartPartMetadataPath b.text id n = .ok path ∧
      path.names = multipartPath root
        (⟨b.toNamespace, id, .partMetadata n⟩ : UploadAddress).path := by
  obtain ⟨path, hpath, hnames⟩ :=
    resolvePartFile_served root b (resolveUploadId_self hid) n ".part"
  obtain ⟨path', hpath', hnames'⟩ :=
    resolvePartFile_served root b (resolveUploadId_self hid) n ".json"
  rw [uploadDirs_uuid hid] at hnames hnames'
  exact ⟨⟨path, hpath, hnames⟩, path', hpath', hnames'⟩

theorem manifest_served {id : String} (hid : isUuid id = true) (htrim : trim uploadId = id) :
    ∃ path, root.resolveMultipartManifestPath b.text uploadId = .ok path ∧
      path.names = multipartPath root (⟨b.toNamespace, id, .manifest⟩ : UploadAddress).path := by
  subst htrim
  obtain ⟨path, hpath, hnames⟩ := resolveManifest_served root b (resolveUploadId_uuid hid)
  rw [uploadDirs_uuid hid] at hnames
  exact ⟨path, hpath, hnames⟩

/-- **The upload that is read** is the one the ledger has for the bucket and the key. -/
theorem Describes.readMultipartUpload_eq_ok (h : Describes root dg ledger t)
    {u : MultipartUpload} :
    readMultipartUpload root t b.toNamespace key uploadId = .ok u ↔
      ledger.upload (b.toNamespace, trim uploadId) = some u ∧
        ∃ names, normalizeObjectKey key = .ok names ∧ u.key = keyText names := by
  unfold readMultipartUpload
  simp only [Outcome.bind_eq_ok, Outcome.ensure_eq_ok, readFile, Outcome.mapError_eq_ok,
    FileTree.read_eq_ok_iff, pure, Except.pure, Except.ok.injEq, Bool.and_eq_true, beq_iff_eq]
  constructor
  · rintro ⟨path, hpath, raw, hraw, u', hu', names, hkey, -, ⟨-, hsame⟩, rfl⟩
    have hupload : raw = .upload u' := by
      cases raw <;> simp [StorageContent.asUpload] at hu'
      rw [hu']
    obtain ⟨_, hroot, -⟩ := Outcome.bind_eq_ok.mp hpath
    obtain ⟨_, -, hroot⟩ := Outcome.bind_eq_ok.mp hroot
    obtain ⟨id, hid, -⟩ := Outcome.bind_eq_ok.mp hroot
    obtain ⟨path', hpath', hnames⟩ := resolveManifest_served root b hid
    obtain rfl := Except.ok.inj (hpath.symm.trans hpath')
    rw [hnames, hupload] at hraw
    have haddress : ∃ a : UploadAddress,
        b.appId :: b.bucket :: uploadDirs id ++ ["upload.json"] = a.path := by
      by_contra hnone
      rw [h.stores.elsewhere _ fun a heq => hnone ⟨a, heq⟩] at hraw
      cases hraw
    obtain ⟨a, ha⟩ := haddress
    obtain ⟨-, rfl⟩ := manifest_address ha
    rw [ha, h.stores.content, UploadLedger.content, Option.map_eq_some_iff] at hraw
    obtain ⟨u, hu, heq⟩ := hraw
    cases heq
    rw [resolveUploadId_eq_trim hid] at hu
    exact ⟨hu, names, hkey, hsame⟩
  · rintro ⟨hu, names, hkey, hsame⟩
    obtain ⟨-, huuid, hbucket, -⟩ := h.served _ _ _ hu
    obtain ⟨path, hpath, hnames⟩ := @manifest_served root b uploadId _ huuid rfl
    refine ⟨path, hpath, .upload u, ?_, u, rfl, names, hkey, (), ⟨hbucket, hsame⟩, rfl⟩
    rw [hnames, h.stores.content, UploadLedger.content, hu]
    rfl

/-- **A part that is read** is the one the ledger has. -/
theorem Describes.readMultipartPart_eq_ok (h : Describes root dg ledger t) {id : String}
    (hid : isUuid id = true) {n : Nat} {stored : MultipartUploadPart} {data : List UInt8} :
    readMultipartPart root t b.toNamespace id n = .ok (stored, data) ↔
      ledger.part (b.toNamespace, id, n) = some data ∧
        stored = { partNumber := n, etag := dg.partEtag data, size := data.length } := by
  obtain ⟨⟨path, hpath, hnames⟩, path', hpath', hnames'⟩ := @partFiles_served root b id hid n
  unfold readMultipartPart
  rw [hpath', Outcome.ok_bind, hpath, Outcome.ok_bind]
  simp only [Outcome.bind_eq_ok, readFile, Outcome.mapError_eq_ok, FileTree.read_eq_ok_iff,
    StorageContent.asPart_eq_ok, StorageContent.asBytes_eq_ok, pure, Except.pure, Except.ok.injEq,
    Prod.mk.injEq, hnames, hnames', h.stores.content, UploadLedger.content]
  constructor
  · rintro ⟨raw, hraw, m, rfl, raw', hraw', data', rfl, rfl, rfl⟩
    obtain ⟨data₁, hdata₁, heq⟩ := Option.map_eq_some_iff.mp hraw
    obtain ⟨data₂, hdata₂, heq'⟩ := Option.map_eq_some_iff.mp hraw'
    cases heq'
    obtain rfl := Option.some.inj (hdata₁.symm.trans hdata₂)
    cases heq
    exact ⟨hdata₁, rfl⟩
  · rintro ⟨hdata, rfl⟩
    rw [hdata]
    exact ⟨_, rfl, _, rfl, _, rfl, _, rfl, rfl, rfl⟩

/-! ### What the calls do -/

/-- The ledger after a call describes the files after it. -/
def KeepsLedger (root : FsPath) (dg : Digests) (ledger : UploadLedger)
    (r : StorageFiles × Except IoError UploadEvent) : Prop :=
  Describes root dg (ledger.after r.2) r.1

theorem served_created (h : ledger.Served) {u : MultipartUpload} (hu : u.bucket = b.toNamespace)
    (hid : isUuid u.uploadId = true) : (ledger.record (.created u)).Served := by
  intro b' id u' hu'
  simp only [UploadLedger.record, Function.update_apply, Prod.mk.injEq] at hu'
  split at hu'
  · next hsame =>
    obtain ⟨rfl, rfl⟩ := hsame
    cases hu'
    exact ⟨⟨b, hu.symm⟩, hid, rfl, rfl⟩
  · exact h b' id u' hu'

theorem served_removed (h : ledger.Served) (b' : Namespace) (id : String) :
    (ledger.record (.removed b' id)).Served := by
  intro b'' id' u hu
  simp only [UploadLedger.record, Function.update_apply] at hu
  split at hu
  · cases hu
  · exact h b'' id' u hu

theorem keepsLedger_proceed {α β : Type} {x : Except IoError α}
    {next : α → StorageFiles × Except IoError β} {f : β → UploadEvent}
    (h : Describes root dg ledger t)
    (hnext : ∀ a, x = .ok a → KeepsLedger root dg ledger ((next a).1, (next a).2.map f)) :
    KeepsLedger root dg ledger
      ((Outcome.proceed t x next).1, (Outcome.proceed t x next).2.map f) := by
  cases x with
  | error e => exact h
  | ok a => exact hnext a rfl

theorem keepsLedger_done {α : Type} {a : α} {f : α → UploadEvent}
    (h : Describes root dg (ledger.record (f a)) t') :
    KeepsLedger root dg ledger (t', (Except.ok a : Except IoError α).map f) := h

theorem Describes.create (h : Describes root dg ledger t) (now : String) (id : UploadId)
    (contentType : Option String) : KeepsLedger root dg ledger
      ((UploadOp.create now id b key contentType).exec root dg t) := by
  have hserved : (⟨b.toNamespace, id.val, .manifest⟩ : UploadAddress).Served :=
    ⟨⟨b, rfl⟩, id.property⟩
  obtain ⟨path, hpath, hnames⟩ :=
    @manifest_served root b id.val id.val id.property (trim_uuid id.property)
  rw [UploadOp.exec, StorageFiles.createMultipartUpload]
  refine keepsLedger_proceed h fun names _ => ?_
  rw [hpath]
  refine keepsLedger_proceed h fun path' hpath' => ?_
  obtain rfl := Except.ok.inj hpath'
  refine keepsLedger_proceed h fun t₁ hdirs => ?_
  obtain ⟨hstores, -⟩ := h.stores.createParent hserved hnames hdirs
  refine keepsLedger_proceed ⟨hstores, h.served⟩ fun t₂ hwrite => ?_
  refine keepsLedger_done ⟨?_, served_created h.served rfl id.property⟩
  rw [UploadLedger.content_created]
  exact hstores.writeFile hnames hwrite

theorem Describes.putPart (h : Describes root dg ledger t) (n : Nat) (data : List UInt8) :
    KeepsLedger root dg ledger ((UploadOp.putPart b key uploadId n data).exec root dg t) := by
  rw [UploadOp.exec, StorageFiles.putMultipartPart]
  refine keepsLedger_proceed h fun _ _ => ?_
  refine keepsLedger_proceed h fun u hread => ?_
  obtain ⟨hu, -⟩ := h.readMultipartUpload_eq_ok.mp hread
  obtain ⟨-, huuid, -, hid⟩ := h.served _ _ _ hu
  obtain ⟨⟨path, hpath, hnames⟩, path', hpath', hnames'⟩ := @partFiles_served root b _ huuid n
  have hserved : (⟨b.toNamespace, trim uploadId, .part n⟩ : UploadAddress).Served :=
    ⟨⟨b, rfl⟩, huuid⟩
  rw [hid, hpath, hpath', Outcome.proceed_ok, Outcome.proceed_ok]
  refine keepsLedger_proceed h fun t₁ hdirs => ?_
  obtain ⟨hstores₁, hparent⟩ := h.stores.createParent hserved hnames hdirs
  refine keepsLedger_proceed ⟨hstores₁, h.served⟩ fun t₂ hwrite => ?_
  have hstores₂ := hstores₁.writeFile hnames hwrite
  -- The metadata goes into the same directory, so that it is not refused.
  rw [dropLast_path_part] at hparent
  have hparent' : t₂.lookup (multipartPath root
      (⟨b.toNamespace, trim uploadId, .partMetadata n⟩ : UploadAddress).path.dropLast) =
        some .dir := by
    rw [StorageFiles.writeFile, Outcome.mapError_eq_ok, hnames] at hwrite
    rw [FileTree.lookup_write hwrite, if_neg, dropLast_path_partMetadata, hparent]
    rw [multipartPath_inj]
    intro heq
    have hlength := congrArg List.length heq
    simp [UploadAddress.path, uploadDir, UploadFile.names] at hlength
  obtain ⟨t₃, hwrite'⟩ :=
    hstores₂.writeFile_isOk (.part ⟨n, dg.partEtag data, data.length⟩) hnames' hparent'
  rw [hwrite', Outcome.proceed_ok]
  refine keepsLedger_done ⟨?_, h.served⟩
  rw [UploadLedger.content_stored]
  exact hstores₂.writeFile hnames' hwrite'

theorem Describes.abort (h : Describes root dg ledger t) :
    KeepsLedger root dg ledger ((UploadOp.abort b key uploadId).exec root dg t) := by
  rw [UploadOp.exec, StorageFiles.abortMultipartUpload]
  refine keepsLedger_proceed h fun u hread => ?_
  obtain ⟨hu, -⟩ := h.readMultipartUpload_eq_ok.mp hread
  obtain ⟨-, huuid, -, hid⟩ := h.served _ _ _ hu
  obtain ⟨path, hpath, hnames⟩ := resolveUploadRoot_served root b (resolveUploadId_self huuid)
  rw [uploadDirs_uuid huuid] at hnames
  rw [hid, hpath, Outcome.proceed_ok]
  refine keepsLedger_proceed h fun t₁ hremove => ?_
  rw [Outcome.mapError_eq_ok, hnames] at hremove
  refine keepsLedger_done ⟨?_, served_removed h.served _ _⟩
  rw [UploadLedger.content_removed]
  exact h.stores.removeDirAll hremove

/-! ### Completions -/

theorem not_multipartPath_isPrefix {tree : StorageTree} (htree : tree ≠ .multipart)
    (rel rel' : List String) :
    ¬ multipartPath root rel <+: treePath root tree b.toNamespace rel' := by
  rw [multipartPath, treePath, List.prefix_append_right_inj]
  cases tree with
  | objects =>
    intro hprefix
    obtain ⟨happ, -⟩ := List.cons_prefix_cons.mp hprefix
    have hdot : '.' ∈ b.appId.toList := happ ▸ (by decide : '.' ∈ MULTIPART_ROOT_DIR.toList)
    exact (b.served.app_plain.char hdot).2.2 rfl
  | metadata =>
    intro hprefix
    obtain ⟨hdir, -⟩ := List.cons_prefix_cons.mp hprefix
    exact absurd hdir (by decide)
  | multipart => exact absurd rfl htree

variable {tree : StorageTree} {path : FsPath}

theorem sameUploads_createParent (htree : tree ≠ .multipart)
    (hpath : StoragePath root b.text tree path) (h : t.createParent path = .ok t') :
    SameUploads root t t' := by
  obtain ⟨names, -, -, rfl⟩ := hpath.below_bucketTree b.served
  have hne := treePath_ne_nil root tree b.toNamespace names
  rw [← names_bucketTree] at hne
  intro rel
  rw [(createParent_ok hne h).2, if_neg]
  intro hprefix
  have hbelow := hprefix.trans (List.dropLast_prefix _)
  rw [names_bucketTree] at hbelow
  exact not_multipartPath_isPrefix htree rel names hbelow

theorem sameUploads_writeFile {content : StorageContent} (htree : tree ≠ .multipart)
    (hpath : StoragePath root b.text tree path) (h : t.writeFile path content = .ok t') :
    SameUploads root t t' := by
  obtain ⟨names, -, -, rfl⟩ := hpath.below_bucketTree b.served
  rw [StorageFiles.writeFile, names_bucketTree, Outcome.mapError_eq_ok] at h
  intro rel
  rw [FileTree.lookup_write h, if_neg]
  intro heq
  have hprefix : multipartPath root rel <+: treePath root tree b.toNamespace names := by
    rw [heq]
  exact not_multipartPath_isPrefix htree rel names hprefix

theorem sameUploads_writeMetadata (t : StorageFiles) (key : String) (metadata : ObjectMetadata) :
    SameUploads root t (writeMetadata root t b.toNamespace key metadata).1 := by
  unfold writeMetadata
  refine Outcome.proceed_rule (.refl t) fun path hpath => ?_
  have hmetadata : StoragePath root b.text .metadata path := .metadata hpath
  refine Outcome.proceed_rule (.refl t) fun t₁ hdirs => ?_
  have hsame := sameUploads_createParent (by decide) hmetadata hdirs
  refine Outcome.proceed_rule hsame fun t₂ hwrite => ?_
  exact hsame.trans (sameUploads_writeFile (by decide) hmetadata hwrite)

theorem sameUploads_putObject (now : String) (t : StorageFiles) (key : String) (data : List UInt8)
    (contentType : Option String) :
    SameUploads root t
      (StorageFiles.putObject root dg now t b.toNamespace key data contentType).1 := by
  unfold StorageFiles.putObject putObjectWithMetadata
  refine Outcome.proceed_rule (.refl t) fun path hpath => ?_
  refine Outcome.proceed_rule (.refl t) fun metadataPath hmetadataPath => ?_
  have hobject : StoragePath root b.text .objects path := .object hpath
  have hmetadata : StoragePath root b.text .metadata metadataPath := .metadata hmetadataPath
  refine Outcome.proceed_rule (.refl t) fun t₁ hdirs => ?_
  have hsame₁ := sameUploads_createParent (by decide) hobject hdirs
  refine Outcome.proceed_rule hsame₁ fun t₂ hdirs' => ?_
  have hsame₂ := hsame₁.trans (sameUploads_createParent (by decide) hmetadata hdirs')
  refine Outcome.proceed_rule hsame₂ fun t₃ hwrite => ?_
  have hsame₃ := hsame₂.trans (sameUploads_writeFile (by decide) hobject hwrite)
  dsimp only
  generalize hmetadata₃ : newMetadata dg now _ data contentType {} = metadata
  have hsame₄ := hsame₃.trans (@sameUploads_writeMetadata root b t₃ key metadata)
  generalize writeMetadata root t₃ b.toNamespace key metadata = written at hsame₄ ⊢
  exact hsame₄

theorem Describes.congr (h : Describes root dg ledger t) (hsame : SameUploads root t t') :
    Describes root dg ledger t' :=
  ⟨h.stores.congr hsame, h.served⟩

theorem keepsLedger_aborted {r : StorageFiles × Except IoError Unit} {α : Type} {result : α}
    {event : UploadEvent}
    (h : KeepsLedger root dg ledger (r.1, r.2.map fun _ => event)) :
    KeepsLedger root dg ledger (r.1, (r.2.map fun _ => result).map fun _ => event) := by
  obtain ⟨t₁, x⟩ := r
  cases x with
  | error e => exact h
  | ok _ => exact h

theorem Describes.complete (h : Describes root dg ledger t) (now : String)
    (parts : List CompletedMultipartPart) :
    KeepsLedger root dg ledger ((UploadOp.complete now b key uploadId parts).exec root dg t) := by
  rw [UploadOp.exec, StorageFiles.completeMultipartUpload]
  refine keepsLedger_proceed h fun _ _ => ?_
  refine keepsLedger_proceed h fun u _ => ?_
  refine keepsLedger_proceed h fun assembled _ => ?_
  obtain ⟨data, etags⟩ := assembled
  dsimp only
  have hsame₁ := @sameUploads_putObject root dg b now t u.key data (some u.contentType)
  generalize StorageFiles.putObject root dg now t b.toNamespace u.key data
    (some u.contentType) = put at hsame₁ ⊢
  have h₁ := h.congr hsame₁
  refine keepsLedger_proceed h₁ fun metadata _ => ?_
  have hsame₂ := @sameUploads_writeMetadata root b put.1 u.key
    { metadata with etag := dg.compositeEtag etags }
  generalize writeMetadata root put.1 b.toNamespace u.key
    { metadata with etag := dg.compositeEtag etags } = written at hsame₂ ⊢
  have h₂ := h₁.congr hsame₂
  refine keepsLedger_proceed h₂ fun _ _ => ?_
  have haborted : KeepsLedger root dg ledger
      ((UploadOp.abort b key uploadId).exec root dg written.1) := h₂.abort
  rw [UploadOp.exec] at haborted
  generalize StorageFiles.abortMultipartUpload root written.1 b.toNamespace key
    uploadId = aborted at haborted ⊢
  exact keepsLedger_aborted haborted

/-! ### Runs -/

theorem Describes.exec (h : Describes root dg ledger t) (op : UploadOp) :
    KeepsLedger root dg ledger (op.exec root dg t) := by
  cases op with
  | create now id bucket key contentType => exact h.create now id contentType
  | putPart bucket key uploadId n data => exact h.putPart n data
  | complete now bucket key uploadId parts => exact h.complete now parts
  | abort bucket key uploadId => exact h.abort

/-- **A step** keeps the ledger true. -/
theorem Describes.step {s : UploadState} (h : Describes root dg s.ledger s.files) (op : UploadOp) :
    Describes root dg (s.step root dg op).ledger (s.step root dg op).files :=
  h.exec op

theorem describes_empty (h : NoUploads root t) : Describes root dg .empty t := by
  refine ⟨?_, fun b id u hu => by cases hu⟩
  have hcontent : UploadLedger.empty.content dg = fun _ => none := by
    funext a
    obtain ⟨b, id, file⟩ := a
    cases file with
    | manifest => rfl
    | part n => rfl
    | partMetadata n => rfl
  rw [hcontent]
  exact .of_noUploads h

/-- **The files are at all times those the ledger calls for.** -/
theorem runUploads_describes (h : NoUploads root t) (ops : List UploadOp) :
    Describes root dg (runUploads root dg t ops).ledger (runUploads root dg t ops).files := by
  have hstep : ∀ s op, Describes root dg (UploadState.ledger s) s.files →
      Describes root dg (s.step root dg op).ledger (s.step root dg op).files :=
    fun s op hs => hs.step op
  exact Transition.run_preserves hstep (describes_empty h) ops

end Calls

/-! ### An upload -/

def noteId : UploadId := ⟨"0b5f41c6-7c1a-4f0e-9d3a-52e1c0a4b7d9", by decide +kernel⟩

def noteBucket : BucketNamespace := ⟨⟨DEFAULT_APP_ID, "avatars"⟩, servedBucket_avatars⟩

/-- An upload of one part, sent twice. -/
def noteUploads : List UploadOp :=
  [.create "t0" noteId noteBucket "a//note.txt" none,
    .putPart noteBucket "a/note.txt" noteId.val 1 [104],
    .putPart noteBucket "a/note.txt" noteId.val 1 [104, 105]]

/-- What is recorded of it. -/
def noteUpload : MultipartUpload where
  uploadId := noteId.val
  bucket := noteBucket.toNamespace
  key := "a/note.txt"
  contentType := "application/octet-stream"
  initiatedAt := "t0"

end Peanut
