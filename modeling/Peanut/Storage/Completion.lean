import Peanut.Storage.Etags
import Peanut.Storage.Uploads

/-!
# Completing an upload

`complete_multipart_upload` after any calls that followed one another: which lists of
parts pass its checks, and what the object then is.  What the checks ask for is stated
of the ledger (`Completable`), which knows nothing of files.
-/

namespace Peanut

open Relational StorageFiles

/-! ### The checks and what follows them -/

section Code

variable (root : FsPath) (dg : Digests) (now : String) (t : StorageFiles) (bucket : Namespace)
  (key uploadId : String)

/-- The checks of `complete_multipart_upload`: the upload, and the data and the ETags of
    its parts. -/
def completionChecks (parts : List CompletedMultipartPart) :
    Except IoError (MultipartUpload × List UInt8 × List String) := do
  Outcome.ensure (!parts.isEmpty)
    { kind := .invalidInput, message := "multipart completion requires at least one part" }
  let upload ← readMultipartUpload root t bucket key uploadId
  let contents ← assembleParts root t bucket upload.uploadId 0 parts
  return (upload, contents)

/-- What it does when they pass. -/
def storeCompleted (upload : MultipartUpload) (assembled : List UInt8) (etags : List String) :
    StorageFiles × Except IoError ObjectMetadata :=
  let (t, put) := StorageFiles.putObject root dg now t bucket upload.key assembled
    (some upload.contentType)
  Outcome.proceed t put fun metadata =>
  let metadata := { metadata with etag := dg.compositeEtag etags }
  let (t, written) := writeMetadata root t bucket upload.key metadata
  Outcome.proceed t written fun _ =>
  let (t, aborted) := StorageFiles.abortMultipartUpload root t bucket key uploadId
  (t, aborted.map fun _ => metadata)

theorem completeMultipartUpload_eq (parts : List CompletedMultipartPart) :
    StorageFiles.completeMultipartUpload root dg now t bucket key uploadId parts =
      Outcome.proceed t (completionChecks root t bucket key uploadId parts) fun checked =>
        storeCompleted root dg now t bucket key uploadId checked.1 checked.2.1 checked.2.2 := by
  rw [completionChecks, Outcome.proceed_bind, StorageFiles.completeMultipartUpload]
  refine Outcome.proceed_congr fun _ _ => ?_
  rw [Outcome.proceed_bind]
  refine Outcome.proceed_congr fun upload _ => ?_
  rw [Outcome.proceed_bind]
  refine Outcome.proceed_congr fun contents _ => ?_
  obtain ⟨assembled, etags⟩ := contents
  simp only [pure, Except.pure, Outcome.proceed_ok, storeCompleted]

end Code

/-! ### What the checks ask for -/

/-- The bytes the parts of a list were last sent with. -/
def UploadLedger.latest (ledger : UploadLedger) (b : Namespace) (id : String)
    (parts : List CompletedMultipartPart) : List (List UInt8) :=
  parts.map fun part => (ledger.part (b, id, part.partNumber)).getD []

/-- The part was uploaded, and has the ETag that is listed. -/
def UploadLedger.Lists (dg : Digests) (ledger : UploadLedger) (b : Namespace) (id : String)
    (part : CompletedMultipartPart) : Prop :=
  ∃ data, ledger.part (b, id, part.partNumber) = some data ∧ dg.partEtag data = part.etag

/-- A part of 5 MiB or more. -/
def UploadLedger.Large (ledger : UploadLedger) (b : Namespace) (id : String)
    (part : CompletedMultipartPart) : Prop :=
  ∃ data, ledger.part (b, id, part.partNumber) = some data ∧
    LocalStorage.MIN_MULTIPART_PART_SIZE_BYTES ≤ data.length

/-- The upload of a bucket and a key. -/
def UploadLedger.Has (ledger : UploadLedger) (b : Namespace) (key id : String)
    (u : MultipartUpload) : Prop :=
  ledger.upload (b, id) = some u ∧ ∃ names, normalizeObjectKey key = .ok names ∧
    u.key = keyText names

/-- **The upload can be completed** with a list of parts. -/
structure Completable (dg : Digests) (ledger : UploadLedger) (b : Namespace)
    (key uploadId : String) (parts : List CompletedMultipartPart) : Prop where
  nonempty : parts ≠ []
  positive : ∀ part ∈ parts, 0 < part.partNumber
  increasing : parts.Pairwise fun part next => part.partNumber < next.partNumber
  upload : ∃ u, ledger.Has b key (trim uploadId) u
  uploaded : ∀ part ∈ parts, ledger.Lists dg b (trim uploadId) part
  large : ∀ part ∈ parts.dropLast, ledger.Large b (trim uploadId) part

section Checks

variable {root : FsPath} {dg : Digests} {ledger : UploadLedger} {t : StorageFiles}
  {b : BucketNamespace} {key uploadId : String}

/-- The numbers increase from one that is given. -/
def IncreasesFrom (previous : Nat) (parts : List CompletedMultipartPart) : Prop :=
  (∀ part ∈ parts, previous < part.partNumber) ∧
    parts.Pairwise fun part next => part.partNumber < next.partNumber

theorem increasesFrom_cons {previous : Nat} {part : CompletedMultipartPart}
    {rest : List CompletedMultipartPart} : IncreasesFrom previous (part :: rest) ↔
      previous < part.partNumber ∧ IncreasesFrom part.partNumber rest := by
  rw [IncreasesFrom, IncreasesFrom, List.forall_mem_cons, List.pairwise_cons]
  constructor
  · rintro ⟨⟨hfirst, -⟩, hrest, hpairs⟩
    exact ⟨hfirst, hrest, hpairs⟩
  · rintro ⟨hfirst, hrest, hpairs⟩
    exact ⟨⟨hfirst, fun next hnext => Nat.lt_trans hfirst (hrest next hnext)⟩, hrest, hpairs⟩

theorem checkPartOrder_eq_ok {previous : Nat} {part : CompletedMultipartPart} {u : Unit} :
    checkPartOrder previous part = .ok u ↔ previous < part.partNumber := by
  rw [checkPartOrder]
  simp only [Outcome.bind_eq_ok, Outcome.ensure_eq_ok, bne_iff_ne, decide_eq_true_eq]
  constructor
  · rintro ⟨_, -, hlt⟩
    exact hlt
  · intro hlt
    exact ⟨(), Nat.ne_of_gt (Nat.zero_lt_of_lt hlt), hlt⟩

theorem checkStoredPart_eq_ok {part : CompletedMultipartPart} {isLast : Bool}
    {stored : MultipartUploadPart} {u : Unit} :
    checkStoredPart part isLast stored = .ok u ↔ stored.etag = part.etag ∧
      (isLast = false → LocalStorage.MIN_MULTIPART_PART_SIZE_BYTES ≤ stored.size) := by
  rw [checkStoredPart]
  simp only [Outcome.bind_eq_ok, Outcome.ensure_eq_ok, beq_iff_eq, exists_const]
  cases isLast with
  | true => simp
  | false => simp

/-- **The loop** passes when the numbers increase and all parts are there, and gives
    their latest bytes. -/
theorem assembleParts_eq_ok (h : Describes root dg ledger t) {id : String} (hid : isUuid id = true)
    {parts : List CompletedMultipartPart} {previous : Nat} {data : List UInt8}
    {etags : List String} :
    assembleParts root t b.toNamespace id previous parts = .ok (data, etags) ↔
      IncreasesFrom previous parts ∧ (∀ part ∈ parts, ledger.Lists dg b.toNamespace id part) ∧
        (∀ part ∈ parts.dropLast, ledger.Large b.toNamespace id part) ∧
        data = (ledger.latest b.toNamespace id parts).flatten ∧
        etags = (ledger.latest b.toNamespace id parts).map dg.partEtag := by
  induction parts generalizing previous data etags with
  | nil =>
    rw [assembleParts]
    simp [IncreasesFrom, UploadLedger.latest, eq_comm]
  | cons part rest ih =>
    rw [assembleParts, increasesFrom_cons, List.forall_mem_cons]
    simp only [Outcome.bind_eq_ok, checkPartOrder_eq_ok, checkStoredPart_eq_ok, pure, Except.pure,
      Except.ok.injEq, Prod.exists, Prod.mk.injEq, h.readMultipartPart_eq_ok hid, ih,
      UploadLedger.latest, List.map_cons, List.flatten_cons]
    -- The first part is the last one when nothing follows it.
    have hlarge : (∀ p ∈ (part :: rest).dropLast, ledger.Large b.toNamespace id p) ↔
        (rest.isEmpty = false → ledger.Large b.toNamespace id part) ∧
          ∀ p ∈ rest.dropLast, ledger.Large b.toNamespace id p := by
      cases rest with
      | nil => simp
      | cons next rest => simp
    rw [hlarge]
    constructor
    · rintro ⟨-, hfirst, stored, bytes, ⟨hbytes, rfl⟩, -, ⟨hetag, hsize⟩, data', etags',
        ⟨hincreases, hlists, hlarge', rfl, rfl⟩, rfl, rfl⟩
      refine ⟨⟨hfirst, hincreases⟩, ⟨⟨bytes, hbytes, hetag⟩, hlists⟩, ⟨?_, hlarge'⟩, ?_, ?_⟩
      · exact fun hmore => ⟨bytes, hbytes, hsize hmore⟩
      · rw [hbytes, Option.getD_some]
      · rw [hbytes, Option.getD_some]
    · rintro ⟨⟨hfirst, hincreases⟩, ⟨⟨bytes, hbytes, hetag⟩, hlists⟩, ⟨hsize, hlarge'⟩, rfl, rfl⟩
      refine ⟨(), hfirst, _, bytes, ⟨hbytes, rfl⟩, (), ⟨hetag, ?_⟩, _, _,
        ⟨hincreases, hlists, hlarge', rfl, rfl⟩, ?_, ?_⟩
      · intro hmore
        obtain ⟨bytes', hbytes', hle⟩ := hsize hmore
        rw [hbytes, Option.some.injEq] at hbytes'
        rw [hbytes']
        exact hle
      · rw [hbytes, Option.getD_some]
      · rw [hbytes, Option.getD_some]

/-- **The checks** pass when the upload can be completed. -/
theorem completionChecks_eq_ok (h : Describes root dg ledger t)
    {parts : List CompletedMultipartPart} {u : MultipartUpload} {data : List UInt8}
    {etags : List String} :
    completionChecks root t b.toNamespace key uploadId parts = .ok (u, data, etags) ↔
      Completable dg ledger b.toNamespace key uploadId parts ∧
        ledger.Has b.toNamespace key (trim uploadId) u ∧
        data = (ledger.latest b.toNamespace (trim uploadId) parts).flatten ∧
        etags = (ledger.latest b.toNamespace (trim uploadId) parts).map dg.partEtag := by
  rw [completionChecks]
  simp only [Outcome.bind_eq_ok, Outcome.ensure_eq_ok, Bool.not_eq_true', List.isEmpty_eq_false_iff,
    h.readMultipartUpload_eq_ok, pure, Except.pure, Except.ok.injEq, Prod.mk.injEq]
  constructor
  · rintro ⟨-, hnonempty, u', hu, contents, hassembled, rfl, rfl⟩
    obtain ⟨-, huuid, -, hid⟩ := h.served _ _ _ hu.1
    rw [hid, assembleParts_eq_ok h huuid] at hassembled
    obtain ⟨⟨hpositive, hincreasing⟩, huploaded, hlarge, hdata, hetags⟩ := hassembled
    exact ⟨⟨hnonempty, hpositive, hincreasing, ⟨u', hu⟩, huploaded, hlarge⟩, hu, hdata, hetags⟩
  · rintro ⟨hcompletable, hu, rfl, rfl⟩
    obtain ⟨-, huuid, -, hid⟩ := h.served _ _ _ hu.1
    refine ⟨(), hcompletable.nonempty, u, hu, _, ?_, rfl, rfl⟩
    rw [hid]
    exact (assembleParts_eq_ok h huuid).mpr ⟨⟨hcompletable.positive, hcompletable.increasing⟩,
      hcompletable.uploaded, hcompletable.large, rfl, rfl⟩

/-! ### The object -/

theorem abortMultipartUpload_isOk (h : Describes root dg ledger t) {u : MultipartUpload}
    (hu : ledger.Has b.toNamespace key (trim uploadId) u) :
    ∃ t', StorageFiles.abortMultipartUpload root t b.toNamespace key uploadId = (t', .ok ()) ∧
      t.removeDirAll (multipartPath root (uploadDir b.toNamespace (trim uploadId))) = .ok t' := by
  obtain ⟨-, huuid, -, hid⟩ := h.served _ _ _ hu.1
  obtain ⟨path, hpath, hnames⟩ := resolveUploadRoot_served root b (resolveUploadId_self huuid)
  rw [uploadDirs_uuid huuid] at hnames
  -- The manifest lies below the directory.
  have hmanifest : t.contentAt (multipartPath root
      (⟨b.toNamespace, trim uploadId, .manifest⟩ : UploadAddress).path) = some (.upload u) := by
    rw [h.stores.content, UploadLedger.content, hu.1, Option.map_some]
  have hdir : t.lookup (multipartPath root (uploadDir b.toNamespace (trim uploadId))) =
      some .dir := by
    refine FileTree.lookup_above (FileTree.contentAt_eq_some.mp hmanifest) ?_ ?_
    · rw [multipartPath_isPrefix, uploadDir_isPrefix_path]
      exact ⟨rfl, rfl⟩
    · rw [Ne, multipartPath_inj]
      intro heq
      have hlength := congrArg List.length heq
      simp [UploadAddress.path, uploadDir, UploadFile.names] at hlength
  obtain ⟨t', hremove⟩ := FileTree.removeDirAll_isOk hdir
  refine ⟨t', ?_, hremove⟩
  have hremove' : t.removeDirAll path.names = .ok t' := by
    rw [hnames]
    exact hremove
  rw [StorageFiles.abortMultipartUpload, h.readMultipartUpload_eq_ok.mpr hu, Outcome.proceed_ok,
    hid, hpath, Outcome.proceed_ok, hremove']
  rfl

theorem writeMetadata_again {stored : List String} {m : ObjectMetadata} {objectKey : String}
    (hkey : normalizeObjectKey objectKey = .ok stored)
    (hstored : t.contentAt (metadataFile root b.toNamespace stored) = some (.metadata m))
    (metadata : ObjectMetadata) :
    ∃ t', writeMetadata root t b.toNamespace objectKey metadata = (t', .ok ()) ∧
      t'.contentAt = Function.update t.contentAt (metadataFile root b.toNamespace stored)
        (some (.metadata metadata)) := by
  have hfile := FileTree.contentAt_eq_some.mp hstored
  have hne : metadataFile root b.toNamespace stored ≠ [] :=
    treePath_ne_nil root .metadata b.toNamespace _
  have hfree : ∀ q, q <+: (metadataFile root b.toNamespace stored).dropLast →
      ∀ c, t.lookup q ≠ some (.file c) := by
    intro q hq c hc
    have hdir := FileTree.lookup_above hfile (hq.trans (List.dropLast_prefix _)) (by
      rintro rfl
      exact not_isPrefix_dropLast hne hq)
    rw [hdir] at hc
    cases hc
  rcases writeMetadata_outcome root b hkey metadata hfree with
    ⟨-, t', hok, hcontent⟩ | ⟨hdir, -⟩
  · exact ⟨t', hok, hcontent⟩
  · rw [hfile] at hdir
    cases hdir

/-- The object of an upload, and nothing left of the upload. -/
structure CompletedAs (root : FsPath) (b : BucketNamespace) (uploadId objectKey : String)
    (data : List UInt8) (etag : String) (t' : StorageFiles) (m : ObjectMetadata) : Prop where
  object : getObject root t' b.toNamespace objectKey = .ok (data, m)
  length : m.contentLength = data.length
  etag : m.etag = etag
  directory : t'.lookup (multipartPath root (uploadDir b.toNamespace (trim uploadId))) = none
  gone : ∀ key u, readMultipartUpload root t' b.toNamespace key uploadId ≠ .ok u

theorem storeCompleted_ok (now : String) (h : Describes root dg ledger t) {u : MultipartUpload}
    (hu : ledger.Has b.toNamespace key (trim uploadId) u) {stored : List String}
    (hkey : normalizeObjectKey u.key = .ok stored)
    (hblocked : ¬ Blocked root t b.toNamespace stored) (htorn : ¬ Torn root t b.toNamespace stored)
    (data : List UInt8) (etags : List String) :
    ∃ t' m, storeCompleted root dg now t b.toNamespace key uploadId u data etags = (t', .ok m) ∧
      CompletedAs root b uploadId u.key data (dg.compositeEtag etags) t' m := by
  rw [storeCompleted]
  -- the put
  have hsame₁ := @sameUploads_putObject root dg b now t u.key data (some u.contentType)
  have hput := putObject_outcome root dg now b t hkey data (some u.contentType) {}
  rw [← StorageFiles.putObject] at hput
  generalize StorageFiles.putObject root dg now t b.toNamespace u.key data
    (some u.contentType) = put at hsame₁ hput ⊢
  cases hput with
  | refused hblocked' _ => exact absurd hblocked' hblocked
  | torn htorn' _ => exact absurd htorn' htorn
  | @stored t₁ m _ hlength hcontent =>
    -- the metadata once more
    have hstored : t₁.contentAt (metadataFile root b.toNamespace stored) = some (.metadata m) := by
      rw [hcontent, Function.update_self]
    have hsame₂ := @sameUploads_writeMetadata root b t₁ u.key
      { m with etag := dg.compositeEtag etags }
    obtain ⟨t₂, hwrite, hcontent₂⟩ :=
      writeMetadata_again hkey hstored { m with etag := dg.compositeEtag etags }
    rw [hwrite] at hsame₂
    -- the abort
    have h₂ : Describes root dg ledger t₂ := h.congr (hsame₁.trans hsame₂)
    obtain ⟨t₃, habort, hremove⟩ := abortMultipartUpload_isOk h₂ hu
    have hkept := @abortMultipartUpload_keepsObjects root b t₂ key uploadId
    rw [habort] at hkept
    have h₃ : Describes root dg (ledger.record (.removed b.toNamespace (trim uploadId))) t₃ := by
      have hkeeps : KeepsLedger root dg ledger
          ((UploadOp.abort b key uploadId).exec root dg t₂) := h₂.abort
      rw [UploadOp.exec, habort] at hkeeps
      exact hkeeps
    simp only [Outcome.proceed_ok, hwrite, habort]
    refine ⟨t₃, _, rfl, ?_, hlength, rfl, ?_, ?_⟩
    · rw [getObject_eq_ok root b hkey]
      have hobject := hkept .objects (by decide) b stored
      have hmetadata := hkept .metadata (by decide) b (withJson stored)
      rw [objectFile, hobject, metadataFile, hmetadata, hcontent₂, hcontent]
      have hother : objectFile root b.toNamespace stored ≠
          metadataFile root b.toNamespace stored := by
        intro heq
        exact not_object_isPrefix_metadata root b stored stored (heq ▸ List.prefix_rfl)
      rw [← objectFile, ← metadataFile, Function.update_of_ne hother, Function.update_of_ne hother,
        Function.update_self, Function.update_self]
      exact ⟨rfl, rfl⟩
    · rw [FileTree.removeDirAll_ok hremove _ (multipartPath_ne_nil root _), if_pos List.prefix_rfl]
    · intro key' u' hread
      have hupload := (h₃.readMultipartUpload_eq_ok.mp hread).1
      simp [UploadLedger.record] at hupload

end Checks

/-! ### Completions after any calls -/

theorem exists_file_iff {t : StorageFiles} {p : List String} :
    (∃ q, q <+: p ∧ ∃ c, t.lookup q = some (.file c)) ↔
      (p.inits.any fun q => (t.contentAt q).isSome) = true := by
  simp only [List.any_eq_true, List.mem_inits, Option.isSome_iff_exists, FileTree.contentAt_eq_some]

instance (root : FsPath) (t : StorageFiles) (b : Namespace) (parts : List String) :
    Decidable (Blocked root t b parts) :=
  decidable_of_iff
    (((objectFile root b parts).dropLast.inits.any fun q => (t.contentAt q).isSome) = true ∨
      ((metadataFile root b parts).dropLast.inits.any fun q => (t.contentAt q).isSome) = true ∨
        t.lookup (objectFile root b parts) = some .dir)
    (by rw [Blocked, exists_file_iff, exists_file_iff])

/-- A place where an object can be put. -/
def FreePlace (root : FsPath) (t : StorageFiles) (b : Namespace) (parts : List String) : Prop :=
  ¬ Blocked root t b parts ∧ t.lookup (metadataFile root b parts) ≠ some .dir

instance (root : FsPath) (t : StorageFiles) (b : Namespace) (parts : List String) :
    Decidable (FreePlace root t b parts) :=
  inferInstanceAs (Decidable (_ ∧ _))

/-- **Completing an upload.** -/
theorem multipart_completion {root : FsPath} {t₀ : StorageFiles} (h : NoUploads root t₀)
    (md5 sha256 : List UInt8 → List UInt8) (ops : List UploadOp) (now : String)
    (b : BucketNamespace) (key uploadId : String) (parts : List CompletedMultipartPart) :
    let dg := storageDigests md5 sha256
    let s := runUploads root dg t₀ ops
    let checks := completionChecks root s.files b.toNamespace key uploadId parts
    let call :=
      StorageFiles.completeMultipartUpload root dg now s.files b.toNamespace key uploadId parts
    let latest := s.ledger.latest b.toNamespace (trim uploadId) parts
    ((∃ checked, checks = .ok checked) ↔
      Completable dg s.ledger b.toNamespace key uploadId parts) ∧
    (∀ u stored, Completable dg s.ledger b.toNamespace key uploadId parts →
      s.ledger.Has b.toNamespace key (trim uploadId) u → normalizeObjectKey u.key = .ok stored →
      FreePlace root s.files b.toNamespace stored →
        ∃ t' m, call = (t', .ok m) ∧ CompletedAs root b uploadId u.key latest.flatten
          (hexEncode (md5 (latest.flatMap md5)) ++ "-" ++ toString parts.length) t' m) ∧
    ∀ e, checks = .error e → call = (s.files, .error e) := by
  intro dg s checks call latest
  have hdescribes : Describes root dg s.ledger s.files := runUploads_describes h ops
  refine ⟨?_, ?_, ?_⟩
  · constructor
    · rintro ⟨⟨u, data, etags⟩, hchecks⟩
      exact ((completionChecks_eq_ok hdescribes).mp hchecks).1
    · intro hcompletable
      obtain ⟨u, hu⟩ := hcompletable.upload
      exact ⟨_, (completionChecks_eq_ok hdescribes).mpr ⟨hcompletable, hu, rfl, rfl⟩⟩
  · intro u stored hcompletable hu hkey hplace
    have hchecks := (completionChecks_eq_ok hdescribes).mpr ⟨hcompletable, hu, rfl, rfl⟩
    have htorn : ¬ Torn root s.files b.toNamespace stored := fun htorn => hplace.2 htorn.1
    have hetag : dg.compositeEtag (latest.map dg.partEtag) =
        hexEncode (md5 (latest.flatMap md5)) ++ "-" ++ toString parts.length := by
      have hlength : latest.length = parts.length := List.length_map _
      have hcomposite := computeMultipartCompositeEtag_parts md5 latest
      rw [hlength] at hcomposite
      simp only [dg, storageDigests, hcomposite, Except.toOption, Option.getD_some]
    obtain ⟨t', m, hstored, hdone⟩ := storeCompleted_ok now hdescribes hu hkey hplace.1 htorn
      latest.flatten (latest.map dg.partEtag)
    rw [hetag] at hdone
    refine ⟨t', m, ?_, hdone⟩
    rw [← hstored]
    simp only [call, completeMultipartUpload_eq, hchecks, Outcome.proceed_ok, latest]
  · intro e he
    have hchecks : completionChecks root s.files b.toNamespace key uploadId parts = .error e := he
    simp only [call, completeMultipartUpload_eq, hchecks, Outcome.proceed_error]

/-! ### Two parts -/

/-- As large as the first of two parts has to be. -/
def firstPart : List UInt8 := List.replicate LocalStorage.MIN_MULTIPART_PART_SIZE_BYTES 7

def putFirstPart : UploadOp := .putPart noteBucket "a/note.txt" noteId.val 1 firstPart

def putLastPart : UploadOp := .putPart noteBucket "a/note.txt" noteId.val 2 [104, 105]

/-- An upload whose second part is sent first. -/
def twoParts : List UploadOp :=
  [.create "t0" noteId noteBucket "a//note.txt" none, putLastPart, putFirstPart]

def twoPartList : List CompletedMultipartPart := [⟨1, "070707"⟩, ⟨2, "6869"⟩]

def firstBytes : Digests := storageDigests (List.take 3) id

/-- Where the calls have led to. -/
structure TwoPartsSent (s : UploadState) : Prop where
  upload : s.ledger.upload (noteBucket.toNamespace, trim noteId.val) = some noteUpload
  first : s.ledger.part (noteBucket.toNamespace, trim noteId.val, 1) = some firstPart
  last : s.ledger.part (noteBucket.toNamespace, trim noteId.val, 2) = some [104, 105]
  free : FreePlace dataRoot s.files noteBucket.toNamespace ["a", "note.txt"]

theorem twoParts_sent : TwoPartsSent (runUploads dataRoot firstBytes .empty twoParts) := by
  have hlast : (putLastPart.exec dataRoot firstBytes
      (runUploads dataRoot firstBytes .empty (twoParts.take 1)).files).2.toOption.isSome =
        true := by
    decide +kernel
  have hfirst : (putFirstPart.exec dataRoot firstBytes
      (runUploads dataRoot firstBytes .empty (twoParts.take 2)).files).2.toOption.isSome =
        true := by
    decide +kernel
  have hlastStep : runUploads dataRoot firstBytes .empty (twoParts.take 2) =
      (runUploads dataRoot firstBytes .empty (twoParts.take 1)).step dataRoot firstBytes
        putLastPart :=
    runUploads_concat (twoParts.take 1) putLastPart
  have hfirstStep : runUploads dataRoot firstBytes .empty twoParts =
      (runUploads dataRoot firstBytes .empty (twoParts.take 2)).step dataRoot firstBytes
        putFirstPart :=
    runUploads_concat (twoParts.take 2) putFirstPart
  refine ⟨by decide +kernel, ?_, ?_, by decide +kernel⟩
  · rw [hfirstStep, putFirstPart, UploadState.part_of_isSome hfirst, if_pos rfl]
  · rw [hfirstStep, putFirstPart, UploadState.part_of_isSome hfirst, if_neg (by decide), hlastStep,
      putLastPart, UploadState.part_of_isSome hlast, if_pos rfl]

theorem TwoPartsSent.completable {s : UploadState} (h : TwoPartsSent s) :
    Completable firstBytes s.ledger noteBucket.toNamespace "a/note.txt" noteId.val twoPartList where
  nonempty := by decide
  positive := by decide
  increasing := by decide
  upload := ⟨noteUpload, h.upload, ["a", "note.txt"], by decide +kernel, by decide +kernel⟩
  uploaded := by
    intro part hpart
    rcases List.mem_pair.mp hpart with rfl | rfl
    · exact ⟨firstPart, h.first, by decide +kernel⟩
    · exact ⟨[104, 105], h.last, by decide +kernel⟩
  large := by
    intro part hpart
    obtain rfl := List.mem_singleton.mp hpart
    exact ⟨firstPart, h.first, (List.length_replicate ..).ge⟩

/-- The parts are put together in the order of their numbers. -/
theorem two_parts_completed :
    ∃ t' m, StorageFiles.completeMultipartUpload dataRoot firstBytes "t1"
        (runUploads dataRoot firstBytes .empty twoParts).files
        noteBucket.toNamespace "a/note.txt" noteId.val twoPartList = (t', .ok m) ∧
      CompletedAs dataRoot noteBucket noteId.val "a/note.txt" (firstPart ++ [104, 105]) "070707-2"
        t' m := by
  have hfree : NoUploads dataRoot .empty := FileTree.lookup_empty _
  obtain ⟨-, hstores, -⟩ := multipart_completion hfree (List.take 3) id twoParts "t1" noteBucket
    "a/note.txt" noteId.val twoPartList
  have hsent := twoParts_sent
  rw [← firstBytes] at hstores
  generalize runUploads dataRoot firstBytes .empty twoParts = s at hstores hsent ⊢
  have hkey : normalizeObjectKey "a/note.txt" = .ok ["a", "note.txt"] := by decide +kernel
  have hlatest : s.ledger.latest noteBucket.toNamespace (trim noteId.val) twoPartList =
      [firstPart, [104, 105]] := by
    simp only [UploadLedger.latest, twoPartList, List.map_cons, List.map_nil, hsent.first,
      hsent.last, Option.getD_some]
  have hetag : hexEncode (([firstPart, [104, 105]].flatMap (List.take 3)).take 3) ++ "-" ++
      toString twoPartList.length = "070707-2" := by decide +kernel
  have hdata : [firstPart, [104, 105]].flatten = firstPart ++ [104, 105] := by
    rw [List.flatten_cons, List.flatten_singleton]
  obtain ⟨t', m, hcall, hdone⟩ := hstores noteUpload ["a", "note.txt"] hsent.completable
    ⟨hsent.upload, ["a", "note.txt"], hkey, by decide +kernel⟩ hkey hsent.free
  rw [hlatest, hetag, hdata] at hdone
  exact ⟨t', m, hcall, hdone⟩

end Peanut
