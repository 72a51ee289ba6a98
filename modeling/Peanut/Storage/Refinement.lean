import Peanut.Http.Public
import Peanut.Storage.Completion
import Peanut.Storage.PutConflicts

/-!
# The storage and its files

`LocalStorage` says what the storage is for: objects, uploads and parts in tables, and an
operation that is refused leaves them as they were.  The source keeps them in files.
Whatever operations follow one another, the files represent the tables, and both levels
answer alike, as long as no put tears.
-/

namespace Peanut

open Relational StorageFiles

/-! ### Operations on both levels -/

inductive FileOp where
  | put (now : String) (bucket : BucketNamespace) (key : String) (data : List UInt8)
      (contentType : Option String)
  | get (bucket : BucketNamespace) (key : String)
  | delete (bucket : BucketNamespace) (key : String)
  | create (now : String) (uploadId : UploadId) (bucket : BucketNamespace) (key : String)
      (contentType : Option String)
  | putPart (bucket : BucketNamespace) (key uploadId : String) (partNumber : Nat)
      (data : List UInt8)
  | complete (now : String) (bucket : BucketNamespace) (key uploadId : String)
      (parts : List CompletedMultipartPart)
  | abort (bucket : BucketNamespace) (key uploadId : String)

inductive FileAnswer where
  | object (metadata : StorageObjectMetadata)
  | contents (data : List UInt8) (metadata : StorageObjectMetadata)
  | upload (upload : MultipartUpload)
  | part (part : MultipartUploadPart)
  | done
deriving DecidableEq, Repr

/-- The operating system lets everything pass. -/
def willingOs (now : String) : Os := { now := now, timestamp := 0 }

section Operations

variable (root : FsPath) (dg : Digests)

/-- The operation on the files. -/
def FileOp.exec (t : StorageFiles) : FileOp → StorageFiles × Except IoError FileAnswer
  | .put now bucket key data contentType =>
      let r := StorageFiles.putObject root dg now t bucket.toNamespace key data contentType
      (r.1, r.2.map fun m => .object m.toStorageObjectMetadata)
  | .get bucket key =>
      (t, (StorageFiles.getObject root t bucket.toNamespace key).map
        fun r => .contents r.1 r.2.toStorageObjectMetadata)
  | .delete bucket key =>
      let r := StorageFiles.deleteObject root t bucket.toNamespace key
      (r.1, r.2.map fun _ => .done)
  | .create now uploadId bucket key contentType =>
      let r := StorageFiles.createMultipartUpload root now uploadId.val t bucket.toNamespace key
        contentType
      (r.1, r.2.map .upload)
  | .putPart bucket key uploadId partNumber data =>
      let r := StorageFiles.putMultipartPart root dg t bucket.toNamespace key uploadId partNumber
        data
      (r.1, r.2.map .part)
  | .complete now bucket key uploadId parts =>
      let r := StorageFiles.completeMultipartUpload root dg now t bucket.toNamespace key uploadId
        parts
      (r.1, r.2.map fun m => .object m.toStorageObjectMetadata)
  | .abort bucket key uploadId =>
      let r := StorageFiles.abortMultipartUpload root t bucket.toNamespace key uploadId
      (r.1, r.2.map fun _ => .done)

/-- The operation on the tables. -/
def FileOp.apply (st : LocalStorage) : FileOp → Except IoError (FileAnswer × LocalStorage)
  | .put now bucket key data contentType =>
      (st.putObject dg (willingOs now) bucket.toNamespace key data contentType).map
        fun r => (.object r.1, r.2)
  | .get bucket key =>
      (st.getObject (willingOs "") bucket.toNamespace key).map fun o =>
        (.contents o.data o.metadata, st)
  | .delete bucket key =>
      (st.deleteObject (willingOs "") bucket.toNamespace key).map fun st => (.done, st)
  | .create now uploadId bucket key contentType =>
      (st.createMultipartUpload (willingOs now) uploadId.val bucket.toNamespace key
        contentType).map fun r => (.upload r.1, r.2)
  | .putPart bucket key uploadId partNumber data =>
      (st.putMultipartPart dg (willingOs "") bucket.toNamespace key uploadId partNumber data).map
        fun r => (.part r.1, r.2)
  | .complete now bucket key uploadId parts =>
      (st.completeMultipartUpload dg (willingOs now) bucket.toNamespace key uploadId parts).map
        fun r => (.object r.1, r.2)
  | .abort bucket key uploadId =>
      (st.abortMultipartUpload (willingOs "") bucket.toNamespace key uploadId).map
        fun st => (.done, st)

end Operations

/-! ### What the files represent -/

/-- The uploads and the parts of the tables. -/
def LocalStorage.ledger (st : LocalStorage) : UploadLedger where
  upload := st.uploads.find?
  part p := (st.parts.find? p).map (·.data)

/-- The two files of the objects. -/
structure ObjectsStored (root : FsPath) (st : LocalStorage) (t : StorageFiles) : Prop where
  data : ∀ (b : BucketNamespace) parts,
    t.contentAt (objectFile root b.toNamespace parts) =
      (st.objects.find? ⟨b.toNamespace, parts⟩).map fun o => .bytes o.data
  metadata : ∀ (b : BucketNamespace) parts, parts ≠ [] →
    t.contentAt (metadataFile root b.toNamespace parts) =
      (st.objects.find? ⟨b.toNamespace, parts⟩).map fun o => .metadata ⟨o.metadata, {}⟩

/-- The parts have the metadata of their data. -/
def PartsMeasured (dg : Digests) (st : LocalStorage) : Prop :=
  ∀ p ∈ st.parts, p.metadata =
    { partNumber := p.metadata.partNumber, etag := dg.partEtag p.data, size := p.data.length }

/-- **The files represent the tables.** -/
structure Represents (root : FsPath) (dg : Digests) (st : LocalStorage) (t : StorageFiles) :
    Prop where
  objects : ObjectsStored root st t
  lengths : ∀ o ∈ st.objects, o.metadata.contentLength = o.data.length
  uploads : Describes root dg st.ledger t
  parts : PartsMeasured dg st

/-! ### Objects -/

section Objects

variable {root : FsPath} {dg : Digests} {st : LocalStorage} {t t' : StorageFiles}
  {b : BucketNamespace} {key now : String} {parts : List String}

theorem readMetadata_toOption (hkey : normalizeObjectKey key = .ok parts) :
    (readMetadata root t b.toNamespace key).toOption =
      (t.contentAt (metadataFile root b.toNamespace parts)).bind fun c =>
        c.asMetadata.toOption := by
  obtain ⟨path, hresolve, hpath⟩ := resolveMetadataPath_served root b hkey
  have hread : ∀ m, readMetadata root t b.toNamespace key = .ok m ↔
      t.contentAt (metadataFile root b.toNamespace parts) = some (.metadata m) := by
    intro m
    rw [readMetadata, hresolve, Outcome.ok_bind, ← hpath]
    simp only [Outcome.bind_eq_ok, readFile, Outcome.mapError_eq_ok, FileTree.read_eq_ok_iff,
      StorageContent.asMetadata_eq_ok]
    constructor
    · rintro ⟨raw, hraw, rfl⟩
      exact hraw
    · intro hraw
      exact ⟨_, hraw, rfl⟩
  apply Option.ext
  intro m
  rw [Option.bind_eq_some_iff]
  constructor
  · intro hm
    refine ⟨.metadata m, (hread m).mp ?_, rfl⟩
    rcases hresult : readMetadata root t b.toNamespace key with e | m'
    · rw [hresult] at hm
      cases hm
    · rw [hresult] at hm
      exact congrArg Except.ok (Option.some.inj hm)
  · rintro ⟨c, hc, hm⟩
    rcases c with _ | m' | _ | _
    · cases hm
    · obtain rfl := Option.some.inj hm
      rw [(hread m').mpr hc]
      rfl
    · cases hm
    · cases hm

theorem putObject_metadata {m : ObjectMetadata} {data : List UInt8} {contentType : Option String}
    (hkey : normalizeObjectKey key = .ok parts)
    (h : (StorageFiles.putObject root dg now t b.toNamespace key data contentType).2 = .ok m) :
    m = newMetadata dg now
      ((t.contentAt (metadataFile root b.toNamespace parts)).bind fun c => c.asMetadata.toOption)
      data contentType {} := by
  obtain ⟨path, hresolve, hpath⟩ := resolveObjectPath_served root b hkey
  obtain ⟨path', hresolve', hpath'⟩ := resolveMetadataPath_served root b hkey
  have hne : path.names ≠ [] := hpath ▸ treePath_ne_nil root .objects b.toNamespace parts
  have hne' : path'.names ≠ [] :=
    hpath' ▸ treePath_ne_nil root .metadata b.toNamespace (withJson parts)
  rw [StorageFiles.putObject, putObjectWithMetadata, hresolve, hresolve', Outcome.proceed_ok,
    Outcome.proceed_ok, Outcome.proceed_eq_ok] at h
  obtain ⟨t₁, hdirs, h⟩ := h
  rw [Outcome.proceed_eq_ok] at h
  obtain ⟨t₂, hdirs', h⟩ := h
  have hsame := (createParent_ok hne hdirs).1.trans (createParent_ok hne' hdirs').1
  simp only [Outcome.proceed_eq_ok, Outcome.map_eq_ok] at h
  obtain ⟨t₃, -, -, -, hm⟩ := h
  rw [← hm, readMetadata_toOption hkey, hsame.content]

theorem ObjectsStored.changed (h : ObjectsStored root st t) (hne : parts ≠ [])
    {objects : KeyedTable StoredObject (·.path)} {o : Option StoredObject}
    (hobjects : ∀ path, objects.find? path =
      if path = ⟨b.toNamespace, parts⟩ then o else st.objects.find? path)
    (hcontent : t'.contentAt = Function.update
      (Function.update t.contentAt (objectFile root b.toNamespace parts)
        (o.map fun o => .bytes o.data))
      (metadataFile root b.toNamespace parts) (o.map fun o => .metadata ⟨o.metadata, {}⟩)) :
    ObjectsStored root { st with objects := objects } t' := by
  refine ⟨?_, ?_⟩
  · intro b' parts'
    by_cases hsame : b'.toNamespace = b.toNamespace ∧ parts' = parts
    · obtain ⟨hb, rfl⟩ := hsame
      simp [hb, contentAt_object hcontent, hobjects]
    · have hother : (⟨b'.toNamespace, parts'⟩ : ObjectPath) ≠ ⟨b.toNamespace, parts⟩ := by
        simpa using hsame
      simp only [hobjects, if_neg hother]
      rw [(contentAt_other hne hcontent hsame).1, h.data b' parts']
  · intro b' parts' hne'
    by_cases hsame : b'.toNamespace = b.toNamespace ∧ parts' = parts
    · obtain ⟨hb, rfl⟩ := hsame
      simp [hb, hcontent, hobjects]
    · have hother : (⟨b'.toNamespace, parts'⟩ : ObjectPath) ≠ ⟨b.toNamespace, parts⟩ := by
        simpa using hsame
      simp only [hobjects, if_neg hother]
      rw [(contentAt_other hne hcontent hsame).2 hne', h.metadata b' parts' hne']

theorem ObjectsStored.elsewhere (h : ObjectsStored root st t) (hkept : KeepsObjects root t t') :
    ObjectsStored root st t' where
  data b parts := (hkept _ (by decide) b parts).trans (h.data b parts)
  metadata b parts hne := (hkept _ (by decide) b _).trans (h.metadata b parts hne)

theorem ObjectsStored.congr {st' : LocalStorage} (h : ObjectsStored root st t)
    (hobjects : st'.objects = st.objects) : ObjectsStored root st' t where
  data b parts := by rw [hobjects, h.data b parts]
  metadata b parts hne := by rw [hobjects, h.metadata b parts hne]

theorem ObjectsStored.put (h : ObjectsStored root st t) (hne : parts ≠ []) {data : List UInt8}
    {metadata : StorageObjectMetadata}
    (hcontent : t'.contentAt = Function.update
      (Function.update t.contentAt (objectFile root b.toNamespace parts) (some (.bytes data)))
      (metadataFile root b.toNamespace parts) (some (.metadata ⟨metadata, {}⟩))) :
    ObjectsStored root
      { st with objects := st.objects.upsert ⟨⟨b.toNamespace, parts⟩, data, metadata⟩ } t' := by
  refine h.changed (b := b) (o := some ⟨⟨b.toNamespace, parts⟩, data, metadata⟩) hne ?_ hcontent
  intro path
  rw [KeyedTable.find?_upsert]
  simp only [eq_comm]

theorem ObjectsStored.delete (h : ObjectsStored root st t) (hne : parts ≠ [])
    (hcontent : t'.contentAt = Function.update
      (Function.update t.contentAt (objectFile root b.toNamespace parts) none)
      (metadataFile root b.toNamespace parts) none) :
    ObjectsStored root { st with objects := st.objects.erase ⟨b.toNamespace, parts⟩ } t' := by
  refine h.changed (b := b) (o := none) hne ?_ hcontent
  intro path
  rw [KeyedTable.find?_erase]
  simp only [eq_comm]

end Objects

/-! ### Uploads -/

section Uploads

variable {root : FsPath} {dg : Digests} {st : LocalStorage} {t t' : StorageFiles}
  {b : BucketNamespace} {key uploadId now : String}

theorem LocalStorage.readMultipartUpload_eq_ok (hserved : st.ledger.Served) {u : MultipartUpload} :
    st.readMultipartUpload (willingOs now) b.toNamespace key uploadId = .ok u ↔
      st.ledger.Has b.toNamespace key (trim uploadId) u := by
  rw [LocalStorage.readMultipartUpload, UploadLedger.Has]
  simp only [Outcome.bind_eq_ok, Outcome.ensure_eq_ok, Outcome.require_eq_ok, willingOs,
    LocalStorage.refusal_eq_ok, pure, Except.pure, Except.ok.injEq, Bool.and_eq_true, beq_iff_eq]
  constructor
  · rintro ⟨id, hid, -, -, u', hu', names, hkey, -, ⟨-, hsame⟩, rfl⟩
    rw [resolveUploadId_eq_trim hid] at hu'
    exact ⟨hu', names, hkey, hsame⟩
  · rintro ⟨hu, names, hkey, hsame⟩
    obtain ⟨-, huuid, hbucket, -⟩ := hserved _ _ _ hu
    exact ⟨_, resolveUploadId_uuid huuid, (), trivial, u, hu, names, hkey, (), ⟨hbucket, hsame⟩,
      rfl⟩

theorem LocalStorage.assembleParts_eq_ok (hparts : PartsMeasured dg st) {id : String}
    {parts : List CompletedMultipartPart} {previous : Nat} {data : List UInt8}
    {etags : List String} :
    st.assembleParts b.toNamespace id previous parts = .ok (data, etags) ↔
      IncreasesFrom previous parts ∧ (∀ part ∈ parts, st.ledger.Lists dg b.toNamespace id part) ∧
        (∀ part ∈ parts.dropLast, st.ledger.Large b.toNamespace id part) ∧
        data = (st.ledger.latest b.toNamespace id parts).flatten ∧
        etags = (st.ledger.latest b.toNamespace id parts).map dg.partEtag := by
  induction parts generalizing previous data etags with
  | nil =>
    rw [LocalStorage.assembleParts]
    simp [IncreasesFrom, UploadLedger.latest, eq_comm]
  | cons part rest ih =>
    have hstored : ∀ p, st.parts.find? (b.toNamespace, id, part.partNumber) = some p →
        p.metadata.etag = dg.partEtag p.data ∧ p.metadata.size = p.data.length := by
      intro p hp
      have hmeasured := hparts p (KeyedTable.find?_eq_some.mp hp).1
      exact ⟨congrArg MultipartUploadPart.etag hmeasured,
        congrArg MultipartUploadPart.size hmeasured⟩
    rw [LocalStorage.assembleParts, increasesFrom_cons, List.forall_mem_cons]
    simp only [Outcome.bind_eq_ok, Outcome.ensure_eq_ok, Outcome.require_eq_ok, pure, Except.pure,
      Except.ok.injEq, Prod.exists, Prod.mk.injEq, ih, UploadLedger.latest, List.map_cons,
      List.flatten_cons, bne_iff_ne, decide_eq_true_eq, beq_iff_eq, Bool.or_eq_true,
      List.isEmpty_iff]
    -- The first part is the last one when nothing follows it.
    have hlarge : (∀ p ∈ (part :: rest).dropLast, st.ledger.Large b.toNamespace id p) ↔
        (rest = [] ∨ st.ledger.Large b.toNamespace id part) ∧
          ∀ p ∈ rest.dropLast, st.ledger.Large b.toNamespace id p := by
      cases rest with
      | nil => simp
      | cons next rest => simp
    rw [hlarge]
    constructor
    · rintro ⟨-, -, -, hfirst, p, hp, -, hetag, -, hsize, data', etags',
        ⟨hincreases, hlists, hlarge', rfl, rfl⟩, rfl, rfl⟩
      obtain ⟨hpetag, hpsize⟩ := hstored p hp
      have hdata : st.ledger.part (b.toNamespace, id, part.partNumber) = some p.data := by
        simp [LocalStorage.ledger, hp]
      refine ⟨⟨hfirst, hincreases⟩, ⟨⟨p.data, hdata, hpetag ▸ hetag⟩, hlists⟩, ⟨?_, hlarge'⟩, ?_,
        ?_⟩
      · exact hsize.imp_right fun hle => ⟨p.data, hdata, hpsize ▸ hle⟩
      · rw [hdata, Option.getD_some]
      · rw [hdata, Option.getD_some, hpetag]
    · rintro ⟨⟨hfirst, hincreases⟩, ⟨⟨bytes, hbytes, hetag⟩, hlists⟩, ⟨hsize, hlarge'⟩, rfl, rfl⟩
      obtain ⟨p, hp, rfl⟩ := Option.map_eq_some_iff.mp hbytes
      obtain ⟨hpetag, hpsize⟩ := hstored p hp
      refine ⟨(), by omega, (), hfirst, p, hp, (), hpetag.trans hetag, (), ?_, _, _,
        ⟨hincreases, hlists, hlarge', rfl, rfl⟩, ?_, ?_⟩
      · refine hsize.imp_right ?_
        rintro ⟨bytes', hbytes', hle⟩
        rw [hbytes, Option.some.injEq] at hbytes'
        rw [hpsize, hbytes']
        exact hle
      · rw [hbytes, Option.getD_some]
      · rw [hbytes, Option.getD_some, hpetag]

/-- **The checks of a completion** pass on both levels, with the same result. -/
theorem LocalStorage.multipartContents_eq_ok (h : Represents root dg st t)
    {parts : List CompletedMultipartPart} {checked : MultipartUpload × List UInt8 × List String} :
    st.multipartContents (willingOs now) b.toNamespace key uploadId parts = .ok checked ↔
      completionChecks root t b.toNamespace key uploadId parts = .ok checked := by
  obtain ⟨u, data, etags⟩ := checked
  rw [LocalStorage.multipartContents, completionChecks]
  simp only [Outcome.bind_eq_ok, Outcome.ensure_eq_ok, Bool.not_eq_true', List.isEmpty_eq_false_iff,
    LocalStorage.readMultipartUpload_eq_ok h.uploads.served, h.uploads.readMultipartUpload_eq_ok,
    UploadLedger.Has, pure, Except.pure, Except.ok.injEq, Prod.mk.injEq]
  refine exists_congr fun _ => and_congr_right fun _ => exists_congr fun u' =>
    and_congr_right fun hu => exists_congr fun contents => and_congr_left fun _ => ?_
  obtain ⟨-, huuid, -, hid⟩ := h.uploads.served _ _ _ hu.1
  obtain ⟨data', etags'⟩ := contents
  rw [hid, LocalStorage.assembleParts_eq_ok h.parts, Peanut.assembleParts_eq_ok h.uploads huuid]

end Uploads

/-! ### What an operation does on both levels -/

/-- A put whose data is written while its metadata cannot be. -/
def FileOp.Tearing (root : FsPath) (t : StorageFiles) : FileOp → Prop
  | .put _ b key _ _ => ∃ parts, normalizeObjectKey key = .ok parts ∧
    Torn root t b.toNamespace parts
  | .complete _ b key uploadId list => ∃ checked parts,
      completionChecks root t b.toNamespace key uploadId list = .ok checked ∧
        normalizeObjectKey checked.1.key = .ok parts ∧ Torn root t b.toNamespace parts
  | _ => False

/-- A file or a directory of something else is in the way. -/
def FileOp.Obstructed (root : FsPath) (t : StorageFiles) : FileOp → Prop
  | .put _ b key _ _ =>
      ∃ parts, normalizeObjectKey key = .ok parts ∧ Blocked root t b.toNamespace parts
  | .create _ id b _ _ =>
      ∃ q, q <+: (multipartPath root
          (⟨b.toNamespace, id.val, .manifest⟩ : UploadAddress).path).dropLast ∧
        ∃ c, t.lookup q = some (.file c)
  | .complete _ b key uploadId list => ∃ checked parts,
      completionChecks root t b.toNamespace key uploadId list = .ok checked ∧
        normalizeObjectKey checked.1.key = .ok parts ∧ Blocked root t b.toNamespace parts
  | _ => False

/-- How an operation ends on the files, from that on the tables: both succeed with the
    same answer, or both are refused, or the files are obstructed.  What is refused
    changes nothing. -/
inductive Refines (root : FsPath) (dg : Digests) (obstructed : Prop) (st : LocalStorage) :
    StorageFiles × Except IoError FileAnswer → Except IoError (FileAnswer × LocalStorage) →
      Prop where
  | done {t' : StorageFiles} {answer : FileAnswer} {st' : LocalStorage}
      (h : Represents root dg st' t') :
      Refines root dg obstructed st (t', .ok answer) (.ok (answer, st'))
  | refused {t' : StorageFiles} {e e' : IoError} (h : Represents root dg st t') :
      Refines root dg obstructed st (t', .error e) (.error e')
  | obstructed {t' : StorageFiles} {e : IoError}
      {applied : Except IoError (FileAnswer × LocalStorage)} (hobstructed : obstructed)
      (h : Represents root dg st t') : Refines root dg obstructed st (t', .error e) applied

section Steps

variable {root : FsPath} {dg : Digests} {st : LocalStorage} {t t' : StorageFiles}
  {b : BucketNamespace} {key uploadId now : String}

theorem Represents.same (h : Represents root dg st t) (hsame : SameFiles t t')
    (huploads : SameUploads root t t') : Represents root dg st t' where
  objects := h.objects.elsewhere (keepsObjects_of_same root hsame)
  lengths := h.lengths
  uploads := h.uploads.congr huploads
  parts := h.parts

variable {parts : List String}

theorem LocalStorage.putObject_eq (hkey : normalizeObjectKey key = .ok parts)
    (data : List UInt8) (contentType : Option String) :
    st.putObject dg (willingOs now) b.toNamespace key data contentType =
      let metadata : StorageObjectMetadata :=
        { contentType := storedContentType contentType
          contentLength := data.length
          etag := dg.sha256Etag data
          createdAt := ((st.objects.find? ⟨b.toNamespace, parts⟩).map
            fun o => o.metadata.createdAt).getD now
          updatedAt := now }
      .ok (metadata,
        { st with objects := st.objects.upsert ⟨⟨b.toNamespace, parts⟩, data, metadata⟩ }) := by
  rw [LocalStorage.putObject, resolveObjectPath, hkey]
  rfl

theorem LocalStorage.putObject_rejected (hkey : ∀ parts, normalizeObjectKey key ≠ .ok parts)
    (data : List UInt8) (contentType : Option String) :
    ∃ e, st.putObject dg (willingOs now) b.toNamespace key data contentType = .error e := by
  rcases hresult : normalizeObjectKey key with e | parts
  · exact ⟨e, by rw [LocalStorage.putObject, resolveObjectPath, hresult]; rfl⟩
  · exact absurd hresult (hkey parts)

theorem ObjectsStored.newMetadata_eq (h : ObjectsStored root st t)
    (hne : parts ≠ []) (data : List UInt8) (contentType : Option String) :
    newMetadata dg now
      ((t.contentAt (metadataFile root b.toNamespace parts)).bind fun c => c.asMetadata.toOption)
      data contentType {} =
    ⟨{ contentType := storedContentType contentType
       contentLength := data.length
       etag := dg.sha256Etag data
       createdAt := ((st.objects.find? ⟨b.toNamespace, parts⟩).map
         fun o => o.metadata.createdAt).getD now
       updatedAt := now }, {}⟩ := by
  rw [h.metadata b parts hne]
  rcases st.objects.find? ⟨b.toNamespace, parts⟩ with _ | o
  · rfl
  · rfl

theorem mem_upsert_lengths {o : StoredObject} (h : ∀ o ∈ st.objects,
    o.metadata.contentLength = o.data.length) (ho : o.metadata.contentLength = o.data.length) :
    ∀ o' ∈ st.objects.upsert o, o'.metadata.contentLength = o'.data.length := by
  intro o' ho'
  rcases KeyedTable.mem_upsert.mp ho' with ⟨hold, -⟩ | rfl
  · exact h o' hold
  · exact ho

/-- **A put** on both levels. -/
theorem Represents.put (h : Represents root dg st t) (data : List UInt8)
    (contentType : Option String)
    (htears : ¬ (FileOp.put now b key data contentType).Tearing root t) :
    Refines root dg ((FileOp.put now b key data contentType).Obstructed root t) st
      ((FileOp.put now b key data contentType).exec root dg t)
      ((FileOp.put now b key data contentType).apply dg st) := by
  rw [FileOp.exec, FileOp.apply]
  have huploads := @sameUploads_putObject root dg b now t key data contentType
  by_cases hkey : ∃ parts, normalizeObjectKey key = .ok parts
  · obtain ⟨parts, hkey⟩ := hkey
    have hne := (normalizeObjectKey_ok hkey).1
    have houtcome := putObject_outcome root dg now b t hkey data contentType {}
    have hmetadata := fun m => @putObject_metadata root dg t b key now parts m data contentType hkey
    rw [← StorageFiles.putObject] at houtcome
    generalize StorageFiles.putObject root dg now t b.toNamespace key data contentType = r
      at houtcome hmetadata huploads ⊢
    cases houtcome with
    | @stored t' m _ _ hcontent =>
      have hm := hmetadata m rfl
      rw [h.objects.newMetadata_eq hne] at hm
      subst hm
      rw [LocalStorage.putObject_eq hkey]
      refine .done ⟨h.objects.put hne hcontent, mem_upsert_lengths h.lengths rfl,
        h.uploads.congr huploads, h.parts⟩
    | refused hblocked hsame => exact .obstructed ⟨parts, hkey, hblocked⟩ (h.same hsame huploads)
    | torn htorn _ => exact absurd ⟨parts, hkey, htorn⟩ htears
  · rw [not_exists] at hkey
    obtain ⟨e, he⟩ := @LocalStorage.putObject_rejected dg st b key now hkey data contentType
    rw [he]
    rcases hresult : (StorageFiles.putObject root dg now t b.toNamespace key data contentType).2
      with e' | m
    · have hsame := @put_of_rejected_key root dg t now b key hkey data contentType {}
      rw [← StorageFiles.putObject] at hsame
      rw [hsame]
      exact .refused h
    · obtain ⟨parts, hok⟩ := normalizeObjectKey_of_put dg now hresult
      exact absurd hok (hkey parts)

theorem deleteObject_missing (hkey : normalizeObjectKey key = .ok parts)
    (hnone : t.contentAt (objectFile root b.toNamespace parts) = none) :
    ∃ e, StorageFiles.deleteObject root t b.toNamespace key = (t, .error e) := by
  obtain ⟨path, hresolve, hpath⟩ := resolveObjectPath_served root b hkey
  obtain ⟨path', hresolve', -⟩ := resolveMetadataPath_served root b hkey
  rw [StorageFiles.deleteObject, hresolve, hresolve', Outcome.proceed_ok, Outcome.proceed_ok, hpath]
  rcases hremove : t.removeFile (objectFile root b.toNamespace parts) with e | t'
  · exact ⟨_, rfl⟩
  · obtain ⟨⟨c, hfile⟩, -⟩ := FileTree.removeFile_ok hremove
    rw [FileTree.contentAt_eq_some.mpr hfile] at hnone
    cases hnone

theorem deleteObject_kept (hkey : normalizeObjectKey key = .ok parts)
    {c m : StorageContent} (hobject : t.contentAt (objectFile root b.toNamespace parts) = some c)
    (hmetadata : t.contentAt (metadataFile root b.toNamespace parts) = some m) :
    ∃ t', StorageFiles.deleteObject root t b.toNamespace key = (t', .ok ()) ∧
      t'.contentAt = Function.update
        (Function.update t.contentAt (objectFile root b.toNamespace parts) none)
        (metadataFile root b.toNamespace parts) none ∧ SameUploads root t t' := by
  obtain ⟨path, hresolve, hpath⟩ := resolveObjectPath_served root b hkey
  obtain ⟨path', hresolve', hpath'⟩ := resolveMetadataPath_served root b hkey
  obtain ⟨t₁, hremove⟩ := FileTree.removeFile_isOk (FileTree.contentAt_eq_some.mp hobject)
  have hcontent := FileTree.contentAt_removeFile hremove
  have hmetadata₁ : t₁.contentAt (metadataFile root b.toNamespace parts) = some m := by
    rw [hcontent, Function.update_of_ne objectFile_ne_metadataFile.symm, hmetadata]
  obtain ⟨t₂, hremove'⟩ := FileTree.removeFile_isOk (FileTree.contentAt_eq_some.mp hmetadata₁)
  refine ⟨t₂, ?_, ?_, ?_⟩
  · rw [StorageFiles.deleteObject, hresolve, hresolve', Outcome.proceed_ok, Outcome.proceed_ok,
      hpath, hpath', hremove, Outcome.mapError_ok, Outcome.proceed_ok, hremove']
  · rw [FileTree.contentAt_removeFile hremove', hcontent]
  · intro rel
    have hapart : ∀ tree, tree ≠ .multipart → ∀ rel', multipartPath root rel ≠
        treePath root tree b.toNamespace rel' := by
      intro tree htree rel' heq
      refine @not_multipartPath_isPrefix root b _ htree rel rel' ?_
      rw [heq]
    have hother : multipartPath root rel ≠ metadataFile root b.toNamespace parts :=
      hapart .metadata (by decide) _
    have hother' : multipartPath root rel ≠ objectFile root b.toNamespace parts :=
      hapart .objects (by decide) _
    rw [(FileTree.removeFile_ok hremove').2, if_neg hother, (FileTree.removeFile_ok hremove).2,
      if_neg hother']

/-- **A deletion** on both levels. -/
theorem Represents.delete (h : Represents root dg st t) :
    Refines root dg ((FileOp.delete b key).Obstructed root t) st
      ((FileOp.delete b key).exec root dg t) ((FileOp.delete b key).apply dg st) := by
  rw [FileOp.exec, FileOp.apply]
  by_cases hkey : ∃ parts, normalizeObjectKey key = .ok parts
  · obtain ⟨parts, hkey⟩ := hkey
    have hne := (normalizeObjectKey_ok hkey).1
    have hdata := h.objects.data b parts
    have hmetadata := h.objects.metadata b parts hne
    have hpath : LocalStorage.writablePath (willingOs "") b.toNamespace key =
        some ⟨b.toNamespace, parts⟩ := by
      rw [LocalStorage.writablePath_eq_some, resolveObjectPath, hkey]
      exact ⟨rfl, rfl⟩
    rcases hfound : st.objects.find? ⟨b.toNamespace, parts⟩ with _ | o
    · rw [hfound, Option.map_none] at hdata
      obtain ⟨e, he⟩ := deleteObject_missing hkey hdata
      rw [he]
      rcases hresult : st.deleteObject (willingOs "") b.toNamespace key with e' | st'
      · exact .refused h
      · obtain ⟨path, o, hpath', ho, -⟩ := LocalStorage.deleteObject_eq_ok.mp hresult
        obtain rfl := Option.some.inj (hpath.symm.trans hpath')
        rw [hfound] at ho
        cases ho
    · rw [hfound, Option.map_some] at hdata hmetadata
      obtain ⟨t', hdeleted, hcontent, huploads⟩ := deleteObject_kept hkey hdata hmetadata
      rw [hdeleted, LocalStorage.deleteObject_eq_ok.mpr ⟨_, o, hpath, hfound, rfl⟩]
      refine .done ⟨h.objects.delete hne hcontent, ?_, h.uploads.congr huploads, h.parts⟩
      intro o' ho'
      exact h.lengths o' (KeyedTable.mem_erase.mp ho').1
  · rw [not_exists] at hkey
    have hresolve : ∀ path, root.resolveObjectPath b.toNamespace.text key ≠ .ok path := by
      intro path hpath
      obtain ⟨parts, hok⟩ := normalizeObjectKey_of_resolve hpath
      exact hkey parts hok
    rcases hpath : root.resolveObjectPath b.toNamespace.text key with e | path
    · rcases hresult : normalizeObjectKey key with e' | parts
      · rw [StorageFiles.deleteObject, hpath, LocalStorage.deleteObject, resolveObjectPath, hresult]
        exact .refused h
      · exact absurd hresult (hkey parts)
    · exact absurd hpath (hresolve path)

theorem LocalStorage.ledger_created (u : MultipartUpload) :
    ({ st with uploads := st.uploads.upsert u } : LocalStorage).ledger =
      st.ledger.record (.created u) := by
  have hupload : (st.uploads.upsert u).find? =
      Function.update st.uploads.find? (u.bucket, u.uploadId) (some u) := by
    funext k
    rw [KeyedTable.find?_upsert, Function.update_apply]
    simp only [eq_comm]
  rw [LocalStorage.ledger, hupload]
  rfl

theorem LocalStorage.ledger_stored (p : StoredPart) :
    ({ st with parts := st.parts.upsert p } : LocalStorage).ledger =
      st.ledger.record (.stored p.bucket p.uploadId p.metadata.partNumber p.data) := by
  have hpart : (fun k => ((st.parts.upsert p).find? k).map (·.data)) =
      Function.update (fun k => (st.parts.find? k).map (·.data))
        (p.bucket, p.uploadId, p.metadata.partNumber) (some p.data) := by
    funext k
    rw [KeyedTable.find?_upsert, Function.update_apply]
    simp only [eq_comm]
    split
    · rfl
    · rfl
  rw [LocalStorage.ledger, hpart]
  rfl

theorem LocalStorage.ledger_removed (bucket : Namespace) (id : String) :
    ({ st with
      uploads := st.uploads.erase (bucket, id)
      parts := st.parts.deleteWhere fun p => p.bucket == bucket && p.uploadId == id } :
        LocalStorage).ledger = st.ledger.record (.removed bucket id) := by
  have hupload : (st.uploads.erase (bucket, id)).find? =
      Function.update st.uploads.find? (bucket, id) none := by
    funext k
    rw [KeyedTable.find?_erase, Function.update_apply]
    simp only [eq_comm]
  have hpart : (fun k => ((st.parts.deleteWhere fun p =>
        p.bucket == bucket && p.uploadId == id).find? k).map (·.data)) =
      fun k => if k.1 = bucket ∧ k.2.1 = id then none else (st.parts.find? k).map (·.data) := by
    funext k
    rw [KeyedTable.find?_deleteWhere_key st.parts fun k => k.1 == bucket && k.2.1 == id]
    by_cases hsame : k.1 = bucket ∧ k.2.1 = id
    · simp [hsame]
    · have hother : ¬ (k.1 == bucket && k.2.1 == id) = true := by simpa using hsame
      rw [if_neg hother, if_neg hsame]
  rw [LocalStorage.ledger, hupload, hpart]
  rfl

/-- The upload that is created, or the key that is not accepted, or what is in the way. -/
theorem createMultipartUpload_outcome (h : Describes root dg st.ledger t) (id : UploadId)
    (contentType : Option String) :
    let r := StorageFiles.createMultipartUpload root now id.val t b.toNamespace key contentType
    let applied := st.createMultipartUpload (willingOs now) id.val b.toNamespace key contentType
    (∃ u, r.2 = .ok u ∧ applied = .ok (u, { st with uploads := st.uploads.upsert u })) ∨
      (∃ e e', r.2 = .error e ∧ applied = .error e') ∨
        ∃ e, r.2 = .error e ∧ (FileOp.create now id b key contentType).Obstructed root t := by
  intro r applied
  have hserved : (⟨b.toNamespace, id.val, .manifest⟩ : UploadAddress).Served :=
    ⟨⟨b, rfl⟩, id.property⟩
  obtain ⟨path, hpath, hnames⟩ :=
    @manifest_served root b id.val id.val id.property (trim_uuid id.property)
  rcases hkey : normalizeObjectKey key with e | parts
  · refine .inr (.inl ⟨e, e, ?_, ?_⟩)
    · simp only [r, StorageFiles.createMultipartUpload, hkey, Outcome.proceed_error]
    · simp only [applied, LocalStorage.createMultipartUpload, hkey, Outcome.error_bind]
  · simp only [r, applied, StorageFiles.createMultipartUpload, LocalStorage.createMultipartUpload,
      hkey, hpath, Outcome.proceed_ok, Outcome.ok_bind]
    rcases hdirs : t.createParent path with e | t₁
    · refine .inr (.inr ⟨e, rfl, ?_⟩)
      have hne : path.names ≠ [] := hnames ▸ multipartPath_ne_nil root _
      by_contra hfree
      simp only [FileOp.Obstructed, not_exists, not_and] at hfree
      rw [← hnames] at hfree
      obtain ⟨t₁, hok⟩ := (createParent_isOk_iff hne).mpr hfree
      rw [hdirs] at hok
      cases hok
    · obtain ⟨hstores, hparent⟩ := h.stores.createParent hserved hnames hdirs
      obtain ⟨t₂, hwrite⟩ := hstores.writeFile_isOk (.upload
        { uploadId := id.val, bucket := b.toNamespace, key := keyText parts
          contentType := storedContentType contentType, initiatedAt := now }) hnames hparent
      refine .inl ⟨_, ?_, rfl⟩
      rw [Outcome.proceed_ok, hwrite, Outcome.proceed_ok]
      rfl

/-- **A new upload** on both levels. -/
theorem Represents.create (h : Represents root dg st t) (id : UploadId)
    (contentType : Option String) :
    Refines root dg ((FileOp.create now id b key contentType).Obstructed root t) st
      ((FileOp.create now id b key contentType).exec root dg t)
      ((FileOp.create now id b key contentType).apply dg st) := by
  have hledger : KeepsLedger root dg st.ledger
      ((UploadOp.create now id b key contentType).exec root dg t) :=
        h.uploads.create now id contentType
  have hkept := @createMultipartUpload_keepsObjects root now b id.val t key contentType
  have houtcome :=
    @createMultipartUpload_outcome root dg st t b key now h.uploads id contentType
  rw [UploadOp.exec] at hledger
  rw [FileOp.exec, FileOp.apply]
  generalize StorageFiles.createMultipartUpload root now id.val t b.toNamespace key contentType = r
    at hledger hkept houtcome ⊢
  obtain ⟨t', result⟩ := r
  rcases houtcome with ⟨u, hok, happlied⟩ | ⟨e, e', herror, happlied⟩ | ⟨e, herror, hobstructed⟩
  · obtain rfl : result = .ok u := hok
    rw [happlied]
    refine .done ⟨(h.objects.elsewhere hkept).congr rfl, h.lengths, ?_, h.parts⟩
    rw [LocalStorage.ledger_created]
    exact hledger
  · obtain rfl : result = .error e := herror
    rw [happlied]
    exact .refused ⟨h.objects.elsewhere hkept, h.lengths, hledger, h.parts⟩
  · obtain rfl : result = .error e := herror
    exact .obstructed hobstructed ⟨h.objects.elsewhere hkept, h.lengths, hledger, h.parts⟩

variable {u : MultipartUpload}

theorem parts_free (h : Describes root dg st.ledger t) {id : String}
    (hu : st.ledger.upload (b.toNamespace, id) = some u) {q : List String}
    (hq : q <+: multipartPath root (uploadDir b.toNamespace id ++ ["parts"])) (c : StorageContent) :
    t.lookup q ≠ some (.file c) := by
  intro hfile
  have hmanifest : t.contentAt (multipartPath root
      (⟨b.toNamespace, id, .manifest⟩ : UploadAddress).path) = some (.upload u) := by
    rw [h.stores.content, UploadLedger.content, hu, Option.map_some]
  have hconcat : multipartPath root (uploadDir b.toNamespace id ++ ["parts"]) =
      multipartPath root (uploadDir b.toNamespace id) ++ ["parts"] := by
    simp [multipartPath]
  rw [hconcat, List.prefix_concat_iff, ← hconcat] at hq
  rcases hq with rfl | hq
  · have hnone := h.stores.elsewhere (uploadDir b.toNamespace id ++ ["parts"]) ?_
    · rw [FileTree.contentAt_eq_some.mpr hfile] at hnone
      cases hnone
    · rintro ⟨b', id', file⟩ heq
      have hlength := congrArg List.length heq
      have hlast := congrArg List.getLast? heq
      rcases file with _ | n | n
      · simp [UploadAddress.path, UploadFile.names] at hlast
      · simp [UploadAddress.path, UploadFile.names, uploadDir] at hlength
      · simp [UploadAddress.path, UploadFile.names, uploadDir] at hlength
  · have hprefix : multipartPath root (uploadDir b.toNamespace id) <+:
        multipartPath root (⟨b.toNamespace, id, .manifest⟩ : UploadAddress).path := by
      rw [multipartPath_isPrefix, uploadDir_isPrefix_path]
      exact ⟨rfl, rfl⟩
    have hne : q ≠ multipartPath root (⟨b.toNamespace, id, .manifest⟩ : UploadAddress).path := by
      rintro rfl
      have hlength := hq.length_le
      simp [multipartPath, UploadAddress.path, UploadFile.names, uploadDir] at hlength
    have hdir := FileTree.lookup_above (FileTree.contentAt_eq_some.mp hmanifest)
      (hq.trans hprefix) hne
    rw [hdir] at hfile
    cases hfile

theorem putMultipartPart_isOk (h : Describes root dg st.ledger t) {n : Nat}
    (hn : n ≠ 0) (hu : st.ledger.Has b.toNamespace key (trim uploadId) u) (data : List UInt8) :
    (StorageFiles.putMultipartPart root dg t b.toNamespace key uploadId n data).2 =
      .ok { partNumber := n, etag := dg.partEtag data, size := data.length } := by
  obtain ⟨-, huuid, -, hid⟩ := h.served _ _ _ hu.1
  obtain ⟨⟨path, hpath, hnames⟩, path', hpath', hnames'⟩ := @partFiles_served root b _ huuid n
  have hserved : (⟨b.toNamespace, trim uploadId, .part n⟩ : UploadAddress).Served :=
    ⟨⟨b, rfl⟩, huuid⟩
  have hdirs : ∃ t₁, t.createParent path = .ok t₁ := by
    refine (createParent_isOk_iff (hnames ▸ multipartPath_ne_nil root _)).mpr fun q hq c => ?_
    refine parts_free h hu.1 ?_ c
    rwa [hnames, dropLast_multipartPath root (UploadAddress.path_ne_nil _),
      dropLast_path_part] at hq
  obtain ⟨t₁, hdirs⟩ := hdirs
  obtain ⟨hstores₁, hparent⟩ := h.stores.createParent hserved hnames hdirs
  obtain ⟨t₂, hwrite⟩ := hstores₁.writeFile_isOk (.bytes data) hnames hparent
  have hstores₂ := hstores₁.writeFile hnames hwrite
  have hparent' : t₂.lookup (multipartPath root
      (⟨b.toNamespace, trim uploadId, .partMetadata n⟩ : UploadAddress).path.dropLast) =
        some .dir := by
    rw [dropLast_path_part] at hparent
    rw [StorageFiles.writeFile, Outcome.mapError_eq_ok, hnames] at hwrite
    rw [FileTree.lookup_write hwrite, if_neg, dropLast_path_partMetadata, hparent]
    rw [multipartPath_inj]
    intro heq
    have hlength := congrArg List.length heq
    simp [UploadAddress.path, uploadDir, UploadFile.names] at hlength
  obtain ⟨t₃, hwrite'⟩ :=
    hstores₂.writeFile_isOk (.part ⟨n, dg.partEtag data, data.length⟩) hnames' hparent'
  have hpositive : (n != 0) = true := bne_iff_ne.mpr hn
  rw [StorageFiles.putMultipartPart, hpositive, h.readMultipartUpload_eq_ok.mpr hu]
  simp only [Outcome.ensure_true, Outcome.proceed_ok, hid, hpath, hpath', hdirs, hwrite, hwrite']

/-- **A part** on both levels. -/
theorem Represents.putPart (h : Represents root dg st t) (n : Nat) (data : List UInt8) :
    Refines root dg ((FileOp.putPart b key uploadId n data).Obstructed root t) st
      ((FileOp.putPart b key uploadId n data).exec root dg t)
      ((FileOp.putPart b key uploadId n data).apply dg st) := by
  have hledger : KeepsLedger root dg st.ledger
      ((UploadOp.putPart b key uploadId n data).exec root dg t) := h.uploads.putPart n data
  have hkept := @putMultipartPart_keepsObjects root dg b t key uploadId n data
  rw [UploadOp.exec] at hledger
  rw [FileOp.exec, FileOp.apply]
  by_cases hpart : n ≠ 0 ∧ ∃ u, st.ledger.Has b.toNamespace key (trim uploadId) u
  · obtain ⟨hn, u, hu⟩ := hpart
    obtain ⟨-, -, -, hid⟩ := h.uploads.served _ _ _ hu.1
    have hok := putMultipartPart_isOk h.uploads hn hu data
    have hpositive : (n != 0) = true := bne_iff_ne.mpr hn
    have happlied : st.putMultipartPart dg (willingOs "") b.toNamespace key uploadId n data =
        .ok ({ partNumber := n, etag := dg.partEtag data, size := data.length },
          { st with
            parts := st.parts.upsert
              ⟨b.toNamespace, trim uploadId, ⟨n, dg.partEtag data, data.length⟩, data⟩ }) := by
      rw [LocalStorage.putMultipartPart, hpositive,
        (LocalStorage.readMultipartUpload_eq_ok h.uploads.served).mpr hu, hid.symm]
      rfl
    generalize StorageFiles.putMultipartPart root dg t b.toNamespace key uploadId n data = r
      at hledger hkept hok ⊢
    obtain ⟨t', result⟩ := r
    obtain rfl : result = _ := hok
    rw [happlied]
    refine .done ⟨(h.objects.elsewhere hkept).congr rfl, h.lengths, ?_, ?_⟩
    · rw [LocalStorage.ledger_stored]
      exact hledger
    · intro p hp
      rcases KeyedTable.mem_upsert.mp hp with ⟨hold, -⟩ | rfl
      · exact h.parts p hold
      · rfl
  · have hfiles : ∃ e, (StorageFiles.putMultipartPart root dg t b.toNamespace key uploadId n
        data).2 = .error e := by
      rcases hresult : (StorageFiles.putMultipartPart root dg t b.toNamespace key uploadId n data).2
        with e | m
      · exact ⟨e, rfl⟩
      · rw [StorageFiles.putMultipartPart, Outcome.proceed_eq_ok] at hresult
        obtain ⟨_, hn, hresult⟩ := hresult
        rw [Outcome.proceed_eq_ok] at hresult
        obtain ⟨u, hu, -⟩ := hresult
        rw [Outcome.ensure_eq_ok, bne_iff_ne] at hn
        exact absurd ⟨hn, u, h.uploads.readMultipartUpload_eq_ok.mp hu⟩ hpart
    have hmodel : ∃ e, st.putMultipartPart dg (willingOs "") b.toNamespace key uploadId n data =
        .error e := by
      rcases hresult : st.putMultipartPart dg (willingOs "") b.toNamespace key uploadId n data
        with e | m
      · exact ⟨e, rfl⟩
      · rw [LocalStorage.putMultipartPart, Outcome.bind_eq_ok] at hresult
        obtain ⟨_, hn, hresult⟩ := hresult
        rw [Outcome.bind_eq_ok] at hresult
        obtain ⟨u, hu, -⟩ := hresult
        rw [Outcome.ensure_eq_ok, bne_iff_ne] at hn
        exact absurd ⟨hn, u, (LocalStorage.readMultipartUpload_eq_ok h.uploads.served).mp hu⟩ hpart
    obtain ⟨e, he⟩ := hfiles
    obtain ⟨e', he'⟩ := hmodel
    rw [he']
    generalize StorageFiles.putMultipartPart root dg t b.toNamespace key uploadId n data = r
      at hledger hkept he ⊢
    obtain ⟨t', result⟩ := r
    obtain rfl : result = .error e := he
    exact .refused ⟨h.objects.elsewhere hkept, h.lengths, hledger, h.parts⟩

/-- **An upload that is given up** on both levels. -/
theorem Represents.abort (h : Represents root dg st t) :
    Refines root dg ((FileOp.abort b key uploadId).Obstructed root t) st
      ((FileOp.abort b key uploadId).exec root dg t)
      ((FileOp.abort b key uploadId).apply dg st) := by
  have hledger : KeepsLedger root dg st.ledger ((UploadOp.abort b key uploadId).exec root dg t) :=
    h.uploads.abort
  have hkept := @abortMultipartUpload_keepsObjects root b t key uploadId
  rw [UploadOp.exec] at hledger
  rw [FileOp.exec, FileOp.apply]
  by_cases hupload : ∃ u, st.ledger.Has b.toNamespace key (trim uploadId) u
  · obtain ⟨u, hu⟩ := hupload
    obtain ⟨-, -, -, hid⟩ := h.uploads.served _ _ _ hu.1
    obtain ⟨t', habort, -⟩ := abortMultipartUpload_isOk h.uploads hu
    rw [habort] at hledger hkept
    rw [habort, LocalStorage.abortMultipartUpload,
      (LocalStorage.readMultipartUpload_eq_ok h.uploads.served).mpr hu, Outcome.ok_bind, hid]
    refine .done ⟨(h.objects.elsewhere hkept).congr rfl, h.lengths, ?_, ?_⟩
    · rw [LocalStorage.ledger_removed]
      exact hledger
    · intro p hp
      exact h.parts p (KeyedTable.mem_deleteWhere.mp hp).1
  · have hmodel : ∃ e, st.readMultipartUpload (willingOs "") b.toNamespace key uploadId =
        .error e := by
      rcases hread : st.readMultipartUpload (willingOs "") b.toNamespace key uploadId with e | u
      · exact ⟨e, rfl⟩
      · exact absurd ⟨u, (LocalStorage.readMultipartUpload_eq_ok h.uploads.served).mp hread⟩ hupload
    have hfiles : ∃ e, StorageFiles.readMultipartUpload root t b.toNamespace key uploadId =
        .error e := by
      rcases hread : StorageFiles.readMultipartUpload root t b.toNamespace key uploadId with e | u
      · exact ⟨e, rfl⟩
      · exact absurd ⟨u, h.uploads.readMultipartUpload_eq_ok.mp hread⟩ hupload
    obtain ⟨e, he⟩ := hmodel
    obtain ⟨e', he'⟩ := hfiles
    rw [StorageFiles.abortMultipartUpload, he', Outcome.proceed_error,
      LocalStorage.abortMultipartUpload, he]
    exact .refused h

/-- **What is read** is the same on both levels. -/
theorem Represents.get (h : Represents root dg st t) :
    Refines root dg ((FileOp.get b key).Obstructed root t) st
      ((FileOp.get b key).exec root dg t) ((FileOp.get b key).apply dg st) := by
  rw [FileOp.exec, FileOp.apply]
  rcases hkey : normalizeObjectKey key with e | parts
  · have hresolve : ∀ path, root.resolveObjectPath b.toNamespace.text key ≠ .ok path := by
      intro path hpath
      obtain ⟨parts, hok⟩ := normalizeObjectKey_of_resolve hpath
      rw [hkey] at hok
      cases hok
    rcases hpath : root.resolveObjectPath b.toNamespace.text key with e' | path
    · rw [StorageFiles.getObject, hpath, LocalStorage.getObject, resolveObjectPath, hkey]
      exact .refused h
    · exact absurd hpath (hresolve path)
  · have hne := (normalizeObjectKey_ok hkey).1
    have hdata := h.objects.data b parts
    have hmetadata := h.objects.metadata b parts hne
    rw [LocalStorage.getObject, resolveObjectPath, hkey]
    rcases hfound : st.objects.find? ⟨b.toNamespace, parts⟩ with _ | o
    · rw [hfound, Option.map_none] at hdata
      rcases hget : StorageFiles.getObject root t b.toNamespace key with e | ⟨data, m⟩
      · simp only [Outcome.ok_bind, pure, Except.pure, hfound]
        exact .refused h
      · rw [((getObject_eq_ok root b hkey).mp hget).1] at hdata
        cases hdata
    · rw [hfound, Option.map_some] at hdata hmetadata
      rw [(getObject_eq_ok root b hkey).mpr ⟨hdata, hmetadata⟩]
      simp only [Outcome.ok_bind, pure, Except.pure, hfound]
      exact .done h

theorem ObjectsStored.rewritten (h : ObjectsStored root st t)
    (hne : parts ≠ []) {o : StoredObject} {metadata : StorageObjectMetadata}
    (ho : st.objects.find? ⟨b.toNamespace, parts⟩ = some o)
    (hcontent : t'.contentAt = Function.update t.contentAt (metadataFile root b.toNamespace parts)
      (some (.metadata ⟨metadata, {}⟩))) :
    ObjectsStored root
      { st with objects := st.objects.upsert ⟨⟨b.toNamespace, parts⟩, o.data, metadata⟩ } t' := by
  refine h.put hne ?_
  have hdata := h.data b parts
  rw [ho, Option.map_some] at hdata
  rw [hcontent, ← hdata, Function.update_eq_self]

/-- What `complete_multipart_upload` does to the tables when the checks pass. -/
def LocalStorage.storeCompleted (dg : Digests) (st : LocalStorage) (os : Os) (bucket : Namespace)
    (key uploadId : String) (upload : MultipartUpload) (assembled : List UInt8)
    (etags : List String) : Except IoError (StorageObjectMetadata × LocalStorage) := do
  let (metadata, st) ← st.putObject dg os bucket upload.key assembled (some upload.contentType)
  let metadata := { metadata with etag := dg.compositeEtag etags }
  let path ← resolveObjectPath bucket upload.key
  let st := { st with
    objects := st.objects.upsert { path := path, data := assembled, metadata := metadata } }
  let st ← st.abortMultipartUpload os bucket key uploadId
  return (metadata, st)

theorem LocalStorage.completeMultipartUpload_eq (os : Os) (list : List CompletedMultipartPart) :
    st.completeMultipartUpload dg os b.toNamespace key uploadId list =
      (st.multipartContents os b.toNamespace key uploadId list >>= fun checked =>
        st.storeCompleted dg os b.toNamespace key uploadId checked.1 checked.2.1 checked.2.2) := rfl

theorem LocalStorage.abortMultipartUpload_isOk {u : MultipartUpload} (hserved : st.ledger.Served)
    (hu : st.ledger.Has b.toNamespace key (trim uploadId) u) :
    ∃ st', st.abortMultipartUpload (willingOs now) b.toNamespace key uploadId = .ok st' := by
  rw [LocalStorage.abortMultipartUpload, (LocalStorage.readMultipartUpload_eq_ok hserved).mpr hu]
  exact ⟨_, rfl⟩

theorem Represents.put_stored (h : Represents root dg st t)
    (hkey : normalizeObjectKey key = .ok parts) {data : List UInt8} {contentType : Option String}
    (htears : ¬ (FileOp.put now b key data contentType).Tearing root t) {m : ObjectMetadata}
    (hput : StorageFiles.putObject root dg now t b.toNamespace key data contentType = (t', .ok m)) :
    ∃ metadata st', m = ⟨metadata, {}⟩ ∧
      st.putObject dg (willingOs now) b.toNamespace key data contentType = .ok (metadata, st') ∧
      st'.objects.find? ⟨b.toNamespace, parts⟩ = some ⟨⟨b.toNamespace, parts⟩, data, metadata⟩ ∧
      st'.ledger = st.ledger ∧ Represents root dg st' t' := by
  have hrefines := h.put data contentType htears
  have hm := @putObject_metadata root dg t b key now parts m data contentType hkey (by rw [hput])
  rw [h.objects.newMetadata_eq (normalizeObjectKey_ok hkey).1] at hm
  subst hm
  rw [FileOp.exec, FileOp.apply, LocalStorage.putObject_eq hkey, hput] at hrefines
  rw [LocalStorage.putObject_eq hkey]
  rcases hrefines with hdone | _ | _
  refine ⟨_, _, rfl, rfl, ?_, rfl, hdone⟩
  rw [KeyedTable.find?_upsert, if_pos rfl]

/-- **The object of an upload** on both levels, once its data is put. -/
theorem Represents.storeCompleted (h : Represents root dg st t)
    (hu : st.ledger.Has b.toNamespace key (trim uploadId) u) {data : List UInt8}
    (htears : ¬ (FileOp.put now b u.key data (some u.contentType)).Tearing root t)
    {t₁ : StorageFiles} {m : ObjectMetadata}
    (hput : StorageFiles.putObject root dg now t b.toNamespace u.key data (some u.contentType) =
      (t₁, .ok m)) (etags : List String) :
    ∃ t' m st',
      Peanut.storeCompleted root dg now t b.toNamespace key uploadId u data etags = (t', .ok m) ∧
      st.storeCompleted dg (willingOs now) b.toNamespace key uploadId u data etags =
        .ok (m.toStorageObjectMetadata, st') ∧
      Represents root dg st' t' := by
  have hok : (StorageFiles.putObject root dg now t b.toNamespace u.key data
      (some u.contentType)).2 = .ok m := by rw [hput]
  obtain ⟨stored, hkey⟩ := normalizeObjectKey_of_put dg now hok
  have hne := (normalizeObjectKey_ok hkey).1
  obtain ⟨metadata, st₁, rfl, hmodel, hfound, hledger, h₁⟩ := h.put_stored hkey htears hput
  rw [← hledger] at hu
  -- the metadata once more, with the ETag of the parts
  have hstored := h₁.objects.metadata b stored hne
  rw [hfound, Option.map_some] at hstored
  obtain ⟨t₂, hwrite, hcontent⟩ :=
    writeMetadata_again hkey hstored ⟨{ metadata with etag := dg.compositeEtag etags }, {}⟩
  have huploads := @sameUploads_writeMetadata root b t₁ u.key
    ⟨{ metadata with etag := dg.compositeEtag etags }, {}⟩
  rw [hwrite] at huploads
  have hresolve : resolveObjectPath b.toNamespace u.key = .ok ⟨b.toNamespace, stored⟩ := by
    rw [resolveObjectPath, hkey]
    rfl
  have hlength : metadata.contentLength = data.length :=
    h₁.lengths _ (KeyedTable.find?_eq_some.mp hfound).1
  have h₂ : Represents root dg
      { st₁ with
        objects := st₁.objects.upsert ⟨⟨b.toNamespace, stored⟩, data,
          { metadata with etag := dg.compositeEtag etags }⟩ } t₂ :=
    ⟨h₁.objects.rewritten hne hfound hcontent, mem_upsert_lengths h₁.lengths hlength,
      h₁.uploads.congr huploads, h₁.parts⟩
  -- the abort
  have habort := @Represents.abort root dg _ t₂ b key uploadId h₂
  obtain ⟨t₃, hremoved, -⟩ := abortMultipartUpload_isOk h₂.uploads hu
  obtain ⟨st₃, herased⟩ := @LocalStorage.abortMultipartUpload_isOk _ b key uploadId now u
    h₂.uploads.served hu
  have herased' : LocalStorage.abortMultipartUpload _ (willingOs "") b.toNamespace key uploadId =
      .ok st₃ := herased
  rw [FileOp.exec, FileOp.apply, hremoved, herased'] at habort
  rcases habort with h₃ | _ | _
  refine ⟨t₃, ⟨{ metadata with etag := dg.compositeEtag etags }, {}⟩, st₃, ?_, ?_, h₃⟩
  · rw [Peanut.storeCompleted, hput]
    simp only [Outcome.proceed_ok, hwrite, hremoved]
    rfl
  · rw [LocalStorage.storeCompleted, hmodel]
    simp only [Outcome.ok_bind, hresolve, herased]
    rfl

/-- **An upload that is completed** on both levels. -/
theorem Represents.complete (h : Represents root dg st t) (list : List CompletedMultipartPart)
    (htears : ¬ (FileOp.complete now b key uploadId list).Tearing root t) :
    Refines root dg ((FileOp.complete now b key uploadId list).Obstructed root t) st
      ((FileOp.complete now b key uploadId list).exec root dg t)
      ((FileOp.complete now b key uploadId list).apply dg st) := by
  rw [FileOp.exec, FileOp.apply, completeMultipartUpload_eq,
    LocalStorage.completeMultipartUpload_eq]
  rcases hchecks : completionChecks root t b.toNamespace key uploadId list with e | ⟨u, data, etags⟩
  · rcases hmodel : st.multipartContents (willingOs now) b.toNamespace key uploadId list
      with e' | checked
    · exact .refused h
    · rw [LocalStorage.multipartContents_eq_ok h, hchecks] at hmodel
      cases hmodel
  · rw [(LocalStorage.multipartContents_eq_ok h).mpr hchecks, Outcome.proceed_ok, Outcome.ok_bind]
    have hu := ((completionChecks_eq_ok h.uploads).mp hchecks).2.1
    have htears' : ¬ (FileOp.put now b u.key data (some u.contentType)).Tearing root t := by
      rintro ⟨stored, hkey, htorn⟩
      exact htears ⟨_, stored, hchecks, hkey, htorn⟩
    rcases hput : StorageFiles.putObject root dg now t b.toNamespace u.key data
      (some u.contentType) with ⟨t₁, e | m⟩
    -- the put decides when it fails
    · have hrefines := @Represents.put root dg st t b u.key now h data (some u.contentType) htears'
      have hfiles : Peanut.storeCompleted root dg now t b.toNamespace key uploadId u data etags =
          (t₁, .error e) := by
        rw [Peanut.storeCompleted, hput]
        rfl
      rw [FileOp.exec, FileOp.apply, hput] at hrefines
      rw [hfiles]
      rcases hmodel : st.putObject dg (willingOs now) b.toNamespace u.key data (some u.contentType)
        with e' | r
      · have hmodel' : st.storeCompleted dg (willingOs now) b.toNamespace key uploadId u data
            etags =
            .error e' := by
          rw [LocalStorage.storeCompleted, hmodel]
          rfl
        rw [hmodel] at hrefines
        rw [hmodel']
        rcases hrefines with _ | hsame | ⟨-, hsame⟩
        · exact .refused hsame
        · exact .refused hsame
      · rw [hmodel] at hrefines
        rcases hrefines with _ | _ | ⟨⟨stored, hkey, hblocked⟩, hsame⟩
        exact .obstructed ⟨_, stored, hchecks, hkey, hblocked⟩ hsame
    · obtain ⟨t', m', st', hfiles, hmodel, hdone⟩ := h.storeCompleted hu htears' hput etags
      rw [hfiles, hmodel]
      exact .done hdone

/-- **One operation** on both levels. -/
theorem Represents.step (h : Represents root dg st t) (op : FileOp) (htears : ¬ op.Tearing root t) :
    Refines root dg (op.Obstructed root t) st (op.exec root dg t) (op.apply dg st) := by
  cases op with
  | put now b key data contentType => exact h.put data contentType htears
  | get b key => exact h.get
  | delete b key => exact h.delete
  | create now id b key contentType => exact h.create id contentType
  | putPart b key uploadId n data => exact h.putPart n data
  | complete now b key uploadId list => exact h.complete list htears
  | abort b key uploadId => exact h.abort

end Steps

/-! ### Runs on both levels -/

section Runs

variable {root : FsPath} {dg : Digests} {t : StorageFiles}

/-- The files, and the tables kept beside them. -/
structure StorageLevels where
  files : StorageFiles
  tables : LocalStorage := {}

/-- An operation that fails on the files is not made on the tables. -/
def StorageLevels.step (root : FsPath) (dg : Digests) (s : StorageLevels) (op : FileOp) :
    StorageLevels :=
  let r := op.exec root dg s.files
  { files := r.1
    tables := match r.2, op.apply dg s.tables with
      | .ok _, .ok (_, tables) => tables
      | _, _ => s.tables }

def runLevels (root : FsPath) (dg : Digests) (t : StorageFiles) (ops : List FileOp) :
    StorageLevels :=
  Transition.run (StorageLevels.step root dg) { files := t } ops

theorem StorageLevels.step_represents {s : StorageLevels} (h : Represents root dg s.tables s.files)
    {op : FileOp} (htears : ¬ op.Tearing root s.files) :
    Represents root dg (s.step root dg op).tables (s.step root dg op).files := by
  have hrefines := h.step op htears
  rw [StorageLevels.step]
  generalize op.exec root dg s.files = r at hrefines ⊢
  generalize op.apply dg s.tables = applied at hrefines ⊢
  rcases hrefines with hdone | hsame | ⟨-, hsame⟩
  · exact hdone
  · exact hsame
  · exact hsame

theorem represents_empty (h : EmptyStorage root t) : Represents root dg {} t := by
  have hnone : ∀ tree (b : BucketNamespace) parts,
      t.contentAt (treePath root tree b.toNamespace parts) = none :=
    fun tree b parts => h.contentAt_none tree b parts
  refine ⟨⟨fun b parts => hnone .objects b parts, fun b parts _ => hnone .metadata b _⟩, ?_, ?_, ?_⟩
  · intro o ho
    cases ho
  · have huploads : NoUploads root t := h.2 _ (by simp)
    exact describes_empty huploads
  · intro p hp
    cases hp

/-- **The files refine the tables**, whatever operations follow one another. -/
theorem storage_refines (h : EmptyStorage root t) (dg : Digests) (ops : List FileOp)
    (hwhole : ∀ before op after, ops = before ++ op :: after →
      ¬ op.Tearing root (runLevels root dg t before).files) :
    let s := runLevels root dg t ops
    Represents root dg s.tables s.files ∧
      ∀ op : FileOp, ¬ op.Tearing root s.files →
        Refines root dg (op.Obstructed root s.files) s.tables (op.exec root dg s.files)
          (op.apply dg s.tables) := by
  intro s
  have hstep : ∀ s op, Represents root dg (StorageLevels.tables s) s.files →
      ¬ FileOp.Tearing root s.files op →
      Represents root dg (s.step root dg op).tables (s.step root dg op).files :=
    fun s op hs htears => StorageLevels.step_represents hs htears
  have hs : Represents root dg s.tables s.files :=
    Transition.run_invariant hstep (represents_empty h) ops hwhole
  exact ⟨hs, fun op htears => hs.step op htears⟩

end Runs

/-- The upload of `noteUploads` as operations of the storage. -/
def noteOps : List FileOp :=
  [.create "t0" noteId noteBucket "a//note.txt" none,
    .putPart noteBucket "a/note.txt" noteId.val 1 [104, 105]]

theorem storage_refines_note :
    (runLevels dataRoot lengthDigests .empty noteOps).tables.objects.find?
        ⟨noteBucket.toNamespace, ["a", "note.txt"]⟩ = none ∧
      Refines dataRoot lengthDigests
        ((FileOp.complete "t1" noteBucket "a/note.txt" noteId.val [⟨1, "2"⟩]).Obstructed dataRoot
          (runLevels dataRoot lengthDigests .empty noteOps).files)
        (runLevels dataRoot lengthDigests .empty noteOps).tables
        ((FileOp.complete "t1" noteBucket "a/note.txt" noteId.val [⟨1, "2"⟩]).exec dataRoot
          lengthDigests (runLevels dataRoot lengthDigests .empty noteOps).files)
        ((FileOp.complete "t1" noteBucket "a/note.txt" noteId.val [⟨1, "2"⟩]).apply lengthDigests
          (runLevels dataRoot lengthDigests .empty noteOps).tables) := by
  have hwhole : ∀ before op after, noteOps = before ++ op :: after →
      ¬ op.Tearing dataRoot (runLevels dataRoot lengthDigests .empty before).files := by
    intro before op after hsplit
    have hmem : op ∈ noteOps := by simp [hsplit]
    rw [noteOps, List.mem_cons, List.mem_singleton] at hmem
    rcases hmem with rfl | rfl
    · exact id
    · exact id
  obtain ⟨-, hnext⟩ :=
    storage_refines (emptyStorage_empty dataRoot) lengthDigests noteOps hwhole
  have hruns : (runLevels dataRoot lengthDigests .empty noteOps).tables.objects.find?
        ⟨noteBucket.toNamespace, ["a", "note.txt"]⟩ = none ∧
      completionChecks dataRoot (runLevels dataRoot lengthDigests .empty noteOps).files
          noteBucket.toNamespace "a/note.txt" noteId.val [⟨1, "2"⟩] =
        .ok (noteUpload, [104, 105], ["2"]) ∧
      FreePlace dataRoot (runLevels dataRoot lengthDigests .empty noteOps).files
        noteBucket.toNamespace ["a", "note.txt"] := by
    decide +kernel
  obtain ⟨hnone, hchecked, hplace⟩ := hruns
  refine ⟨hnone, hnext _ ?_⟩
  rintro ⟨checked, parts, hchecked', hkey, htorn⟩
  obtain rfl : (noteUpload, [104, 105], ["2"]) = checked :=
    Except.ok.inj (hchecked.symm.trans hchecked')
  have hparts : normalizeObjectKey noteUpload.key = .ok ["a", "note.txt"] := by decide +kernel
  obtain rfl : ["a", "note.txt"] = parts := Except.ok.inj (hparts.symm.trans hkey)
  exact hplace.2 htorn.1

end Peanut
