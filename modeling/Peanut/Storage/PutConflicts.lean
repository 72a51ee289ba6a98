import Peanut.Library.Transition
import Peanut.Storage.Listing

/-!
# Puts that fail

`put_object_with_metadata` writes the data before the metadata and takes nothing
back.  A put that fails for a file or a directory in its way leaves all objects as
they were, unless what is in its way is a directory in the place of its metadata
only: then the data stays behind without metadata, and the bucket cannot be listed
any more.
-/

namespace Peanut

open Relational StorageFiles

/-- The same objects, as listings and reads show them. -/
def SameVisible (root : FsPath) (t t' : StorageFiles) : Prop :=
  ∀ b : BucketNamespace,
    (∀ start delimiter maxKeys token,
      listObjectsV2 root t' b.toNamespace start delimiter maxKeys token =
        listObjectsV2 root t b.toNamespace start delimiter maxKeys token) ∧
      ∀ key, (getObject root t' b.toNamespace key).toOption =
        (getObject root t b.toNamespace key).toOption

/-- Listings with accepted parameters succeed. -/
def Listable (root : FsPath) (t : StorageFiles) (b : Namespace) : Prop :=
  ∀ start delimiter maxKeys token,
    (∃ s, normalizeOptionalStart start = .ok s) → (∃ k, normalizeOptionalKey token = .ok k) →
      ∃ page, listObjectsV2 root t b start delimiter maxKeys token = .ok page

/-- If the operation is a put and fails, the store is intact. -/
def FailedPutIntact (root : FsPath) (dg : Digests) (t : StorageFiles) (op : ObjectOp) : Prop :=
  ∀ now b key data contentType details e, op = .put now b key data contentType details →
    (op.exec root dg t).2 = .error e →
      SameVisible root t (op.exec root dg t).1 ∧ Listable root (op.exec root dg t).1 b.toNamespace

/-- A put whose data can be written while a directory is in the place of its metadata. -/
def ObjectOp.Tearing (root : FsPath) (t : StorageFiles) : ObjectOp → Prop
  | .put _ b key _ _ _ => ∃ parts, normalizeObjectKey key = .ok parts ∧
    Torn root t b.toNamespace parts
  | .delete _ _ => False

def objectOpStep (root : FsPath) (dg : Digests) (t : StorageFiles) (op : ObjectOp) : StorageFiles :=
  (op.exec root dg t).1

section Reads

variable {root : FsPath} {t t' : StorageFiles} {b : BucketNamespace}

theorem lookup_bucketRoot {parts : List String} {c : StorageContent} (hne : parts ≠ [])
    (h : t.contentAt (objectFile root b.toNamespace parts) = some c) :
    t.lookup (treePath root .objects b.toNamespace []) = some .dir := by
  refine FileTree.lookup_above (FileTree.contentAt_eq_some.mp h) ?_ ?_
  · rw [objectFile, treePath_isPrefix]
    exact ⟨⟨rfl, rfl⟩, List.nil_prefix⟩
  · rw [objectFile, Ne, treePath_inj]
    rintro ⟨-, hnil⟩
    exact hne hnil.symm

theorem collectFile_same (hkept : ObjectsKept root t) (hsame : SameFiles t t')
    {parts : List String} {c : StorageContent}
    (h : t.contentAt (objectFile root b.toNamespace parts) = some c) :
    t'.collectFile (root.bucketTree .metadata b.appId b.bucket) (parts, c) =
      t.collectFile (root.bucketTree .metadata b.appId b.bucket) (parts, c) := by
  obtain ⟨hne, data, m, rfl, hm, -⟩ := hkept b parts c h
  have hm' := hm
  rw [← hsame.content] at hm'
  rw [collectFile, collectFile, (readMetadataSync_eq_ok hne).mpr hm,
    (readMetadataSync_eq_ok hne).mpr hm']

theorem collectBucketObjects_eq_mapM
    (hnamed : ∀ parts c, t.contentAt (objectFile root b.toNamespace parts) = some c → parts ≠ [])
    {bucketRoot : FsPath} (hroot : bucketRoot.names = treePath root .objects b.toNamespace [])
    (metadataRoot : FsPath) :
    t.collectBucketObjects bucketRoot metadataRoot =
      (t.filesBelow bucketRoot.names).mapM (t.collectFile metadataRoot) := by
  have hpath : ∀ parts, bucketRoot.names ++ parts = objectFile root b.toNamespace parts := by
    intro parts
    rw [hroot, objectFile, treePath, treePath, List.append_nil, List.append_assoc]
  unfold collectBucketObjects
  split
  · rename_i hnone
    have hempty : t.filesBelow bucketRoot.names = [] := by
      rw [List.eq_nil_iff_forall_not_mem]
      rintro ⟨parts, c⟩ hmem
      rw [FileTree.mem_filesBelow_iff, hpath] at hmem
      rw [hroot, lookup_bucketRoot (hnamed parts c hmem) hmem] at hnone
      cases hnone
    rw [hempty]
    rfl
  · rename_i c hfile
    have hcontent : t.contentAt (objectFile root b.toNamespace []) = some c := by
      rw [← hpath, List.append_nil]
      exact FileTree.contentAt_eq_some.mpr hfile
    exact absurd rfl (hnamed [] c hcontent)
  · rfl

/-- **The same files** make the same objects. -/
theorem sameVisible_of_sameFiles (hkept : ObjectsKept root t) (hsame : SameFiles t t') :
    SameVisible root t t' := by
  have hkept' : ObjectsKept root t' := hkept.elsewhere (keepsObjects_of_same root hsame)
  intro b
  refine ⟨?_, ?_⟩
  · intro start delimiter maxKeys token
    obtain ⟨bucketRoot, hresolve, hroot⟩ := @resolveBucketRoot_served root b
    have hcollect : t'.collectBucketObjects bucketRoot
        (root.bucketTree .metadata b.appId b.bucket) =
        t.collectBucketObjects bucketRoot (root.bucketTree .metadata b.appId b.bucket) := by
      rw [collectBucketObjects_eq_mapM (fun parts c h => (hkept b parts c h).1) hroot,
        collectBucketObjects_eq_mapM (fun parts c h => (hkept' b parts c h).1) hroot, hsame.walk]
      apply Outcome.mapM_congr
      rintro ⟨parts, c⟩ hmem
      rw [FileTree.mem_filesBelow_iff, hroot, treePath, List.append_nil, List.append_assoc] at hmem
      exact collectFile_same hkept hsame hmem
    simp only [listObjectsV2, hresolve, metadataBucketRoot_served, Outcome.ok_bind, hcollect]
  · intro key
    cases hresolve : root.resolveObjectPath b.text key with
    | error e =>
      rw [getObject, getObject, hresolve]
      rfl
    | ok path =>
      obtain ⟨parts, hkey⟩ := normalizeObjectKey_of_resolve hresolve
      have hok : ∀ {x : Except IoError (List UInt8 × ObjectMetadata)} {r}, x.toOption = some r ↔
          x = .ok r := by
        intro x r
        cases x <;> simp [Except.toOption]
      ext ⟨data, m⟩
      rw [hok, hok, getObject_eq_ok root b hkey, getObject_eq_ok root b hkey, hsame.content]

theorem listable_of_kept (hkept : ObjectsKept root t) : Listable root t b.toNamespace := by
  intro start delimiter maxKeys token hstart htoken
  obtain ⟨page, hlist, -⟩ := @listObjectsV2_kept root b t hkept start delimiter maxKeys token hstart
    htoken
  exact ⟨page, hlist⟩

theorem not_listable_of_object {parts : List String} {c : StorageContent} (hne : parts ≠ [])
    (hobject : t.contentAt (objectFile root b.toNamespace parts) = some c)
    (hmetadata : t.contentAt (metadataFile root b.toNamespace parts) = none) :
    ¬ Listable root t b.toNamespace := by
  intro hlistable
  obtain ⟨page, hlist⟩ := hlistable none none none none ⟨_, rfl⟩ ⟨_, rfl⟩
  obtain ⟨bucketRoot, hresolve, hroot⟩ := @resolveBucketRoot_served root b
  rw [listObjectsV2] at hlist
  obtain ⟨_, -, hlist⟩ := Outcome.bind_eq_ok.mp hlist
  obtain ⟨_, -, hlist⟩ := Outcome.bind_eq_ok.mp hlist
  obtain ⟨path, hpath, hlist⟩ := Outcome.bind_eq_ok.mp hlist
  obtain ⟨metadataRoot, hmetadataRoot, hlist⟩ := Outcome.bind_eq_ok.mp hlist
  obtain ⟨items, hcollect, -⟩ := Outcome.bind_eq_ok.mp hlist
  obtain rfl := Except.ok.inj (hresolve.symm.trans hpath)
  obtain rfl := Except.ok.inj (metadataBucketRoot_served.symm.trans hmetadataRoot)
  rw [collectBucketObjects, hroot, lookup_bucketRoot hne hobject] at hcollect
  have hmem : (parts, c) ∈ t.filesBelow (treePath root .objects b.toNamespace []) := by
    rw [FileTree.mem_filesBelow_iff, treePath, List.append_nil, List.append_assoc]
    exact hobject
  obtain ⟨item, hitem⟩ := Outcome.isOk_of_mapM hcollect _ hmem
  obtain ⟨m, hm, -⟩ := Outcome.bind_eq_ok.mp hitem
  rw [(readMetadataSync_eq_ok hne).mp hm] at hmetadata
  cases hmetadata

end Reads

/-! ### Runs -/

section Runs

variable {root : FsPath} {dg : Digests} {t : StorageFiles}

theorem put_of_rejected_key {now : String} {b : BucketNamespace} {key : String}
    (hkey : ∀ parts, normalizeObjectKey key ≠ .ok parts) (data : List UInt8)
    (contentType : Option String) (details : ObjectDetails) :
    (putObjectWithMetadata root dg now t b.toNamespace key data contentType details).1 = t := by
  rw [putObjectWithMetadata]
  cases hresolve : root.resolveObjectPath b.toNamespace.text key with
  | error e => rfl
  | ok path =>
    obtain ⟨parts, hok⟩ := normalizeObjectKey_of_resolve hresolve
    exact absurd hok (hkey parts)

/-- **Step lemma.**  Objects are kept by every operation but a put that tears. -/
theorem objectOpStep_kept (hkept : ObjectsKept root t) {op : ObjectOp} (hop : ¬ op.Tearing root t) :
    ObjectsKept root (objectOpStep root dg t op) := by
  cases op with
  | put now b key data contentType details =>
    rw [objectOpStep, ObjectOp.exec, Outcome.discard_fst]
    by_cases hkey : ∃ parts, normalizeObjectKey key = .ok parts
    · obtain ⟨parts, hkey⟩ := hkey
      have houtcome := putObject_outcome root dg now b t hkey data contentType details
      generalize putObjectWithMetadata root dg now t b.toNamespace key data contentType details = r
        at houtcome ⊢
      cases houtcome with
      | stored _ hlength hcontent =>
        exact hkept.stored (normalizeObjectKey_ok hkey).1 hlength hcontent
      | refused _ hsame => exact hkept.elsewhere (keepsObjects_of_same root hsame)
      | torn htorn _ => exact absurd ⟨parts, hkey, htorn⟩ hop
    · rw [not_exists] at hkey
      rw [put_of_rejected_key hkey]
      exact hkept
  | delete b key =>
    rw [objectOpStep, ObjectOp.exec]
    cases hresolve : root.resolveObjectPath b.toNamespace.text key with
    | error e =>
      rw [deleteObject, hresolve]
      exact hkept
    | ok path =>
      obtain ⟨parts, hkey⟩ := normalizeObjectKey_of_resolve hresolve
      rcases deleteObject_outcome root b t hkey with
        ⟨e, heq⟩ | ⟨t', heq, hcontent⟩ | ⟨⟨c, hobject⟩, hnone, -⟩
      · rw [heq]
        exact hkept
      · rw [heq]
        exact hkept.removed (normalizeObjectKey_ok hkey).1 hcontent
      · -- an object that is kept has its metadata
        obtain ⟨-, data, m, -, hm, -⟩ := hkept b parts c hobject
        rw [hm] at hnone
        cases hnone

/-- A put that fails leaves the store intact exactly when it does not tear. -/
theorem failedPutIntact_iff (hkept : ObjectsKept root t) {op : ObjectOp} :
    FailedPutIntact root dg t op ↔ ¬ op.Tearing root t := by
  constructor
  · intro hintact htearing
    cases op with
    | delete b key => exact htearing
    | put now b key data contentType details =>
      obtain ⟨parts, hkey, htorn⟩ := htearing
      have houtcome := putObject_outcome root dg now b t hkey data contentType details
      have hafter := hintact now b key data contentType details
      rw [ObjectOp.exec] at hafter
      generalize putObjectWithMetadata root dg now t b.toNamespace key data contentType details = r
        at houtcome hafter
      cases houtcome with
      | stored hnot _ _ => exact hnot htorn
      | refused hblocked _ => exact hblocked.not_torn htorn
      | torn _ hcontent =>
        obtain ⟨-, hlistable⟩ := hafter _ rfl rfl
        rw [Outcome.discard_fst] at hlistable
        refine not_listable_of_object (c := .bytes data) (normalizeObjectKey_ok hkey).1 ?_ ?_
          hlistable
        · rw [hcontent, Function.update_self]
        · rw [hcontent, Function.update_of_ne objectFile_ne_metadataFile.symm, FileTree.contentAt,
            htorn.1]
  · intro hop now b key data contentType details e heq herror
    subst heq
    have hkept' := @objectOpStep_kept root dg t hkept _ hop
    refine ⟨?_, listable_of_kept hkept'⟩
    rw [ObjectOp.exec] at herror ⊢
    rw [Outcome.discard_fst]
    by_cases hkey : ∃ parts, normalizeObjectKey key = .ok parts
    · obtain ⟨parts, hkey⟩ := hkey
      have houtcome := putObject_outcome root dg now b t hkey data contentType details
      generalize putObjectWithMetadata root dg now t b.toNamespace key data contentType details = r
        at houtcome herror ⊢
      cases houtcome with
      | stored => cases herror
      | refused _ hsame => exact sameVisible_of_sameFiles hkept hsame
      | torn htorn _ => exact absurd ⟨parts, hkey, htorn⟩ hop
    · rw [not_exists] at hkey
      rw [put_of_rejected_key hkey]
      exact sameVisible_of_sameFiles hkept (.refl t)

/-- **A failed put leaves the store intact**, and listings work, in every run whose
    puts do not tear; and only in those. -/
theorem failed_put_intact_iff (root : FsPath) (dg : Digests) (t₀ : StorageFiles)
    (h : EmptyStorage root t₀) (ops : List ObjectOp) :
    (∀ pre op post, ops = pre ++ op :: post →
      FailedPutIntact root dg (Transition.run (objectOpStep root dg) t₀ pre) op) ↔
    ∀ pre op post, ops = pre ++ op :: post →
      ¬ op.Tearing root (Transition.run (objectOpStep root dg) t₀ pre) := by
  have hiff : ∀ t op, ObjectsKept root t → (FailedPutIntact root dg t op ↔ ¬ op.Tearing root t) :=
    fun t op hkept => failedPutIntact_iff hkept
  have hkeep : ∀ t op, ObjectsKept root t → ¬ op.Tearing root t →
      ObjectsKept root (objectOpStep root dg t op) :=
        fun t op hkept hop => objectOpStep_kept hkept hop
  exact Transition.each_iff_admissible hiff hkeep h.kept.1 ops

end Runs

/-! ### Keys that meet in one tree only -/

def putAt (key : String) : ObjectOp :=
  .put "2025-01-01T00:00:00+00:00" avatarsNamespace key [1, 2, 3] none {}

/-- With `x.json/y` stored, there is a directory where the metadata of `x` belongs: the
    put of `x` fails, its data stays, and the bucket cannot be listed. -/
theorem metadata_conflict_breaks_listing :
    Outcome.succeeded ((putAt "x").exec dataRoot lengthDigests
        (objectOpStep dataRoot lengthDigests FileTree.empty (putAt "x.json/y"))).2 = false ∧
      ¬ Listable dataRoot ((putAt "x").exec dataRoot lengthDigests
        (objectOpStep dataRoot lengthDigests FileTree.empty (putAt "x.json/y"))).1
          avatarsNamespace.toNamespace := by
  refine ⟨by decide +kernel, ?_⟩
  intro hlistable
  obtain ⟨page, hlist⟩ := hlistable none none none none ⟨_, rfl⟩ ⟨_, rfl⟩
  have hfails : Outcome.succeeded (listObjectsV2 dataRoot ((putAt "x").exec dataRoot lengthDigests
      (objectOpStep dataRoot lengthDigests FileTree.empty (putAt "x.json/y"))).1
        avatarsNamespace.toNamespace none none none none) = false := by decide +kernel
  rw [hlist] at hfails
  cases hfails

/-- A put below a file fails and leaves the store intact. -/
theorem put_below_file_intact :
    Outcome.succeeded ((putAt "a/b").exec dataRoot lengthDigests
        (Transition.run (objectOpStep dataRoot lengthDigests) FileTree.empty [putAt "a"])).2 =
          false ∧
      FailedPutIntact dataRoot lengthDigests
        (Transition.run (objectOpStep dataRoot lengthDigests) FileTree.empty [putAt "a"])
        (putAt "a/b") := by
  refine ⟨by decide +kernel, ?_⟩
  refine (failed_put_intact_iff dataRoot lengthDigests FileTree.empty (emptyStorage_empty dataRoot)
    [putAt "a", putAt "a/b"]).mpr ?_ [putAt "a"] (putAt "a/b") [] rfl
  have hkey : normalizeObjectKey "a" = .ok ["a"] := by decide +kernel
  have hkey' : normalizeObjectKey "a/b" = .ok ["a", "b"] := by decide +kernel
  have heach := @Transition.each_cons _ _ (objectOpStep dataRoot lengthDigests)
    (fun t op => ¬ op.Tearing dataRoot t)
  refine heach.mpr ⟨?_, heach.mpr ⟨?_, ?_⟩⟩
  · rintro ⟨parts, hparts, hdir, -⟩
    obtain rfl := Except.ok.inj (hkey.symm.trans hparts)
    revert hdir
    decide +kernel
  · rintro ⟨parts, hparts, hdir, -⟩
    obtain rfl := Except.ok.inj (hkey'.symm.trans hparts)
    revert hdir
    decide +kernel
  · intro pre op post hsplit
    exact absurd hsplit (by simp)

end Peanut
