import Peanut.Storage.ListingPages
import Peanut.Storage.PutConflicts
import Peanut.Storage.Requests

/-!
# Lists of a bucket

`list_sdk_objects` of `api/storage/sdk.rs` and `handle_storage_list` of
`functions/host.rs` answer one page of `list_objects_v2` and drop its continuation
token.  What they list is the bucket exactly as long as it fits on a page.
-/

namespace Peanut

open Relational StorageFiles

/-! ### The two lists -/

structure SdkStorageObjectSummary where
  key : String
  size : Nat
  contentType : Option String
  etag : String
  updatedAt : String
deriving DecidableEq, Repr

def canRead (auth : SdkAuthContext) (policy : StorageBucket) : Bool :=
  auth.principal.hasScope "admin:all" || auth.principal.hasScope "storage:write" ||
    (auth.principal.hasScope "storage:read" && policy.publicRead)

def SdkStorageObjectSummary.ofItem (item : StorageListItem) : SdkStorageObjectSummary :=
  { key := item.key, size := item.size, contentType := some item.contentType, etag := item.etag
    updatedAt := item.lastModified }

def listSdkObjects (root : FsPath) (db : Db) (t : StorageFiles) (auth : SdkAuthContext)
    (appId bucket : String) (start : Option String) :
    Except ApiError (Reply (List SdkStorageObjectSummary)) := do
  let policy ← loadPolicy db appId bucket
  Outcome.ensure (canRead auth policy) (jsonError .forbidden "storage read scope required")
  let page ← (t.listObjectsV2 root ⟨appId, bucket⟩ start none none none).mapError
    (ioResponse none [.invalidInput] "failed to list objects")
  return { status := .ok, body := page.objects.map .ofItem }

def handleStorageList (root : FsPath) (db : Db) (t : StorageFiles) (claims : Option Claims)
    (args : Value) : Except String Value := do
  let claims ← requireClaims claims
  let bucket ← requiredString args "bucket"
  ensureStorageBucket db claims.appId bucket
  let page ← (t.listObjectsV2 root (appStorageBucket claims.appId bucket) none none none
    none).mapError fun e => "storage.list failed: " ++ e.message
  return .array (page.objects.map fun object => .string object.key)

/-! ### The objects of a bucket -/

/-- The objects with their metadata, each once. -/
structure HoldsObjects (root : FsPath) (t : StorageFiles) (b : Namespace)
    (objects : List (List String × ObjectMetadata)) : Prop where
  nodup : (objects.map Prod.fst).Nodup
  mem_iff : ∀ parts m, (parts, m) ∈ objects ↔
    (∃ c, t.contentAt (objectFile root b parts) = some c) ∧
      t.contentAt (metadataFile root b parts) = some (.metadata m)

/-- No object of the bucket lacks its metadata, as a put that failed can leave one. -/
def MetadataComplete (root : FsPath) (t : StorageFiles) (b : Namespace) : Prop :=
  ∀ parts c, t.contentAt (objectFile root b parts) = some c →
    parts ≠ [] ∧ ∃ m, t.contentAt (metadataFile root b parts) = some (.metadata m)

/-- What is listed of an object. -/
def listedOf (object : List String × ObjectMetadata) : StorageListItem :=
  StorageFiles.itemOf object.1 object.2

/-- Is the object below the start? -/
def IsBelow (start : String) (item : StorageListItem) : Prop := start.toList <+: item.key.toList

instance (start : String) (item : StorageListItem) : Decidable (IsBelow start item) :=
  inferInstanceAs (Decidable (_ <+: _))

section Objects

variable {root : FsPath} {t : StorageFiles} {b : BucketNamespace}
  {objects objects' : List (List String × ObjectMetadata)}

theorem HoldsObjects.perm (h : HoldsObjects root t b.toNamespace objects)
    (h' : HoldsObjects root t b.toNamespace objects') : objects.Perm objects' := by
  rw [List.perm_ext_iff_of_nodup h.nodup.of_map h'.nodup.of_map]
  rintro ⟨parts, m⟩
  rw [h.mem_iff, h'.mem_iff]

/-- The metadata of an object, if it has any. -/
def metadataOf (root : FsPath) (t : StorageFiles) (b : Namespace) (parts : List String) :
    Option ObjectMetadata :=
  match t.contentAt (metadataFile root b parts) with
  | some (.metadata m) => some m
  | _ => none

theorem metadataOf_eq_some {parts : List String} {m : ObjectMetadata} :
    metadataOf root t b.toNamespace parts = some m ↔
      t.contentAt (metadataFile root b.toNamespace parts) = some (.metadata m) := by
  unfold metadataOf
  split
  · rename_i m' hm
    rw [hm, Option.some.injEq, Option.some.injEq, StorageContent.metadata.injEq]
  · rename_i hnone
    refine iff_of_false (Option.some_ne_none m ∘ Eq.symm) ?_
    exact fun hm => hnone m hm

/-- The objects, in the order in which the files are met. -/
def storedObjects (root : FsPath) (t : StorageFiles) (b : Namespace) :
    List (List String × ObjectMetadata) :=
  (t.filesBelow (treePath root .objects b [])).filterMap fun file =>
    (metadataOf root t b file.1).map fun m => (file.1, m)

theorem treePath_nil_append (parts : List String) :
    treePath root .objects b.toNamespace [] ++ parts = objectFile root b.toNamespace parts := by
  rw [objectFile, treePath, treePath, List.append_nil, List.append_assoc]

theorem mem_storedObjects {parts : List String} {m : ObjectMetadata} :
    (parts, m) ∈ storedObjects root t b.toNamespace ↔
      (∃ c, t.contentAt (objectFile root b.toNamespace parts) = some c) ∧
        t.contentAt (metadataFile root b.toNamespace parts) = some (.metadata m) := by
  rw [storedObjects, List.mem_filterMap]
  constructor
  · rintro ⟨⟨parts', c⟩, hmem, heq⟩
    obtain ⟨m', hm', heq⟩ := Option.map_eq_some_iff.mp heq
    obtain ⟨rfl, rfl⟩ := Prod.mk.inj heq
    rw [FileTree.mem_filesBelow_iff, treePath_nil_append] at hmem
    exact ⟨⟨c, hmem⟩, metadataOf_eq_some.mp hm'⟩
  · rintro ⟨⟨c, hc⟩, hm⟩
    refine ⟨(parts, c), ?_, ?_⟩
    · rw [FileTree.mem_filesBelow_iff, treePath_nil_append]
      exact hc
    · rw [metadataOf_eq_some.mpr hm, Option.map_some]

theorem holdsObjects_stored :
    HoldsObjects root t b.toNamespace (storedObjects root t b.toNamespace) := by
  refine ⟨?_, fun parts m => mem_storedObjects⟩
  have hfiles := t.filesBelow_nodup (treePath root .objects b.toNamespace [])
  rw [List.Nodup, List.pairwise_map] at hfiles ⊢
  refine hfiles.filterMap _ ?_
  rintro file file' hne object hobject object' hobject' heq
  obtain ⟨m, -, rfl⟩ := Option.map_eq_some_iff.mp hobject
  obtain ⟨m', -, rfl⟩ := Option.map_eq_some_iff.mp hobject'
  exact hne heq

theorem bucketObjects_of_resolved {bucketRoot : FsPath}
    (h : root.resolveBucketRoot b.text = .ok bucketRoot) :
    t.bucketObjects root b.toNamespace =
      t.collectBucketObjects bucketRoot (root.bucketTree .metadata b.appId b.bucket) := by
  rw [StorageFiles.bucketObjects, h, Outcome.ok_bind, metadataBucketRoot_served, Outcome.ok_bind]

theorem collectFile_eq_ok {parts : List String} {c : StorageContent} (hne : parts ≠ [])
    {item : StorageListItem} :
    t.collectFile (root.bucketTree .metadata b.appId b.bucket) (parts, c) = .ok item ↔
      ∃ m, t.contentAt (metadataFile root b.toNamespace parts) = some (.metadata m) ∧
        item = listedOf (parts, m) := by
  rw [collectFile, Outcome.bind_eq_ok]
  refine exists_congr fun m => ?_
  rw [readMetadataSync_eq_ok hne]
  refine and_congr_right fun _ => ?_
  exact ⟨fun h => (Except.ok.inj h).symm, fun h => h ▸ rfl⟩

theorem bucketObjects_eq (h : MetadataComplete root t b.toNamespace) :
    t.bucketObjects root b.toNamespace =
      .ok ((storedObjects root t b.toNamespace).map listedOf) := by
  obtain ⟨bucketRoot, hresolve, hroot⟩ := @resolveBucketRoot_served root b
  have hwalk : ∀ files : List (List String × StorageContent),
      (∀ file ∈ files, t.contentAt (objectFile root b.toNamespace file.1) = some file.2) →
        files.mapM (t.collectFile (root.bucketTree .metadata b.appId b.bucket)) =
          .ok ((files.filterMap fun file =>
            (metadataOf root t b.toNamespace file.1).map fun m => (file.1, m)).map listedOf) := by
    intro files hfiles
    induction files with
    | nil => rfl
    | cons file files ih =>
      obtain ⟨hfile, hrest⟩ := List.forall_mem_cons.mp hfiles
      obtain ⟨hne, m, hm⟩ := h file.1 file.2 hfile
      have hitem := collectFile_eq_ok (c := file.2) hne |>.mpr ⟨m, hm, rfl⟩
      rw [List.mapM_cons, hitem, ih hrest, List.filterMap_cons, metadataOf_eq_some.mpr hm]
      rfl
  rw [bucketObjects_of_resolved hresolve,
    collectBucketObjects_eq_mapM (fun parts c hc => (h parts c hc).1) hroot, hroot, hwalk]
  · rfl
  · rintro ⟨parts, c⟩ hmem
    rw [FileTree.mem_filesBelow_iff, treePath_nil_append] at hmem
    exact hmem

theorem metadataComplete_of_collected {items : List StorageListItem}
    (h : t.bucketObjects root b.toNamespace = .ok items) :
    MetadataComplete root t b.toNamespace := by
  obtain ⟨bucketRoot, hresolve, hroot⟩ := @resolveBucketRoot_served root b
  rw [bucketObjects_of_resolved hresolve, collectBucketObjects, hroot] at h
  intro parts c hc
  have hne : parts ≠ [] := by
    rintro rfl
    have hfile : t.lookup (treePath root .objects b.toNamespace []) = some (.file c) :=
      FileTree.contentAt_eq_some.mp hc
    rw [hfile] at h
    cases h
  refine ⟨hne, ?_⟩
  rw [lookup_bucketRoot hne hc] at h
  have hmem : (parts, c) ∈ t.filesBelow (treePath root .objects b.toNamespace []) := by
    rw [FileTree.mem_filesBelow_iff, treePath_nil_append]
    exact hc
  obtain ⟨item, hitem⟩ := Outcome.isOk_of_mapM h _ hmem
  obtain ⟨m, hm, -⟩ := (collectFile_eq_ok hne).mp hitem
  exact ⟨m, hm⟩

/-! ### One page of the bucket -/

variable {items : List StorageListItem} {start : Option String} {s : Option String}

theorem bucketEntries_perm (items : List StorageListItem) (s : Option String) :
    (bucketEntries items s none).Perm
      ((items.filter fun item => IsBelow (s.getD "") item).map ListEntry.object) := by
  have hnone : ∀ item, commonStart (s.getD "") none item = none := fun _ => rfl
  have hbelow : ∀ item : StorageListItem,
      (s.getD "").toList.isPrefixOf item.key.toList = decide (IsBelow (s.getD "") item) := by
    intro item
    rw [Bool.eq_iff_iff, List.isPrefixOf_iff_prefix, decide_eq_true_iff, IsBelow]
  have hdelimiter : normalizeOptionalDelimiter none = none := rfl
  rw [bucketEntries, buildListEntries, hdelimiter]
  refine (List.mergeSort_perm _ _).trans ?_
  simp only [hnone, hbelow, Option.isNone_none, List.filter_true, List.filterMap_none,
    List.dedup_nil, List.map_nil, List.append_nil]
  exact ((List.mergeSort_perm _ _).filter _).map _

theorem filterMap_asObject_map (l : List StorageListItem) :
    (l.map ListEntry.object).filterMap ListEntry.asObject = l := by
  rw [List.filterMap_map]
  exact List.filterMap_some

theorem eq_map_object {entries : List ListEntry} {l : List StorageListItem}
    (h : entries.Perm (l.map ListEntry.object)) :
    ∃ sorted : List StorageListItem, sorted.Perm l ∧ entries = sorted.map ListEntry.object := by
  have hall : ∀ rest : List ListEntry, (∀ e ∈ rest, ∃ item, e = .object item) →
      rest = (rest.filterMap ListEntry.asObject).map ListEntry.object := by
    intro rest hrest
    induction rest with
    | nil => rfl
    | cons e rest ih =>
      obtain ⟨⟨item, rfl⟩, htail⟩ := List.forall_mem_cons.mp hrest
      rw [List.filterMap_cons]
      exact congrArg (ListEntry.object item :: ·) (ih htail)
  refine ⟨entries.filterMap ListEntry.asObject, ?_, hall entries ?_⟩
  · have hperm := h.filterMap ListEntry.asObject
    rwa [filterMap_asObject_map] at hperm
  · intro e he
    obtain ⟨item, -, hitem⟩ := List.mem_map.mp (h.subset he)
    exact ⟨item, hitem.symm⟩

theorem listObjectsV2_firstPage (hstart : normalizeOptionalStart start = .ok s)
    (hitems : t.bucketObjects root b.toNamespace = .ok items) :
    ∃ (sorted : List StorageListItem) (page : StorageListPage),
      sorted.Perm (items.filter fun item => IsBelow (s.getD "") item) ∧
      t.listObjectsV2 root b.toNamespace start none none none = .ok page ∧
        page.objects = sorted.take 1000 := by
  have hentries : t.listEntries root b.toNamespace start none =
      .ok (bucketEntries items s none) := by
    rw [StorageFiles.listEntries, hstart, Outcome.ok_bind, hitems, Outcome.ok_bind]
    rfl
  obtain ⟨sorted, hsorted, heq⟩ := eq_map_object (bucketEntries_perm items s)
  have hall : (sorted.map ListEntry.object).filter (behind none) = sorted.map ListEntry.object :=
    List.filter_eq_self.mpr fun _ _ => rfl
  refine ⟨sorted, pageFor 1000 (sorted.map ListEntry.object), hsorted, ?_, ?_⟩
  · rw [listObjectsV2_eq hentries, normalizeOptionalKey_none, heq]
    simp only [Except.map, hall]
    rfl
  · rw [pageFor, ← List.map_take, filterMap_asObject_map]

/-- The first page lists everything exactly when that fits on it. -/
theorem map_take_perm_iff {α β : Type} {f : α → β} {sorted l : List α} {n : Nat}
    (h : sorted.Perm l) : ((sorted.take n).map f).Perm (l.map f) ↔ l.length ≤ n := by
  constructor
  · intro hperm
    have hlength := hperm.length_eq
    rw [List.length_map, List.length_map, List.length_take] at hlength
    omega
  · intro hle
    rw [List.take_of_length_le (h.length_eq.trans_le hle)]
    exact h.map f

theorem bucketObjects_of_page {page : StorageListPage}
    (h : t.listObjectsV2 root b.toNamespace start none none none = .ok page) :
    ∃ items, t.bucketObjects root b.toNamespace = .ok items := by
  unfold listObjectsV2 at h
  obtain ⟨_, -, h⟩ := Outcome.bind_eq_ok.mp h
  obtain ⟨_, -, h⟩ := Outcome.bind_eq_ok.mp h
  obtain ⟨bucketRoot, hbucket, h⟩ := Outcome.bind_eq_ok.mp h
  obtain ⟨metadataRoot, hmetadata, h⟩ := Outcome.bind_eq_ok.mp h
  obtain ⟨items, hitems, -⟩ := Outcome.bind_eq_ok.mp h
  refine ⟨items, ?_⟩
  rw [StorageFiles.bucketObjects, hbucket, Outcome.ok_bind, hmetadata, Outcome.ok_bind, hitems]

/-- The objects below a start, as they are listed. -/
def objectsBelow (objects : List (List String × ObjectMetadata)) (s : Option String) :
    List StorageListItem :=
  (objects.map listedOf).filter fun item => IsBelow (s.getD "") item

theorem objectsBelow_none (objects : List (List String × ObjectMetadata)) :
    objectsBelow objects none = objects.map listedOf :=
  List.filter_eq_self.mpr fun item _ => decide_eq_true (List.nil_prefix : [] <+: item.key.toList)

theorem page_complete_iff (h : HoldsObjects root t b.toNamespace objects) {β : Type}
    (f : StorageListItem → β) :
    (∃ s page, normalizeOptionalStart start = .ok s ∧
      t.listObjectsV2 root b.toNamespace start none none none = .ok page ∧
        (page.objects.map f).Perm ((objectsBelow objects s).map f)) ↔
      MetadataComplete root t b.toNamespace ∧
        ∃ s, normalizeOptionalStart start = .ok s ∧ (objectsBelow objects s).length ≤ 1000 := by
  have hcollected : ∀ {items}, MetadataComplete root t b.toNamespace →
      t.bucketObjects root b.toNamespace = .ok items → items.Perm (objects.map listedOf) := by
    intro items hcomplete hitems
    obtain rfl := Except.ok.inj ((bucketObjects_eq hcomplete).symm.trans hitems)
    exact (holdsObjects_stored.perm h).map listedOf
  constructor
  · rintro ⟨s, page, hstart, hpage, hperm⟩
    obtain ⟨items, hitems⟩ := bucketObjects_of_page hpage
    have hcomplete := metadataComplete_of_collected hitems
    obtain ⟨sorted, page', hsorted, hpage', htake⟩ := listObjectsV2_firstPage hstart hitems
    obtain rfl := Except.ok.inj (hpage.symm.trans hpage')
    have hbelow := hsorted.trans ((hcollected hcomplete hitems).filter _)
    rw [htake] at hperm
    exact ⟨hcomplete, s, hstart, (map_take_perm_iff hbelow).mp hperm⟩
  · rintro ⟨hcomplete, s, hstart, hlength⟩
    have hitems := bucketObjects_eq hcomplete
    obtain ⟨sorted, page, hsorted, hpage, htake⟩ := listObjectsV2_firstPage hstart hitems
    have hbelow := hsorted.trans ((hcollected hcomplete hitems).filter _)
    refine ⟨s, page, hstart, hpage, ?_⟩
    rw [htake]
    exact (map_take_perm_iff hbelow).mpr hlength

theorem listSdkObjects_eq_ok {db : Db} {auth : SdkAuthContext} {policy : StorageBucket}
    (hpolicy : loadPolicy db b.appId b.bucket = .ok policy) (hread : canRead auth policy = true)
    {answer : List SdkStorageObjectSummary} :
    listSdkObjects root db t auth b.appId b.bucket start = .ok { status := .ok, body := answer } ↔
      ∃ page, t.listObjectsV2 root b.toNamespace start none none none = .ok page ∧
        answer = page.objects.map .ofItem := by
  unfold listSdkObjects
  rw [hpolicy, Outcome.ok_bind, hread, Outcome.ensure_true, Outcome.ok_bind, Outcome.bind_eq_ok]
  refine exists_congr fun page => ?_
  rw [Outcome.mapError_eq_ok]
  refine and_congr_right fun _ => ?_
  exact ⟨fun h => (congrArg Reply.body (Except.ok.inj h)).symm, fun h => h ▸ rfl⟩

theorem handleStorageList_eq_ok {db : Db} {claims : Claims} {args : Value} {bucket : String}
    (hbucket : requiredString args "bucket" = .ok bucket)
    (hensure : ensureStorageBucket db claims.appId bucket = .ok ())
    (hnamespace : appStorageBucket claims.appId bucket = b.toNamespace) {keys : List String} :
    handleStorageList root db t (some claims) args = .ok (.array (keys.map .string)) ↔
      ∃ page, t.listObjectsV2 root b.toNamespace none none none none = .ok page ∧
        keys = page.objects.map fun item => item.key := by
  have hclaims : requireClaims (some claims) = .ok claims := rfl
  have hinj : ∀ l l' : List String, l.map Value.string = l'.map Value.string → l' = l := by
    intro l l' hmap
    exact (List.map_injective_iff.mpr (fun a a' haa => Value.string.inj haa) hmap).symm
  unfold handleStorageList
  rw [hclaims, Outcome.ok_bind, hbucket, Outcome.ok_bind, hensure, Outcome.ok_bind, hnamespace,
    Outcome.bind_eq_ok]
  refine exists_congr fun page => ?_
  rw [Outcome.mapError_eq_ok]
  refine and_congr_right fun _ => ?_
  constructor
  · intro h
    refine hinj _ _ ?_
    rw [List.map_map]
    exact Value.array.inj (Except.ok.inj h)
  · rintro rfl
    rw [List.map_map]
    rfl

/-- The SDK lists the objects below the start, each once. -/
def SdkListComplete (root : FsPath) (db : Db) (t : StorageFiles) (auth : SdkAuthContext)
    (b : Namespace) (start : Option String)
    (objects : List (List String × ObjectMetadata)) : Prop :=
  ∃ s answer, normalizeOptionalStart start = .ok s ∧
    listSdkObjects root db t auth b.appId b.bucket start = .ok { status := .ok, body := answer } ∧
    answer.Perm ((objectsBelow objects s).map .ofItem)

/-- The function host lists the keys of the objects, each once. -/
def HostListComplete (root : FsPath) (db : Db) (t : StorageFiles) (claims : Claims) (args : Value)
    (objects : List (List String × ObjectMetadata)) : Prop :=
  ∃ keys : List String,
    handleStorageList root db t (some claims) args = .ok (.array (keys.map .string)) ∧
    keys.Perm (objects.map fun object => keyText object.1)

theorem sdkListComplete_iff (h : HoldsObjects root t b.toNamespace objects) {db : Db}
    {auth : SdkAuthContext} {policy : StorageBucket}
    (hpolicy : loadPolicy db b.appId b.bucket = .ok policy) (hread : canRead auth policy = true) :
    SdkListComplete root db t auth b.toNamespace start objects ↔
      MetadataComplete root t b.toNamespace ∧
        ∃ s, normalizeOptionalStart start = .ok s ∧ (objectsBelow objects s).length ≤ 1000 := by
  rw [← page_complete_iff h SdkStorageObjectSummary.ofItem]
  refine exists_congr fun s => ?_
  constructor
  · rintro ⟨answer, hstart, hanswer, hperm⟩
    obtain ⟨page, hpage, rfl⟩ := (listSdkObjects_eq_ok hpolicy hread).mp hanswer
    exact ⟨page, hstart, hpage, hperm⟩
  · rintro ⟨page, hstart, hpage, hperm⟩
    exact ⟨_, hstart, (listSdkObjects_eq_ok hpolicy hread).mpr ⟨page, hpage, rfl⟩, hperm⟩

theorem hostListComplete_iff (h : HoldsObjects root t b.toNamespace objects) {db : Db}
    {claims : Claims} {args : Value} {bucket : String}
    (hbucket : requiredString args "bucket" = .ok bucket)
    (hensure : ensureStorageBucket db claims.appId bucket = .ok ())
    (hnamespace : appStorageBucket claims.appId bucket = b.toNamespace) :
    HostListComplete root db t claims args objects ↔
      MetadataComplete root t b.toNamespace ∧ objects.length ≤ 1000 := by
  have hkeys : (objectsBelow objects none).map (fun item => item.key) =
      objects.map fun object => keyText object.1 := by
    rw [objectsBelow_none, List.map_map]
    rfl
  have hiff := @page_complete_iff root t b objects none h String fun item => item.key
  constructor
  · rintro ⟨keys, hanswer, hperm⟩
    obtain ⟨page, hpage, rfl⟩ := (handleStorageList_eq_ok hbucket hensure hnamespace).mp hanswer
    rw [← hkeys] at hperm
    obtain ⟨hcomplete, s, hstart, hlength⟩ := hiff.mp ⟨none, page, rfl, hpage, hperm⟩
    cases hstart
    rw [objectsBelow_none, List.length_map] at hlength
    exact ⟨hcomplete, hlength⟩
  · rintro ⟨hcomplete, hlength⟩
    have hfits : (objectsBelow objects none).length ≤ 1000 := by
      rw [objectsBelow_none, List.length_map]
      exact hlength
    obtain ⟨s, page, hstart, hpage, hperm⟩ := hiff.mpr ⟨hcomplete, none, rfl, hfits⟩
    cases hstart
    rw [hkeys] at hperm
    exact ⟨_, (handleStorageList_eq_ok hbucket hensure hnamespace).mpr ⟨page, hpage, rfl⟩, hperm⟩

/-- **The lists of the SDK and of the function host are complete exactly where what
    they list fits on one page**, and can be read at all. -/
theorem object_lists_complete_iff (h : HoldsObjects root t b.toNamespace objects) (db : Db) :
    (∀ auth policy start, loadPolicy db b.appId b.bucket = .ok policy →
      canRead auth policy = true →
        (SdkListComplete root db t auth b.toNamespace start objects ↔
          MetadataComplete root t b.toNamespace ∧
            ∃ s, normalizeOptionalStart start = .ok s ∧
              (objectsBelow objects s).length ≤ 1000)) ∧
    ∀ claims args bucket, requiredString args "bucket" = .ok bucket →
      ensureStorageBucket db claims.appId bucket = .ok () →
        appStorageBucket claims.appId bucket = b.toNamespace →
          (HostListComplete root db t claims args objects ↔
            MetadataComplete root t b.toNamespace ∧ objects.length ≤ 1000) :=
  ⟨fun _ _ _ hpolicy hread => sdkListComplete_iff h hpolicy hread,
    fun _ _ _ hbucket hensure hnamespace => hostListComplete_iff h hbucket hensure hnamespace⟩

end Objects

/-! ### Buckets of any size -/

theorem normalizeObjectKey_of_plain {key : String} (h : IsPlain key) :
    normalizeObjectKey key = .ok [key] := by
  have htrim : trim key = key := trim_eq_self fun c hc => (h.char hc).1
  have hslash : trimStartMatches '/' key = key := by
    obtain ⟨c, cs, hcs⟩ := List.exists_cons_of_ne_nil
      (show key.toList ≠ [] by simpa using h.ne_empty)
    have hc : (c == '/') = false := by
      rw [beq_eq_false_iff_ne]
      exact (h.char (hcs ▸ List.mem_cons_self)).2.1
    rw [trimStartMatches, hcs, List.dropWhile_cons, hc, if_neg (by decide), ← hcs,
      String.ofList_toList]
  have hsplit : splitAt '/' key = [key] := by
    have hparts : ∀ part ∈ [key], '/' ∉ part.toList := by
      intro part hpart
      rw [List.mem_singleton.mp hpart]
      exact h.isName.no_slash
    have hone := splitAt_intercalate hparts (List.cons_ne_nil _ _)
    rwa [String.intercalate_singleton] at hone
  refine normalizeObjectKey_eq_ok.mpr ⟨?_, ?_, ?_, List.cons_ne_nil _ _⟩
  · rw [htrim, hslash]
    exact h.ne_empty
  · rw [htrim, hslash, hsplit]
    simp [h.ne_empty, h.isName.ne_curDir]
  · intro part hpart
    rw [List.mem_singleton.mp hpart]
    exact h.isName.ne_parentDir

/-- New directories are where some place needs them. -/
def NewDirs (places : List (List String)) (t t' : StorageFiles) : Prop :=
  ∀ q, t'.lookup q = some .dir → t.lookup q = some .dir ∨ ∃ p ∈ places, q <+: p

theorem NewDirs.refl (places : List (List String)) (t : StorageFiles) : NewDirs places t t :=
  fun _ hq => .inl hq

theorem NewDirs.trans {places : List (List String)} {t t' t'' : StorageFiles}
    (h : NewDirs places t t') (h' : NewDirs places t' t'') : NewDirs places t t'' :=
  fun q hq => (h' q hq).elim (h q) .inr

theorem newDirs_createParent {places : List (List String)} {t t' : StorageFiles} {path : FsPath}
    (hpath : path.names ≠ []) (hplace : path.names.dropLast ∈ places)
    (h : t.createParent path = .ok t') : NewDirs places t t' := by
  intro q hq
  rw [(createParent_ok hpath h).2] at hq
  split at hq
  · rename_i habove
    exact .inr ⟨_, hplace, habove⟩
  · exact .inl hq

theorem newDirs_writeFile {places : List (List String)} {t t' : StorageFiles} {path : FsPath}
    {content : StorageContent} (h : t.writeFile path content = .ok t') : NewDirs places t t' := by
  rw [writeFile, Outcome.mapError_eq_ok] at h
  intro q hq
  rw [FileTree.lookup_write h] at hq
  split at hq
  · cases hq
  · exact .inl hq

section Many

variable {root : FsPath} {dg : Digests} {t : StorageFiles} {b : BucketNamespace}

theorem newDirs_writeMetadata {places : List (List String)} {key : String} {parts : List String}
    (hkey : normalizeObjectKey key = .ok parts)
    (hplace : (metadataFile root b.toNamespace parts).dropLast ∈ places) (m : ObjectMetadata) :
    NewDirs places t (writeMetadata root t b.toNamespace key m).1 := by
  obtain ⟨path, hresolve, hpath⟩ := resolveMetadataPath_served root b hkey
  have hne : path.names ≠ [] := hpath ▸ treePath_ne_nil root .metadata b.toNamespace _
  rw [← hpath] at hplace
  unfold writeMetadata
  rw [hresolve, Outcome.proceed_ok]
  refine Outcome.proceed_rule (.refl _ t) fun t₁ hdirs => ?_
  have hmade := newDirs_createParent hne hplace hdirs
  refine Outcome.proceed_rule hmade fun t₂ hwrite => ?_
  exact hmade.trans (newDirs_writeFile hwrite)

theorem newDirs_put {places : List (List String)} {now key : String} {parts : List String}
    (hkey : normalizeObjectKey key = .ok parts)
    (hplace : (objectFile root b.toNamespace parts).dropLast ∈ places)
    (hplace' : (metadataFile root b.toNamespace parts).dropLast ∈ places) (data : List UInt8)
    (contentType : Option String) (details : ObjectDetails) :
    NewDirs places t
      (putObjectWithMetadata root dg now t b.toNamespace key data contentType details).1 := by
  obtain ⟨path, hresolve, hpath⟩ := resolveObjectPath_served root b hkey
  obtain ⟨metadataPath, hresolve', hpath'⟩ := resolveMetadataPath_served root b hkey
  have hne : path.names ≠ [] := hpath ▸ treePath_ne_nil root .objects b.toNamespace parts
  have hne' : metadataPath.names ≠ [] := hpath' ▸ treePath_ne_nil root .metadata b.toNamespace _
  have hmetadata := hplace'
  rw [← hpath] at hplace
  rw [← hpath'] at hplace'
  unfold putObjectWithMetadata
  rw [hresolve, hresolve', Outcome.proceed_ok, Outcome.proceed_ok]
  refine Outcome.proceed_rule (.refl _ t) fun t₁ hdirs => ?_
  have hmade := newDirs_createParent hne hplace hdirs
  refine Outcome.proceed_rule hmade fun t₂ hdirs' => ?_
  have hmade' := hmade.trans (newDirs_createParent hne' hplace' hdirs')
  refine Outcome.proceed_rule hmade' fun t₃ hwrite => ?_
  have hwritten := hmade'.trans (newDirs_writeFile hwrite)
  have hmeta := hwritten.trans (newDirs_writeMetadata (t := t₃) hkey hmetadata
    (newMetadata dg now (readMetadata root t₂ b.toNamespace key).toOption data contentType details))
  generalize writeMetadata root t₃ b.toNamespace key (newMetadata dg now
    (readMetadata root t₂ b.toNamespace key).toOption data contentType details) = written at hmeta ⊢
  exact hmeta

/-- A bucket of objects whose keys have one component each. -/
structure FlatBucket (root : FsPath) (t : StorageFiles) (b : Namespace) (keys : List String) :
    Prop where
  free : ∀ tree q, q <+: treePath root tree b [] → t.contentAt q = none
  flat : ∀ tree rel, rel ≠ [] → t.lookup (treePath root tree b rel) ≠ some .dir
  objects : ∀ parts, (∃ c, t.contentAt (objectFile root b parts) = some c) ↔
    ∃ key ∈ keys, parts = [key]
  metadata : ∀ key ∈ keys, ∃ m, t.contentAt (metadataFile root b [key]) = some (.metadata m)

theorem EmptyStorage.flatBucket (h : EmptyStorage root t) : FlatBucket root t b.toNamespace [] := by
  refine ⟨?_, ?_, ?_, ?_⟩
  · intro tree q hq
    by_contra hsome
    obtain ⟨c, hc⟩ := Option.ne_none_iff_exists'.mp hsome
    have hfile := FileTree.contentAt_eq_some.mp hc
    rcases List.prefix_or_prefix_of_prefix hq (List.prefix_append root.names _) with
      habove | ⟨below, rfl⟩
    · exact h.1 q habove c hfile
    · by_cases hbelow : below = []
      · rw [hbelow, List.append_nil] at hfile
        exact h.1 _ List.prefix_rfl c hfile
      · rw [h.2 below hbelow] at hfile
        cases hfile
  · intro tree rel _
    rw [treePath, h.2 _ (by simp)]
    exact fun hdir => Option.some_ne_none _ hdir.symm
  · intro parts
    rw [objectFile, h.contentAt_none]
    simp
  · intro key hkey
    cases hkey

theorem dropLast_treePath (tree : StorageTree) (name : String) :
    (treePath root tree b.toNamespace [name]).dropLast = treePath root tree b.toNamespace [] := by
  rw [treePath, treePath, ← List.append_assoc, List.dropLast_concat, List.append_nil]

theorem FlatBucket.put {keys : List String} (h : FlatBucket root t b.toNamespace keys)
    {key : String} (hkey : normalizeObjectKey key = .ok [key]) (now : String) (data : List UInt8)
    (contentType : Option String) (details : ObjectDetails) :
    ∃ t' m, putObjectWithMetadata root dg now t b.toNamespace key data contentType details =
        (t', .ok m) ∧ FlatBucket root t' b.toNamespace (key :: keys) := by
  have houtcome := putObject_outcome root dg now b t hkey data contentType details
  have hdirs := @newDirs_put root dg t b [treePath root .objects b.toNamespace [],
    treePath root .metadata b.toNamespace []] now key [key] hkey
      (by rw [objectFile, dropLast_treePath]; exact List.mem_cons_self)
      (by
        rw [metadataFile, withJson]
        exact List.mem_cons_of_mem _ (List.mem_singleton.mpr (dropLast_treePath .metadata _)))
      data contentType details
  generalize putObjectWithMetadata root dg now t b.toNamespace key data contentType details = r
    at houtcome hdirs ⊢
  cases houtcome with
  | @stored t' m _ _ hcontent =>
    have hother : ∀ parts', parts' ≠ [key] → ¬ (b.toNamespace = b.toNamespace ∧ parts' = [key]) :=
      fun parts' hne hsame => hne hsame.2
    refine ⟨t', m, rfl, ?_, ?_, ?_, ?_⟩
    · intro tree q hq
      have hnot : ∀ tree' name, q ≠ treePath root tree' b.toNamespace [name] := by
        rintro tree' name rfl
        obtain ⟨-, hnil⟩ := treePath_isPrefix.mp hq
        exact absurd (List.prefix_nil.mp hnil) (List.cons_ne_nil _ _)
      have hobject : q ≠ objectFile root b.toNamespace [key] := hnot .objects key
      have hmetadata : q ≠ metadataFile root b.toNamespace [key] := hnot .metadata _
      rw [hcontent, Function.update_of_ne hmetadata, Function.update_of_ne hobject]
      exact h.free tree q hq
    · intro tree rel hrel hdir
      rcases hdirs _ hdir with hold | ⟨p, hp, habove⟩
      · exact h.flat tree rel hrel hold
      · have hnil : rel <+: [] := by
          rcases List.mem_cons.mp hp with rfl | hp
          · exact (treePath_isPrefix.mp habove).2
          · rw [List.mem_singleton.mp hp] at habove
            exact (treePath_isPrefix.mp habove).2
        exact hrel (List.prefix_nil.mp hnil)
    · intro parts
      by_cases hparts : parts = [key]
      · subst hparts
        rw [contentAt_object hcontent]
        exact iff_of_true ⟨_, rfl⟩ ⟨key, List.mem_cons_self, rfl⟩
      · obtain ⟨hobject, -⟩ := contentAt_other (List.cons_ne_nil _ _) hcontent (hother parts hparts)
        rw [hobject, h.objects]
        constructor
        · rintro ⟨key', hmem, rfl⟩
          exact ⟨key', List.mem_cons_of_mem _ hmem, rfl⟩
        · rintro ⟨key', hmem, rfl⟩
          rcases List.mem_cons.mp hmem with rfl | hmem
          · exact absurd rfl hparts
          · exact ⟨key', hmem, rfl⟩
    · intro key' hmem
      by_cases hsame : [key'] = [key]
      · rw [hsame, hcontent, Function.update_self]
        exact ⟨m, rfl⟩
      · obtain ⟨-, hmetadata⟩ :=
          contentAt_other (List.cons_ne_nil _ _) hcontent (hother [key'] hsame)
        rw [hmetadata (List.cons_ne_nil _ _)]
        rcases List.mem_cons.mp hmem with rfl | hmem
        · exact absurd rfl hsame
        · exact h.metadata key' hmem
  | refused hblocked _ =>
    have hfree : ∀ tree name q, q <+: (treePath root tree b.toNamespace [name]).dropLast →
        ¬ ∃ c, t.lookup q = some (.file c) := by
      rintro tree name q hq ⟨c, hfile⟩
      rw [dropLast_treePath] at hq
      rw [← FileTree.contentAt_eq_some, h.free tree q hq] at hfile
      cases hfile
    rcases hblocked with ⟨q, hq, hfile⟩ | ⟨q, hq, hfile⟩ | hdir
    · exact absurd hfile (hfree .objects key q hq)
    · exact absurd hfile (hfree .metadata _ q hq)
    · exact absurd hdir (h.flat .objects [key] (List.cons_ne_nil _ _))
  | torn htorn _ => exact absurd htorn.1 (h.flat .metadata _ (by simp [withJson]))

theorem runStorage_puts {keys : List String} (hkeys : ∀ key ∈ keys, IsPlain key)
    {before : List String} (h : FlatBucket dataRoot t avatarsNamespace.toNamespace before) :
    ∃ t', runStorage dataRoot dg t (keys.map putOne) = .ok t' ∧
      FlatBucket dataRoot t' avatarsNamespace.toNamespace (keys.reverse ++ before) := by
  induction keys generalizing t before with
  | nil => exact ⟨t, rfl, h⟩
  | cons key keys ih =>
    obtain ⟨hkey, hrest⟩ := List.forall_mem_cons.mp hkeys
    obtain ⟨t₁, m, hput, hflat⟩ := @FlatBucket.put dataRoot dg t avatarsNamespace before h key
      (normalizeObjectKey_of_plain hkey) "2025-01-01T00:00:00+00:00" [1, 2, 3] none {}
    obtain ⟨t', hrun, hflat'⟩ := ih hrest hflat
    refine ⟨t', ?_, ?_⟩
    · rw [List.map_cons, putOne, runStorage, StorageOp.exec, ObjectOp.exec,
        Outcome.discard_eq_ok.mpr ⟨m, hput⟩]
      exact hrun
    · rw [List.reverse_cons, List.append_assoc]
      exact hflat'

theorem FlatBucket.metadataComplete {keys : List String}
    (h : FlatBucket root t b.toNamespace keys) : MetadataComplete root t b.toNamespace := by
  intro parts c hc
  obtain ⟨key, hkey, rfl⟩ := (h.objects parts).mp ⟨c, hc⟩
  exact ⟨List.cons_ne_nil _ _, h.metadata key hkey⟩

theorem FlatBucket.length_eq {keys : List String} (h : FlatBucket root t b.toNamespace keys)
    (hnodup : keys.Nodup) {objects : List (List String × ObjectMetadata)}
    (hobjects : HoldsObjects root t b.toNamespace objects) : objects.length = keys.length := by
  have hperm : (objects.map Prod.fst).Perm (keys.map fun key => [key]) := by
    have hnodup' : (keys.map fun key => [key]).Nodup :=
      hnodup.map fun a a' heq => List.singleton_inj.mp heq
    rw [List.perm_ext_iff_of_nodup hobjects.nodup hnodup']
    intro parts
    rw [List.mem_map, List.mem_map]
    constructor
    · rintro ⟨⟨parts', m⟩, hmem, rfl⟩
      obtain ⟨hc, -⟩ := (hobjects.mem_iff parts' m).mp hmem
      obtain ⟨key, hkey, hparts⟩ := (h.objects parts').mp hc
      exact ⟨key, hkey, hparts.symm⟩
    · rintro ⟨key, hkey, rfl⟩
      obtain ⟨m, hm⟩ := h.metadata key hkey
      exact ⟨([key], m), (hobjects.mem_iff _ _).mpr ⟨(h.objects _).mpr ⟨key, hkey, rfl⟩, hm⟩, rfl⟩
  have hlength := hperm.length_eq
  rwa [List.length_map, List.length_map] at hlength

end Many

theorem isPlain_toString (n : Nat) : IsPlain (toString n) := by
  have htext : (toString n).toList = Nat.toDigits 10 n := Nat.toList_repr
  refine ⟨?_, ?_⟩
  · intro hempty
    rw [hempty] at htext
    exact Nat.toDigits_ne_nil htext.symm
  · intro c hc
    rw [htext] at hc
    have hdigit := Nat.isDigit_of_mem_toDigits (by decide) (by decide) hc
    rw [Char.isDigit_iff_toNat] at hdigit
    have hascii : isAsciiDigit c = true := by
      rw [isAsciiDigit, Bool.and_eq_true, decide_eq_true_eq, decide_eq_true_eq]
      exact hdigit
    rw [isNameChar, hascii, Bool.or_true, Bool.true_or, Bool.true_or, Bool.true_or]

/-! ### One object more than a page -/

/-- A bucket whose objects the SDK may list. -/
def listedDb : Db :=
  { storageBuckets := ⟨[{
      appId := DEFAULT_APP_ID, name := "avatars", publicRead := true, allowClientUploads := false
      maxObjectBytes := none, allowedMimeTypes := [], createdAt := "2025-01-01 00:00:00"
      updatedAt := "2025-01-01 00:00:00", deletedAt := none }], by simp⟩ }

def readerClaims : Claims :=
  { sub := "reader", appId := DEFAULT_APP_ID, exp := 0, isAdmin := false }

def readerAuth : SdkAuthContext :=
  { principal := .appKey "key_1" DEFAULT_APP_ID false ["storage:read"], user := none
    actor := readerClaims }

def avatarsArgs : Value := .object [("bucket", .string "avatars")]

theorem loadPolicy_listedDb :
    ∃ policy, loadPolicy listedDb avatarsNamespace.appId avatarsNamespace.bucket = .ok policy ∧
      canRead readerAuth policy = true := ⟨_, rfl, rfl⟩

theorem appStorageBucket_avatars :
    appStorageBucket readerClaims.appId "avatars" = avatarsNamespace.toNamespace := by
  decide +kernel

/-- After 1001 puts the lists lack an object. -/
theorem thousand_and_one_objects_not_listed :
    ∃ t, runStorage dataRoot lengthDigests FileTree.empty
        (((List.range 1001).map toString).map putOne) = .ok t ∧
      ∃ objects, HoldsObjects dataRoot t avatarsNamespace.toNamespace objects ∧
        objects.length = 1001 ∧
        ¬ SdkListComplete dataRoot listedDb t readerAuth avatarsNamespace.toNamespace none objects ∧
        ¬ HostListComplete dataRoot listedDb t readerClaims avatarsArgs objects := by
  have hplain : ∀ key ∈ (List.range 1001).map toString, IsPlain key := by
    intro key hkey
    obtain ⟨n, -, rfl⟩ := List.mem_map.mp hkey
    exact isPlain_toString n
  have hnodup : ((List.range 1001).map toString).Nodup :=
    List.nodup_range.map fun _ _ => toString_injective
  obtain ⟨t, hrun, hflat⟩ := @runStorage_puts lengthDigests FileTree.empty _ hplain []
    (emptyStorage_empty dataRoot).flatBucket
  have hobjects := @holdsObjects_stored dataRoot t avatarsNamespace
  have hlength := hflat.length_eq (by rw [List.append_nil]; exact List.nodup_reverse.mpr hnodup)
    hobjects
  rw [List.append_nil, List.length_reverse, List.length_map, List.length_range] at hlength
  refine ⟨t, hrun, _, hobjects, hlength, ?_, ?_⟩
  · intro hcomplete
    obtain ⟨policy, hpolicy, hread⟩ := loadPolicy_listedDb
    obtain ⟨-, s, hstart, hfits⟩ := (sdkListComplete_iff hobjects hpolicy hread).mp hcomplete
    cases hstart
    rw [objectsBelow_none, List.length_map, hlength] at hfits
    exact absurd hfits (by decide)
  · intro hcomplete
    obtain ⟨-, hfits⟩ :=
      (hostListComplete_iff hobjects rfl rfl appStorageBucket_avatars).mp hcomplete
    rw [hlength] at hfits
    exact absurd hfits (by decide)

/-- Four objects, of which two lie below the text `1`. -/
def someKeys : List String := ["1", "2", "10", "21"]

/-- The SDK lists the two below the text, and a function all four. -/
theorem some_objects_listed :
    ∃ t, runStorage dataRoot lengthDigests .empty (someKeys.map putOne) = .ok t ∧
      ∃ objects, HoldsObjects dataRoot t avatarsNamespace.toNamespace objects ∧
        (objectsBelow objects (some "1")).map (fun item => item.key) = ["1", "10"] ∧
        SdkListComplete dataRoot listedDb t readerAuth avatarsNamespace.toNamespace (some "1")
          objects ∧
        HostListComplete dataRoot listedDb t readerClaims avatarsArgs objects := by
  have hplain : ∀ key ∈ someKeys, IsPlain key := by
    have hnumbers : someKeys = [1, 2, 10, 21].map toString := rfl
    intro key hkey
    rw [hnumbers] at hkey
    obtain ⟨n, -, rfl⟩ := List.mem_map.mp hkey
    exact isPlain_toString n
  have hbelow : ((runStorage dataRoot lengthDigests .empty
      (someKeys.map putOne)).toOption.map fun t => (objectsBelow
        (storedObjects dataRoot t avatarsNamespace.toNamespace) (some "1")).map
          fun item => item.key) = some ["1", "10"] := by
    decide +kernel
  obtain ⟨t, hrun, hflat⟩ := @runStorage_puts lengthDigests FileTree.empty someKeys hplain []
    (emptyStorage_empty dataRoot).flatBucket
  rw [hrun] at hbelow
  have hkeys := Option.some.inj hbelow
  have hobjects := @holdsObjects_stored dataRoot t avatarsNamespace
  have hlength : (storedObjects dataRoot t avatarsNamespace.toNamespace).length = 4 :=
    hflat.length_eq (by decide) hobjects
  obtain ⟨policy, hpolicy, hread⟩ := loadPolicy_listedDb
  obtain ⟨hsdk, hhost⟩ := object_lists_complete_iff hobjects listedDb
  refine ⟨t, hrun, _, hobjects, hkeys, ?_, ?_⟩
  · refine (hsdk readerAuth policy (some "1") hpolicy hread).mpr
      ⟨hflat.metadataComplete, some "1", by decide +kernel, ?_⟩
    have htwo := congrArg List.length hkeys
    rw [List.length_map] at htwo
    rw [htwo]
    decide
  · refine (hhost readerClaims avatarsArgs "avatars" rfl rfl appStorageBucket_avatars).mpr
      ⟨hflat.metadataComplete, ?_⟩
    rw [hlength]
    decide

end Peanut
