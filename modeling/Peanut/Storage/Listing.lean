import Mathlib.Algebra.GroupWithZero.Nat
import Mathlib.Algebra.Order.BigOperators.Group.List
import Mathlib.Algebra.Order.Group.Nat
import Mathlib.Data.List.Dedup
import Peanut.Storage.Files

/-!
# Listing a bucket

`storage/local/listing.rs`: the keys are derived from the names of the files, and
`get_object` derives names of files from keys.  What is listed can be fetched
exactly when every object lies where its listed key leads, which some keys that a
put accepts do not: the listed key has `/` for `\` and is trimmed once more.
-/

namespace Peanut

open Relational

structure StorageListItem where
  key : String
  size : Nat
  etag : String
  lastModified : String
  contentType : String
deriving DecidableEq, Repr

structure StorageListPage where
  objects : List StorageListItem
  commonPrefixes : List String
  isTruncated : Bool
  nextContinuationToken : Option String
deriving DecidableEq, Repr

inductive ListEntry where
  | object (item : StorageListItem)
  | common (start : String)
deriving DecidableEq, Repr

def ListEntry.token : ListEntry → String
  | .object item => item.key
  | .common start => start

/-! ### The parameters of a listing -/

def normalizeOptionalKey (value : Option String) : Except IoError (Option String) :=
  match value.filter fun raw => !isBlank raw with
  | some raw => do
      let parts ← normalizeObjectKey raw
      return some (keyText parts)
  | none => .ok none

/-- `normalize_optional_prefix`. -/
def normalizeOptionalStart (value : Option String) : Except IoError (Option String) :=
  match value.filter fun raw => !isBlank raw with
  | some raw => do
      let trimmed := trimStartMatches '/' (trim raw)
      let parts ← normalizeObjectKey trimmed
      return some (if endsWith "/" trimmed then keyText parts ++ "/" else keyText parts)
  | none => .ok none

def normalizeOptionalDelimiter (value : Option String) : Option String :=
  (value.filter fun raw => !isBlank raw).map trim

/-! ### Entries -/

/-- `str::find`: the place of the first occurrence. -/
def strFind (needle s : String) : Option Nat := s.toList.tails.findIdx? needle.toList.isPrefixOf

/-- The common start that hides an item, if one does. -/
def commonStart (start : String) (delimiter : Option String) (item : StorageListItem) :
    Option String :=
  delimiter.bind fun d =>
    let suffix := String.ofList (item.key.toList.drop start.length)
    (strFind d suffix).map fun index =>
      start ++ String.ofList (suffix.toList.take (index + d.length))

def buildListEntries (objects : List StorageListItem) (start : String) (delimiter : Option String) :
    List ListEntry :=
  let found := objects.filter fun item => start.toList.isPrefixOf item.key.toList
  let items := found.filter fun item => (commonStart start delimiter item).isNone
  let starts := (found.filterMap (commonStart start delimiter)).dedup
  -- equal texts in `starts` are one already, so the sort alone puts them in order
  (items.map ListEntry.object ++ starts.map ListEntry.common).mergeSort fun left right =>
    !strLt right.token left.token

namespace StorageFiles

def readMetadataSync (t : StorageFiles) (metadataRoot : FsPath) (relative : List String) :
    Except IoError ObjectMetadata := do
  let metadataPath := metadataRoot.joinNames relative
  let fileName ← Outcome.require metadataPath.fileName
    { kind := .invalidInput, message := "storage key contains invalid filename" }
  let raw ← t.readFile (metadataPath.withFileName (fileName ++ ".json"))
  raw.asMetadata

/-- The item of a file that `collect_files` meets. -/
def collectFile (t : StorageFiles) (metadataRoot : FsPath) (file : List String × StorageContent) :
    Except IoError StorageListItem := do
  let metadata ← t.readMetadataSync metadataRoot file.1
  return { key := keyText file.1
           size := metadata.contentLength
           etag := metadata.etag
           lastModified := metadata.updatedAt
           contentType := metadata.contentType }

def collectBucketObjects (t : StorageFiles) (bucketRoot metadataRoot : FsPath) :
    Except IoError (List StorageListItem) :=
  match t.lookup bucketRoot.names with
  | none => .ok []
  | some (.file _) => .error (ioError .notADirectory)
  | some .dir => (t.filesBelow bucketRoot.names).mapM (t.collectFile metadataRoot)

def listObjectsV2 (root : FsPath) (t : StorageFiles) (bucket : Namespace)
    (start delimiter : Option String) (maxKeys : Option Nat) (continuationToken : Option String) :
    Except IoError StorageListPage := do
  let start ← normalizeOptionalStart start
  let delimiter := normalizeOptionalDelimiter delimiter
  let continuationToken ← normalizeOptionalKey continuationToken
  let maxKeys := min (maxKeys.getD 1000) 1000
  let bucketRoot ← root.resolveBucketRoot bucket.text
  let metadataRoot ← root.metadataBucketRoot bucket.text
  let collected ← t.collectBucketObjects bucketRoot metadataRoot
  let objects := collected.mergeSort fun left right => !strLt right.key left.key
  let entries := buildListEntries objects (start.getD "") delimiter
  let filtered := entries.filter fun entry =>
    (continuationToken.map fun value => strLt value entry.token).getD true
  let isTruncated := decide (maxKeys < filtered.length)
  let page := filtered.take maxKeys
  return { objects := page.filterMap fun entry =>
             match entry with
             | .object item => some item
             | .common _ => none
           commonPrefixes := page.filterMap fun entry =>
             match entry with
             | .object _ => none
             | .common start => some start
           isTruncated := isTruncated
           nextContinuationToken :=
             if isTruncated then page.getLast?.map ListEntry.token else none }

end StorageFiles

/-! ### Operations, and what is to hold after them -/

/-- A put or a deletion of an object. -/
inductive ObjectOp where
  | put (now : String) (bucket : BucketNamespace) (key : String) (data : List UInt8)
      (contentType : Option String) (details : ObjectDetails)
  | delete (bucket : BucketNamespace) (key : String)

inductive StorageOp where
  | object (op : ObjectOp)
  | createUpload (now uploadId : String) (bucket : BucketNamespace) (key : String)
      (contentType : Option String)
  | putPart (bucket : BucketNamespace) (key uploadId : String) (partNumber : Nat)
      (data : List UInt8)
  | complete (now : String) (bucket : BucketNamespace) (key uploadId : String)
      (parts : List CompletedMultipartPart)

section Operations

variable (root : FsPath) (dg : Digests)

def ObjectOp.exec (t : StorageFiles) : ObjectOp → StorageFiles × Except IoError Unit
  | .put now bucket key data contentType details =>
      Outcome.discard (StorageFiles.putObjectWithMetadata root dg now t bucket.toNamespace key data
        contentType details)
  | .delete bucket key => StorageFiles.deleteObject root t bucket.toNamespace key

def StorageOp.exec (t : StorageFiles) : StorageOp → StorageFiles × Except IoError Unit
  | .object op => op.exec root dg t
  | .createUpload now uploadId bucket key contentType =>
      Outcome.discard (StorageFiles.createMultipartUpload root now uploadId t bucket.toNamespace key
        contentType)
  | .putPart bucket key uploadId partNumber data =>
      Outcome.discard (StorageFiles.putMultipartPart root dg t bucket.toNamespace key uploadId
        partNumber data)
  | .complete now bucket key uploadId parts =>
      Outcome.discard (StorageFiles.completeMultipartUpload root dg now t bucket.toNamespace key
        uploadId parts)

/-- The state after operations that all succeed. -/
def runStorage : StorageFiles → List StorageOp → Except IoError StorageFiles
  | t, [] => .ok t
  | t, op :: rest =>
      match op.exec root dg t with
      | (t, .ok ()) => runStorage t rest
      | (_, .error e) => .error e

end Operations

/-- Nothing is stored yet, and no file is in the way of the storage root. -/
def EmptyStorage (root : FsPath) (t : StorageFiles) : Prop :=
  (∀ q, q <+: root.names → ∀ c, t.lookup q ≠ some (.file c)) ∧
    ∀ rel, rel ≠ [] → t.lookup (root.names ++ rel) = none

/-- Every listing succeeds and what it lists can be fetched as it is listed. -/
def ListedFetchable (root : FsPath) (t : StorageFiles) (b : Namespace) : Prop :=
  ∀ start delimiter maxKeys token,
    (∃ s, normalizeOptionalStart start = .ok s) → (∃ k, normalizeOptionalKey token = .ok k) →
      ∃ page, StorageFiles.listObjectsV2 root t b start delimiter maxKeys token = .ok page ∧
        ∀ item ∈ page.objects, ∃ data metadata,
          StorageFiles.getObject root t b item.key = .ok (data, metadata) ∧
            data.length = item.size ∧ metadata.etag = item.etag

/-- The text of the components of a key. -/
def joined (parts : List String) : String := "/".intercalate parts

/-- Listed and normalised once more, a normalised key loses nothing: it has no
    backslash, and its text neither starts nor ends with white space. -/
def ReadsBack (parts : List String) : Prop :=
  (∀ part ∈ parts, '\\' ∉ part.toList) ∧ trim (joined parts) = joined parts

instance (parts : List String) : Decidable (ReadsBack parts) := inferInstanceAs (Decidable (_ ∧ _))

/-- The key under which an operation stores an object. -/
def StorageOp.storedKey : StorageOp → Option String
  | .object (.put _ _ key _ _ _) => some key
  | .complete _ _ key _ _ => (normalizeObjectKey key).toOption.map keyText
  | _ => none

/-- What an operation stores can be found under the key that is listed. -/
def StorageOp.KeyReadsBack (op : StorageOp) : Prop :=
  ∀ key parts, op.storedKey = some key → normalizeObjectKey key = .ok parts → ReadsBack parts

/-! ### Keys that read back -/

theorem length_intercalate_singleton {c : Char} {l : List (List Char)} (h : l ≠ []) :
    (List.intercalate [c] l).length + 1 = (l.map fun w => w.length + 1).sum := by
  induction l with
  | nil => exact absurd rfl h
  | cons w rest ih =>
    cases rest with
    | nil => simp
    | cons w' rest =>
      rw [List.intercalate_cons_cons, List.map_cons, List.sum_cons, ← ih (by simp)]
      simp
      omega

theorem length_intercalate_filter_le (c : Char) (p : List Char → Bool) (l : List (List Char)) :
    (List.intercalate [c] (l.filter p)).length ≤ (List.intercalate [c] l).length := by
  by_cases hnil : l.filter p = []
  · rw [hnil]
    simp
  · have hne : l ≠ [] := by
      rintro rfl
      exact hnil rfl
    have hkept := @length_intercalate_singleton c _ hnil
    have hall := @length_intercalate_singleton c _ hne
    have hsum : ((l.filter p).map fun w => w.length + 1).sum ≤ (l.map fun w => w.length + 1).sum :=
      (List.filter_sublist.map _).sum_le_sum (by simp)
    omega

/-- What is left of a text when empty and `.` parts are left out is no longer. -/
theorem length_joined_kept_le (text : String) (p : String → Bool) :
    (joined ((splitAt '/' text).filter p)).length ≤ text.length := by
  have hparts : (((splitAt '/' text).filter p).map String.toList) =
      (text.toList.splitOn '/').filter fun w => p (String.ofList w) := by
    rw [splitAt, List.filter_map, List.map_map]
    simp [Function.comp_def]
  have hle := length_intercalate_filter_le '/' (fun w => p (String.ofList w))
    (text.toList.splitOn '/')
  rw [List.intercalate_splitOn, String.length_toList] at hle
  rw [joined, ← String.length_toList, String.toList_intercalate, hparts]
  exact hle

variable {parts : List String}

theorem normalizeObjectKey_eq_ok {key : String} :
    normalizeObjectKey key = .ok parts ↔
      trimStartMatches '/' (trim key) ≠ "" ∧
        parts = (splitAt '/' (trimStartMatches '/' (trim key))).filter
          (fun part => part != "" && part != ".") ∧
        (∀ part ∈ parts, part ≠ "..") ∧ parts ≠ [] := by
  constructor
  · intro h
    unfold normalizeObjectKey at h
    obtain ⟨_, hne, h⟩ := Outcome.bind_eq_ok.mp h
    obtain ⟨_, hdots, h⟩ := Outcome.bind_eq_ok.mp h
    obtain ⟨_, hparts, hok⟩ := Outcome.bind_eq_ok.mp h
    rw [Outcome.ensure_eq_ok] at hne hdots hparts
    rw [← Except.ok.inj hok]
    refine ⟨bne_iff_ne.mp hne, rfl, ?_, by simpa using hparts⟩
    intro part hpart
    exact bne_iff_ne.mp (List.all_eq_true.mp hdots part hpart)
  · rintro ⟨hne, hparts, hdots, hnonempty⟩
    unfold normalizeObjectKey
    simp only
    rw [← hparts, bne_iff_ne.mpr hne, Outcome.ensure_true, Outcome.ok_bind]
    have hall : (parts.all fun part => part != "..") = true :=
      List.all_eq_true.mpr fun part hpart => bne_iff_ne.mpr (hdots part hpart)
    have hsome : (!parts.isEmpty) = true := by simpa using hnonempty
    rw [hall, hsome]
    rfl

theorem keyText_eq_joined (h : ∀ part ∈ parts, '\\' ∉ part.toList) :
    keyText parts = joined parts := by
  have hno : ∀ c ∈ (joined parts).toList, c ≠ '\\' := by
    intro c hc
    rw [joined, String.toList_intercalate] at hc
    rintro rfl
    rcases mem_intercalate_singleton hc with heq | ⟨w, hw, hmem⟩
    · exact absurd heq (by decide)
    · obtain ⟨part, hpart, rfl⟩ := List.mem_map.mp hw
      exact h part hpart hmem
  have hmap : (joined parts).toList.map (fun c => if c == '\\' then '/' else c) =
      (joined parts).toList := by
    rw [List.map_congr_left (g := id) (fun c hc => by simp [hno c hc]), List.map_id]
  rw [keyText, ← joined, hmap, String.ofList_toList]

theorem backslash_not_mem_keyText (parts : List String) : '\\' ∉ (keyText parts).toList := by
  rw [keyText, String.toList_ofList, List.mem_map]
  rintro ⟨c, -, hc⟩
  split at hc
  · exact absurd hc (by decide)
  · rename_i hne
    exact hne (by rw [hc]; rfl)

/-- **A key reads back** exactly when nothing of its text is lost. -/
theorem normalizeObjectKey_keyText_iff {key : String} (h : normalizeObjectKey key = .ok parts) :
    normalizeObjectKey (keyText parts) = .ok parts ↔
      ReadsBack parts := by
  constructor
  · intro hback
    obtain ⟨-, hparts, -, -⟩ := normalizeObjectKey_eq_ok.mp hback
    have hno : ∀ part ∈ parts, '\\' ∉ part.toList := by
      intro part hpart hmem
      rw [hparts] at hpart
      have htext := mem_of_mem_splitAt (List.mem_of_mem_filter hpart) hmem
      rw [trimStartMatches, String.toList_ofList] at htext
      have htrimmed := mem_of_mem_trim ((List.dropWhile_sublist _).subset htext)
      exact backslash_not_mem_keyText parts htrimmed
    refine ⟨hno, ?_⟩
    apply trim_eq_self_of_length
    rw [keyText_eq_joined hno] at hparts
    have hle := length_joined_kept_le (trimStartMatches '/' (trim (joined parts)))
      (fun part => part != "" && part != ".")
    rw [← hparts] at hle
    refine hle.trans ?_
    rw [trimStartMatches, String.length_ofList, ← String.length_toList]
    exact (List.dropWhile_suffix _).length_le
  · rintro ⟨hno, htrim⟩
    obtain ⟨hne, hnames⟩ := normalizeObjectKey_ok h
    have hsplit : splitAt '/' (joined parts) = parts := by
      apply splitAt_intercalate
      · exact fun part hpart => (hnames part hpart).no_slash
      · exact hne
    -- the text starts with a name
    have hstart : trimStartMatches '/' (joined parts) = joined parts := by
      cases hchars : (joined parts).toList with
      | nil => rw [trimStartMatches, hchars, List.dropWhile_nil, ← hchars, String.ofList_toList]
      | cons c rest =>
        have hc : ¬ (c == '/') = true := by
          intro hc
          rw [splitAt, hchars, List.splitOn_cons_eq_if_modifyHead, if_pos hc,
            List.map_cons] at hsplit
          refine (hnames "" ?_).ne_empty rfl
          rw [← hsplit]
          exact List.mem_cons_self
        rw [trimStartMatches, hchars, List.dropWhile_cons, if_neg hc, ← hchars,
          String.ofList_toList]
    rw [keyText_eq_joined hno, normalizeObjectKey_eq_ok, htrim, hstart, hsplit]
    refine ⟨?_, ?_, fun part hpart => (hnames part hpart).ne_parentDir, hne⟩
    · intro hempty
      rw [hempty] at hsplit
      refine (hnames "" ?_).ne_empty rfl
      rw [← hsplit]
      exact List.mem_cons_self
    · rw [eq_comm, List.filter_eq_self]
      intro part hpart
      rw [Bool.and_eq_true, bne_iff_ne, bne_iff_ne]
      exact ⟨(hnames part hpart).ne_empty, (hnames part hpart).ne_curDir⟩

/-! ### What a listing consists of -/

theorem mem_buildListEntries {objects : List StorageListItem} {start : String}
    {delimiter : Option String} {item : StorageListItem}
    (h : ListEntry.object item ∈ buildListEntries objects start delimiter) : item ∈ objects := by
  rw [buildListEntries, List.mem_mergeSort, List.mem_append, List.mem_map, List.mem_map] at h
  rcases h with ⟨item', hmem, heq⟩ | ⟨start', -, heq⟩
  · cases heq
    exact List.mem_of_mem_filter (List.mem_of_mem_filter hmem)
  · cases heq

theorem mem_buildListEntries_plain {objects : List StorageListItem} {entry : ListEntry} :
    entry ∈ buildListEntries objects "" none ↔ ∃ item ∈ objects, entry = .object item := by
  have hstart : ∀ item, commonStart "" none item = none := fun _ => rfl
  rw [buildListEntries, List.mem_mergeSort]
  simp only [hstart, List.mem_append, List.mem_map, List.mem_filter, List.mem_dedup,
    List.mem_filterMap]
  constructor
  · rintro (⟨item, ⟨⟨hmem, -⟩, -⟩, rfl⟩ | ⟨start, ⟨item, -, hnone⟩, -⟩)
    · exact ⟨item, hmem, rfl⟩
    · cases hnone
  · rintro ⟨item, hmem, rfl⟩
    exact .inl ⟨item, ⟨⟨hmem, by simp⟩, rfl⟩, rfl⟩

namespace StorageFiles

section Served

variable {root : FsPath} {b : BucketNamespace} {t : StorageFiles}

theorem resolveBucketRoot_served :
    ∃ path, root.resolveBucketRoot b.text = .ok path ∧
      path.names = treePath root .objects b.toNamespace [] := by
  refine ⟨_, bucketRootIn_sdkBucket b.served [], ?_⟩
  rw [FsPath.names_joinNames, treePath, List.append_nil]
  rfl

theorem metadataBucketRoot_served :
    root.metadataBucketRoot b.text = .ok (root.bucketTree .metadata b.appId b.bucket) :=
  bucketRootIn_sdkBucket b.served [METADATA_ROOT_DIR]

theorem readMetadataSync_eq_ok {parts : List String} (hne : parts ≠ []) {m : ObjectMetadata} :
    t.readMetadataSync (root.bucketTree .metadata b.appId b.bucket) parts = .ok m ↔
      t.contentAt (metadataFile root b.toNamespace parts) = some (.metadata m) := by
  obtain ⟨init, last, rfl⟩ := (List.eq_nil_or_concat' parts).resolve_left hne
  have hfile : ((root.bucketTree .metadata b.appId b.bucket).joinNames (init ++ [last])).fileName =
      some last := FsPath.fileName_joinNames _ init last
  have hpath : ((root.bucketTree .metadata b.appId b.bucket).joinNames
      (init ++ [last])).withFileName
      (last ++ ".json") =
        (root.bucketTree .metadata b.appId b.bucket).joinNames (init ++ [last ++ ".json"]) :=
    FsPath.withFileName_joinNames _ init last _
  unfold readMetadataSync
  simp only
  rw [hfile, Outcome.require_some, Outcome.ok_bind, hpath, readFile, names_bucketTree, metadataFile,
    withJson_concat]
  simp only [Outcome.bind_eq_ok, Outcome.mapError_eq_ok, FileTree.read_eq_ok_iff,
    StorageContent.asMetadata_eq_ok]
  constructor
  · rintro ⟨raw, hraw, rfl⟩
    exact hraw
  · intro hraw
    exact ⟨_, hraw, rfl⟩

theorem listObjectsV2_of_collected {items : List StorageListItem} {bucketRoot : FsPath}
    (hroot : root.resolveBucketRoot b.text = .ok bucketRoot)
    (hcollect : t.collectBucketObjects bucketRoot (root.bucketTree .metadata b.appId b.bucket) =
      .ok items) {start delimiter : Option String} {maxKeys : Option Nat} {token : Option String}
    (hstart : ∃ s, normalizeOptionalStart start = .ok s)
    (htoken : ∃ k, normalizeOptionalKey token = .ok k) :
    ∃ page, listObjectsV2 root t b.toNamespace start delimiter maxKeys token = .ok page ∧
      ∀ item ∈ page.objects, item ∈ items := by
  obtain ⟨s, hstart⟩ := hstart
  obtain ⟨k, htoken⟩ := htoken
  refine ⟨_, by
    rw [listObjectsV2, hstart, Outcome.ok_bind, htoken, Outcome.ok_bind, hroot, Outcome.ok_bind,
      metadataBucketRoot_served, Outcome.ok_bind, hcollect, Outcome.ok_bind]
    rfl, ?_⟩
  intro item hitem
  obtain ⟨entry, hentry, heq⟩ := List.mem_filterMap.mp hitem
  cases entry with
  | common start => cases heq
  | object item' =>
    cases heq
    have hmem := mem_buildListEntries (List.mem_of_mem_filter (List.mem_of_mem_take hentry))
    exact List.mem_mergeSort.mp hmem

end Served

/-! ### Objects with their metadata -/

/-- Every object has its metadata, which gives its length. -/
def ObjectsKept (root : FsPath) (t : StorageFiles) : Prop :=
  ∀ (b : BucketNamespace) parts c, t.contentAt (objectFile root b.toNamespace parts) = some c →
    parts ≠ [] ∧ ∃ data m, c = .bytes data ∧
      t.contentAt (metadataFile root b.toNamespace parts) = some (.metadata m) ∧
        m.contentLength = data.length

/-- Every object lies where the text of its name leads. -/
def ObjectsReadBack (root : FsPath) (t : StorageFiles) : Prop :=
  ∀ (b : BucketNamespace) parts c, t.contentAt (objectFile root b.toNamespace parts) = some c →
    normalizeObjectKey (keyText parts) = .ok parts

section Kept

variable {root : FsPath} {b : BucketNamespace} {t t' : StorageFiles}

/-- The item that is listed for an object. -/
def itemOf (parts : List String) (m : ObjectMetadata) : StorageListItem :=
  { key := keyText parts, size := m.contentLength, etag := m.etag, lastModified := m.updatedAt
    contentType := m.contentType }

theorem collectBucketObjects_kept (hkept : ObjectsKept root t) {bucketRoot : FsPath}
    (hroot : bucketRoot.names = treePath root .objects b.toNamespace []) :
    ∃ items, t.collectBucketObjects bucketRoot (root.bucketTree .metadata b.appId b.bucket) =
        .ok items ∧
      ∀ item ∈ items, ∃ parts data m,
        t.contentAt (objectFile root b.toNamespace parts) = some (.bytes data) ∧
          t.contentAt (metadataFile root b.toNamespace parts) = some (.metadata m) ∧
            m.contentLength = data.length ∧ item = itemOf parts m := by
  have hpath : ∀ parts, bucketRoot.names ++ parts = objectFile root b.toNamespace parts := by
    intro parts
    rw [hroot, objectFile, treePath, treePath, List.append_nil, List.append_assoc]
  unfold collectBucketObjects
  split
  · exact ⟨[], rfl, by simp⟩
  · rename_i c hfile
    have hcontent : t.contentAt (objectFile root b.toNamespace []) = some c := by
      rw [← hpath, List.append_nil]
      exact FileTree.contentAt_eq_some.mpr hfile
    exact absurd rfl (hkept b [] c hcontent).1
  · have hfile : ∀ file ∈ t.filesBelow bucketRoot.names, ∃ data m,
        t.contentAt (objectFile root b.toNamespace file.1) = some (.bytes data) ∧
          t.contentAt (metadataFile root b.toNamespace file.1) = some (.metadata m) ∧
            m.contentLength = data.length ∧
              t.collectFile (root.bucketTree .metadata b.appId b.bucket) file =
                .ok (itemOf file.1 m) := by
      rintro ⟨parts, c⟩ hmem
      rw [FileTree.mem_filesBelow_iff, hpath] at hmem
      obtain ⟨hne, data, m, rfl, hm, hlength⟩ := hkept b parts c hmem
      refine ⟨data, m, hmem, hm, hlength, ?_⟩
      rw [collectFile, (readMetadataSync_eq_ok hne).mpr hm]
      rfl
    have hitem : ∀ file ∈ t.filesBelow bucketRoot.names, ∃ item,
        t.collectFile (root.bucketTree .metadata b.appId b.bucket) file = .ok item := by
      intro file hmem
      obtain ⟨_, m, _, _, _, hok⟩ := hfile file hmem
      exact ⟨itemOf file.1 m, hok⟩
    obtain ⟨items, hitems, -⟩ := Outcome.mapM_of_forall hitem
    refine ⟨items, hitems, ?_⟩
    intro item hitem
    obtain ⟨file, hmem, hok⟩ := Outcome.exists_of_mem_mapM hitems item hitem
    obtain ⟨data, m, hdata, hm, hlength, hok'⟩ := hfile file hmem
    rw [hok'] at hok
    exact ⟨file.1, data, m, hdata, hm, hlength, (Except.ok.inj hok).symm⟩

theorem listObjectsV2_kept (hkept : ObjectsKept root t) {start delimiter : Option String}
    {maxKeys : Option Nat} {token : Option String}
    (hstart : ∃ s, normalizeOptionalStart start = .ok s)
    (htoken : ∃ k, normalizeOptionalKey token = .ok k) :
    ∃ page, listObjectsV2 root t b.toNamespace start delimiter maxKeys token = .ok page ∧
      ∀ item ∈ page.objects, ∃ parts data m,
        t.contentAt (objectFile root b.toNamespace parts) = some (.bytes data) ∧
          t.contentAt (metadataFile root b.toNamespace parts) = some (.metadata m) ∧
            m.contentLength = data.length ∧ item = itemOf parts m := by
  obtain ⟨bucketRoot, hresolve, hroot⟩ := @resolveBucketRoot_served root b
  obtain ⟨items, hcollect, hitems⟩ := @collectBucketObjects_kept root b t hkept bucketRoot hroot
  obtain ⟨page, hlist, hpage⟩ := @listObjectsV2_of_collected root b t items bucketRoot hresolve
    hcollect start delimiter maxKeys token hstart htoken
  exact ⟨page, hlist, fun item hitem => hitems item (hpage item hitem)⟩

/-- **Where every object has its metadata and lies where its listed key leads**, what
    is listed can be fetched. -/
theorem listedFetchable_of_kept (hkept : ObjectsKept root t) (hback : ObjectsReadBack root t) :
    ListedFetchable root t b.toNamespace := by
  intro start delimiter maxKeys token hstart htoken
  obtain ⟨page, hlist, hpage⟩ := @listObjectsV2_kept root b t hkept start delimiter maxKeys token
    hstart htoken
  refine ⟨page, hlist, ?_⟩
  intro item hitem
  obtain ⟨parts, data, m, hdata, hm, hlength, rfl⟩ := hpage item hitem
  exact ⟨data, m, (getObject_eq_ok root b (hback b parts _ hdata)).mpr ⟨hdata, hm⟩, hlength.symm,
    rfl⟩

variable {b' : BucketNamespace} {parts parts' : List String}

theorem objectFile_inj :
    objectFile root b'.toNamespace parts' = objectFile root b.toNamespace parts ↔
      b'.toNamespace = b.toNamespace ∧ parts' = parts := by
  rw [objectFile, objectFile, treePath_inj, and_iff_right rfl]

theorem metadataFile_inj (hne : parts ≠ []) (hne' : parts' ≠ []) :
    metadataFile root b'.toNamespace parts' = metadataFile root b.toNamespace parts ↔
      b'.toNamespace = b.toNamespace ∧ parts' = parts := by
  rw [metadataFile, metadataFile, treePath_inj, and_iff_right rfl]
  constructor
  · rintro ⟨hb, hparts⟩
    exact ⟨hb, withJson_injective hne' hne hparts⟩
  · rintro ⟨hb, rfl⟩
    exact ⟨hb, rfl⟩

theorem objectFile_ne_metadataFile :
    objectFile root b'.toNamespace parts' ≠ metadataFile root b.toNamespace parts := by
  rw [objectFile, metadataFile, Ne, treePath_inj]
  rintro ⟨⟨htree, -⟩, -⟩
  cases htree

theorem contentAt_other {b' : BucketNamespace} {parts parts' : List String} (hne : parts ≠ [])
    {c m : Option StorageContent}
    (hcontent : t'.contentAt = Function.update
      (Function.update t.contentAt (objectFile root b.toNamespace parts) c)
      (metadataFile root b.toNamespace parts) m)
    (hother : ¬ (b'.toNamespace = b.toNamespace ∧ parts' = parts)) :
    t'.contentAt (objectFile root b'.toNamespace parts') =
        t.contentAt (objectFile root b'.toNamespace parts') ∧
      (parts' ≠ [] → t'.contentAt (metadataFile root b'.toNamespace parts') =
        t.contentAt (metadataFile root b'.toNamespace parts')) := by
  rw [hcontent]
  refine ⟨?_, ?_⟩
  · rw [Function.update_of_ne objectFile_ne_metadataFile, Function.update_of_ne]
    rwa [Ne, objectFile_inj]
  · intro hne'
    rw [Function.update_of_ne, Function.update_of_ne objectFile_ne_metadataFile.symm]
    rwa [Ne, metadataFile_inj hne hne']

theorem contentAt_object {c m : Option StorageContent} (hcontent : t'.contentAt = Function.update
      (Function.update t.contentAt (objectFile root b.toNamespace parts) c)
      (metadataFile root b.toNamespace parts) m) :
    t'.contentAt (objectFile root b.toNamespace parts) = c := by
  rw [hcontent, Function.update_of_ne objectFile_ne_metadataFile, Function.update_self]

theorem ObjectsKept.stored (hkept : ObjectsKept root t) {parts : List String} (hne : parts ≠ [])
    {data : List UInt8} {m : ObjectMetadata} (hlength : m.contentLength = data.length)
    (hcontent : t'.contentAt = Function.update
      (Function.update t.contentAt (objectFile root b.toNamespace parts) (some (.bytes data)))
      (metadataFile root b.toNamespace parts) (some (.metadata m))) : ObjectsKept root t' := by
  intro b' parts' c hc
  by_cases hsame : b'.toNamespace = b.toNamespace ∧ parts' = parts
  · obtain ⟨hb, rfl⟩ := hsame
    rw [hb] at hc ⊢
    rw [contentAt_object hcontent] at hc
    refine ⟨hne, data, m, (Option.some.inj hc).symm, ?_, hlength⟩
    rw [hcontent, Function.update_self]
  · obtain ⟨hobject, hmetadata⟩ := contentAt_other hne hcontent hsame
    rw [hobject] at hc
    obtain ⟨hne', data', m', hdata, hm, hlength'⟩ := hkept b' parts' c hc
    exact ⟨hne', data', m', hdata, (hmetadata hne').trans hm, hlength'⟩

theorem ObjectsKept.removed (hkept : ObjectsKept root t) (hne : parts ≠ [])
    (hcontent : t'.contentAt = Function.update
      (Function.update t.contentAt (objectFile root b.toNamespace parts) none)
      (metadataFile root b.toNamespace parts) none) : ObjectsKept root t' := by
  intro b' parts' c hc
  by_cases hsame : b'.toNamespace = b.toNamespace ∧ parts' = parts
  · obtain ⟨hb, rfl⟩ := hsame
    rw [hb, contentAt_object hcontent] at hc
    cases hc
  · obtain ⟨hobject, hmetadata⟩ := contentAt_other hne hcontent hsame
    rw [hobject] at hc
    obtain ⟨hne', data', m', hdata, hm, hlength'⟩ := hkept b' parts' c hc
    exact ⟨hne', data', m', hdata, (hmetadata hne').trans hm, hlength'⟩

theorem ObjectsKept.elsewhere (hkept : ObjectsKept root t) (h : KeepsObjects root t t') :
    ObjectsKept root t' := by
  intro b' parts c hc
  rw [objectFile, h _ (by decide)] at hc
  obtain ⟨hne, data, m, hdata, hm, hlength⟩ := hkept b' parts c hc
  exact ⟨hne, data, m, hdata, (h _ (by decide) b' _).trans hm, hlength⟩

theorem ObjectsReadBack.changed (hback : ObjectsReadBack root t)
    (hne : parts ≠ []) {c m : Option StorageContent}
    (hreads : c ≠ none → normalizeObjectKey (keyText parts) = .ok parts)
    (hcontent : t'.contentAt = Function.update
      (Function.update t.contentAt (objectFile root b.toNamespace parts) c)
      (metadataFile root b.toNamespace parts) m) : ObjectsReadBack root t' := by
  intro b' parts' c' hc
  by_cases hsame : b'.toNamespace = b.toNamespace ∧ parts' = parts
  · obtain ⟨hb, rfl⟩ := hsame
    rw [hb, contentAt_object hcontent] at hc
    exact hreads (by rw [hc]; simp)
  · rw [(contentAt_other hne hcontent hsame).1] at hc
    exact hback b' parts' c' hc

theorem ObjectsReadBack.elsewhere (hback : ObjectsReadBack root t) (h : KeepsObjects root t t') :
    ObjectsReadBack root t' := by
  intro b' parts c hc
  rw [objectFile, h _ (by decide)] at hc
  exact hback b' parts c hc

end Kept

section Runs

variable {root : FsPath} {dg : Digests} {t t' : StorageFiles}

/-- **Step lemma.**  What was kept and lay where its key leads still does after an
    operation that succeeds under a key that reads back. -/
theorem exec_kept {op : StorageOp} (h : op.exec root dg t = (t', .ok ()))
    (hreads : op.KeyReadsBack) (hkept : ObjectsKept root t) (hback : ObjectsReadBack root t) :
    ObjectsKept root t' ∧ ObjectsReadBack root t' := by
  cases op with
  | object op =>
    cases op with
    | put now b key data contentType details =>
      rw [StorageOp.exec, ObjectOp.exec] at h
      obtain ⟨m, hput⟩ := Outcome.discard_eq_ok.mp h
      obtain ⟨parts, hkey⟩ := normalizeObjectKey_of_put dg now (congrArg Prod.snd hput)
      have hne := (normalizeObjectKey_ok hkey).1
      have houtcome := putObject_outcome root dg now b t hkey data contentType details
      rw [hput] at houtcome
      have hback' := (normalizeObjectKey_keyText_iff hkey).mpr (hreads key parts rfl hkey)
      cases houtcome with
      | stored _ hlength hcontent =>
        exact ⟨hkept.stored hne hlength hcontent,
          hback.changed hne (fun _ => hback') hcontent⟩
    | delete b key =>
      rw [StorageOp.exec, ObjectOp.exec] at h
      obtain ⟨parts, hkey⟩ := normalizeObjectKey_of_delete (congrArg Prod.snd h)
      have hne := (normalizeObjectKey_ok hkey).1
      rcases deleteObject_outcome root b t hkey with
        ⟨e, herror⟩ | ⟨t₁, hok, hcontent⟩ | ⟨-, -, t₁, e, herror⟩
      · rw [h] at herror
        cases herror
      · rw [h] at hok
        cases hok
        exact ⟨hkept.removed hne hcontent, hback.changed hne (fun hnone => absurd rfl hnone)
          hcontent⟩
      · rw [h] at herror
        cases herror
  | createUpload now uploadId b key contentType =>
    rw [StorageOp.exec] at h
    obtain ⟨upload, hcreate⟩ := Outcome.discard_eq_ok.mp h
    have helse := @createMultipartUpload_keepsObjects root now b uploadId t key contentType
    rw [hcreate] at helse
    exact ⟨hkept.elsewhere helse, hback.elsewhere helse⟩
  | putPart b key uploadId partNumber data =>
    rw [StorageOp.exec] at h
    obtain ⟨part, hput⟩ := Outcome.discard_eq_ok.mp h
    have helse := @putMultipartPart_keepsObjects root dg b t key uploadId partNumber data
    rw [hput] at helse
    exact ⟨hkept.elsewhere helse, hback.elsewhere helse⟩
  | complete now b key uploadId parts =>
    rw [StorageOp.exec] at h
    obtain ⟨m, hcomplete⟩ := Outcome.discard_eq_ok.mp h
    obtain ⟨requested, stored, data, t₁, hkey, hstored, hlength, hcontent, helse⟩ :=
      completeMultipartUpload_ok dg now (congrArg Prod.snd hcomplete)
    rw [hcomplete] at helse
    have hne := (normalizeObjectKey_ok hstored).1
    have hsame : (StorageOp.complete now b key uploadId parts).storedKey =
        some (keyText requested) := by
      rw [StorageOp.storedKey, hkey]
      rfl
    have hkept₁ := hkept.stored hne hlength hcontent
    have hback₁ := hback.changed hne (fun _ =>
      (normalizeObjectKey_keyText_iff hstored).mpr (hreads _ stored hsame hstored)) hcontent
    exact ⟨hkept₁.elsewhere helse, hback₁.elsewhere helse⟩

/-- **Run lemma.** -/
theorem runStorage_kept {ops : List StorageOp} :
    ∀ {t : StorageFiles}, runStorage root dg t ops = .ok t' → (∀ op ∈ ops, op.KeyReadsBack) →
      ObjectsKept root t → ObjectsReadBack root t → ObjectsKept root t' ∧
        ObjectsReadBack root t' := by
  induction ops with
  | nil =>
    intro t h _ hkept hback
    rw [← Except.ok.inj h]
    exact ⟨hkept, hback⟩
  | cons op rest ih =>
    intro t h hreads hkept hback
    rw [List.forall_mem_cons] at hreads
    rw [runStorage] at h
    split at h
    · rename_i t₁ hexec
      obtain ⟨hkept₁, hback₁⟩ := exec_kept hexec hreads.1 hkept hback
      exact ih h hreads.2 hkept₁ hback₁
    · cases h

end Runs

end StorageFiles

open StorageFiles

/-! ### The empty storage -/

section Empty

variable {root : FsPath} {t : StorageFiles}

theorem EmptyStorage.contentAt_none (h : EmptyStorage root t) (tree : StorageTree)
    (b : BucketNamespace) (rel : List String) :
    t.contentAt (treePath root tree b.toNamespace rel) = none := by
  rw [FileTree.contentAt, treePath, h.2 _ (by simp)]

theorem EmptyStorage.kept (h : EmptyStorage root t) :
    ObjectsKept root t ∧ ObjectsReadBack root t := by
  refine ⟨?_, ?_⟩
  · intro b parts c hc
    rw [objectFile, h.contentAt_none] at hc
    cases hc
  · intro b parts c hc
    rw [objectFile, h.contentAt_none] at hc
    cases hc

variable {parts : List String}

theorem EmptyStorage.put_ok (h : EmptyStorage root t) (dg : Digests) (now : String)
    (b : BucketNamespace) {key : String}
    (hkey : normalizeObjectKey key = .ok parts) (data : List UInt8) (contentType : Option String)
    (details : ObjectDetails) :
    ∃ t' m, putObjectWithMetadata root dg now t b.toNamespace key data contentType details =
        (t', .ok m) ∧
      m.contentLength = data.length ∧
      t'.contentAt = Function.update
        (Function.update t.contentAt (objectFile root b.toNamespace parts) (some (.bytes data)))
        (metadataFile root b.toNamespace parts) (some (.metadata m)) := by
  have hfree : ∀ tree rel q, q <+: (treePath root tree b.toNamespace rel).dropLast →
      ¬ ∃ c, t.lookup q = some (.file c) := by
    rintro tree rel q hq ⟨c, hc⟩
    have hq' : q <+: treePath root tree b.toNamespace rel := hq.trans (List.dropLast_prefix _)
    rcases List.prefix_or_prefix_of_prefix hq' (List.prefix_append root.names _) with
      habove | ⟨below, rfl⟩
    · exact h.1 q habove c hc
    · by_cases hbelow : below = []
      · subst hbelow
        exact h.1 _ (by simp) c hc
      · rw [h.2 below hbelow] at hc
        cases hc
  have hnone : ∀ tree rel, t.lookup (treePath root tree b.toNamespace rel) = none := by
    intro tree rel
    rw [treePath, h.2 _ (by simp)]
  have houtcome := putObject_outcome root dg now b t hkey data contentType details
  generalize putObjectWithMetadata root dg now t b.toNamespace key data contentType details = r
    at houtcome ⊢
  cases houtcome with
  | stored _ hlength hcontent => exact ⟨_, _, rfl, hlength, hcontent⟩
  | refused hblocked _ =>
    rcases hblocked with ⟨q, hq, hc⟩ | ⟨q, hq, hc⟩ | hdir
    · exact absurd hc (hfree _ _ q hq)
    · exact absurd hc (hfree _ _ q hq)
    · rw [objectFile, hnone] at hdir
      cases hdir
  | torn htorn _ =>
    obtain ⟨hdir, -, -⟩ := htorn
    rw [metadataFile, hnone] at hdir
    cases hdir

theorem listed_of_stored {b : BucketNamespace} {c : StorageContent} (hkept : ObjectsKept root t)
    (hstored : t.contentAt (objectFile root b.toNamespace parts) = some c) :
    ∃ page item, listObjectsV2 root t b.toNamespace none none none none = .ok page ∧
      item ∈ page.objects := by
  obtain ⟨bucketRoot, hresolve, hroot⟩ := @resolveBucketRoot_served root b
  obtain ⟨items, hcollect, -⟩ := @collectBucketObjects_kept root b t hkept bucketRoot hroot
  have hpath : bucketRoot.names ++ parts = objectFile root b.toNamespace parts := by
    rw [hroot, objectFile, treePath, treePath, List.append_nil, List.append_assoc]
  have hne : items ≠ [] := by
    rw [← hpath] at hstored
    have hdir : t.lookup bucketRoot.names = some .dir := by
      refine FileTree.lookup_above (FileTree.contentAt_eq_some.mp hstored) ⟨parts, rfl⟩ ?_
      intro heq
      rw [hpath] at hstored
      refine (hkept b parts c hstored).1 ?_
      rw [← List.append_right_inj bucketRoot.names, ← heq, List.append_nil]
    rw [collectBucketObjects, hdir] at hcollect
    simp only at hcollect
    rintro rfl
    have hlength := Outcome.map_mapM (g := fun _ => ()) (h := fun _ => ()) (fun _ _ _ =>
      rfl) hcollect
    rw [List.map_nil, eq_comm, List.map_eq_nil_iff] at hlength
    have hmem := FileTree.mem_filesBelow_iff.mpr hstored
    rw [hlength] at hmem
    cases hmem
  -- the first entry is an object, for there is no delimiter
  obtain ⟨some_, rest, hitems⟩ := List.exists_cons_of_ne_nil hne
  obtain ⟨first, others, hfirst⟩ := List.exists_cons_of_ne_nil (l := buildListEntries
      (items.mergeSort fun left right => !strLt right.key left.key) "" none) (by
    refine List.ne_nil_of_mem (mem_buildListEntries_plain.mpr ⟨some_, ?_, rfl⟩)
    rw [List.mem_mergeSort, hitems]
    exact List.mem_cons_self)
  obtain ⟨item, -, rfl⟩ := mem_buildListEntries_plain.mp (hfirst ▸ List.mem_cons_self)
  refine ⟨_, item, by
    rw [listObjectsV2, metadataBucketRoot_served, hresolve]
    simp only [normalizeOptionalStart, normalizeOptionalKey, Option.filter_none, Outcome.ok_bind,
      hcollect]
    rfl, ?_⟩
  refine List.mem_filterMap.mpr ⟨.object item, ?_, rfl⟩
  simp [normalizeOptionalDelimiter, hfirst]

/-- **A key that does not read back** is accepted, and the object it stores is listed
    under a key that fetches nothing. -/
theorem not_listedFetchable_of_put {b : BucketNamespace} {t' : StorageFiles}
    {data : List UInt8} {m : ObjectMetadata} (h : EmptyStorage root t) (hne : parts ≠ [])
    (hreads : normalizeObjectKey (keyText parts) ≠ .ok parts)
    (hlength : m.contentLength = data.length) (hcontent : t'.contentAt = Function.update
      (Function.update t.contentAt (objectFile root b.toNamespace parts) (some (.bytes data)))
      (metadataFile root b.toNamespace parts) (some (.metadata m))) :
    ¬ ListedFetchable root t' b.toNamespace := by
  intro hall
  have hkept : ObjectsKept root t' := h.kept.1.stored hne hlength hcontent
  have hobject := contentAt_object hcontent
  -- there is no other object
  have honly : ∀ parts' c, t'.contentAt (objectFile root b.toNamespace parts') = some c →
      parts' = parts := by
    intro parts' c hc
    by_contra hother
    obtain ⟨hobject', -⟩ := @contentAt_other root b t t' b parts parts' hne _ _ hcontent
      fun hsame => hother hsame.2
    rw [hobject', objectFile, h.contentAt_none] at hc
    cases hc
  obtain ⟨page, item, hlist, hitem⟩ := listed_of_stored hkept hobject
  obtain ⟨page', hlist', hfetch⟩ := hall none none none none ⟨_, rfl⟩ ⟨_, rfl⟩
  obtain ⟨page'', hlist'', hstored⟩ := @listObjectsV2_kept root b t' hkept none none none none
    ⟨_, rfl⟩ ⟨_, rfl⟩
  rw [hlist, Except.ok.injEq] at hlist' hlist''
  subst hlist' hlist''
  obtain ⟨parts', _, m', hdata, -, -, rfl⟩ := hstored item hitem
  obtain rfl := honly parts' _ hdata
  obtain ⟨fetched, metadata, hget, -⟩ := hfetch _ hitem
  -- what the listed key leads to is not where the object lies
  have hkey : ∃ found, normalizeObjectKey (keyText parts') = .ok found := by
    obtain ⟨path, hresolve, -⟩ := Outcome.bind_eq_ok.mp hget
    exact normalizeObjectKey_of_resolve hresolve
  obtain ⟨found, hfound⟩ := hkey
  obtain ⟨hbytes, -⟩ := (getObject_eq_ok root b hfound).mp hget
  rw [honly found _ hbytes] at hfound
  exact hreads hfound

end Empty

/-- **Listed objects can be fetched** after every run of operations that succeed under
    keys that read back; and every other key a put accepts makes an object that is
    listed and cannot be fetched. -/
theorem listed_fetchable_where_keys_read_back (root : FsPath) (dg : Digests) :
    (∀ t₀ ops t, EmptyStorage root t₀ → (∀ op ∈ ops, op.KeyReadsBack) →
      runStorage root dg t₀ ops = .ok t → ∀ b : BucketNamespace,
        ListedFetchable root t b.toNamespace) ∧
    ∀ t₀ (b : BucketNamespace) key parts, EmptyStorage root t₀ →
      normalizeObjectKey key = .ok parts → ¬ ReadsBack parts →
        ∀ now data contentType details, ∃ t,
          runStorage root dg t₀ [.object (.put now b key data contentType details)] = .ok t ∧
            ¬ ListedFetchable root t b.toNamespace := by
  refine ⟨?_, ?_⟩
  · intro t₀ ops t hempty hreads hrun b
    obtain ⟨hkept₀, hback₀⟩ := hempty.kept
    obtain ⟨hkept, hback⟩ := runStorage_kept hrun hreads hkept₀ hback₀
    exact listedFetchable_of_kept hkept hback
  · intro t₀ b key parts hempty hkey hreads now data contentType details
    obtain ⟨t, m, hput, hlength, hcontent⟩ := hempty.put_ok dg now b hkey data contentType details
    refine ⟨t, ?_, ?_⟩
    · rw [runStorage, StorageOp.exec, ObjectOp.exec, Outcome.discard_eq_ok.mpr ⟨m, hput⟩]
      rfl
    · refine not_listedFetchable_of_put hempty (normalizeObjectKey_ok hkey).1 ?_ hlength hcontent
      rwa [Ne, normalizeObjectKey_keyText_iff hkey]

/-! ### A backslash in a key -/

def avatarsNamespace : BucketNamespace where
  appId := DEFAULT_APP_ID
  bucket := "avatars"
  served := servedBucket_avatars

/-- Digests that tell lengths apart. -/
def lengthDigests : Digests where
  sha256Etag data := toString data.length
  partEtag data := toString data.length
  compositeEtag etags := toString etags.length

def putOne (key : String) : StorageOp :=
  .object (.put "2025-01-01T00:00:00+00:00" avatarsNamespace key [1, 2, 3] none {})

theorem emptyStorage_empty (root : FsPath) : EmptyStorage root FileTree.empty := by
  refine ⟨?_, ?_⟩
  · intro q _ c
    rw [FileTree.lookup_empty]
    split
    · simp
    · simp
  · intro rel hrel
    rw [FileTree.lookup_empty, if_neg (by simp [hrel])]

/-- The object `a\b` is stored and listed as `a/b`, under which there is nothing. -/
theorem backslash_key_not_fetched :
    ∃ t, runStorage dataRoot lengthDigests FileTree.empty [putOne "a\\b"] = .ok t ∧
      ¬ ListedFetchable dataRoot t avatarsNamespace.toNamespace := by
  have hkey : normalizeObjectKey "a\\b" = .ok ["a\\b"] := by decide +kernel
  obtain ⟨t, m, hput, hlength, hcontent⟩ := (emptyStorage_empty dataRoot).put_ok lengthDigests
    "2025-01-01T00:00:00+00:00" avatarsNamespace hkey [1, 2, 3] none {}
  refine ⟨t, ?_, ?_⟩
  · rw [putOne, runStorage, StorageOp.exec, ObjectOp.exec, Outcome.discard_eq_ok.mpr ⟨m, hput⟩]
    rfl
  · refine not_listedFetchable_of_put (emptyStorage_empty dataRoot) (by simp) ?_ hlength hcontent
    decide +kernel

/-- Both halves at a key of each kind. -/
theorem plain_key_fetched :
    (∃ t, runStorage dataRoot lengthDigests FileTree.empty [putOne "a/b.txt"] = .ok t ∧
      ListedFetchable dataRoot t avatarsNamespace.toNamespace) ∧
    ∃ t, runStorage dataRoot lengthDigests FileTree.empty [putOne " / a"] = .ok t ∧
      ¬ ListedFetchable dataRoot t avatarsNamespace.toNamespace := by
  obtain ⟨hruns, hother⟩ := listed_fetchable_where_keys_read_back dataRoot lengthDigests
  have hempty := emptyStorage_empty dataRoot
  refine ⟨?_, hother _ avatarsNamespace " / a" [" a"] hempty (by decide +kernel)
    (by decide +kernel) _ _ _ _⟩
  have hkey : normalizeObjectKey "a/b.txt" = .ok ["a", "b.txt"] := by decide +kernel
  obtain ⟨t, m, hput, -, -⟩ := hempty.put_ok lengthDigests "2025-01-01T00:00:00+00:00"
    avatarsNamespace hkey [1, 2, 3] none {}
  have hrun : runStorage dataRoot lengthDigests FileTree.empty [putOne "a/b.txt"] = .ok t := by
    rw [putOne, runStorage, StorageOp.exec, ObjectOp.exec, Outcome.discard_eq_ok.mpr ⟨m, hput⟩]
    rfl
  refine ⟨t, hrun, hruns _ _ t hempty ?_ hrun avatarsNamespace⟩
  intro op hop
  rw [List.mem_singleton] at hop
  subst hop
  rintro key parts ⟨⟩ hparts
  rw [hkey] at hparts
  cases hparts
  decide +kernel

end Peanut
