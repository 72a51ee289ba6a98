import Peanut.Backups.Paths
import Peanut.Storage.Buckets
import Peanut.Storage.Local

/-!
# Paths of stored files

The path builders of `storage/local/mod.rs`.  Three trees share the storage root:
the objects, their metadata and the uploads in parts.  Whatever the key and the
upload id, a path stays inside the tree of its app and bucket, and no other tree
has a path at or below it.
-/

namespace Peanut

/-! ### Names below a directory -/

/-- A text that is one component of a path and leads down. -/
structure IsName (name : String) : Prop where
  ne_empty : name ≠ ""
  ne_curDir : name ≠ "."
  ne_parentDir : name ≠ ".."
  no_slash : '/' ∉ name.toList

namespace FsPath

/-- `Path::join` of a path made of names. -/
def joinNames (base : FsPath) (names : List String) : FsPath :=
  { base with components := base.components ++ names.map .normal }

/-- `Path::set_file_name`. -/
def withFileName (p : FsPath) (name : String) : FsPath :=
  { p with components := p.components.dropLast ++ [.normal name] }

/-- The path leads down from `base` by at least one name. -/
def StrictlyBelow (base p : FsPath) : Prop :=
  ∃ names, names ≠ [] ∧ (∀ n ∈ names, IsName n) ∧ p = base.joinNames names

/-- The path coincides with `base` or lies below it. -/
def AtOrBelow (base p : FsPath) : Prop := p.root = base.root ∧ base.components <+: p.components

@[simp] theorem joinNames_joinNames (base : FsPath) (names more : List String) :
    (base.joinNames names).joinNames more = base.joinNames (names ++ more) := by
  simp [joinNames]

theorem child_joinNames (base : FsPath) (names : List String) (name : String) :
    (base.joinNames names).child name = base.joinNames (names ++ [name]) := by
  simp [joinNames, child]

theorem fileName_joinNames (base : FsPath) (names : List String) (name : String) :
    (base.joinNames (names ++ [name])).fileName = some name := by
  simp [joinNames, fileName]

theorem withFileName_joinNames (base : FsPath) (names : List String) (name other : String) :
    (base.joinNames (names ++ [name])).withFileName other = base.joinNames (names ++ [other]) := by
  simp [joinNames, withFileName]

theorem atOrBelow_joinNames {base : FsPath} {names more : List String} :
    (base.joinNames names).AtOrBelow (base.joinNames more) ↔ names <+: more := by
  have hinj : Function.Injective PathComponent.normal := by
    intro a b hab
    cases hab
    rfl
  simp only [AtOrBelow, joinNames, true_and]
  rw [List.prefix_append_right_inj, List.prefix_map_iff_of_injective hinj]

end FsPath

/-! ### The path builders -/

def METADATA_ROOT_DIR : String := ".peanut_meta"

def MULTIPART_ROOT_DIR : String := ".peanut_multipart"

/-- `normalize_namespace`: the components of the namespace. -/
def normalizeNamespace (namespace_ emptyMessage : String) : Except IoError (List String) := do
  let trimmed := strTrimMatches '/' (trim namespace_)
  Outcome.ensure (trimmed != "") { kind := .invalidInput, message := emptyMessage }
  let parts := (splitAt '/' trimmed).filter fun part => part != "" && part != "."
  Outcome.ensure (parts.all (· != ".."))
    { kind := .invalidInput, message := "storage namespace contains invalid path segments" }
  Outcome.ensure (!parts.isEmpty) { kind := .invalidInput, message := emptyMessage }
  return parts

/-- `sdk_bucket`: the namespace of a bucket of an app. -/
def sdkBucket (appId bucket : String) : String := appId ++ "/" ++ bucket

/-- `format!("{n:05}")`. -/
def fiveDigits (n : Nat) : String :=
  String.ofList (List.replicate (5 - (toString n).length) '0' ++ (toString n).toList)

namespace FsPath

/-- The directory of a bucket in the tree under `dirs`. -/
def bucketRootIn (root : FsPath) (dirs : List String) (bucket : String) :
    Except IoError FsPath := do
  let normalized ← normalizeNamespace bucket "storage bucket cannot be empty"
  return (root.joinNames dirs).joinNames normalized

def resolveBucketRoot (root : FsPath) (bucket : String) : Except IoError FsPath :=
  root.bucketRootIn [] bucket

def metadataBucketRoot (root : FsPath) (bucket : String) : Except IoError FsPath :=
  root.bucketRootIn [METADATA_ROOT_DIR] bucket

def multipartBucketRoot (root : FsPath) (bucket : String) : Except IoError FsPath :=
  root.bucketRootIn [MULTIPART_ROOT_DIR] bucket

def resolveObjectPath (root : FsPath) (bucket key : String) : Except IoError FsPath := do
  let bucketRoot ← root.resolveBucketRoot bucket
  let relative ← normalizeObjectKey key
  return bucketRoot.joinNames relative

def resolveMetadataPath (root : FsPath) (bucket key : String) : Except IoError FsPath := do
  let metadataRoot ← root.metadataBucketRoot bucket
  let relative ← normalizeObjectKey key
  let metadataPath := metadataRoot.joinNames relative
  let fileName ← Outcome.require metadataPath.fileName
    { kind := .invalidInput, message := "storage key contains invalid filename" }
  return metadataPath.withFileName (fileName ++ ".json")

def resolveMultipartUploadRoot (root : FsPath) (bucket uploadId : String) :
    Except IoError FsPath := do
  let bucketRoot ← root.multipartBucketRoot bucket
  let id ← resolveUploadId uploadId
  return bucketRoot.join (parsePath id)

def resolveMultipartManifestPath (root : FsPath) (bucket uploadId : String) :
    Except IoError FsPath := do
  let uploadRoot ← root.resolveMultipartUploadRoot bucket uploadId
  return uploadRoot.child "upload.json"

/-- The data (`.part`) or the metadata (`.json`) of a part. -/
def resolvePartFile (root : FsPath) (bucket uploadId : String) (partNumber : Nat)
    (extension : String) : Except IoError FsPath := do
  let uploadRoot ← root.resolveMultipartUploadRoot bucket uploadId
  return (uploadRoot.child "parts").child (fiveDigits partNumber ++ extension)

def resolveMultipartPartPath (root : FsPath) (bucket uploadId : String) (partNumber : Nat) :
    Except IoError FsPath := root.resolvePartFile bucket uploadId partNumber ".part"

def resolveMultipartPartMetadataPath (root : FsPath) (bucket uploadId : String)
    (partNumber : Nat) : Except IoError FsPath :=
  root.resolvePartFile bucket uploadId partNumber ".json"

end FsPath

/-! ### What the builders accept -/

theorem IsName.append_extension {name extension : String} (h : IsName name)
    (hlength : 2 ≤ extension.length) (hslash : '/' ∉ extension.toList) :
    IsName (name ++ extension) := by
  obtain ⟨hne, hdot, hdots⟩ := ne_dots_of_append h.ne_empty hlength
  refine ⟨hne, hdot, hdots, ?_⟩
  rw [String.toList_append, List.mem_append, not_or]
  exact ⟨h.no_slash, hslash⟩

theorem isName_manifest : IsName "upload.json" := ⟨by simp, by simp, by simp, by simp⟩

theorem isName_parts : IsName "parts" := ⟨by simp, by simp, by simp, by simp⟩

theorem not_mem_fiveDigits (n : Nat) {c : Char} (hc : c.isDigit = false) :
    c ∉ (fiveDigits n).toList := by
  have hdigits : ∀ d ∈ (toString n).toList, d.isDigit = true := by
    intro d hd
    rw [Nat.toString_eq_repr, Nat.toList_repr] at hd
    exact Nat.isDigit_of_mem_toDigits (by decide) (by decide) hd
  rw [fiveDigits, String.toList_ofList, List.mem_append, not_or]
  refine ⟨?_, ?_⟩
  · intro hmem
    rw [List.eq_of_mem_replicate hmem] at hc
    exact absurd hc (by decide)
  · intro hmem
    rw [hdigits c hmem] at hc
    cases hc

theorem isName_fiveDigits (n : Nat) {extension : String} (hlength : 2 ≤ extension.length)
    (hslash : '/' ∉ extension.toList) : IsName (fiveDigits n ++ extension) := by
  have hne : fiveDigits n ≠ "" := by
    intro heq
    have hdigits : (toString n).length ≠ 0 := by
      rw [Nat.toString_eq_repr]
      exact Nat.pos_iff_ne_zero.mp Nat.length_repr_pos
    have hlength : (fiveDigits n).toList.length = 0 := by
      rw [heq]
      rfl
    rw [fiveDigits, String.toList_ofList, List.length_append, String.length_toList] at hlength
    omega
  obtain ⟨hempty, hdot, hdots⟩ := ne_dots_of_append hne hlength
  refine ⟨hempty, hdot, hdots, ?_⟩
  rw [String.toList_append, List.mem_append, not_or]
  exact ⟨not_mem_fiveDigits n (by decide), hslash⟩

theorem fiveDigits_injective {n m : Nat} (h : fiveDigits n = fiveDigits m) : n = m := by
  have hvalue : ∀ k, Nat.ofDigitChars 10 (fiveDigits k).toList 0 = k := by
    intro k
    have hdigits : (toString k).toList = Nat.toDigits 10 k := Nat.toList_repr
    rw [fiveDigits, String.toList_ofList, Nat.ofDigitChars_append, Nat.ofDigitChars_replicate_zero,
      Nat.mul_zero, hdigits, Nat.ofDigitChars_ten_toDigits]
  rw [← hvalue n, h, hvalue m]

theorem splitAt_no_separator {c : Char} {s part : String} (h : part ∈ splitAt c s) :
    c ∉ part.toList := by
  have hchars : ∀ l : List Char, ∀ q ∈ l.splitOn c, c ∉ q := by
    intro l
    induction l with
    | nil => simp
    | cons x l ih =>
      rw [List.splitOn_cons_eq_if_modifyHead]
      split
      · rw [List.forall_mem_cons]
        exact ⟨List.not_mem_nil, ih⟩
      · rename_i hx
        have hne : c ≠ x := fun heq => hx (beq_iff_eq.mpr heq.symm)
        cases hsplit : l.splitOn c with
        | nil => simp
        | cons first rest =>
          rw [hsplit, List.forall_mem_cons] at ih
          rw [List.modifyHead_cons, List.forall_mem_cons]
          refine ⟨?_, ih.2⟩
          rw [List.mem_cons, not_or]
          exact ⟨hne, ih.1⟩
  obtain ⟨l, hl, rfl⟩ := List.mem_map.mp h
  rw [String.toList_ofList]
  exact hchars s.toList l hl

theorem isName_of_kept {text part : String}
    (hmem : part ∈ (splitAt '/' text).filter fun part => part != "" && part != ".")
    (hdots : part ≠ "..") : IsName part := by
  obtain ⟨hmem, hkept⟩ := List.mem_filter.mp hmem
  simp only [Bool.and_eq_true, bne_iff_ne] at hkept
  exact ⟨hkept.1, hkept.2, hdots, splitAt_no_separator hmem⟩

theorem resolveUploadId_ok {uploadId id : String} (h : resolveUploadId uploadId = .ok id) :
    id = "." ∨ IsName id := by
  unfold resolveUploadId at h
  obtain ⟨u, hchecks, hok⟩ := Outcome.bind_eq_ok.mp h
  rw [← Except.ok.inj hok]
  rw [Outcome.ensure_eq_ok] at hchecks
  simp only [Bool.and_eq_true, bne_iff_ne, Bool.not_eq_true'] at hchecks
  obtain ⟨⟨hne, hslash⟩, hdots⟩ := hchecks
  by_cases hdot : trim uploadId = "."
  · exact .inl hdot
  · refine .inr ⟨hne, hdot, ?_, ?_⟩
    · rintro heq
      rw [heq] at hdots
      exact absurd hdots (by decide)
    · intro hmem
      rw [strContains_singleton.mpr hmem] at hslash
      cases hslash

theorem normalizeObjectKey_ok {key : String} {parts : List String}
    (h : normalizeObjectKey key = .ok parts) : parts ≠ [] ∧ ∀ part ∈ parts, IsName part := by
  unfold normalizeObjectKey at h
  obtain ⟨-, -, h⟩ := Outcome.bind_eq_ok.mp h
  obtain ⟨u, hdots, h⟩ := Outcome.bind_eq_ok.mp h
  obtain ⟨u', hne, hok⟩ := Outcome.bind_eq_ok.mp h
  rw [← Except.ok.inj hok]
  rw [Outcome.ensure_eq_ok] at hdots hne
  refine ⟨by simpa using hne, ?_⟩
  intro part hpart
  exact isName_of_kept hpart (bne_iff_ne.mp (List.all_eq_true.mp hdots part hpart))

/-- An app id and a bucket name are spelled with letters, digits, `-` and `_`. -/
structure IsPlain (text : String) : Prop where
  ne_empty : text ≠ ""
  plain : ∀ c ∈ text.toList, (isNameChar c || isAsciiUppercase c) = true

theorem IsPlain.char {text : String} (h : IsPlain text) {c : Char} (hc : c ∈ text.toList) :
    isWhitespace c = false ∧ c ≠ '/' ∧ c ≠ '.' := by
  have hplain := h.plain c hc
  rw [Bool.or_eq_true] at hplain
  refine ⟨?_, ?_, ?_⟩
  · rcases hplain with hname | hupper
    · exact isWhitespace_of_isNameChar hname
    · simp only [isAsciiUppercase, Bool.and_eq_true, decide_eq_true_eq] at hupper
      have h1 : 65 ≤ c.toNat := hupper.1
      have h2 : c.toNat ≤ 90 := hupper.2
      simp only [isWhitespace, Bool.or_eq_false_iff, Bool.and_eq_false_iff, decide_eq_false_iff_not,
        beq_eq_false_iff_ne]
      omega
  · rintro rfl
    exact absurd hplain (by decide)
  · rintro rfl
    exact absurd hplain (by decide)

theorem IsPlain.isName {text : String} (h : IsPlain text) : IsName text := by
  have hdot : '.' ∉ text.toList := fun hmem => (h.char hmem).2.2 rfl
  refine ⟨h.ne_empty, ?_, ?_, fun hmem => (h.char hmem).2.1 rfl⟩
  · rintro rfl
    exact hdot (by decide)
  · rintro rfl
    exact hdot (by decide)

theorem normalizeBucketName_isPlain {value bucket : String}
    (h : normalizeBucketName value = .ok bucket) : IsPlain bucket := by
  obtain ⟨hne, hchars⟩ := normalizeBucketName_ok h
  refine ⟨hne, ?_⟩
  intro c hc
  rw [List.all_eq_true.mp hchars c hc, Bool.true_or]

/-- The text of a UUID: groups of 8, 4, 4, 4 and 12 hexadecimal digits. -/
def isUuid (text : String) : Bool :=
  (splitAt '-' text).map len == [8, 4, 4, 4, 12] &&
    charsAll (fun c => isAsciiDigit c || ('a'.toNat ≤ c.toNat && c.toNat ≤ 'f'.toNat) ||
      ('A'.toNat ≤ c.toNat && c.toNat ≤ 'F'.toNat) || c == '-') text

theorem isUuid_isPlain {text : String} (h : isUuid text = true) : IsPlain text := by
  simp only [isUuid, Bool.and_eq_true, beq_iff_eq] at h
  obtain ⟨hgroups, hchars⟩ := h
  constructor
  · rintro rfl
    exact absurd hgroups (by decide)
  · intro c hc
    have hhex := List.all_eq_true.mp hchars c hc
    simp only [Bool.or_eq_true, Bool.and_eq_true, decide_eq_true_eq, beq_iff_eq] at hhex
    simp only [isNameChar, isAsciiLowercase, isAsciiUppercase, Bool.or_eq_true, Bool.and_eq_true,
      decide_eq_true_eq, beq_iff_eq]
    rcases hhex with ((hdigit | ⟨hlow, hhigh⟩) | ⟨hlow, hhigh⟩) | hdash
    · exact .inl (.inl (.inl (.inr hdigit)))
    · refine .inl (.inl (.inl (.inl ⟨hlow, ?_⟩)))
      exact Nat.le_trans hhigh (by decide)
    · refine .inr ⟨hlow, ?_⟩
      exact Nat.le_trans hhigh (by decide)
    · exact .inl (.inr hdash)

/-- A bucket the API serves. -/
structure ServedBucket (appId bucket : String) : Prop where
  app : appId = DEFAULT_APP_ID ∨ isUuid appId = true
  bucket : ∃ value, normalizeBucketName value = .ok bucket

namespace ServedBucket

variable {appId bucket : String}

theorem app_plain (h : ServedBucket appId bucket) : IsPlain appId := by
  rcases h.app with rfl | huuid
  · refine ⟨by decide, ?_⟩
    rw [← List.all_eq_true]
    decide
  · exact isUuid_isPlain huuid

theorem bucket_plain (h : ServedBucket appId bucket) : IsPlain bucket := by
  obtain ⟨value, hvalue⟩ := h.bucket
  exact normalizeBucketName_isPlain hvalue

theorem normalizeNamespace_eq (h : ServedBucket appId bucket) (message : String) :
    normalizeNamespace (sdkBucket appId bucket) message = .ok [appId, bucket] := by
  have happ := h.app_plain
  have hbucket := h.bucket_plain
  have hchars : (sdkBucket appId bucket).toList = appId.toList ++ '/' :: bucket.toList := by
    simp [sdkBucket]
  have htrim : trim (sdkBucket appId bucket) = sdkBucket appId bucket := by
    apply trim_eq_self
    intro c hc
    rw [hchars, List.mem_append, List.mem_cons] at hc
    rcases hc with hc | rfl | hc
    · exact (happ.char hc).1
    · decide
    · exact (hbucket.char hc).1
  have hmatches : strTrimMatches '/' (sdkBucket appId bucket) = sdkBucket appId bucket := by
    apply strTrimMatches_of_ends
    · obtain ⟨c, cs, hcs⟩ := List.exists_cons_of_ne_nil
        (show appId.toList ≠ [] by simpa using happ.ne_empty)
      rw [hchars, hcs]
      rintro ⟨⟩
      exact (happ.char (hcs ▸ List.mem_cons_self)).2.1 rfl
    · obtain ⟨init, c, hcs⟩ := (List.eq_nil_or_concat' bucket.toList).resolve_left
        (by simpa using hbucket.ne_empty)
      have hend : (sdkBucket appId bucket).toList = (appId.toList ++ '/' :: init) ++ [c] := by
        rw [hchars, hcs]
        simp
      rw [hend, List.getLast?_concat]
      rintro ⟨⟩
      exact (hbucket.char (hcs ▸ List.mem_concat_self)).2.1 rfl
  have hsplit : splitAt '/' (sdkBucket appId bucket) = [appId, bucket] := by
    have hparts : sdkBucket appId bucket = (String.ofList ['/']).intercalate [appId, bucket] := by
      rw [String.intercalate_cons_cons, String.intercalate_singleton]
      rfl
    rw [hparts]
    apply splitAt_intercalate
    · intro p hp
      rw [List.mem_cons, List.mem_singleton] at hp
      rcases hp with rfl | rfl
      · exact happ.isName.no_slash
      · exact hbucket.isName.no_slash
    · simp
  have hne : (sdkBucket appId bucket != "") = true := by
    rw [bne_iff_ne]
    intro heq
    rw [heq] at hchars
    simp at hchars
  have happDots : (appId != "..") = true := bne_iff_ne.mpr happ.isName.ne_parentDir
  have hbucketDots : (bucket != "..") = true := bne_iff_ne.mpr hbucket.isName.ne_parentDir
  simp [normalizeNamespace, htrim, hmatches, hsplit, hne, happ.isName.ne_empty,
    happ.isName.ne_curDir, happDots, hbucket.isName.ne_empty, hbucket.isName.ne_curDir, hbucketDots,
    pure, Except.pure, bind, Except.bind]

end ServedBucket

/-! ### The trees -/

inductive StorageTree where
  | objects
  | metadata
  | multipart
deriving DecidableEq

/-- The directory of a tree, from the storage root. -/
def StorageTree.dirs : StorageTree → List String
  | .objects => []
  | .metadata => [METADATA_ROOT_DIR]
  | .multipart => [MULTIPART_ROOT_DIR]

theorem StorageTree.isName_dirs (tree : StorageTree) : ∀ n ∈ tree.dirs, IsName n := by
  cases tree with
  | objects => simp [dirs]
  | metadata =>
    simp only [dirs, List.mem_singleton, forall_eq]
    exact ⟨by decide, by decide, by decide, by decide⟩
  | multipart =>
    simp only [dirs, List.mem_singleton, forall_eq]
    exact ⟨by decide, by decide, by decide, by decide⟩

/-- The part of a tree that belongs to a bucket of an app. -/
def FsPath.bucketTree (root : FsPath) (tree : StorageTree) (appId bucket : String) : FsPath :=
  root.joinNames (tree.dirs ++ [appId, bucket])

/-- The paths the storage computes for a namespace, by the tree they are meant for. -/
inductive StoragePath (root : FsPath) (namespace_ : String) : StorageTree → FsPath → Prop where
  | object {key : String} {path : FsPath}
      (h : root.resolveObjectPath namespace_ key = .ok path) :
      StoragePath root namespace_ .objects path
  | metadata {key : String} {path : FsPath}
      (h : root.resolveMetadataPath namespace_ key = .ok path) :
      StoragePath root namespace_ .metadata path
  | manifest {uploadId : String} {path : FsPath}
      (h : root.resolveMultipartManifestPath namespace_ uploadId = .ok path) :
      StoragePath root namespace_ .multipart path
  | part {uploadId : String} {partNumber : Nat} {path : FsPath}
      (h : root.resolveMultipartPartPath namespace_ uploadId partNumber = .ok path) :
      StoragePath root namespace_ .multipart path
  | partMetadata {uploadId : String} {partNumber : Nat} {path : FsPath}
      (h : root.resolveMultipartPartMetadataPath namespace_ uploadId partNumber = .ok path) :
      StoragePath root namespace_ .multipart path

section Served

variable {root : FsPath} {appId bucket : String}

theorem bucketRootIn_sdkBucket (h : ServedBucket appId bucket) (dirs : List String) :
    root.bucketRootIn dirs (sdkBucket appId bucket) =
      .ok (root.joinNames (dirs ++ [appId, bucket])) := by
  rw [FsPath.bucketRootIn, h.normalizeNamespace_eq]
  exact congrArg Except.ok (FsPath.joinNames_joinNames root dirs [appId, bucket])

theorem resolveObjectPath_sdkBucket (h : ServedBucket appId bucket) {key : String}
    {parts : List String} (hkey : normalizeObjectKey key = .ok parts) :
    root.resolveObjectPath (sdkBucket appId bucket) key =
      .ok ((root.bucketTree .objects appId bucket).joinNames parts) := by
  rw [FsPath.resolveObjectPath, FsPath.resolveBucketRoot, bucketRootIn_sdkBucket h, hkey]
  rfl

/-- The metadata of an object is kept under the name of the object and `.json`. -/
theorem resolveMetadataPath_sdkBucket (h : ServedBucket appId bucket) {key last : String}
    {init : List String} (hkey : normalizeObjectKey key = .ok (init ++ [last])) :
    root.resolveMetadataPath (sdkBucket appId bucket) key =
      .ok ((root.bucketTree .metadata appId bucket).joinNames (init ++ [last ++ ".json"])) := by
  rw [FsPath.resolveMetadataPath, FsPath.metadataBucketRoot, bucketRootIn_sdkBucket h, hkey]
  simp only [bind, Except.bind, FsPath.joinNames_joinNames, ← List.append_assoc,
    FsPath.fileName_joinNames, Outcome.require, FsPath.withFileName_joinNames]
  simp [FsPath.bucketTree, StorageTree.dirs, pure, Except.pure]

/-- The directory of an upload, from that of its bucket. -/
def uploadDirs (id : String) : List String := if id = "." then [] else [id]

theorem resolveMultipartUploadRoot_eq (h : ServedBucket appId bucket) {uploadId id : String}
    (hid : resolveUploadId uploadId = .ok id) :
    root.resolveMultipartUploadRoot (sdkBucket appId bucket) uploadId =
      .ok ((root.bucketTree .multipart appId bucket).joinNames (uploadDirs id)) := by
  have hbase : ((root.bucketTree .multipart appId bucket).isEmpty) = false := by
    simp [FsPath.bucketTree, FsPath.joinNames, FsPath.isEmpty, StorageTree.dirs]
  have hroot : root.resolveMultipartUploadRoot (sdkBucket appId bucket) uploadId =
      .ok ((root.bucketTree .multipart appId bucket).join (parsePath id)) := by
    rw [FsPath.resolveMultipartUploadRoot, FsPath.multipartBucketRoot, bucketRootIn_sdkBucket h,
      hid]
    rfl
  rw [hroot]
  rcases resolveUploadId_ok hid with rfl | hname
  · have hdot : parsePath "." = { root := false, components := [.curDir] } := by decide
    rw [hdot, FsPath.join, if_neg Bool.false_ne_true, hbase, if_neg Bool.false_ne_true]
    simp [FsPath.joinNames, uploadDirs]
  · have hsingle : splitAt '/' id = [id] := by
      rw [splitAt, List.splitOn_eq_singleton hname.no_slash]
      simp
    have hpath : parsePath id = { root := false, components := [.normal id] } := by
      rw [parsePath, hsingle]
      simp [PathComponent.ofSegment, hname.ne_empty, hname.ne_curDir, hname.ne_parentDir]
    rw [hpath, FsPath.join, if_neg Bool.false_ne_true, hbase, if_neg Bool.false_ne_true]
    simp [FsPath.joinNames, uploadDirs, hname.ne_curDir]

theorem resolveMultipartUploadRoot_sdkBucket (h : ServedBucket appId bucket)
    {uploadId id : String} (hid : resolveUploadId uploadId = .ok id) :
    ∃ names, (∀ n ∈ names, IsName n) ∧
      root.resolveMultipartUploadRoot (sdkBucket appId bucket) uploadId =
        .ok ((root.bucketTree .multipart appId bucket).joinNames names) := by
  refine ⟨uploadDirs id, ?_, resolveMultipartUploadRoot_eq h hid⟩
  rcases resolveUploadId_ok hid with rfl | hname
  · simp [uploadDirs]
  · simpa [uploadDirs, hname.ne_curDir] using hname

theorem StoragePath.below_bucketTree (h : ServedBucket appId bucket) {tree : StorageTree}
    {path : FsPath} (hpath : StoragePath root (sdkBucket appId bucket) tree path) :
    (root.bucketTree tree appId bucket).StrictlyBelow path := by
  have hupload : ∀ {uploadId : String} {uploadRoot : FsPath},
      root.resolveMultipartUploadRoot (sdkBucket appId bucket) uploadId = .ok uploadRoot →
        ∃ names, (∀ n ∈ names, IsName n) ∧
          uploadRoot = (root.bucketTree .multipart appId bucket).joinNames names := by
    intro uploadId uploadRoot hroot
    have hbind := hroot
    rw [FsPath.resolveMultipartUploadRoot] at hbind
    obtain ⟨_, -, hbind⟩ := Outcome.bind_eq_ok.mp hbind
    obtain ⟨id, hid, -⟩ := Outcome.bind_eq_ok.mp hbind
    obtain ⟨names, hnames, heq⟩ := @resolveMultipartUploadRoot_sdkBucket root _ _ h _ _ hid
    rw [hroot] at heq
    exact ⟨names, hnames, Except.ok.inj heq⟩
  have hpart : ∀ {uploadId extension : String} {partNumber : Nat} {path : FsPath},
      2 ≤ extension.length → '/' ∉ extension.toList →
      root.resolvePartFile (sdkBucket appId bucket) uploadId partNumber extension = .ok path →
        (root.bucketTree .multipart appId bucket).StrictlyBelow path := by
    intro uploadId extension partNumber path hlength hslash hfile
    obtain ⟨uploadRoot, hroot, hok⟩ := Outcome.bind_eq_ok.mp hfile
    obtain ⟨names, hnames, rfl⟩ := hupload hroot
    refine ⟨names ++ ["parts"] ++ [fiveDigits partNumber ++ extension], by simp, ?_, ?_⟩
    · intro n hn
      rw [List.mem_append, List.mem_append, List.mem_singleton, List.mem_singleton] at hn
      rcases hn with (hn | rfl) | rfl
      · exact hnames n hn
      · exact isName_parts
      · exact isName_fiveDigits partNumber hlength hslash
    · rw [← Except.ok.inj hok, FsPath.child_joinNames, FsPath.child_joinNames]
  cases hpath with
  | object hresolve =>
    have hbind := hresolve
    rw [FsPath.resolveObjectPath] at hbind
    obtain ⟨_, -, hbind⟩ := Outcome.bind_eq_ok.mp hbind
    obtain ⟨parts, hkey, -⟩ := Outcome.bind_eq_ok.mp hbind
    rw [resolveObjectPath_sdkBucket h hkey] at hresolve
    obtain ⟨hne, hnames⟩ := normalizeObjectKey_ok hkey
    exact ⟨parts, hne, hnames, (Except.ok.inj hresolve).symm⟩
  | metadata hresolve =>
    have hbind := hresolve
    rw [FsPath.resolveMetadataPath] at hbind
    obtain ⟨_, -, hbind⟩ := Outcome.bind_eq_ok.mp hbind
    obtain ⟨parts, hkey, -⟩ := Outcome.bind_eq_ok.mp hbind
    obtain ⟨hne, hnames⟩ := normalizeObjectKey_ok hkey
    obtain ⟨init, last, rfl⟩ := (List.eq_nil_or_concat' parts).resolve_left hne
    rw [resolveMetadataPath_sdkBucket h hkey] at hresolve
    refine ⟨init ++ [last ++ ".json"], by simp, ?_, (Except.ok.inj hresolve).symm⟩
    intro n hn
    rw [List.mem_append, List.mem_singleton] at hn
    rcases hn with hn | rfl
    · exact hnames n (List.mem_append_left _ hn)
    · exact (hnames last List.mem_concat_self).append_extension (by decide) (by simp)
  | manifest hresolve =>
    obtain ⟨uploadRoot, hroot, hok⟩ := Outcome.bind_eq_ok.mp hresolve
    obtain ⟨names, hnames, rfl⟩ := hupload hroot
    refine ⟨names ++ ["upload.json"], by simp, ?_, ?_⟩
    · intro n hn
      rw [List.mem_append, List.mem_singleton] at hn
      rcases hn with hn | rfl
      · exact hnames n hn
      · exact isName_manifest
    · rw [← Except.ok.inj hok, FsPath.child_joinNames]
  | part hresolve => exact hpart (by decide) (by simp) hresolve
  | partMetadata hresolve => exact hpart (by decide) (by simp) hresolve

theorem bucketTree_apart {tree tree' : StorageTree} {appId' bucket' : String}
    (h : ServedBucket appId bucket) (h' : ServedBucket appId' bucket')
    (hne : (appId, bucket) ≠ (appId', bucket') ∨ tree ≠ tree') {names more : List String} :
    ¬ (tree.dirs ++ [appId, bucket] ++ names) <+: (tree'.dirs ++ [appId', bucket'] ++ more) := by
  have hdot : ∀ {text : String}, IsPlain text → text ≠ METADATA_ROOT_DIR ∧
      text ≠ MULTIPART_ROOT_DIR := by
    intro text hplain
    refine ⟨?_, ?_⟩
    · rintro rfl
      exact (hplain.char (c := '.') (by decide)).2.2 rfl
    · rintro rfl
      exact (hplain.char (c := '.') (by decide)).2.2 rfl
  have happ := hdot h.app_plain
  have happ' := hdot h'.app_plain
  have hdirs : METADATA_ROOT_DIR ≠ MULTIPART_ROOT_DIR := by decide
  intro hprefix
  cases tree <;> cases tree' <;> simp_all [StorageTree.dirs]

end Served

/-- **Confined and disjoint.**  Every accepted key and upload id has its paths, they
    lie below the storage root in the tree of their app and bucket, and a path of
    another app, bucket or tree is neither the same nor below it. -/
theorem storage_paths_confined (root : FsPath) :
    (∀ appId bucket, ServedBucket appId bucket →
      (∀ key parts, normalizeObjectKey key = .ok parts →
        (∃ path, root.resolveObjectPath (sdkBucket appId bucket) key = .ok path) ∧
          ∃ path, root.resolveMetadataPath (sdkBucket appId bucket) key = .ok path) ∧
      ∀ uploadId id, resolveUploadId uploadId = .ok id →
        ∃ path, root.resolveMultipartUploadRoot (sdkBucket appId bucket) uploadId = .ok path) ∧
    (∀ appId bucket tree path, ServedBucket appId bucket →
      StoragePath root (sdkBucket appId bucket) tree path →
        root.StrictlyBelow path ∧ (root.bucketTree tree appId bucket).StrictlyBelow path) ∧
    ∀ appId bucket tree path appId' bucket' tree' path', ServedBucket appId bucket →
      ServedBucket appId' bucket' → StoragePath root (sdkBucket appId bucket) tree path →
        StoragePath root (sdkBucket appId' bucket') tree' path' →
          (appId, bucket) ≠ (appId', bucket') ∨ tree ≠ tree' → ¬ path.AtOrBelow path' := by
  refine ⟨?_, ?_, ?_⟩
  · intro appId bucket h
    refine ⟨?_, ?_⟩
    · intro key parts hkey
      obtain ⟨init, last, rfl⟩ :=
        (List.eq_nil_or_concat' parts).resolve_left (normalizeObjectKey_ok hkey).1
      exact ⟨⟨_, resolveObjectPath_sdkBucket h hkey⟩, _, resolveMetadataPath_sdkBucket h hkey⟩
    · intro uploadId id hid
      obtain ⟨names, -, hroot⟩ := @resolveMultipartUploadRoot_sdkBucket root _ _ h _ _ hid
      exact ⟨_, hroot⟩
  · intro appId bucket tree path h hpath
    have hbelow := hpath.below_bucketTree h
    refine ⟨?_, hbelow⟩
    obtain ⟨names, hne, hnames, rfl⟩ := hbelow
    refine ⟨tree.dirs ++ [appId, bucket] ++ names, by simp, ?_, by
      rw [FsPath.bucketTree, FsPath.joinNames_joinNames]⟩
    intro n hn
    rw [List.mem_append, List.mem_append] at hn
    rcases hn with (hn | hn) | hn
    · exact tree.isName_dirs n hn
    · rw [List.mem_cons, List.mem_singleton] at hn
      rcases hn with rfl | rfl
      · exact h.app_plain.isName
      · exact h.bucket_plain.isName
    · exact hnames n hn
  · intro appId bucket tree path appId' bucket' tree' path' h h' hpath hpath' hne
    obtain ⟨names, -, -, rfl⟩ := hpath.below_bucketTree h
    obtain ⟨more, -, -, rfl⟩ := hpath'.below_bucketTree h'
    rw [FsPath.bucketTree, FsPath.bucketTree, FsPath.joinNames_joinNames,
      FsPath.joinNames_joinNames, FsPath.atOrBelow_joinNames]
    exact bucketTree_apart h h' hne

/-! ### A key with dots and blanks -/

def dataRoot : FsPath := { root := false, components := [.normal "data", .normal "storage"] }

theorem servedBucket_avatars : ServedBucket DEFAULT_APP_ID "avatars" :=
  ⟨.inl rfl, "Avatars/", by decide +kernel⟩

/-- The object and the metadata of the same key are apart, and below the root. -/
theorem avatar_paths_apart :
    ∃ path path', dataRoot.resolveObjectPath (sdkBucket DEFAULT_APP_ID "avatars") " //a/./b .png" =
        .ok path ∧
      dataRoot.resolveMetadataPath (sdkBucket DEFAULT_APP_ID "avatars") " //a/./b .png" =
        .ok path' ∧
      dataRoot.StrictlyBelow path ∧ ¬ path.AtOrBelow path' := by
  obtain ⟨haccepted, hbelow, hapart⟩ := storage_paths_confined dataRoot
  have hkey : normalizeObjectKey " //a/./b .png" = .ok ["a", "b .png"] := by decide +kernel
  obtain ⟨⟨path, hpath⟩, path', hpath'⟩ :=
    (haccepted DEFAULT_APP_ID "avatars" servedBucket_avatars).1 _ _ hkey
  exact ⟨path, path', hpath, hpath',
    (hbelow _ _ _ path servedBucket_avatars (.object hpath)).1,
    hapart _ _ _ path _ _ _ path' servedBucket_avatars servedBucket_avatars (.object hpath)
      (.metadata hpath') (.inr (by decide))⟩

end Peanut
