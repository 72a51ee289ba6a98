import Mathlib.Data.Set.List
import Peanut.Library.DirectoryWalk
import Peanut.Storage.Etags
import Peanut.Storage.Uploads

/-!
# Stale uploads

`cleanup_stale_multipart_uploads`: a walk with an explicit stack over the directories
under `.peanut_multipart` takes a directory with a file `upload.json` for an upload and
does not enter it.  After any calls that followed one another the directories with such
a file are those of the uploads of the ledger, so that the walk finds these and no others.
-/

namespace Peanut

open Relational StorageFiles

/-! ### The code -/

section Code

variable (order : EntryOrder String StorageContent) (modified : List String → Option Int)
  (cutoff : Int)

/-- `manifest_path.exists()`. -/
def hasManifest (t : StorageFiles) (path : List String) : Bool :=
  (t.lookup (path ++ ["upload.json"])).isSome

/-- `modified < stale_before`; a time that cannot be read counts as `UNIX_EPOCH`. -/
def isStale (path : List String) : Bool :=
  decide ((modified (path ++ ["upload.json"])).getD 0 < cutoff)

/-- The loop of `collect_stale_multipart_upload_roots`.  The last of the stack is the
    head of the list. -/
def collectStaleLoop (t : StorageFiles) : Nat → List (List String) → List (List String) →
    Option (List (List String))
  | _, [], stale => some stale
  | 0, _ :: _, _ => none
  | fuel + 1, path :: stack, stale =>
      if hasManifest t path then
        collectStaleLoop t fuel stack
          (if isStale modified cutoff path then stale ++ [path] else stale)
      else
        collectStaleLoop t fuel
          ((t.readDir order path).foldl
            (fun stack entry => if FileTree.isDir entry then entry.path :: stack else stack) stack)
          stale

def collectStaleMultipartUploadRoots (t : StorageFiles) (multipartRoot : List String)
    (fuel : Nat) : Option (List (List String)) :=
  if (t.lookup multipartRoot).isNone then some []
  else collectStaleLoop order modified cutoff t fuel [multipartRoot] []

/-- The loop of `cleanup_stale_multipart_uploads`. -/
def removeUploadRoots (t : StorageFiles) :
    List (List String) → Nat → StorageFiles × Except IoError Nat
  | [], removed => (t, .ok removed)
  | uploadRoot :: rest, removed =>
      match t.removeDirAll uploadRoot with
      | .ok t => removeUploadRoots t rest (removed + 1)
      | .error .notFound => removeUploadRoots t rest removed
      | .error e => (t, .error (ioError e))

def cleanupStaleMultipartUploads (root : FsPath) (t : StorageFiles) (fuel : Nat) :
    Option (StorageFiles × Except IoError Nat) :=
  (collectStaleMultipartUploadRoots order modified cutoff t (root.child MULTIPART_ROOT_DIR).names
    fuel).map fun staleUploadRoots => removeUploadRoots t staleUploadRoots 0

end Code

/-! ### What is collected -/

section Collected

variable {order : EntryOrder String StorageContent} {modified : List String → Option Int}
  {cutoff : Int} {t : StorageFiles}

theorem foldl_push (entries : List (TreeEntry String StorageContent)) (stack : List (List String)) :
    entries.foldl
      (fun stack entry => if FileTree.isDir entry then entry.path :: stack else stack) stack =
      ((entries.filter FileTree.isDir).map (·.path)).reverse ++ stack := by
  induction entries generalizing stack with
  | nil => rfl
  | cons entry entries ih =>
    rw [List.foldl_cons, ih]
    cases hdir : FileTree.isDir entry with
    | true =>
      rw [if_pos rfl, List.filter_cons_of_pos hdir, List.map_cons, List.reverse_cons,
        List.append_assoc, List.singleton_append]
    | false => rw [if_neg Bool.false_ne_true, List.filter_cons_of_neg (by rw [hdir]; decide)]

theorem collectStaleLoop_eq (fuel : Nat) (stack stale : List (List String)) :
    collectStaleLoop order modified cutoff t fuel stack stale =
      (Forest.explore (fun stack new => new ++ stack) (t.below order (hasManifest t)) fuel
        stack).map fun met =>
          stale ++ met.filter fun path => hasManifest t path && isStale modified cutoff path := by
  induction fuel generalizing stack stale with
  | zero =>
    rcases stack with _ | ⟨path, stack⟩
    · simp [collectStaleLoop, Forest.explore]
    · rfl
  | succ fuel ih =>
    rcases stack with _ | ⟨path, stack⟩
    · simp [collectStaleLoop, Forest.explore]
    · rw [collectStaleLoop, Forest.explore, Option.map_map, FileTree.below]
      cases hmanifest : hasManifest t path with
      | true =>
        rw [if_pos rfl, if_pos rfl, List.nil_append, ih]
        congr 1
        funext met
        cases hstale : isStale modified cutoff path with
        | true => simp [hmanifest, hstale]
        | false => simp [hstale]
      | false =>
        rw [if_neg Bool.false_ne_true, if_neg Bool.false_ne_true, foldl_push, ih]
        congr 1
        funext met
        simp [hmanifest]

end Collected

/-! ### Uploads are recognised -/

section Recognised

variable {root : FsPath} {dg : Digests} {ledger : UploadLedger} {t : StorageFiles}

theorem root_multipart_names (root : FsPath) :
    (root.child MULTIPART_ROOT_DIR).names = multipartPath root [] := by
  rw [FsPath.names_child, multipartPath]

theorem not_isUploadDir_manifest (rel : List String) : ¬ IsUploadDir (rel ++ ["upload.json"]) := by
  rintro ⟨b, id, hprefix⟩
  have hmem : "upload.json" ∈ [b.appId, b.bucket, id.val, "parts"] :=
    hprefix.subset (List.mem_append_right rel List.mem_cons_self)
  have hdot : '.' ∈ "upload.json".toList := by decide
  simp only [List.mem_cons, List.not_mem_nil, or_false] at hmem
  rcases hmem with heq | heq | heq | heq
  · exact (b.served.app_plain.char (heq ▸ hdot)).2.2 rfl
  · exact (b.served.bucket_plain.char (heq ▸ hdot)).2.2 rfl
  · exact ((isUuid_isPlain id.property).char (heq ▸ hdot)).2.2 rfl
  · exact absurd heq (by decide)

theorem manifest_of_path {rel : List String} {a : UploadAddress}
    (h : rel ++ ["upload.json"] = a.path) :
    a.file = .manifest ∧ rel = uploadDir a.bucket a.uploadId := by
  obtain ⟨b, id, file⟩ := a
  cases file with
  | manifest => exact ⟨rfl, (List.append_inj' h rfl).1⟩
  | part n =>
    have hlast := congrArg List.getLast? h
    simp only [UploadAddress.path, UploadFile.names, uploadDir, List.getLast?_append,
      List.getLast?_singleton, List.getLast?_cons_cons, Option.some_or, Option.some.injEq] at hlast
    exact absurd hlast.symm (part_ne_json (fiveDigits n) "upload")
  | partMetadata n =>
    have hlast := congrArg List.getLast? h
    simp only [UploadAddress.path, UploadFile.names, uploadDir, List.getLast?_append,
      List.getLast?_singleton, List.getLast?_cons_cons, Option.some_or, Option.some.injEq] at hlast
    have hname : "upload" = fiveDigits n := (String.append_left_inj ".json").mp hlast
    have hmem : 'u' ∈ (fiveDigits n).toList := hname ▸ (by decide : 'u' ∈ "upload".toList)
    exact absurd hmem (not_mem_fiveDigits n (by decide))

/-- **A manifest** is found in the directories of the uploads and in no others. -/
theorem hasManifest_iff (h : Describes root dg ledger t) {rel : List String} :
    hasManifest t (multipartPath root rel) = true ↔
      ∃ b id u, rel = uploadDir b id ∧ ledger.upload (b, id) = some u := by
  have hpath : multipartPath root rel ++ ["upload.json"] =
      multipartPath root (rel ++ ["upload.json"]) := by
    simp [multipartPath]
  rw [hasManifest, hpath, Option.isSome_iff_exists]
  constructor
  · rintro ⟨node, hnode⟩
    cases node with
    | dir => exact absurd (h.stores.dirs _ hnode) (not_isUploadDir_manifest rel)
    | file c =>
      have hcontent := FileTree.contentAt_eq_some.mpr hnode
      have haddress : ∃ a : UploadAddress, rel ++ ["upload.json"] = a.path := by
        by_contra hnone
        rw [h.stores.elsewhere _ fun a heq => hnone ⟨a, heq⟩] at hcontent
        cases hcontent
      obtain ⟨a, ha⟩ := haddress
      rw [ha, h.stores.content] at hcontent
      obtain ⟨b, id, file⟩ := a
      obtain ⟨hfile, hrel⟩ := manifest_of_path ha
      cases hfile
      obtain ⟨u, hu, -⟩ := Option.map_eq_some_iff.mp hcontent
      exact ⟨b, id, u, hrel, hu⟩
  · rintro ⟨b, id, u, rfl, hu⟩
    refine ⟨.file (.upload u), FileTree.contentAt_eq_some.mp ?_⟩
    have hcontent := h.stores.content ⟨b, id, .manifest⟩
    rw [UploadLedger.content, hu, Option.map_some] at hcontent
    exact hcontent

/-- The directory of an upload. -/
def uploadRoot (root : FsPath) (p : Namespace × String) : List String :=
  multipartPath root (uploadDir p.1 p.2)

theorem uploadRoot_inj {p p' : Namespace × String} :
    uploadRoot root p = uploadRoot root p' ↔ p = p' := by
  rw [uploadRoot, uploadRoot, multipartPath_inj, uploadDir_inj, Prod.ext_iff]

theorem uploadRoot_isPrefix {p p' : Namespace × String} :
    uploadRoot root p <+: uploadRoot root p' ↔ p = p' := by
  constructor
  · intro hprefix
    have hdirs := multipartPath_isPrefix.mp hprefix
    exact uploadRoot_inj.mp (congrArg (multipartPath root) (hdirs.eq_of_length rfl))
  · rintro rfl
    exact List.prefix_rfl

/-- **A stale upload**: there is one, and its manifest was modified before the cutoff. -/
structure StaleUpload (root : FsPath) (modified : List String → Option Int) (cutoff : Int)
    (ledger : UploadLedger) (p : Namespace × String) : Prop where
  upload : ∃ u, ledger.upload p = some u
  before :
    (modified (multipartPath root (⟨p.1, p.2, .manifest⟩ : UploadAddress).path)).getD 0 < cutoff

theorem isStale_uploadRoot {modified : List String → Option Int} {cutoff : Int}
    (p : Namespace × String) : isStale modified cutoff (uploadRoot root p) = true ↔
      (modified (multipartPath root (⟨p.1, p.2, .manifest⟩ : UploadAddress).path)).getD 0 <
        cutoff := by
  have hpath : uploadRoot root p ++ ["upload.json"] =
      multipartPath root (⟨p.1, p.2, .manifest⟩ : UploadAddress).path := by
    simp [uploadRoot, multipartPath, UploadAddress.path, UploadFile.names]
  rw [isStale, hpath, decide_eq_true_eq]

/-- The manifest of an upload is in its directory, which is below that of all uploads. -/
theorem lookup_uploadRoot (h : Describes root dg ledger t) {p : Namespace × String}
    {u : MultipartUpload} (hu : ledger.upload p = some u) :
    t.lookup (uploadRoot root p) = some .dir ∧ t.lookup (multipartPath root []) = some .dir := by
  obtain ⟨b, id⟩ := p
  have hcontent := h.stores.content ⟨b, id, .manifest⟩
  rw [UploadLedger.content, hu, Option.map_some] at hcontent
  have hfile := FileTree.contentAt_eq_some.mp hcontent
  constructor
  · refine FileTree.lookup_above hfile ?_ ?_
    · rw [uploadRoot, multipartPath_isPrefix, uploadDir_isPrefix_path]
      exact ⟨rfl, rfl⟩
    · rw [uploadRoot, Ne, multipartPath_inj]
      intro heq
      have hlength := congrArg List.length heq
      simp [UploadAddress.path, uploadDir, UploadFile.names] at hlength
  · refine FileTree.lookup_above hfile (multipartPath_isPrefix.mpr List.nil_prefix) ?_
    rw [Ne, multipartPath_inj]
    exact fun heq => UploadAddress.path_ne_nil _ heq.symm

theorem uploadRoot_reached (h : Describes root dg ledger t) {p : Namespace × String}
    {u : MultipartUpload} (hu : ledger.upload p = some u) :
    t.Reached (hasManifest t) (multipartPath root []) (uploadRoot root p) := by
  refine ⟨(lookup_uploadRoot h hu).1, multipartPath_isPrefix.mpr List.nil_prefix, ?_⟩
  rintro q ⟨rel, rfl⟩ hq hne
  have hrel : multipartPath root [] ++ rel = multipartPath root rel := by simp [multipartPath]
  rw [hrel] at hq hne ⊢
  rw [Bool.eq_false_iff]
  intro hmanifest
  -- A directory above would be one of an upload too, as deep as this one.
  obtain ⟨b, id, -, rfl, -⟩ := (hasManifest_iff h).mp hmanifest
  exact hne (uploadRoot_inj.mpr (uploadRoot_isPrefix.mp hq : (b, id) = p))

/-- **What is collected** are the stale uploads, each once. -/
theorem collectStale_eq (h : Describes root dg ledger t) (order : EntryOrder String StorageContent)
    (modified : List String → Option Int) (cutoff : Int) :
    ∃ (stale : List (Namespace × String)) (n : Nat), stale.Nodup ∧
      (∀ p, p ∈ stale ↔ StaleUpload root modified cutoff ledger p) ∧
      ∀ fuel ≥ n, collectStaleMultipartUploadRoots order modified cutoff t
        (multipartPath root []) fuel = some (stale.map (uploadRoot root)) := by
  cases hroot : t.lookup (multipartPath root []) with
  | none =>
    refine ⟨[], 0, List.nodup_nil, ?_, ?_⟩
    · intro p
      refine iff_of_false List.not_mem_nil ?_
      rintro ⟨⟨u, hu⟩, -⟩
      rw [(lookup_uploadRoot h hu).2] at hroot
      cases hroot
    · intro fuel _
      rw [collectStaleMultipartUploadRoots, hroot, Option.isNone_none, if_pos rfl, List.map_nil]
  | some node =>
    have hdir : t.lookup (multipartPath root []) = some .dir := by
      cases node with
      | dir => exact hroot
      | file c =>
        have hcontent := h.stores.elsewhere [] fun a heq => a.path_ne_nil heq.symm
        rw [FileTree.contentAt_eq_some.mpr hroot] at hcontent
        cases hcontent
    have hjoin : ∀ queue new : List (List String), (queue ++ new).Perm (new ++ queue) :=
      fun queue new => List.perm_append_comm
    obtain ⟨met, n, hexplore, hnodup, hmet⟩ := FileTree.walk_reached order (hasManifest t)
      (multipartPath_ne_nil root []) hdir hjoin
    -- Of the directories that are met, those with a manifest are the uploads.
    have hroots :
        ∀ path ∈ met.filter fun path => hasManifest t path && isStale modified cutoff path,
          path ∈ Set.range (uploadRoot root) := by
      intro path hpath
      obtain ⟨hin, hstale⟩ := List.mem_filter.mp hpath
      rw [Bool.and_eq_true] at hstale
      obtain ⟨rel, rfl⟩ := ((hmet path).mp hin).below
      have hrel : multipartPath root [] ++ rel = multipartPath root rel := by simp [multipartPath]
      rw [hrel] at hstale ⊢
      obtain ⟨b, id, -, rfl, -⟩ := (hasManifest_iff h).mp hstale.1
      exact ⟨(b, id), rfl⟩
    obtain ⟨stale, hstale⟩ :
        (met.filter fun path => hasManifest t path && isStale modified cutoff path) ∈
          Set.range (List.map (uploadRoot root)) := by
      rw [Set.range_list_map]
      exact hroots
    have hmem : ∀ p, p ∈ stale ↔ StaleUpload root modified cutoff ledger p := by
      intro p
      have hiff : p ∈ stale ↔ uploadRoot root p ∈ stale.map (uploadRoot root) := by
        rw [List.mem_map_of_injective fun _ _ heq => uploadRoot_inj.mp heq]
      rw [hiff, hstale, List.mem_filter, hmet, Bool.and_eq_true, isStale_uploadRoot]
      constructor
      · rintro ⟨-, hmanifest, hbefore⟩
        obtain ⟨b, id, u, hdir, hu⟩ := (hasManifest_iff h).mp hmanifest
        obtain ⟨hb, hid⟩ := uploadDir_inj.mp hdir
        exact ⟨⟨u, by rwa [← hb, ← hid] at hu⟩, hbefore⟩
      · rintro ⟨⟨u, hu⟩, hbefore⟩
        exact ⟨uploadRoot_reached h hu, (hasManifest_iff h).mpr ⟨p.1, p.2, u, rfl, hu⟩, hbefore⟩
    refine ⟨stale, n, ?_, hmem, ?_⟩
    · refine List.Nodup.of_map (uploadRoot root) ?_
      rw [hstale]
      exact hnodup.filter _
    · intro fuel hle
      rw [collectStaleMultipartUploadRoots, hdir, Option.isNone_some, if_neg Bool.false_ne_true,
        collectStaleLoop_eq, hexplore fuel hle, Option.map_some, hstale, List.nil_append]

end Recognised

/-! ### What is removed -/

theorem removeUploadRoots_eq {roots : List (List String)} {t : StorageFiles}
    (hdirs : ∀ r ∈ roots, t.lookup r = some .dir) (hne : ∀ r ∈ roots, r ≠ [])
    (hapart : roots.Pairwise fun r r' => ¬ r <+: r') (removed : Nat) :
    ∃ t', removeUploadRoots t roots removed = (t', .ok (removed + roots.length)) ∧
      (∀ q, (∃ r ∈ roots, r <+: q) → t'.lookup q = none) ∧
      ∀ q, (∀ r ∈ roots, ¬ r <+: q) → t'.lookup q = t.lookup q := by
  induction roots generalizing t removed with
  | nil => exact ⟨t, rfl, by simp, fun _ _ => rfl⟩
  | cons r roots ih =>
    rw [List.forall_mem_cons] at hdirs hne
    rw [List.pairwise_cons] at hapart
    obtain ⟨t₁, hremove⟩ := FileTree.removeDirAll_isOk hdirs.1
    have hkept : ∀ q, ¬ r <+: q → t₁.lookup q = t.lookup q := by
      intro q hq
      by_cases hroot : q = []
      · rw [hroot, FileTree.lookup_root, FileTree.lookup_root]
      · rw [FileTree.removeDirAll_ok hremove q hroot, if_neg hq]
    have hdirs₁ : ∀ r' ∈ roots, t₁.lookup r' = some .dir := by
      intro r' hr'
      rw [hkept r' (hapart.1 r' hr')]
      exact hdirs.2 r' hr'
    obtain ⟨t', hrest, hgone, hother⟩ := ih hdirs₁ hne.2 hapart.2 (removed + 1)
    refine ⟨t', ?_, ?_, ?_⟩
    · have hcount : removed + (r :: roots).length = removed + 1 + roots.length := by
        rw [List.length_cons]
        omega
      rw [removeUploadRoots, hremove, hcount]
      exact hrest
    · rintro q ⟨r', hr', hq⟩
      by_cases hrest : ∃ r' ∈ roots, r' <+: q
      · exact hgone q hrest
      · rw [hother q fun r'' hr'' hq' => hrest ⟨r'', hr'', hq'⟩]
        rcases List.mem_cons.mp hr' with rfl | hr'
        · have hqne : q ≠ [] := by
            rintro rfl
            exact hne.1 (List.prefix_nil.mp hq)
          rw [FileTree.removeDirAll_ok hremove q hqne, if_pos hq]
        · exact absurd ⟨r', hr', hq⟩ hrest
    · intro q hq
      rw [List.forall_mem_cons] at hq
      rw [hother q hq.2, hkept q hq.1]

/-- **The cleanup is exact.** -/
structure CleanedUp (root : FsPath) (stale : List (Namespace × String)) (t t' : StorageFiles) :
    Prop where
  removed : ∀ p ∈ stale, ∀ rel, t'.lookup (uploadRoot root p ++ rel) = none
  kept : ∀ q, (∀ p ∈ stale, ¬ uploadRoot root p <+: q) → t'.lookup q = t.lookup q
  uploads : ∀ a : UploadAddress, (a.bucket, a.uploadId) ∉ stale →
    t'.contentAt (multipartPath root a.path) = t.contentAt (multipartPath root a.path)
  objects : KeepsObjects root t t'

theorem cleanedUp_of_removed {root : FsPath} {stale : List (Namespace × String)}
    {t t' : StorageFiles}
    (hgone : ∀ q, (∃ r ∈ stale.map (uploadRoot root), r <+: q) → t'.lookup q = none)
    (hother : ∀ q, (∀ r ∈ stale.map (uploadRoot root), ¬ r <+: q) → t'.lookup q = t.lookup q) :
    CleanedUp root stale t t' := by
  have hkept : ∀ q, (∀ p ∈ stale, ¬ uploadRoot root p <+: q) → t'.lookup q = t.lookup q := by
    intro q hq
    refine hother q fun r hr => ?_
    obtain ⟨p, hp, rfl⟩ := List.mem_map.mp hr
    exact hq p hp
  refine ⟨?_, hkept, ?_, ?_⟩
  · intro p hp rel
    exact hgone _ ⟨_, List.mem_map.mpr ⟨p, hp, rfl⟩, List.prefix_append _ rel⟩
  · intro a ha
    refine FileTree.contentAt_congr (hkept _ fun p hp hprefix => ?_)
    obtain ⟨hb, hid⟩ := uploadDir_isPrefix_path.mp (multipartPath_isPrefix.mp hprefix)
    exact ha (by rw [hb, hid]; exact hp)
  · intro tree htree b rel
    exact FileTree.contentAt_congr (hkept _ fun p _ => not_multipartPath_isPrefix htree _ rel)

/-- **Stale uploads are cleaned up.** -/
theorem stale_cleanup {root : FsPath} {t₀ : StorageFiles} (h : NoUploads root t₀) (dg : Digests)
    (ops : List UploadOp) (order : EntryOrder String StorageContent)
    (modified : List String → Option Int) (cutoff : Int) :
    let s := runUploads root dg t₀ ops
    ∃ (stale : List (Namespace × String)) (t' : StorageFiles) (n : Nat),
      stale.Nodup ∧ (∀ p, p ∈ stale ↔ StaleUpload root modified cutoff s.ledger p) ∧
      (∀ fuel ≥ n, cleanupStaleMultipartUploads order modified cutoff root s.files fuel =
        some (t', .ok stale.length)) ∧ CleanedUp root stale s.files t' := by
  intro s
  have hdescribes : Describes root dg s.ledger s.files := runUploads_describes h ops
  obtain ⟨stale, n, hnodup, hmem, hcollect⟩ := collectStale_eq hdescribes order modified cutoff
  have hdirs : ∀ r ∈ stale.map (uploadRoot root), s.files.lookup r = some .dir := by
    intro r hr
    obtain ⟨p, hp, rfl⟩ := List.mem_map.mp hr
    obtain ⟨u, hu⟩ := ((hmem p).mp hp).upload
    exact (lookup_uploadRoot hdescribes hu).1
  have hne : ∀ r ∈ stale.map (uploadRoot root), r ≠ [] := by
    intro r hr
    obtain ⟨p, -, rfl⟩ := List.mem_map.mp hr
    exact multipartPath_ne_nil root _
  have hapart : (stale.map (uploadRoot root)).Pairwise fun r r' => ¬ r <+: r' := by
    rw [List.pairwise_map]
    exact hnodup.imp fun hne hprefix => hne (uploadRoot_isPrefix.mp hprefix)
  obtain ⟨t', hremove, hgone, hother⟩ := removeUploadRoots_eq hdirs hne hapart 0
  rw [List.length_map, Nat.zero_add] at hremove
  refine ⟨stale, t', n, hnodup, hmem, ?_, cleanedUp_of_removed hgone hother⟩
  intro fuel hle
  rw [cleanupStaleMultipartUploads, root_multipart_names, hcollect fuel hle, Option.map_some,
    hremove]

/-- Entries in the order of the table. -/
def tableOrder : EntryOrder String StorageContent := ⟨fun _ entries => entries, fun _ _ => .refl _⟩

def draftId : UploadId := ⟨"7d0c9be2-41f3-4a6b-8c55-9f1e2b3a4c5d", by decide +kernel⟩

/-- The note, and an upload that was begun later. -/
def twoUploads : List UploadOp := noteUploads ++ [.create "t1" draftId noteBucket "b.txt" none]

def manifestFile (id : UploadId) : List String :=
  multipartPath dataRoot (⟨noteBucket.toNamespace, id.val, .manifest⟩ : UploadAddress).path

/-- When the manifests were written. -/
def manifestTimes (names : List String) : Option Int :=
  if names = manifestFile noteId then some 5 else some 20

/-- The note is removed, and the later upload is there as before. -/
theorem stale_note_removed :
    ∃ (stale : List (Namespace × String)) (t' : StorageFiles) (n : Nat),
      (noteBucket.toNamespace, noteId.val) ∈ stale ∧
      (noteBucket.toNamespace, draftId.val) ∉ stale ∧
      (t'.contentAt (manifestFile draftId)).isSome = true ∧
      (∀ fuel ≥ n, cleanupStaleMultipartUploads tableOrder manifestTimes 10 dataRoot
        (runUploads dataRoot (storageDigests id id) .empty twoUploads).files fuel =
          some (t', .ok stale.length)) ∧
      CleanedUp dataRoot stale
        (runUploads dataRoot (storageDigests id id) .empty twoUploads).files t' := by
  have hfree : NoUploads dataRoot .empty := FileTree.lookup_empty _
  have hupload : (runUploads dataRoot (storageDigests id id) .empty twoUploads).ledger.upload
        (noteBucket.toNamespace, noteId.val) = some noteUpload ∧
      ((runUploads dataRoot (storageDigests id id) .empty twoUploads).files.contentAt
        (manifestFile draftId)).isSome = true := by
    decide +kernel
  obtain ⟨hnote, hdraft⟩ := hupload
  obtain ⟨stale, t', n, -, hmem, hcleanup, hdone⟩ := stale_cleanup hfree (storageDigests id id)
    twoUploads tableOrder manifestTimes 10
  have hbefore : (manifestTimes (manifestFile noteId)).getD 0 < 10 := by decide +kernel
  have hlater : ¬ (manifestTimes (manifestFile draftId)).getD 0 < 10 := by decide +kernel
  have hkept : (noteBucket.toNamespace, draftId.val) ∉ stale :=
    fun hstale => hlater ((hmem _).mp hstale).before
  refine ⟨stale, t', n, (hmem _).mpr ⟨⟨noteUpload, hnote⟩, hbefore⟩, hkept, ?_, hcleanup, hdone⟩
  rw [manifestFile, hdone.uploads _ hkept]
  exact hdraft

end Peanut
