import Peanut.Library.KeysetPaging
import Peanut.Storage.ObjectLists
import Peanut.Storage.Refinement

/-!
# Listing a bucket while it changes

A client fetches `list_objects_v2` page after page, each with the continuation token of the
page before it, while objects are put, completed and deleted.  The files represent the
tables, and a token is the key of an object, so the pages are those of
the tables behind a key: what stays is listed, once, in the order of the keys.
-/

namespace Peanut

open Relational StorageFiles

/-! ### What there is to list -/

/-- How an object is listed. -/
def StoredObject.listed (o : StoredObject) : StorageListItem :=
  StorageFiles.itemOf o.path.key ⟨o.metadata, {}⟩

/-- What there is to list of a bucket, below a start. -/
def LocalStorage.listed (st : LocalStorage) (b : Namespace) (s : Option String) :
    List StorageListItem :=
  ((st.objects.select fun o => o.path.namespace_ == b).map StoredObject.listed).filter
    fun item => IsBelow (s.getD "") item

/-- The text under which an object is listed leads back to it. -/
def LocalStorage.KeysReadBack (st : LocalStorage) : Prop :=
  ∀ o ∈ st.objects, normalizeObjectKey (keyText o.path.key) = .ok o.path.key

/-- From the largest down in this order is from the first key on. -/
def listKey (item : StorageListItem) : Stringᵒᵈ := OrderDual.toDual item.key

section Tables

variable {root : FsPath} {dg : Digests} {st : LocalStorage} {t : StorageFiles}
  {b : BucketNamespace} {start s : Option String}

theorem mem_listed {item : StorageListItem} :
    item ∈ st.listed b.toNamespace s ↔ ∃ o ∈ st.objects, o.path.namespace_ = b.toNamespace ∧
      item = o.listed ∧ IsBelow (s.getD "") item := by
  simp only [LocalStorage.listed, List.mem_filter, List.mem_map, KeyedTable.mem_select, beq_iff_eq,
    decide_eq_true_eq]
  constructor
  · rintro ⟨⟨o, ⟨ho, hb⟩, rfl⟩, hbelow⟩
    exact ⟨o, ho, hb, rfl, hbelow⟩
  · rintro ⟨o, ho, hb, rfl, hbelow⟩
    exact ⟨⟨o, ⟨ho, hb⟩, rfl⟩, hbelow⟩

theorem LocalStorage.keys_distinct (st : LocalStorage) (ns : Namespace) :
    (st.objects.select fun o => o.path.namespace_ == ns).Pairwise fun o o' =>
      o.path.key ≠ o'.path.key := by
  have hpaths : st.objects.rows.Pairwise fun o o' => o.path ≠ o'.path :=
    List.pairwise_map.mp st.objects.nodup
  refine (hpaths.filter _).imp_of_mem ?_
  intro o o' ho ho' hne hkey
  obtain ⟨-, hb⟩ := List.mem_filter.mp ho
  obtain ⟨-, hb'⟩ := List.mem_filter.mp ho'
  rw [beq_iff_eq] at hb hb'
  rcases hpath : o.path with ⟨ns₁, key₁⟩
  rcases hpath' : o'.path with ⟨ns₂, key₂⟩
  rw [hpath, hpath'] at hne
  rw [hpath] at hb hkey
  rw [hpath'] at hb' hkey
  exact hne (congrArg₂ ObjectPath.mk (hb.trans hb'.symm) hkey)

theorem LocalStorage.KeysReadBack.keyed (h : st.KeysReadBack) :
    KeysetPaging.Keyed listKey (st.listed b.toNamespace s) := by
  rw [LocalStorage.listed, KeysetPaging.Keyed]
  refine List.Pairwise.filter _ (List.pairwise_map.mpr ?_)
  refine (st.keys_distinct b.toNamespace).imp_of_mem ?_
  intro o o' ho ho' hne heq
  have hkeys : keyText o.path.key = keyText o'.path.key := OrderDual.toDual.injective heq
  have hback := h o (KeyedTable.mem_select.mp ho).1
  rw [hkeys, h o' (KeyedTable.mem_select.mp ho').1, Except.ok.injEq] at hback
  exact hne hback.symm

theorem normalizeOptionalKey_keyText {parts : List String}
    (h : normalizeObjectKey (keyText parts) = .ok parts) :
    normalizeOptionalKey (some (keyText parts)) = .ok (some (keyText parts)) := by
  obtain ⟨hne, -⟩ := normalizeObjectKey_eq_ok.mp h
  have hblank : isBlank (keyText parts) = false := by
    rw [isBlank, beq_eq_false_iff_ne]
    intro hempty
    rw [hempty] at hne
    exact hne rfl
  rw [normalizeOptionalKey, Option.filter_some, hblank]
  simp only [Bool.not_false, if_true, h, Outcome.ok_bind]
  rfl

theorem Represents.find?_of_content (h : Represents root dg st t) {parts : List String}
    {c : StorageContent} (hc : t.contentAt (objectFile root b.toNamespace parts) = some c) :
    ∃ o ∈ st.objects, o.path = ⟨b.toNamespace, parts⟩ := by
  rw [h.objects.data b parts] at hc
  obtain ⟨o, ho, -⟩ := Option.map_eq_some_iff.mp hc
  exact ⟨o, KeyedTable.find?_eq_some.mp ho⟩

theorem Represents.files_of_object (h : Represents root dg st t) (hreads : st.KeysReadBack)
    {o : StoredObject} (ho : o ∈ st.objects) (hb : o.path.namespace_ = b.toNamespace) :
    t.contentAt (objectFile root b.toNamespace o.path.key) = some (.bytes o.data) ∧
      t.contentAt (metadataFile root b.toNamespace o.path.key) =
        some (.metadata ⟨o.metadata, {}⟩) := by
  have hfound : st.objects.find? ⟨b.toNamespace, o.path.key⟩ = some o := by
    rw [KeyedTable.find?_eq_some, ← hb]
    exact ⟨ho, rfl⟩
  have hne := (normalizeObjectKey_ok (hreads o ho)).1
  rw [h.objects.data b, h.objects.metadata b _ hne, hfound]
  exact ⟨rfl, rfl⟩

theorem Represents.getObject_listed (h : Represents root dg st t) (hreads : st.KeysReadBack)
    {o : StoredObject} (ho : o ∈ st.objects) (hb : o.path.namespace_ = b.toNamespace) :
    StorageFiles.getObject root t b.toNamespace o.listed.key = .ok (o.data, ⟨o.metadata, {}⟩) :=
  (getObject_eq_ok root b (hreads o ho)).mpr (h.files_of_object hreads ho hb)

theorem Represents.metadataComplete (h : Represents root dg st t) (hreads : st.KeysReadBack) :
    MetadataComplete root t b.toNamespace := by
  intro parts c hc
  obtain ⟨o, ho, hpath⟩ := h.find?_of_content hc
  have hkey : o.path.key = parts := by rw [hpath]
  have hb : o.path.namespace_ = b.toNamespace := by rw [hpath]
  obtain ⟨-, hmetadata⟩ := h.files_of_object hreads ho hb
  rw [hkey] at hmetadata
  exact ⟨hkey ▸ (normalizeObjectKey_ok (hreads o ho)).1, _, hmetadata⟩

theorem Represents.holdsObjects (h : Represents root dg st t) (hreads : st.KeysReadBack) :
    HoldsObjects root t b.toNamespace
      ((st.objects.select fun o => o.path.namespace_ == b.toNamespace).map fun o =>
        (o.path.key, ⟨o.metadata, {}⟩)) := by
  refine ⟨?_, ?_⟩
  · rw [List.map_map, List.Nodup, List.pairwise_map]
    exact st.keys_distinct b.toNamespace
  · intro parts m
    simp only [List.mem_map, KeyedTable.mem_select, beq_iff_eq, Prod.mk.injEq]
    constructor
    · rintro ⟨o, ⟨ho, hb⟩, rfl, rfl⟩
      obtain ⟨hdata, hmetadata⟩ := h.files_of_object hreads ho hb
      exact ⟨⟨_, hdata⟩, hmetadata⟩
    · rintro ⟨⟨c, hc⟩, hm⟩
      obtain ⟨o, ho, hpath⟩ := h.find?_of_content hc
      have hb : o.path.namespace_ = b.toNamespace := by rw [hpath]
      obtain ⟨-, hmetadata⟩ := h.files_of_object hreads ho hb
      have hkey : o.path.key = parts := by rw [hpath]
      rw [hkey, hm, Option.some.injEq, StorageContent.metadata.injEq] at hmetadata
      exact ⟨o, ⟨ho, hb⟩, hkey, hmetadata.symm⟩

/-! ### A page -/

/-- What there is to list, as entries in the order of their keys. -/
structure Lists (root : FsPath) (t : StorageFiles) (b : Namespace) (start : Option String)
    (rows : List StorageListItem) : Prop where
  entries : t.listEntries root b start none =
    .ok ((KeysetPaging.descending listKey rows).map ListEntry.object)
  keyed : KeysetPaging.Keyed listKey rows
  readsBack : ∀ item ∈ rows, normalizeOptionalKey (some item.key) = .ok (some item.key)

/-- Two lists in the strict order of their keys that have the same rows are one list. -/
theorem eq_descending {rows sorted : List StorageListItem}
    (hkeyed : KeysetPaging.Keyed listKey rows)
    (hperm : sorted.Perm rows) (hsorted : sorted.Pairwise fun a a' => a.key ≤ a'.key) :
    sorted = KeysetPaging.descending listKey rows := by
  have hkeyed' : KeysetPaging.Keyed listKey sorted :=
    hperm.symm.pairwise hkeyed fun hab => hab.symm
  refine (hperm.trans (List.mergeSort_perm rows _).symm).eq_of_pairwise ?_ hsorted
    (KeysetPaging.pairwise_descending listKey rows)
  intro a a' ha ha' hle hle'
  exact hkeyed'.eq_of_key_eq ha (hperm.symm.subset ((KeysetPaging.mem_descending listKey).mp ha'))
    (OrderDual.toDual.injective.eq_iff.mpr (le_antisymm hle hle'))

/-- **What the tables hold is what the files list.** -/
theorem Represents.lists (h : Represents root dg st t) (hreads : st.KeysReadBack)
    (hstart : normalizeOptionalStart start = .ok s) :
    Lists root t b.toNamespace start (st.listed b.toNamespace s) := by
  refine ⟨?_, hreads.keyed, ?_⟩
  · have hitems := bucketObjects_eq (h.metadataComplete (b := b) hreads)
    have hperm : ((storedObjects root t b.toNamespace).map listedOf).Perm
        ((st.objects.select fun o => o.path.namespace_ == b.toNamespace).map
          StoredObject.listed) := by
      have hheld := (holdsObjects_stored.perm (h.holdsObjects (b := b) hreads)).map listedOf
      rwa [List.map_map] at hheld
    have hentries : t.listEntries root b.toNamespace start none =
        .ok (bucketEntries ((storedObjects root t b.toNamespace).map listedOf) s none) := by
      rw [StorageFiles.listEntries, hstart, Outcome.ok_bind, hitems, Outcome.ok_bind]
      rfl
    obtain ⟨sorted, hsorted, heq⟩ := eq_map_object
      (bucketEntries_perm ((storedObjects root t b.toNamespace).map listedOf) s)
    have horder := listEntries_sorted hentries
    rw [heq, List.pairwise_map] at horder
    rw [hentries, heq, eq_descending hreads.keyed (hsorted.trans (hperm.filter _)) horder]
  · intro item hitem
    obtain ⟨o, ho, -, rfl, -⟩ := mem_listed.mp hitem
    exact normalizeOptionalKey_keyText (hreads o ho)

/-- The place of a token among the keys. -/
def tokenKey (token : Option String) : Option Stringᵒᵈ := token.map OrderDual.toDual

theorem filter_behind {rows : List StorageListItem} (hkeyed : KeysetPaging.Keyed listKey rows)
    (token : Option String) :
    ((KeysetPaging.descending listKey rows).map ListEntry.object).filter (behind token) =
      (KeysetPaging.descending listKey
        (KeysetPaging.behind listKey (tokenKey token) rows)).map ListEntry.object := by
  rw [List.filter_map]
  refine congrArg (List.map ListEntry.object) (eq_descending (hkeyed.behind _) ?_ ?_)
  · refine ((List.mergeSort_perm rows _).filter _).trans (List.Perm.of_eq ?_)
    refine List.filter_congr fun item _ => ?_
    cases token with
    | none => rfl
    | some v =>
      rw [Bool.eq_iff_iff]
      exact strLt_iff_lt.trans decide_eq_true_iff.symm
  · exact (KeysetPaging.pairwise_descending listKey rows).filter _

theorem filterMap_asCommon_map (l : List StorageListItem) :
    (l.map ListEntry.object).filterMap ListEntry.asCommon = [] := by
  rw [List.filterMap_map]
  exact List.filterMap_none l

/-- **A request** answers the page behind its token. -/
theorem Lists.page {rows : List StorageListItem} (h : Lists root t b.toNamespace start rows)
    (maxKeys : Option Nat) {token : Option String}
    (htoken : ∀ v, token = some v → normalizeOptionalKey (some v) = .ok (some v)) :
    let shown := KeysetPaging.page listKey (pageSize maxKeys) rows (tokenKey token)
    let rest := KeysetPaging.behind listKey (tokenKey token) rows
    t.listObjectsV2 root b.toNamespace start none maxKeys token = .ok
      { objects := shown
        commonPrefixes := []
        isTruncated := decide (pageSize maxKeys < rest.length)
        nextContinuationToken :=
          if pageSize maxKeys < rest.length then shown.getLast?.map (·.key) else none } := by
  intro shown rest
  have hkey : normalizeOptionalKey token = .ok token := by
    cases token with
    | none => rfl
    | some v => exact htoken v rfl
  have hlength : (KeysetPaging.descending listKey rest).length = rest.length :=
    List.length_mergeSort _
  rw [listObjectsV2_eq h.entries, hkey, Except.map, filter_behind h.keyed, pageFor,
    List.length_map, hlength, ← List.map_take, filterMap_asObject_map, filterMap_asCommon_map,
    List.getLast?_map, Option.map_map]
  simp only [decide_eq_true_eq]
  rfl

/-! ### Page after page -/

/-- Ask for a page, and for the next with its token, until there is none.  Each request
    finds the files as they are by then. -/
def listMeanwhile (root : FsPath) (bucket : Namespace) (start : Option String)
    (maxKeys : Option Nat) :
    List StorageFiles → (token : Option String) → Except IoError (Option (List StorageListItem))
  | [], _ => .ok none
  | t :: later, token => do
      let page ← t.listObjectsV2 root bucket start none maxKeys token
      match page.nextContinuationToken with
      | none => return some page.objects
      | some next => do
          let rest ← listMeanwhile root bucket start maxKeys later (some next)
          return rest.map (page.objects ++ ·)

/-- **The requests** scan what there is to list at each of them. -/
theorem listMeanwhile_eq {fetches : List StorageFiles} {listed : List (List StorageListItem)}
    (h : List.Forall₂ (fun t rows => Lists root t b.toNamespace start rows) fetches listed)
    {maxKeys : Option Nat} (hmax : maxKeys ≠ some 0) {token : Option String}
    (htoken : ∀ v, token = some v → normalizeOptionalKey (some v) = .ok (some v)) :
    listMeanwhile root b.toNamespace start maxKeys fetches token =
      .ok (KeysetPaging.scan listKey (pageSize maxKeys) listed (tokenKey token)) := by
  induction h generalizing token with
  | nil => rfl
  | @cons t rows later listed hrows _ ih =>
    rw [listMeanwhile, hrows.page maxKeys htoken, Outcome.ok_bind, KeysetPaging.scan]
    rcases Nat.lt_or_ge (pageSize maxKeys)
      (KeysetPaging.behind listKey (tokenKey token) rows).length with hlong | hshort
    · simp only [if_pos hlong, if_neg (Nat.not_le.mpr hlong)]
      rcases hlast : (KeysetPaging.page listKey (pageSize maxKeys) rows (tokenKey token)).getLast?
        with _ | last
      · have hnil := KeysetPaging.behind_of_page_nil (pageSize_pos hmax)
          (List.getLast?_eq_none_iff.mp hlast)
        rw [hnil] at hlong
        exact absurd hlong (Nat.not_lt_zero _)
      · obtain ⟨hmem, -⟩ := KeysetPaging.mem_behind.mp
          (KeysetPaging.mem_of_mem_page (List.mem_of_getLast? hlast))
        have hnext : ∀ v, some last.key = some v → normalizeOptionalKey (some v) =
            .ok (some v) := by
          rintro v ⟨⟩
          exact hrows.readsBack last hmem
        simp only [Option.map_some, Option.bind_some, ih hnext, Outcome.ok_bind]
        rfl
    · simp only [if_neg (Nat.not_lt.mpr hshort), if_pos hshort]
      rfl

end Tables

/-! ### Keys that read back -/

/-- The key under which an operation stores an object. -/
def FileOp.storedKey : FileOp → Option String
  | .put _ _ key _ _ => some key
  | .complete _ _ key _ _ => (normalizeObjectKey key).toOption.map keyText
  | _ => none

/-- What an operation stores can be found under the key that is listed. -/
def FileOp.KeyReadsBack (op : FileOp) : Prop :=
  ∀ key parts, op.storedKey = some key → normalizeObjectKey key = .ok parts → ReadsBack parts

section Runs

variable {root : FsPath} {dg : Digests} {st st' : LocalStorage} {t : StorageFiles}
  {b : BucketNamespace} {start s : Option String}

theorem upload_key_of_contents {os : Os} {key uploadId : String} {u : MultipartUpload}
    {parts : List CompletedMultipartPart} {contents : List UInt8 × List String}
    (h : st.multipartContents os b.toNamespace key uploadId parts = .ok (u, contents)) :
    ∃ names, normalizeObjectKey key = .ok names ∧ u.key = keyText names := by
  obtain ⟨-, -, h⟩ := Outcome.bind_eq_ok.mp h
  obtain ⟨u', hread, h⟩ := Outcome.bind_eq_ok.mp h
  obtain ⟨contents', -, hok⟩ := Outcome.bind_eq_ok.mp h
  cases hok
  obtain ⟨id, -, hread⟩ := Outcome.bind_eq_ok.mp hread
  obtain ⟨-, -, hread⟩ := Outcome.bind_eq_ok.mp hread
  obtain ⟨u', -, hread⟩ := Outcome.bind_eq_ok.mp hread
  obtain ⟨names, hnames, hread⟩ := Outcome.bind_eq_ok.mp hread
  obtain ⟨_, hsame, hok⟩ := Outcome.bind_eq_ok.mp hread
  cases hok
  rw [Outcome.ensure_eq_ok, Bool.and_eq_true, beq_iff_eq, beq_iff_eq] at hsame
  exact ⟨names, hnames, hsame.2⟩

/-- **Where an operation leaves objects**: where there were some, or in the place of the key
    that it stores. -/
theorem FileOp.apply_path {op : FileOp} {answer : FileAnswer}
    (h : op.apply dg st = .ok (answer, st')) {o : StoredObject} (ho : o ∈ st'.objects) :
    o ∈ st.objects ∨
      ∃ key, op.storedKey = some key ∧ normalizeObjectKey key = .ok o.path.key := by
  -- where a new object lies
  have hplace : ∀ {bucket : Namespace} {key path} {now : String},
      LocalStorage.writablePath (willingOs now) bucket key = some path →
        normalizeObjectKey key = .ok path.key := by
    intro bucket key path now hpath
    obtain ⟨parts, hparts, hok⟩ :=
      Outcome.bind_eq_ok.mp (LocalStorage.writablePath_eq_some.mp hpath).2
    cases hok
    exact hparts
  cases op with
  | put now b key data contentType =>
    rw [FileOp.apply] at h
    obtain ⟨⟨m, st₁⟩, hput, heq⟩ := Outcome.map_eq_ok.mp h
    cases heq
    rcases LocalStorage.putObject_spec dg st (willingOs now) b.toNamespace key data contentType with
      ⟨path, m', hpath, -, -, hstored⟩ | ⟨-, e, hrefused⟩
    · rw [hstored] at hput
      cases hput
      rcases KeyedTable.mem_upsert.mp ho with ⟨hold, -⟩ | rfl
      · exact .inl hold
      · exact .inr ⟨key, rfl, hplace hpath⟩
    · rw [hrefused] at hput
      cases hput
  | get b key =>
    rw [FileOp.apply] at h
    obtain ⟨o', -, heq⟩ := Outcome.map_eq_ok.mp h
    cases heq
    exact .inl ho
  | delete b key =>
    rw [FileOp.apply] at h
    obtain ⟨st₁, hdelete, heq⟩ := Outcome.map_eq_ok.mp h
    cases heq
    obtain ⟨path, o', -, -, rfl⟩ := LocalStorage.deleteObject_eq_ok.mp hdelete
    exact .inl (KeyedTable.mem_erase.mp ho).1
  | create now uploadId b key contentType =>
    rw [FileOp.apply] at h
    obtain ⟨⟨u, st₁⟩, hcreate, heq⟩ := Outcome.map_eq_ok.mp h
    cases heq
    rw [LocalStorage.createMultipartUpload] at hcreate
    obtain ⟨parts, -, hcreate⟩ := Outcome.bind_eq_ok.mp hcreate
    cases hcreate
    exact .inl ho
  | putPart b key uploadId partNumber data =>
    rw [FileOp.apply] at h
    obtain ⟨⟨p, st₁⟩, hput, heq⟩ := Outcome.map_eq_ok.mp h
    cases heq
    rw [LocalStorage.putMultipartPart] at hput
    obtain ⟨-, -, hput⟩ := Outcome.bind_eq_ok.mp hput
    obtain ⟨u, -, hput⟩ := Outcome.bind_eq_ok.mp hput
    cases hput
    exact .inl ho
  | complete now b key uploadId parts =>
    rw [FileOp.apply] at h
    obtain ⟨⟨m, st₁⟩, hcomplete, heq⟩ := Outcome.map_eq_ok.mp h
    cases heq
    obtain ⟨u, data, etags, path, hcontents, hpath, -, -, hobjects⟩ :=
      LocalStorage.completeMultipartUpload_eq_ok hcomplete
    rw [hobjects] at ho
    rcases KeyedTable.mem_upsert.mp ho with ⟨hold, -⟩ | rfl
    · exact .inl hold
    · obtain ⟨names, hnames, hkey⟩ := upload_key_of_contents hcontents
      refine .inr ⟨u.key, ?_, hplace hpath⟩
      rw [FileOp.storedKey, hnames, hkey]
      rfl
  | abort b key uploadId =>
    rw [FileOp.apply] at h
    obtain ⟨st₁, habort, heq⟩ := Outcome.map_eq_ok.mp h
    cases heq
    rw [LocalStorage.abortMultipartUpload] at habort
    obtain ⟨u, -, habort⟩ := Outcome.bind_eq_ok.mp habort
    cases habort
    exact .inl ho

/-- **Step lemma.** -/
theorem StorageLevels.step_readsBack {levels : StorageLevels} {op : FileOp}
    (hreads : op.KeyReadsBack) (h : levels.tables.KeysReadBack) :
    (levels.step root dg op).tables.KeysReadBack := by
  intro o ho
  rw [StorageLevels.step] at ho
  simp only at ho
  split at ho
  · rename_i _ answer tables _ happly
    rcases FileOp.apply_path happly ho with hold | ⟨key, hstored, hkey⟩
    · exact h o hold
    · exact (normalizeObjectKey_keyText_iff hkey).mpr (hreads key _ hstored hkey)
  · exact h o ho

/-- No operation tears, and none stores a key that does not read back. -/
structure OrderlyOps (root : FsPath) (dg : Digests) (t : StorageFiles) (ops : List FileOp) :
    Prop where
  whole : ∀ before op after, ops = before ++ op :: after →
    ¬ op.Tearing root (runLevels root dg t before).files
  readsBack : ∀ op ∈ ops, op.KeyReadsBack

/-- **Run lemma.** -/
theorem runLevels_orderly (h : EmptyStorage root t) {ops : List FileOp}
    (hops : OrderlyOps root dg t ops) :
    let levels := runLevels root dg t ops
    Represents root dg levels.tables levels.files ∧ levels.tables.KeysReadBack := by
  intro levels
  have hstep : ∀ (levels : StorageLevels) op,
      Represents root dg levels.tables levels.files ∧ levels.tables.KeysReadBack →
        ¬ op.Tearing root levels.files ∧ op.KeyReadsBack →
          Represents root dg (levels.step root dg op).tables (levels.step root dg op).files ∧
            (levels.step root dg op).tables.KeysReadBack :=
    fun levels op hlevels hop => ⟨StorageLevels.step_represents hlevels.1 hop.1,
      StorageLevels.step_readsBack hop.2 hlevels.2⟩
  have hstart : Represents root dg ({} : LocalStorage) t ∧ ({} : LocalStorage).KeysReadBack :=
    ⟨represents_empty h, nofun⟩
  refine Transition.run_invariant hstep hstart ops ?_
  intro before op after hsplit
  exact ⟨hops.whole before op after hsplit, hops.readsBack op (by simp [hsplit])⟩

/-- The storage at each of the requests: before each, some more operations are made. -/
def storageMoments (root : FsPath) (dg : Digests) (t : StorageFiles)
    (rounds : List (List FileOp)) : List StorageLevels :=
  rounds.inits.tail.map fun made => runLevels root dg t made.flatten

theorem length_storageMoments (rounds : List (List FileOp)) :
    (storageMoments root dg t rounds).length = rounds.length := by
  rw [storageMoments, List.length_map, List.length_tail, List.length_inits, Nat.add_sub_cancel]

theorem mem_storageMoments {rounds : List (List FileOp)} {m : StorageLevels}
    (hm : m ∈ storageMoments root dg t rounds) :
    ∃ made, made <+: rounds.flatten ∧ m = runLevels root dg t made := by
  obtain ⟨made, hmade, rfl⟩ := List.mem_map.mp hm
  obtain ⟨rest, rfl⟩ := (List.mem_inits _ _).mp (List.mem_of_mem_tail hmade)
  exact ⟨made.flatten, ⟨rest.flatten, List.flatten_append.symm⟩, rfl⟩

theorem OrderlyOps.of_isPrefix {ops made : List FileOp} (h : OrderlyOps root dg t ops)
    (hmade : made <+: ops) : OrderlyOps root dg t made := by
  obtain ⟨rest, rfl⟩ := hmade
  refine ⟨?_, fun op hop => h.readsBack op (List.mem_append_left rest hop)⟩
  intro before op after hsplit
  refine h.whole before op (after ++ rest) ?_
  rw [hsplit, List.append_assoc, List.cons_append]

/-- **Listing while the bucket changes**: no request fails, and the pages come to their end
    once the requests outnumber the keys.  Then they have shown each key at most once, in
    order; every object that they show was there at one of the requests, and could be fetched
    then; and every object that was there at all of them has been shown. -/
theorem listing_while_changing (h : EmptyStorage root t) (dg : Digests)
    (rounds : List (List FileOp)) (hrounds : OrderlyOps root dg t rounds.flatten)
    (b : BucketNamespace) (hstart : normalizeOptionalStart start = .ok s) {maxKeys : Option Nat}
    (hmax : maxKeys ≠ some 0) :
    let moments := storageMoments root dg t rounds
    ∃ listing, listMeanwhile root b.toNamespace start maxKeys (moments.map (·.files)) none =
        .ok listing ∧
      (∀ keys : List String, keys.length < rounds.length →
        (∀ m ∈ moments, ∀ o ∈ m.tables.objects, o.path.namespace_ = b.toNamespace →
          keyText o.path.key ∈ keys) → ∃ items, listing = some items) ∧
      ∀ items, listing = some items →
        (items.Pairwise fun item item' => item.key < item'.key) ∧
        (∀ item ∈ items, ∃ m ∈ moments, ∃ o ∈ m.tables.objects,
          o.path.namespace_ = b.toNamespace ∧ item = o.listed ∧ IsBelow (s.getD "") item ∧
            StorageFiles.getObject root m.files b.toNamespace item.key =
              .ok (o.data, ⟨o.metadata, {}⟩)) ∧
        ∀ parts, (s.getD "").toList <+: (keyText parts).toList →
          (∀ m ∈ moments, ∃ o ∈ m.tables.objects, o.path = ⟨b.toNamespace, parts⟩) →
            ∃ item ∈ items, item.key = keyText parts := by
  intro moments
  have hmoment : ∀ m ∈ moments, Represents root dg m.tables m.files ∧ m.tables.KeysReadBack := by
    intro m hm
    obtain ⟨made, hmade, rfl⟩ := mem_storageMoments hm
    exact runLevels_orderly h (hrounds.of_isPrefix hmade)
  have hlists : List.Forall₂ (fun t rows => Lists root t b.toNamespace start rows)
      (moments.map (·.files)) (moments.map fun m => m.tables.listed b.toNamespace s) := by
    rw [List.forall₂_map_left_iff, List.forall₂_map_right_iff, List.forall₂_same]
    exact fun m hm => (hmoment m hm).1.lists (hmoment m hm).2 hstart
  have hkeyed : ∀ rows ∈ moments.map fun m => m.tables.listed b.toNamespace s,
      KeysetPaging.Keyed listKey rows := by
    intro rows hrows
    obtain ⟨m, hm, rfl⟩ := List.mem_map.mp hrows
    exact (hmoment m hm).2.keyed
  refine ⟨_, listMeanwhile_eq hlists hmax nofun, ?_, ?_⟩
  · intro keys hless hall
    have hkeys : ∀ rows ∈ moments.map fun m => m.tables.listed b.toNamespace s,
        ∀ item ∈ rows, listKey item ∈ keys.map OrderDual.toDual := by
      intro rows hrows item hitem
      obtain ⟨m, hm, rfl⟩ := List.mem_map.mp hrows
      obtain ⟨o, ho, hb, rfl, -⟩ := mem_listed.mp hitem
      exact List.mem_map_of_mem (hall m hm o ho hb)
    have hfewer : (KeysetPaging.behind id (tokenKey none) (keys.map OrderDual.toDual)).length <
        (moments.map fun m => m.tables.listed b.toNamespace s).length := by
      refine (List.length_filter_le ..).trans_lt ?_
      rw [List.length_map, List.length_map, length_storageMoments]
      exact hless
    obtain ⟨l, hl⟩ := KeysetPaging.follow_ends _ hkeys hfewer
    exact KeysetPaging.scan_of_follow (pageSize_pos hmax) hl
  · intro items hitems
    obtain ⟨fetches, hsub, hfollow⟩ := KeysetPaging.follow_of_scan hitems
    have hkeyed' : ∀ rows ∈ fetches, KeysetPaging.Keyed listKey rows :=
      fun rows hrows => hkeyed rows (hsub rows hrows)
    refine ⟨?_, ?_, ?_⟩
    · exact (KeysetPaging.follow_sorted hkeyed' hfollow).imp fun hless => hless
    · intro item hitem
      obtain ⟨-, rows, hrows, hmem⟩ := KeysetPaging.follow_sound hfollow hitem
      obtain ⟨m, hm, rfl⟩ := List.mem_map.mp (hsub rows hrows)
      obtain ⟨o, ho, hb, rfl, hbelow⟩ := mem_listed.mp hmem
      exact ⟨m, hm, o, ho, hb, rfl, hbelow, (hmoment m hm).1.getObject_listed (hmoment m hm).2 ho
        hb⟩
    · intro parts hbelow hthere
      refine KeysetPaging.follow_complete_key (pageSize_pos hmax) hkeyed' hfollow
        (k := OrderDual.toDual (keyText parts)) ?_ nofun
      intro rows hrows
      obtain ⟨m, hm, rfl⟩ := List.mem_map.mp (hsub rows hrows)
      obtain ⟨o, ho, hpath⟩ := hthere m hm
      have hkey : o.listed.key = keyText parts := by
        rw [StoredObject.listed, hpath]
        rfl
      refine ⟨o.listed, mem_listed.mpr ⟨o, ho, by rw [hpath], rfl, ?_⟩, congrArg _ hkey⟩
      rw [IsBelow, hkey]
      exact hbelow

end Runs

/-- Two objects are put, and pages of one key each are fetched, each with the token of the page
    before it. -/
def noteRounds : List (List FileOp) :=
  [[.put "t0" noteBucket "b.txt" [104] none, .put "t1" noteBucket "a//note.txt" [104, 105] none],
    [], []]

theorem note_listed_meanwhile :
    ∃ items, listMeanwhile dataRoot noteBucket.toNamespace none (some 1)
        ((storageMoments dataRoot lengthDigests .empty noteRounds).map (·.files)) none =
          .ok (some items) ∧
      (items.Pairwise fun item item' => item.key < item'.key) ∧
      ∀ name ∈ ["a/note.txt", "b.txt"], ∃ item ∈ items, item.key = name := by
  have hkey : normalizeObjectKey "a//note.txt" = .ok ["a", "note.txt"] := by decide +kernel
  have hkey' : normalizeObjectKey "b.txt" = .ok ["b.txt"] := by decide +kernel
  have hplace : FreePlace dataRoot
      (runLevels dataRoot lengthDigests .empty
        [.put "t0" noteBucket "b.txt" [104] none]).files noteBucket.toNamespace
        ["a", "note.txt"] := by
    decide +kernel
  have hplace' : FreePlace dataRoot .empty noteBucket.toNamespace ["b.txt"] := by decide +kernel
  have hops : OrderlyOps dataRoot lengthDigests .empty noteRounds.flatten := by
    refine ⟨?_, ?_⟩
    · rintro (_ | ⟨first, _ | ⟨second, before⟩⟩) op after hsplit
      -- the first put
      · obtain rfl := (List.cons.inj hsplit).1
        rintro ⟨parts, hparts, htorn⟩
        obtain rfl := Except.ok.inj (hkey'.symm.trans hparts)
        exact hplace'.2 htorn.1
      -- the second put
      · obtain ⟨rfl, hrest⟩ := List.cons.inj hsplit
        obtain rfl := (List.cons.inj hrest).1
        rintro ⟨parts, hparts, htorn⟩
        obtain rfl := Except.ok.inj (hkey.symm.trans hparts)
        exact hplace.2 htorn.1
      · have hlength := congrArg List.length hsplit
        simp [noteRounds] at hlength
    · have hreads : ∀ op ∈ noteRounds.flatten, ∃ key, op.storedKey = some key ∧
          (normalizeObjectKey key = .ok ["a", "note.txt"] ∨
            normalizeObjectKey key = .ok ["b.txt"]) := by
        intro op hop
        obtain rfl | rfl : op = _ ∨ op = _ := by simpa [noteRounds] using hop
        · exact ⟨_, rfl, .inr hkey'⟩
        · exact ⟨_, rfl, .inl hkey⟩
      intro op hop key parts hstored hparts
      obtain ⟨key', hstored', hnormal⟩ := hreads op hop
      obtain rfl := Option.some.inj (hstored'.symm.trans hstored)
      rcases hnormal with hnormal | hnormal <;>
        obtain rfl := Except.ok.inj (hnormal.symm.trans hparts) <;> decide +kernel
  have hpaths : ∀ m ∈ storageMoments dataRoot lengthDigests .empty noteRounds,
      m.tables.objects.rows.map (·.path) =
        [⟨noteBucket.toNamespace, ["b.txt"]⟩, ⟨noteBucket.toNamespace, ["a", "note.txt"]⟩] := by
    decide +kernel
  obtain ⟨listing, hlisting, hends, hlisted⟩ := listing_while_changing (emptyStorage_empty dataRoot)
    lengthDigests noteRounds hops noteBucket (rfl : normalizeOptionalStart none = .ok none)
    (by decide : some 1 ≠ some 0)
  have hkeys : ∀ m ∈ storageMoments dataRoot lengthDigests .empty noteRounds,
      ∀ o ∈ m.tables.objects, o.path.namespace_ = noteBucket.toNamespace →
        keyText o.path.key ∈ ["a/note.txt", "b.txt"] := by
    intro m hm o ho _
    have hmem := List.mem_map_of_mem (f := (·.path)) ho
    rw [hpaths m hm, List.mem_pair] at hmem
    rcases hmem with hpath | hpath <;> rw [hpath] <;> decide +kernel
  have hthere : ∀ parts ∈ [["b.txt"], ["a", "note.txt"]],
      ∀ m ∈ storageMoments dataRoot lengthDigests .empty noteRounds,
        ∃ o ∈ m.tables.objects, o.path = ⟨noteBucket.toNamespace, parts⟩ := by
    intro parts hparts m hm
    have hmem : (⟨noteBucket.toNamespace, parts⟩ : ObjectPath) ∈
        m.tables.objects.rows.map (·.path) := by
      rw [hpaths m hm]
      exact List.mem_map_of_mem (f := fun parts => ObjectPath.mk noteBucket.toNamespace parts)
        hparts
    exact List.mem_map.mp hmem
  -- three requests, for two keys
  obtain ⟨items, rfl⟩ := hends ["a/note.txt", "b.txt"] (by decide) hkeys
  obtain ⟨hsorted, -, hall⟩ := hlisted items rfl
  obtain ⟨note, hnote, hname⟩ := hall ["a", "note.txt"] List.nil_prefix (hthere _ (by simp))
  obtain ⟨b, hb, hname'⟩ := hall ["b.txt"] List.nil_prefix (hthere _ (by simp))
  refine ⟨items, hlisting, hsorted, ?_⟩
  rw [List.forall_mem_cons, List.forall_mem_singleton]
  exact ⟨⟨note, hnote, hname.trans (by decide +kernel)⟩, b, hb, hname'.trans (by decide +kernel)⟩

end Peanut
