import Peanut.Library.TokenPaging
import Peanut.Storage.Grouping

/-!
# Enumerating a bucket

A client calls `list_objects_v2` with the continuation token of the last page until
there is none.  The token is the name of the last entry, and it is read back with
`normalize_optional_key`, as a key of an object: a common prefix loses its slash on
the way.  The pages are the entries of the bucket exactly when every name that
ends a page is read back to a place between it and the next name.
-/

namespace Peanut

open TokenPaging Relational

/-! ### Entries and pages -/

def ListEntry.asObject : ListEntry → Option StorageListItem
  | .object item => some item
  | .common _ => none

def ListEntry.asCommon : ListEntry → Option String
  | .object _ => none
  | .common start => some start

/-- The page answers these entries. -/
structure StorageListPage.Shows (page : StorageListPage) (entries : List ListEntry) : Prop where
  objects : page.objects = entries.filterMap ListEntry.asObject
  commonPrefixes : page.commonPrefixes = entries.filterMap ListEntry.asCommon

/-- The entries of a bucket whose objects were collected. -/
def bucketEntries (collected : List StorageListItem) (start : Option String)
    (delimiter : Option String) : List ListEntry :=
  buildListEntries (collected.mergeSort fun left right => !strLt right.key left.key)
    (start.getD "") (normalizeOptionalDelimiter delimiter)

def pageSize (maxKeys : Option Nat) : Nat := min (maxKeys.getD 1000) 1000

/-- The entries behind a token that was read back as `key`. -/
def behind (key : Option String) (entry : ListEntry) : Bool :=
  (key.map fun value => strLt value entry.token).getD true

/-- The answer to a request that lists from `rest` on. -/
def pageFor (n : Nat) (rest : List ListEntry) : StorageListPage :=
  { objects := (rest.take n).filterMap ListEntry.asObject
    commonPrefixes := (rest.take n).filterMap ListEntry.asCommon
    isTruncated := decide (n < rest.length)
    nextContinuationToken :=
      if decide (n < rest.length) then (rest.take n).getLast?.map ListEntry.token else none }

def StorageFiles.bucketObjects (root : FsPath) (t : StorageFiles) (bucket : Namespace) :
    Except IoError (List StorageListItem) := do
  let bucketRoot ← root.resolveBucketRoot bucket.text
  let metadataRoot ← root.metadataBucketRoot bucket.text
  t.collectBucketObjects bucketRoot metadataRoot

/-- The entries that a bucket is listed with. -/
def StorageFiles.listEntries (root : FsPath) (t : StorageFiles) (bucket : Namespace)
    (start delimiter : Option String) : Except IoError (List ListEntry) := do
  let start ← normalizeOptionalStart start
  let collected ← t.bucketObjects root bucket
  return bucketEntries collected start delimiter

/-- Ask for a page, and for the next with its token, until there is none. -/
def listPages (root : FsPath) (t : StorageFiles) (bucket : Namespace)
    (start delimiter : Option String) (maxKeys : Option Nat) :
    (calls : Nat) → (token : Option String) → Except IoError (Option (List StorageListPage))
  | 0, _ => .ok none
  | calls + 1, token => do
      let page ← t.listObjectsV2 root bucket start delimiter maxKeys token
      match page.nextContinuationToken with
      | none => return some [page]
      | some next => do
          let rest ← listPages root t bucket start delimiter maxKeys calls (some next)
          return rest.map (page :: ·)

/-- The calls come to an end, and the pages are the entries, one after the other. -/
def Enumerates (root : FsPath) (t : StorageFiles) (bucket : Namespace)
    (start delimiter : Option String) (maxKeys : Option Nat) (entries : List ListEntry) : Prop :=
  ∃ calls pages, listPages root t bucket start delimiter maxKeys calls none = .ok (some pages) ∧
    ∃ chunks, List.Forall₂ StorageListPage.Shows pages chunks ∧ chunks.flatten = entries

/-- Where a page ends and the next begins, the name of the last entry is read back
    as a key that is not less than it, and less than the next name. -/
def TokensReadBack (entries : List ListEntry) (n : Nat) : Prop :=
  ∀ a x y b, entries = a ++ x :: y :: b → n ∣ a.length + 1 →
    ∃ key, normalizeOptionalKey (some x.token) = .ok (some key) ∧
      strLt key x.token = false ∧ strLt key y.token = true

/-! ### The entries of a page -/

variable {root : FsPath} {t : StorageFiles} {bucket : Namespace} {start delimiter : Option String}
  {maxKeys : Option Nat} {collected : List StorageListItem} {rest chunk chunk' : List ListEntry}

theorem mem_asObject {item : StorageListItem} :
    item ∈ chunk.filterMap ListEntry.asObject ↔ ListEntry.object item ∈ chunk := by
  rw [List.mem_filterMap]
  constructor
  · rintro ⟨e, he, heq⟩
    cases e with
    | object item' =>
      cases heq
      exact he
    | common name => cases heq
  · exact fun h => ⟨_, h, rfl⟩

theorem mem_asCommon {name : String} :
    name ∈ chunk.filterMap ListEntry.asCommon ↔ ListEntry.common name ∈ chunk := by
  rw [List.mem_filterMap]
  constructor
  · rintro ⟨e, he, heq⟩
    cases e with
    | object item' => cases heq
    | common name =>
      cases heq
      exact he
  · exact fun h => ⟨_, h, rfl⟩

/-- Sorted entries whose kinds are apart are given by their objects and their common
    prefixes. -/
theorem eq_of_kinds (hchunk : chunk.Pairwise fun e e' => e.token ≤ e'.token)
    (hchunk' : chunk'.Pairwise fun e e' => e.token ≤ e'.token)
    (hkinds : ∀ item name, ListEntry.object item ∈ chunk ∨ ListEntry.object item ∈ chunk' →
      ListEntry.common name ∈ chunk ∨ ListEntry.common name ∈ chunk' → item.key ≠ name)
    (hobjects : chunk.filterMap ListEntry.asObject = chunk'.filterMap ListEntry.asObject)
    (hcommons : chunk.filterMap ListEntry.asCommon = chunk'.filterMap ListEntry.asCommon) :
    chunk = chunk' := by
  induction chunk generalizing chunk' with
  | nil =>
    cases chunk' with
    | nil => rfl
    | cons e' chunk' => cases e' <;>
      simp [ListEntry.asObject, ListEntry.asCommon] at hobjects hcommons
  | cons e chunk ih =>
    cases chunk' with
    | nil => cases e <;> simp [ListEntry.asObject, ListEntry.asCommon] at hobjects hcommons
    | cons e' chunk' =>
      obtain ⟨he, htail⟩ := List.pairwise_cons.mp hchunk
      obtain ⟨he', htail'⟩ := List.pairwise_cons.mp hchunk'
      have hkinds' : ∀ item name, ListEntry.object item ∈ chunk ∨ ListEntry.object item ∈ chunk' →
          ListEntry.common name ∈ chunk ∨ ListEntry.common name ∈ chunk' → item.key ≠ name :=
        fun item name hitem hname => hkinds item name
          (hitem.imp (List.mem_cons_of_mem e) (List.mem_cons_of_mem e'))
          (hname.imp (List.mem_cons_of_mem e) (List.mem_cons_of_mem e'))
      -- the heads are of one kind: else each stands in the tail behind the other
      cases e with
      | object item =>
        cases e' with
        | object item' =>
          obtain ⟨rfl, hrest⟩ := List.cons.inj hobjects
          rw [ih htail htail' hkinds' hrest hcommons]
        | common name =>
          have hitem : ListEntry.object item ∈ chunk' :=
            mem_asObject.mp (hobjects ▸ List.mem_cons_self)
          have hname : ListEntry.common name ∈ chunk :=
            mem_asCommon.mp (hcommons ▸ List.mem_cons_self)
          exact absurd (le_antisymm (he _ hname) (he' _ hitem))
            (hkinds item name (.inl List.mem_cons_self) (.inr List.mem_cons_self))
      | common name =>
        cases e' with
        | object item =>
          have hitem : ListEntry.object item ∈ chunk :=
            mem_asObject.mp (hobjects.symm ▸ List.mem_cons_self)
          have hname : ListEntry.common name ∈ chunk' :=
            mem_asCommon.mp (hcommons.symm ▸ List.mem_cons_self)
          exact absurd (le_antisymm (he' _ hname) (he _ hitem))
            (hkinds item name (.inr List.mem_cons_self) (.inl List.mem_cons_self))
        | common name' =>
          obtain ⟨rfl, hrest⟩ := List.cons.inj hcommons
          rw [ih htail htail' hkinds' hobjects hrest]

/-! ### One request -/

theorem normalizeOptionalKey_none : normalizeOptionalKey none = .ok none := rfl

/-- The place that a token is read back to. -/
def resumeAt (token : String) : Option (String → Bool) :=
  match normalizeOptionalKey (some token) with
  | .ok key => some fun name => (key.map fun value => strLt value name).getD true
  | .error _ => none

theorem cuts_resumeAt : Cuts resumeAt := by
  intro token cut h x y hxy hx
  unfold resumeAt at h
  split at h
  · rename_i key hkey
    cases h
    cases key with
    | none => rfl
    | some value =>
      exact strLt_iff_lt.mpr (lt_of_lt_of_le (strLt_iff_lt.mp hx) hxy)
  · cases h

theorem resumesAtEnds_iff {entries : List ListEntry} {n : Nat} :
    ResumesAtEnds ListEntry.token resumeAt entries n ↔ TokensReadBack entries n := by
  refine forall₄_congr fun a x y b => forall₂_congr fun _ _ => ?_
  rw [resumeAt]
  constructor
  · rintro ⟨cut, hcut, hx, hy⟩
    cases hkey : normalizeOptionalKey (some x.token) with
    | error e =>
      rw [hkey] at hcut
      cases hcut
    | ok key =>
      rw [hkey] at hcut
      cases hcut
      cases key with
      | none => cases hx
      | some value => exact ⟨value, rfl, hx, hy⟩
  · rintro ⟨value, hkey, hx, hy⟩
    rw [hkey]
    exact ⟨_, rfl, hx, hy⟩

section Requests

variable {entries : List ListEntry}
  (hentries : t.listEntries root bucket start delimiter = .ok entries)

include hentries

theorem listEntries_eq_ok : ∃ s collected, normalizeOptionalStart start = .ok s ∧
    t.bucketObjects root bucket = .ok collected ∧
      entries = bucketEntries collected s delimiter := by
  unfold StorageFiles.listEntries at hentries
  obtain ⟨s, hs, hentries⟩ := Outcome.bind_eq_ok.mp hentries
  obtain ⟨collected, hcollected, hentries⟩ := Outcome.bind_eq_ok.mp hentries
  exact ⟨s, collected, hs, hcollected, (Except.ok.inj hentries).symm⟩

theorem listObjectsV2_eq (token : Option String) :
    t.listObjectsV2 root bucket start delimiter maxKeys token =
      (normalizeOptionalKey token).map fun key =>
        pageFor (pageSize maxKeys) (entries.filter (behind key)) := by
  obtain ⟨s, collected, hs, hobjects, rfl⟩ := listEntries_eq_ok hentries
  unfold StorageFiles.bucketObjects at hobjects
  obtain ⟨bucketRoot, hbucket, hobjects⟩ := Outcome.bind_eq_ok.mp hobjects
  obtain ⟨metadataRoot, hmeta, hcollected⟩ := Outcome.bind_eq_ok.mp hobjects
  unfold StorageFiles.listObjectsV2
  rw [hs, Outcome.ok_bind]
  cases normalizeOptionalKey token with
  | error e => rfl
  | ok key =>
    simp only [hbucket, hmeta, hcollected, Outcome.ok_bind]
    rfl

theorem listEntries_sorted : entries.Pairwise fun e e' => e.token ≤ e'.token := by
  obtain ⟨s, collected, -, -, rfl⟩ := listEntries_eq_ok hentries
  exact buildListEntries_sorted _ _ _

theorem eq_of_shows {page : StorageListPage} (hsub : chunk.Sublist entries)
    (hsub' : chunk'.Sublist entries) (hshows : page.Shows chunk) (hshows' : page.Shows chunk') :
    chunk = chunk' := by
  have hsorted := listEntries_sorted hentries
  obtain ⟨s, collected, -, -, rfl⟩ := listEntries_eq_ok hentries
  refine eq_of_kinds (hsorted.sublist hsub) (hsorted.sublist hsub') ?_
    (hshows.objects.symm.trans hshows'.objects)
    (hshows.commonPrefixes.symm.trans hshows'.commonPrefixes)
  intro item name hitem hname
  exact token_ne_of_kinds (hitem.elim (fun h => hsub.subset h) fun h => hsub'.subset h)
    (hname.elim (fun h => hsub.subset h) fun h => hsub'.subset h)

/-! ### All requests -/

omit hentries in
theorem shows_pageFor (n : Nat) (rest : List ListEntry) : (pageFor n rest).Shows (rest.take n) :=
  ⟨rfl, rfl⟩

omit hentries in
theorem shows_pageFor_last {n : Nat} (h : rest.length ≤ n) : (pageFor n rest).Shows rest := by
  have hshows := shows_pageFor n rest
  rwa [List.take_of_length_le h] at hshows

omit hentries in
theorem nextContinuationToken_pageFor {n : Nat} (h : n < rest.length) :
    (pageFor n rest).nextContinuationToken = (rest.take n).getLast?.map ListEntry.token := by
  rw [pageFor, if_pos (decide_eq_true h)]

omit hentries in
theorem nextContinuationToken_pageFor_last {n : Nat} (h : rest.length ≤ n) :
    (pageFor n rest).nextContinuationToken = none := by
  rw [pageFor, if_neg (by simpa using h)]

omit hentries in
theorem restOf_eq_some_iff {e : ListEntry} {rest : List ListEntry} :
    restOf ListEntry.token resumeAt entries e = some rest ↔
      ∃ key, normalizeOptionalKey (some e.token) = .ok key ∧
        rest = entries.filter (behind key) := by
  rw [restOf, Option.map_eq_some_iff]
  constructor
  · rintro ⟨cut, hcut, rfl⟩
    unfold resumeAt at hcut
    split at hcut
    · rename_i key hkey
      cases hcut
      exact ⟨key, hkey, rfl⟩
    · cases hcut
  · rintro ⟨key, hkey, rfl⟩
    refine ⟨fun name => (key.map fun value => strLt value name).getD true, ?_, rfl⟩
    rw [resumeAt, hkey]

omit hentries in
theorem pageSize_pos (hmax : maxKeys ≠ some 0) : 0 < pageSize maxKeys := by
  unfold pageSize
  cases maxKeys with
  | none => decide
  | some n =>
    have hn : n ≠ 0 := fun h => hmax (congrArg some h)
    exact Nat.lt_min.mpr ⟨Nat.pos_of_ne_zero hn, by decide⟩

omit hentries in
theorem getLast?_take {n : Nat} (hn : 0 < n) (hlong : n < rest.length) :
    ∃ e, (rest.take n).getLast? = some e := by
  have hne : rest.take n ≠ [] := by
    intro hnil
    have hlen := List.length_take_of_le (Nat.le_of_lt hlong)
    rw [hnil] at hlen
    exact absurd hlen (Nat.ne_of_lt hn)
  exact ⟨_, List.getLast?_eq_some_getLast hne⟩

theorem pages_of_listPages (hmax : maxKeys ≠ some 0) {calls : Nat} {token : Option String}
    {ps : List StorageListPage}
    (h : listPages root t bucket start delimiter maxKeys calls token = .ok (some ps)) :
    ∃ key chunks, normalizeOptionalKey token = .ok key ∧
      pages (restOf ListEntry.token resumeAt entries) (pageSize maxKeys) calls
        (entries.filter (behind key)) = some chunks ∧
      List.Forall₂ StorageListPage.Shows ps chunks := by
  induction calls generalizing token ps with
  | zero => cases h
  | succ calls ih =>
    rw [listPages, listObjectsV2_eq hentries] at h
    cases hkey : normalizeOptionalKey token with
    | error e =>
      rw [hkey] at h
      cases h
    | ok key =>
      rw [hkey, Except.map, Outcome.ok_bind] at h
      rcases Nat.lt_or_ge (pageSize maxKeys) (entries.filter (behind key)).length with
        hlong | hshort
      · obtain ⟨e, he⟩ := getLast?_take (pageSize_pos hmax) hlong
        rw [nextContinuationToken_pageFor hlong, he] at h
        obtain ⟨more, hmore, h⟩ := Outcome.bind_eq_ok.mp h
        obtain ⟨ps', rfl, rfl⟩ := Option.map_eq_some_iff.mp (Except.ok.inj h)
        obtain ⟨key', chunks, hkey', hchunks, hshows⟩ := ih hmore
        refine ⟨key, _ :: chunks, rfl, ?_, .cons (shows_pageFor _ _) hshows⟩
        rw [pages, if_pos hlong, he, Option.bind_some,
          (restOf_eq_some_iff).mpr ⟨key', hkey', rfl⟩, Option.bind_some, hchunks]
        rfl
      · rw [nextContinuationToken_pageFor_last hshort] at h
        cases h
        exact ⟨key, [_], rfl, pages_last hshort, .cons (shows_pageFor_last hshort) .nil⟩

theorem listPages_of_pages (hmax : maxKeys ≠ some 0) {calls : Nat} {token key : Option String}
    {chunks : List (List ListEntry)} (hkey : normalizeOptionalKey token = .ok key)
    (h : pages (restOf ListEntry.token resumeAt entries) (pageSize maxKeys) calls
      (entries.filter (behind key)) = some chunks) :
    ∃ ps, listPages root t bucket start delimiter maxKeys calls token = .ok (some ps) ∧
      List.Forall₂ StorageListPage.Shows ps chunks := by
  induction calls generalizing token key chunks with
  | zero => cases h
  | succ calls ih =>
    rw [listPages, listObjectsV2_eq hentries, hkey, Except.map, Outcome.ok_bind]
    rcases Nat.lt_or_ge (pageSize maxKeys) (entries.filter (behind key)).length with hlong | hshort
    · obtain ⟨e, he⟩ := getLast?_take (pageSize_pos hmax) hlong
      rw [pages, if_pos hlong, he, Option.bind_some] at h
      obtain ⟨rest, hrest, h⟩ := Option.bind_eq_some_iff.mp h
      obtain ⟨chunks', hchunks', rfl⟩ := Option.map_eq_some_iff.mp h
      obtain ⟨key', hkey', rfl⟩ := (restOf_eq_some_iff).mp hrest
      obtain ⟨ps, hps, hshows⟩ := ih hkey' hchunks'
      refine ⟨_ :: ps, ?_, .cons (shows_pageFor _ _) hshows⟩
      rw [nextContinuationToken_pageFor hlong, he]
      simp only [Option.map_some, hps, Outcome.ok_bind]
      rfl
    · rw [pages_last hshort] at h
      cases h
      refine ⟨[_], ?_, .cons (shows_pageFor_last hshort) .nil⟩
      rw [nextContinuationToken_pageFor_last hshort]
      rfl

/-- The bucket is enumerated exactly when the pages behind its tokens are its entries. -/
theorem enumerates_iff (hmax : maxKeys ≠ some 0) :
    Enumerates root t bucket start delimiter maxKeys entries ↔
      ∃ fuel ps, pages (restOf ListEntry.token resumeAt entries) (pageSize maxKeys) fuel entries =
        some ps ∧ ps.flatten = entries := by
  have hall : entries.filter (behind none) = entries :=
    List.filter_eq_self.mpr fun e _ => rfl
  constructor
  · rintro ⟨calls, ps, hps, chunks, hshows, hflat⟩
    obtain ⟨key, chunks', hkey, hchunks', hshows'⟩ := pages_of_listPages hentries hmax hps
    cases hkey
    rw [hall] at hchunks'
    refine ⟨calls, chunks', hchunks', ?_⟩
    have hsub : ∀ chunk ∈ chunks, chunk.Sublist entries := fun chunk hmem =>
      hflat ▸ List.sublist_flatten_of_mem hmem
    have hsub' : ∀ chunk ∈ chunks', chunk.Sublist entries :=
      sublist_of_mem_pages hchunks' (List.Sublist.refl _)
    have hsame : chunks' = chunks := by
      clear hps hchunks' hflat
      induction hshows generalizing chunks' with
      | nil =>
        cases hshows'
        rfl
      | cons hhead _ ih =>
        rcases hshows' with _ | ⟨hhead', htail'⟩
        rw [eq_of_shows hentries (hsub' _ List.mem_cons_self) (hsub _ List.mem_cons_self) hhead'
          hhead,
          ih _ htail' (fun c hc => hsub c (List.mem_cons_of_mem _ hc))
            fun c hc => hsub' c (List.mem_cons_of_mem _ hc)]
    rw [hsame, hflat]
  · rintro ⟨fuel, chunks, hchunks, hflat⟩
    have hfirst : pages (restOf ListEntry.token resumeAt entries) (pageSize maxKeys) fuel
        (entries.filter (behind none)) = some chunks := by
      rw [hall]
      exact hchunks
    obtain ⟨ps, hps, hshows⟩ := listPages_of_pages hentries hmax normalizeOptionalKey_none hfirst
    exact ⟨fuel, ps, hps, chunks, hshows, hflat⟩

theorem enumerates_iff_resumesAtEnds (hmax : maxKeys ≠ some 0) :
    Enumerates root t bucket start delimiter maxKeys entries ↔
      ResumesAtEnds ListEntry.token resumeAt entries (pageSize maxKeys) :=
  (enumerates_iff hentries hmax).trans
    (pages_flatten_iff cuts_resumeAt (listEntries_sorted hentries) (pageSize_pos hmax))

end Requests

/-- **Continuation tokens enumerate a bucket** exactly when each one is read back to
    a place between the end of its page and the next. -/
theorem listing_enumerates_iff {entries : List ListEntry}
    (hentries : t.listEntries root bucket start delimiter = .ok entries) (hmax : maxKeys ≠ some 0) :
    Enumerates root t bucket start delimiter maxKeys entries ↔
      TokensReadBack entries (pageSize maxKeys) :=
  (enumerates_iff_resumesAtEnds hentries hmax).trans resumesAtEnds_iff

/-! ### Two folders -/

def listedItem (key : String) : StorageListItem :=
  { key := key, size := 3, etag := "3", lastModified := "2025-01-01T00:00:00+00:00"
    contentType := "application/octet-stream" }

theorem two_folders : ∃ t, runStorage dataRoot lengthDigests FileTree.empty
    [putOne "a/1", putOne "b/1"] = .ok t ∧
      t.bucketObjects dataRoot avatarsNamespace.toNamespace =
        .ok [listedItem "a/1", listedItem "b/1"] := by
  have hrun : ((runStorage dataRoot lengthDigests FileTree.empty
      [putOne "a/1", putOne "b/1"]).bind fun t =>
        t.bucketObjects dataRoot avatarsNamespace.toNamespace).toOption =
          some [listedItem "a/1", listedItem "b/1"] := by decide +kernel
  cases ht : runStorage dataRoot lengthDigests FileTree.empty [putOne "a/1", putOne "b/1"] with
  | error e =>
    rw [ht] at hrun
    cases hrun
  | ok t =>
    rw [ht] at hrun
    refine ⟨t, rfl, ?_⟩
    cases hobjects : t.bucketObjects dataRoot avatarsNamespace.toNamespace with
    | error e =>
      rw [Except.bind, hobjects] at hrun
      cases hrun
    | ok objects =>
      rw [Except.bind, hobjects] at hrun
      exact congrArg Except.ok (Option.some.inj hrun)

theorem mergeSort_two : [listedItem "a/1", listedItem "b/1"].mergeSort
    (fun left right => !strLt right.key left.key) = [listedItem "a/1", listedItem "b/1"] :=
  List.mergeSort_of_pairwise (by decide +kernel)

theorem bucketEntries_folders :
    bucketEntries [listedItem "a/1", listedItem "b/1"] none (some "/") =
      [.common "a/", .common "b/"] := by
  rw [bucketEntries, mergeSort_two]
  unfold buildListEntries
  simp only
  rw [List.mergeSort_of_pairwise (by decide +kernel)]
  decide +kernel

theorem bucketEntries_objects :
    bucketEntries [listedItem "a/1", listedItem "b/1"] none none =
      [.object (listedItem "a/1"), .object (listedItem "b/1")] := by
  rw [bucketEntries, mergeSort_two]
  unfold buildListEntries
  simp only
  rw [List.mergeSort_of_pairwise (by decide +kernel)]
  decide +kernel

theorem listEntries_two {delimiter : Option String} {entries : List ListEntry}
    (hobjects : t.bucketObjects root bucket = .ok [listedItem "a/1", listedItem "b/1"])
    (hentries : bucketEntries [listedItem "a/1", listedItem "b/1"] none delimiter = entries) :
    t.listEntries root bucket none delimiter = .ok entries := by
  rw [StorageFiles.listEntries, hobjects, ← hentries]
  rfl

/-- The name `a/` is read back as `a`: the page that it ends is the next page too. -/
theorem folders_never_listed : ∃ t,
    runStorage dataRoot lengthDigests FileTree.empty [putOne "a/1", putOne "b/1"] = .ok t ∧
      t.listEntries dataRoot avatarsNamespace.toNamespace none (some "/") =
        .ok [.common "a/", .common "b/"] ∧
      ¬ Enumerates dataRoot t avatarsNamespace.toNamespace none (some "/") (some 1)
        [.common "a/", .common "b/"] := by
  obtain ⟨t, hrun, hobjects⟩ := two_folders
  have hlist := listEntries_two hobjects bucketEntries_folders
  refine ⟨t, hrun, hlist, ?_⟩
  rw [enumerates_iff_resumesAtEnds hlist (by decide)]
  intro hends
  obtain ⟨cut, hcut, hbefore, -⟩ := hends [] _ _ [] rfl (Nat.one_dvd _)
  have hkey : normalizeOptionalKey (some "a/") = .ok (some "a") := by decide +kernel
  rw [resumeAt, ListEntry.token, hkey] at hcut
  cases hcut
  exact absurd hbefore (by decide +kernel)

theorem objects_listed : ∃ t,
    runStorage dataRoot lengthDigests FileTree.empty [putOne "a/1", putOne "b/1"] = .ok t ∧
      Enumerates dataRoot t avatarsNamespace.toNamespace none none (some 1)
        [.object (listedItem "a/1"), .object (listedItem "b/1")] := by
  obtain ⟨t, hrun, hobjects⟩ := two_folders
  refine ⟨t, hrun, (listing_enumerates_iff (listEntries_two hobjects bucketEntries_objects)
    (by decide)).mpr ?_⟩
  rintro a x y b hsplit -
  have hlen := congrArg List.length hsplit
  simp only [List.length_append, List.length_cons, List.length_nil] at hlen
  obtain rfl : a = [] := List.length_eq_zero_iff.mp (by omega)
  cases hsplit
  exact ⟨"a/1", by decide +kernel, by decide +kernel, by decide +kernel⟩

end Peanut
