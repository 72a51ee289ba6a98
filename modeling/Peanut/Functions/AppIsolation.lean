import Peanut.Functions.HostBindings
import Peanut.Functions.WithinApp
import Peanut.Storage.AppFiles

/-!
# Functions and the other apps

A function calls the host under the claims of the request that invoked it.  Whatever it calls,
and wherever its last call is given up, it leaves what belongs to other apps as it is, and they
read the same rows, the same objects and the same errors as before.

What `fire_data_triggers` starts in the background after a write is no part of the call; it is
an invocation of its own.
-/

namespace Peanut

open Relational Interleaving StorageFiles

/-! ### Every call stays within the app of its claims -/

/-- The buckets are those that the API creates. -/
def BucketsServed (db : Db) : Prop := ∀ b ∈ db.storageBuckets, ServedBucket b.appId b.name

theorem appStorageBucket_served {db : Db} (h : BucketsServed db) {appId bucket : String}
    (hensure : ensureStorageBucket db appId bucket = .ok ()) :
    ∃ b : BucketNamespace, b.appId = appId ∧ appStorageBucket appId bucket = b.toNamespace := by
  obtain ⟨row, hrow⟩ := Option.isSome_iff_exists.mp (Outcome.ensure_eq_ok.mp hensure)
  obtain ⟨hmem, happ, hname, -⟩ := fetchBucket_some hrow
  have hserved := h row hmem
  rw [happ, hname] at hserved
  have hslash : ∀ c ∈ (trim bucket).toList, (c == '/') = false := by
    intro c hc
    exact beq_eq_false_iff_ne.mpr (hserved.bucket_plain.char hc).2.1
  exact ⟨⟨⟨appId, trim bucket⟩, hserved⟩, rfl, by
    rw [appStorageBucket, strTrimMatches_eq_self hslash]⟩

/-- What the calls rely on: tables and rows that belong together, and buckets that the
    API has created. -/
structure HostStore.Sound (cfg : HostConfig) (s : HostStore) : Prop where
  wellFormed : WellFormed cfg.platform s.db.core
  buckets : BucketsServed s.db

/-- The database and the files changed within an app. -/
structure StaysWithin (root : FsPath) (appId : String) (s s' : HostStore) : Prop where
  db : WithinApp appId s.db s'.db
  files : FilesWithin root appId s.files s'.files

/-- What may have changed under the claims of a call: nothing without any. -/
def HostStore.ReachedBy (root : FsPath) (claims : Option Claims) (s s' : HostStore) : Prop :=
  match claims with
  | some claims => StaysWithin root claims.appId s s'
  | none => s' = s

section Steps

variable {cfg : HostConfig} {s s' s'' : HostStore} {claims : Option Claims}

theorem HostStore.ReachedBy.refl (root : FsPath) (claims : Option Claims) (s : HostStore) :
    s.ReachedBy root claims s := by
  cases claims with
  | none => rfl
  | some claims => exact ⟨.refl _ _, .refl _ _ _⟩

theorem HostStore.ReachedBy.trans {root : FsPath} (h : s.ReachedBy root claims s')
    (h' : s'.ReachedBy root claims s'') : s.ReachedBy root claims s'' := by
  cases claims with
  | none => exact Eq.trans h' h
  | some claims => exact ⟨h.db.trans h'.db, h.files.trans h'.files⟩

/-- A call keeps the store sound and stays within the app. -/
structure CallKeeps (cfg : HostConfig) (claims : Option Claims) (s s' : HostStore) : Prop where
  sound : s'.Sound cfg
  reached : s.ReachedBy cfg.root claims s'

theorem CallKeeps.refl (h : s.Sound cfg) : CallKeeps cfg claims s s := ⟨h, .refl _ _ _⟩

theorem CallKeeps.trans (h : CallKeeps cfg claims s s') (h' : CallKeeps cfg claims s' s'') :
    CallKeeps cfg claims s s'' :=
  ⟨h'.sound, h.reached.trans h'.reached⟩

theorem CallKeeps.ofDb {claims : Claims} {db : Db} (h : s.Sound cfg)
    (hwf : WellFormed cfg.platform db.core) (hdb : WithinApp claims.appId s.db db) :
    CallKeeps cfg (some claims) s { s with db := db } where
  sound := ⟨hwf, by
    have hbuckets : db.storageBuckets = s.db.storageBuckets := by rw [hdb.others]
    intro b hb
    exact h.buckets b (hbuckets ▸ hb)⟩
  reached := ⟨hdb, .refl _ _ _⟩

theorem requireClaims_eq_ok {c : Claims} : requireClaims claims = .ok c ↔ claims = some c :=
  Outcome.require_eq_ok

theorem CallKeeps.ofObject {ε ρ : Type} (bucketOf : ρ → Namespace) (h : s.Sound cfg)
    {claims : Claims} {bucket : String}
    (hensure : ensureStorageBucket s.db claims.appId bucket = .ok ())
    {step : ε → StorageFiles → ρ → StorageFiles × ρ} {e : ε}
    (hstep : ∀ (b : BucketNamespace) t c, bucketOf c = b.toNamespace →
      GoesOnWithin bucketOf cfg.root b t (step e t c)) (stop : Nat) {c : ρ}
    (hbucket : bucketOf c = appStorageBucket claims.appId bucket) :
    CallKeeps cfg (some claims) s { s with files := (alone step e stop s.files c).1 } := by
  obtain ⟨b, happ, hnamespace⟩ := appStorageBucket_served h.buckets hensure
  refine ⟨⟨h.wellFormed, h.buckets⟩, .refl _ _, ?_⟩
  rw [← happ]
  exact alone_within (hstep b) stop s.files c (hbucket.trans hnamespace)

theorem CallKeeps.ofStatements {ε ρ : Type} (h : s.Sound cfg) {claims : Claims}
    {Holds : Db → ρ → Prop} {step : ε → Db → ρ → Db × ρ} {e : ε}
    (hstep : ∀ db c, WellFormed cfg.platform db.core → Holds db c →
      StaysWithinApp cfg.platform claims.appId Holds db (step e db c))
    (stop : Nat) {c : ρ} (hholds : Holds s.db c) :
    CallKeeps cfg (some claims) s { s with db := (alone step e stop s.db c).1 } := by
  obtain ⟨hwithin, hwf⟩ := alone_withinApp hstep stop h.wellFormed hholds
  exact .ofDb h hwf hwithin

theorem interruptStoragePut_keeps (h : s.Sound cfg) (now : String) (args : Value) (stop : Nat) :
    CallKeeps cfg claims s (s.interruptStoragePut cfg now claims args stop) := by
  rw [HostStore.interruptStoragePut]
  refine Outcome.resume_rule (fun _ _ => .refl h) ?_
  rintro ⟨bucket, key, body⟩ hchecks
  simp only [storagePutChecks, Outcome.bind_eq_ok, requireClaims_eq_ok] at hchecks
  obtain ⟨c, rfl, name, -, key', -, body', -, _, hensure, heq⟩ := hchecks
  cases heq
  exact .ofObject PutObjectCall.bucket h hensure
    (fun b t c hbucket => PutObjectCall.step_within cfg.digests now hbucket) stop rfl

theorem interruptStorageDelete_keeps (h : s.Sound cfg) (args : Value) (stop : Nat) :
    CallKeeps cfg claims s (s.interruptStorageDelete cfg claims args stop) := by
  rw [HostStore.interruptStorageDelete]
  refine Outcome.resume_rule (fun _ _ => .refl h) ?_
  rintro ⟨bucket, key⟩ hchecks
  simp only [storageDeleteChecks, Outcome.bind_eq_ok, requireClaims_eq_ok] at hchecks
  obtain ⟨c, rfl, name, -, key', -, _, hensure, heq⟩ := hchecks
  cases heq
  exact .ofObject DeleteObjectCall.bucket h hensure
    (fun b t c hbucket => DeleteObjectCall.step_within hbucket) stop rfl

theorem interruptPushEnqueue_keeps (h : s.Sound cfg) (env : Env) (args : Value) (stop : Nat) :
    CallKeeps cfg claims s (interruptPushEnqueue s env claims args stop) := by
  rw [interruptPushEnqueue]
  refine Outcome.resume_rule (fun _ _ => .refl h) ?_
  rintro ⟨c, payload⟩ hchecks
  simp only [pushEnqueueChecks, Outcome.bind_eq_ok, requireClaims_eq_ok] at hchecks
  obtain ⟨c', rfl, title, -, body, -, heq⟩ := hchecks
  cases heq
  refine .ofStatements h (fun db call hwf hholds => enqueuePushStep_staysWithinApp hwf hholds)
    stop ⟨rfl, ?_⟩
  intro workspaceId hnone
  cases hnone

theorem interruptDataCreateRow_keeps (h : s.Sound cfg) (env : Env) (args : Value) (stop : Nat) :
    CallKeeps cfg claims s (interruptDataCreateRow cfg s env claims args stop) := by
  rw [interruptDataCreateRow]
  refine Outcome.resume_rule (fun _ _ => .refl h) ?_
  rintro ⟨c, table, data⟩ hchecks
  simp only [dataCreateRowChecks, Outcome.bind_eq_ok, requireClaims_eq_ok] at hchecks
  obtain ⟨c', rfl, name, -, data', -, heq⟩ := hchecks
  cases heq
  refine .ofStatements h (fun db call hwf hholds => createRowStep_staysWithinApp hwf hholds)
    stop ⟨rfl, .received rfl, ?_⟩
  intro workspaceId hnone
  cases hnone

theorem interruptDataUpdateRow_keeps (h : s.Sound cfg) (env : Env) (args : Value) (stop : Nat) :
    CallKeeps cfg claims s (interruptDataUpdateRow cfg s env claims args stop) := by
  rw [interruptDataUpdateRow]
  refine Outcome.resume_rule (fun _ _ => .refl h) ?_
  rintro ⟨c, table, rowId, data⟩ hchecks
  simp only [dataUpdateRowChecks, Outcome.bind_eq_ok, requireClaims_eq_ok] at hchecks
  obtain ⟨c', rfl, name, -, id, -, data', -, heq⟩ := hchecks
  cases heq
  exact .ofStatements h (fun db call hwf hholds => updateRowStep_staysWithinApp hwf hholds)
    stop ⟨rfl, .received rfl⟩

theorem interruptDataDeleteRow_keeps (h : s.Sound cfg) (env : Env) (args : Value) (stop : Nat) :
    CallKeeps cfg claims s (interruptDataDeleteRow cfg s env claims args stop) := by
  rw [interruptDataDeleteRow]
  refine Outcome.resume_rule (fun _ _ => .refl h) ?_
  rintro ⟨c, table, rowId⟩ hchecks
  simp only [dataDeleteRowChecks, Outcome.bind_eq_ok, requireClaims_eq_ok] at hchecks
  obtain ⟨c', rfl, name, -, id, -, heq⟩ := hchecks
  cases heq
  exact .ofStatements h (fun db call hwf hholds => deleteRowStep_staysWithinApp hwf hholds)
    stop ⟨rfl, RowCall.Received.carries (c := .delete ⟨c, table, rowId, .received⟩) rfl s.db⟩

/-- **Step lemma.**  Whatever is called, and wherever it is given up. -/
theorem interruptHostCall_keeps (h : s.Sound cfg) (draw : HostDraw) (action : String)
    (args : Value) (stop : Nat) :
    CallKeeps cfg claims s (interruptHostCall cfg s draw claims action args stop) := by
  unfold interruptHostCall
  split
  · exact interruptStoragePut_keeps h _ _ _
  · exact interruptStorageDelete_keeps h _ _
  · exact interruptPushEnqueue_keeps h _ _ _
  · exact interruptDataCreateRow_keeps h _ _ _
  · exact interruptDataUpdateRow_keeps h _ _ _
  · exact interruptDataDeleteRow_keeps h _ _ _
  · exact .refl h

theorem handleHostCall_keeps (h : s.Sound cfg) (draw : HostDraw) (action : String) (args : Value) :
    CallKeeps cfg claims s (handleHostCall cfg s draw claims action args).1 := by
  obtain ⟨stop, hwhole⟩ :=
    @handleHostCall_eq_interrupted cfg s claims draw action args
  rw [hwhole]
  exact interruptHostCall_keeps h draw action args stop

end Steps

/-! ### What another app sees -/

section Reads

variable {pf : Platform} {engine : Sqlite} {db db' : Db} {appId : String} {claims : Claims}
  {table : LoadedTable} {tableName : String}

/-- The tables of an app that the change is not about, and their rows. -/
structure Unseen (pf : Platform) (appId : String) (db db' : Db) : Prop where
  within : WithinApp appId db db'
  wellFormed : WellFormed pf db.core
  wellFormed' : WellFormed pf db'.core

theorem Unseen.loadTable_eq (h : Unseen pf appId db db') (a name : String) :
    loadTable pf db' a name = loadTable pf db a name := by
  have htables : db'.dataTables = db.dataTables := by rw [h.within.others]
  rw [loadTable, htables, loadTable]

theorem WellFormed.not_mine (hwf : WellFormed pf db.core) (ht : table ∈ db.dataTables)
    (hother : table.appId ≠ appId) {r : DataRow} (hr : r ∈ db.dataRows)
    (htable : r.tableId = table.id) : r.appId ≠ appId := by
  rw [hwf.row_app hr ht htable.symm]
  exact hother

theorem Unseen.loadRow_eq (h : Unseen pf appId db db') (ht : table ∈ db.dataTables)
    (hother : table.appId ≠ appId) (rowId : String) :
    loadRow db' table.id rowId = loadRow db table.id rowId := by
  have htables : db'.dataTables = db.dataTables := by rw [h.within.others]
  have hselect := h.within.rows.select_eq (p := fun r => r.tableId == table.id && r.id == rowId) ?_
    ?_
  · rw [loadRow, KeyedTable.selectOne, ← List.head?_filter]
    rw [loadRow, KeyedTable.selectOne, ← List.head?_filter]
    exact congrArg List.head? hselect
  · intro r hr hmatch
    rw [Bool.and_eq_true, beq_iff_eq] at hmatch
    exact h.wellFormed.not_mine ht hother hr hmatch.1
  · intro r hr hmatch
    rw [Bool.and_eq_true, beq_iff_eq] at hmatch
    exact h.wellFormed'.not_mine (htables ▸ ht) hother hr hmatch.1

theorem Unseen.matchingRows_eq (h : Unseen pf appId db db') {params : ListRowsParams}
    {schema : DataTableSchema} {tableId : String} {owner : Option String} {a : String}
    (hother : a ≠ appId) :
    matchingRows engine db' (buildRowQuery pf params schema a tableId owner) =
      matchingRows engine db (buildRowQuery pf params schema a tableId owner) := by
  have hselected : ∀ db : Db, ∀ r ∈ db.dataRows, whereHolds engine r
      (buildRowQuery pf params schema a tableId owner).whereClauses
      (buildRowQuery pf params schema a tableId owner).binds = true → r.appId ≠ appId := by
    intro db r hr hmatch
    have hfound : r ∈ matchingRows engine db (buildRowQuery pf params schema a tableId owner) :=
      KeyedTable.mem_select.mpr ⟨hr, hmatch⟩
    rw [(mem_matchingRows.mp hfound).2.1]
    exact hother
  exact h.within.rows.select_eq (hselected db) (hselected db')

theorem Unseen.expandField_eq (h : Unseen pf appId db db') {a : String} (hother : a ≠ appId)
    (schema : DataTableSchema) :
    expandField pf db' a schema = expandField pf db a schema := by
  funext map fieldName
  have htarget : relationTarget pf db' a schema map fieldName =
      relationTarget pf db a schema map fieldName := by
    simp only [relationTarget, h.loadTable_eq]
  rw [expandField, htarget, expandField]
  rcases hfound : relationTarget pf db a schema map fieldName with _ | ⟨related, relatedId⟩
  · rfl
  · obtain ⟨relationTable, hload⟩ : ∃ name, loadTable pf db a name = some related := by
      simp only [relationTarget, Option.bind_eq_bind, Option.bind_eq_some_iff] at hfound
      obtain ⟨spec, -, hfound⟩ := hfound
      split at hfound
      · cases hfound
      · simp only [Option.bind_eq_some_iff] at hfound
        obtain ⟨name, -, id, -, loaded, hloaded, heq⟩ := hfound
        cases heq
        exact ⟨name, hloaded⟩
    obtain ⟨hmem, happ, -⟩ := loadTable_some hload
    simp only [h.loadRow_eq hmem (happ ▸ hother)]

theorem Unseen.respondRow_eq (h : Unseen pf appId db db') (hother : table.appId ≠ appId)
    (expand : Option String) (record : DataRow) :
    respondRow pf db' table expand record = respondRow pf db table expand record := by
  cases expand with
  | none => rfl
  | some expand => simp only [respondRow, expandRowData, h.expandField_eq hother]

theorem Unseen.listRows_eq (h : Unseen pf appId db db') (hother : claims.appId ≠ appId)
    (params : ListRowsParams) :
    listRows pf engine db' claims tableName params =
      listRows pf engine db claims tableName params := by
  rw [listRows, listRows, requireTable, requireTable, h.loadTable_eq]
  rcases hload : loadTable pf db claims.appId tableName with _ | table
  · rfl
  · have happ : table.appId ≠ appId := (loadTable_some hload).2.1 ▸ hother
    have hrespond : respondRow pf db' table = respondRow pf db table := by
      funext expand record
      exact h.respondRow_eq happ expand record
    simp only [Outcome.require_some, Outcome.ok_bind, executeListRows, h.matchingRows_eq happ,
      hrespond]

theorem Unseen.requireRow_eq (h : Unseen pf appId db db') (hother : claims.appId ≠ appId)
    (rowId : String) (action : RowAccessAction) :
    requireRow pf db' claims tableName rowId action =
      requireRow pf db claims tableName rowId action := by
  rw [requireRow, requireRow, requireTable, requireTable, h.loadTable_eq]
  rcases hload : loadTable pf db claims.appId tableName with _ | table
  · rfl
  · obtain ⟨hmem, happ, -⟩ := loadTable_some hload
    simp only [Outcome.require_some, Outcome.ok_bind, h.loadRow_eq hmem (happ ▸ hother)]

theorem Unseen.getRow_eq (h : Unseen pf appId db db') (hother : claims.appId ≠ appId)
    (rowId : String) (params : GetRowParams) :
    getRow pf db' claims tableName rowId params = getRow pf db claims tableName rowId params := by
  rw [getRow, getRow, h.requireRow_eq hother]
  rcases hrow : requireRow pf db claims tableName rowId .read with e | ⟨table, record⟩
  · rfl
  · have happ : table.appId ≠ appId := (loadTable_some (requireRow_eq_ok.mp hrow).1).2.1 ▸ hother
    simp only [Outcome.ok_bind, h.respondRow_eq happ]

theorem storageGet_unseen {cfg : HostConfig} {s s' : HostStore} (hbuckets : BucketsServed s.db)
    (h : StaysWithin cfg.root appId s s') (hother : claims.appId ≠ appId) (args : Value) :
    handleStorageGet cfg s' (some claims) args = handleStorageGet cfg s (some claims) args := by
  have hensured : ∀ a bucket, ensureStorageBucket s'.db a bucket =
      ensureStorageBucket s.db a bucket := by
    intro a bucket
    have hrows : s'.db.storageBuckets = s.db.storageBuckets := by rw [h.db.others]
    rw [ensureStorageBucket, fetchBucket, hrows, ensureStorageBucket, fetchBucket]
  have hclaims : requireClaims (some claims) = .ok claims := rfl
  simp only [handleStorageGet, hclaims, Outcome.ok_bind, hensured]
  refine bind_congr fun bucket => bind_congr fun key => ?_
  cases hensure : ensureStorageBucket s.db claims.appId bucket with
  | error e => simp only [Outcome.error_bind]
  | ok u =>
    obtain ⟨b, happ, hnamespace⟩ := appStorageBucket_served hbuckets hensure
    have hother' : b.appId ≠ appId := happ ▸ hother
    simp only [hnamespace, h.files.getObject_eq hother']

end Reads

/-! ### A function that runs -/

section Runs

variable {cfg : HostConfig} {s : HostStore}

/-- **Run lemma.**  However the process and the server take their turns, and wherever the
    time is over. -/
theorem hostCalls_keep (h : s.Sound cfg) (claims : Option Claims) (draws : Nat → HostDraw)
    (toHost toRunner : JsonLink) (brokenPipe : String) (timeoutMs : Int) (payload : Value)
    (events : List SandboxEvent) :
    CallKeeps cfg claims s (Sandbox.run toHost toRunner (hostCalls cfg claims draws) brokenPipe
      timeoutMs payload (s, 0) events).store.1 := by
  obtain ⟨served, x, hlinked⟩ := @Linked.run _ toHost toRunner (hostCalls cfg claims draws)
    brokenPipe timeoutMs payload (s, 0) events
  have hstep : ∀ (state : HostStore × Nat) (call : String × Value),
      CallKeeps cfg claims s state.1 →
        CallKeeps cfg claims s (carryOut toHost (hostCalls cfg claims draws) state call).1.1 :=
    fun state call hkeeps => hkeeps.trans (handleHostCall_keeps hkeeps.sound _ _ _)
  have hserved : CallKeeps cfg claims s x.store.1 := by
    rw [hlinked.orderly.store_eq]
    exact RemoteCalls.serveAll_preserves (P := fun state : HostStore × Nat =>
      CallKeeps cfg claims s state.1) hstep (.refl h) served
  rcases hlinked.store with hstore | ⟨call, stop, -, hstore, -⟩
  · rwa [hstore]
  · -- the last call was given up
    rw [hstore]
    exact hserved.trans (interruptHostCall_keeps hserved.sound _ _ _ _)

/-- **Functions stay in their app.**  Whatever a function calls, the rows, events,
    messages, audit entries and objects of the other apps, the counters of other
    workspaces and all other tables stay what they were; without claims nothing changes. -/
theorem functions_stay_in_their_app (cfg : HostConfig) (s : HostStore) (h : s.Sound cfg)
    (claims : Option Claims) (draws : Nat → HostDraw) (toHost toRunner : JsonLink)
    (brokenPipe : String) (timeoutMs : Int) (payload : Value) (events : List SandboxEvent) :
    let w := Sandbox.run toHost toRunner (hostCalls cfg claims draws) brokenPipe timeoutMs payload
      (s, 0) events
    w.store.1.Sound cfg ∧ s.ReachedBy cfg.root claims w.store.1 := by
  intro w
  have hkeeps := hostCalls_keep h claims draws toHost toRunner brokenPipe timeoutMs payload events
  exact ⟨hkeeps.sound, hkeeps.reached⟩

def sharedHost (link : JsonLink) : HostConfig :=
  { platform := asciiPlatform, engine := insertionOrder, root := dataRoot, digests := lengthDigests
    body := link }

def studioClaims : Claims :=
  { readerClaims with appId := "0f8e2a34-5b6c-4d7e-8f90-a1b2c3d4e5f6" }

def avatarsOf (appId : String) : StorageBucket :=
  { appId := appId, name := "avatars", publicRead := true, allowClientUploads := false
    maxObjectBytes := none, allowedMimeTypes := [], createdAt := "2025-01-01 00:00:00"
    updatedAt := "2025-01-01 00:00:00", deletedAt := none }

/-- Two apps have a bucket of the same name. -/
def sharedStore : HostStore where
  db := { storageBuckets :=
    ⟨[avatarsOf readerClaims.appId, avatarsOf studioClaims.appId], by decide⟩ }
  files := .empty

theorem sharedStore_sound (link : JsonLink) : sharedStore.Sound (sharedHost link) where
  wellFormed := wellFormed_of_empty (fun _ h => by cases h) fun _ h => by cases h
  buckets := by
    intro b hb
    rcases List.mem_pair.mp hb with rfl | rfl
    · exact servedBucket_avatars
    · exact ⟨.inr (by decide +kernel), "avatars", by decide +kernel⟩

def avatarsPut : Value :=
  .object [("body", .string "hi"), ("bucket", .string "avatars"), ("key", .string "a.txt")]

def avatarsDraw (n : Nat) : HostDraw := ⟨sampleEnv (toString n), "2026-01-01T00:00:00+00:00"⟩

/-- A function that reads what it has to run and puts an object. -/
def avatarsRun (link : JsonLink) (length : Nat) : Sandbox (HostStore × Nat) :=
  Sandbox.run link link (hostCalls (sharedHost link) (some readerClaims) avatarsDraw) "" 1000 .null
    (sharedStore, 0) [.read length, .call "storage.put" avatarsPut, .serve]

theorem avatarsRun_stores (link : JsonLink) :
    ∃ length, (avatarsRun link length).store.1.files.contentAt
      (objectFile dataRoot avatarsNamespace.toNamespace ["a.txt"]) =
        some (.bytes (asBytes "hi")) := by
  obtain ⟨length, hstore⟩ := Sandbox.run_first_call link link
    (hostCalls (sharedHost link) (some readerClaims) avatarsDraw) "" 1000 .null (sharedStore, 0)
    "storage.put" avatarsPut
  refine ⟨length, ?_⟩
  have hchecks : storagePutChecks sharedStore.db (some readerClaims) avatarsPut =
      .ok (avatarsNamespace.toNamespace, "a.txt", "hi") := by decide +kernel
  have hput : (putObject dataRoot lengthDigests (avatarsDraw 0).storageNow .empty
      avatarsNamespace.toNamespace "a.txt" (asBytes "hi") (some HOST_CONTENT_TYPE)).1.contentAt
        (objectFile dataRoot avatarsNamespace.toNamespace ["a.txt"]) =
          some (.bytes (asBytes "hi")) := by decide +kernel
  have hhandled : ((hostCalls (sharedHost link) (some readerClaims) avatarsDraw).handle
      (sharedStore, 0) (received link ("storage.put", avatarsPut))).1.1 =
        (sharedStore.handleStoragePut (sharedHost link) (avatarsDraw 0).storageNow
          (some readerClaims) avatarsPut).1 := rfl
  rw [avatarsRun, hstore, hhandled, HostStore.handleStoragePut, hchecks]
  exact hput

/-- The object of the function is stored, and the rest is as it was. -/
theorem avatars_put_stays_in_app :
    ∃ link length, (avatarsRun link length).store.1.files.contentAt
        (objectFile dataRoot avatarsNamespace.toNamespace ["a.txt"]) =
          some (.bytes (asBytes "hi")) ∧
      StaysWithin dataRoot DEFAULT_APP_ID sharedStore (avatarsRun link length).store.1 := by
  obtain ⟨link⟩ := (inferInstance : Nonempty JsonLink)
  obtain ⟨length, hstored⟩ := avatarsRun_stores link
  exact ⟨link, length, hstored, (functions_stay_in_their_app (sharedHost link) sharedStore
    (sharedStore_sound link) (some readerClaims) avatarsDraw link link "" 1000 .null
    [.read length, .call "storage.put" avatarsPut, .serve]).2⟩

/-- **Apps do not see each other's functions.**  A list, a row or an object that is read
    under the claims of another app is the same before and after, and so is an error. -/
theorem other_apps_see_nothing (cfg : HostConfig) (s : HostStore) (h : s.Sound cfg)
    (claims other : Claims) (hother : other.appId ≠ claims.appId) (draws : Nat → HostDraw)
    (toHost toRunner : JsonLink) (brokenPipe : String) (timeoutMs : Int) (payload : Value)
    (events : List SandboxEvent) :
    let w := Sandbox.run toHost toRunner (hostCalls cfg (some claims) draws) brokenPipe timeoutMs
      payload (s, 0) events
    ∀ args,
      handleDataListRows cfg w.store.1 (some other) args =
        handleDataListRows cfg s (some other) args ∧
      handleDataGetRow cfg w.store.1 (some other) args =
        handleDataGetRow cfg s (some other) args ∧
      handleStorageGet cfg w.store.1 (some other) args =
        handleStorageGet cfg s (some other) args := by
  intro w args
  have hkeeps :=
    hostCalls_keep h (some claims) draws toHost toRunner brokenPipe timeoutMs payload events
  have hwithin : StaysWithin cfg.root claims.appId s w.store.1 := hkeeps.reached
  have hunseen : Unseen cfg.platform claims.appId s.db w.store.1.db :=
    ⟨hwithin.db, h.wellFormed, hkeeps.sound.wellFormed⟩
  have hclaims : requireClaims (some other) = .ok other := rfl
  refine ⟨?_, ?_, storageGet_unseen h.buckets hwithin hother args⟩
  · simp only [handleDataListRows, hclaims, Outcome.ok_bind, hunseen.listRows_eq hother]
  · simp only [handleDataGetRow, hclaims, Outcome.ok_bind, hunseen.getRow_eq hother]

/-- The object of the function is stored, and another app finds nothing under its name. -/
theorem avatars_put_not_seen :
    ∃ link length, (avatarsRun link length).store.1.files.contentAt
        (objectFile dataRoot avatarsNamespace.toNamespace ["a.txt"]) =
          some (.bytes (asBytes "hi")) ∧
      ∀ args, handleStorageGet (sharedHost link) (avatarsRun link length).store.1
          (some studioClaims) args =
        handleStorageGet (sharedHost link) sharedStore
          (some studioClaims) args := by
  obtain ⟨link⟩ := (inferInstance : Nonempty JsonLink)
  obtain ⟨length, hstored⟩ := avatarsRun_stores link
  refine ⟨link, length, hstored, fun args => ?_⟩
  exact (other_apps_see_nothing (sharedHost link) sharedStore (sharedStore_sound link)
    readerClaims studioClaims (by decide) avatarsDraw link link "" 1000
    .null [.read length, .call "storage.put" avatarsPut, .serve] args).2.2

end Runs

end Peanut
