import Peanut.Auth.OAuth
import Peanut.Data.Runs
import Peanut.Library.Interleaving
import Peanut.Workspaces.Members

/-!
# Row and user quotas

`resource_limit_summary` counts the rows and the users of the apps of a
workspace, and every handler that creates one is expected to ask whether there
is room before it does.  Registration, user administration and `create_row` ask;
the first login through a provider, the acceptance of an invite and an import do
not.
-/

namespace Peanut

open Relational Interleaving

/-! ### Counts and limits -/

def rowCount (db : Db) (workspaceId : String) : Int :=
  (db.dataRows.select fun r => appInWorkspace db workspaceId r.appId).length

def userCount (db : Db) (workspaceId : String) : Int :=
  (db.users.select fun u => appInWorkspace db workspaceId u.appId).length

/-- The limit in force: the one set for the workspace, else the default. -/
def limitOf (db : Db) (workspaceId : String) (key : ResourceKey) : Int :=
  ((db.usageCounters.find? (workspaceId, key, "all")).bind (·.resourceLimit)).getD
    (defaultResourceLimit key)

/-- **Within quota**: no workspace has more rows or users than its limits say. -/
def WithinQuota (db : Db) : Prop :=
  ∀ env workspaceId, ∀ key ∈ [ResourceKey.dataRows, ResourceKey.appUsers],
    (resourceLimitSummary db env workspaceId key).used ≤
      (resourceLimitSummary db env workspaceId key).limit

variable {db db' : Db}

theorem withinQuota_iff :
    WithinQuota db ↔ ∀ w, rowCount db w ≤ limitOf db w .dataRows ∧
      userCount db w ≤ limitOf db w .appUsers := by
  constructor
  · intro h w
    exact ⟨h (sampleEnv "") w .dataRows (by simp), h (sampleEnv "") w .appUsers (by simp)⟩
  · intro h env w key hkey
    rcases List.mem_cons.mp hkey with rfl | hkey
    · exact (h w).1
    · rw [List.mem_singleton] at hkey
      subst hkey
      exact (h w).2

theorem limitOf_recordUsage (db : Db) (env : Env) (workspaceId : String) (key : ResourceKey)
    (amount : Int) (w : String) (k : ResourceKey) :
    limitOf (recordUsage db env workspaceId key amount) w k = limitOf db w k := by
  unfold recordUsage limitOf
  dsimp only
  split
  · rfl
  · split
    · rename_i counters hinsert
      rw [KeyedTable.find?_insert? hinsert]
      split
      · rename_i hkey
        have hfree := (KeyedTable.insert?_eq_some.mp hinsert).1
        rw [hkey, KeyedTable.hasKey, Option.isSome_eq_false_iff, Option.isNone_iff_eq_none] at hfree
        rw [hfree]
        rfl
      · rfl
    · rw [KeyedTable.find?_updateWhere]
      cases db.usageCounters.find? (w, k, "all") with
      | none => rfl
      | some counter =>
        simp only [Option.map_some, Option.bind_some]
        split <;> rfl

/-! ### What a statement does to the counts -/

/-- The limits and the apps of each workspace are the same, and there are no more
    rows or users than before. -/
structure Shrinks (db db' : Db) : Prop where
  apps : ∀ w appId, appInWorkspace db' w appId = appInWorkspace db w appId
  limits : ∀ w key, limitOf db' w key = limitOf db w key
  rows : ∀ w, rowCount db' w ≤ rowCount db w
  users : ∀ w, userCount db' w ≤ userCount db w

/-- The same, with so many rows and users more in one app. -/
structure Adds (appId : String) (rows users : Nat) (db db' : Db) : Prop where
  apps : ∀ w a, appInWorkspace db' w a = appInWorkspace db w a
  limits : ∀ w key, limitOf db' w key = limitOf db w key
  rows : ∀ w, rowCount db' w = rowCount db w + if appInWorkspace db w appId then (rows : Int) else 0
  users : ∀ w, userCount db' w =
    userCount db w + if appInWorkspace db w appId then (users : Int) else 0

theorem Shrinks.refl (db : Db) : Shrinks db db :=
  ⟨fun _ _ => rfl, fun _ _ => rfl, fun _ => Int.le_refl _, fun _ => Int.le_refl _⟩

theorem Shrinks.trans {a b c : Db} (h : Shrinks a b) (h' : Shrinks b c) : Shrinks a c where
  apps := fun w appId => (h'.apps w appId).trans (h.apps w appId)
  limits := fun w key => (h'.limits w key).trans (h.limits w key)
  rows := fun w => Int.le_trans (h'.rows w) (h.rows w)
  users := fun w => Int.le_trans (h'.users w) (h.users w)

variable {appId : String}

theorem Adds.trans {m n m' n' : Nat} {a b c : Db} (h : Adds appId m n a b)
    (h' : Adds appId m' n' b c) : Adds appId (m + m') (n + n') a c where
  apps := fun w a => (h'.apps w a).trans (h.apps w a)
  limits := fun w key => (h'.limits w key).trans (h.limits w key)
  rows := by
    intro w
    rw [h'.rows, h.rows, h.apps]
    split <;> omega
  users := by
    intro w
    rw [h'.users, h.users, h.apps]
    split <;> omega

theorem Adds.shrinks (h : Adds appId 0 0 db db') :
    Shrinks db db' where
  apps := h.apps
  limits := h.limits
  rows := fun w => by rw [h.rows]; simp
  users := fun w => by rw [h.users]; simp

/-- A statement that touches none of the tables that are counted or that say what
    is counted. -/
theorem Adds.of_eq (appId : String) (hrows : db'.dataRows = db.dataRows)
    (husers : db'.users = db.users) (happs : db'.apps = db.apps)
    (hcounters : db'.usageCounters = db.usageCounters) : Adds appId 0 0 db db' := by
  have hmember : ∀ w a, appInWorkspace db' w a = appInWorkspace db w a := by
    intro w a
    rw [appInWorkspace, appInWorkspace, appWorkspaceId, appWorkspaceId, happs]
  refine ⟨hmember, ?_, ?_, ?_⟩
  · intro w key
    rw [limitOf, limitOf, hcounters]
  · intro w
    simp [rowCount, hmember, hrows]
  · intro w
    simp [userCount, hmember, husers]

theorem Shrinks.of_eq (hrows : db'.dataRows = db.dataRows)
    (husers : db'.users = db.users) (happs : db'.apps = db.apps)
    (hcounters : db'.usageCounters = db.usageCounters) : Shrinks db db' :=
  (Adds.of_eq "" hrows husers happs hcounters).shrinks

theorem WithinQuota.shrinks (h : WithinQuota db) (hs : Shrinks db db') :
    WithinQuota db' := by
  rw [withinQuota_iff] at h ⊢
  intro w
  rw [hs.limits, hs.limits]
  exact ⟨Int.le_trans (hs.rows w) (h w).1, Int.le_trans (hs.users w) (h w).2⟩

/-- Is there room for so many rows and users more in an app? -/
def HasRoom (db : Db) (appId : String) (rows users : Nat) : Prop :=
  ∀ w, appWorkspaceId db appId = some w →
    rowCount db w + rows ≤ limitOf db w .dataRows ∧ userCount db w + users ≤ limitOf db w .appUsers

/-- Adding to an app keeps to the quota exactly when there is room. -/
theorem Adds.withinQuota_iff {m n : Nat} (h : Adds appId m n db db')
    (hdb : WithinQuota db) : WithinQuota db' ↔ HasRoom db appId m n := by
  have hmember : ∀ w, appInWorkspace db w appId = true ↔ appWorkspaceId db appId = some w := by
    intro w
    simp [appInWorkspace]
  rw [Peanut.withinQuota_iff] at hdb ⊢
  constructor
  · intro hnew w hw
    obtain ⟨hrows, husers⟩ := hnew w
    rw [h.rows, h.limits, if_pos ((hmember w).mpr hw)] at hrows
    rw [h.users, h.limits, if_pos ((hmember w).mpr hw)] at husers
    exact ⟨hrows, husers⟩
  · intro hroom w
    rw [h.rows, h.users, h.limits, h.limits]
    by_cases hw : appInWorkspace db w appId = true
    · rw [if_pos hw, if_pos hw]
      exact hroom w ((hmember w).mp hw)
    · rw [if_neg hw, if_neg hw, Int.add_zero, Int.add_zero]
      exact hdb w

theorem Shrinks.of_tables (happs : ∀ appId, appWorkspaceId db' appId = appWorkspaceId db appId)
    (hcounters : db'.usageCounters = db.usageCounters)
    (hrows : ∀ p : String → Bool, (db'.dataRows.select fun r => p r.appId).length ≤
      (db.dataRows.select fun r => p r.appId).length)
    (husers : ∀ p : String → Bool, (db'.users.select fun u => p u.appId).length ≤
      (db.users.select fun u => p u.appId).length) : Shrinks db db' := by
  have hmember : ∀ w a, appInWorkspace db' w a = appInWorkspace db w a := by
    intro w a
    rw [appInWorkspace, appInWorkspace, happs]
  refine ⟨hmember, ?_, ?_, ?_⟩
  · intro w key
    rw [limitOf, limitOf, hcounters]
  · intro w
    simp only [rowCount, hmember, Int.ofNat_le]
    exact hrows (appInWorkspace db w)
  · intro w
    simp only [userCount, hmember, Int.ofNat_le]
    exact husers (appInWorkspace db w)

section Statements

variable (db : Db)

theorem recordUsage_adds (env : Env) (workspaceId : String) (key : ResourceKey) (amount : Int)
    (appId : String) : Adds appId 0 0 db (recordUsage db env workspaceId key amount) := by
  have hlimits := limitOf_recordUsage db env workspaceId key amount
  obtain ⟨counters, hcounters⟩ := recordUsage_frame db env workspaceId key amount
  rw [hcounters] at hlimits ⊢
  refine ⟨fun _ _ => rfl, hlimits, ?_, ?_⟩
  · intro w
    simp [rowCount, appInWorkspace, appWorkspaceId]
  · intro w
    simp [userCount, appInWorkspace, appWorkspaceId]

theorem recordAuditLog_adds (env : Env) (uuid : String) (target : Option String) (claims : Claims)
    (action targetType targetId : String) (metadata : Value) (appId : String) :
    Adds appId 0 0 db
      (db.recordAuditLog env uuid target claims action targetType targetId metadata) := by
  obtain ⟨logs, hlogs⟩ :=
    db.recordAuditLog_frame env uuid target claims action targetType targetId metadata
  rw [hlogs]
  exact .of_eq appId rfl rfl rfl rfl

theorem recordAuthEvent_adds (env : Env) (uuid app userId : String) (actor : Option String)
    (action : String) (metadata : Option Value) (appId : String) :
    Adds appId 0 0 db (recordAuthEvent db env uuid app userId actor action metadata) := by
  obtain ⟨events, hevents⟩ := recordAuthEvent_frame db env uuid app userId actor action metadata
  rw [hevents]
  exact .of_eq appId rfl rfl rfl rfl

theorem logRowEvent_adds (env : Env) (app tableId rowId actor action : String)
    (diff : Option Value) (appId : String) :
    Adds appId 0 0 db (db.logRowEvent env app tableId rowId actor action diff) := by
  unfold Db.logRowEvent Db.recordRowEvent
  dsimp only
  split
  · rename_i hrec
    split at hrec
    · obtain ⟨events, -, heq⟩ := Option.map_eq_some_iff.mp hrec
      cases heq
      exact .of_eq appId rfl rfl rfl rfl
    · cases hrec
  · exact .of_eq appId rfl rfl rfl rfl

theorem deleteRows_shrinks (p : DataRow → Bool) : Shrinks db (db.deleteRows p) :=
  .of_tables (fun _ => rfl) rfl (fun _ => db.dataRows.length_select_deleteWhere_le _ p)
    (fun _ => Nat.le_refl _)

theorem deleteDataTables_shrinks (p : LoadedTable → Bool) : Shrinks db (db.deleteDataTables p) :=
  .of_tables (fun _ => rfl) rfl (fun _ => db.dataRows.length_select_deleteWhere_le _ _)
    (fun _ => Nat.le_refl _)

theorem rewriteRow_shrinks (rowId tableId : String) (data : Value) (now : String) :
    Shrinks db (db.rewriteRow rowId tableId data now) := by
  refine .of_tables (fun _ => rfl) rfl ?_ (fun _ => Nat.le_refl _)
  intro p
  exact Nat.le_of_eq
    (KeyedTable.length_select_updateWhere (DataRow.id_rewritten data now) fun _ => rfl)

theorem redefineTable_adds (tableId displayName : String) (schema : DataTableSchema)
    (accessPolicy : AccessPolicy) (appId : String) :
    Adds appId 0 0 db (db.redefineTable tableId displayName schema accessPolicy) :=
  .of_eq appId rfl rfl rfl rfl

variable {db}

theorem insertDataRow_adds {db' : Db} {row : DataRow} (h : db.insertDataRow row = some db') :
    Adds row.appId 1 0 db db' := by
  obtain ⟨-, -, rows, hrows, rfl⟩ := Db.insertDataRow_eq_some.mp h
  refine ⟨fun _ _ => rfl, fun _ _ => rfl, ?_, ?_⟩
  · intro w
    have hcount := KeyedTable.length_select_insert? hrows fun r => appInWorkspace db w r.appId
    change ((rows.select fun r => appInWorkspace db w r.appId).length : Int) = _
    rw [hcount, rowCount]
    split <;> simp
  · intro w
    simp [userCount, appInWorkspace, appWorkspaceId]

theorem insertUser_adds {db' : Db} {u : User} (h : db.insertUser u = some db') :
    Adds u.appId 0 1 db db' := by
  obtain ⟨users, husers, rfl⟩ := Db.insertUser_eq_some h
  refine ⟨fun _ _ => rfl, fun _ _ => rfl, ?_, ?_⟩
  · intro w
    simp [rowCount, appInWorkspace, appWorkspaceId]
  · intro w
    have hcount := KeyedTable.length_select_insert? husers fun v => appInWorkspace db w v.appId
    change ((users.select fun v => appInWorkspace db w v.appId).length : Int) = _
    rw [hcount, userCount]
    split <;> simp

theorem deleteUser_shrinks {appId userId : String} {n : Nat} {db' : Db}
    (h : db.deleteUser appId userId = some (n, db')) : Shrinks db db' := by
  unfold Db.deleteUser at h
  split at h
  · cases h
    exact .refl db
  · split at h
    · cases h
    · cases h
      refine .of_tables ?_ rfl ?_ ?_
      · intro a
        change ((db.apps.updateWhere (fun b => b.createdBy == some userId)
          (fun b => { b with createdBy := none }) (fun _ => rfl)).selectOne _).map (·.workspaceId) =
            _
        rw [KeyedTable.selectOne_updateWhere, Option.map_map, appWorkspaceId]
        · congr 1
          funext b
          show (if b.createdBy == some userId then { b with createdBy := none }
              else b).workspaceId =
            b.workspaceId
          split <;> rfl
        · exact fun _ => rfl
      · intro p
        change (((db.deleteDataTables fun t => t.createdBy == userId).dataRows.updateWhere
          (fun r => r.ownerUserId == some userId) (fun r => { r with ownerUserId := none })
          DataRow.id_disowned).select _).length ≤ _
        rw [KeyedTable.length_select_updateWhere DataRow.id_disowned fun _ => rfl]
        exact db.dataRows.length_select_deleteWhere_le _ _
      · intro p
        exact db.users.length_select_deleteWhere_le _ _

end Statements

/-! ### Requests that create nothing that is counted -/

section Shrinking

variable (pf : Platform) (db : Db)

theorem createTable_shrinks (env : Env) (claims : Claims) (payload : CreateTableRequest) :
    Shrinks db (createTable pf db env claims payload).1 := by
  unfold createTable
  refine Outcome.proceed_rule (P := Shrinks db) (.refl db) fun name _ => ?_
  dsimp only
  split
  · exact .refl db
  · rename_i db' hinsert
    obtain ⟨-, -, tables, -, rfl⟩ := Db.insertDataTable_eq_some.mp hinsert
    have hinsert : Shrinks db { db with dataTables := tables } :=
      .of_eq rfl rfl rfl rfl
    split
    · exact hinsert
    · exact hinsert.trans (recordAuditLog_adds _ env _ _ claims _ _ _ _ claims.appId).shrinks

theorem updateTable_shrinks (env : Env) (claims : Claims) (tableName : String)
    (payload : UpdateTableRequest) :
    Shrinks db (updateTable pf db env claims tableName payload).1 := by
  unfold updateTable
  refine Outcome.proceed_rule (P := Shrinks db) (.refl db) ?_
  rintro ⟨existing, updated⟩ _
  have hredefine := (redefineTable_adds db existing.id updated.displayName updated.schema
    updated.accessPolicy claims.appId).shrinks
  dsimp only
  split
  · exact hredefine
  · exact hredefine.trans (recordAuditLog_adds _ env _ _ claims _ _ _ _ claims.appId).shrinks

theorem deleteTable_shrinks (env : Env) (claims : Claims) (tableName : String) :
    Shrinks db (deleteTable pf db env claims tableName).1 := by
  unfold deleteTable
  refine Outcome.proceed_rule (P := Shrinks db) (.refl db) fun existing _ => ?_
  exact (deleteDataTables_shrinks db fun t => t.id == existing.id).trans
    (recordAuditLog_adds _ env _ _ claims _ _ _ _ claims.appId).shrinks

theorem updateRow_shrinks (env : Env) (claims : Claims) (tableName rowId : String)
    (payload : CreateRowRequest) :
    Shrinks db (updateRow pf db env claims tableName rowId payload).1 := by
  unfold updateRow
  refine Outcome.proceed_rule (P := Shrinks db) (.refl db) ?_
  rintro ⟨table, existing, normalized⟩ _
  have hwritten := ((rewriteRow_shrinks db rowId table.id normalized env.now).trans
    (logRowEvent_adds _ env claims.appId table.id rowId claims.sub "update" (some normalized)
      claims.appId).shrinks).trans
    (recordAuditLog_adds _ env (env.uuid 0) (some claims.appId) claims "data.row.updated" "data_row"
      rowId (.object [("table", .string table.name)]) claims.appId).shrinks
  dsimp only
  split
  · exact hwritten
  · exact hwritten

theorem deleteRow_shrinks (env : Env) (claims : Claims) (tableName rowId : String) :
    Shrinks db (deleteRow pf db env claims tableName rowId).1 := by
  unfold deleteRow
  refine Outcome.proceed_rule (P := Shrinks db) (.refl db) ?_
  rintro ⟨table, existing⟩ _
  exact ((deleteRows_shrinks db _).trans
    (logRowEvent_adds _ env _ _ _ _ _ _ claims.appId).shrinks).trans
    (recordAuditLog_adds _ env _ _ claims _ _ _ _ claims.appId).shrinks

theorem deleteAdminUser_shrinks (env : Env) (claims : Claims) (appId userId : String) :
    Shrinks db (deleteAdminUser db env claims appId userId).1 := by
  unfold deleteAdminUser
  refine Outcome.proceed_rule (P := Shrinks db) (.refl db) ?_
  rintro ⟨claims', user⟩ _
  have hcleaned : Shrinks db
      { db with
        refreshTokens := db.refreshTokens.deleteWhere
          fun t => t.appId == claims'.appId && t.userId == userId } :=
    .of_eq rfl rfl rfl rfl
  dsimp only
  split
  · exact .refl db
  · exact .refl db
  · rename_i n db' _ hdelete
    exact (hcleaned.trans (deleteUser_shrinks hdelete)).trans
      (recordAuthEvent_adds _ env _ _ _ _ _ _ appId).shrinks

end Shrinking

/-! ### Requests that ask for room -/

theorem requireWithinLimit_eq_ok {env : Env} {workspaceId : String} {key : ResourceKey}
    {used requested : Int} {u : Unit} :
    requireWithinLimit db env workspaceId key used requested = .ok u ↔
      used + requested ≤ limitOf db workspaceId key := by
  unfold requireWithinLimit
  dsimp only
  split
  · rename_i hgt
    simp only [reduceCtorEq, false_iff]
    exact Int.not_le.mpr hgt
  · rename_i hle
    simp only [true_iff]
    exact Int.not_lt.mp hle

theorem requireResourceLimitAvailable_eq_ok {env : Env} {workspaceId : String}
    {key : ResourceKey} {requested : Int} {u : Unit} :
    requireResourceLimitAvailable db env workspaceId key requested = .ok u ↔
      usedResource db env workspaceId key + requested ≤ limitOf db workspaceId key := by
  rw [← requireWithinLimit_usedResource, requireWithinLimit_eq_ok]

section Asking

variable {pf : Platform} {db : Db}

/-- There is room for a row where `create_row` found some. -/
theorem hasRoom_row (hdb : WithinQuota db) {appId workspaceId : String}
    (happ : appWorkspaceId db appId = some workspaceId)
    (hroom : rowCount db workspaceId + 1 ≤ limitOf db workspaceId .dataRows) :
    HasRoom db appId 1 0 := by
  intro w hw
  rw [happ] at hw
  cases hw
  have husers := (withinQuota_iff.mp hdb workspaceId).2
  exact ⟨hroom, by simpa using husers⟩

theorem hasRoom_user (hdb : WithinQuota db) {appId workspaceId : String}
    (happ : appWorkspaceId db appId = some workspaceId)
    (hroom : userCount db workspaceId + 1 ≤ limitOf db workspaceId .appUsers) :
    HasRoom db appId 0 1 := by
  intro w hw
  rw [happ] at hw
  cases hw
  have hrows := (withinQuota_iff.mp hdb workspaceId).1
  exact ⟨by simpa using hrows, hroom⟩

theorem createRow_withinQuota (hdb : WithinQuota db) (env : Env) (claims : Claims)
    (tableName : String) (payload : CreateRowRequest) :
    WithinQuota (createRow pf db env claims tableName payload).1 := by
  unfold createRow
  refine Outcome.proceed_rule (P := WithinQuota) hdb ?_
  rintro ⟨table, workspaceId, normalized⟩ hchecks
  have hroom : HasRoom db claims.appId 1 0 := by
    simp only [createRowChecks, requireAppResourceAvailable, Outcome.bind_eq_ok,
      Outcome.require_eq_ok] at hchecks
    obtain ⟨table', -, _, -, w, ⟨w', happ, _, hlimit, hw⟩, data, -, heq⟩ := hchecks
    cases hw
    cases heq
    exact hasRoom_row hdb happ (requireResourceLimitAvailable_eq_ok.mp hlimit)
  dsimp only
  split
  · exact hdb
  · rename_i db' hinsert
    have hnew : WithinQuota db' := (insertDataRow_adds hinsert).withinQuota_iff hdb |>.mpr hroom
    have hlogged := ((recordUsage_adds db' env workspaceId .dataRows 1 claims.appId).shrinks.trans
      (logRowEvent_adds _ env claims.appId table.id (env.uuid 0) claims.sub "insert"
        (some normalized) claims.appId).shrinks).trans
      (recordAuditLog_adds _ env (env.uuid 1) (some claims.appId) claims "data.row.created"
        "data_row" (env.uuid 0) (.object [("table", .string table.name)]) claims.appId).shrinks
    split
    · exact hnew.shrinks hlogged
    · exact hnew.shrinks hlogged

theorem registerForApp_withinQuota (hdb : WithinQuota db) (env : Env) (appId : String)
    (payload : Credentials) : WithinQuota (registerForApp pf db env appId payload).1 := by
  unfold registerForApp
  refine Outcome.proceed_rule (P := WithinQuota) hdb ?_
  rintro ⟨workspaceId, passwordHash⟩ hchecks
  have hroom : HasRoom db appId 0 1 := by
    simp only [registerChecks, requireAppWorkspace, Outcome.bind_eq_ok, Outcome.require_eq_ok]
      at hchecks
    obtain ⟨_, -, hash, -, w, happ, _, hlimit, heq⟩ := hchecks
    cases heq
    exact hasRoom_user hdb happ (requireResourceLimitAvailable_eq_ok.mp hlimit)
  dsimp only
  split
  · exact hdb
  · rename_i db' hinsert
    have hnew : WithinQuota db' := (insertUser_adds hinsert).withinQuota_iff hdb |>.mpr hroom
    exact hnew.shrinks ((recordUsage_adds db' env workspaceId .appUsers 1 appId).shrinks.trans
      (recordAuthEvent_adds _ env _ _ _ _ _ _ appId).shrinks)

theorem createAdminUser_withinQuota (hdb : WithinQuota db) (env : Env) (claims : Claims)
    (appId : String) (payload : CreateAdminUserRequest) :
    WithinQuota (createAdminUser pf db env claims appId payload).1 := by
  unfold createAdminUser
  refine Outcome.proceed_rule (P := WithinQuota) hdb ?_
  rintro ⟨claims', workspaceId, passwordHash⟩ hchecks
  have hroom : HasRoom db claims'.appId 0 1 := by
    simp only [createAdminUserChecks, requireAppWorkspace, Outcome.bind_eq_ok,
      Outcome.require_eq_ok] at hchecks
    obtain ⟨c, -, _, -, _, -, w, happ, _, hlimit, hash, -, heq⟩ := hchecks
    cases heq
    exact hasRoom_user hdb happ (requireResourceLimitAvailable_eq_ok.mp hlimit)
  dsimp only
  split
  · exact hdb
  · rename_i db' hinsert
    have hnew : WithinQuota db' := (insertUser_adds hinsert).withinQuota_iff hdb |>.mpr hroom
    exact hnew.shrinks ((recordUsage_adds db' env workspaceId .appUsers 1 appId).shrinks.trans
      (recordAuthEvent_adds _ env _ _ _ _ _ _ appId).shrinks)

end Asking

/-! ### Requests that do not ask -/

/-- The number of rows the insert loop of an import stores: those before the first
    that cannot be stored. -/
def storedRows (pf : Platform) (env : Env) (claims : Claims) (table : LoadedTable) :
    Nat → List ImportRowRequest → Db → Nat
  | _, [], _ => 0
  | n, row :: rest, db =>
      match planRow pf env claims table n row with
      | .error _ => 0
      | .ok planned =>
          match db.insertDataRow planned with
          | none => 0
          | some db =>
              1 + storedRows pf env claims table (n + 1) rest
                (db.logRowEvent env claims.appId table.id planned.id claims.sub "insert"
                  (some planned.data))

/-- Whether an import that gets as far as storing rows has room for them, where the
    table has been cleared and restored. -/
def ImportHasRoom (pf : Platform) (db : Db) (env : Env) (claims : Claims) (tableName : String)
    (payload : TableImportRequest) : Prop :=
  ∀ plan db' table, importChecks pf db claims tableName payload = .ok plan → plan.dryRun = false →
    restoreStage pf (clearStage db claims plan) claims plan = (db', .ok table) →
    HasRoom db' claims.appId (storedRows pf env claims table 0 payload.rows db') 0

/-- The user that the callback of a provider is about to create. -/
def newOAuthUser (pf : Platform) (cipher : SecretCipher) (exchange : CodeExchange) (db : Db)
    (env : Env) (c : OAuthCallbackCall) : Option User :=
  match oauthStateChecks pf env db c with
  | .error _ => none
  | .ok (provider, stateHash) =>
      match oauthExchangeChecks cipher exchange env db c provider stateHash with
      | .error _ => none
      | .ok login =>
          match loadOAuthIdentity db c.appId login.provider login.userinfo.sub with
          | .ok none =>
              match loadOAuthUserByEmail db c.appId (asciiLowercase (trim login.email)) with
              | some _ => none
              | none =>
                  (pf.hashPassword (env.token 0) env.salt).map fun passwordHash =>
                    oauthUser env c.appId (asciiLowercase (trim login.email)) passwordHash
                      db.users.rows.isEmpty
          | _ => none

/-- Whether a callback that creates a user has room for one. -/
def CallbackHasRoom (pf : Platform) (cipher : SecretCipher) (exchange : CodeExchange) (db : Db)
    (env : Env) (c : OAuthCallbackCall) : Prop :=
  ∀ user db', newOAuthUser pf cipher exchange db env c = some user →
    db.insertUser user = some db' → HasRoom db c.appId 0 1

/-- The user, the workspace and the membership that an accepted invite creates. -/
def invitedRows (pf : Platform) (env : Env) (payload : AcceptWorkspaceInviteRequest)
    (workspaceName passwordHash : String) : User × Workspace × WorkspaceMember :=
  let user : User :=
    { id := env.uuid 0, appId := DEFAULT_APP_ID, email := pf.toLowercase (trim payload.email)
      passwordHash := passwordHash, isActive := true, isAdmin := false, adminRole := .viewer
      createdAt := env.now }
  let workspace : Workspace :=
    { id := env.uuid 1, name := workspaceName, displayName := trim payload.workspaceName
      createdBy := some user.id, createdAt := env.now, updatedAt := env.now }
  (user, workspace,
    { workspaceId := workspace.id, userId := user.id, role := .owner, createdAt := env.now
      updatedAt := env.now })

/-- Whether an invite that is accepted has room for one more user of the default app. -/
def InviteHasRoom (pf : Platform) (db : Db) (env : Env) (payload : AcceptWorkspaceInviteRequest) :
    Prop :=
  ∀ invite workspaceName passwordHash db',
    acceptInviteChecks pf db env payload = .ok (invite, workspaceName, passwordHash) →
    signup db invite.id (invitedRows pf env payload workspaceName passwordHash).1
      (invitedRows pf env payload workspaceName passwordHash).2.1
      (invitedRows pf env payload workspaceName passwordHash).2.2 = .ok db' →
    HasRoom db DEFAULT_APP_ID 0 1

section NotAsking

variable {pf : Platform} {db : Db}

theorem insertStage_adds (env : Env) (claims : Claims) (table : LoadedTable)
    (rows : List ImportRowRequest) :
    ∀ (n : Nat) (db : Db), Adds claims.appId (storedRows pf env claims table n rows db) 0 db
      (insertStage pf env claims table n rows db).1 := by
  induction rows with
  | nil => intro n db; exact .of_eq claims.appId rfl rfl rfl rfl
  | cons row rest ih =>
    intro n db
    rw [insertStage, storedRows]
    cases hplan : planRow pf env claims table n row with
    | error e => exact .of_eq claims.appId rfl rfl rfl rfl
    | ok planned =>
      simp only [Outcome.proceed_ok]
      cases hinsert : db.insertDataRow planned with
      | none => exact .of_eq claims.appId rfl rfl rfl rfl
      | some db' =>
        have hfirst := insertDataRow_adds hinsert
        rw [(planRow_ok hplan).2.1] at hfirst
        have hlogged := logRowEvent_adds db' env claims.appId table.id planned.id claims.sub
          "insert" (some planned.data) claims.appId
        exact (hfirst.trans hlogged).trans (ih (n + 1) _)

theorem clearStage_shrinks (claims : Claims) (plan : ImportPlan) :
    Shrinks db (clearStage db claims plan) := by
  unfold clearStage
  split
  · exact deleteRows_shrinks db _
  · exact .refl db

theorem restoreStage_shrinks (claims : Claims) (plan : ImportPlan) :
    Shrinks db (restoreStage pf db claims plan).1 := by
  unfold restoreStage
  split
  · unfold restoreTableDefinition
    refine Outcome.proceed_rule (P := Shrinks db) (.refl db) fun _ _ => ?_
    exact (redefineTable_adds db _ _ _ _ claims.appId).shrinks
  · exact .refl db

theorem importRows_withinQuota_iff (hdb : WithinQuota db) (env : Env) (claims : Claims)
    (tableName : String) (payload : TableImportRequest) :
    WithinQuota (importRows pf db env claims tableName payload).1 ↔
      ImportHasRoom pf db env claims tableName payload := by
  unfold importRows ImportHasRoom
  cases hchecks : importChecks pf db claims tableName payload with
  | error e =>
    refine iff_of_true hdb ?_
    intro plan db' table h
    cases h
  | ok plan =>
    simp only [Outcome.proceed_ok]
    cases hdry : plan.dryRun with
    | true =>
      refine iff_of_true hdb ?_
      intro plan' db' table h hno
      cases h
      rw [hdry] at hno
      cases hno
    | false =>
      simp only [Bool.false_eq_true, if_false]
      have hstart : Shrinks db (restoreStage pf (clearStage db claims plan) claims plan).1 :=
        (clearStage_shrinks claims plan).trans (restoreStage_shrinks claims plan)
      rcases hrestore : restoreStage pf (clearStage db claims plan) claims plan with ⟨db', restored⟩
      rw [hrestore] at hstart
      have hdb' : WithinQuota db' := hdb.shrinks hstart
      cases restored with
      | error e =>
        refine iff_of_true hdb' ?_
        intro plan' db'' table h _ heq
        cases h
        rw [hrestore] at heq
        cases heq
      | ok table =>
        simp only [Outcome.proceed_ok]
        rw [(insertStage_adds env claims table payload.rows 0 db').withinQuota_iff hdb']
        constructor
        · intro hroom plan' db'' table' h _ heq
          cases h
          rw [hrestore] at heq
          cases heq
          exact hroom
        · intro hroom
          exact hroom plan db' table rfl hdry hrestore

theorem signup_adds {inviteId : String} {user : User} {workspace : Workspace}
    {membership : WorkspaceMember} {db' : Db}
    (h : signup db inviteId user workspace membership = .ok db') : Adds user.appId 0 1 db db' := by
  simp only [signup, Outcome.bind_eq_ok, Outcome.require_eq_ok] at h
  obtain ⟨db₁, huse, db₂, huser, db₃, hworkspace, hmember⟩ := h
  have h₁ : Adds user.appId 0 0 db db₁ := by
    simp only [Db.useInvite] at huse
    split at huse
    · cases huse
      exact .of_eq _ rfl rfl rfl rfl
    · cases huse
  have h₃ : Adds user.appId 0 0 db₂ db₃ := by
    unfold Db.insertWorkspace at hworkspace
    split at hworkspace
    · obtain ⟨workspaces, -, rfl⟩ := Option.map_eq_some_iff.mp hworkspace
      exact .of_eq _ rfl rfl rfl rfl
    · cases hworkspace
  have h₄ : Adds user.appId 0 0 db₃ db' := by
    unfold Db.insertWorkspaceMember at hmember
    split at hmember
    · obtain ⟨members, -, rfl⟩ := Option.map_eq_some_iff.mp hmember
      exact .of_eq _ rfl rfl rfl rfl
    · cases hmember
  exact ((h₁.trans (insertUser_adds huser)).trans h₃).trans h₄

theorem issueLoginResponse_adds {env : Env} {app : String} {user : UserSummary}
    {response : LoginResponse} {db' : Db}
    (h : issueLoginResponse pf db env app user = .ok (response, db')) (appId : String) :
    Adds appId 0 0 db db' := by
  obtain ⟨tokens, rfl⟩ := issueLoginResponse_frame h
  exact .of_eq appId rfl rfl rfl rfl

theorem acceptWorkspaceInvite_withinQuota_iff (hdb : WithinQuota db) (env : Env)
    (payload : AcceptWorkspaceInviteRequest) :
    WithinQuota (acceptWorkspaceInvite pf db env payload).1 ↔ InviteHasRoom pf db env payload := by
  unfold acceptWorkspaceInvite InviteHasRoom
  cases hchecks : acceptInviteChecks pf db env payload with
  | error e =>
    refine iff_of_true hdb ?_
    intro invite workspaceName passwordHash db' h
    cases h
  | ok checked =>
    obtain ⟨invite, workspaceName, passwordHash⟩ := checked
    simp only [Outcome.proceed_ok]
    change WithinQuota (Outcome.proceed db
      (signup db invite.id (invitedRows pf env payload workspaceName passwordHash).1
        (invitedRows pf env payload workspaceName passwordHash).2.1
        (invitedRows pf env payload workspaceName passwordHash).2.2) _).1 ↔ _
    cases hsignup : signup db invite.id (invitedRows pf env payload workspaceName passwordHash).1
        (invitedRows pf env payload workspaceName passwordHash).2.1
        (invitedRows pf env payload workspaceName passwordHash).2.2 with
    | error e =>
      refine iff_of_true hdb ?_
      intro invite' workspaceName' passwordHash' db' h hok
      cases h
      rw [hsignup] at hok
      cases hok
    | ok db' =>
      have hadds : Adds DEFAULT_APP_ID 0 1 db db' := signup_adds hsignup
      simp only [Outcome.proceed_ok]
      have hroom : WithinQuota db' ↔ HasRoom db DEFAULT_APP_ID 0 1 := hadds.withinQuota_iff hdb
      have hcondition : HasRoom db DEFAULT_APP_ID 0 1 ↔
          ∀ invite' workspaceName' passwordHash' db'',
            Except.ok (invite, workspaceName, passwordHash) =
                (.ok (invite', workspaceName', passwordHash') : Except ApiError _) →
              signup db invite'.id (invitedRows pf env payload workspaceName' passwordHash').1
                (invitedRows pf env payload workspaceName' passwordHash').2.1
                (invitedRows pf env payload workspaceName' passwordHash').2.2 = .ok db'' →
              HasRoom db DEFAULT_APP_ID 0 1 :=
        ⟨fun h _ _ _ _ _ _ => h,
          fun h => h invite workspaceName passwordHash db' rfl hsignup⟩
      rw [← hcondition]
      split
      · exact hroom
      · rename_i login db'' hlogin
        exact ((hadds.trans (issueLoginResponse_adds hlogin _)).withinQuota_iff hdb)

end NotAsking

/-! ### The callback of a provider on its own -/

/-- The callback after it has found or created its user, or has failed. -/
def OAuthStage.userKnown : OAuthStage → Bool
  | .found .. | .linked .. | .spent .. | .issued .. | .completed .. | .refused .. => true
  | _ => false

section Callback

variable {pf : Platform} {cipher : SecretCipher} {exchange : CodeExchange}

theorem oauthStep_adds (env : Env) (appId : String) {db : Db} {c : OAuthCallbackCall}
    (h : c.stage.userKnown = true) :
    Adds appId 0 0 db (c.step pf cipher exchange env db).1 ∧
      (c.step pf cipher exchange env db).2.stage.userKnown = true := by
  obtain ⟨app, provider, code, state, stage⟩ := c
  unfold OAuthCallbackCall.step
  cases stage with
  | received => cases h
  | matched _ _ => cases h
  | exchanged login => cases h
  | unknownIdentity login => cases h
  | newcomer login => cases h
  | counted login isAdmin => cases h
  | found login user =>
    dsimp only
    split
    · exact ⟨.of_eq appId rfl rfl rfl rfl, rfl⟩
    · rename_i db' hupsert
      obtain ⟨identities, rfl⟩ := Db.upsertAuthIdentity_eq_some hupsert
      exact ⟨.of_eq appId rfl rfl rfl rfl, rfl⟩
  | linked login user => exact ⟨.of_eq appId rfl rfl rfl rfl, rfl⟩
  | spent login user =>
    dsimp only
    split
    · exact ⟨.of_eq appId rfl rfl rfl rfl, rfl⟩
    · rename_i response db' hissue
      exact ⟨issueLoginResponse_adds hissue appId, rfl⟩
  | issued login user response => exact ⟨recordAuthEvent_adds db env _ _ _ _ _ _ appId, rfl⟩
  | completed stateHash response => exact ⟨.of_eq appId rfl rfl rfl rfl, rfl⟩
  | refused e => exact ⟨.of_eq appId rfl rfl rfl rfl, rfl⟩

theorem oauthAlone_adds (env : Env) (appId : String) (n : Nat) (db : Db) (c : OAuthCallbackCall)
    (h : c.stage.userKnown = true) :
    Adds appId 0 0 db (alone (OAuthCallbackCall.step pf cipher exchange) env n db c).1 := by
  have hstart : Adds appId 0 0 db db ∧ c.stage.userKnown = true :=
    ⟨.of_eq appId rfl rfl rfl rfl, h⟩
  have hstep : ∀ (s : Db) (r : OAuthCallbackCall),
      Adds appId 0 0 db s ∧ r.stage.userKnown = true →
      Adds appId 0 0 db (r.step pf cipher exchange env s).1 ∧
        (r.step pf cipher exchange env s).2.stage.userKnown = true := by
    rintro s r ⟨hs, hr⟩
    obtain ⟨hadds, hknown⟩ := oauthStep_adds env appId hr
    exact ⟨hs.trans hadds, hknown⟩
  exact (alone_rule hstep n db c hstart).1

/-- The database after a callback that nothing interrupts. -/
def oauthCallback (pf : Platform) (cipher : SecretCipher) (exchange : CodeExchange) (db : Db)
    (env : Env) (appId provider code state : String) : Db :=
  (alone (OAuthCallbackCall.step pf cipher exchange) env 10 db
    ⟨appId, provider, code, state, .received⟩).1

/-- The callback adds a user exactly when it is about to create one and can. -/
theorem oauthCallback_adds (db : Db) (env : Env) (appId provider code state : String) :
    (∃ user db', newOAuthUser pf cipher exchange db env ⟨appId, provider, code, state, .received⟩ =
        some user ∧ db.insertUser user = some db' ∧
        Adds appId 0 1 db (oauthCallback pf cipher exchange db env appId provider code state)) ∨
      ((∀ user db', newOAuthUser pf cipher exchange db env
          ⟨appId, provider, code, state, .received⟩ = some user → db.insertUser user ≠ some db') ∧
        Adds appId 0 0 db (oauthCallback pf cipher exchange db env appId provider code state)) := by
  unfold oauthCallback newOAuthUser
  rw [alone_succ]
  cases hstate : oauthStateChecks pf env db ⟨appId, provider, code, state, .received⟩ with
  | error e =>
    simp only [OAuthCallbackCall.step, hstate]
    exact .inr ⟨fun _ _ h => (by cases h), oauthAlone_adds env appId _ _ _ rfl⟩
  | ok matched =>
    obtain ⟨name, stateHash⟩ := matched
    simp only [OAuthCallbackCall.step, hstate]
    rw [alone_succ]
    have hstage : ∀ stage, oauthExchangeChecks cipher exchange env db
        ⟨appId, provider, code, state, stage⟩ name stateHash = oauthExchangeChecks cipher exchange
          env db ⟨appId, provider, code, state, .received⟩ name stateHash := fun _ => rfl
    cases hlogin : oauthExchangeChecks cipher exchange env db
        ⟨appId, provider, code, state, .received⟩ name stateHash with
    | error e =>
      simp only [OAuthCallbackCall.step, hstage, hlogin]
      exact .inr ⟨fun _ _ h => (by cases h), oauthAlone_adds env appId _ _ _ rfl⟩
    | ok login =>
      simp only [OAuthCallbackCall.step, hstage, hlogin]
      rw [alone_succ]
      cases hidentity : loadOAuthIdentity db appId login.provider login.userinfo.sub with
      | error e =>
        simp only [OAuthCallbackCall.step, hidentity]
        exact .inr ⟨fun _ _ h => (by cases h), oauthAlone_adds env appId _ _ _ rfl⟩
      | ok found =>
        obtain rfl := loadOAuthIdentity_ok hidentity
        simp only [OAuthCallbackCall.step, hidentity]
        rw [alone_succ]
        cases hemail : loadOAuthUserByEmail db appId (asciiLowercase (trim login.email)) with
        | some user =>
          simp only [OAuthCallbackCall.step, hemail]
          exact .inr ⟨fun _ _ h => (by cases h), oauthAlone_adds env appId _ _ _ rfl⟩
        | none =>
          simp only [OAuthCallbackCall.step, hemail]
          rw [alone_succ]
          simp only [OAuthCallbackCall.step]
          rw [alone_succ]
          cases hhash : pf.hashPassword (env.token 0) env.salt with
          | none =>
            simp only [OAuthCallbackCall.step, hhash]
            exact .inr ⟨fun _ _ h => (by cases h), oauthAlone_adds env appId _ _ _ rfl⟩
          | some passwordHash =>
            simp only [OAuthCallbackCall.step, hhash, Option.map_some, Option.some.injEq]
            cases hinsert : db.insertUser (oauthUser env appId (asciiLowercase (trim login.email))
                passwordHash db.users.rows.isEmpty) with
            | none =>
              refine .inr ⟨?_, oauthAlone_adds env appId _ _ _ rfl⟩
              rintro user db' rfl hsome
              rw [hinsert] at hsome
              cases hsome
            | some db' =>
              refine .inl ⟨_, db', rfl, hinsert, ?_⟩
              exact (insertUser_adds hinsert).trans (oauthAlone_adds env appId _ _ _ rfl)

theorem oauthCallback_withinQuota_iff {db : Db} (hdb : WithinQuota db) (env : Env)
    (appId provider code state : String) :
    WithinQuota (oauthCallback pf cipher exchange db env appId provider code state) ↔
      CallbackHasRoom pf cipher exchange db env ⟨appId, provider, code, state, .received⟩ := by
  unfold CallbackHasRoom
  rcases @oauthCallback_adds pf cipher exchange db env appId provider code state with
    ⟨user, db', huser, hinsert, hadds⟩ | ⟨hnone, hadds⟩
  · rw [hadds.withinQuota_iff hdb]
    constructor
    · intro hroom _ _ _ _
      exact hroom
    · intro h
      exact h user db' huser hinsert
  · refine iff_of_true (hdb.shrinks hadds.shrinks) ?_
    intro user db' huser hinsert
    exact absurd hinsert (hnone user db' huser)

end Callback

/-! ### Runs -/

/-- The requests that create or delete rows and users, with those that change tables. -/
inductive QuotaRequest where
  | data (r : DataRequest)
  | oauthCallback (env : Env) (appId provider code state : String)
  | acceptWorkspaceInvite (env : Env) (payload : AcceptWorkspaceInviteRequest)

def quotaStep (pf : Platform) (cipher : SecretCipher) (exchange : CodeExchange) (db : Db) :
    QuotaRequest → Db
  | .data r => handleDataRequest pf db r
  | .oauthCallback env appId provider code state =>
      oauthCallback pf cipher exchange db env appId provider code state
  | .acceptWorkspaceInvite env payload => (acceptWorkspaceInvite pf db env payload).1

/-- Is there room for what the request creates without asking? -/
def RoomFor (pf : Platform) (cipher : SecretCipher) (exchange : CodeExchange) (db : Db) :
    QuotaRequest → Prop
  | .data (.importRows env claims table payload) => ImportHasRoom pf db env claims table payload
  | .data _ => True
  | .oauthCallback env appId provider code state =>
      CallbackHasRoom pf cipher exchange db env ⟨appId, provider, code, state, .received⟩
  | .acceptWorkspaceInvite env payload => InviteHasRoom pf db env payload

/-- **Step lemma.** -/
theorem quotaStep_withinQuota_iff (pf : Platform) (cipher : SecretCipher) (exchange : CodeExchange)
    (hdb : WithinQuota db) (r : QuotaRequest) :
    WithinQuota (quotaStep pf cipher exchange db r) ↔ RoomFor pf cipher exchange db r := by
  cases r with
  | data r =>
    cases r with
    | createTable env claims payload =>
      exact iff_of_true (hdb.shrinks (createTable_shrinks pf db env claims payload)) trivial
    | updateTable env claims table payload =>
      exact iff_of_true (hdb.shrinks (updateTable_shrinks pf db env claims table payload)) trivial
    | deleteTable env claims table =>
      exact iff_of_true (hdb.shrinks (deleteTable_shrinks pf db env claims table)) trivial
    | createRow env claims table payload =>
      exact iff_of_true (createRow_withinQuota hdb env claims table payload) trivial
    | updateRow env claims table rowId payload =>
      exact iff_of_true (hdb.shrinks (updateRow_shrinks pf db env claims table rowId payload))
        trivial
    | deleteRow env claims table rowId =>
      exact iff_of_true (hdb.shrinks (deleteRow_shrinks pf db env claims table rowId)) trivial
    | importRows env claims table payload =>
      exact importRows_withinQuota_iff hdb env claims table payload
    | registerForApp env appId payload =>
      exact iff_of_true (registerForApp_withinQuota hdb env appId payload) trivial
    | createAdminUser env claims appId payload =>
      exact iff_of_true (createAdminUser_withinQuota hdb env claims appId payload) trivial
    | deleteAdminUser env claims appId userId =>
      exact iff_of_true (hdb.shrinks (deleteAdminUser_shrinks db env claims appId userId)) trivial
  | oauthCallback env appId provider code state =>
    exact oauthCallback_withinQuota_iff hdb env appId provider code state
  | acceptWorkspaceInvite env payload => exact acceptWorkspaceInvite_withinQuota_iff hdb env payload

/-- A run keeps to the quotas in every state exactly when it starts within them and
    there is room for everything that is created without asking. -/
theorem quotas_kept_iff (pf : Platform) (cipher : SecretCipher) (exchange : CodeExchange) (db : Db)
    (rs : List QuotaRequest) :
    (∀ pre post, rs = pre ++ post →
        WithinQuota (Transition.run (quotaStep pf cipher exchange) db pre)) ↔
      WithinQuota db ∧ ∀ pre r post, rs = pre ++ r :: post →
        RoomFor pf cipher exchange (Transition.run (quotaStep pf cipher exchange) db pre) r := by
  have hstep : ∀ s r, WithinQuota s →
      (WithinQuota (quotaStep pf cipher exchange s r) ↔ RoomFor pf cipher exchange s r) :=
    fun _ r hs => quotaStep_withinQuota_iff pf cipher exchange hs r
  constructor
  · intro h
    have hdb : WithinQuota db := h [] rs rfl
    exact ⟨hdb, (Transition.good_iff_admissible hstep hdb rs).mp h⟩
  · rintro ⟨hdb, hadm⟩
    exact (Transition.good_iff_admissible hstep hdb rs).mpr hadm

/-- A workspace that may hold one row, and an app with an administrator in it. -/
def cappedDb : Db :=
  { rootDb with
    workspaces := ⟨[{
      id := "shop", name := "shop", displayName := "Shop", createdBy := some "root"
      createdAt := "2026-01-01 00:00:00", updatedAt := "2026-01-01 00:00:00" }], by simp⟩
    apps := ⟨[{
      id := "default", name := "default", displayName := "Default", workspaceId := "shop"
      createdBy := some "root", createdAt := "2026-01-01 00:00:00"
      updatedAt := "2026-01-01 00:00:00", deletedAt := none }], by simp⟩
    usageCounters := ⟨[{
      workspaceId := "shop", resourceKey := .dataRows, periodStart := "all", used := 0
      resourceLimit := some 1 }], by simp⟩ }

/-- The administrator creates a table and imports two rows into it. -/
def cappedRun : List DataRequest :=
  [.createTable (sampleEnv "t") root
      { name := "notes", displayName := "Notes", schema := noteSchema,
        accessPolicy := { mode := .authenticatedSharedRw } },
    .importRows (sampleEnv "r") root "notes"
      { rows := [{ id := some "a", data := note "a" }, { id := some "b", data := note "b" }] }]

theorem cappedDb_withinQuota : WithinQuota cappedDb := by
  rw [withinQuota_iff]
  intro w
  have hrows : rowCount cappedDb w = 0 := rfl
  have husers : userCount cappedDb w ≤ 1 := by
    have hle := List.length_filter_le (fun u : User => appInWorkspace cappedDb w u.appId)
      cappedDb.users.rows
    exact Int.ofNat_le.mpr hle
  have hlimit : limitOf cappedDb w .appUsers = 10000 := by
    simp [limitOf, cappedDb, KeyedTable.find?, KeyedTable.selectOne, defaultResourceLimit]
  have hrowLimit : 0 ≤ limitOf cappedDb w .dataRows := by
    unfold limitOf KeyedTable.find? KeyedTable.selectOne
    by_cases hw : "shop" = w
    · subst hw
      decide
    · simp [cappedDb, hw, defaultResourceLimit]
  constructor
  · omega
  · omega

/-- The rows are all imported, and the workspace holds two. -/
theorem import_exceeds_quota :
    WithinQuota cappedDb ∧ ∀ cipher exchange,
      ¬ WithinQuota (Transition.run (quotaStep asciiPlatform cipher exchange) cappedDb
        (cappedRun.map .data)) := by
  refine ⟨cappedDb_withinQuota, ?_⟩
  intro cipher exchange hquota
  have hrows := (withinQuota_iff.mp hquota "shop").1
  have hexceeds : ¬ rowCount (Transition.run (handleDataRequest asciiPlatform) cappedDb cappedRun)
      "shop" ≤ limitOf (Transition.run (handleDataRequest asciiPlatform) cappedDb cappedRun)
        "shop" .dataRows := by
    decide +kernel
  exact hexceeds hrows

end Peanut
