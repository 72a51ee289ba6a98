import Peanut.Data.ImportAtomicity

/-!
# What the owner rule protects

`owner` as the rule for updating or deleting should leave a row to the user
recorded in `owner_user_id`.  The rule is evaluated by a function that answers
yes when no owner is given, which is right for a table and wrong for a row
without an owner.  A row has none when the create rule did not ask for one, when
it was imported without one, or when its owner has been deleted.
-/

namespace Peanut

open Relational

/-- Does the request of a caller that changes a row in this way succeed? -/
def rowChangeSucceeds (pf : Platform) (db : Db) (env : Env) (claims : Claims)
    (tableName rowId : String) (payload : CreateRowRequest) : RowAccessAction → Bool
  | .update => Outcome.succeeded (updateRow pf db env claims tableName rowId payload).2
  | .delete => Outcome.succeeded (deleteRow pf db env claims tableName rowId).2
  | .read => false

/-- In this state the `owner` rule keeps everybody but the recorded owner and the
    administrators away from a row. -/
def OwnerRuleProtects (pf : Platform) (db : Db) : Prop :=
  ∀ (claims : Claims) (tableName : String) (table : LoadedTable) (row : DataRow)
    (action : RowAccessAction) (env : Env) (payload : CreateRowRequest),
    claims.isAdmin = false →
    loadTable pf db claims.appId tableName = some table →
    table.accessPolicy.rules.bind (·.ruleFor action) = some .ruleOwner →
    row ∈ db.dataRows → row.tableId = table.id →
    rowChangeSucceeds pf db env claims tableName row.id payload action = true →
    row.ownerUserId = some claims.sub

/-- No row of a table with an `owner` rule for updating or deleting lacks an owner. -/
def OwnersRecorded (db : Db) : Prop :=
  ∀ table ∈ db.dataTables, ∀ action, action ≠ .read →
    table.accessPolicy.rules.bind (·.ruleFor action) = some .ruleOwner →
    ∀ row ∈ db.dataRows, row.tableId = table.id → row.ownerUserId ≠ none

section State

variable {pf : Platform} {db : Db} {claims : Claims}

theorem canAccessRow_of_rowChangeSucceeds {env : Env} {tableName : String}
    {payload : CreateRowRequest}
    {action : RowAccessAction} {table : LoadedTable} {row : DataRow}
    (hload : loadTable pf db claims.appId tableName = some table)
    (hrow : row ∈ db.dataRows) (hid : row.tableId = table.id)
    (h : rowChangeSucceeds pf db env claims tableName row.id payload action = true) :
    canAccessRow claims table.accessPolicy row.ownerUserId action = true := by
  have hstored : loadRow db table.id row.id = some row := loadRow_eq_some.mpr ⟨hrow, hid, rfl⟩
  have hchecked : ∀ found, requireRow pf db claims tableName row.id action = .ok found →
      canAccessRow claims table.accessPolicy row.ownerUserId action = true := by
    rintro ⟨t, r⟩ hfound
    obtain ⟨hload', hstored', haccess⟩ := requireRow_eq_ok.mp hfound
    rw [hload] at hload'
    cases hload'
    rw [hstored] at hstored'
    cases hstored'
    exact haccess
  cases action with
  | read => cases h
  | update =>
    simp only [rowChangeSucceeds, updateRow] at h
    cases hchecks : updateRowChecks pf db claims tableName row.id payload with
    | error e =>
      rw [hchecks] at h
      cases h
    | ok out =>
      obtain ⟨t, existing, normalized⟩ := out
      exact hchecked _ (updateRowChecks_ok hchecks).1
  | delete =>
    simp only [rowChangeSucceeds, deleteRow] at h
    cases hchecks : requireRow pf db claims tableName row.id .delete with
    | error e =>
      rw [hchecks] at h
      cases h
    | ok found => exact hchecked _ hchecks

/-- Under the `owner` rule a non-administrator passes on own rows and on rows
    without an owner. -/
theorem canAccessRow_ruleOwner {policy : AccessPolicy} {owner : Option String}
    {action : RowAccessAction} (hadmin : claims.isAdmin = false)
    (hrule : policy.rules.bind (·.ruleFor action) = some .ruleOwner) :
    canAccessRow claims policy owner action = true ↔ owner = none ∨ owner = some claims.sub := by
  simp only [canAccessRow, hadmin, Bool.false_eq_true, if_false, hrule]
  cases owner with
  | none => simp [evaluateRule]
  | some o => simp [evaluateRule]

/-- An empty patch to a row the caller may update succeeds: the stored data
    conforms to the schema as it is. -/
theorem updateRow_empty_patch (hwf : WellFormed pf db.core) (env : Env) {tableName : String}
    {table : LoadedTable} {row : DataRow}
    (hload : loadTable pf db claims.appId tableName = some table)
    (hrow : row ∈ db.dataRows) (hid : row.tableId = table.id)
    (haccess : canAccessRow claims table.accessPolicy row.ownerUserId .update = true) :
    Outcome.succeeded
      (updateRow pf db env claims tableName row.id { data := .object [] }).2 = true := by
  obtain ⟨htable, -, -⟩ := loadTable_some hload
  have hfound : requireRow pf db claims tableName row.id .update = .ok (table, row) :=
    requireRow_eq_ok.mpr ⟨hload, loadRow_eq_some.mpr ⟨hrow, hid, rfl⟩, haccess⟩
  have hconf : Conforms pf table.schema row.data := hwf.conforms hrow htable hid.symm
  obtain ⟨fields, hfields⟩ := hconf.isObject
  obtain ⟨normalized, hnorm⟩ := hconf
  have hchecks : updateRowChecks pf db claims tableName row.id { data := .object [] } =
      .ok (table, row, normalized) := by
    rw [hfields] at hnorm
    simp only [updateRowChecks, hfound, Outcome.ok_bind, hfields, valueToObject, mergePatch,
      List.foldl_nil, Outcome.mapError_ok, badRequest, hnorm]
    rfl
  have hreload : (loadRow (Db.recordAuditLog (Db.logRowEvent (db.rewriteRow row.id table.id
      normalized env.now) env claims.appId table.id row.id claims.sub "update" (some normalized))
      env (env.uuid 0) (some claims.appId) claims "data.row.updated" "data_row" row.id
      (.object [("table", .string table.name)])) table.id row.id) =
      some { row with data := normalized, updatedAt := env.now } := by
    refine loadRow_eq_some.mpr ⟨?_, hid, rfl⟩
    have hrows : ∀ d : Db, d.core = (db.core.rewriteRow row.id table.id normalized env.now) →
        { row with data := normalized, updatedAt := env.now } ∈ d.dataRows := by
      intro d hd
      have hmem : { row with data := normalized, updatedAt := env.now } ∈
          (db.core.rewriteRow row.id table.id normalized env.now).rows :=
        DataCore.mem_rewriteRow.mpr ⟨row, hrow, by simp [hid]⟩
      rw [← hd] at hmem
      exact hmem
    refine hrows _ ?_
    rw [recordAuditLog_core, logRowEvent_core]
    rfl
  simp only [updateRow, hchecks, Outcome.proceed_ok, hreload, Outcome.succeeded_ok]

theorem deleteRow_succeeds (env : Env) {tableName : String} {table : LoadedTable} {row : DataRow}
    (hload : loadTable pf db claims.appId tableName = some table)
    (hrow : row ∈ db.dataRows) (hid : row.tableId = table.id)
    (haccess : canAccessRow claims table.accessPolicy row.ownerUserId .delete = true) :
    Outcome.succeeded (deleteRow pf db env claims tableName row.id).2 = true := by
  have hfound : requireRow pf db claims tableName row.id .delete = .ok (table, row) :=
    requireRow_eq_ok.mpr ⟨hload, loadRow_eq_some.mpr ⟨hrow, hid, rfl⟩, haccess⟩
  simp only [deleteRow, hfound, Outcome.proceed_ok, Outcome.succeeded_ok]

/-- In a well-formed state the rule protects exactly when every owner is recorded. -/
theorem ownerRuleProtects_iff (hwf : WellFormed pf db.core) :
    OwnerRuleProtects pf db ↔ OwnersRecorded db := by
  constructor
  · intro hprotects table htable action hread hrule row hrow hid hnone
    -- anybody of the app can change a row without an owner
    let anybody : Claims := { sub := "", appId := table.appId, exp := 0, isAdmin := false }
    have hload : loadTable pf db anybody.appId table.name = some table :=
      loadTable_stored hwf htable
    have haccess : canAccessRow anybody table.accessPolicy row.ownerUserId action = true :=
      (canAccessRow_ruleOwner rfl hrule).mpr (.inl hnone)
    have hsucceeds : rowChangeSucceeds pf db (sampleEnv "") anybody table.name row.id
        { data := .object [] } action = true := by
      cases action with
      | read => exact absurd rfl hread
      | update => exact updateRow_empty_patch hwf (sampleEnv "") hload hrow hid haccess
      | delete => exact deleteRow_succeeds (sampleEnv "") hload hrow hid haccess
    have howner := hprotects anybody table.name table row action (sampleEnv "")
      { data := .object [] } rfl hload hrule hrow hid hsucceeds
    rw [hnone] at howner
    cases howner
  · intro hrecorded claims tableName table row action env payload hadmin hload hrule hrow hid h
    have haccess := canAccessRow_of_rowChangeSucceeds hload hrow hid h
    have hread : action ≠ .read := by
      rintro rfl
      cases h
    obtain ⟨htable, -, -⟩ := loadTable_some hload
    rcases (canAccessRow_ruleOwner hadmin hrule).mp haccess with hnone | hsome
    · exact absurd hnone (hrecorded table htable action hread hrule row hrow hid)
    · exact hsome

end State

/-! ### Runs in which every row keeps an owner -/

/-- Every stored row has an owner. -/
def DataCore.AllOwned (c : DataCore) : Prop := ∀ r ∈ c.rows, r.ownerUserId ≠ none

/-- The request neither stores a row without an owner nor takes an owner away. -/
def RequestKeepsOwners (pf : Platform) (db : Db) : DataRequest → Prop
  | .createRow _ claims tableName _ =>
      ∀ table, loadTable pf db claims.appId tableName = some table →
        ownerUserIdForNewRow claims table.accessPolicy ≠ none
  | .importRows _ claims tableName payload =>
      ∀ plan, importChecks pf db claims tableName payload = .ok plan → plan.dryRun = false →
        ∀ row ∈ payload.rows,
          normalizeImportOwnerUserId plan.effectiveTable.accessPolicy row.ownerUserId ≠ .ok none
  | .deleteAdminUser _ _ _ userId => ∀ row ∈ db.dataRows, row.ownerUserId ≠ some userId
  | _ => True

namespace DataCore.AllOwned

variable {c : DataCore}

theorem deleteTables (h : c.AllOwned) (p : LoadedTable → Bool) : (c.deleteTables p).AllOwned :=
  fun r hr => h r (DataCore.mem_deleteTables_rows.mp hr).1

theorem deleteRows (h : c.AllOwned) (p : DataRow → Bool) : (c.deleteRows p).AllOwned :=
  fun r hr => h r (KeyedTable.mem_deleteWhere.mp hr).1

theorem insertRow (h : c.AllOwned) {r : DataRow} {rows : KeyedTable DataRow (·.id)}
    (howner : r.ownerUserId ≠ none) (hins : c.rows.insert? r = some rows) :
    DataCore.AllOwned { c with rows := rows } := by
  intro s hs
  rcases (KeyedTable.mem_insert? hins).mp hs with hs | rfl
  · exact h s hs
  · exact howner

theorem rewriteRow (h : c.AllOwned) (rowId tableId now : String) (data : Value) :
    (c.rewriteRow rowId tableId data now).AllOwned := by
  intro s hs
  obtain ⟨r, hr, rfl⟩ := DataCore.mem_rewriteRow.mp hs
  have hrow := h r hr
  split
  · exact hrow
  · exact hrow

theorem deleteUser (h : c.AllOwned) {userId : String}
    (hnot : ∀ r ∈ c.rows, r.ownerUserId ≠ some userId) : (c.deleteUser userId).AllOwned := by
  intro s hs
  obtain ⟨r, hr, rfl⟩ := DataCore.mem_deleteUser_rows.mp hs
  have hr' := (DataCore.mem_deleteTables_rows.mp hr).1
  rw [if_neg (by simpa using hnot r hr')]
  exact h r hr'

end DataCore.AllOwned

section Requests

variable {pf : Platform} {db : Db}

theorem createTable_rows (env : Env) (claims : Claims) (payload : CreateTableRequest) :
    (createTable pf db env claims payload).1.core.rows = db.core.rows := by
  unfold createTable
  refine Outcome.proceed_rule (P := fun s : Db => s.core.rows = db.core.rows) rfl ?_
  intro name _
  dsimp only
  split
  · rfl
  · rename_i db' hinsert
    obtain ⟨-, -, tables, -, rfl⟩ := Db.insertDataTable_eq_some.mp hinsert
    split
    · rfl
    · rw [recordAuditLog_core]
      rfl

theorem updateTable_rows (env : Env) (claims : Claims) (tableName : String)
    (payload : UpdateTableRequest) :
    (updateTable pf db env claims tableName payload).1.core.rows = db.core.rows := by
  unfold updateTable
  refine Outcome.proceed_rule (P := fun s : Db => s.core.rows = db.core.rows) rfl ?_
  rintro ⟨existing, updated⟩ _
  dsimp only
  split
  · rfl
  · rw [recordAuditLog_core]
    rfl

theorem insertUser_rows {db' : Db} {u : User} (h : db.insertUser u = some db') :
    db'.core.rows = db.core.rows := by
  obtain ⟨users, -, rfl⟩ := Db.insertUser_eq_some h
  rfl

theorem registerForApp_rows (env : Env) (appId : String) (payload : Credentials) :
    (registerForApp pf db env appId payload).1.core.rows = db.core.rows := by
  unfold registerForApp
  refine Outcome.proceed_rule (P := fun s : Db => s.core.rows = db.core.rows) rfl ?_
  rintro ⟨workspaceId, passwordHash⟩ _
  dsimp only
  split
  · rfl
  · rename_i db' hinsert
    rw [recordAuthEvent_core, recordUsage_core, insertUser_rows hinsert]

theorem createAdminUser_rows (env : Env) (claims : Claims) (appId : String)
    (payload : CreateAdminUserRequest) :
    (createAdminUser pf db env claims appId payload).1.core.rows = db.core.rows := by
  unfold createAdminUser
  refine Outcome.proceed_rule (P := fun s : Db => s.core.rows = db.core.rows) rfl ?_
  rintro ⟨claims', workspaceId, passwordHash⟩ _
  dsimp only
  split
  · rfl
  · rename_i db' hinsert
    rw [recordAuthEvent_core, recordUsage_core, insertUser_rows hinsert]

theorem createRow_allOwned (h : db.core.AllOwned) (env : Env) (claims : Claims)
    (tableName : String) (payload : CreateRowRequest)
    (hkeeps : RequestKeepsOwners pf db (.createRow env claims tableName payload)) :
    (createRow pf db env claims tableName payload).1.core.AllOwned := by
  unfold createRow
  refine Outcome.proceed_rule (P := fun s : Db => s.core.AllOwned) h ?_
  rintro ⟨table, workspaceId, normalized⟩ hchecks
  simp only [createRowChecks, requireTable, Outcome.bind_eq_ok, Outcome.require_eq_ok] at hchecks
  obtain ⟨t, hload, _, -, w, -, data, -, heq⟩ := hchecks
  cases heq
  dsimp only
  split
  · exact h
  · rename_i db' hinsert
    obtain ⟨-, -, rows, hins, rfl⟩ := Db.insertDataRow_eq_some.mp hinsert
    have hnew : DataCore.AllOwned { db.core with rows := rows } :=
      h.insertRow (hkeeps table hload) hins
    split
    · simp only [recordAuditLog_core, logRowEvent_core, recordUsage_core]
      exact hnew
    · simp only [recordAuditLog_core, logRowEvent_core, recordUsage_core]
      exact hnew

theorem updateRow_allOwned (h : db.core.AllOwned) (env : Env) (claims : Claims)
    (tableName rowId : String) (payload : CreateRowRequest) :
    (updateRow pf db env claims tableName rowId payload).1.core.AllOwned := by
  unfold updateRow
  refine Outcome.proceed_rule (P := fun s : Db => s.core.AllOwned) h ?_
  rintro ⟨table, existing, normalized⟩ _
  have hnew := h.rewriteRow rowId table.id env.now normalized
  dsimp only
  split
  · simp only [recordAuditLog_core, logRowEvent_core]
    exact hnew
  · simp only [recordAuditLog_core, logRowEvent_core]
    exact hnew

theorem deleteRow_allOwned (h : db.core.AllOwned) (env : Env) (claims : Claims)
    (tableName rowId : String) :
    (deleteRow pf db env claims tableName rowId).1.core.AllOwned := by
  unfold deleteRow
  refine Outcome.proceed_rule (P := fun s : Db => s.core.AllOwned) h ?_
  rintro ⟨table, existing⟩ _
  dsimp only
  simp only [recordAuditLog_core, logRowEvent_core]
  exact h.deleteRows fun r => r.id == rowId && r.tableId == table.id

theorem deleteTable_allOwned (h : db.core.AllOwned) (env : Env) (claims : Claims)
    (tableName : String) : (deleteTable pf db env claims tableName).1.core.AllOwned := by
  unfold deleteTable
  refine Outcome.proceed_rule (P := fun s : Db => s.core.AllOwned) h ?_
  intro existing _
  dsimp only
  rw [recordAuditLog_core]
  exact h.deleteTables fun t => t.id == existing.id

theorem deleteAdminUser_allOwned (h : db.core.AllOwned) (env : Env) (claims : Claims)
    (appId userId : String)
    (hkeeps : RequestKeepsOwners pf db (.deleteAdminUser env claims appId userId)) :
    (deleteAdminUser db env claims appId userId).1.core.AllOwned := by
  unfold deleteAdminUser
  refine Outcome.proceed_rule (P := fun s : Db => s.core.AllOwned) h ?_
  rintro ⟨claims', user⟩ _
  dsimp only
  split
  · exact h
  · exact h
  · rename_i n db' hne hdelete
    rw [recordAuthEvent_core]
    cases n with
    | zero => exact (hne rfl).elim
    | succ n =>
      rw [deleteUser_core hdelete]
      exact h.deleteUser hkeeps

theorem insertStage_allOwned {env : Env} {claims : Claims} {table : LoadedTable}
    {rows : List ImportRowRequest}
    (howners : ∀ row ∈ rows,
      normalizeImportOwnerUserId table.accessPolicy row.ownerUserId ≠ .ok none) :
    ∀ (n : Nat) (db : Db), db.core.AllOwned →
      (insertStage pf env claims table n rows db).1.core.AllOwned := by
  induction rows with
  | nil => intro n db h; exact h
  | cons row rest ih =>
    intro n db h
    rw [insertStage]
    refine Outcome.proceed_rule (P := fun s : Db => s.core.AllOwned) h ?_
    intro planned hplanned
    simp only [planRow, Outcome.bind_eq_ok, badRequest_eq_ok] at hplanned
    obtain ⟨data, -, owner, howner, heq⟩ := hplanned
    cases heq
    split
    · exact h
    · rename_i db' hinsert
      obtain ⟨-, -, rows', hins, rfl⟩ := Db.insertDataRow_eq_some.mp hinsert
      have hsome : owner ≠ none := by
        rintro rfl
        exact howners row (by simp) howner
      apply ih (fun r hr => howners r (List.mem_cons_of_mem _ hr))
      rw [logRowEvent_core]
      exact h.insertRow hsome hins

theorem importRows_allOwned (hwf : WellFormed pf db.core) (h : db.core.AllOwned) (env : Env)
    (claims : Claims) (tableName : String) (payload : TableImportRequest)
    (hkeeps : RequestKeepsOwners pf db (.importRows env claims tableName payload)) :
    (importRows pf db env claims tableName payload).1.core.AllOwned := by
  unfold importRows
  refine Outcome.proceed_rule (P := fun s : Db => s.core.AllOwned) h ?_
  intro plan hchecks
  obtain ⟨hload, -, hspec, -⟩ := importChecks_ok hchecks
  obtain ⟨htable, happ, -⟩ := loadTable_some hload
  dsimp only
  split
  · exact h
  · rename_i hdry
    have hcleared : (restoredDb (clearStage db claims plan) plan).core.AllOwned := by
      intro r hr
      have hr' : r ∈ (clearStage db claims plan).dataRows := by
        unfold restoredDb at hr
        split at hr <;> exact hr
      exact h r ((mem_clearStage hwf htable happ).mp hr').1
    rcases restoreStage_outcome hwf htable happ hspec with ⟨-, e, hout⟩ | ⟨-, hout⟩
    · rw [hout]
      exact h
    · rw [hout]
      have howners := hkeeps plan hchecks (by simpa using hdry)
      exact insertStage_allOwned howners 0 _ hcleared

end Requests

/-- **One request.**  A request that keeps owners leaves every row with an owner. -/
theorem handleDataRequest_allOwned {pf : Platform} {db : Db} (hwf : WellFormed pf db.core)
    (h : db.core.AllOwned) (request : DataRequest) (hkeeps : RequestKeepsOwners pf db request) :
    (handleDataRequest pf db request).core.AllOwned := by
  have hsame : ∀ {c : DataCore}, c.rows = db.core.rows → c.AllOwned := by
    intro c hc r hr
    rw [hc] at hr
    exact h r hr
  cases request with
  | createTable env claims payload => exact hsame (createTable_rows env claims payload)
  | updateTable env claims table payload => exact hsame (updateTable_rows env claims table payload)
  | deleteTable env claims table => exact deleteTable_allOwned h env claims table
  | createRow env claims table payload => exact createRow_allOwned h env claims table payload hkeeps
  | updateRow env claims table rowId payload =>
    exact updateRow_allOwned h env claims table rowId payload
  | deleteRow env claims table rowId => exact deleteRow_allOwned h env claims table rowId
  | importRows env claims table payload =>
    exact importRows_allOwned hwf h env claims table payload hkeeps
  | registerForApp env appId payload => exact hsame (registerForApp_rows env appId payload)
  | createAdminUser env claims appId payload =>
    exact hsame (createAdminUser_rows env claims appId payload)
  | deleteAdminUser env claims appId userId =>
    exact deleteAdminUser_allOwned h env claims appId userId hkeeps

/-- Every request of the run keeps owners in the state it is handled in. -/
def RunKeepsOwners (pf : Platform) (db : Db) (requests : List DataRequest) : Prop :=
  ∀ (before : List DataRequest) (request : DataRequest) (after : List DataRequest),
    requests = before ++ request :: after → RequestKeepsOwners pf (runData pf db before) request

theorem runData_allOwned {pf : Platform} {db : Db} {requests : List DataRequest}
    (h : RunKeepsOwners pf db requests) : (runData pf db requests).core.AllOwned := by
  have hstep : ∀ s request, (WellFormed pf s.core ∧ s.core.AllOwned) →
      RequestKeepsOwners pf s request →
      WellFormed pf (handleDataRequest pf s request).core ∧
        (handleDataRequest pf s request).core.AllOwned := by
    rintro s request ⟨hwf, howned⟩ hkeeps
    exact ⟨hwf.steps (handleDataRequest_steps hwf request),
      handleDataRequest_allOwned hwf howned request hkeeps⟩
  have hstart : WellFormed pf db.withoutData.core ∧ db.withoutData.core.AllOwned :=
    ⟨wellFormed_withoutData pf db, fun r hr => absurd hr (KeyedTable.not_mem_empty r)⟩
  exact (Transition.run_invariant hstep hstart requests h).2

/-- **The owner rule.**  In a state a run has reached, the rule protects exactly
    when no row under it lacks an owner; and it protects throughout a run that
    never stores a row without an owner and never deletes a user who owns one. -/
theorem owner_rule_protects_iff (pf : Platform) (db : Db) (requests : List DataRequest) :
    (OwnerRuleProtects pf (runData pf db requests) ↔ OwnersRecorded (runData pf db requests)) ∧
      (RunKeepsOwners pf db requests →
        ∀ before after, requests = before ++ after →
          OwnerRuleProtects pf (runData pf db before)) := by
  refine ⟨ownerRuleProtects_iff (wellFormed_runData pf db requests), ?_⟩
  rintro hkeeps before after rfl
  rw [ownerRuleProtects_iff (wellFormed_runData pf db before)]
  have hbefore : RunKeepsOwners pf db before := by
    rintro first request last rfl
    exact hkeeps first request (last ++ after) (by simp)
  intro table _ action _ _ row hrow _
  exact runData_allOwned hbefore row hrow

/-! ### A row whose owner has been deleted -/

def aliceUser : User :=
  { id := "alice", appId := "default", email := "alice@example.com", passwordHash := "$alice"
    isActive := true, isAdmin := false, adminRole := .viewer, createdAt := "2026-01-01 00:00:00" }

/-- An app with an administrator and one user. -/
def rootAndAlice : Db := { users := ⟨[rootUser, aliceUser], by decide⟩ }

/-- Everybody may read and create, changing is for the owner. -/
def sharedPolicy : AccessPolicy :=
  { mode := .authenticatedSharedRw
    rules := some { update := some .ruleOwner, delete := some .ruleOwner } }

def createShared : DataRequest :=
  .createTable (sampleEnv "t") root
    { name := "notes", displayName := "Notes", schema := noteSchema, accessPolicy := sharedPolicy }

def alicesRow : TableImportRequest :=
  { rows := [{ id := some "r1", ownerUserId := some "alice", data := note "mine" }] }

/-- A table of that kind with one row of Alice's. -/
def sharedRun : List DataRequest :=
  [createShared, .importRows (sampleEnv "r") root "notes" alicesRow]

def aliceGone : DataRequest := .deleteAdminUser (sampleEnv "d") root "default" "alice"

def sharedTable : LoadedTable :=
  { id := "t0", appId := "default", name := "notes", displayName := "Notes", schema := noteSchema
    accessPolicy := sharedPolicy, createdBy := "root", createdAt := "2026-01-01 00:00:00" }

def orphanedRow : DataRow :=
  { id := "r1", appId := "default", tableId := "t0", ownerUserId := none, data := note "mine"
    createdAt := "2026-01-01 00:00:00", updatedAt := "2026-01-01 00:00:00" }

def carol : Claims := { sub := "carol", appId := "default", exp := 0, isAdmin := false }

/-- Once Alice is deleted, anybody can rewrite her row. -/
theorem orphaned_row_unprotected :
    ¬ OwnerRuleProtects asciiPlatform
      (runData asciiPlatform rootAndAlice (sharedRun ++ [aliceGone])) := by
  intro h
  have hload : loadTable asciiPlatform (runData asciiPlatform rootAndAlice
      (sharedRun ++ [aliceGone])) carol.appId "notes" = some sharedTable := by
    decide +kernel
  have hrow : orphanedRow ∈
      (runData asciiPlatform rootAndAlice (sharedRun ++ [aliceGone])).dataRows := by
    rw [KeyedTable.mem_def]
    decide +kernel
  have howner := h carol "notes" sharedTable orphanedRow .update (sampleEnv "u")
    { data := note "hers" } rfl hload rfl hrow rfl (by decide +kernel)
  cases howner

/-- Does the decided form of the import condition hold? -/
def importKeepsOwners (pf : Platform) (db : Db) (claims : Claims) (tableName : String)
    (payload : TableImportRequest) : Bool :=
  match importChecks pf db claims tableName payload with
  | .ok plan =>
      payload.rows.all fun row => decide
        (normalizeImportOwnerUserId plan.effectiveTable.accessPolicy row.ownerUserId ≠ .ok none)
  | .error _ => true

theorem sharedRun_keepsOwners : RunKeepsOwners asciiPlatform rootAndAlice sharedRun := by
  rintro before request after hsplit
  rcases before with _ | ⟨first, _ | ⟨second, rest⟩⟩
  · cases hsplit
    trivial
  · cases hsplit
    intro plan hchecks _ row hrow
    have hall : importKeepsOwners asciiPlatform
        (runData asciiPlatform rootAndAlice [createShared]) root "notes" alicesRow = true := by
      decide +kernel
    rw [importKeepsOwners, hchecks] at hall
    simpa using List.all_eq_true.mp hall row hrow
  · exact absurd (congrArg List.length hsplit) (by simp [sharedRun])

/-- Before the deletion the run keeps every row with its owner, so the rule protects. -/
theorem shared_row_protected :
    OwnerRuleProtects asciiPlatform (runData asciiPlatform rootAndAlice sharedRun) :=
  (owner_rule_protects_iff asciiPlatform rootAndAlice sharedRun).2 sharedRun_keepsOwners
    sharedRun [] (by simp)

end Peanut
