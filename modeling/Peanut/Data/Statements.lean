import Peanut.Data.ImportExport
import Peanut.Library.Interleaving

/-!
# Row and table requests, one statement at a time

`create_row`, `update_row`, `update_table` and `import_rows` run their SQL
statements one after the other without a transaction.  Here each is a machine
that executes one statement per step; what it has read so far is in its stage,
and what it computes in memory belongs to the statement before.
-/

namespace Peanut

open Relational Interleaving

/-! ### Updating a row -/

inductive UpdateRowStage where
  | received
  | tableLoaded (table : LoadedTable)
  | merged (table : LoadedTable) (existing : DataRow) (normalized : Value)
  | rewritten (table : LoadedTable) (normalized : Value)
  | logged (table : LoadedTable)
  | audited (table : LoadedTable)
  | completed (row : DataRow)
  | refused (error : ApiError)

structure UpdateRowCall where
  claims : Claims
  tableName : String
  rowId : String
  payload : CreateRowRequest
  stage : UpdateRowStage

/-- Read the row, merge the patch into it and normalise the result. -/
def mergeRowChecks (pf : Platform) (db : Db) (claims : Claims) (table : LoadedTable)
    (rowId : String) (payload : CreateRowRequest) : Except ApiError (DataRow × Value) := do
  let existing ← Outcome.require (loadRow db table.id rowId) (jsonError .notFound "row not found")
  Outcome.ensure (canAccessRow claims table.accessPolicy existing.ownerUserId .update)
    (jsonError .forbidden "row access denied")
  let existingValue ← (valueToObject existing.data "failed to decode stored row").mapError
    (jsonError .internalServerError)
  let patch ← badRequest (valueToObject payload.data "data must be a JSON object")
  let normalized ← badRequest
    (normalizeRowData pf table.schema (.object (mergePatch existingValue patch)) false)
  return (existing, normalized)

namespace UpdateRowCall

def step (pf : Platform) (env : Env) (db : Db) (c : UpdateRowCall) : Db × UpdateRowCall :=
  match c.stage with
  | .received =>
      match requireTable pf db c.claims.appId c.tableName with
      | .error e => (db, { c with stage := .refused e })
      | .ok table => (db, { c with stage := .tableLoaded table })
  | .tableLoaded table =>
      match mergeRowChecks pf db c.claims table c.rowId c.payload with
      | .error e => (db, { c with stage := .refused e })
      | .ok (existing, normalized) => (db, { c with stage := .merged table existing normalized })
  | .merged table _ normalized =>
      (db.rewriteRow c.rowId table.id normalized env.now,
        { c with stage := .rewritten table normalized })
  | .rewritten table normalized =>
      (db.logRowEvent env c.claims.appId table.id c.rowId c.claims.sub "update" (some normalized),
        { c with stage := .logged table })
  | .logged table =>
      (db.recordAuditLog env (env.uuid 0) (some c.claims.appId) c.claims "data.row.updated"
          "data_row" c.rowId (.object [("table", .string table.name)]),
        { c with stage := .audited table })
  | .audited table =>
      match loadRow db table.id c.rowId with
      | some row => (db, { c with stage := .completed row })
      | none =>
          (db, { c with stage := .refused (jsonError .internalServerError
            "updated row could not be reloaded") })
  | .completed _ => (db, c)
  | .refused _ => (db, c)

def reply (c : UpdateRowCall) : Option (Except ApiError (Reply DataRowResponse)) :=
  match c.stage with
  | .completed row => some (.ok { status := .ok, body := .ofRecord row })
  | .refused e => some (.error e)
  | _ => none

end UpdateRowCall

/-- The checks of `update_row` in two statements. -/
theorem updateRowChecks_eq (pf : Platform) (db : Db) (claims : Claims) (tableName rowId : String)
    (payload : CreateRowRequest) :
    updateRowChecks pf db claims tableName rowId payload = (do
      let table ← requireTable pf db claims.appId tableName
      let (existing, normalized) ← mergeRowChecks pf db claims table rowId payload
      return (table, existing, normalized)) := by
  unfold updateRowChecks requireRow mergeRowChecks
  simp only [bind_assoc, pure_bind]

/-- On its own, the machine computes `updateRow`. -/
theorem updateRow_alone (pf : Platform) (env : Env) (db : Db) (claims : Claims)
    (tableName rowId : String) (payload : CreateRowRequest) :
    (alone (UpdateRowCall.step pf) env 6 db ⟨claims, tableName, rowId, payload, .received⟩).1 =
        (updateRow pf db env claims tableName rowId payload).1 ∧
      (alone (UpdateRowCall.step pf) env 6 db
          ⟨claims, tableName, rowId, payload, .received⟩).2.reply =
        some (updateRow pf db env claims tableName rowId payload).2 := by
  unfold updateRow
  rw [updateRowChecks_eq]
  cases htable : requireTable pf db claims.appId tableName with
  | error e =>
    simp [alone, UpdateRowCall.step, UpdateRowCall.reply, htable]
  | ok table =>
    cases hmerge : mergeRowChecks pf db claims table rowId payload with
    | error e =>
      simp [alone, UpdateRowCall.step, UpdateRowCall.reply, htable, hmerge]
    | ok merged =>
      obtain ⟨existing, normalized⟩ := merged
      simp only [alone, UpdateRowCall.step, htable, hmerge, Outcome.ok_bind, pure, Except.pure,
        Outcome.proceed_ok]
      cases loadRow (((db.rewriteRow rowId table.id normalized env.now).logRowEvent env claims.appId
          table.id rowId claims.sub "update" (some normalized)).recordAuditLog env (env.uuid 0)
          (some claims.appId) claims "data.row.updated" "data_row" rowId
          (.object [("table", .string table.name)])) table.id rowId with
      | none => exact ⟨rfl, rfl⟩
      | some row => exact ⟨rfl, rfl⟩

/-! ### Creating a row -/

inductive CreateRowStage where
  | received
  | tableLoaded (table : LoadedTable)
  | workspaceFound (table : LoadedTable) (workspaceId : String)
  | counted (table : LoadedTable) (workspaceId : String) (used : Int)
  | checked (table : LoadedTable) (workspaceId : String) (normalized : Value)
  | inserted (table : LoadedTable) (workspaceId : String) (row : DataRow)
  | usageRecorded (table : LoadedTable) (row : DataRow)
  | logged (table : LoadedTable) (row : DataRow)
  | audited (table : LoadedTable) (row : DataRow)
  | completed (row : DataRow)
  | refused (error : ApiError)

structure CreateRowCall where
  claims : Claims
  tableName : String
  payload : CreateRowRequest
  stage : CreateRowStage

def writableTable (pf : Platform) (db : Db) (claims : Claims) (tableName : String) :
    Except ApiError LoadedTable := do
  let table ← requireTable pf db claims.appId tableName
  Outcome.ensure (canWriteTable claims table.accessPolicy)
    (jsonError .forbidden "write access denied")
  return table

/-- The limit is read, and the data is normalised. -/
def createRowData (pf : Platform) (db : Db) (env : Env) (table : LoadedTable)
    (workspaceId : String) (used : Int) (payload : CreateRowRequest) : Except ApiError Value := do
  requireWithinLimit db env workspaceId .dataRows used 1
  badRequest (normalizeRowData pf table.schema payload.data false)

namespace CreateRowCall

def step (pf : Platform) (env : Env) (db : Db) (c : CreateRowCall) : Db × CreateRowCall :=
  match c.stage with
  | .received =>
      match writableTable pf db c.claims c.tableName with
      | .error e => (db, { c with stage := .refused e })
      | .ok table => (db, { c with stage := .tableLoaded table })
  | .tableLoaded table =>
      match appWorkspaceId db c.claims.appId with
      | none => (db, { c with stage := .refused (jsonError .notFound "app not found") })
      | some workspaceId => (db, { c with stage := .workspaceFound table workspaceId })
  | .workspaceFound table workspaceId =>
      let used := usedResource db env workspaceId .dataRows
      (db, { c with stage := .counted table workspaceId used })
  | .counted table workspaceId used =>
      match createRowData pf db env table workspaceId used c.payload with
      | .error e => (db, { c with stage := .refused e })
      | .ok normalized => (db, { c with stage := .checked table workspaceId normalized })
  | .checked table workspaceId normalized =>
      let row := newRow env c.claims table (env.uuid 0)
        (ownerUserIdForNewRow c.claims table.accessPolicy) normalized
      match db.insertDataRow row with
      | none =>
          (db, { c with stage := .refused (jsonError .internalServerError
            "failed to create row") })
      | some db => (db, { c with stage := .inserted table workspaceId row })
  | .inserted table workspaceId row =>
      (recordUsage db env workspaceId .dataRows 1, { c with stage := .usageRecorded table row })
  | .usageRecorded table row =>
      (db.logRowEvent env c.claims.appId table.id row.id c.claims.sub "insert" (some row.data),
        { c with stage := .logged table row })
  | .logged table row =>
      (db.recordAuditLog env (env.uuid 1) (some c.claims.appId) c.claims "data.row.created"
          "data_row" row.id (.object [("table", .string table.name)]),
        { c with stage := .audited table row })
  | .audited table row =>
      match loadRow db table.id row.id with
      | some row => (db, { c with stage := .completed row })
      | none =>
          (db, { c with stage := .refused (jsonError .internalServerError
            "created row could not be reloaded") })
  | .completed _ => (db, c)
  | .refused _ => (db, c)

def reply (c : CreateRowCall) : Option (Except ApiError (Reply DataRowResponse)) :=
  match c.stage with
  | .completed row => some (.ok { status := .created, body := .ofRecord row })
  | .refused e => some (.error e)
  | _ => none

end CreateRowCall

/-- The checks of `create_row`, statement by statement. -/
theorem createRowChecks_eq (pf : Platform) (db : Db) (env : Env) (claims : Claims)
    (tableName : String) (payload : CreateRowRequest) :
    createRowChecks pf db env claims tableName payload = (do
      let table ← writableTable pf db claims tableName
      let workspaceId ← Outcome.require (appWorkspaceId db claims.appId)
        (jsonError .notFound "app not found")
      let normalized ← createRowData pf db env table workspaceId
        (usedResource db env workspaceId .dataRows) payload
      return (table, workspaceId, normalized)) := by
  unfold createRowChecks writableTable createRowData requireAppResourceAvailable
  simp only [bind_assoc, pure_bind, requireWithinLimit_usedResource]

/-- On its own, the machine computes `createRow`. -/
theorem createRow_alone (pf : Platform) (env : Env) (db : Db) (claims : Claims)
    (tableName : String) (payload : CreateRowRequest) :
    (alone (CreateRowCall.step pf) env 9 db ⟨claims, tableName, payload, .received⟩).1 =
        (createRow pf db env claims tableName payload).1 ∧
      (alone (CreateRowCall.step pf) env 9 db ⟨claims, tableName, payload, .received⟩).2.reply =
        some (createRow pf db env claims tableName payload).2 := by
  unfold createRow
  rw [createRowChecks_eq]
  cases htable : writableTable pf db claims tableName with
  | error e => simp [alone, CreateRowCall.step, CreateRowCall.reply, htable]
  | ok table =>
    cases hws : appWorkspaceId db claims.appId with
    | none => simp [alone, CreateRowCall.step, CreateRowCall.reply, htable, hws]
    | some workspaceId =>
      cases hdata : createRowData pf db env table workspaceId
          (usedResource db env workspaceId .dataRows) payload with
      | error e => simp [alone, CreateRowCall.step, CreateRowCall.reply, htable, hws, hdata]
      | ok normalized =>
        simp only [Outcome.ok_bind, Outcome.require_some, hdata, pure, Except.pure,
          Outcome.proceed_ok]
        cases hinsert : db.insertDataRow (newRow env claims table (env.uuid 0)
            (ownerUserIdForNewRow claims table.accessPolicy) normalized) with
        | none =>
          simp [alone, CreateRowCall.step, CreateRowCall.reply, htable, hws, hdata, hinsert]
        | some db' =>
          simp only [alone, CreateRowCall.step, htable, hws, hdata, hinsert, newRow_id,
            newRow_data]
          cases loadRow (((recordUsage db' env workspaceId .dataRows 1).logRowEvent env claims.appId
              table.id (env.uuid 0) claims.sub "insert" (some normalized)).recordAuditLog env
              (env.uuid 1) (some claims.appId) claims "data.row.created" "data_row" (env.uuid 0)
              (.object [("table", .string table.name)])) table.id (env.uuid 0) with
          | none => exact ⟨rfl, rfl⟩
          | some row => exact ⟨rfl, rfl⟩

/-! ### Redefining a table -/

inductive UpdateTableStage where
  | received
  | tableLoaded (existing updated : LoadedTable)
  | counted (existing updated : LoadedTable)
  | validated (existing updated : LoadedTable)
  | rewritten (existing : LoadedTable)
  | reloaded (table : LoadedTable)
  | completed (table : LoadedTable)
  | refused (error : ApiError)

structure UpdateTableCall where
  claims : Claims
  tableName : String
  payload : UpdateTableRequest
  stage : UpdateTableStage

/-- The table and the definition it is to get. -/
def redefinition (pf : Platform) (db : Db) (claims : Claims) (tableName : String)
    (payload : UpdateTableRequest) : Except ApiError (LoadedTable × LoadedTable) := do
  requireAdmin claims
  let existing ← requireTable pf db claims.appId tableName
  let displayName := trim (payload.displayName.getD existing.displayName)
  Outcome.ensure (displayName != "") (jsonError .badRequest "display_name is required")
  let schema := payload.schema.getD existing.schema
  badRequest (validateSchema pf schema)
  let accessPolicy := payload.accessPolicy.getD existing.accessPolicy
  badRequest (validateAccessPolicy accessPolicy)
  return (existing, existing.redefine displayName schema accessPolicy)

namespace UpdateTableCall

def step (pf : Platform) (env : Env) (db : Db) (c : UpdateTableCall) : Db × UpdateTableCall :=
  match c.stage with
  | .received =>
      match redefinition pf db c.claims c.tableName c.payload with
      | .error e => (db, { c with stage := .refused e })
      | .ok (existing, updated) => (db, { c with stage := .tableLoaded existing updated })
  | .tableLoaded existing updated =>
      match badRequest (validateSchemaEvolution existing.schema updated.schema
          (countTableRows db existing.id)) with
      | .error e => (db, { c with stage := .refused e })
      | .ok () => (db, { c with stage := .counted existing updated })
  | .counted existing updated =>
      match badRequest (validateRowsAgainstSchema pf db existing.id updated.schema) with
      | .error e => (db, { c with stage := .refused e })
      | .ok () => (db, { c with stage := .validated existing updated })
  | .validated existing updated =>
      (db.redefineTable existing.id updated.displayName updated.schema updated.accessPolicy,
        { c with stage := .rewritten existing })
  | .rewritten existing =>
      match loadTable pf db c.claims.appId existing.name with
      | none =>
          (db, { c with stage := .refused (jsonError .internalServerError
            "updated table could not be reloaded") })
      | some table => (db, { c with stage := .reloaded table })
  | .reloaded table =>
      (db.recordAuditLog env (env.uuid 0) (some c.claims.appId) c.claims "data.table.updated"
          "data_table" table.name (.object [("display_name", .string table.displayName)]),
        { c with stage := .completed table })
  | .completed _ => (db, c)
  | .refused _ => (db, c)

def reply (c : UpdateTableCall) : Option (Except ApiError (Reply DataTableDetail)) :=
  match c.stage with
  | .completed table => some (.ok { status := .ok, body := table.detail })
  | .refused e => some (.error e)
  | _ => none

end UpdateTableCall

theorem updateTableChecks_eq (pf : Platform) (db : Db) (claims : Claims) (tableName : String)
    (payload : UpdateTableRequest) :
    updateTableChecks pf db claims tableName payload = (do
      let (existing, updated) ← redefinition pf db claims tableName payload
      badRequest (validateSchemaEvolution existing.schema updated.schema
        (countTableRows db existing.id))
      badRequest (validateRowsAgainstSchema pf db existing.id updated.schema)
      return (existing, updated)) := by
  unfold updateTableChecks redefinition
  simp only [bind_assoc, pure_bind, LoadedTable.redefine]

/-- On its own, the machine computes `updateTable`. -/
theorem updateTable_alone (pf : Platform) (env : Env) (db : Db) (claims : Claims)
    (tableName : String) (payload : UpdateTableRequest) :
    (alone (UpdateTableCall.step pf) env 6 db ⟨claims, tableName, payload, .received⟩).1 =
        (updateTable pf db env claims tableName payload).1 ∧
      (alone (UpdateTableCall.step pf) env 6 db ⟨claims, tableName, payload, .received⟩).2.reply =
        some (updateTable pf db env claims tableName payload).2 := by
  unfold updateTable
  rw [updateTableChecks_eq]
  cases hredefine : redefinition pf db claims tableName payload with
  | error e => simp [alone, UpdateTableCall.step, UpdateTableCall.reply, hredefine]
  | ok tables =>
    obtain ⟨existing, updated⟩ := tables
    simp only [Outcome.ok_bind]
    cases hcount : badRequest (validateSchemaEvolution existing.schema updated.schema
        (countTableRows db existing.id)) with
    | error e => simp [alone, UpdateTableCall.step, UpdateTableCall.reply, hredefine, hcount]
    | ok u =>
      cases hrows : badRequest (validateRowsAgainstSchema pf db existing.id updated.schema) with
      | error e =>
        simp [alone, UpdateTableCall.step, UpdateTableCall.reply, hredefine, hcount, hrows]
      | ok u =>
        simp only [Outcome.ok_bind, pure, Except.pure, Outcome.proceed_ok]
        cases hload : loadTable pf (db.redefineTable existing.id updated.displayName updated.schema
            updated.accessPolicy) claims.appId existing.name with
        | none =>
          simp [alone, UpdateTableCall.step, UpdateTableCall.reply, hredefine, hcount, hrows, hload]
        | some table =>
          simp [alone, UpdateTableCall.step, UpdateTableCall.reply, hredefine, hcount, hrows, hload]

/-! ### Importing rows -/

inductive ImportRowsStage where
  | received
  | tableLoaded (table : LoadedTable)
  | planned (plan : ImportPlan)
  | cleared (plan : ImportPlan)
  | restoreCounted (plan : ImportPlan) (spec : DataTableRestoreSpec)
  | restoreValidated (plan : ImportPlan) (spec : DataTableRestoreSpec)
  | restored (plan : ImportPlan)
  | inserting (plan : ImportPlan) (table : LoadedTable) (n : Nat) (rest : List ImportRowRequest)
  | rowInserted (plan : ImportPlan) (table : LoadedTable) (n : Nat) (row : DataRow)
      (rest : List ImportRowRequest)
  | completed (reply : Reply TableImportResponse)
  | refused (error : ApiError)

structure ImportRowsCall where
  claims : Claims
  tableName : String
  payload : TableImportRequest
  stage : ImportRowsStage

/-- Everything up to the first `COUNT`. -/
def importTable (pf : Platform) (db : Db) (claims : Claims) (tableName : String)
    (payload : TableImportRequest) : Except ApiError LoadedTable := do
  requireAdmin claims
  let table ← requireTable pf db claims.appId tableName
  let mode := payload.mode.getD "append"
  Outcome.ensure (mode == "append" || mode == "replace")
    (jsonError .badRequest "mode must be append or replace")
  verifyImportChecksum pf table payload
  return table

/-- The `COUNT` and the checks that follow it. -/
def importPlan (pf : Platform) (db : Db) (table : LoadedTable) (payload : TableImportRequest) :
    Except ApiError ImportPlan := do
  let existingRowCount := countTableRows db table.id
  let replace := payload.mode.getD "append" == "replace"
  let restore ← restoreRequest pf table payload (if replace then 0 else existingRowCount)
  let plan : ImportPlan :=
    { table := table, replace := replace, dryRun := payload.dryRun.getD false, restore := restore,
      existingRowCount := existingRowCount
      schemaChanges :=
        (restore.map fun spec => schemaDiffPreview table.schema spec.schema).getD {} }
  Outcome.checkAll (checkImportRow pf plan.effectiveTable) payload.rows
  return plan

def ImportPlan.wouldReplace (plan : ImportPlan) : Nat :=
  if plan.replace then plan.existingRowCount.toNat else 0

def ImportPlan.dryRunReply (plan : ImportPlan) (rows : Nat) : Reply TableImportResponse :=
  { status := .ok
    body := { importedCount := 0, dryRun := true, wouldInsert := rows,
              wouldReplace := plan.wouldReplace, schemaChanges := plan.schemaChanges,
              validationErrors := [] } }

def ImportPlan.importReply (plan : ImportPlan) (importedCount : Nat) : Reply TableImportResponse :=
  { status := .created
    body := { importedCount := importedCount, dryRun := false, wouldInsert := importedCount,
              wouldReplace := plan.wouldReplace, schemaChanges := plan.schemaChanges,
              validationErrors := [] } }

namespace ImportRowsCall

def step (pf : Platform) (env : Env) (db : Db) (c : ImportRowsCall) : Db × ImportRowsCall :=
  match c.stage with
  | .received =>
      match importTable pf db c.claims c.tableName c.payload with
      | .error e => (db, { c with stage := .refused e })
      | .ok table => (db, { c with stage := .tableLoaded table })
  | .tableLoaded table =>
      match importPlan pf db table c.payload with
      | .error e => (db, { c with stage := .refused e })
      | .ok plan =>
          if plan.dryRun then
            (db, { c with stage := .completed (plan.dryRunReply c.payload.rows.length) })
          else (db, { c with stage := .planned plan })
  | .planned plan => (clearStage db c.claims plan, { c with stage := .cleared plan })
  | .cleared plan =>
      match plan.restore with
      | none => (db, { c with stage := .inserting plan plan.table 0 c.payload.rows })
      | some spec =>
          match badRequest (validateRestoreTableSpec pf plan.table spec
              (countTableRows db plan.table.id)) with
          | .error e => (db, { c with stage := .refused e })
          | .ok () => (db, { c with stage := .restoreCounted plan spec })
  | .restoreCounted plan spec =>
      match badRequest (validateRowsAgainstSchema pf db plan.table.id spec.schema) with
      | .error e => (db, { c with stage := .refused e })
      | .ok () => (db, { c with stage := .restoreValidated plan spec })
  | .restoreValidated plan spec =>
      (db.redefineTable plan.table.id (trim spec.displayName) spec.schema spec.accessPolicy,
        { c with stage := .restored plan })
  | .restored plan =>
      match loadTable pf db c.claims.appId plan.table.name with
      | none =>
          (db, { c with stage := .refused (jsonError .internalServerError
            "restored table could not be reloaded") })
      | some table => (db, { c with stage := .inserting plan table 0 c.payload.rows })
  | .inserting plan _ n [] => (db, { c with stage := .completed (plan.importReply n) })
  | .inserting plan table n (row :: rest) =>
      match planRow pf env c.claims table n row with
      | .error e => (db, { c with stage := .refused e })
      | .ok planned =>
          match db.insertDataRow planned with
          | none =>
              (db, { c with stage := .refused (jsonError .conflict
                "import row id already exists") })
          | some db => (db, { c with stage := .rowInserted plan table n planned rest })
  | .rowInserted plan table n row rest =>
      (db.logRowEvent env c.claims.appId table.id row.id c.claims.sub "insert" (some row.data),
        { c with stage := .inserting plan table (n + 1) rest })
  | .completed _ => (db, c)
  | .refused _ => (db, c)

def reply (c : ImportRowsCall) : Option (Except ApiError (Reply TableImportResponse)) :=
  match c.stage with
  | .completed reply => some (.ok reply)
  | .refused e => some (.error e)
  | _ => none

end ImportRowsCall

theorem importChecks_eq (pf : Platform) (db : Db) (claims : Claims) (tableName : String)
    (payload : TableImportRequest) :
    importChecks pf db claims tableName payload = (do
      let table ← importTable pf db claims tableName payload
      importPlan pf db table payload) := by
  unfold importChecks importTable importPlan
  simp only [bind_assoc, pure_bind]
  refine bind_congr fun _ => bind_congr fun table => bind_congr fun _ => bind_congr fun _ =>
    bind_congr fun restore => ?_
  cases restore with
  | none => rfl
  | some spec => rfl

/-- The machine has answered as the function does, and left the same database. -/
def ImportRowsCall.Answers (pf : Platform) (env : Env) (db : Db) (c : ImportRowsCall)
    (outcome : Db × Except ApiError (Reply TableImportResponse)) : Prop :=
  ∃ n, (alone (ImportRowsCall.step pf) env n db c).1 = outcome.1 ∧
    (alone (ImportRowsCall.step pf) env n db c).2.reply = some outcome.2

theorem ImportRowsCall.Answers.of_step {pf : Platform} {env : Env} {db : Db} {c : ImportRowsCall}
    {outcome : Db × Except ApiError (Reply TableImportResponse)}
    (h : (c.step pf env db).2.Answers pf env (c.step pf env db).1 outcome) :
    c.Answers pf env db outcome := by
  obtain ⟨n, hn⟩ := h
  exact ⟨n + 1, hn⟩

theorem insertStage_alone (pf : Platform) (env : Env) (claims : Claims) (tableName : String)
    (payload : TableImportRequest) (plan : ImportPlan) (table : LoadedTable)
    (rows : List ImportRowRequest) (n : Nat) (db : Db) :
    ImportRowsCall.Answers pf env db ⟨claims, tableName, payload, .inserting plan table n rows⟩
      ((insertStage pf env claims table n rows db).1,
        (insertStage pf env claims table n rows db).2.map plan.importReply) := by
  induction rows generalizing n db with
  | nil => exact ⟨1, rfl, rfl⟩
  | cons row rest ih =>
    apply ImportRowsCall.Answers.of_step
    rw [insertStage]
    simp only [ImportRowsCall.step]
    cases hplan : planRow pf env claims table n row with
    | error e => exact ⟨0, rfl, rfl⟩
    | ok planned =>
      simp only [Outcome.proceed_ok]
      cases hinsert : db.insertDataRow planned with
      | none => exact ⟨0, rfl, rfl⟩
      | some db' =>
        apply ImportRowsCall.Answers.of_step
        exact ih (n + 1) _

/-- On its own, the machine computes `importRows`. -/
theorem importRows_alone (pf : Platform) (env : Env) (db : Db) (claims : Claims)
    (tableName : String) (payload : TableImportRequest) :
    ImportRowsCall.Answers pf env db ⟨claims, tableName, payload, .received⟩
      (importRows pf db env claims tableName payload) := by
  unfold importRows
  rw [importChecks_eq]
  apply ImportRowsCall.Answers.of_step
  simp only [ImportRowsCall.step]
  cases htable : importTable pf db claims tableName payload with
  | error e => exact ⟨0, rfl, rfl⟩
  | ok table =>
    apply ImportRowsCall.Answers.of_step
    simp only [ImportRowsCall.step, Outcome.ok_bind]
    cases hplan : importPlan pf db table payload with
    | error e => exact ⟨0, rfl, rfl⟩
    | ok plan =>
      simp only [Outcome.proceed_ok]
      split
      · exact ⟨0, rfl, rfl⟩
      · apply ImportRowsCall.Answers.of_step
        apply ImportRowsCall.Answers.of_step
        simp only [ImportRowsCall.step, restoreStage]
        cases hrestore : plan.restore with
        | none => exact insertStage_alone pf env claims tableName payload plan plan.table _ 0 _
        | some spec =>
          simp only [restoreTableDefinition]
          cases hspec : badRequest (validateRestoreTableSpec pf plan.table spec
              (countTableRows (clearStage db claims plan) plan.table.id)) with
          | error e => exact ⟨0, rfl, rfl⟩
          | ok u =>
            apply ImportRowsCall.Answers.of_step
            simp only [ImportRowsCall.step, Outcome.ok_bind]
            cases hrows : badRequest (validateRowsAgainstSchema pf (clearStage db claims plan)
                plan.table.id spec.schema) with
            | error e => exact ⟨0, rfl, rfl⟩
            | ok u =>
              apply ImportRowsCall.Answers.of_step
              apply ImportRowsCall.Answers.of_step
              simp only [ImportRowsCall.step, Outcome.proceed_ok]
              cases hload : loadTable pf ((clearStage db claims plan).redefineTable plan.table.id
                  (trim spec.displayName) spec.schema spec.accessPolicy) claims.appId
                  plan.table.name with
              | none => exact ⟨0, rfl, rfl⟩
              | some restored =>
                exact insertStage_alone pf env claims tableName payload plan restored _ 0 _

end Peanut
