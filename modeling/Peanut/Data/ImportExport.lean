import Peanut.Data.Rows

/-!
# Export and import

`api/data/import_export.rs`.  An import runs through four stages: checks that
only read; in `replace` mode the old rows are deleted; with `restore_table` the
table definition is rewritten; and the rows are inserted one at a time.  Every
stage after the first is a statement of its own, with no transaction around
them.
-/

namespace Peanut

open Relational

def TABLE_EXPORT_VERSION : String := "peanut.table-export.v1"

def buildTableExportChecksum (pf : Platform) (table : DataTableDetail)
    (rows : List DataRowResponse) : String :=
  pf.exportChecksum (.object [("export_version", .string TABLE_EXPORT_VERSION),
    ("rows", .array (rows.map DataRowResponse.toValue)), ("table", table.toValue)])

def buildImportChecksum (pf : Platform) (table : DataTableDetail) (rows : List ImportRowRequest) :
    Except String String := do
  let exportRows ← rows.mapM fun row => do
    let id ← Outcome.require row.id "checksum verification requires row ids"
    let createdAt ← Outcome.require row.createdAt
      "checksum verification requires row created_at values"
    let updatedAt ← Outcome.require row.updatedAt
      "checksum verification requires row updated_at values"
    return ({ id := id, ownerUserId := row.ownerUserId, data := row.data, createdAt := createdAt,
              updatedAt := updatedAt } : DataRowResponse)
  return buildTableExportChecksum pf table exportRows

def resolveImportChecksumTableDetail (current : LoadedTable) (payload : TableImportRequest) :
    Except String DataTableDetail :=
  match payload.table with
  | some table => do
      let createdBy ← Outcome.require table.createdBy
        "checksum verification requires table.created_by"
      let createdAt ← Outcome.require table.createdAt
        "checksum verification requires table.created_at"
      return { name := table.name, displayName := table.displayName, schema := table.schema,
               accessPolicy := table.accessPolicy, createdBy := createdBy, createdAt := createdAt }
  | none => .ok current.detail

/-- The checksum stage, entered only when `verify_checksum` is set. -/
def verifyImportChecksum (pf : Platform) (table : LoadedTable) (payload : TableImportRequest) :
    Except ApiError Unit :=
  if !payload.verifyChecksum.getD false then .ok () else do
    let metadata ← Outcome.require payload.metadata
      (jsonError .badRequest "metadata is required when verify_checksum is true")
    Outcome.ensure (metadata.exportVersion == TABLE_EXPORT_VERSION)
      (jsonError .badRequest "unsupported import export_version")
    Outcome.ensure (metadata.rowCount == payload.rows.length)
      (jsonError .badRequest "import row count does not match metadata")
    let checksumTable ← badRequest (resolveImportChecksumTableDetail table payload)
    let checksum ← badRequest (buildImportChecksum pf checksumTable payload.rows)
    Outcome.ensure (checksum == metadata.checksumSha256)
      (jsonError .badRequest "import checksum verification failed")

/-! ### Restoring a definition -/

def validateRestoreTableSpec (pf : Platform) (existing : LoadedTable)
    (spec : DataTableRestoreSpec) (rowCount : Int) : Except String Unit := do
  Outcome.ensure (pf.toLowercase (trim spec.name) == existing.name)
    "restore table name must match the target table path"
  Outcome.ensure (!isBlank spec.displayName) "display_name is required"
  validateSchema pf spec.schema
  validateAccessPolicy spec.accessPolicy
  validateSchemaEvolution existing.schema spec.schema rowCount

/-- The definition a restore leaves behind. -/
def LoadedTable.restored (t : LoadedTable) (spec : DataTableRestoreSpec) : LoadedTable :=
  t.redefine (trim spec.displayName) spec.schema spec.accessPolicy

def restoreTableDefinition (pf : Platform) (db : Db) (appId : String) (existing : LoadedTable)
    (spec : DataTableRestoreSpec) : Db × Except ApiError LoadedTable :=
  Outcome.proceed db
    (do
      badRequest (validateRestoreTableSpec pf existing spec (countTableRows db existing.id))
      badRequest (validateRowsAgainstSchema pf db existing.id spec.schema))
    fun _ =>
      let db := db.redefineTable existing.id (trim spec.displayName) spec.schema spec.accessPolicy
      (db, Outcome.require (loadTable pf db appId existing.name)
        (jsonError .internalServerError "restored table could not be reloaded"))

/-! ### The stages of an import -/

/-- The stored form of the `n`-th row of a payload. -/
def planRow (pf : Platform) (env : Env) (claims : Claims) (table : LoadedTable) (n : Nat)
    (row : ImportRowRequest) : Except ApiError DataRow := do
  let normalized ← badRequest (normalizeRowData pf table.schema row.data false)
  let owner ← badRequest (normalizeImportOwnerUserId table.accessPolicy row.ownerUserId)
  return newRow env claims table (row.id.getD (env.uuid n)) owner normalized

/-- The result of the checks: what the import is about to do. -/
structure ImportPlan where
  table : LoadedTable
  replace : Bool
  dryRun : Bool
  restore : Option DataTableRestoreSpec
  existingRowCount : Int
  schemaChanges : SchemaDiffPreview

/-- The definition the payload rows are checked against. -/
def ImportPlan.effectiveTable (plan : ImportPlan) : LoadedTable :=
  match plan.restore with
  | some spec => plan.table.restored spec
  | none => plan.table

/-- Which rows a `replace` clears. -/
def importClears (claims : Claims) (table : LoadedTable) (row : DataRow) : Bool :=
  row.appId == claims.appId && row.tableId == table.id

/-- The restore an import asks for, checked against the stored table. -/
def restoreRequest (pf : Platform) (table : LoadedTable) (payload : TableImportRequest)
    (rowCount : Int) : Except ApiError (Option DataTableRestoreSpec) :=
  if payload.restoreTable.getD false then do
    let spec ← Outcome.require payload.table
      (jsonError .badRequest "table is required when restore_table is true")
    badRequest (validateRestoreTableSpec pf table spec rowCount)
    return some spec
  else .ok none

variable {pf : Platform} {table : LoadedTable} {rowCount : Int}
variable {spec : DataTableRestoreSpec}

theorem restoreRequest_ok {payload : TableImportRequest}
    (h : restoreRequest pf table payload rowCount = .ok (some spec)) :
    validateRestoreTableSpec pf table spec rowCount = .ok () := by
  unfold restoreRequest at h
  split at h
  · simp only [Outcome.bind_eq_ok, badRequest_eq_ok] at h
    obtain ⟨s, -, _, hspec, heq⟩ := h
    cases heq
    exact hspec
  · cases h

/-- One round of the validation loop: the data and the owner of a payload row. -/
def checkImportRow (pf : Platform) (table : LoadedTable) (row : ImportRowRequest) :
    Except ApiError Unit := do
  let _ ← badRequest (normalizeRowData pf table.schema row.data false)
  let _ ← badRequest (normalizeImportOwnerUserId table.accessPolicy row.ownerUserId)

def importChecks (pf : Platform) (db : Db) (claims : Claims) (tableName : String)
    (payload : TableImportRequest) : Except ApiError ImportPlan := do
  requireAdmin claims
  let table ← requireTable pf db claims.appId tableName
  let mode := payload.mode.getD "append"
  Outcome.ensure (mode == "append" || mode == "replace")
    (jsonError .badRequest "mode must be append or replace")
  verifyImportChecksum pf table payload
  let existingRowCount := countTableRows db table.id
  let replace := mode == "replace"
  let restore ← restoreRequest pf table payload (if replace then 0 else existingRowCount)
  let plan : ImportPlan :=
    { table := table, replace := replace, dryRun := payload.dryRun.getD false, restore := restore,
      existingRowCount := existingRowCount
      schemaChanges := match restore with
        | some spec => schemaDiffPreview table.schema spec.schema
        | none => {} }
  Outcome.checkAll (checkImportRow pf plan.effectiveTable) payload.rows
  return plan

/-- Stage two: `DELETE FROM data_rows WHERE app_id = ? AND table_id = ?`. -/
def clearStage (db : Db) (claims : Claims) (plan : ImportPlan) : Db :=
  if plan.replace then db.deleteRows (importClears claims plan.table) else db

/-- Stage three: rewrite the definition and reload it. -/
def restoreStage (pf : Platform) (db : Db) (claims : Claims) (plan : ImportPlan) :
    Db × Except ApiError LoadedTable :=
  match plan.restore with
  | some spec => restoreTableDefinition pf db claims.appId plan.table spec
  | none => (db, .ok plan.table)

/-- Stage four: one statement a row, stopping at the first that fails. -/
def insertStage (pf : Platform) (env : Env) (claims : Claims) (table : LoadedTable) :
    Nat → List ImportRowRequest → Db → Db × Except ApiError Nat
  | n, [], db => (db, .ok n)
  | n, row :: rest, db =>
      Outcome.proceed db (planRow pf env claims table n row) fun planned =>
        match db.insertDataRow planned with
        | none => (db, .error (jsonError .conflict "import row id already exists"))
        | some db =>
            insertStage pf env claims table (n + 1) rest
              (db.logRowEvent env claims.appId table.id planned.id claims.sub "insert"
                (some planned.data))

def importRows (pf : Platform) (db : Db) (env : Env) (claims : Claims) (tableName : String)
    (payload : TableImportRequest) : Db × Except ApiError (Reply TableImportResponse) :=
  Outcome.proceed db (importChecks pf db claims tableName payload) fun plan =>
    let wouldReplace := if plan.replace then plan.existingRowCount.toNat else 0
    if plan.dryRun then
      (db, .ok { status := .ok
                 body := { importedCount := 0, dryRun := true, wouldInsert := payload.rows.length,
                           wouldReplace := wouldReplace, schemaChanges := plan.schemaChanges,
                           validationErrors := [] } })
    else
      let (db, restored) := restoreStage pf (clearStage db claims plan) claims plan
      Outcome.proceed db restored fun table =>
        let (db, imported) := insertStage pf env claims table 0 payload.rows db
        (db, imported.map fun importedCount =>
          { status := .created
            body := { importedCount := importedCount, dryRun := false, wouldInsert := importedCount,
                      wouldReplace := wouldReplace, schemaChanges := plan.schemaChanges,
                      validationErrors := [] } })

/-! ### The checks -/

variable {claims : Claims}

theorem importChecks_ok {db : Db} {tableName : String}
    {payload : TableImportRequest} {plan : ImportPlan}
    (h : importChecks pf db claims tableName payload = .ok plan) :
    loadTable pf db claims.appId tableName = some plan.table ∧
      plan.replace = (payload.mode.getD "append" == "replace") ∧
      (∀ spec, plan.restore = some spec →
        validateRestoreTableSpec pf plan.table spec
          (if plan.replace then 0 else countTableRows db plan.table.id) = .ok ()) ∧
      ∀ row ∈ payload.rows, checkImportRow pf plan.effectiveTable row = .ok () := by
  simp only [importChecks, requireTable, Outcome.bind_eq_ok, Outcome.require_eq_ok] at h
  obtain ⟨_, -, table, htable, _, -, _, -, restore, hrestore, _, hrows, heq⟩ := h
  cases heq
  refine ⟨htable, rfl, ?_, Outcome.checkAll_eq_ok.mp hrows⟩
  rintro spec rfl
  exact restoreRequest_ok hrestore

theorem validateRestoreTableSpec_ok {existing : LoadedTable}
    (h : validateRestoreTableSpec pf existing spec rowCount = .ok ()) :
    validateSchema pf spec.schema = .ok () ∧ validateAccessPolicy spec.accessPolicy = .ok () := by
  simp only [validateRestoreTableSpec, Outcome.bind_eq_ok] at h
  obtain ⟨_, -, _, -, _, hschema, _, hpolicy, -⟩ := h
  exact ⟨hschema, hpolicy⟩

theorem validateRestoreTableSpec_displayName {existing : LoadedTable}
    (h : validateRestoreTableSpec pf existing spec rowCount = .ok ()) :
    trim (trim spec.displayName) = trim spec.displayName ∧ trim spec.displayName ≠ "" := by
  simp only [validateRestoreTableSpec, Outcome.bind_eq_ok, Outcome.ensure_eq_ok] at h
  obtain ⟨_, -, _, hname, -⟩ := h
  exact trimmed_of_not_isBlank hname

/-! ### Every import is a sequence of steps -/

theorem clearStage_steps (pf : Platform) (db : Db) (claims : Claims) (plan : ImportPlan) :
    DataSteps pf db.core (clearStage db claims plan).core := by
  unfold clearStage
  split
  · exact .single (.deleteRows (importClears claims plan.table))
  · exact .refl

/-- A restore changes the definition only after its checks; where it stops
    early nothing has happened. -/
theorem restoreStage_steps (pf : Platform) (db : Db) (claims : Claims) (plan : ImportPlan) :
    DataSteps pf db.core (restoreStage pf db claims plan).1.core := by
  unfold restoreStage
  split
  · rename_i spec _
    unfold restoreTableDefinition
    refine Outcome.proceed_rule (P := fun s : Db => DataSteps pf db.core s.core) .refl ?_
    intro _ hchecks
    simp only [Outcome.bind_eq_ok, badRequest_eq_ok] at hchecks
    obtain ⟨_, hspec, hrows⟩ := hchecks
    obtain ⟨hschema, hpolicy⟩ := validateRestoreTableSpec_ok hspec
    exact .single (.redefineTable hschema hpolicy (validateRestoreTableSpec_displayName hspec)
      (validateRowsAgainstSchema_eq_ok.mp hrows))
  · exact .refl

theorem restoreStage_table {db db' : Db} {plan : ImportPlan} (hplan : plan.table ∈ db.dataTables)
    (happ : plan.table.appId = claims.appId)
    (h : restoreStage pf db claims plan = (db', .ok table)) :
    table ∈ db'.dataTables ∧ table.appId = claims.appId := by
  unfold restoreStage at h
  split at h
  · rename_i spec _
    unfold restoreTableDefinition at h
    rcases hchecks : (do
        badRequest (validateRestoreTableSpec pf plan.table spec (countTableRows db plan.table.id))
        badRequest (validateRowsAgainstSchema pf db plan.table.id spec.schema)) with e | u
    · rw [hchecks] at h
      cases h
    · rw [hchecks] at h
      simp only [Outcome.proceed_ok, Prod.mk.injEq, Outcome.require_eq_ok] at h
      obtain ⟨rfl, hload⟩ := h
      obtain ⟨hmem, hid, -⟩ := loadTable_some hload
      exact ⟨hmem, hid⟩
  · cases h
    exact ⟨hplan, happ⟩

theorem planRow_ok {env : Env} {n : Nat} {row : ImportRowRequest} {planned : DataRow}
    (h : planRow pf env claims table n row = .ok planned) :
    planned.tableId = table.id ∧ planned.appId = claims.appId ∧
      normalizeRowData pf table.schema row.data false = .ok planned.data := by
  simp only [planRow, Outcome.bind_eq_ok, badRequest_eq_ok] at h
  obtain ⟨data, hnorm, owner, -, heq⟩ := h
  cases heq
  exact ⟨rfl, rfl, hnorm⟩

theorem insertStage_steps {pf : Platform} {env : Env} {claims : Claims} {table : LoadedTable}
    (happ : table.appId = claims.appId) (rows : List ImportRowRequest) :
    ∀ (n : Nat) (db : Db), WellFormed pf db.core → table ∈ db.core.tables →
      DataSteps pf db.core (insertStage pf env claims table n rows db).1.core := by
  induction rows with
  | nil => intro n db _ _; exact .refl
  | cons row rest ih =>
    intro n db hwf htable
    rw [insertStage]
    refine Outcome.proceed_rule (P := fun s : Db => DataSteps pf db.core s.core) .refl ?_
    intro planned hplanned
    obtain ⟨hid, happ', hnorm⟩ := planRow_ok hplanned
    have hconf : Conforms pf table.schema planned.data :=
      conforms_normalizeRowData (hwf.schema_ok table htable) hnorm
    split
    · exact .refl
    · rename_i db' hinsert
      obtain ⟨-, howner, rows', hins, rfl⟩ := Db.insertDataRow_eq_some.mp hinsert
      have hstep : DataStep pf db.core { db.core with rows := rows' } :=
        .insertRow htable hid.symm (happ.trans happ'.symm) hconf (owner_of_userOrNull howner) hins
      -- the event log does not touch the core, so the loop goes on from there
      have hlog := logRowEvent_core { db with dataRows := rows' } env claims.appId table.id
        planned.id claims.sub "insert" (some planned.data)
      generalize Db.logRowEvent { db with dataRows := rows' } env claims.appId table.id
        planned.id claims.sub "insert" (some planned.data) = logged at hlog ⊢
      have hrest := ih (n + 1) logged (by rw [hlog]; exact hwf.step hstep)
        (by rw [hlog]; exact htable)
      rw [hlog] at hrest
      exact .head hstep hrest

theorem importRows_steps {db : Db} (hwf : WellFormed pf db.core) (env : Env)
    (claims : Claims) (tableName : String) (payload : TableImportRequest) :
    DataSteps pf db.core (importRows pf db env claims tableName payload).1.core := by
  unfold importRows
  refine Outcome.proceed_rule (P := fun s : Db => DataSteps pf db.core s.core) .refl ?_
  intro plan hchecks
  obtain ⟨hload, -⟩ := importChecks_ok hchecks
  obtain ⟨htable, happ, -⟩ := loadTable_some hload
  dsimp only
  split
  · exact .refl
  · have hclear := clearStage_steps pf db claims plan
    have hrestore := restoreStage_steps pf (clearStage db claims plan) claims plan
    have hmem : plan.table ∈ (clearStage db claims plan).dataTables := by
      unfold clearStage
      split <;> exact htable
    rcases hout : restoreStage pf (clearStage db claims plan) claims plan with ⟨db', restored⟩
    rw [hout] at hrestore
    refine Outcome.proceed_rule (P := fun s : Db => DataSteps pf db.core s.core)
      (hclear.trans hrestore) ?_
    rintro table rfl
    obtain ⟨htable', happ'⟩ := restoreStage_table hmem happ hout
    have hinsert := @insertStage_steps pf env claims table happ' payload.rows 0 db'
      (hwf.steps (hclear.trans hrestore)) htable'
    exact (hclear.trans hrestore).trans hinsert

end Peanut
