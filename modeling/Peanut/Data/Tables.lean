import Peanut.Data.Core

/-!
# Table requests

`create_table`, `update_table` and `delete_table`.  Each handler first runs its
checks, which only read, and then issues its statements; the checks that stand
in a row are one `Except` computation, named after the handler.
-/

namespace Peanut

open Relational

/-- `.map_err(|message| json_error(StatusCode::BAD_REQUEST, message))`. -/
def badRequest {α : Type} (x : Except String α) : Except ApiError α :=
  x.mapError (jsonError .badRequest)

@[simp] theorem badRequest_eq_ok {α : Type} {x : Except String α} {a : α} :
    badRequest x = .ok a ↔ x = .ok a :=
  Outcome.mapError_eq_ok

def loadTable (pf : Platform) (db : Db) (appId tableName : String) : Option LoadedTable :=
  db.dataTables.selectOne fun t => t.appId == appId && t.name == pf.toLowercase (trim tableName)

def requireTable (pf : Platform) (db : Db) (appId tableName : String) :
    Except ApiError LoadedTable :=
  Outcome.require (loadTable pf db appId tableName) (jsonError .notFound "data table not found")

theorem loadTable_some {pf : Platform} {db : Db} {appId tableName : String} {t : LoadedTable}
    (h : loadTable pf db appId tableName = some t) :
    t ∈ db.dataTables ∧ t.appId = appId ∧ t.name = pf.toLowercase (trim tableName) := by
  obtain ⟨ht, hmatch⟩ := KeyedTable.selectOne_some h
  simp only [Bool.and_eq_true, beq_iff_eq] at hmatch
  exact ⟨ht, hmatch⟩

/-- A valid table name is already in the form `load_table` looks up. -/
theorem normalized_tableName {pf : Platform} {name : String}
    (h : validateTableName name = .ok ()) : pf.toLowercase (trim name) = name := by
  simp only [validateTableName, Outcome.bind_eq_ok, Outcome.ensure_eq_ok] at h
  obtain ⟨_, -, _, -, hchars⟩ := h
  have hname : ∀ c ∈ name.toList, isNameChar c = true := by
    intro c hc
    have hc' := List.all_eq_true.mp hchars c hc
    simp only [Bool.or_eq_true] at hc'
    simp only [isNameChar, Bool.or_eq_true]
    exact .inl hc'
  rw [trim_eq_self fun c hc => isWhitespace_of_isNameChar (hname c hc)]
  exact pf.toLowercase_name name (List.all_eq_true.mpr hname)

theorem loadTable_stored {pf : Platform} {db : Db} (hwf : WellFormed pf db.core) {t : LoadedTable}
    (ht : t ∈ db.dataTables) : loadTable pf db t.appId t.name = some t := by
  have hnorm := @normalized_tableName pf t.name (hwf.name_ok t ht)
  refine KeyedTable.selectOne_eq_some ht (by simp [hnorm]) ?_
  intro s hs hmatch
  simp only [hnorm, Bool.and_eq_true, beq_iff_eq] at hmatch
  exact hwf.name_unique s hs t ht hmatch.1 hmatch.2

def requireAdmin (claims : Claims) : Except ApiError Unit :=
  Outcome.ensure claims.isAdmin (jsonError .forbidden "admin access required")

/-! ### Creating -/

/-- The checks of `create_table`; the result is the normalised name. -/
def createTableChecks (pf : Platform) (claims : Claims) (payload : CreateTableRequest) :
    Except ApiError String := do
  requireAdmin claims
  let name := pf.toLowercase (trim payload.name)
  badRequest (validateTableName name)
  Outcome.ensure (!isBlank payload.displayName)
    (jsonError .badRequest "display_name is required")
  badRequest (validateSchema pf payload.schema)
  badRequest (validateAccessPolicy payload.accessPolicy)
  return name

def createTable (pf : Platform) (db : Db) (env : Env) (claims : Claims)
    (payload : CreateTableRequest) : Db × Except ApiError (Reply DataTableDetail) :=
  Outcome.proceed db (createTableChecks pf claims payload) fun name =>
    let table : LoadedTable :=
      { id := env.uuid 0, appId := claims.appId, name := name,
        displayName := trim payload.displayName, schema := payload.schema,
        accessPolicy := payload.accessPolicy, createdBy := claims.sub, createdAt := env.now }
    match db.insertDataTable table with
    | none => (db, .error (jsonError .conflict "data table already exists"))
    | some db =>
        match loadTable pf db claims.appId name with
        | none =>
            (db, .error (jsonError .internalServerError "created table could not be reloaded"))
        | some table =>
            (db.recordAuditLog env (env.uuid 1) (some claims.appId) claims "data.table.created"
                "data_table" table.name (.object [("display_name", .string table.displayName)]),
              .ok { status := .created, body := table.detail })

/-! ### Updating -/

def countTableRows (db : Db) (tableId : String) : Int :=
  (db.dataRows.select fun r => r.tableId == tableId).length

/-- Every stored row of the table, one after the other, against a schema. -/
def validateRowsAgainstSchema (pf : Platform) (db : Db) (tableId : String)
    (schema : DataTableSchema) : Except String Unit :=
  Outcome.checkAll
    (fun row : DataRow =>
      match normalizeRowData pf schema row.data false with
      | .ok _ => .ok ()
      | .error message =>
          .error s!"row {row.id} is incompatible with the updated schema: {message}")
    (db.dataRows.select fun r => r.tableId == tableId)

theorem validateRowsAgainstSchema_eq_ok {pf : Platform} {db : Db} {tableId : String}
    {schema : DataTableSchema} :
    validateRowsAgainstSchema pf db tableId schema = .ok () ↔
      ∀ r ∈ db.dataRows, r.tableId = tableId → Conforms pf schema r.data := by
  rw [validateRowsAgainstSchema, Outcome.checkAll_eq_ok]
  constructor
  · intro h r hr hid
    have hrow := h r (KeyedTable.mem_select.mpr ⟨hr, by simpa using hid⟩)
    cases hnorm : normalizeRowData pf schema r.data false with
    | ok o => exact ⟨o, hnorm⟩
    | error message => rw [hnorm] at hrow; cases hrow
  · intro h r hr
    obtain ⟨hr, hid⟩ := KeyedTable.mem_select.mp hr
    obtain ⟨o, ho⟩ := h r hr (by simpa using hid)
    rw [ho]

/-- `UPDATE data_tables SET display_name = ?, schema_json = ?, access_policy_json = ?
    WHERE id = ?`. -/
def Db.redefineTable (db : Db) (tableId displayName : String) (schema : DataTableSchema)
    (accessPolicy : AccessPolicy) : Db :=
  { db with
    dataTables := db.dataTables.updateWhere (fun t => t.id == tableId)
      (fun t => t.redefine displayName schema accessPolicy)
      (LoadedTable.id_redefine displayName schema accessPolicy) }

/-- The checks of `update_table`; the result is the table found and its new
    definition. -/
def updateTableChecks (pf : Platform) (db : Db) (claims : Claims) (tableName : String)
    (payload : UpdateTableRequest) : Except ApiError (LoadedTable × LoadedTable) := do
  requireAdmin claims
  let existing ← requireTable pf db claims.appId tableName
  let displayName := trim (payload.displayName.getD existing.displayName)
  Outcome.ensure (displayName != "") (jsonError .badRequest "display_name is required")
  let schema := payload.schema.getD existing.schema
  badRequest (validateSchema pf schema)
  let accessPolicy := payload.accessPolicy.getD existing.accessPolicy
  badRequest (validateAccessPolicy accessPolicy)
  badRequest (validateSchemaEvolution existing.schema schema (countTableRows db existing.id))
  badRequest (validateRowsAgainstSchema pf db existing.id schema)
  return (existing, existing.redefine displayName schema accessPolicy)

def updateTable (pf : Platform) (db : Db) (env : Env) (claims : Claims) (tableName : String)
    (payload : UpdateTableRequest) : Db × Except ApiError (Reply DataTableDetail) :=
  Outcome.proceed db (updateTableChecks pf db claims tableName payload) fun (existing, updated) =>
    let db := db.redefineTable existing.id updated.displayName updated.schema updated.accessPolicy
    match loadTable pf db claims.appId existing.name with
    | none => (db, .error (jsonError .internalServerError "updated table could not be reloaded"))
    | some table =>
        (db.recordAuditLog env (env.uuid 0) (some claims.appId) claims "data.table.updated"
            "data_table" table.name (.object [("display_name", .string table.displayName)]),
          .ok { status := .ok, body := table.detail })

/-! ### Deleting -/

def deleteTable (pf : Platform) (db : Db) (env : Env) (claims : Claims) (tableName : String) :
    Db × Except ApiError (Reply MessageResponse) :=
  Outcome.proceed db
    (do
      requireAdmin claims
      requireTable pf db claims.appId tableName)
    fun existing =>
      let db := db.deleteDataTables fun t => t.id == existing.id
      (db.recordAuditLog env (env.uuid 0) (some claims.appId) claims "data.table.deleted"
          "data_table" existing.name (.object []),
        .ok (jsonMessage .ok s!"deleted data table {existing.name}"))

/-! ### Every request is a sequence of steps -/

theorem trimmed_of_not_isBlank {s : String} (h : (!isBlank s) = true) :
    trim (trim s) = trim s ∧ trim s ≠ "" := by
  refine ⟨trim_trim s, ?_⟩
  simpa [isBlank] using h

theorem createTable_steps (pf : Platform) (db : Db) (env : Env) (claims : Claims)
    (payload : CreateTableRequest) :
    DataSteps pf db.core (createTable pf db env claims payload).1.core := by
  unfold createTable
  refine Outcome.proceed_rule (P := fun s : Db => DataSteps pf db.core s.core) .refl ?_
  intro name hchecks
  simp only [createTableChecks, Outcome.bind_eq_ok, badRequest_eq_ok, Outcome.ensure_eq_ok]
    at hchecks
  obtain ⟨_, -, _, hname, _, hdisplay, _, hschema, _, hpolicy, heq⟩ := hchecks
  cases heq
  dsimp only
  split
  · exact .refl
  · rename_i db' hinsert
    obtain ⟨hfresh, hcreator, tables, hins, rfl⟩ := Db.insertDataTable_eq_some.mp hinsert
    have hstep : DataStep pf db.core { db.core with tables := tables } := by
      refine .createTable hname hschema hpolicy ?_ hfresh hcreator hins
      exact trimmed_of_not_isBlank hdisplay
    split
    · exact .single hstep
    · rw [recordAuditLog_core]
      exact .single hstep

/-- What the checks of `update_table` establish about the new definition. -/
theorem updateTableChecks_ok {pf : Platform} {db : Db} {claims : Claims} {tableName : String}
    {payload : UpdateTableRequest} {existing updated : LoadedTable}
    (h : updateTableChecks pf db claims tableName payload = .ok (existing, updated)) :
    loadTable pf db claims.appId tableName = some existing ∧
      validateSchema pf updated.schema = .ok () ∧
      validateAccessPolicy updated.accessPolicy = .ok () ∧
      ∀ r ∈ db.dataRows, r.tableId = existing.id → Conforms pf updated.schema r.data := by
  simp only [updateTableChecks, Outcome.bind_eq_ok, badRequest_eq_ok, requireTable,
    Outcome.require_eq_ok] at h
  obtain ⟨_, -, table, htable, _, -, _, hschema, _, hpolicy, _, -, _, hrows, heq⟩ := h
  cases heq
  exact ⟨htable, hschema, hpolicy, validateRowsAgainstSchema_eq_ok.mp hrows⟩

theorem updateTableChecks_displayName {pf : Platform} {db : Db} {claims : Claims}
    {tableName : String} {payload : UpdateTableRequest} {existing updated : LoadedTable}
    (h : updateTableChecks pf db claims tableName payload = .ok (existing, updated)) :
    trim updated.displayName = updated.displayName ∧ updated.displayName ≠ "" := by
  simp only [updateTableChecks, Outcome.bind_eq_ok, Outcome.ensure_eq_ok] at h
  obtain ⟨_, -, found, -, _, hname, _, -, _, -, _, -, _, -, heq⟩ := h
  cases heq
  exact ⟨trim_trim _, bne_iff_ne.mp hname⟩

theorem updateTable_steps (pf : Platform) (db : Db) (env : Env) (claims : Claims)
    (tableName : String) (payload : UpdateTableRequest) :
    DataSteps pf db.core (updateTable pf db env claims tableName payload).1.core := by
  unfold updateTable
  refine Outcome.proceed_rule (P := fun s : Db => DataSteps pf db.core s.core) .refl ?_
  rintro ⟨existing, updated⟩ hchecks
  obtain ⟨-, hschema, hpolicy, hrows⟩ := updateTableChecks_ok hchecks
  have hstep : DataStep pf db.core
      (db.core.redefineTable existing.id updated.displayName updated.schema
        updated.accessPolicy) :=
    .redefineTable hschema hpolicy (updateTableChecks_displayName hchecks) hrows
  dsimp only
  split
  · exact .single hstep
  · rw [recordAuditLog_core]
    exact .single hstep

theorem deleteTable_steps (pf : Platform) (db : Db) (env : Env) (claims : Claims)
    (tableName : String) :
    DataSteps pf db.core (deleteTable pf db env claims tableName).1.core := by
  unfold deleteTable
  refine Outcome.proceed_rule (P := fun s : Db => DataSteps pf db.core s.core) .refl ?_
  intro existing _
  dsimp only
  rw [recordAuditLog_core]
  exact .single (.deleteTables fun t => t.id == existing.id)

end Peanut
