import Peanut.Data.Expand
import Peanut.Data.Query
import Peanut.Workspaces.Usage

/-!
# Row requests

`api/data/rows.rs`.  Reading a table and reading a row decide access
differently: `executeListRows` asks the table-level question and lets an owner
filter in the query do the rest, `getRow` asks about the one row.
-/

namespace Peanut

open Relational

/-! ### Creating -/

/-- The checks of `create_row`: table, write access, quota and data. -/
def createRowChecks (pf : Platform) (db : Db) (env : Env) (claims : Claims) (tableName : String)
    (payload : CreateRowRequest) : Except ApiError (LoadedTable × String × Value) := do
  let table ← requireTable pf db claims.appId tableName
  Outcome.ensure (canWriteTable claims table.accessPolicy)
    (jsonError .forbidden "write access denied")
  let workspaceId ← requireAppResourceAvailable db env claims.appId .dataRows 1
  let normalized ← badRequest (normalizeRowData pf table.schema payload.data false)
  return (table, workspaceId, normalized)

/-- The row `create_row` inserts. -/
def newRow (env : Env) (claims : Claims) (table : LoadedTable) (rowId : String)
    (owner : Option String) (data : Value) : DataRow :=
  { id := rowId, appId := claims.appId, tableId := table.id, ownerUserId := owner, data := data,
    createdAt := env.now, updatedAt := env.now }

@[simp] theorem newRow_id (env : Env) (claims : Claims) (table : LoadedTable) (rowId : String)
    (owner : Option String) (data : Value) :
    (newRow env claims table rowId owner data).id = rowId := rfl

@[simp] theorem newRow_data (env : Env) (claims : Claims) (table : LoadedTable) (rowId : String)
    (owner : Option String) (data : Value) :
    (newRow env claims table rowId owner data).data = data := rfl

def createRow (pf : Platform) (db : Db) (env : Env) (claims : Claims) (tableName : String)
    (payload : CreateRowRequest) : Db × Except ApiError (Reply DataRowResponse) :=
  Outcome.proceed db (createRowChecks pf db env claims tableName payload)
    fun (table, workspaceId, normalized) =>
      let rowId := env.uuid 0
      let owner := ownerUserIdForNewRow claims table.accessPolicy
      match db.insertDataRow (newRow env claims table rowId owner normalized) with
      | none => (db, .error (jsonError .internalServerError "failed to create row"))
      | some db =>
          let db := recordUsage db env workspaceId .dataRows 1
          let db := db.logRowEvent env claims.appId table.id rowId claims.sub "insert"
            (some normalized)
          let db := db.recordAuditLog env (env.uuid 1) (some claims.appId) claims
            "data.row.created" "data_row" rowId (.object [("table", .string table.name)])
          match loadRow db table.id rowId with
          | some row => (db, .ok { status := .created, body := .ofRecord row })
          | none =>
              (db, .error (jsonError .internalServerError "created row could not be reloaded"))

/-! ### Reading -/

/-- `i64` addition as the release build computes it. -/
def wrapI64 (n : Int) : Int := (n + 2 ^ 63) % 2 ^ 64 - 2 ^ 63

/-- The owner the list is restricted to.  Only the mode is consulted. -/
def listOwnerFilter (claims : Claims) (policy : AccessPolicy) : Option String :=
  if policy.mode == .ownerPrivate && !claims.isAdmin then some claims.sub else none

def executeListRows (pf : Platform) (engine : Sqlite) (db : Db) (claims : Claims)
    (table : LoadedTable) (params : ListRowsParams) :
    Except ApiError (Reply DataRowsResponse) := do
  Outcome.ensure (canReadTable claims table.accessPolicy)
    (jsonError .forbidden "read access denied")
  badRequest (validateListRowsParams pf table.schema params)
  let query := buildRowQuery pf params table.schema table.appId table.id
    (listOwnerFilter claims table.accessPolicy)
  let found := matchingRows engine db query
  let records := pageOf query.limit query.offset (engine.orderBy query.orderSql found)
  let total : Int := found.length
  let rows ← records.mapM (respondRow pf db table params.expand)
  return { status := .ok
           body := { rows := rows, total := total, limit := query.limit, offset := query.offset,
                     hasMore := decide (wrapI64 (query.offset + query.limit) < total) } }

def listRows (pf : Platform) (engine : Sqlite) (db : Db) (claims : Claims) (tableName : String)
    (params : ListRowsParams) : Except ApiError (Reply DataRowsResponse) := do
  let table ← requireTable pf db claims.appId tableName
  executeListRows pf engine db claims table params

/-- The row a request names, provided the caller may perform the action on it. -/
def requireRow (pf : Platform) (db : Db) (claims : Claims) (tableName rowId : String)
    (action : RowAccessAction) : Except ApiError (LoadedTable × DataRow) := do
  let table ← requireTable pf db claims.appId tableName
  let record ← Outcome.require (loadRow db table.id rowId) (jsonError .notFound "row not found")
  Outcome.ensure (canAccessRow claims table.accessPolicy record.ownerUserId action)
    (jsonError .forbidden "row access denied")
  return (table, record)

def getRow (pf : Platform) (db : Db) (claims : Claims) (tableName rowId : String)
    (params : GetRowParams) : Except ApiError (Reply DataRowResponse) := do
  let (table, record) ← requireRow pf db claims tableName rowId .read
  let row ← respondRow pf db table params.expand record
  return { status := .ok, body := row }

/-! ### Updating -/

/-- `for (key, value) in patch { merged.insert(key, value) }`. -/
def mergePatch (existing patch : JsonMap) : JsonMap :=
  patch.foldl (fun merged e => merged.insert e.1 e.2) existing

/-- The checks of `update_row`: the row, access to it and the merged data. -/
def updateRowChecks (pf : Platform) (db : Db) (claims : Claims) (tableName rowId : String)
    (payload : CreateRowRequest) : Except ApiError (LoadedTable × DataRow × Value) := do
  let (table, existing) ← requireRow pf db claims tableName rowId .update
  let existingValue ← (valueToObject existing.data "failed to decode stored row").mapError
    (jsonError .internalServerError)
  let patch ← badRequest (valueToObject payload.data "data must be a JSON object")
  let normalized ← badRequest
    (normalizeRowData pf table.schema (.object (mergePatch existingValue patch)) false)
  return (table, existing, normalized)

/-- `UPDATE data_rows SET data_json = ?, updated_at = CURRENT_TIMESTAMP
    WHERE id = ? AND table_id = ?`. -/
def Db.rewriteRow (db : Db) (rowId tableId : String) (data : Value) (now : String) : Db :=
  { db with
    dataRows := db.dataRows.updateWhere (fun r => r.id == rowId && r.tableId == tableId)
      (fun r => { r with data := data, updatedAt := now }) (DataRow.id_rewritten data now) }

def updateRow (pf : Platform) (db : Db) (env : Env) (claims : Claims) (tableName rowId : String)
    (payload : CreateRowRequest) : Db × Except ApiError (Reply DataRowResponse) :=
  Outcome.proceed db (updateRowChecks pf db claims tableName rowId payload)
    fun (table, _, normalized) =>
      let db := db.rewriteRow rowId table.id normalized env.now
      let db := db.logRowEvent env claims.appId table.id rowId claims.sub "update"
        (some normalized)
      let db := db.recordAuditLog env (env.uuid 0) (some claims.appId) claims "data.row.updated"
        "data_row" rowId (.object [("table", .string table.name)])
      match loadRow db table.id rowId with
      | some row => (db, .ok { status := .ok, body := .ofRecord row })
      | none => (db, .error (jsonError .internalServerError "updated row could not be reloaded"))

/-! ### Deleting -/

/-- `DELETE FROM data_rows WHERE …`. -/
def Db.deleteRows (db : Db) (p : DataRow → Bool) : Db :=
  { db with dataRows := db.dataRows.deleteWhere p }

def deleteRow (pf : Platform) (db : Db) (env : Env) (claims : Claims) (tableName rowId : String) :
    Db × Except ApiError (Reply MessageResponse) :=
  Outcome.proceed db (requireRow pf db claims tableName rowId .delete) fun (table, existing) =>
    let db := db.deleteRows fun r => r.id == rowId && r.tableId == table.id
    let db := db.logRowEvent env claims.appId table.id rowId claims.sub "delete"
      (some existing.data)
    let db := db.recordAuditLog env (env.uuid 0) (some claims.appId) claims "data.row.deleted"
      "data_row" rowId (.object [("table", .string table.name)])
    (db, .ok (jsonMessage .ok s!"deleted row {rowId}"))

/-! ### What the row checks establish -/

theorem requireRow_eq_ok {pf : Platform} {db : Db} {claims : Claims} {tableName rowId : String}
    {action : RowAccessAction} {table : LoadedTable} {record : DataRow} :
    requireRow pf db claims tableName rowId action = .ok (table, record) ↔
      loadTable pf db claims.appId tableName = some table ∧
        loadRow db table.id rowId = some record ∧
        canAccessRow claims table.accessPolicy record.ownerUserId action = true := by
  simp only [requireRow, requireTable, Outcome.bind_eq_ok, Outcome.require_eq_ok,
    Outcome.ensure_eq_ok]
  constructor
  · rintro ⟨t, ht, r, hr, _, hacc, heq⟩
    cases heq
    exact ⟨ht, hr, hacc⟩
  · rintro ⟨ht, hr, hacc⟩
    exact ⟨table, ht, record, hr, (), hacc, rfl⟩

theorem owner_of_userOrNull {db : Db} {owner : Option String} (h : db.userOrNull owner = true) :
    ∀ u, owner = some u → db.users.hasKey u = true := by
  rintro u rfl
  exact h

/-! ### Every request is a sequence of steps

The normalised data a row request stores conforms to the schema only because
the schema itself was accepted, so these lemmas start from a well-formed store. -/

theorem createRow_steps {pf : Platform} {db : Db} (hwf : WellFormed pf db.core) (env : Env)
    (claims : Claims) (tableName : String) (payload : CreateRowRequest) :
    DataSteps pf db.core (createRow pf db env claims tableName payload).1.core := by
  unfold createRow
  refine Outcome.proceed_rule (P := fun s : Db => DataSteps pf db.core s.core) .refl ?_
  rintro ⟨table, workspaceId, normalized⟩ hchecks
  simp only [createRowChecks, requireTable, Outcome.bind_eq_ok, Outcome.require_eq_ok,
    badRequest_eq_ok] at hchecks
  obtain ⟨t, hload, _, -, w, -, data, hnorm, heq⟩ := hchecks
  cases heq
  obtain ⟨htable, happ, -⟩ := loadTable_some hload
  have hconf : Conforms pf table.schema normalized :=
    conforms_normalizeRowData (hwf.schema_ok table htable) hnorm
  dsimp only
  split
  · exact .refl
  · rename_i db' hinsert
    obtain ⟨-, howner, rows, hins, rfl⟩ := Db.insertDataRow_eq_some.mp hinsert
    have hstep : DataStep pf db.core { db.core with rows := rows } :=
      .insertRow htable rfl happ hconf (owner_of_userOrNull howner) hins
    split
    · simp only [recordAuditLog_core, logRowEvent_core, recordUsage_core]
      exact .single hstep
    · simp only [recordAuditLog_core, logRowEvent_core, recordUsage_core]
      exact .single hstep

/-- What the checks of `update_row` establish. -/
theorem updateRowChecks_ok {pf : Platform} {db : Db} {claims : Claims} {tableName rowId : String}
    {payload : CreateRowRequest} {table : LoadedTable} {existing : DataRow} {normalized : Value}
    (h : updateRowChecks pf db claims tableName rowId payload = .ok (table, existing, normalized)) :
    requireRow pf db claims tableName rowId .update = .ok (table, existing) ∧
      ∃ merged, normalizeRowData pf table.schema merged false = .ok normalized := by
  simp only [updateRowChecks, Outcome.bind_eq_ok, badRequest_eq_ok] at h
  obtain ⟨⟨t, r⟩, hrow, ev, -, patch, -, data, hnorm, heq⟩ := h
  cases heq
  exact ⟨hrow, _, hnorm⟩

theorem updateRow_steps {pf : Platform} {db : Db} (hwf : WellFormed pf db.core) (env : Env)
    (claims : Claims) (tableName rowId : String) (payload : CreateRowRequest) :
    DataSteps pf db.core (updateRow pf db env claims tableName rowId payload).1.core := by
  unfold updateRow
  refine Outcome.proceed_rule (P := fun s : Db => DataSteps pf db.core s.core) .refl ?_
  rintro ⟨table, existing, normalized⟩ hchecks
  obtain ⟨hrow, merged, hnorm⟩ := updateRowChecks_ok hchecks
  obtain ⟨htable, -, -⟩ := loadTable_some (requireRow_eq_ok.mp hrow).1
  have hstep : DataStep pf db.core (db.core.rewriteRow rowId table.id normalized env.now) :=
    .rewriteRow htable (conforms_normalizeRowData (hwf.schema_ok table htable) hnorm)
  dsimp only
  split
  · simp only [recordAuditLog_core, logRowEvent_core]
    exact .single hstep
  · simp only [recordAuditLog_core, logRowEvent_core]
    exact .single hstep

theorem deleteRow_steps (pf : Platform) (db : Db) (env : Env) (claims : Claims)
    (tableName rowId : String) :
    DataSteps pf db.core (deleteRow pf db env claims tableName rowId).1.core := by
  unfold deleteRow
  refine Outcome.proceed_rule (P := fun s : Db => DataSteps pf db.core s.core) .refl ?_
  rintro ⟨table, existing⟩ _
  dsimp only
  simp only [recordAuditLog_core, logRowEvent_core]
  exact .single (.deleteRows fun r => r.id == rowId && r.tableId == table.id)

end Peanut
