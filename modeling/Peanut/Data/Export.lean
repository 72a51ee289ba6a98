import Peanut.Data.EventHistory

/-!
# Exporting a table

`export_table` of `api/data/import_export.rs`, the import request that restores
what it returns, and what later row requests leave alone.
-/

namespace Peanut

open Relational

structure TableExportResponse where
  metadata : TableExportMetadata
  table : DataTableDetail
  rows : List DataRowResponse

/-- `ORDER BY created_at ASC, id ASC`. -/
def exportOrder (a b : DataRow) : Bool :=
  strLt a.createdAt b.createdAt || (a.createdAt == b.createdAt && !strLt b.id a.id)

def exportedRows (db : Db) (appId tableId : String) : List DataRow :=
  (db.dataRows.select fun r => r.appId == appId && r.tableId == tableId).mergeSort exportOrder

/-- What an export of a loaded table says. -/
def tableExport (pf : Platform) (table : LoadedTable) (records : List DataRow) :
    TableExportResponse :=
  let rows := records.map DataRowResponse.ofRecord
  { metadata :=
      { exportVersion := TABLE_EXPORT_VERSION, rowCount := rows.length
        checksumSha256 := buildTableExportChecksum pf table.detail rows }
    table := table.detail, rows := rows }

def exportTable (pf : Platform) (db : Db) (claims : Claims) (tableName : String) :
    Except ApiError (Reply TableExportResponse) := do
  requireAdmin claims
  let table ← requireTable pf db claims.appId tableName
  let records := exportedRows db claims.appId table.id
  return { status := .ok, body := tableExport pf table records }

/-! ### The request that restores an export -/

def DataTableDetail.restoreSpec (t : DataTableDetail) : DataTableRestoreSpec :=
  { name := t.name, displayName := t.displayName, schema := t.schema
    accessPolicy := t.accessPolicy, createdBy := some t.createdBy, createdAt := some t.createdAt }

def DataRowResponse.importRow (r : DataRowResponse) : ImportRowRequest :=
  { id := some r.id, ownerUserId := r.ownerUserId, data := r.data, createdAt := some r.createdAt
    updatedAt := some r.updatedAt }

/-- An export sent back: `replace`, `restore_table` and `verify_checksum`. -/
def TableExportResponse.restorePayload (e : TableExportResponse) : TableImportRequest :=
  { mode := some "replace", dryRun := some false, restoreTable := some true
    metadata := some e.metadata, verifyChecksum := some true, table := some e.table.restoreSpec
    rows := e.rows.map DataRowResponse.importRow }

theorem exportTable_eq_ok {pf : Platform} {db : Db} {claims : Claims} {tableName : String}
    {reply : Reply TableExportResponse} :
    exportTable pf db claims tableName = .ok reply ↔
      claims.isAdmin = true ∧ ∃ table, loadTable pf db claims.appId tableName = some table ∧
        reply = { status := .ok
                  body := tableExport pf table (exportedRows db claims.appId table.id) } := by
  simp only [exportTable, requireAdmin, requireTable, Outcome.bind_eq_ok, Outcome.ensure_eq_ok,
    Outcome.require_eq_ok]
  constructor
  · rintro ⟨_, hadmin, table, htable, heq⟩
    cases heq
    exact ⟨hadmin, table, htable, rfl⟩
  · rintro ⟨hadmin, table, htable, rfl⟩
    exact ⟨(), hadmin, table, htable, rfl⟩

/-! ### The order of an export -/

theorem mem_exportedRows {db : Db} {appId tableId : String} {r : DataRow} :
    r ∈ exportedRows db appId tableId ↔ r ∈ db.dataRows ∧ r.appId = appId ∧
      r.tableId = tableId := by
  rw [exportedRows, List.mem_mergeSort, KeyedTable.mem_select, Bool.and_eq_true, beq_iff_eq,
    beq_iff_eq]

/-- Stored display names are trimmed and not empty. -/
def DisplayNamesTrimmed (c : DataCore) : Prop :=
  ∀ t ∈ c.tables, trim t.displayName = t.displayName ∧ t.displayName ≠ ""

theorem DisplayNamesTrimmed.redefine {c : DataCore} (h : DisplayNamesTrimmed c)
    {tableId displayName : String} {schema : DataTableSchema} {accessPolicy : AccessPolicy}
    (hname : trim displayName = displayName ∧ displayName ≠ "") :
    DisplayNamesTrimmed (c.redefineTable tableId displayName schema accessPolicy) := by
  intro s hs
  obtain ⟨t, ht, rfl⟩ := DataCore.mem_redefineTable.mp hs
  split
  · exact hname
  · exact h t ht

theorem DisplayNamesTrimmed.deleteTables {c : DataCore} (h : DisplayNamesTrimmed c)
    (p : LoadedTable → Bool) : DisplayNamesTrimmed (c.deleteTables p) :=
  fun t ht => h t (KeyedTable.mem_deleteWhere.mp ht).1

/-- One step: the tables are old ones, or one that is added or redefined under a checked name. -/
theorem DisplayNamesTrimmed.step {pf : Platform} {c c' : DataCore} (h : DisplayNamesTrimmed c)
    (hstep : DataStep pf c c') : DisplayNamesTrimmed c' := by
  cases hstep with
  | createTable _ _ _ hname _ _ hinsert =>
    intro t ht
    rcases (KeyedTable.mem_insert? hinsert).mp ht with ht | rfl
    · exact h t ht
    · exact hname
  | redefineTable _ _ hname _ => exact h.redefine hname
  | deleteTables p => exact h.deleteTables p
  | insertRow => exact h
  | rewriteRow => exact h
  | deleteRows p => exact h
  | insertUser => exact h
  | deleteUser userId => exact h.deleteTables fun t => t.createdBy == userId

theorem DisplayNamesTrimmed.steps {pf : Platform} {c c' : DataCore} (h : DisplayNamesTrimmed c)
    (hsteps : DataSteps pf c c') : DisplayNamesTrimmed c' := by
  induction hsteps with
  | refl => exact h
  | tail _ hstep ih => exact ih.step hstep

end Peanut
