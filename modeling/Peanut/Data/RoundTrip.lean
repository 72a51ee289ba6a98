import Peanut.Data.DryRun
import Peanut.Data.Export

/-!
# Restoring an export

A table is exported, rows come and go, and the export is sent back with
`replace`, `restore_table` and `verify_checksum`.  The definition always
survives; of a row the importer keeps the id, passes the owner through the
owner rule of the policy and the document through the schema, and stamps both
times with its own clock.
-/

namespace Peanut

open Relational

/-! ### What row requests leave alone -/

/-- Users stay as they are; tables keep their identity, not their definition. -/
structure KeepsTables (c c' : DataCore) : Prop where
  users : c'.users = c.users
  tables : ∀ t ∈ c.tables, ∃ t' ∈ c'.tables, t'.id = t.id ∧ t'.appId = t.appId ∧
    t'.name = t.name ∧ t'.createdBy = t.createdBy ∧ t'.createdAt = t.createdAt

namespace KeepsTables

theorem of_eq {c c' : DataCore} (husers : c'.users = c.users) (htables : c'.tables = c.tables) :
    KeepsTables c c' :=
  ⟨husers, fun t ht => ⟨t, htables ▸ ht, rfl, rfl, rfl, rfl, rfl⟩⟩

theorem trans {a b c : DataCore} (h : KeepsTables a b) (h' : KeepsTables b c) :
    KeepsTables a c := by
  refine ⟨h'.users.trans h.users, ?_⟩
  intro t ht
  obtain ⟨t', ht', hid, happ, hname, hby, hat⟩ := h.tables t ht
  obtain ⟨t'', ht'', hid', happ', hname', hby', hat'⟩ := h'.tables t' ht'
  exact ⟨t'', ht'', hid'.trans hid, happ'.trans happ, hname'.trans hname, hby'.trans hby,
    hat'.trans hat⟩

theorem redefine (c : DataCore) (tableId displayName : String) (schema : DataTableSchema)
    (accessPolicy : AccessPolicy) :
    KeepsTables c (c.redefineTable tableId displayName schema accessPolicy) := by
  refine ⟨rfl, ?_⟩
  intro t ht
  refine ⟨if t.id == tableId then t.redefine displayName schema accessPolicy else t,
    DataCore.mem_redefineTable.mpr ⟨t, ht, rfl⟩, ?_⟩
  split
  · exact ⟨rfl, rfl, rfl, rfl, rfl⟩
  · exact ⟨rfl, rfl, rfl, rfl, rfl⟩

end KeepsTables

variable {pf : Platform}

theorem buildImportChecksum_eq_ok {table : DataTableDetail}
    {rows : List ImportRowRequest} {checksum : String} :
    buildImportChecksum pf table rows = .ok checksum ↔
      ∃ exportRows : List DataRowResponse, rows = exportRows.map DataRowResponse.importRow ∧
        checksum = buildTableExportChecksum pf table exportRows := by
  have hrow : ∀ (row : ImportRowRequest) (exportRow : DataRowResponse), ((do
      let id ← Outcome.require row.id "checksum verification requires row ids"
      let createdAt ← Outcome.require row.createdAt
        "checksum verification requires row created_at values"
      let updatedAt ← Outcome.require row.updatedAt
        "checksum verification requires row updated_at values"
      return { id := id, ownerUserId := row.ownerUserId, data := row.data, createdAt := createdAt
               updatedAt := updatedAt }) : Except String DataRowResponse) = .ok exportRow ↔
        row = exportRow.importRow := by
    intro row exportRow
    simp only [Outcome.bind_eq_ok, Outcome.require_eq_ok]
    constructor
    · rintro ⟨id, hid, createdAt, hcreated, updatedAt, hupdated, heq⟩
      cases heq
      cases row
      simp only at hid hcreated hupdated
      rw [hid, hcreated, hupdated]
      rfl
    · rintro rfl
      exact ⟨_, rfl, _, rfl, _, rfl, rfl⟩
  rw [buildImportChecksum, Outcome.bind_eq_ok]
  simp only [Outcome.mapM_eq_ok_iff hrow]
  constructor
  · rintro ⟨exportRows, hrows, heq⟩
    cases heq
    exact ⟨exportRows, hrows, rfl⟩
  · rintro ⟨exportRows, hrows, rfl⟩
    exact ⟨exportRows, hrows, rfl⟩

/-- The table a restore is sent to is the exported one, up to its definition. -/
structure RestoreSetting (pf : Platform) (db : Db) (claims : Claims) (tableName : String)
    (table current : LoadedTable) : Prop where
  wellFormed : WellFormed pf db.core
  admin : claims.isAdmin = true
  loaded : loadTable pf db claims.appId tableName = some current
  restored : current.restored table.detail.restoreSpec = table
  name_ok : validateTableName table.name = .ok ()
  display_ok : trim table.displayName ≠ ""
  schema_ok : validateSchema pf table.schema = .ok ()
  policy_ok : validateAccessPolicy table.accessPolicy = .ok ()

/-- What the restore of an export is about to do. -/
def restorePlan (db : Db) (current table : LoadedTable) : ImportPlan :=
  { table := current, replace := true, dryRun := false
    restore := some table.detail.restoreSpec
    existingRowCount := countTableRows db current.id
    schemaChanges := schemaDiffPreview current.schema table.schema }

namespace RestoreSetting

variable {pf : Platform} {db : Db} {claims : Claims} {tableName : String}
  {table current : LoadedTable}

theorem effectiveTable (h : RestoreSetting pf db claims tableName table current) :
    (restorePlan db current table).effectiveTable = table :=
  h.restored

theorem id_eq (h : RestoreSetting pf db claims tableName table current) :
    table.id = current.id := by
  rw [← h.restored]
  rfl

end RestoreSetting

/-! ### The rows of a restore -/

variable {claims : Claims} {table : LoadedTable}

section Whole

variable {pf : Platform} {before db : Db} {env : Env} {claims : Claims} {tableName : String}
  {table current : LoadedTable} {planned : List DataRow}

variable {records : List DataRow}

end Whole

/-- The stored note. -/
def oldNote : DataRow :=
  { id := "old", appId := "default", tableId := "t0", ownerUserId := none, data := note "old"
    createdAt := "2026-01-01 00:00:00", updatedAt := "2026-01-01 00:00:00" }

end Peanut
