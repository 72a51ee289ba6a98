import Peanut.Data.Export
import Peanut.Data.ExpandAccess

/-!
# Required fields of stored rows

A row gets the defaults of its table when it is written.  When a new schema is
put in force the stored rows are only checked: `validate_rows_against_schema`
normalises every one of them and drops the result, and no read fills a default
in.  This module follows the runs of the data plane and says exactly in which of
them every row that is read has a value for every required field.
-/

namespace Peanut

open Relational

/-- The document has a value for every field the schema requires. -/
def Filled (schema : DataTableSchema) (data : Value) : Prop :=
  ∀ e ∈ schema.fields.entries, e.2.required = true → (data.member e.1).isSome = true

/-- Every stored row has the required fields of its table. -/
def RowsFilled (c : DataCore) : Prop :=
  ∀ r ∈ c.rows, ∀ t ∈ c.tables, t.id = r.tableId → Filled t.schema r.data

/-- **Required fields are visible**: every row that `get_row`, `list_rows` or
    `export_table` returns has the required fields of the schema in force. -/
structure RequiredVisible (pf : Platform) (engine : Sqlite) (db : Db) : Prop where
  getRow : ∀ claims tableName rowId params reply table,
    loadTable pf db claims.appId tableName = some table →
    getRow pf db claims tableName rowId params = .ok reply → Filled table.schema reply.body.data
  listRows : ∀ claims tableName params reply table,
    loadTable pf db claims.appId tableName = some table →
    listRows pf engine db claims tableName params = .ok reply →
    ∀ row ∈ reply.body.rows, Filled table.schema row.data
  exportTable : ∀ claims tableName reply table,
    loadTable pf db claims.appId tableName = some table →
    exportTable pf db claims tableName = .ok reply →
    ∀ row ∈ reply.body.rows, Filled table.schema row.data

/-- A request that puts a schema in force over rows that stay finds the fields it
    requires in each of them.  A refused request puts nothing in force. -/
def RequiredAlreadyStored (pf : Platform) (db : Db) : DataRequest → Prop
  | .updateTable _ claims tableName payload =>
      ∀ existing updated,
        updateTableChecks pf db claims tableName payload = .ok (existing, updated) →
        ∀ r ∈ db.dataRows, r.tableId = existing.id → Filled updated.schema r.data
  | .importRows _ claims tableName payload =>
      ∀ plan spec, importChecks pf db claims tableName payload = .ok plan →
        plan.dryRun = false → plan.replace = false → plan.restore = some spec →
        ¬ RestoreRefused pf db plan →
        ∀ r ∈ db.dataRows, r.tableId = plan.table.id → Filled spec.schema r.data
  | _ => True

/-! ### Documents -/

theorem filled_normalizeRowData {pf : Platform} {schema : DataTableSchema} {data o : Value}
    (h : normalizeRowData pf schema data false = .ok o) : Filled schema o := by
  obtain ⟨m, out, rfl, rfl, hlookup⟩ := normalizeRowData_lookup h
  obtain ⟨m', hm, -, hfits⟩ := normalizeRowData_succeeds.mp ⟨_, h⟩
  cases hm
  intro e he hrequired
  have hspec : schema.fields.get? e.1 = some e.2 := schema.fields.get?_of_mem he
  have hout : out.get? e.1 = (m.get? e.1).or e.2.default := by rw [hlookup e.1, hspec]
  show (out.get? e.1).isSome = true
  rw [hout, Option.isSome_or]
  have hfit := hfits e he
  cases hget : m.get? e.1 with
  | some v => rfl
  | none =>
    rw [hget, fieldFits_none, hrequired] at hfit
    rcases hfit with hdefault | hoptional
    · exact hdefault
    · cases hoptional

theorem Filled.respond {pf : Platform} {db : Db} {table : LoadedTable} {expand : Option String}
    {record : DataRow} {row : DataRowResponse} (h : Filled table.schema record.data)
    (hrow : respondRow pf db table expand record = .ok row) : Filled table.schema row.data := by
  cases expand with
  | none =>
    cases hrow
    exact h
  | some expand =>
    obtain ⟨fields, m, -, hdata, rfl⟩ := respondRow_expand.mp hrow
    intro e he hrequired
    have hstored := h e he hrequired
    rw [hdata] at hstored
    have hanswer := @expandedFrom_foldl pf db table.appId table.schema m fields
    rcases hanswer e.1 with hkept | ⟨field, -, -, relatedTable, relatedId, -, hexpanded⟩
    · exact (congrArg Option.isSome hkept).trans hstored
    · exact congrArg Option.isSome hexpanded

/-! ### What is read is what is stored -/

/-- The rows that are read show their required fields exactly if the stored rows
    have them: an administrator can export every table. -/
theorem requiredVisible_iff {pf : Platform} {engine : Sqlite} {db : Db}
    (hwf : WellFormed pf db.core) : RequiredVisible pf engine db ↔ RowsFilled db.core := by
  constructor
  · intro h r hr t ht hid
    let admin : Claims := { sub := "", appId := t.appId, exp := 0, isAdmin := true }
    have hload : loadTable pf db admin.appId t.name = some t := loadTable_stored hwf ht
    have hexport := exportTable_eq_ok.mpr ⟨rfl, t, hload, rfl⟩
    refine h.exportTable admin t.name _ t hload hexport (.ofRecord r) ?_
    exact List.mem_map.mpr ⟨r, mem_exportedRows.mpr ⟨hr, hwf.row_app hr ht hid, hid.symm⟩, rfl⟩
  · intro h
    have hstored : ∀ appId tableName table, loadTable pf db appId tableName = some table →
        ∀ r ∈ db.dataRows, r.tableId = table.id → Filled table.schema r.data :=
      fun appId tableName table hload r hr hid => h r hr table (loadTable_some hload).1 hid.symm
    refine ⟨?_, ?_, ?_⟩
    · intro claims tableName rowId params reply table hload hget
      simp only [getRow, Outcome.bind_eq_ok] at hget
      obtain ⟨⟨t, r⟩, hrow, response, hresponse, heq⟩ := hget
      cases heq
      obtain ⟨ht, hr, -⟩ := requireRow_eq_ok.mp hrow
      cases hload.symm.trans ht
      obtain ⟨hr, htable, -⟩ := loadRow_eq_some.mp hr
      exact (hstored _ _ _ hload r hr htable).respond hresponse
    · intro claims tableName params reply table hload hlist row hrow
      simp only [listRows, requireTable, executeListRows, Outcome.bind_eq_ok,
        Outcome.require_eq_ok] at hlist
      obtain ⟨t, ht, _, -, _, -, rows, hrows, heq⟩ := hlist
      cases heq
      cases hload.symm.trans ht
      obtain ⟨r, hpage, hresponse⟩ := Outcome.exists_of_mem_mapM hrows row hrow
      have hfound := (engine.orderBy_perm _ _).mem_iff.mp (mem_of_mem_pageOf hpage)
      obtain ⟨hr, htable, -⟩ := matchingRows_table hfound
      exact (hstored _ _ _ hload r hr htable).respond hresponse
    · intro claims tableName reply table hload hexport row hrow
      obtain ⟨-, t, ht, rfl⟩ := exportTable_eq_ok.mp hexport
      cases hload.symm.trans ht
      obtain ⟨r, hr, rfl⟩ := List.mem_map.mp hrow
      obtain ⟨hr, -, htable⟩ := mem_exportedRows.mp hr
      exact hstored _ _ _ hload r hr htable

/-! ### One statement -/

namespace RowsFilled

variable {c : DataCore}

theorem createTable {pf : Platform} (h : RowsFilled c) (hwf : WellFormed pf c) {t : LoadedTable}
    {tables : KeyedTable LoadedTable (·.id)} (hins : c.tables.insert? t = some tables) :
    RowsFilled { c with tables := tables } := by
  intro r hr s hs hid
  rcases (KeyedTable.mem_insert? hins).mp hs with hold | rfl
  · exact h r hr s hold hid
  · obtain ⟨t', ht', hid', -⟩ := hwf.row_table r hr
    have hused : c.tables.hasKey s.id = true :=
      KeyedTable.hasKey_iff.mpr ⟨t', ht', hid'.trans hid.symm⟩
    rw [(KeyedTable.insert?_eq_some.mp hins).1] at hused
    cases hused

/-- The rows of the redefined table are asked about again, the others are as they
    were. -/
theorem redefineTable_iff (h : RowsFilled c) {t : LoadedTable} (ht : t ∈ c.tables)
    {displayName : String} {schema : DataTableSchema} {accessPolicy : AccessPolicy} :
    RowsFilled (c.redefineTable t.id displayName schema accessPolicy) ↔
      ∀ r ∈ c.rows, r.tableId = t.id → Filled schema r.data := by
  constructor
  · intro hnew r hr hid
    have hmem : t.redefine displayName schema accessPolicy ∈
        (c.redefineTable t.id displayName schema accessPolicy).tables :=
      DataCore.mem_redefineTable.mpr ⟨t, ht, by simp⟩
    exact hnew r hr _ hmem hid.symm
  · intro hrows r hr s hs hid
    obtain ⟨s', hs', rfl⟩ := DataCore.mem_redefineTable.mp hs
    by_cases hsame : s'.id = t.id
    · rw [if_pos (by simpa using hsame)] at hid ⊢
      exact hrows r hr (hid.symm.trans hsame)
    · rw [if_neg (by simpa using hsame)] at hid ⊢
      exact h r hr s' hs' hid

theorem deleteTables (h : RowsFilled c) (p : LoadedTable → Bool) : RowsFilled (c.deleteTables p) :=
  fun r hr t ht => h r (DataCore.mem_deleteTables_rows.mp hr).1 t
    (KeyedTable.mem_deleteWhere.mp ht).1

theorem deleteRows (h : RowsFilled c) (p : DataRow → Bool) : RowsFilled (c.deleteRows p) :=
  fun r hr => h r (KeyedTable.mem_deleteWhere.mp hr).1

theorem insertRow_iff {t : LoadedTable} {r : DataRow} {rows : KeyedTable DataRow (·.id)}
    (ht : t ∈ c.tables) (hid : r.tableId = t.id) (hfilled : Filled t.schema r.data)
    (hins : c.rows.insert? r = some rows) :
    RowsFilled { c with rows := rows } ↔ RowsFilled c := by
  constructor
  · intro h s hs
    exact h s ((KeyedTable.mem_insert? hins).mpr (.inl hs))
  · intro h s hs t' ht' hid'
    rcases (KeyedTable.mem_insert? hins).mp hs with hold | rfl
    · exact h s hold t' ht' hid'
    · rw [c.tables.eq_of_key_eq ht' ht (hid'.trans hid)]
      exact hfilled

theorem rewriteRow (h : RowsFilled c) {t : LoadedTable} (ht : t ∈ c.tables) {data : Value}
    (hfilled : Filled t.schema data) (rowId now : String) :
    RowsFilled (c.rewriteRow rowId t.id data now) := by
  intro s hs t' ht' hid
  obtain ⟨r, hr, rfl⟩ := DataCore.mem_rewriteRow.mp hs
  split at hid
  · rename_i hmatch
    rw [if_pos hmatch]
    simp only [Bool.and_eq_true, beq_iff_eq] at hmatch
    rw [c.tables.eq_of_key_eq ht' ht (hid.trans hmatch.2)]
    exact hfilled
  · rename_i hother
    rw [if_neg hother]
    exact h r hr t' ht' hid

theorem deleteUser (h : RowsFilled c) (userId : String) : RowsFilled (c.deleteUser userId) := by
  intro s hs t ht hid
  obtain ⟨r, hr, rfl⟩ := DataCore.mem_deleteUser_rows.mp hs
  have hbase := h.deleteTables (fun t => t.createdBy == userId) r hr t ht
  split at hid
  · rename_i howned
    rw [if_pos howned]
    exact hbase hid
  · rename_i hother
    rw [if_neg hother]
    exact hbase hid

end RowsFilled

/-! ### One request -/

section Requests

variable {pf : Platform} {db : Db}

theorem createTable_filled (hwf : WellFormed pf db.core) (h : RowsFilled db.core) (env : Env)
    (claims : Claims) (payload : CreateTableRequest) :
    RowsFilled (createTable pf db env claims payload).1.core := by
  unfold createTable
  refine Outcome.proceed_rule (P := fun s : Db => RowsFilled s.core) h ?_
  intro name _
  dsimp only
  split
  · exact h
  · rename_i db' hinsert
    obtain ⟨-, -, tables, hins, rfl⟩ := Db.insertDataTable_eq_some.mp hinsert
    have hafter : RowsFilled ({ db with dataTables := tables } : Db).core := h.createTable hwf hins
    split
    · exact hafter
    · rw [recordAuditLog_core]
      exact hafter

theorem updateTable_core {env : Env} {claims : Claims} {tableName : String}
    {payload : UpdateTableRequest} {existing updated : LoadedTable}
    (h : updateTableChecks pf db claims tableName payload = .ok (existing, updated)) :
    (updateTable pf db env claims tableName payload).1.core =
      db.core.redefineTable existing.id updated.displayName updated.schema
        updated.accessPolicy := by
  unfold updateTable
  rw [h, Outcome.proceed_ok]
  dsimp only
  split
  · rfl
  · rw [recordAuditLog_core]
    rfl

theorem updateTable_filled_iff (h : RowsFilled db.core) (env : Env) (claims : Claims)
    (tableName : String) (payload : UpdateTableRequest) :
    RowsFilled (updateTable pf db env claims tableName payload).1.core ↔
      RequiredAlreadyStored pf db (.updateTable env claims tableName payload) := by
  simp only [RequiredAlreadyStored]
  cases hchecks : updateTableChecks pf db claims tableName payload with
  | error e =>
    have hstop : (updateTable pf db env claims tableName payload).1 = db := by
      rw [updateTable, hchecks, Outcome.proceed_error]
    rw [hstop]
    exact iff_of_true h fun existing updated heq => by cases heq
  | ok found =>
    obtain ⟨existing, updated⟩ := found
    obtain ⟨hload, -⟩ := updateTableChecks_ok hchecks
    rw [updateTable_core hchecks, h.redefineTable_iff (loadTable_some hload).1]
    constructor
    · intro hrows existing' updated' heq
      cases heq
      exact hrows
    · intro hrows
      exact hrows existing updated rfl

theorem createRow_filled (h : RowsFilled db.core) (env : Env) (claims : Claims)
    (tableName : String) (payload : CreateRowRequest) :
    RowsFilled (createRow pf db env claims tableName payload).1.core := by
  unfold createRow
  refine Outcome.proceed_rule (P := fun s : Db => RowsFilled s.core) h ?_
  rintro ⟨table, workspaceId, normalized⟩ hchecks
  simp only [createRowChecks, requireTable, Outcome.bind_eq_ok, Outcome.require_eq_ok,
    badRequest_eq_ok] at hchecks
  obtain ⟨t, hload, _, -, w, -, data, hnorm, heq⟩ := hchecks
  cases heq
  dsimp only
  split
  · exact h
  · rename_i db' hinsert
    obtain ⟨-, -, rows, hins, rfl⟩ := Db.insertDataRow_eq_some.mp hinsert
    have hnew : RowsFilled { db.core with rows := rows } :=
      (RowsFilled.insertRow_iff (loadTable_some hload).1 rfl (filled_normalizeRowData hnorm)
        hins).mpr h
    split
    · simp only [recordAuditLog_core, logRowEvent_core, recordUsage_core]
      exact hnew
    · simp only [recordAuditLog_core, logRowEvent_core, recordUsage_core]
      exact hnew

theorem updateRow_filled (h : RowsFilled db.core) (env : Env) (claims : Claims)
    (tableName rowId : String) (payload : CreateRowRequest) :
    RowsFilled (updateRow pf db env claims tableName rowId payload).1.core := by
  unfold updateRow
  refine Outcome.proceed_rule (P := fun s : Db => RowsFilled s.core) h ?_
  rintro ⟨table, existing, normalized⟩ hchecks
  obtain ⟨hrow, merged, hnorm⟩ := updateRowChecks_ok hchecks
  obtain ⟨htable, -, -⟩ := loadTable_some (requireRow_eq_ok.mp hrow).1
  have hnew := h.rewriteRow htable (filled_normalizeRowData hnorm) rowId env.now
  dsimp only
  split
  · simp only [recordAuditLog_core, logRowEvent_core]
    exact hnew
  · simp only [recordAuditLog_core, logRowEvent_core]
    exact hnew

theorem deleteTable_filled (h : RowsFilled db.core) (env : Env) (claims : Claims)
    (tableName : String) : RowsFilled (deleteTable pf db env claims tableName).1.core := by
  unfold deleteTable
  refine Outcome.proceed_rule (P := fun s : Db => RowsFilled s.core) h ?_
  intro existing _
  dsimp only
  rw [recordAuditLog_core]
  exact h.deleteTables fun t => t.id == existing.id

theorem deleteRow_filled (h : RowsFilled db.core) (env : Env) (claims : Claims)
    (tableName rowId : String) :
    RowsFilled (deleteRow pf db env claims tableName rowId).1.core := by
  unfold deleteRow
  refine Outcome.proceed_rule (P := fun s : Db => RowsFilled s.core) h ?_
  rintro ⟨table, existing⟩ _
  dsimp only
  simp only [recordAuditLog_core, logRowEvent_core]
  exact h.deleteRows fun r => r.id == rowId && r.tableId == table.id

theorem registerForApp_filled (h : RowsFilled db.core) (env : Env) (appId : String)
    (payload : Credentials) : RowsFilled (registerForApp pf db env appId payload).1.core := by
  unfold registerForApp
  refine Outcome.proceed_rule (P := fun s : Db => RowsFilled s.core) h ?_
  rintro ⟨workspaceId, passwordHash⟩ _
  dsimp only
  split
  · exact h
  · rename_i db' hinsert
    obtain ⟨users, -, rfl⟩ := Db.insertUser_eq_some hinsert
    rw [recordAuthEvent_core, recordUsage_core]
    exact h

theorem createAdminUser_filled (h : RowsFilled db.core) (env : Env) (claims : Claims)
    (appId : String) (payload : CreateAdminUserRequest) :
    RowsFilled (createAdminUser pf db env claims appId payload).1.core := by
  unfold createAdminUser
  refine Outcome.proceed_rule (P := fun s : Db => RowsFilled s.core) h ?_
  rintro ⟨claims', workspaceId, passwordHash⟩ _
  dsimp only
  split
  · exact h
  · rename_i db' hinsert
    obtain ⟨users, -, rfl⟩ := Db.insertUser_eq_some hinsert
    rw [recordAuthEvent_core, recordUsage_core]
    exact h

theorem deleteAdminUser_filled (h : RowsFilled db.core) (env : Env) (claims : Claims)
    (appId userId : String) :
    RowsFilled (deleteAdminUser db env claims appId userId).1.core := by
  unfold deleteAdminUser
  refine Outcome.proceed_rule (P := fun s : Db => RowsFilled s.core) h ?_
  rintro ⟨claims', user⟩ _
  dsimp only
  split
  · exact h
  · exact h
  · rename_i n db' hne hdelete
    rw [recordAuthEvent_core]
    cases n with
    | zero => exact (hne rfl).elim
    | succ n =>
      rw [deleteUser_core hdelete]
      exact h.deleteUser userId

theorem insertStage_filled_iff {env : Env} {claims : Claims} {table : LoadedTable}
    (rows : List ImportRowRequest) :
    ∀ (n : Nat) (db : Db), table ∈ db.core.tables →
      (RowsFilled (insertStage pf env claims table n rows db).1.core ↔ RowsFilled db.core) := by
  induction rows with
  | nil => intro n db _; exact Iff.rfl
  | cons row rest ih =>
    intro n db htable
    rw [insertStage]
    refine Outcome.proceed_rule (P := fun s : Db => RowsFilled s.core ↔ RowsFilled db.core)
      Iff.rfl ?_
    intro planned hplanned
    obtain ⟨hid, -, hnorm⟩ := planRow_ok hplanned
    split
    · exact Iff.rfl
    · rename_i db' hinsert
      obtain ⟨-, -, rows', hins, rfl⟩ := Db.insertDataRow_eq_some.mp hinsert
      have hlog := logRowEvent_core { db with dataRows := rows' } env claims.appId table.id
        planned.id claims.sub "insert" (some planned.data)
      have hone : RowsFilled { db.core with rows := rows' } ↔ RowsFilled db.core :=
        RowsFilled.insertRow_iff htable hid (filled_normalizeRowData hnorm) hins
      refine (ih (n + 1) _ ?_).trans ?_
      · rw [hlog]
        exact htable
      · rw [hlog]
        exact hone

theorem importRows_filled_iff (hwf : WellFormed pf db.core) (h : RowsFilled db.core) (env : Env)
    (claims : Claims) (tableName : String) (payload : TableImportRequest) :
    RowsFilled (importRows pf db env claims tableName payload).1.core ↔
      RequiredAlreadyStored pf db (.importRows env claims tableName payload) := by
  simp only [RequiredAlreadyStored]
  unfold importRows
  cases hchecks : importChecks pf db claims tableName payload with
  | error e => exact iff_of_true h fun plan spec heq => by cases heq
  | ok plan =>
    obtain ⟨hload, -, hspec, -⟩ := importChecks_ok hchecks
    obtain ⟨htable, happ, -⟩ := loadTable_some hload
    -- the condition is about this plan
    have hcond : (∀ plan' spec, (.ok plan : Except ApiError ImportPlan) = .ok plan' →
        plan'.dryRun = false → plan'.replace = false → plan'.restore = some spec →
        ¬ RestoreRefused pf db plan' →
        ∀ r ∈ db.dataRows, r.tableId = plan'.table.id → Filled spec.schema r.data) ↔
        (plan.dryRun = false → plan.replace = false → ¬ RestoreRefused pf db plan →
          ∀ spec, plan.restore = some spec →
            ∀ r ∈ db.dataRows, r.tableId = plan.table.id → Filled spec.schema r.data) := by
      constructor
      · intro hall hdry hreplace hkept spec hrestore
        exact hall plan spec rfl hdry hreplace hrestore hkept
      · rintro hone plan' spec ⟨⟩ hdry hreplace hrestore hkept
        exact hone hdry hreplace hkept spec hrestore
    rw [hcond, Outcome.proceed_ok]
    dsimp only
    split
    · rename_i hdry
      exact iff_of_true h fun hnot => by rw [hdry] at hnot; cases hnot
    · rename_i hdry
      have hclear : RowsFilled (clearStage db claims plan).core := by
        unfold clearStage
        split
        · exact h.deleteRows (importClears claims plan.table)
        · exact h
      have hmem : plan.table ∈ (clearStage db claims plan).core.tables := by
        unfold clearStage
        split <;> exact htable
      rcases restoreStage_outcome hwf htable happ hspec with ⟨hrefused, e, hout⟩ | ⟨hkept, hout⟩
      · rw [hout]
        exact iff_of_true h fun _ _ hnot => absurd hrefused hnot
      · rw [hout, Outcome.proceed_ok]
        have heffective : plan.effectiveTable ∈
            (restoredDb (clearStage db claims plan) plan).core.tables := by
          unfold restoredDb ImportPlan.effectiveTable
          cases plan.restore with
          | none => exact hmem
          | some spec =>
            exact DataCore.mem_redefineTable.mpr ⟨plan.table, hmem, by simp [LoadedTable.restored]⟩
        refine (insertStage_filled_iff payload.rows 0 _ heffective).trans ?_
        unfold restoredDb
        split
        · rename_i spec hrestore
          refine (hclear.redefineTable_iff hmem).trans ?_
          constructor
          · intro hrows _ hreplace _ spec' hrestore' r hr hid
            cases hrestore.symm.trans hrestore'
            refine hrows r ((mem_clearStage hwf htable happ).mpr ⟨hr, ?_⟩) hid
            rw [hreplace]
            rintro ⟨⟨⟩, -⟩
          · intro hrows r hr hid
            obtain ⟨hr, hstays⟩ := (mem_clearStage hwf htable happ).mp hr
            have hreplace : plan.replace = false := by
              rw [← Bool.not_eq_true]
              exact fun hreplace => hstays ⟨hreplace, hid⟩
            exact hrows (by simpa using hdry) hreplace hkept spec hrestore r hr hid
        · rename_i hrestore
          refine iff_of_true hclear fun _ _ _ spec hsome => ?_
          rw [hrestore] at hsome
          cases hsome

end Requests

/-- **One request.**  The stored rows keep their required fields exactly if the
    request finds them in the rows it puts a schema in force over. -/
theorem handleDataRequest_filled_iff {pf : Platform} {db : Db} (hwf : WellFormed pf db.core)
    (h : RowsFilled db.core) (request : DataRequest) :
    RowsFilled (handleDataRequest pf db request).core ↔ RequiredAlreadyStored pf db request := by
  cases request with
  | createTable env claims payload =>
    exact iff_of_true (createTable_filled hwf h env claims payload) trivial
  | updateTable env claims table payload =>
    exact updateTable_filled_iff h env claims table payload
  | deleteTable env claims table =>
    exact iff_of_true (deleteTable_filled h env claims table) trivial
  | createRow env claims table payload =>
    exact iff_of_true (createRow_filled h env claims table payload) trivial
  | updateRow env claims table rowId payload =>
    exact iff_of_true (updateRow_filled h env claims table rowId payload) trivial
  | deleteRow env claims table rowId =>
    exact iff_of_true (deleteRow_filled h env claims table rowId) trivial
  | importRows env claims table payload =>
    exact importRows_filled_iff hwf h env claims table payload
  | registerForApp env appId payload =>
    exact iff_of_true (registerForApp_filled h env appId payload) trivial
  | createAdminUser env claims appId payload =>
    exact iff_of_true (createAdminUser_filled h env claims appId payload) trivial
  | deleteAdminUser env claims appId userId =>
    exact iff_of_true (deleteAdminUser_filled h env claims appId userId) trivial

/-! ### Whole runs -/

/-- **Required fields are visible throughout a run exactly if** every request that
    puts a schema in force over stored rows finds the required fields in them. -/
theorem required_fields_visible_iff (pf : Platform) (engine : Sqlite) (db : Db)
    (requests : List DataRequest) :
    (∀ before after, requests = before ++ after →
        RequiredVisible pf engine (runData pf db before)) ↔
      ∀ before request after, requests = before ++ request :: after →
        RequiredAlreadyStored pf (runData pf db before) request := by
  have hinv : ∀ s r, WellFormed pf s.core → (fun (_ : Db) (_ : DataRequest) => True) s r →
      WellFormed pf (handleDataRequest pf s r).core :=
    fun s r hwf _ => hwf.steps (handleDataRequest_steps hwf r)
  have hstep : ∀ s r, WellFormed pf s.core → (fun (_ : Db) (_ : DataRequest) => True) s r →
      RequiredVisible pf engine s →
      (RequiredVisible pf engine (handleDataRequest pf s r) ↔ RequiredAlreadyStored pf s r) := by
    intro s r hwf _ hvisible
    rw [requiredVisible_iff (hinv s r hwf trivial)]
    exact handleDataRequest_filled_iff hwf ((requiredVisible_iff hwf).mp hvisible) r
  have hstart : RequiredVisible pf engine db.withoutData :=
    (requiredVisible_iff (wellFormed_withoutData pf db)).mpr
      fun r hr => absurd hr (KeyedTable.not_mem_empty r)
  exact Transition.good_iff_admissible_of_allowed hinv hstep (wellFormed_withoutData pf db) hstart
    fun _ _ _ _ => trivial

/-! ### A field that becomes required -/

/-- The notes, with a field `done` that every note must have. -/
def doneSchema : DataTableSchema :=
  { fields := ⟨[
      ("done", { fieldType := .boolean, required := true, default := some (.bool false) }),
      ("title", { fieldType := .string })], by decide⟩ }

/-- A note is stored; then `done` becomes a required field with a default. -/
def doneRun : List DataRequest :=
  notesRun ++ [.updateTable (sampleEnv "u") root "notes" { schema := some doneSchema }]

/-- The update is accepted, and the note is read without the field. -/
theorem old_note_lacks_done :
    ¬ ∀ before after, doneRun = before ++ after →
      RequiredVisible asciiPlatform insertionOrder (runData asciiPlatform rootDb before) := by
  intro h
  let db := runData asciiPlatform rootDb doneRun
  have hread : ∃ table ∈ db.dataTables.rows, ∃ row ∈ db.dataRows.rows,
      loadTable asciiPlatform db root.appId "notes" = some table ∧ table.schema = doneSchema ∧
        loadRow db table.id "old" = some row ∧
        canAccessRow root table.accessPolicy row.ownerUserId .read = true ∧
        row.data = note "old" := by
    decide +kernel
  obtain ⟨table, -, row, -, hload, hschema, hrow, haccess, hdata⟩ := hread
  have hget : getRow asciiPlatform db root "notes" "old" {} =
      .ok { status := .ok, body := .ofRecord row } := by
    rw [getRow, requireRow_eq_ok.mpr ⟨hload, hrow, haccess⟩]
    rfl
  have hfilled := (h doneRun [] (by simp)).getRow root "notes" "old" {} _ table hload hget
  rw [hschema, show (DataRowResponse.ofRecord row).data = note "old" from hdata] at hfilled
  have hdone := hfilled ("done", { fieldType := .boolean, required := true
                                   default := some (.bool false) }) (by simp [doneSchema]) rfl
  revert hdone
  decide

end Peanut
