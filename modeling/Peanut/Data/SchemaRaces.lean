import Peanut.Data.LostUpdates

/-!
# Schema changes against row writes

A row writer checks its data against the definition it has loaded, and a schema
change checks its schema against the rows it has loaded.  Neither check is
repeated at the write.  Here requests of all four kinds interleave in one pool.

A request is sound when its checks still hold of the store: the definition it
has loaded has the stored schema, and the rows fit the schema it has validated.
The statement of a sound request is a `DataStep`, so the invariants of the data
plane survive it; what has to be asked of a schedule is that no statement
invalidates the checks of another request.
-/

namespace Peanut

open Relational Interleaving

inductive TableCall where
  | createRow (c : CreateRowCall)
  | updateRow (c : UpdateRowCall)
  | updateTable (c : UpdateTableCall)
  | importRows (c : ImportRowsCall)

/-! ### What a request has checked -/

/-- The definition a row is going to be checked against or has been checked
    against, until the last row is written. -/
def CreateRowStage.loaded : CreateRowStage → Option LoadedTable
  | .tableLoaded table => some table
  | .workspaceFound table _ => some table
  | .counted table _ _ => some table
  | .checked table _ _ => some table
  | _ => none

def UpdateRowStage.loaded : UpdateRowStage → Option LoadedTable
  | .tableLoaded table => some table
  | .merged table _ _ => some table
  | _ => none

/-- An import that restores the definition loads it again before it inserts. -/
def ImportRowsCall.loaded (c : ImportRowsCall) : Option LoadedTable :=
  match c.stage with
  | .tableLoaded table => if c.payload.restoreTable.getD false then none else some table
  | .planned plan => if plan.restore.isSome then none else some plan.table
  | .cleared plan => if plan.restore.isSome then none else some plan.table
  | .inserting _ table _ _ => some table
  | .rowInserted _ table _ _ _ => some table
  | _ => none

namespace TableCall

def step (pf : Platform) (env : Env) (db : Db) : TableCall → Db × TableCall
  | .createRow c => Prod.map id .createRow (c.step pf env db)
  | .updateRow c => Prod.map id .updateRow (c.step pf env db)
  | .updateTable c => Prod.map id .updateTable (c.step pf env db)
  | .importRows c => Prod.map id .importRows (c.step pf env db)

def claims : TableCall → Claims
  | .createRow c => c.claims
  | .updateRow c => c.claims
  | .updateTable c => c.claims
  | .importRows c => c.claims

/-- Nothing has been executed yet. -/
def Received : TableCall → Prop
  | .createRow c => c.stage = .received
  | .updateRow c => c.stage = .received
  | .updateTable c => c.stage = .received
  | .importRows c => c.stage = .received

/-- The request has been answered with success. -/
def succeeded : TableCall → Bool
  | .createRow c => c.reply.any Outcome.succeeded
  | .updateRow c => c.reply.any Outcome.succeeded
  | .updateTable c => c.reply.any Outcome.succeeded
  | .importRows c => c.reply.any Outcome.succeeded

/-- The definition the rows still to be written are checked against. -/
def loaded : TableCall → Option LoadedTable
  | .createRow c => c.stage.loaded
  | .updateRow c => c.stage.loaded
  | .updateTable _ => none
  | .importRows c => c.loaded

/-- Row data that has been normalised and not been written. -/
def ready : TableCall → Option (LoadedTable × Value)
  | .createRow { stage := .checked table _ normalized, .. } => some (table, normalized)
  | .updateRow { stage := .merged table _ normalized, .. } => some (table, normalized)
  | _ => none

/-- A definition that has passed its own checks. -/
def proposed : TableCall → Option (DataTableSchema × AccessPolicy)
  | .updateTable { stage := .tableLoaded _ updated, .. } =>
      some (updated.schema, updated.accessPolicy)
  | .updateTable { stage := .counted _ updated, .. } => some (updated.schema, updated.accessPolicy)
  | .updateTable { stage := .validated _ updated, .. } =>
      some (updated.schema, updated.accessPolicy)
  | .importRows { stage := .restoreCounted _ spec, .. } => some (spec.schema, spec.accessPolicy)
  | .importRows { stage := .restoreValidated _ spec, .. } => some (spec.schema, spec.accessPolicy)
  | _ => none

/-- The table and the schema its rows have been validated against; the next
    statement stores the schema. -/
def validated : TableCall → Option (String × DataTableSchema)
  | .updateTable { stage := .validated existing updated, .. } => some (existing.id, updated.schema)
  | .importRows { stage := .restoreValidated plan spec, .. } => some (plan.table.id, spec.schema)
  | _ => none

/-- The table and the data of the row the next statement writes. -/
def rowWrite (pf : Platform) (env : Env) : TableCall → Option (String × Value)
  | .createRow { stage := .checked table _ normalized, .. } => some (table.id, normalized)
  | .updateRow { stage := .merged table _ normalized, .. } => some (table.id, normalized)
  | .importRows { claims := claims, stage := .inserting _ table n (row :: _), .. } =>
      match planRow pf env claims table n row with
      | .ok planned => some (table.id, planned.data)
      | .error _ => none
  | _ => none

/-- The definition has the schema that is stored. -/
def Current (db : Db) (claims : Claims) (table : LoadedTable) : Prop :=
  table.appId = claims.appId ∧
    ∃ s ∈ db.dataTables, s.id = table.id ∧ s.appId = table.appId ∧ s.schema = table.schema

/-- The checks of the request hold of the store. -/
structure Sound (pf : Platform) (db : Db) (c : TableCall) : Prop where
  loaded : ∀ table, c.loaded = some table → Current db c.claims table
  ready : ∀ table data, c.ready = some (table, data) → Conforms pf table.schema data
  proposed : ∀ schema policy, c.proposed = some (schema, policy) →
    validateSchema pf schema = .ok () ∧ validateAccessPolicy policy = .ok ()
  validated : ∀ tableId schema, c.validated = some (tableId, schema) →
    ∀ r ∈ db.dataRows, r.tableId = tableId → Conforms pf schema r.data

variable {pf : Platform} {env : Env} {db : Db} {c : TableCall}

variable {tableName : String} {table : LoadedTable}

theorem Current.of_loadTable {claims : Claims}
    (h : loadTable pf db claims.appId tableName = some table) : Current db claims table := by
  obtain ⟨hmem, happ, -⟩ := loadTable_some h
  exact ⟨happ, table, hmem, rfl, rfl, rfl⟩

variable {db' : Db}

theorem Current.of_tables {claims : Claims}
    (h : Current db claims table) (htables : db'.dataTables = db.dataTables) :
    Current db' claims table := by
  unfold Current
  rw [htables]
  exact h

theorem Current.schema_ok {claims : Claims} (h : Current db claims table)
    (hwf : WellFormed pf db.core) : validateSchema pf table.schema = .ok () := by
  obtain ⟨-, s, hs, -, -, hschema⟩ := h
  rw [← hschema]
  exact hwf.schema_ok s hs

theorem Sound.of_none (hloaded : c.loaded = none) (hready : c.ready = none)
    (hproposed : c.proposed = none) (hvalidated : c.validated = none) : Sound pf db c where
  loaded := fun _ h => (Option.eq_none_iff_forall_ne_some.mp hloaded _ h).elim
  ready := fun _ _ h => (Option.eq_none_iff_forall_ne_some.mp hready _ h).elim
  proposed := fun _ _ h => (Option.eq_none_iff_forall_ne_some.mp hproposed _ h).elim
  validated := fun _ _ h => (Option.eq_none_iff_forall_ne_some.mp hvalidated _ h).elim

theorem Sound.of_loaded (hloaded : c.loaded = some table)
    (hready : c.ready = none) (hproposed : c.proposed = none) (hvalidated : c.validated = none)
    (h : Current db c.claims table) : Sound pf db c where
  loaded := by
    intro table' htable'
    rw [hloaded] at htable'
    cases htable'
    exact h
  ready := fun _ _ h => (Option.eq_none_iff_forall_ne_some.mp hready _ h).elim
  proposed := fun _ _ h => (Option.eq_none_iff_forall_ne_some.mp hproposed _ h).elim
  validated := fun _ _ h => (Option.eq_none_iff_forall_ne_some.mp hvalidated _ h).elim

theorem Sound.of_ready {data : Value} (hloaded : c.loaded = some table)
    (hready : c.ready = some (table, data)) (hproposed : c.proposed = none)
    (hvalidated : c.validated = none) (h : Current db c.claims table)
    (hconf : Conforms pf table.schema data) : Sound pf db c where
  loaded := by
    intro table' htable'
    rw [hloaded] at htable'
    cases htable'
    exact h
  ready := by
    intro table' data' hready'
    rw [hready] at hready'
    cases hready'
    exact hconf
  proposed := fun _ _ h => (Option.eq_none_iff_forall_ne_some.mp hproposed _ h).elim
  validated := fun _ _ h => (Option.eq_none_iff_forall_ne_some.mp hvalidated _ h).elim

theorem Sound.of_proposed {schema : DataTableSchema} {policy : AccessPolicy}
    (hloaded : c.loaded = none) (hready : c.ready = none)
    (hproposed : c.proposed = some (schema, policy))
    (h : validateSchema pf schema = .ok () ∧ validateAccessPolicy policy = .ok ())
    (hvalidated : ∀ tableId schema, c.validated = some (tableId, schema) →
      ∀ r ∈ db.dataRows, r.tableId = tableId → Conforms pf schema r.data) : Sound pf db c where
  loaded := fun _ h => (Option.eq_none_iff_forall_ne_some.mp hloaded _ h).elim
  ready := fun _ _ h => (Option.eq_none_iff_forall_ne_some.mp hready _ h).elim
  proposed := by
    intro schema' policy' hproposed'
    rw [hproposed] at hproposed'
    cases hproposed'
    exact h
  validated := hvalidated

theorem Sound.received (h : c.Received) : Sound pf db c := by
  cases c with
  | createRow c =>
    obtain ⟨claims, tableName, payload, stage⟩ := c
    cases h
    exact .of_none rfl rfl rfl rfl
  | updateRow c =>
    obtain ⟨claims, tableName, rowId, payload, stage⟩ := c
    cases h
    exact .of_none rfl rfl rfl rfl
  | updateTable c =>
    obtain ⟨claims, tableName, payload, stage⟩ := c
    cases h
    exact .of_none rfl rfl rfl rfl
  | importRows c =>
    obtain ⟨claims, tableName, payload, stage⟩ := c
    cases h
    exact .of_none rfl rfl rfl rfl

/-! ### A request keeps its own checks -/

theorem writableTable_current {claims : Claims}
    (h : writableTable pf db claims tableName = .ok table) : Current db claims table := by
  simp only [writableTable, requireTable, Outcome.bind_eq_ok, Outcome.require_eq_ok] at h
  obtain ⟨t, hload, _, -, heq⟩ := h
  cases heq
  exact .of_loadTable hload

theorem createRowData_conforms {workspaceId : String} {used : Int}
    {payload : CreateRowRequest} {normalized : Value}
    (hschema : validateSchema pf table.schema = .ok ())
    (h : createRowData pf db env table workspaceId used payload = .ok normalized) :
    Conforms pf table.schema normalized := by
  simp only [createRowData, Outcome.bind_eq_ok, badRequest_eq_ok] at h
  obtain ⟨_, -, hnorm⟩ := h
  exact conforms_normalizeRowData hschema hnorm

theorem sound_createRow {c : CreateRowCall} (h : Sound pf db (.createRow c))
    (hwf : WellFormed pf db.core) (env : Env) :
    Sound pf (c.step pf env db).1 (.createRow (c.step pf env db).2) := by
  obtain ⟨claims, tableName, payload, stage⟩ := c
  cases stage with
  | received =>
    simp only [CreateRowCall.step]
    split
    · exact .of_none rfl rfl rfl rfl
    · rename_i table htable
      exact .of_loaded rfl rfl rfl rfl (writableTable_current htable)
  | tableLoaded table =>
    simp only [CreateRowCall.step]
    split
    · exact .of_none rfl rfl rfl rfl
    · exact .of_loaded rfl rfl rfl rfl (h.loaded table rfl)
  | workspaceFound table workspaceId => exact .of_loaded rfl rfl rfl rfl (h.loaded table rfl)
  | counted table workspaceId used =>
    simp only [CreateRowCall.step]
    split
    · exact .of_none rfl rfl rfl rfl
    · rename_i normalized hdata
      have hcurrent := h.loaded table rfl
      exact .of_ready rfl rfl rfl rfl hcurrent
        (createRowData_conforms (hcurrent.schema_ok hwf) hdata)
  | checked table workspaceId normalized =>
    simp only [CreateRowCall.step]
    split
    · exact .of_none rfl rfl rfl rfl
    · exact .of_none rfl rfl rfl rfl
  | audited table row =>
    simp only [CreateRowCall.step]
    split
    · exact .of_none rfl rfl rfl rfl
    · exact .of_none rfl rfl rfl rfl
  | _ => exact .of_none rfl rfl rfl rfl

theorem sound_updateRow {c : UpdateRowCall} (h : Sound pf db (.updateRow c))
    (hwf : WellFormed pf db.core) (env : Env) :
    Sound pf (c.step pf env db).1 (.updateRow (c.step pf env db).2) := by
  obtain ⟨claims, tableName, rowId, payload, stage⟩ := c
  cases stage with
  | received =>
    simp only [UpdateRowCall.step]
    split
    · exact .of_none rfl rfl rfl rfl
    · rename_i table htable
      exact .of_loaded rfl rfl rfl rfl (.of_loadTable (Outcome.require_eq_ok.mp htable))
  | tableLoaded table =>
    simp only [UpdateRowCall.step]
    split
    · exact .of_none rfl rfl rfl rfl
    · rename_i existing normalized hmerge
      have hcurrent := h.loaded table rfl
      obtain ⟨-, -, -, fields, changes, -, -, hnorm⟩ := mergeRowChecks_ok hmerge
      exact .of_ready rfl rfl rfl rfl hcurrent
        (conforms_normalizeRowData (hcurrent.schema_ok hwf) hnorm)
  | audited table =>
    simp only [UpdateRowCall.step]
    split
    · exact .of_none rfl rfl rfl rfl
    · exact .of_none rfl rfl rfl rfl
  | _ => exact .of_none rfl rfl rfl rfl

theorem redefinition_ok {claims : Claims} {payload : UpdateTableRequest}
    {existing updated : LoadedTable}
    (h : redefinition pf db claims tableName payload = .ok (existing, updated)) :
    validateSchema pf updated.schema = .ok () ∧
      validateAccessPolicy updated.accessPolicy = .ok () := by
  simp only [redefinition, Outcome.bind_eq_ok, badRequest_eq_ok] at h
  obtain ⟨_, -, table, -, _, -, _, hschema, _, hpolicy, heq⟩ := h
  cases heq
  exact ⟨hschema, hpolicy⟩

theorem sound_updateTable {c : UpdateTableCall} (h : Sound pf db (.updateTable c)) (env : Env) :
    Sound pf (c.step pf env db).1 (.updateTable (c.step pf env db).2) := by
  obtain ⟨claims, tableName, payload, stage⟩ := c
  cases stage with
  | received =>
    simp only [UpdateTableCall.step]
    split
    · exact .of_none rfl rfl rfl rfl
    · rename_i existing updated hredefine
      exact .of_proposed rfl rfl rfl (redefinition_ok hredefine) (fun _ _ hnone => by cases hnone)
  | tableLoaded existing updated =>
    simp only [UpdateTableCall.step]
    split
    · exact .of_none rfl rfl rfl rfl
    · exact .of_proposed rfl rfl rfl (h.proposed _ _ rfl) (fun _ _ hnone => by cases hnone)
  | counted existing updated =>
    simp only [UpdateTableCall.step]
    split
    · exact .of_none rfl rfl rfl rfl
    · rename_i hrows
      refine .of_proposed rfl rfl rfl (h.proposed _ _ rfl) ?_
      intro tableId schema hvalidated
      cases hvalidated
      exact validateRowsAgainstSchema_eq_ok.mp (badRequest_eq_ok.mp hrows)
  | rewritten existing =>
    simp only [UpdateTableCall.step]
    split
    · exact .of_none rfl rfl rfl rfl
    · exact .of_none rfl rfl rfl rfl
  | _ => exact .of_none rfl rfl rfl rfl

theorem importTable_load {claims : Claims} {payload : TableImportRequest}
    (h : importTable pf db claims tableName payload = .ok table) :
    loadTable pf db claims.appId tableName = some table := by
  simp only [importTable, requireTable, Outcome.bind_eq_ok, Outcome.require_eq_ok] at h
  obtain ⟨_, -, t, hload, _, -, _, -, heq⟩ := h
  cases heq
  exact hload

theorem importPlan_ok {payload : TableImportRequest} {plan : ImportPlan}
    (h : importPlan pf db table payload = .ok plan) :
    plan.table = table ∧ plan.restore.isSome = payload.restoreTable.getD false := by
  simp only [importPlan, Outcome.bind_eq_ok] at h
  obtain ⟨restore, hrestore, _, -, heq⟩ := h
  cases heq
  refine ⟨rfl, ?_⟩
  unfold restoreRequest at hrestore
  split at hrestore
  · rename_i hasked
    simp only [Outcome.bind_eq_ok] at hrestore
    obtain ⟨spec, -, _, -, heq⟩ := hrestore
    cases heq
    exact hasked.symm
  · rename_i hnot
    cases hrestore
    simpa using hnot

theorem insertDataRow_dataTables {row : DataRow} (h : db.insertDataRow row = some db') :
    db'.dataTables = db.dataTables := by
  obtain ⟨-, -, rows, -, rfl⟩ := Db.insertDataRow_eq_some.mp h
  rfl

theorem clearStage_dataTables (claims : Claims) (plan : ImportPlan) :
    (clearStage db claims plan).dataTables = db.dataTables := by
  unfold clearStage
  split <;> rfl

theorem sound_importRows {c : ImportRowsCall} (h : Sound pf db (.importRows c)) (env : Env) :
    Sound pf (c.step pf env db).1 (.importRows (c.step pf env db).2) := by
  obtain ⟨claims, tableName, payload, stage⟩ := c
  cases stage with
  | received =>
    simp only [ImportRowsCall.step]
    split
    · exact .of_none rfl rfl rfl rfl
    · rename_i table htable
      by_cases hrestore : payload.restoreTable.getD false = true
      · exact .of_none (if_pos hrestore) rfl rfl rfl
      · exact .of_loaded (if_neg hrestore) rfl rfl rfl (.of_loadTable (importTable_load htable))
  | tableLoaded table =>
    simp only [ImportRowsCall.step]
    split
    · exact .of_none rfl rfl rfl rfl
    · rename_i plan hplan
      obtain ⟨htable, hrestore⟩ := importPlan_ok hplan
      split
      · exact .of_none rfl rfl rfl rfl
      · by_cases hasked : payload.restoreTable.getD false = true
        · exact .of_none (if_pos (hrestore.trans hasked)) rfl rfl rfl
        · have hcurrent := h.loaded table (if_neg hasked)
          rw [← htable] at hcurrent
          exact .of_loaded (if_neg (by rwa [hrestore])) rfl rfl rfl hcurrent
  | planned plan =>
    by_cases hrestore : plan.restore.isSome = true
    · exact .of_none (if_pos hrestore) rfl rfl rfl
    · have hcurrent := h.loaded plan.table (if_neg hrestore)
      exact .of_loaded (if_neg hrestore) rfl rfl rfl
        (hcurrent.of_tables (clearStage_dataTables claims plan))
  | cleared plan =>
    simp only [ImportRowsCall.step]
    split
    · rename_i hnone
      have hcurrent := h.loaded plan.table (if_neg (by simp [hnone]))
      exact .of_loaded rfl rfl rfl rfl hcurrent
    · split
      · exact .of_none rfl rfl rfl rfl
      · rename_i hspec
        exact .of_proposed rfl rfl rfl (validateRestoreTableSpec_ok (badRequest_eq_ok.mp hspec))
          (fun _ _ hnone => by cases hnone)
  | restoreCounted plan spec =>
    simp only [ImportRowsCall.step]
    split
    · exact .of_none rfl rfl rfl rfl
    · rename_i hrows
      refine .of_proposed rfl rfl rfl (h.proposed _ _ rfl) ?_
      intro tableId schema hvalidated
      cases hvalidated
      exact validateRowsAgainstSchema_eq_ok.mp (badRequest_eq_ok.mp hrows)
  | restored plan =>
    simp only [ImportRowsCall.step]
    split
    · exact .of_none rfl rfl rfl rfl
    · rename_i table hload
      exact .of_loaded rfl rfl rfl rfl (.of_loadTable hload)
  | inserting plan table n rest =>
    cases rest with
    | nil => exact .of_none rfl rfl rfl rfl
    | cons row rest =>
      simp only [ImportRowsCall.step]
      split
      · exact .of_none rfl rfl rfl rfl
      · split
        · exact .of_none rfl rfl rfl rfl
        · rename_i db' hinsert
          exact .of_loaded rfl rfl rfl rfl
            ((h.loaded table rfl).of_tables (insertDataRow_dataTables hinsert))
  | rowInserted plan table n row rest =>
    refine .of_loaded rfl rfl rfl rfl ((h.loaded table rfl).of_tables ?_)
    exact congrArg DataCore.tables (logRowEvent_core ..)
  | _ => exact .of_none rfl rfl rfl rfl

theorem Sound.step (h : Sound pf db c) (hwf : WellFormed pf db.core) (env : Env) :
    Sound pf (c.step pf env db).1 (c.step pf env db).2 := by
  cases c with
  | createRow c => exact sound_createRow h hwf env
  | updateRow c => exact sound_updateRow h hwf env
  | updateTable c => exact sound_updateTable h env
  | importRows c => exact sound_importRows h env

/-! ### What one statement does to tables and rows -/

inductive Effect (pf : Platform) (env : Env) (db : Db) (c : TableCall) : DataCore → Prop
  | quiet : Effect pf env db c db.core
  | insert {table : LoadedTable} {row : DataRow} {db' : Db} (loaded : c.loaded = some table)
      (write : c.rowWrite pf env = some (table.id, row.data)) (table_id : row.tableId = table.id)
      (app_id : row.appId = c.claims.appId) (inserted : db.insertDataRow row = some db') :
      Effect pf env db c db'.core
  | rewrite {table : LoadedTable} {rowId : String} {data : Value} (loaded : c.loaded = some table)
      (write : c.rowWrite pf env = some (table.id, data)) :
      Effect pf env db c (db.core.rewriteRow rowId table.id data env.now)
  | clear (p : DataRow → Bool) : Effect pf env db c (db.core.deleteRows p)
  | redefine {tableId displayName : String} {schema : DataTableSchema} {policy : AccessPolicy}
      (validated : c.validated = some (tableId, schema))
      (proposed : c.proposed = some (schema, policy)) :
      Effect pf env db c (db.core.redefineTable tableId displayName schema policy)

theorem Effect.of_core (h : db'.core = db.core) : Effect pf env db c db'.core := by
  rw [h]
  exact .quiet

theorem step_effect (env : Env) (db : Db) (c : TableCall) :
    Effect pf env db c (c.step pf env db).1.core := by
  cases c with
  | createRow c =>
    obtain ⟨claims, tableName, payload, stage⟩ := c
    cases stage with
    | checked table workspaceId normalized =>
      simp only [step, CreateRowCall.step, Prod.map_fst, id]
      split
      · exact .quiet
      · rename_i db' hinsert
        exact .insert rfl rfl rfl rfl hinsert
    | inserted table workspaceId row => exact .of_core (recordUsage_core ..)
    | usageRecorded table row => exact .of_core (logRowEvent_core ..)
    | logged table row => exact .of_core (recordAuditLog_core ..)
    | _ =>
      simp only [step, CreateRowCall.step, Prod.map_fst, id]
      repeat' split
      all_goals exact .quiet
  | updateRow c =>
    obtain ⟨claims, tableName, rowId, payload, stage⟩ := c
    cases stage with
    | merged table existing normalized => exact .rewrite rfl rfl
    | rewritten table normalized => exact .of_core (logRowEvent_core ..)
    | logged table => exact .of_core (recordAuditLog_core ..)
    | _ =>
      simp only [step, UpdateRowCall.step, Prod.map_fst, id]
      repeat' split
      all_goals exact .quiet
  | updateTable c =>
    obtain ⟨claims, tableName, payload, stage⟩ := c
    cases stage with
    | validated existing updated => exact .redefine rfl rfl
    | reloaded table => exact .of_core (recordAuditLog_core ..)
    | _ =>
      simp only [step, UpdateTableCall.step, Prod.map_fst, id]
      repeat' split
      all_goals exact .quiet
  | importRows c =>
    obtain ⟨claims, tableName, payload, stage⟩ := c
    cases stage with
    | planned plan =>
      simp only [step, ImportRowsCall.step, Prod.map_fst, id, clearStage]
      split
      · exact .clear (importClears claims plan.table)
      · exact .quiet
    | restoreValidated plan spec => exact .redefine rfl rfl
    | inserting plan table n rest =>
      cases rest with
      | nil => exact .quiet
      | cons row rest =>
        simp only [step, ImportRowsCall.step, Prod.map_fst, id]
        split
        · exact .quiet
        · rename_i planned hplanned
          obtain ⟨hid, happ, -⟩ := planRow_ok hplanned
          split
          · exact .quiet
          · rename_i db' hinsert
            exact .insert rfl (by simp only [rowWrite, hplanned]) hid happ hinsert
    | rowInserted plan table n row rest => exact .of_core (logRowEvent_core ..)
    | _ =>
      simp only [step, ImportRowsCall.step, Prod.map_fst, id]
      repeat' split
      all_goals exact .quiet

theorem Sound.rowWrite_conforms (h : Sound pf db c) (hwf : WellFormed pf db.core) {data : Value}
    (hloaded : c.loaded = some table)
    (hwrite : c.rowWrite pf env = some (table.id, data)) : Conforms pf table.schema data := by
  cases c with
  | createRow c =>
    obtain ⟨claims, tableName, payload, stage⟩ := c
    cases stage with
    | checked table workspaceId normalized =>
      cases hloaded
      cases hwrite
      exact h.ready table _ rfl
    | _ => cases hwrite
  | updateRow c =>
    obtain ⟨claims, tableName, rowId, payload, stage⟩ := c
    cases stage with
    | merged table existing normalized =>
      cases hloaded
      cases hwrite
      exact h.ready table _ rfl
    | _ => cases hwrite
  | updateTable c => cases hwrite
  | importRows c =>
    obtain ⟨claims, tableName, payload, stage⟩ := c
    cases stage with
    | inserting plan table n rest =>
      cases hloaded
      cases rest with
      | nil => cases hwrite
      | cons row rest =>
        simp only [rowWrite] at hwrite
        split at hwrite
        · rename_i planned hplanned
          cases hwrite
          exact conforms_normalizeRowData ((h.loaded table rfl).schema_ok hwf)
            (planRow_ok hplanned).2.2
        · cases hwrite
    | _ => cases hwrite

variable {core : DataCore}

theorem Effect.wellFormed (heffect : Effect pf env db c core)
    (h : Sound pf db c) (hwf : WellFormed pf db.core) : WellFormed pf core := by
  cases heffect with
  | quiet => exact hwf
  | @insert table row db' hloaded hwrite hid happ hinsert =>
    obtain ⟨htableApp, s, hs, hsid, hsapp, hschema⟩ := h.loaded table hloaded
    obtain ⟨-, howner, rows, hins, rfl⟩ := Db.insertDataRow_eq_some.mp hinsert
    have hconf := h.rowWrite_conforms hwf hloaded hwrite
    rw [← hschema] at hconf
    apply hwf.insertRow hs (hsid.trans hid.symm) _ hconf (owner_of_userOrNull howner) hins
    rw [hsapp, htableApp, happ]
  | @rewrite table rowId data hloaded hwrite =>
    obtain ⟨-, s, hs, hsid, -, hschema⟩ := h.loaded table hloaded
    have hconf := h.rowWrite_conforms hwf hloaded hwrite
    rw [← hschema] at hconf
    rw [← hsid]
    exact hwf.rewriteRow hs hconf
  | clear p => exact hwf.deleteRows p
  | redefine hvalidated hproposed =>
    obtain ⟨hschema, hpolicy⟩ := h.proposed _ _ hproposed
    exact hwf.redefineTable hschema hpolicy (h.validated _ _ hvalidated)

theorem Effect.current (heffect : Effect pf env db c core) {claims : Claims}
    (hcurrent : Current db claims table)
    (hschema : ∀ tableId schema, c.validated = some (tableId, schema) → table.id = tableId →
      table.schema = schema) (hcore : db'.core = core) : Current db' claims table := by
  have htables : db'.dataTables = core.tables := by rw [← hcore]; rfl
  cases heffect with
  | insert _ _ _ _ hinsert =>
    exact hcurrent.of_tables (htables.trans (insertDataRow_dataTables hinsert))
  | @redefine tableId displayName schema policy hvalidated hproposed =>
    obtain ⟨happ, s, hs, hid, hsapp, hsame⟩ := hcurrent
    refine ⟨happ, _, by rw [htables]; exact DataCore.mem_redefineTable.mpr ⟨s, hs, rfl⟩, ?_⟩
    split
    · rename_i hmatch
      refine ⟨hid, hsapp, ?_⟩
      exact (hschema tableId schema hvalidated (hid.symm.trans (by simpa using hmatch))).symm
    · exact ⟨hid, hsapp, hsame⟩
  | _ => exact hcurrent.of_tables htables

theorem Effect.rows (heffect : Effect pf env db c core) {r : DataRow} (hr : r ∈ core.rows) :
    (∃ s ∈ db.dataRows, s.tableId = r.tableId ∧ s.data = r.data) ∨
      c.rowWrite pf env = some (r.tableId, r.data) := by
  cases heffect with
  | quiet => exact .inl ⟨r, hr, rfl, rfl⟩
  | insert _ hwrite hid _ hinsert =>
    obtain ⟨-, -, rows, hins, rfl⟩ := Db.insertDataRow_eq_some.mp hinsert
    rcases (KeyedTable.mem_insert? hins).mp hr with hold | rfl
    · exact .inl ⟨r, hold, rfl, rfl⟩
    · rw [hwrite, hid]
      exact .inr rfl
  | rewrite _ hwrite =>
    obtain ⟨s, hs, rfl⟩ := DataCore.mem_rewriteRow.mp hr
    split
    · rename_i hmatch
      simp only [Bool.and_eq_true, beq_iff_eq] at hmatch
      rw [hwrite, hmatch.2]
      exact .inr rfl
    · exact .inl ⟨s, hs, rfl, rfl⟩
  | clear p => exact .inl ⟨r, (KeyedTable.mem_deleteWhere.mp hr).1, rfl, rfl⟩
  | redefine => exact .inl ⟨r, hr, rfl, rfl⟩

/-- The checks of another request survive a statement that neither changes the
    schema it has loaded nor writes a row that its own schema rejects. -/
theorem Sound.other {other : TableCall} (h : Sound pf db other)
    (hschema : ∀ tableId schema, c.validated = some (tableId, schema) →
      ∀ table, other.loaded = some table → table.id = tableId → table.schema = schema)
    (hrow : ∀ tableId data, c.rowWrite pf env = some (tableId, data) →
      ∀ schema, other.validated = some (tableId, schema) → Conforms pf schema data) :
    Sound pf (c.step pf env db).1 other where
  loaded := by
    intro table htable
    exact (step_effect env db c).current (h.loaded table htable)
      (fun tableId schema hvalidated => hschema tableId schema hvalidated table htable) rfl
  ready := h.ready
  proposed := h.proposed
  validated := by
    intro tableId schema hvalidated r hr hid
    rcases (step_effect env db c).rows hr with ⟨s, hs, hsid, hdata⟩ | hwrite
    · rw [← hdata]
      exact h.validated tableId schema hvalidated s hs (hsid.trans hid)
    · rw [hid] at hwrite
      exact hrow tableId r.data hwrite schema hvalidated

end TableCall

/-! ### Every interleaving -/

section Pools

variable {ι : Type} [DecidableEq ι] {pf : Platform}

/-- The tick stores a schema while another request has loaded a different one for
    the same table and still has rows to write. -/
def ChangesSchemaUnderWriter (q : Pool ι Db TableCall) (t : ι × Env) : Prop :=
  ∃ change ∈ (q.request t.1).validated, ∃ j, j ≠ t.1 ∧
    ∃ table ∈ (q.request j).loaded, table.id = change.1 ∧ table.schema ≠ change.2

/-- The tick writes a row that does not fit the schema which another request has
    validated the rows of the table against and not stored yet. -/
def WritesRowUnderValidation (pf : Platform) (q : Pool ι Db TableCall) (t : ι × Env) : Prop :=
  ∃ write ∈ (q.request t.1).rowWrite pf t.2, ∃ j, j ≠ t.1 ∧
    ∃ change ∈ (q.request j).validated, change.1 = write.1 ∧ ¬ Conforms pf change.2 write.2

/-- The data plane is well formed, and the checks of every request hold. -/
structure Checked (pf : Platform) (q : Pool ι Db TableCall) : Prop where
  wellFormed : WellFormed pf q.store.core
  sound : ∀ i, (q.request i).Sound pf q.store

theorem Checked.tick {q : Pool ι Db TableCall} (h : Checked pf q) {t : ι × Env}
    (hschema : ¬ ChangesSchemaUnderWriter q t) (hrow : ¬ WritesRowUnderValidation pf q t) :
    Checked pf (tick (TableCall.step pf) q t) := by
  refine ⟨?_, ?_⟩
  · rw [tick_store]
    exact (TableCall.step_effect t.2 q.store (q.request t.1)).wellFormed (h.sound t.1) h.wellFormed
  · rw [forall_request_tick (P := fun _ c =>
      TableCall.Sound pf (Interleaving.tick (TableCall.step pf) q t).store c)]
    refine ⟨(h.sound t.1).step h.wellFormed t.2, ?_⟩
    intro i hi
    apply (h.sound i).other
    · intro tableId schema hvalidated table hloaded hid
      by_contra hne
      exact hschema ⟨(tableId, schema), hvalidated, i, hi, table, hloaded, hid, hne⟩
    · intro tableId data hwrite schema hvalidated
      by_contra hnot
      exact hrow ⟨(tableId, data), hwrite, i, hi, (tableId, schema), hvalidated, rfl, hnot⟩

/-- Every stored row is accepted under the stored schema of its table. -/
def RowsConform (pf : Platform) (db : Db) : Prop :=
  ∀ table ∈ db.dataTables, ∀ r ∈ db.dataRows, r.tableId = table.id →
    ∃ normalized, normalizeRowData pf table.schema r.data false = .ok normalized

/-- **Schema conformity.**  Over every interleaving of row writers and schema
    changes in which no schema is stored while a request with another one still
    has rows to write, and no row is written that a schema change in progress
    would reject, every stored row conforms in every state. -/
theorem rows_conform_interleaved (pf : Platform) (p : Pool ι Db TableCall)
    (hstart : ∀ i, (p.request i).Received) (hwf : WellFormed pf p.store.core)
    (ticks : List (ι × Env))
    (hadm : Admissible (TableCall.step pf)
      (fun q t => ¬ ChangesSchemaUnderWriter q t ∧ ¬ WritesRowUnderValidation pf q t) p ticks) :
    Always (TableCall.step pf) (fun q => RowsConform pf q.store) p ticks := by
  have hinv : Checked pf p := ⟨hwf, fun i => .received (hstart i)⟩
  have hstep : ∀ (q : Pool ι Db TableCall) (t : ι × Env), Checked pf q →
      ¬ ChangesSchemaUnderWriter q t ∧ ¬ WritesRowUnderValidation pf q t →
      Checked pf (tick (TableCall.step pf) q t) := fun q t hq hfree => hq.tick hfree.1 hfree.2
  intro pre post hsplit table htable r hr hid
  exact (run_rule hstep hinv hadm pre post hsplit).wellFormed.conforms hr htable hid.symm

end Pools

/-! ### A row created around a schema change -/

instance (pf : Platform) (schema : DataTableSchema) (data : Value) :
    Decidable (Conforms pf schema data) :=
  decidable_of_iff (Outcome.succeeded (normalizeRowData pf schema data false) = true) (by
    unfold Conforms
    cases normalizeRowData pf schema data false with
    | ok o => exact ⟨fun _ => ⟨o, rfl⟩, fun _ => rfl⟩
    | error e => exact ⟨nofun, nofun⟩)

instance (q : Pool Bool Db TableCall) (t : Bool × Env) :
    Decidable (ChangesSchemaUnderWriter q t) :=
  inferInstanceAs (Decidable (∃ change ∈ (q.request t.1).validated, ∃ j, j ≠ t.1 ∧
    ∃ table ∈ (q.request j).loaded, table.id = change.1 ∧ table.schema ≠ change.2))

instance (pf : Platform) (q : Pool Bool Db TableCall) (t : Bool × Env) :
    Decidable (WritesRowUnderValidation pf q t) :=
  inferInstanceAs (Decidable (∃ write ∈ (q.request t.1).rowWrite pf t.2, ∃ j, j ≠ t.1 ∧
    ∃ change ∈ (q.request j).validated, change.1 = write.1 ∧ ¬ Conforms pf change.2 write.2))

/-- An app with one administrator in a workspace. -/
def officeDb : Db :=
  { rootDb with
    workspaces := ⟨[{
      id := "office", name := "office", displayName := "Office", createdBy := some "root"
      createdAt := "2026-01-01 00:00:00", updatedAt := "2026-01-01 00:00:00" }], by decide⟩
    apps := ⟨[{
      id := "default", name := "default", displayName := "Default", workspaceId := "office"
      createdBy := some "root", createdAt := "2026-01-01 00:00:00"
      updatedAt := "2026-01-01 00:00:00", deletedAt := none }], by decide⟩ }

/-- The same with an empty table of notes. -/
def emptyNotesDb : Db :=
  runData asciiPlatform officeDb
    [.createTable (sampleEnv "t") root
        { name := "notes", displayName := "Notes", schema := noteSchema,
          accessPolicy := { mode := .authenticatedSharedRw } }]

def bodySchema : DataTableSchema :=
  { fields := ⟨[("body", { fieldType := .string, required := true })], by decide⟩ }

/-- One request creates a note, the other replaces the schema. -/
def notesRedefined : Pool Bool Db TableCall :=
  { store := emptyNotesDb
    request := fun redefines =>
      if redefines then .updateTable ⟨root, "notes", { schema := some bodySchema }, .received⟩
      else .createRow ⟨root, "notes", { data := note "a" }, .received⟩ }

/-- The note is checked, the schema is replaced, and the note is stored. -/
def staleNote : List (Bool × Env) :=
  List.replicate 4 (false, sampleEnv "b") ++ List.replicate 6 (true, sampleEnv "c") ++
    List.replicate 5 (false, sampleEnv "b")

/-- Nothing is in flight any more, both requests have succeeded, and the note does
    not fit the schema of its table. -/
theorem created_note_misfits :
    (∀ b, ((run (TableCall.step asciiPlatform) notesRedefined staleNote).request b).succeeded =
        true) ∧
      ¬ RowsConform asciiPlatform
        (run (TableCall.step asciiPlatform) notesRedefined staleNote).store := by
  refine ⟨by decide +kernel, ?_⟩
  intro h
  have hmisfit : ∃ table ∈ (run (TableCall.step asciiPlatform) notesRedefined
      staleNote).store.dataTables.rows, ∃ r ∈ (run (TableCall.step asciiPlatform) notesRedefined
      staleNote).store.dataRows.rows, r.tableId = table.id ∧
        ¬ Conforms asciiPlatform table.schema r.data := by
    decide +kernel
  obtain ⟨table, htable, r, hr, hid, hnot⟩ := hmisfit
  exact hnot (h table htable r hr hid)

/-- The note is stored before the schema change starts, which is then refused. -/
def noteInTime : List (Bool × Env) :=
  List.replicate 9 (false, sampleEnv "b") ++ List.replicate 6 (true, sampleEnv "c")

theorem note_in_time_conforms :
    Always (TableCall.step asciiPlatform) (fun q => RowsConform asciiPlatform q.store)
      notesRedefined noteInTime := by
  have hstart : ∀ b, (notesRedefined.request b).Received := by
    intro b
    cases b <;> rfl
  apply rows_conform_interleaved asciiPlatform notesRedefined hstart
    (wellFormed_runData asciiPlatform officeDb _) noteInTime
  decide +kernel

end Peanut
