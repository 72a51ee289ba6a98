import Peanut.Data.EventHistory
import Peanut.Data.SchemaRaces

/-!
# Row requests that send what they log

`create_row`, `update_row`, `delete_row` and `import_rows` send each event to whoever listens,
after the statement that logs it.  In between, other requests go on, so events need not be
sent in the order of their ids.

However the requests interleave, each event is sent once, as the log has it, or the request
that has logged it is about to send it (`row_events_sent_once`).
-/

namespace Peanut

open Relational Interleaving

/-! ### Deleting a row, one statement at a time -/

inductive DeleteRowStage where
  | received
  | tableLoaded (table : LoadedTable)
  | located (table : LoadedTable) (existing : DataRow)
  | deleted (table : LoadedTable) (existing : DataRow)
  | logged (table : LoadedTable)
  | completed
  | refused (error : ApiError)

structure DeleteRowCall where
  claims : Claims
  tableName : String
  rowId : String
  stage : DeleteRowStage

def locateRow (db : Db) (claims : Claims) (table : LoadedTable) (rowId : String) :
    Except ApiError DataRow := do
  let existing ← Outcome.require (loadRow db table.id rowId) (jsonError .notFound "row not found")
  Outcome.ensure (canAccessRow claims table.accessPolicy existing.ownerUserId .delete)
    (jsonError .forbidden "row access denied")
  return existing

namespace DeleteRowCall

def step (pf : Platform) (env : Env) (db : Db) (c : DeleteRowCall) : Db × DeleteRowCall :=
  match c.stage with
  | .received =>
      match requireTable pf db c.claims.appId c.tableName with
      | .error e => (db, { c with stage := .refused e })
      | .ok table => (db, { c with stage := .tableLoaded table })
  | .tableLoaded table =>
      match locateRow db c.claims table c.rowId with
      | .error e => (db, { c with stage := .refused e })
      | .ok existing => (db, { c with stage := .located table existing })
  | .located table existing =>
      match loadRow db table.id c.rowId with
      -- no row was affected
      | none => (db, { c with stage := .refused (jsonError .notFound "row not found") })
      | some _ =>
          (db.deleteRows fun r => r.id == c.rowId && r.tableId == table.id,
            { c with stage := .deleted table existing })
  | .deleted table existing =>
      (db.logRowEvent env c.claims.appId table.id c.rowId c.claims.sub "delete"
          (some existing.data),
        { c with stage := .logged table })
  | .logged table =>
      (db.recordAuditLog env (env.uuid 0) (some c.claims.appId) c.claims "data.row.deleted"
          "data_row" c.rowId (.object [("table", .string table.name)]),
        { c with stage := .completed })
  | .completed => (db, c)
  | .refused _ => (db, c)

def reply (c : DeleteRowCall) : Option (Except ApiError (Reply MessageResponse)) :=
  match c.stage with
  | .completed => some (.ok (jsonMessage .ok s!"deleted row {c.rowId}"))
  | .refused e => some (.error e)
  | _ => none

end DeleteRowCall

/-- On its own, the machine computes `deleteRow`. -/
theorem deleteRow_alone (pf : Platform) (env : Env) (db : Db) (claims : Claims)
    (tableName rowId : String) :
    (alone (DeleteRowCall.step pf) env 5 db ⟨claims, tableName, rowId, .received⟩).1 =
        (deleteRow pf db env claims tableName rowId).1 ∧
      (alone (DeleteRowCall.step pf) env 5 db ⟨claims, tableName, rowId, .received⟩).2.reply =
        some (deleteRow pf db env claims tableName rowId).2 := by
  have hchecks : requireRow pf db claims tableName rowId .delete = (do
      let table ← requireTable pf db claims.appId tableName
      let existing ← locateRow db claims table rowId
      return (table, existing)) := by
    unfold requireRow locateRow
    simp only [bind_assoc, pure_bind]
  unfold deleteRow
  rw [hchecks]
  cases htable : requireTable pf db claims.appId tableName with
  | error e => simp [alone, DeleteRowCall.step, DeleteRowCall.reply, htable]
  | ok table =>
    cases hlocate : locateRow db claims table rowId with
    | error e => simp [alone, DeleteRowCall.step, DeleteRowCall.reply, htable, hlocate]
    | ok existing =>
      have hload : loadRow db table.id rowId = some existing := by
        simp only [locateRow, Outcome.bind_eq_ok, Outcome.require_eq_ok] at hlocate
        obtain ⟨r, hr, _, -, heq⟩ := hlocate
        cases heq
        exact hr
      simp only [alone, DeleteRowCall.step, DeleteRowCall.reply, htable, hlocate, hload,
        Outcome.ok_bind, pure, Except.pure, Outcome.proceed_ok]
      exact ⟨trivial, trivial⟩

/-! ### All requests that change rows -/

inductive RowCall where
  | request (c : TableCall)
  | delete (c : DeleteRowCall)

/-- An event that the next statement logs. -/
structure RowEventDraft where
  table : LoadedTable
  rowId : String
  ownerUserId : Option String
  action : String
  diff : Option Value

namespace RowCall

def step (pf : Platform) (env : Env) (db : Db) : RowCall → Db × RowCall
  | .request c => Prod.map id .request (c.step pf env db)
  | .delete c => Prod.map id .delete (c.step pf env db)

def claims : RowCall → Claims
  | .request c => c.claims
  | .delete c => c.claims

def Received : RowCall → Prop
  | .request c => c.Received
  | .delete c => c.stage = .received

/-- The owner of the row that an update is about to rewrite. -/
def foundOwner : RowCall → Option (Option String)
  | .request (.updateRow { stage := .merged _ existing _, .. }) => some existing.ownerUserId
  | _ => none

/-- `owner` is the owner that an update has found. -/
def draft (owner : Option String) : RowCall → Option RowEventDraft
  | .request (.createRow { stage := .usageRecorded table row, .. }) =>
      some ⟨table, row.id, row.ownerUserId, "insert", some row.data⟩
  | .request (.updateRow { rowId := rowId, stage := .rewritten table normalized, .. }) =>
      some ⟨table, rowId, owner, "update", some normalized⟩
  | .request (.importRows { stage := .rowInserted _ table _ row _, .. }) =>
      some ⟨table, row.id, row.ownerUserId, "insert", some row.data⟩
  | .delete { rowId := rowId, stage := .deleted table existing, .. } =>
      some ⟨table, rowId, existing.ownerUserId, "delete", some existing.data⟩
  | _ => none

/-- The table that the request has loaded and may still log an event of. -/
def carried : RowCall → Option LoadedTable
  | .request (.createRow { stage := .inserted table _ _, .. }) => some table
  | .request (.createRow { stage := .usageRecorded table _, .. }) => some table
  | .request (.createRow c) => c.stage.loaded
  | .request (.updateRow { stage := .rewritten table _, .. }) => some table
  | .request (.updateRow c) => c.stage.loaded
  | .request (.updateTable _) => none
  | .request (.importRows { stage := .tableLoaded table, .. }) => some table
  | .request (.importRows { stage := .planned plan, .. }) => some plan.table
  | .request (.importRows { stage := .cleared plan, .. }) => some plan.table
  | .request (.importRows { stage := .inserting _ table _ _, .. }) => some table
  | .request (.importRows { stage := .rowInserted _ table _ _ _, .. }) => some table
  | .request (.importRows _) => none
  | .delete { stage := .tableLoaded table, .. } => some table
  | .delete { stage := .located table _, .. } => some table
  | .delete { stage := .deleted table _, .. } => some table
  | .delete _ => none

end RowCall

/-! ### Sending -/

structure DataRowRealtimeEvent where
  id : Nat
  appId : String
  event : String
  tableName : String
  rowId : String
  ownerUserId : Option String
  actorUserId : String
  action : String
  diff : Option Value

/-- The database and what has been sent. -/
structure LiveStore where
  db : Db
  sent : List DataRowRealtimeEvent := []

/-- A request and, between the statement that logs and the next one, the event to send. -/
structure WriterCall where
  call : RowCall
  owner : Option String := none
  unsent : Option DataRowRealtimeEvent := none

/-- The event that `emit_data_row_event` sends. -/
def RowEventDraft.emitted (d : RowEventDraft) (claims : Claims) (eventId : Nat) :
    DataRowRealtimeEvent :=
  { id := eventId, appId := claims.appId, event := "row.changed", tableName := d.table.name
    rowId := d.rowId, ownerUserId := d.ownerUserId, actorUserId := claims.sub
    action := d.action, diff := d.diff }

/-- `record_row_event` as the draft says. -/
def RowEventDraft.record (d : RowEventDraft) (db : Db) (env : Env) (claims : Claims) :
    Option (Nat × Db) :=
  db.recordRowEvent env claims.appId d.table.id d.rowId claims.sub d.action d.diff

def WriterCall.step (pf : Platform) (env : Env) (s : LiveStore) (w : WriterCall) :
    LiveStore × WriterCall :=
  match w.unsent with
  | some event => ({ s with sent := s.sent ++ [event] }, { w with unsent := none })
  | none =>
      let (db, call) := w.call.step pf env s.db
      let recorded := (w.call.draft w.owner).bind fun d =>
        (d.record s.db env w.call.claims).map fun r => d.emitted w.call.claims r.1
      ({ s with db := db },
        { call := call, owner := w.call.foundOwner.getD w.owner, unsent := recorded })

/-! ### What a statement does to the log -/

section Statements

variable {pf : Platform} {env : Env} {db db' : Db} {c : RowCall} {owner : Option String}

/-- Tables keep their ids, apps and names. -/
def TablesStay (db db' : Db) : Prop :=
  ∀ t ∈ db.dataTables, ∃ t' ∈ db'.dataTables, t'.id = t.id ∧ t'.appId = t.appId ∧ t'.name = t.name

theorem TablesStay.of_eq (h : db'.dataTables = db.dataTables) : TablesStay db db' :=
  fun t ht => ⟨t, h ▸ ht, rfl, rfl, rfl⟩

theorem tableStep_tablesStay (c : TableCall) : TablesStay db (c.step pf env db).1 := by
  have heffect := @TableCall.step_effect pf env db c
  generalize hcore : (c.step pf env db).1.core = core at heffect
  have htables : (c.step pf env db).1.dataTables = core.tables := congrArg DataCore.tables hcore
  cases heffect with
  | insert _ _ _ _ hinsert =>
    exact .of_eq (htables.trans (TableCall.insertDataRow_dataTables hinsert))
  | redefine _ _ =>
    intro t ht
    refine ⟨_, by rw [htables]; exact DataCore.mem_redefineTable.mpr ⟨t, ht, rfl⟩, ?_⟩
    split
    · exact ⟨rfl, rfl, rfl⟩
    · exact ⟨rfl, rfl, rfl⟩
  | _ => exact .of_eq htables

theorem deleteStep_tablesStay (c : DeleteRowCall) : TablesStay db (c.step pf env db).1 := by
  obtain ⟨claims, tableName, rowId, stage⟩ := c
  cases stage with
  | deleted table existing => exact .of_eq (congrArg DataCore.tables (logRowEvent_core ..))
  | logged table => exact .of_eq (congrArg DataCore.tables (recordAuditLog_core ..))
  | _ =>
    simp only [DeleteRowCall.step]
    repeat' split
    all_goals exact .of_eq rfl

theorem step_tablesStay (c : RowCall) : TablesStay db (c.step pf env db).1 := by
  cases c with
  | request c => exact tableStep_tablesStay c
  | delete c => exact deleteStep_tablesStay c

/-- **A statement that logs** does nothing else. -/
theorem step_of_draft {d : RowEventDraft} (h : c.draft owner = some d) :
    (c.step pf env db).1 =
      db.logRowEvent env c.claims.appId d.table.id d.rowId c.claims.sub d.action d.diff ∧
      c.carried = some d.table := by
  unfold RowCall.draft at h
  split at h
  · cases h
    exact ⟨rfl, rfl⟩
  · cases h
    exact ⟨rfl, rfl⟩
  · cases h
    exact ⟨rfl, rfl⟩
  · cases h
    exact ⟨rfl, rfl⟩
  · cases h

/-- **The other statements** leave the log. -/
theorem step_of_no_draft (h : c.draft owner = none) :
    (c.step pf env db).1.rowLog = db.rowLog := by
  cases c with
  | request c =>
    cases c with
    | createRow c =>
      obtain ⟨claims, tableName, payload, stage⟩ := c
      cases stage with
      | checked table workspaceId normalized =>
        simp only [RowCall.step, TableCall.step, CreateRowCall.step, Prod.map_fst, id]
        split
        · rfl
        · rename_i hinsert
          exact insertDataRow_rowLog hinsert
      | inserted table workspaceId row => exact recordUsage_rowLog ..
      | usageRecorded table row => cases h
      | logged table row => exact recordAuditLog_rowLog ..
      | _ =>
        simp only [RowCall.step, TableCall.step, CreateRowCall.step, Prod.map_fst, id]
        repeat' split
        all_goals rfl
    | updateRow c =>
      obtain ⟨claims, tableName, rowId, payload, stage⟩ := c
      cases stage with
      | rewritten table normalized => cases h
      | logged table => exact recordAuditLog_rowLog ..
      | _ =>
        simp only [RowCall.step, TableCall.step, UpdateRowCall.step, Prod.map_fst, id]
        repeat' split
        all_goals rfl
    | updateTable c =>
      obtain ⟨claims, tableName, payload, stage⟩ := c
      cases stage with
      | reloaded table => exact recordAuditLog_rowLog ..
      | _ =>
        simp only [RowCall.step, TableCall.step, UpdateTableCall.step, Prod.map_fst, id]
        repeat' split
        all_goals rfl
    | importRows c =>
      obtain ⟨claims, tableName, payload, stage⟩ := c
      cases stage with
      | planned plan => exact clearStage_rowLog db claims plan
      | inserting plan table n rest =>
        cases rest with
        | nil => rfl
        | cons row rest =>
          simp only [RowCall.step, TableCall.step, ImportRowsCall.step, Prod.map_fst, id]
          split
          · rfl
          · split
            · rfl
            · rename_i hinsert
              exact insertDataRow_rowLog hinsert
      | rowInserted plan table n row rest => cases h
      | _ =>
        simp only [RowCall.step, TableCall.step, ImportRowsCall.step, Prod.map_fst, id]
        repeat' split
        all_goals rfl
  | delete c =>
    obtain ⟨claims, tableName, rowId, stage⟩ := c
    cases stage with
    | deleted table existing => cases h
    | logged table => exact recordAuditLog_rowLog ..
    | _ =>
      simp only [RowCall.step, DeleteRowCall.step, Prod.map_fst, id]
      repeat' split
      all_goals rfl

/-! ### The table of a request -/

/-- The table is stored under its name. -/
def Known (db : Db) (table : LoadedTable) : Prop :=
  ∃ t ∈ db.dataTables, t.id = table.id ∧ t.appId = table.appId ∧ t.name = table.name

theorem Known.keep {table : LoadedTable} (h : Known db table) (hkeeps : TablesStay db db') :
    Known db' table := by
  obtain ⟨t, ht, hid, happ, hname⟩ := h
  obtain ⟨t', ht', hid', happ', hname'⟩ := hkeeps t ht
  exact ⟨t', ht', hid'.trans hid, happ'.trans happ, hname'.trans hname⟩

/-- The table that the request carries is one of its app. -/
def RowCall.Carries (c : RowCall) (db : Db) : Prop :=
  ∀ table, c.carried = some table → table.appId = c.claims.appId ∧ Known db table

theorem RowCall.Carries.keep (h : c.Carries db) (hkeeps : TablesStay db db') : c.Carries db' :=
  fun table hcarried => ⟨(h table hcarried).1, (h table hcarried).2.keep hkeeps⟩

/-- The table is the one that the request carried, or has just been loaded. -/
def Carried (pf : Platform) (db : Db) (c c' : RowCall) : Prop :=
  c'.claims = c.claims ∧ ∀ table, c'.carried = some table →
    c.carried = some table ∨ ∃ name, loadTable pf db c.claims.appId name = some table

theorem Carried.none {c' : RowCall} (hclaims : c'.claims = c.claims) (h : c'.carried = none) :
    Carried pf db c c' := by
  refine ⟨hclaims, ?_⟩
  intro table hcarried
  rw [h] at hcarried
  cases hcarried

theorem Carried.same {c' : RowCall} (hclaims : c'.claims = c.claims)
    (h : c'.carried = c.carried) : Carried pf db c c' :=
  ⟨hclaims, fun _ hcarried => .inl (h ▸ hcarried)⟩

theorem Carried.loaded {c' : RowCall} {table : LoadedTable} {name : String}
    (hclaims : c'.claims = c.claims) (h : c'.carried = some table)
    (hload : loadTable pf db c.claims.appId name = some table) : Carried pf db c c' := by
  refine ⟨hclaims, ?_⟩
  intro table' hcarried
  rw [h, Option.some.injEq] at hcarried
  exact .inr ⟨name, hcarried ▸ hload⟩

theorem writableTable_load {claims : Claims} {tableName : String} {table : LoadedTable}
    (h : writableTable pf db claims tableName = .ok table) :
    loadTable pf db claims.appId tableName = some table := by
  simp only [writableTable, requireTable, Outcome.bind_eq_ok, Outcome.require_eq_ok] at h
  obtain ⟨t, hload, _, -, heq⟩ := h
  cases heq
  exact hload

theorem carried_createRow (c : CreateRowCall) :
    Carried pf db (.request (.createRow c)) (.request (.createRow (c.step pf env db).2)) := by
  obtain ⟨claims, tableName, payload, stage⟩ := c
  cases stage with
  | received =>
    simp only [CreateRowCall.step]
    split
    · exact .none rfl rfl
    · rename_i table htable
      exact .loaded rfl rfl (writableTable_load htable)
  | tableLoaded table =>
    simp only [CreateRowCall.step]
    split
    · exact .none rfl rfl
    · exact .same rfl rfl
  | counted table workspaceId used =>
    simp only [CreateRowCall.step]
    split
    · exact .none rfl rfl
    · exact .same rfl rfl
  | checked table workspaceId normalized =>
    simp only [CreateRowCall.step]
    split
    · exact .none rfl rfl
    · exact .same rfl rfl
  | audited table row =>
    simp only [CreateRowCall.step]
    split
    · exact .none rfl rfl
    · exact .none rfl rfl
  | usageRecorded table row => exact .none rfl rfl
  | logged table row => exact .none rfl rfl
  | _ => exact .same rfl rfl

theorem carried_updateRow (c : UpdateRowCall) :
    Carried pf db (.request (.updateRow c)) (.request (.updateRow (c.step pf env db).2)) := by
  obtain ⟨claims, tableName, rowId, payload, stage⟩ := c
  cases stage with
  | received =>
    simp only [UpdateRowCall.step]
    split
    · exact .none rfl rfl
    · rename_i table htable
      exact .loaded rfl rfl (Outcome.require_eq_ok.mp htable)
  | tableLoaded table =>
    simp only [UpdateRowCall.step]
    split
    · exact .none rfl rfl
    · exact .same rfl rfl
  | audited table =>
    simp only [UpdateRowCall.step]
    split
    · exact .none rfl rfl
    · exact .none rfl rfl
  | rewritten table normalized => exact .none rfl rfl
  | logged table => exact .none rfl rfl
  | _ => exact .same rfl rfl

theorem claims_updateTable (c : UpdateTableCall) : (c.step pf env db).2.claims = c.claims := by
  unfold UpdateTableCall.step
  repeat' split
  all_goals rfl

theorem carried_importRows (c : ImportRowsCall) :
    Carried pf db (.request (.importRows c)) (.request (.importRows (c.step pf env db).2)) := by
  obtain ⟨claims, tableName, payload, stage⟩ := c
  cases stage with
  | received =>
    simp only [ImportRowsCall.step]
    split
    · exact .none rfl rfl
    · rename_i table htable
      exact .loaded rfl rfl (TableCall.importTable_load htable)
  | tableLoaded table =>
    simp only [ImportRowsCall.step]
    split
    · exact .none rfl rfl
    · rename_i plan hplan
      split
      · exact .none rfl rfl
      · exact .same rfl (congrArg some (TableCall.importPlan_ok hplan).1)
  | cleared plan =>
    simp only [ImportRowsCall.step]
    split
    · exact .same rfl rfl
    · split
      · exact .none rfl rfl
      · exact .none rfl rfl
  | restoreCounted plan spec =>
    simp only [ImportRowsCall.step]
    split
    · exact .none rfl rfl
    · exact .none rfl rfl
  | restored plan =>
    simp only [ImportRowsCall.step]
    split
    · exact .none rfl rfl
    · rename_i table hload
      exact .loaded rfl rfl hload
  | inserting plan table n rest =>
    cases rest with
    | nil => exact .none rfl rfl
    | cons row rest =>
      simp only [ImportRowsCall.step]
      split
      · exact .none rfl rfl
      · split
        · exact .none rfl rfl
        · exact .same rfl rfl
  | _ => exact .same rfl rfl

theorem carried_deleteRow (c : DeleteRowCall) :
    Carried pf db (.delete c) (.delete (c.step pf env db).2) := by
  obtain ⟨claims, tableName, rowId, stage⟩ := c
  cases stage with
  | received =>
    simp only [DeleteRowCall.step]
    split
    · exact .none rfl rfl
    · rename_i table htable
      exact .loaded rfl rfl (Outcome.require_eq_ok.mp htable)
  | tableLoaded table =>
    simp only [DeleteRowCall.step]
    split
    · exact .none rfl rfl
    · exact .same rfl rfl
  | located table existing =>
    simp only [DeleteRowCall.step]
    split
    · exact .none rfl rfl
    · exact .same rfl rfl
  | deleted table existing => exact .none rfl rfl
  | _ => exact .same rfl rfl

theorem step_carried (c : RowCall) : Carried pf db c (c.step pf env db).2 := by
  cases c with
  | request c =>
    cases c with
    | createRow c => exact carried_createRow c
    | updateRow c => exact carried_updateRow c
    | updateTable c => exact .none (claims_updateTable c) rfl
    | importRows c => exact carried_importRows c
  | delete c => exact carried_deleteRow c

/-- **A statement** leaves the request with a table of its app. -/
theorem RowCall.Carries.step (h : c.Carries db) (pf : Platform) (env : Env) :
    (c.step pf env db).2.Carries (c.step pf env db).1 := by
  obtain ⟨hclaims, hcarried⟩ := @step_carried pf env db c
  intro table htable
  rw [hclaims]
  rcases hcarried table htable with hold | ⟨name, hload⟩
  · exact ⟨(h table hold).1, (h table hold).2.keep (step_tablesStay c)⟩
  · obtain ⟨hmem, happ, -⟩ := loadTable_some hload
    have hknown : Known db table := ⟨table, hmem, rfl, rfl, rfl⟩
    exact ⟨happ, hknown.keep (step_tablesStay c)⟩

theorem RowCall.Received.carries (h : c.Received) (db : Db) : c.Carries db := by
  intro table hcarried
  rcases c with (c | c | c | c) | c
  · obtain ⟨claims, tableName, payload, stage⟩ := c
    cases h
    cases hcarried
  · obtain ⟨claims, tableName, rowId, payload, stage⟩ := c
    cases h
    cases hcarried
  · cases hcarried
  · obtain ⟨claims, tableName, payload, stage⟩ := c
    cases h
    cases hcarried
  · obtain ⟨claims, tableName, rowId, stage⟩ := c
    cases h
    cases hcarried

end Statements

/-! ### What is sent -/

/-- **The event says what the log says.** -/
structure DataRowRealtimeEvent.Tells (e : DataRowRealtimeEvent) (db : Db) (entry : DataRowEvent) :
    Prop where
  id : e.id = entry.id
  appId : e.appId = entry.appId
  rowId : e.rowId = entry.rowId
  actorUserId : e.actorUserId = entry.actorUserId
  action : e.action = entry.action
  diff : e.diff = entry.diff
  table : ∃ t ∈ db.dataTables, t.id = entry.tableId ∧ t.appId = e.appId ∧ t.name = e.tableName

/-- What a statement does to the log, and what there is to send afterwards. -/
inductive LogChange (db db' : Db) : Option DataRowRealtimeEvent → Prop
  | kept (log : db'.rowLog = db.rowLog) : LogChange db db' none
  | recorded {e : DataRowRealtimeEvent} {entry : DataRowEvent} (tells : e.Tells db' entry)
      (id : entry.id = db.dataRowEventSeq + 1) (seq : db'.dataRowEventSeq = entry.id)
      (mem_iff : ∀ x, x ∈ db'.dataRowEvents ↔ x ∈ db.dataRowEvents ∨ x = entry) :
      LogChange db db' (some e)

section Writers

variable {pf : Platform} {env : Env} {s : LiveStore} {w : WriterCall} {db db' : Db}
  {e : DataRowRealtimeEvent} {entry : DataRowEvent}

theorem DataRowRealtimeEvent.Tells.keep (h : e.Tells db entry) (hkeeps : TablesStay db db') :
    e.Tells db' entry := by
  obtain ⟨t, ht, hid, happ, hname⟩ := h.table
  obtain ⟨t', ht', hid', happ', hname'⟩ := hkeeps t ht
  exact { h with table := ⟨t', ht', hid'.trans hid, happ'.trans happ, hname'.trans hname⟩ }

theorem RowEventDraft.record_change {d : RowEventDraft} {claims : Claims} {id : Nat}
    (happ : d.table.appId = claims.appId) (hknown : Known db d.table)
    (h : d.record db env claims = some (id, db')) :
    LogChange db db' (some (d.emitted claims id)) := by
  obtain ⟨events, hinsert, hdb⟩ := recordRowEvent_eq_some h
  have hid : id = db.dataRowEventSeq + 1 := by
    unfold RowEventDraft.record Db.recordRowEvent at h
    dsimp only at h
    split at h
    · obtain ⟨_, -, heq⟩ := Option.map_eq_some_iff.mp h
      exact (congrArg Prod.fst heq).symm
    · cases h
  obtain ⟨t, ht, htid, htapp, htname⟩ := hknown
  subst hid hdb
  have htells : (d.emitted claims (db.dataRowEventSeq + 1)).Tells
      { db with dataRowEvents := events, dataRowEventSeq := db.dataRowEventSeq + 1 }
      (newRowEvent db env claims.appId d.table.id d.rowId claims.sub d.action d.diff) :=
    ⟨rfl, rfl, rfl, rfl, rfl, rfl, t, ht, htid, htapp.trans happ, htname⟩
  exact .recorded htells rfl rfl fun x => KeyedTable.mem_insert? hinsert

theorem WriterCall.step_unsent (h : w.unsent = some e) :
    w.step pf env s = ({ s with sent := s.sent ++ [e] }, { w with unsent := none }) := by
  simp only [WriterCall.step, h]

/-- **A statement of a writer** logs what there is to send afterwards. -/
theorem WriterCall.step_change (hunsent : w.unsent = none) (hcarries : w.call.Carries s.db) :
    (w.step pf env s).1 = { s with db := (w.call.step pf env s.db).1 } ∧
      (w.step pf env s).2.call = (w.call.step pf env s.db).2 ∧
      LogChange s.db (w.call.step pf env s.db).1 (w.step pf env s).2.unsent := by
  have hstep : w.step pf env s = ({ s with db := (w.call.step pf env s.db).1 },
      { call := (w.call.step pf env s.db).2, owner := w.call.foundOwner.getD w.owner
        unsent := (w.call.draft w.owner).bind fun d =>
          (d.record s.db env w.call.claims).map fun r => d.emitted w.call.claims r.1 }) := by
    simp only [WriterCall.step, hunsent]
  rw [hstep]
  refine ⟨rfl, rfl, ?_⟩
  dsimp only
  rcases hdraft : w.call.draft w.owner with _ | d
  · exact .kept (step_of_no_draft hdraft)
  · obtain ⟨hlog, hcarried⟩ := @step_of_draft pf env s.db _ _ _ hdraft
    obtain ⟨happ, hknown⟩ := hcarries d.table hcarried
    rw [hlog, Option.bind_some]
    rcases hrecord : d.record s.db env w.call.claims with _ | ⟨id, db'⟩
    · have hsame : s.db.logRowEvent env w.call.claims.appId d.table.id d.rowId w.call.claims.sub
          d.action d.diff = s.db := by
        rw [Db.logRowEvent, show s.db.recordRowEvent env _ _ _ _ _ _ = none from hrecord]
      rw [hsame, Option.map_none]
      exact .kept rfl
    · rw [logRowEvent_of_recorded hrecord, Option.map_some]
      exact d.record_change happ hknown hrecord

end Writers

end Peanut
