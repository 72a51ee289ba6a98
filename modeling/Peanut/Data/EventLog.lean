import Mathlib.Data.List.Sort
import Peanut.Library.ChangeLog
import Peanut.Data.ImportAtomicity

/-!
# The row event log

Every row a request adds, changes or removes should appear in `data_row_events`
with the document it leaves behind: clients rebuild a table by replaying the
events of the table in the order of their ids.  This module replays the log and
follows it through the row requests.  `create_row`, `update_row` and
`delete_row` log what they do; an import logs the rows it inserts but not the
rows a `replace` clears, and `rows_follow_events_iff` says when that shows.
-/

namespace Peanut

open Relational ChangeLog

/-! ### Replaying the log -/

/-- What an event says about the map from row ids to documents. -/
def DataRowEvent.change (e : DataRowEvent) : Option (Change String Value) :=
  if e.action = "insert" ∨ e.action = "update" then e.diff.map fun document => .put e.rowId document
  else if e.action = "delete" then some (.remove e.rowId)
  else none

/-- `ORDER BY id ASC`. -/
def orderById (events : List DataRowEvent) : List DataRowEvent :=
  events.mergeSort fun a b => decide (a.id ≤ b.id)

/-- The log: the events and the last id that was handed out. -/
structure RowLog where
  events : KeyedTable DataRowEvent (·.id)
  seq : Nat

def Db.rowLog (db : Db) : RowLog := { events := db.dataRowEvents, seq := db.dataRowEventSeq }

namespace RowLog

/-- The changes the log records for a table. -/
def history (log : RowLog) (tableId : String) : List (Change String Value) :=
  (orderById (log.events.select fun e => e.tableId == tableId)).filterMap DataRowEvent.change

/-- No event has an id that was not handed out. -/
def Issued (log : RowLog) : Prop := ∀ e ∈ log.events, e.id ≤ log.seq

end RowLog

/-- The documents of a table by row id. -/
def storedDocuments (db : Db) (tableId : String) (rowId : String) : Option Value :=
  (loadRow db tableId rowId).map (·.data)

/-- Replaying the log of a table gives its rows. -/
def RowsFollowEvents (db : Db) (tableId : String) : Prop :=
  replay (db.rowLog.history tableId) = storedDocuments db tableId

theorem orderById_append {events : List DataRowEvent} {e : DataRowEvent}
    (h : ∀ x ∈ events, x.id < e.id) (hnodup : (events.map (·.id)).Nodup) :
    orderById (events ++ [e]) = orderById events ++ [e] := by
  have htrans : ∀ a b c : DataRowEvent, decide (a.id ≤ b.id) = true → decide (b.id ≤ c.id) = true →
      decide (a.id ≤ c.id) = true := by
    simp only [decide_eq_true_eq]
    omega
  have htotal : ∀ a b : DataRowEvent, (decide (a.id ≤ b.id) || decide (b.id ≤ a.id)) = true := by
    simp only [Bool.or_eq_true, decide_eq_true_eq]
    omega
  have hmem : ∀ x, x ∈ orderById events ↔ x ∈ events := fun x => List.mem_mergeSort
  have hsorted : (orderById events ++ [e]).Pairwise fun a b => decide (a.id ≤ b.id) = true := by
    rw [List.pairwise_append]
    refine ⟨List.pairwise_mergeSort htrans htotal events, List.pairwise_singleton _ _, ?_⟩
    intro a ha b hb
    rw [List.mem_singleton] at hb
    subst hb
    exact decide_eq_true (Nat.le_of_lt (h a ((hmem a).mp ha)))
  have hperm : (orderById (events ++ [e])).Perm (orderById events ++ [e]) :=
    (List.mergeSort_perm _ _).trans ((List.mergeSort_perm events _).symm.append_right [e])
  -- ids are distinct, so there is only one way to order the events by id
  refine List.Perm.eq_of_pairwise ?_ (List.pairwise_mergeSort htrans htotal _) hsorted hperm
  have hdistinct : ((events ++ [e]).map (·.id)).Nodup := by
    rw [List.map_append, List.map_singleton, List.nodup_append]
    refine ⟨hnodup, List.nodup_singleton _, ?_⟩
    intro a ha b hb
    rw [List.mem_singleton] at hb
    obtain ⟨x, hx, rfl⟩ := List.mem_map.mp ha
    have := h x hx
    omega
  intro a b ha hb hab hba
  have ha' : a ∈ events ++ [e] := List.mem_mergeSort.mp ha
  have hb' : b ∈ events ++ [e] := List.mem_mergeSort.mp (hperm.mem_iff.mpr hb)
  simp only [decide_eq_true_eq] at hab hba
  exact List.inj_on_of_nodup_map hdistinct ha' hb' (by omega)

/-! ### One event -/

/-- The event `record_row_event` writes. -/
def newRowEvent (db : Db) (env : Env) (appId tableId rowId actorUserId action : String)
    (diff : Option Value) : DataRowEvent :=
  { id := db.dataRowEventSeq + 1, appId := appId, tableId := tableId, rowId := rowId
    actorUserId := actorUserId, action := action, diff := diff, createdAt := env.now }

variable {db db' : Db} {appId tableId rowId actor action : String} {diff : Option Value}

theorem recordRowEvent_eq_some {env : Env} {id : Nat}
    (h : db.recordRowEvent env appId tableId rowId actor action diff = some (id, db')) :
    ∃ events, db.dataRowEvents.insert? (newRowEvent db env appId tableId rowId actor action diff) =
        some events ∧
      db' = { db with dataRowEvents := events, dataRowEventSeq := db.dataRowEventSeq + 1 } := by
  unfold Db.recordRowEvent at h
  dsimp only at h
  split at h
  · obtain ⟨events, hins, heq⟩ := Option.map_eq_some_iff.mp h
    cases heq
    exact ⟨events, hins, rfl⟩
  · cases h

/-- **A logged event** comes last in the history of its table and in no other. -/
theorem recordRowEvent_history {env : Env} {id : Nat} (hissued : db.rowLog.Issued)
    (h : db.recordRowEvent env appId tableId rowId actor action diff = some (id, db')) :
    db'.rowLog.Issued ∧ ∀ t, db'.rowLog.history t = db.rowLog.history t ++
      if tableId = t then
        (newRowEvent db env appId tableId rowId actor action diff).change.toList
      else [] := by
  obtain ⟨events, hins, rfl⟩ := recordRowEvent_eq_some h
  obtain ⟨-, hrows⟩ := KeyedTable.insert?_eq_some.mp hins
  refine ⟨?_, fun t => ?_⟩
  · intro e he
    rcases (KeyedTable.mem_insert? hins).mp he with he | rfl
    · exact Nat.le_succ_of_le (hissued e he)
    · exact Nat.le_refl _
  · have hselect : (events.select fun e => e.tableId == t) =
        (db.dataRowEvents.select fun e => e.tableId == t) ++
          if tableId = t then [newRowEvent db env appId tableId rowId actor action diff]
            else [] := by
      rw [KeyedTable.select, KeyedTable.select, hrows, List.filter_append]
      congr 1
      by_cases ht : tableId = t
      · rw [if_pos ht]
        exact List.filter_cons_of_pos (by simp [newRowEvent, ht])
      · rw [if_neg ht]
        exact List.filter_cons_of_neg (by simp [newRowEvent, ht])
    simp only [RowLog.history, Db.rowLog, hselect]
    by_cases ht : tableId = t
    · rw [if_pos ht, if_pos ht, orderById_append, List.filterMap_append]
      · rfl
      · intro e he
        exact Nat.lt_succ_of_le (hissued e (KeyedTable.mem_select.mp he).1)
      · exact db.dataRowEvents.nodup.sublist (List.filter_sublist.map _)
    · rw [if_neg ht, if_neg ht, List.append_nil, List.append_nil]

theorem logRowEvent_of_recorded {env : Env} {id : Nat}
    (h : db.recordRowEvent env appId tableId rowId actor action diff = some (id, db')) :
    db.logRowEvent env appId tableId rowId actor action diff = db' := by
  rw [Db.logRowEvent, h]

theorem logRowEvent_issued (h : db.rowLog.Issued) (env : Env)
    (appId tableId rowId actor action : String) (diff : Option Value) :
    (db.logRowEvent env appId tableId rowId actor action diff).rowLog.Issued := by
  unfold Db.logRowEvent
  split
  · rename_i hrecord
    exact (recordRowEvent_history h hrecord).1
  · exact h

/-! ### Ids are handed out once

Only `record_row_event` writes the log; a table or a user that goes takes events
along. -/

theorem RowLog.Issued.deleteWhere {log : RowLog} (h : log.Issued) (p : DataRowEvent → Bool) :
    RowLog.Issued { log with events := log.events.deleteWhere p } :=
  fun e he => h e (KeyedTable.mem_deleteWhere.mp he).1

@[simp] theorem recordAuditLog_rowLog (db : Db) (env : Env) (uuid : String) (appId : Option String)
    (claims : Claims) (action targetType targetId : String) (metadata : Value) :
    (db.recordAuditLog env uuid appId claims action targetType targetId metadata).rowLog =
      db.rowLog := by
  obtain ⟨logs, hlogs⟩ :=
    db.recordAuditLog_frame env uuid appId claims action targetType targetId metadata
  rw [hlogs]
  rfl

@[simp] theorem recordUsage_rowLog (db : Db) (env : Env) (workspaceId : String) (key : ResourceKey)
    (amount : Int) : (recordUsage db env workspaceId key amount).rowLog = db.rowLog := by
  obtain ⟨counters, hcounters⟩ := recordUsage_frame db env workspaceId key amount
  rw [hcounters]
  rfl

@[simp] theorem recordAuthEvent_rowLog (db : Db) (env : Env) (uuid appId userId : String)
    (actor : Option String) (action : String) (metadata : Option Value) :
    (recordAuthEvent db env uuid appId userId actor action metadata).rowLog = db.rowLog := by
  unfold recordAuthEvent
  split
  · split <;> rfl
  · rfl

theorem insertUser_rowLog {u : User} (h : db.insertUser u = some db') :
    db'.rowLog = db.rowLog := by
  obtain ⟨users, -, rfl⟩ := Db.insertUser_eq_some h
  rfl

theorem insertDataRow_rowLog {r : DataRow} (h : db.insertDataRow r = some db') :
    db'.rowLog = db.rowLog := by
  obtain ⟨-, -, rows, -, rfl⟩ := Db.insertDataRow_eq_some.mp h
  rfl

theorem clearStage_rowLog (db : Db) (claims : Claims) (plan : ImportPlan) :
    (clearStage db claims plan).rowLog = db.rowLog := by
  unfold clearStage
  split <;> rfl

theorem restoreStage_rowLog (pf : Platform) (db : Db) (claims : Claims) (plan : ImportPlan) :
    (restoreStage pf db claims plan).1.rowLog = db.rowLog := by
  unfold restoreStage
  split
  · unfold restoreTableDefinition
    exact Outcome.proceed_rule (P := fun s : Db => s.rowLog = db.rowLog) rfl fun _ _ => rfl
  · rfl

theorem insertStage_issued (pf : Platform) (env : Env) (claims : Claims) (table : LoadedTable)
    (rows : List ImportRowRequest) :
    ∀ (n : Nat) (db : Db), db.rowLog.Issued →
      (insertStage pf env claims table n rows db).1.rowLog.Issued := by
  induction rows with
  | nil => intro n db h; exact h
  | cons row rest ih =>
    intro n db h
    rw [insertStage]
    refine Outcome.proceed_rule (P := fun s : Db => s.rowLog.Issued) h ?_
    intro planned _
    split
    · exact h
    · rename_i db' hinsert
      apply ih
      apply logRowEvent_issued
      rw [insertDataRow_rowLog hinsert]
      exact h

theorem deleteUser_issued {appId userId : String} {n : Nat} (h : db.rowLog.Issued)
    (hdelete : db.deleteUser appId userId = some (n, db')) : db'.rowLog.Issued := by
  unfold Db.deleteUser at hdelete
  split at hdelete
  · cases hdelete
    exact h
  · split at hdelete
    · cases hdelete
    · cases hdelete
      exact (h.deleteWhere _).deleteWhere fun e => e.actorUserId == userId

section Requests

variable {pf : Platform} {db : Db}

theorem createTable_issued (h : db.rowLog.Issued) (env : Env) (claims : Claims)
    (payload : CreateTableRequest) :
    (createTable pf db env claims payload).1.rowLog.Issued := by
  refine Outcome.proceed_rule (P := fun s : Db => s.rowLog.Issued) h ?_
  intro name _
  dsimp only
  split
  · exact h
  · rename_i db' hinsert
    obtain ⟨-, -, tables, -, rfl⟩ := Db.insertDataTable_eq_some.mp hinsert
    split
    · exact h
    · rw [recordAuditLog_rowLog]
      exact h

theorem createRow_issued (h : db.rowLog.Issued) (env : Env) (claims : Claims)
    (table : String) (payload : CreateRowRequest) :
    (createRow pf db env claims table payload).1.rowLog.Issued := by
  refine Outcome.proceed_rule (P := fun s : Db => s.rowLog.Issued) h ?_
  rintro ⟨table, workspaceId, data⟩ _
  dsimp only
  split
  · exact h
  · rename_i db' hinsert
    have hlogged : ∀ (rowId : String) (diff : Option Value),
        (Db.logRowEvent (recordUsage db' env workspaceId .dataRows 1) env claims.appId table.id
          rowId claims.sub "insert" diff).rowLog.Issued := by
      intro rowId diff
      apply logRowEvent_issued
      rw [recordUsage_rowLog, insertDataRow_rowLog hinsert]
      exact h
    split
    · rw [recordAuditLog_rowLog]
      exact hlogged _ _
    · rw [recordAuditLog_rowLog]
      exact hlogged _ _

theorem updateRow_issued (h : db.rowLog.Issued) (env : Env) (claims : Claims)
    (table rowId : String) (payload : CreateRowRequest) :
    (updateRow pf db env claims table rowId payload).1.rowLog.Issued := by
  refine Outcome.proceed_rule (P := fun s : Db => s.rowLog.Issued) h ?_
  rintro ⟨table, existing, data⟩ _
  dsimp only
  split
  · rw [recordAuditLog_rowLog]
    exact logRowEvent_issued (by exact h) _ _ _ _ _ _ _
  · rw [recordAuditLog_rowLog]
    exact logRowEvent_issued (by exact h) _ _ _ _ _ _ _

theorem importRows_issued (h : db.rowLog.Issued) (env : Env) (claims : Claims)
    (table : String) (payload : TableImportRequest) :
    (importRows pf db env claims table payload).1.rowLog.Issued := by
  refine Outcome.proceed_rule (P := fun s : Db => s.rowLog.Issued) h ?_
  intro plan _
  dsimp only
  split
  · exact h
  · have hrestored : (restoreStage pf (clearStage db claims plan) claims plan).1.rowLog.Issued := by
      rw [restoreStage_rowLog, clearStage_rowLog]
      exact h
    refine Outcome.proceed_rule (P := fun s : Db => s.rowLog.Issued) hrestored ?_
    intro table _
    exact insertStage_issued pf env claims table payload.rows 0 _ hrestored

theorem deleteAdminUser_issued (h : db.rowLog.Issued) (env : Env) (claims : Claims)
    (appId userId : String) :
    (deleteAdminUser db env claims appId userId).1.rowLog.Issued := by
  refine Outcome.proceed_rule (P := fun s : Db => s.rowLog.Issued) h ?_
  rintro ⟨claims', user⟩ _
  dsimp only
  split
  · exact h
  · exact h
  · rename_i n db' _ hdelete
    rw [recordAuthEvent_rowLog]
    refine deleteUser_issued ?_ hdelete
    exact h

theorem handleDataRequest_issued (h : db.rowLog.Issued) (request : DataRequest) :
    (handleDataRequest pf db request).rowLog.Issued := by
  cases request with
  | createTable env claims payload => exact createTable_issued h env claims payload
  | updateTable env claims table payload =>
    refine Outcome.proceed_rule (P := fun s : Db => s.rowLog.Issued) h ?_
    rintro ⟨existing, updated⟩ _
    dsimp only
    split
    · exact h
    · rw [recordAuditLog_rowLog]
      exact h
  | deleteTable env claims table =>
    refine Outcome.proceed_rule (P := fun s : Db => s.rowLog.Issued) h ?_
    intro existing _
    dsimp only
    rw [recordAuditLog_rowLog]
    exact h.deleteWhere _
  | createRow env claims table payload => exact createRow_issued h env claims table payload
  | updateRow env claims table rowId payload =>
    exact updateRow_issued h env claims table rowId payload
  | deleteRow env claims table rowId =>
    refine Outcome.proceed_rule (P := fun s : Db => s.rowLog.Issued) h ?_
    rintro ⟨table, existing⟩ _
    dsimp only
    rw [recordAuditLog_rowLog]
    exact logRowEvent_issued (by exact h) _ _ _ _ _ _ _
  | importRows env claims table payload => exact importRows_issued h env claims table payload
  | registerForApp env appId payload =>
    refine Outcome.proceed_rule (P := fun s : Db => s.rowLog.Issued) h ?_
    rintro ⟨workspaceId, passwordHash⟩ _
    dsimp only
    split
    · exact h
    · rename_i db' hinsert
      rw [recordAuthEvent_rowLog, recordUsage_rowLog, insertUser_rowLog hinsert]
      exact h
  | createAdminUser env claims appId payload =>
    refine Outcome.proceed_rule (P := fun s : Db => s.rowLog.Issued) h ?_
    rintro ⟨claims', workspaceId, passwordHash⟩ _
    dsimp only
    split
    · exact h
    · rename_i db' hinsert
      rw [recordAuthEvent_rowLog, recordUsage_rowLog, insertUser_rowLog hinsert]
      exact h
  | deleteAdminUser env claims appId userId =>
    exact deleteAdminUser_issued h env claims appId userId

end Requests

theorem issued_runData (pf : Platform) (db : Db) (requests : List DataRequest) :
    (runData pf db requests).rowLog.Issued := by
  have hstart : db.withoutData.rowLog.Issued := fun e he => absurd he (KeyedTable.not_mem_empty e)
  have hstep : ∀ s r, s.rowLog.Issued → (handleDataRequest pf s r).rowLog.Issued :=
    fun s r h => handleDataRequest_issued h r
  exact Transition.run_preserves hstep hstart requests

/-! ### The documents after a statement -/

theorem storedDocuments_core (h : db'.core = db.core) :
    storedDocuments db' = storedDocuments db := by
  have hrows : db'.dataRows = db.dataRows := congrArg DataCore.rows h
  funext tableId rowId
  simp only [storedDocuments, loadRow, hrows]

theorem storedDocuments_eq_some {data : Value} :
    storedDocuments db tableId rowId = some data ↔
      ∃ r ∈ db.dataRows, r.tableId = tableId ∧ r.id = rowId ∧ r.data = data := by
  simp only [storedDocuments, Option.map_eq_some_iff, loadRow_eq_some]
  constructor
  · rintro ⟨r, ⟨hr, htable, hid⟩, hdata⟩
    exact ⟨r, hr, htable, hid, hdata⟩
  · rintro ⟨r, hr, htable, hid, hdata⟩
    exact ⟨r, ⟨hr, htable, hid⟩, hdata⟩

theorem storedDocuments_ne_none :
    storedDocuments db tableId rowId ≠ none ↔
      ∃ r ∈ db.dataRows, r.tableId = tableId ∧ r.id = rowId := by
  rw [Option.ne_none_iff_exists']
  constructor
  · rintro ⟨data, hdata⟩
    obtain ⟨r, hr, htable, hid, -⟩ := storedDocuments_eq_some.mp hdata
    exact ⟨r, hr, htable, hid⟩
  · rintro ⟨r, hr, htable, hid⟩
    exact ⟨r.data, storedDocuments_eq_some.mpr ⟨r, hr, htable, hid, rfl⟩⟩

theorem storedDocuments_insert {r : DataRow} (h : db.insertDataRow r = some db') (t : String) :
    storedDocuments db' t = if r.tableId = t then
      Function.update (storedDocuments db t) r.id (some r.data) else storedDocuments db t := by
  obtain ⟨-, -, rows, hins, rfl⟩ := Db.insertDataRow_eq_some.mp h
  have hfree := (KeyedTable.insert?_eq_some.mp hins).1
  have hother : ∀ s ∈ db.dataRows, s.id ≠ r.id := by
    intro s hs hid
    have hkey := KeyedTable.hasKey_of_mem hs
    rw [hid, hfree] at hkey
    cases hkey
  funext rowId
  apply Option.ext
  intro data
  rw [storedDocuments_eq_some]
  simp only [KeyedTable.mem_insert? hins]
  by_cases ht : r.tableId = t
  · rw [if_pos ht]
    by_cases hid : rowId = r.id
    · rw [hid, Function.update_self, Option.some.injEq]
      constructor
      · rintro ⟨s, hs | rfl, -, hsid, hdata⟩
        · exact absurd hsid (hother s hs)
        · exact hdata
      · intro hdata
        exact ⟨r, .inr rfl, ht, rfl, hdata⟩
    · rw [Function.update_of_ne hid, storedDocuments_eq_some]
      constructor
      · rintro ⟨s, hs | rfl, hrest⟩
        · exact ⟨s, hs, hrest⟩
        · exact absurd hrest.2.1.symm hid
      · rintro ⟨s, hs, hrest⟩
        exact ⟨s, .inl hs, hrest⟩
  · rw [if_neg ht, storedDocuments_eq_some]
    constructor
    · rintro ⟨s, hs | rfl, hrest⟩
      · exact ⟨s, hs, hrest⟩
      · exact absurd hrest.1 ht
    · rintro ⟨s, hs, hrest⟩
      exact ⟨s, .inl hs, hrest⟩

theorem storedDocuments_rewrite {existing : DataRow}
    (h : loadRow db tableId rowId = some existing) (data : Value) (now t : String) :
    storedDocuments (db.rewriteRow rowId tableId data now) t = if tableId = t then
      Function.update (storedDocuments db t) rowId (some data) else storedDocuments db t := by
  obtain ⟨hexisting, htable, hid⟩ := loadRow_eq_some.mp h
  funext id
  apply Option.ext
  intro document
  have hmem : ∀ s, s ∈ (db.rewriteRow rowId tableId data now).dataRows ↔ ∃ r ∈ db.dataRows,
      s = if r.id == rowId && r.tableId == tableId then { r with data := data, updatedAt := now }
        else r :=
    fun s => DataCore.mem_rewriteRow (c := db.core)
  rw [storedDocuments_eq_some]
  simp only [hmem]
  by_cases htarget : tableId = t ∧ id = rowId
  · obtain ⟨rfl, rfl⟩ := htarget
    rw [if_pos rfl, Function.update_self, Option.some.injEq]
    constructor
    · rintro ⟨s, ⟨r, hr, rfl⟩, hst, hsid, hdata⟩
      split at hdata
      · exact hdata
      · rename_i hno
        rw [if_neg hno] at hst hsid
        exact absurd (by simp [hst, hsid]) hno
    · intro hdata
      exact ⟨{ existing with data := data, updatedAt := now },
        ⟨existing, hexisting, by simp [htable, hid]⟩,
        htable, hid, hdata⟩
  · have hkeep : (if tableId = t then Function.update (storedDocuments db t) rowId (some data)
        else storedDocuments db t) id = storedDocuments db t id := by
      split
      · rename_i ht
        exact Function.update_of_ne (fun hid => htarget ⟨ht, hid⟩) _ _
      · rfl
    rw [hkeep, storedDocuments_eq_some]
    constructor
    · rintro ⟨s, ⟨r, hr, rfl⟩, hst, hsid, hdata⟩
      split at hst
      · rename_i hyes
        rw [if_pos hyes] at hsid
        simp only [Bool.and_eq_true, beq_iff_eq] at hyes
        exact absurd ⟨hyes.2.symm.trans hst, hsid.symm.trans hyes.1⟩ htarget
      · rename_i hno
        rw [if_neg hno] at hsid hdata
        exact ⟨r, hr, hst, hsid, hdata⟩
    · rintro ⟨r, hr, hst, hsid, hdata⟩
      have hno : ¬ (r.id == rowId && r.tableId == tableId) = true := by
        simp only [Bool.and_eq_true, beq_iff_eq]
        rintro ⟨h1, h2⟩
        exact htarget ⟨h2.symm.trans hst, hsid.symm.trans h1⟩
      exact ⟨r, ⟨r, hr, (if_neg hno).symm⟩, hst, hsid, hdata⟩

theorem storedDocuments_deleteRow (db : Db) (rowId tableId t : String) :
    storedDocuments (db.deleteRows fun r => r.id == rowId && r.tableId == tableId) t =
      if tableId = t then Function.update (storedDocuments db t) rowId none
      else storedDocuments db t := by
  funext id
  apply Option.ext
  intro document
  rw [storedDocuments_eq_some]
  simp only [Db.deleteRows, KeyedTable.mem_deleteWhere, Bool.and_eq_false_iff, beq_eq_false_iff_ne]
  by_cases htarget : tableId = t ∧ id = rowId
  · obtain ⟨rfl, rfl⟩ := htarget
    rw [if_pos rfl, Function.update_self]
    constructor
    · rintro ⟨r, ⟨-, hne⟩, hst, hsid, -⟩
      rcases hne with hne | hne
      · exact absurd hsid hne
      · exact absurd hst hne
    · intro hnone
      cases hnone
  · have hkeep : (if tableId = t then Function.update (storedDocuments db t) rowId none
        else storedDocuments db t) id = storedDocuments db t id := by
      split
      · rename_i ht
        exact Function.update_of_ne (fun hid => htarget ⟨ht, hid⟩) _ _
      · rfl
    rw [hkeep, storedDocuments_eq_some]
    constructor
    · rintro ⟨r, ⟨hr, -⟩, hrest⟩
      exact ⟨r, hr, hrest⟩
    · rintro ⟨r, hr, hst, hsid, hdata⟩
      refine ⟨r, ⟨hr, ?_⟩, hst, hsid, hdata⟩
      by_cases hid : r.id = rowId
      · exact .inr fun ht => htarget ⟨ht.symm.trans hst, hsid.symm.trans hid⟩
      · exact .inl hid

theorem storedDocuments_clearStage {pf : Platform} {claims : Claims} {plan : ImportPlan}
    (hwf : WellFormed pf db.core) (htable : plan.table ∈ db.dataTables)
    (happ : plan.table.appId = claims.appId) (t : String) :
    storedDocuments (clearStage db claims plan) t =
      if plan.replace = true ∧ plan.table.id = t then fun _ => none else storedDocuments db t := by
  funext id
  apply Option.ext
  intro document
  rw [storedDocuments_eq_some]
  simp only [mem_clearStage hwf htable happ]
  split
  · rename_i hgone
    constructor
    · rintro ⟨r, ⟨-, hkept⟩, ht, -⟩
      exact absurd ⟨hgone.1, ht.trans hgone.2.symm⟩ hkept
    · intro hnone
      cases hnone
  · rename_i hgone
    rw [storedDocuments_eq_some]
    constructor
    · rintro ⟨r, ⟨hr, -⟩, hrest⟩
      exact ⟨r, hr, hrest⟩
    · rintro ⟨r, hr, ht, hrest⟩
      exact ⟨r, ⟨hr, fun h => hgone ⟨h.1, h.2.symm.trans ht⟩⟩, ht, hrest⟩

end Peanut
