import Peanut.Data.EventLog

/-!
# Runs of row requests and their events

Row requests in which no statement fails, one after the other, from an empty
table.  Each request appends changes to the log of the table and changes the
documents; `LoggedStep` relates the two.
-/

namespace Peanut

open Relational ChangeLog

/-! ### Requests whose statements succeed -/

def DataRequest.isRowRequest : DataRequest → Bool
  | .createRow .. | .updateRow .. | .deleteRow .. | .importRows .. => true
  | _ => false

/-- Is every row of the insert loop of an import stored and logged? -/
def insertsSucceed (pf : Platform) (env : Env) (claims : Claims) (table : LoadedTable) :
    Nat → List ImportRowRequest → Db → Bool
  | _, [], _ => true
  | n, row :: rest, db =>
      match planRow pf env claims table n row with
      | .error _ => true
      | .ok planned =>
          match db.insertDataRow planned with
          | none => false
          | some inserted =>
              match inserted.recordRowEvent env claims.appId table.id planned.id claims.sub
                  "insert" (some planned.data) with
              | none => false
              | some (_, logged) => insertsSucceed pf env claims table (n + 1) rest logged

/-- Does no statement of a row request fail?  Rows are inserted and events
    recorded; a request that is refused by its checks has no such statement. -/
def statementsSucceed (pf : Platform) (db : Db) : DataRequest → Bool
  | .createRow env claims tableName payload =>
      match createRowChecks pf db env claims tableName payload with
      | .error _ => true
      | .ok (table, workspaceId, data) =>
          match db.insertDataRow (newRow env claims table (env.uuid 0)
              (ownerUserIdForNewRow claims table.accessPolicy) data) with
          | none => false
          | some inserted =>
              ((recordUsage inserted env workspaceId .dataRows 1).recordRowEvent env claims.appId
                table.id (env.uuid 0) claims.sub "insert" (some data)).isSome
  | .updateRow env claims tableName rowId payload =>
      match updateRowChecks pf db claims tableName rowId payload with
      | .error _ => true
      | .ok (table, _, data) =>
          ((db.rewriteRow rowId table.id data env.now).recordRowEvent env claims.appId table.id
            rowId claims.sub "update" (some data)).isSome
  | .deleteRow env claims tableName rowId =>
      match requireRow pf db claims tableName rowId .delete with
      | .error _ => true
      | .ok (table, existing) =>
          ((db.deleteRows fun r => r.id == rowId && r.tableId == table.id).recordRowEvent env
            claims.appId table.id rowId claims.sub "delete" (some existing.data)).isSome
  | .importRows env claims tableName payload =>
      match importChecks pf db claims tableName payload with
      | .error _ => true
      | .ok plan =>
          plan.dryRun ||
            match restoreStage pf (clearStage db claims plan) claims plan with
            | (_, .error _) => true
            | (restored, .ok table) => insertsSucceed pf env claims table 0 payload.rows restored
  | _ => true

/-! ### What a request logs -/

/-- From `db` to `db'` the log of a table grew by `changes`, and the documents
    are what these changes make of `base`. -/
structure LoggedStep (db db' : Db) (tableId : String) (base : String → Option Value)
    (changes : List (Change String Value)) : Prop where
  history : db'.rowLog.history tableId = db.rowLog.history tableId ++ changes
  documents : storedDocuments db' tableId = replayFrom base changes

namespace LoggedStep

variable {db db' : Db} {tableId : String} {base : String → Option Value}
  {changes : List (Change String Value)}

theorem follows_iff (h : LoggedStep db db' tableId base changes)
    (hfollow : RowsFollowEvents db tableId) :
    RowsFollowEvents db' tableId ↔
      replayFrom (storedDocuments db tableId) changes = replayFrom base changes := by
  unfold RowsFollowEvents at hfollow ⊢
  rw [h.history, h.documents, replay_append, hfollow]

theorem follows (h : LoggedStep db db' tableId (storedDocuments db tableId) changes)
    (hfollow : RowsFollowEvents db tableId) : RowsFollowEvents db' tableId :=
  (h.follows_iff hfollow).mpr rfl

theorem refl (db : Db) (tableId : String) :
    LoggedStep db db tableId (storedDocuments db tableId) [] :=
  ⟨by simp, rfl⟩

theorem audited (h : LoggedStep db db' tableId base changes) (env : Env) (uuid : String)
    (appId : Option String) (claims : Claims) (action targetType targetId : String)
    (metadata : Value) :
    LoggedStep db (db'.recordAuditLog env uuid appId claims action targetType targetId metadata)
      tableId base changes := by
  refine ⟨?_, ?_⟩
  · rw [recordAuditLog_rowLog, h.history]
  · rw [storedDocuments_core (recordAuditLog_core _ _ _ _ _ _ _ _ _), h.documents]

end LoggedStep

variable {env : Env}

theorem recordRowEvent_core {db db' : Db} {appId tableId rowId actor action : String}
    {diff : Option Value} {id : Nat}
    (h : db.recordRowEvent env appId tableId rowId actor action diff = some (id, db')) :
    db'.core = db.core := by
  rw [← logRowEvent_of_recorded h, logRowEvent_core]

/-- **One changed row, one event.**  The statement puts or removes a document
    and the event that follows says so. -/
theorem LoggedStep.of_event {db changed logged : Db}
    {appId tableId rowId actor action : String} {diff : Option Value} {id : Nat}
    {change : Change String Value} (t : String) (hissued : db.rowLog.Issued)
    (hlog : changed.rowLog = db.rowLog)
    (hrecord : changed.recordRowEvent env appId tableId rowId actor action diff = some (id, logged))
    (hchange : (newRowEvent changed env appId tableId rowId actor action diff).change = some change)
    (hdocuments : storedDocuments changed t =
      if tableId = t then ChangeLog.apply (storedDocuments db t) change else storedDocuments db t) :
    LoggedStep db logged t (storedDocuments db t) (if tableId = t then [change] else []) := by
  obtain ⟨-, hhistory⟩ := recordRowEvent_history (by rw [hlog]; exact hissued) hrecord
  refine ⟨?_, ?_⟩
  · rw [hhistory t, hlog, hchange]
    rfl
  · rw [storedDocuments_core (recordRowEvent_core hrecord), hdocuments]
    split <;> rfl

variable {db : Db} {pf : Platform} {claims : Claims}

theorem createRow_logged
    {tableName : String} {payload : CreateRowRequest} (hissued : db.rowLog.Issued)
    (hsucceed : statementsSucceed pf db (.createRow env claims tableName payload) = true)
    (t : String) :
    ∃ changes, LoggedStep db (createRow pf db env claims tableName payload).1 t
      (storedDocuments db t) changes := by
  unfold createRow
  cases hchecks : createRowChecks pf db env claims tableName payload with
  | error e => exact ⟨[], .refl db t⟩
  | ok checked =>
    obtain ⟨table, workspaceId, data⟩ := checked
    obtain ⟨inserted, hinsert, ⟨id, logged⟩, hrecord⟩ :
        ∃ inserted, db.insertDataRow (newRow env claims table (env.uuid 0)
            (ownerUserIdForNewRow claims table.accessPolicy) data) = some inserted ∧
          ∃ recorded, (recordUsage inserted env workspaceId .dataRows 1).recordRowEvent env
            claims.appId table.id (env.uuid 0) claims.sub "insert" (some data) = some recorded := by
      simp only [statementsSucceed, hchecks] at hsucceed
      split at hsucceed
      · cases hsucceed
      · rename_i inserted hinsert
        exact ⟨inserted, hinsert, Option.isSome_iff_exists.mp hsucceed⟩
    have hdocuments : storedDocuments (recordUsage inserted env workspaceId .dataRows 1) t =
        if table.id = t then
          ChangeLog.apply (storedDocuments db t) (.put (env.uuid 0) data)
        else storedDocuments db t := by
      rw [storedDocuments_core (recordUsage_core _ _ _ _ _)]
      exact storedDocuments_insert hinsert t
    have hlog : (recordUsage inserted env workspaceId .dataRows 1).rowLog = db.rowLog := by
      rw [recordUsage_rowLog, insertDataRow_rowLog hinsert]
    have hstep : LoggedStep db logged t (storedDocuments db t)
        (if table.id = t then [.put (env.uuid 0) data] else []) :=
      .of_event t hissued hlog hrecord rfl hdocuments
    refine ⟨if table.id = t then [.put (env.uuid 0) data] else [], ?_⟩
    rw [Outcome.proceed_ok]
    dsimp only
    rw [hinsert]
    dsimp only
    rw [logRowEvent_of_recorded hrecord]
    split
    · exact hstep.audited _ _ _ _ _ _ _ _
    · exact hstep.audited _ _ _ _ _ _ _ _

theorem updateRow_logged
    {tableName rowId : String} {payload : CreateRowRequest} (hissued : db.rowLog.Issued)
    (hsucceed : statementsSucceed pf db (.updateRow env claims tableName rowId payload) = true)
    (t : String) :
    ∃ changes, LoggedStep db (updateRow pf db env claims tableName rowId payload).1 t
      (storedDocuments db t) changes := by
  unfold updateRow
  cases hchecks : updateRowChecks pf db claims tableName rowId payload with
  | error e => exact ⟨[], .refl db t⟩
  | ok checked =>
    obtain ⟨table, existing, data⟩ := checked
    simp only [statementsSucceed, hchecks, Option.isSome_iff_exists] at hsucceed
    obtain ⟨⟨id, logged⟩, hrecord⟩ := hsucceed
    obtain ⟨-, hload, -⟩ := requireRow_eq_ok.mp (updateRowChecks_ok hchecks).1
    have hlog : (db.rewriteRow rowId table.id data env.now).rowLog = db.rowLog := rfl
    have hstep : LoggedStep db logged t (storedDocuments db t)
        (if table.id = t then [.put rowId data] else []) :=
      .of_event t hissued hlog hrecord rfl (storedDocuments_rewrite hload data env.now t)
    refine ⟨if table.id = t then [.put rowId data] else [], ?_⟩
    rw [Outcome.proceed_ok]
    dsimp only
    rw [logRowEvent_of_recorded hrecord]
    split
    · exact hstep.audited _ _ _ _ _ _ _ _
    · exact hstep.audited _ _ _ _ _ _ _ _

theorem deleteRow_logged {tableName rowId : String} (hissued : db.rowLog.Issued)
    (hsucceed : statementsSucceed pf db (.deleteRow env claims tableName rowId) = true)
    (t : String) :
    ∃ changes, LoggedStep db (deleteRow pf db env claims tableName rowId).1 t
      (storedDocuments db t) changes := by
  unfold deleteRow
  cases hchecks : requireRow pf db claims tableName rowId .delete with
  | error e => exact ⟨[], .refl db t⟩
  | ok checked =>
    obtain ⟨table, existing⟩ := checked
    simp only [statementsSucceed, hchecks, Option.isSome_iff_exists] at hsucceed
    obtain ⟨⟨id, logged⟩, hrecord⟩ := hsucceed
    have hlog : (db.deleteRows fun r => r.id == rowId && r.tableId == table.id).rowLog =
        db.rowLog := rfl
    have hstep : LoggedStep db logged t (storedDocuments db t)
        (if table.id = t then [.remove rowId] else []) :=
      .of_event t hissued hlog hrecord rfl (storedDocuments_deleteRow db rowId table.id t)
    refine ⟨if table.id = t then [.remove rowId] else [], ?_⟩
    rw [Outcome.proceed_ok]
    dsimp only
    rw [logRowEvent_of_recorded hrecord]
    exact hstep.audited _ _ _ _ _ _ _ _

/-! ### What an import logs -/

/-- The id and the document of each planned row. -/
def plannedEntries (planned : List DataRow) : List (String × Value) :=
  planned.map fun r => (r.id, r.data)

theorem insertStage_logged {table : LoadedTable} (t : String) {rows : List ImportRowRequest} :
    ∀ {n : Nat} {db : Db} {planned : List DataRow}, db.rowLog.Issued →
      planRows pf env claims table n rows = .ok planned →
      insertsSucceed pf env claims table n rows db = true →
      LoggedStep db (insertStage pf env claims table n rows db).1 t (storedDocuments db t)
        (if table.id = t then puts (plannedEntries planned) else []) := by
  induction rows with
  | nil =>
    intro n db planned _ hplan _
    cases hplan
    rw [insertStage]
    simpa [plannedEntries, puts] using LoggedStep.refl db t
  | cons row rest ih =>
    intro n db planned hissued hplan hsucceed
    simp only [planRows, Outcome.bind_eq_ok] at hplan
    obtain ⟨first, hfirst, others, hothers, heq⟩ := hplan
    cases heq
    obtain ⟨inserted, hinsert, id, logged, hrecord, hrest⟩ :
        ∃ inserted, db.insertDataRow first = some inserted ∧ ∃ id logged,
          inserted.recordRowEvent env claims.appId table.id first.id claims.sub "insert"
            (some first.data) = some (id, logged) ∧
          insertsSucceed pf env claims table (n + 1) rest logged = true := by
      simp only [insertsSucceed, hfirst] at hsucceed
      split at hsucceed
      · cases hsucceed
      · rename_i inserted hinsert
        split at hsucceed
        · cases hsucceed
        · rename_i id logged hrecord
          exact ⟨inserted, hinsert, id, logged, hrecord, hsucceed⟩
    have hlog : inserted.rowLog = db.rowLog := insertDataRow_rowLog hinsert
    have hdocuments : storedDocuments inserted t = if table.id = t then
        ChangeLog.apply (storedDocuments db t) (.put first.id first.data)
        else storedDocuments db t := by
      rw [storedDocuments_insert hinsert t, (planRow_ok hfirst).1]
      rfl
    have hstep : LoggedStep db logged t (storedDocuments db t)
        (if table.id = t then [.put first.id first.data] else []) :=
      .of_event t hissued hlog hrecord rfl hdocuments
    have hnext := ih (recordRowEvent_history (by rw [hlog]; exact hissued) hrecord).1 hothers hrest
    rw [insertStage, hfirst, Outcome.proceed_ok, hinsert]
    dsimp only
    rw [logRowEvent_of_recorded hrecord]
    refine ⟨?_, ?_⟩
    · rw [hnext.history, hstep.history]
      split <;> simp [plannedEntries, puts]
    · rw [hnext.documents, hstep.documents]
      split <;> rfl

/-- **An import and its log.**  Refused or dry, an import does nothing.
    Otherwise the rows of the payload are logged one by one, on top of the old
    documents or, after a `replace`, of none. -/
theorem importRows_logged
    {tableName : String} {payload : TableImportRequest} (hwf : WellFormed pf db.core)
    (hissued : db.rowLog.Issued)
    (hsucceed : statementsSucceed pf db (.importRows env claims tableName payload) = true)
    (t : String) :
    (importRows pf db env claims tableName payload).1 = db ∧
        (∀ plan, importChecks pf db claims tableName payload = .ok plan → plan.dryRun = false →
          RestoreRefused pf db plan) ∨
      ∃ plan planned, importChecks pf db claims tableName payload = .ok plan ∧
        plan.dryRun = false ∧ ¬ RestoreRefused pf db plan ∧
        planRows pf env claims plan.effectiveTable 0 payload.rows = .ok planned ∧
        LoggedStep db (importRows pf db env claims tableName payload).1 t
          (if plan.replace = true ∧ plan.table.id = t then fun _ => none
            else storedDocuments db t)
          (if plan.table.id = t then puts (plannedEntries planned) else []) := by
  unfold importRows
  cases hchecks : importChecks pf db claims tableName payload with
  | error e =>
    refine .inl ⟨rfl, ?_⟩
    intro plan h
    cases h
  | ok plan =>
    obtain ⟨hload, -, hspec, hrowchecks⟩ := importChecks_ok hchecks
    obtain ⟨htable, happ, -⟩ := loadTable_some hload
    rw [Outcome.proceed_ok]
    cases hdry : plan.dryRun with
    | true =>
      refine .inl ⟨rfl, ?_⟩
      intro plan' h hno
      cases h
      rw [hdry] at hno
      cases hno
    | false =>
      simp only [Bool.false_eq_true, if_false]
      rcases restoreStage_outcome hwf htable happ hspec with ⟨hrefused, e, hout⟩ | ⟨hgo, hout⟩
      · rw [hout]
        refine .inl ⟨rfl, ?_⟩
        intro plan' h _
        cases h
        exact hrefused
      · obtain ⟨planned, hplanned⟩ := planRows_of_checks env claims hrowchecks 0
        refine .inr ⟨plan, planned, rfl, hdry, hgo, hplanned, ?_⟩
        rw [hout, Outcome.proceed_ok]
        dsimp only
        have hlog : (restoredDb (clearStage db claims plan) plan).rowLog = db.rowLog := by
          rw [← clearStage_rowLog db claims plan]
          unfold restoredDb
          split <;> rfl
        have hdocuments : storedDocuments (restoredDb (clearStage db claims plan) plan) t =
            storedDocuments (clearStage db claims plan) t := by
          unfold restoredDb
          split <;> rfl
        have hid : plan.effectiveTable.id = plan.table.id := by
          unfold ImportPlan.effectiveTable
          split <;> rfl
        simp only [statementsSucceed, hchecks, hdry, hout, Bool.false_or] at hsucceed
        have hstep := insertStage_logged t (by rw [hlog]; exact hissued) hplanned hsucceed
        rw [hid, hdocuments, storedDocuments_clearStage hwf htable happ] at hstep
        exact ⟨by rw [hstep.history, hlog], hstep.documents⟩

/-! ### Runs of row requests -/

/-- The ids the rows of a payload get. -/
def importIds (env : Env) : Nat → List ImportRowRequest → List String
  | _, [] => []
  | n, row :: rest => row.id.getD (env.uuid n) :: importIds env (n + 1) rest

theorem planRows_ids {table : LoadedTable} {rows : List ImportRowRequest} :
    ∀ {n : Nat} {planned : List DataRow}, planRows pf env claims table n rows = .ok planned →
      planned.map (·.id) = importIds env n rows := by
  induction rows with
  | nil =>
    intro n planned h
    cases h
    rfl
  | cons row rest ih =>
    intro n planned h
    simp only [planRows, planRow, Outcome.bind_eq_ok] at h
    obtain ⟨first, ⟨data, -, owner, -, hfirst⟩, others, hothers, heq⟩ := h
    cases heq
    cases hfirst
    rw [List.map_cons, ih hothers, newRow_id]
    rfl

/-- A `replace` that is carried out names every row the table has.  Requests of
    other kinds, imports into other tables and dry runs always qualify. -/
def keepsRowIds (pf : Platform) (db : Db) (tableId : String) : DataRequest → Bool
  | .importRows env claims tableName payload =>
      match importChecks pf db claims tableName payload with
      | .error _ => true
      | .ok plan =>
          plan.dryRun || !plan.replace || plan.table.id != tableId ||
            (db.dataRows.select fun r => r.tableId == tableId).all
              fun r => (importIds env 0 payload.rows).contains r.id
  | _ => true

/-- **Step lemma.**  From a faithful log, a row request leads to a faithful log
    exactly when it is not a `replace` that drops a row id. -/
theorem rowsFollowEvents_step {tableId : String} {request : DataRequest}
    (hwf : WellFormed pf db.core) (hissued : db.rowLog.Issued)
    (hrow : request.isRowRequest = true) (hsucceed : statementsSucceed pf db request = true)
    (hfollow : RowsFollowEvents db tableId) :
    RowsFollowEvents (handleDataRequest pf db request) tableId ↔
      keepsRowIds pf db tableId request = true := by
  cases request with
  | createRow env claims tableName payload =>
    obtain ⟨changes, hstep⟩ := createRow_logged hissued hsucceed tableId
    exact iff_of_true (hstep.follows hfollow) rfl
  | updateRow env claims tableName rowId payload =>
    obtain ⟨changes, hstep⟩ := updateRow_logged hissued hsucceed tableId
    exact iff_of_true (hstep.follows hfollow) rfl
  | deleteRow env claims tableName rowId =>
    obtain ⟨changes, hstep⟩ := deleteRow_logged hissued hsucceed tableId
    exact iff_of_true (hstep.follows hfollow) rfl
  | importRows env claims tableName payload =>
    rw [handleDataRequest]
    rcases importRows_logged hwf hissued hsucceed tableId with
      ⟨hsame, hrefused⟩ | ⟨plan, planned, hchecks, hdry, hgo, hplanned, hstep⟩
    · rw [hsame]
      refine iff_of_true hfollow ?_
      cases hchecks : importChecks pf db claims tableName payload with
      | error e => simp only [keepsRowIds, hchecks]
      | ok plan =>
        cases hdry : plan.dryRun with
        | true => simp [keepsRowIds, hchecks, hdry]
        | false =>
          obtain ⟨happend, -⟩ := hrefused plan hchecks hdry
          simp [keepsRowIds, hchecks, happend]
    · rw [hstep.follows_iff hfollow]
      simp only [keepsRowIds, hchecks, hdry, Bool.false_or]
      by_cases hclears : plan.replace = true ∧ plan.table.id = tableId
      · -- cleared rows are missing from the log, so the payload has to overwrite them all
        obtain ⟨hreplace, rfl⟩ := hclears
        have hids : (plannedEntries planned).map Prod.fst = importIds env 0 payload.rows := by
          rw [plannedEntries, List.map_map]
          exact planRows_ids hplanned
        simp only [hreplace, if_true, and_self, replayFrom_puts_eq_iff, hids,
          storedDocuments_ne_none, Bool.not_true, bne_self_eq_false, Bool.false_or,
          List.all_eq_true, KeyedTable.mem_select, List.contains_iff_mem, beq_iff_eq]
        constructor
        · rintro h r ⟨hr, htable⟩
          exact h r.id ⟨r, hr, htable, rfl⟩
        · rintro h id ⟨r, hr, htable, rfl⟩
          exact h r ⟨hr, htable⟩
      · rw [if_neg hclears]
        refine iff_of_true rfl ?_
        rcases not_and_or.mp hclears with hno | hno
        · simp [Bool.not_eq_true _ ▸ hno]
        · simp [hno]
  | _ => cases hrow

/-- A table without rows and without a past. -/
def FreshTable (db : Db) (tableId : String) : Prop :=
  (∀ r ∈ db.dataRows, r.tableId ≠ tableId) ∧ ∀ e ∈ db.dataRowEvents, e.tableId ≠ tableId

theorem rowsFollowEvents_of_fresh {tableId : String} (h : FreshTable db tableId) :
    RowsFollowEvents db tableId := by
  have hevents : (db.rowLog.events.select fun e => e.tableId == tableId) = [] := by
    rw [KeyedTable.select, List.filter_eq_nil_iff]
    intro e he
    simpa using h.2 e he
  have hnone : storedDocuments db tableId = fun _ => none := by
    funext rowId
    by_contra hsome
    obtain ⟨r, hr, htable, -⟩ := storedDocuments_ne_none.mp hsome
    exact h.1 r hr htable
  rw [RowsFollowEvents, RowLog.history, hevents, hnone, orderById, List.mergeSort_nil]
  rfl

/-- **The event log as a history.**  In a run of row requests whose statements
    all succeed, starting in any reachable store with a fresh table, replaying
    the events of the table gives its rows in every state reached exactly when
    no `replace` of the run drops a row id. -/
theorem rows_follow_events_iff (pf : Platform) (db : Db) (setup requests : List DataRequest)
    (tableId : String) (hfresh : FreshTable (runData pf db setup) tableId)
    (hrows : ∀ request ∈ requests, request.isRowRequest = true)
    (hsucceed : ∀ pre request post, requests = pre ++ request :: post →
      statementsSucceed pf (Transition.run (handleDataRequest pf) (runData pf db setup) pre)
        request = true) :
    (∀ pre post, requests = pre ++ post →
        RowsFollowEvents (Transition.run (handleDataRequest pf) (runData pf db setup) pre)
          tableId) ↔
      ∀ pre request post, requests = pre ++ request :: post →
        keepsRowIds pf (Transition.run (handleDataRequest pf) (runData pf db setup) pre) tableId
          request = true := by
  have hinv : ∀ (s : Db) (r : DataRequest),
      WellFormed pf s.core ∧ s.rowLog.Issued →
      r.isRowRequest = true ∧ statementsSucceed pf s r = true →
      WellFormed pf (handleDataRequest pf s r).core ∧ (handleDataRequest pf s r).rowLog.Issued :=
    fun s r h _ => ⟨h.1.steps (handleDataRequest_steps h.1 r), handleDataRequest_issued h.2 r⟩
  have hstep : ∀ (s : Db) (r : DataRequest),
      WellFormed pf s.core ∧ s.rowLog.Issued →
      r.isRowRequest = true ∧ statementsSucceed pf s r = true → RowsFollowEvents s tableId →
      (RowsFollowEvents (handleDataRequest pf s r) tableId ↔
        keepsRowIds pf s tableId r = true) :=
    fun s r h hallowed hfollow =>
      rowsFollowEvents_step h.1 h.2 hallowed.1 hallowed.2 hfollow
  refine Transition.good_iff_admissible_of_allowed hinv hstep
    ⟨wellFormed_runData pf db setup, issued_runData pf db setup⟩
    (rowsFollowEvents_of_fresh hfresh) ?_
  intro pre request post hsplit
  refine ⟨hrows request ?_, hsucceed pre request post hsplit⟩
  rw [hsplit]
  simp

/-! ### A table of notes and its events -/

/-- The administrator creates the table of notes. -/
def notesSetup : List DataRequest :=
  [.createTable (sampleEnv "t") root
    { name := "notes", displayName := "Notes", schema := noteSchema,
      accessPolicy := { mode := .authenticatedSharedRw } }]

def importNote (id title : String) : DataRequest :=
  .importRows (sampleEnv "r") root "notes" { rows := [{ id := some id, data := note title }] }

/-- A `replace` with one row. -/
def replaceNote (id title : String) : DataRequest :=
  .importRows (sampleEnv "r") root "notes"
    { mode := some "replace", rows := [{ id := some id, data := note title }] }

theorem notes_fresh : FreshTable (runData asciiPlatform rootDb notesSetup) "t0" := by
  refine ⟨?_, ?_⟩
  · intro r hr
    have hnone : (runData asciiPlatform rootDb notesSetup).dataRows.rows = [] := by decide +kernel
    rw [KeyedTable.mem_def, hnone] at hr
    cases hr
  · intro e he
    have hnone : (runData asciiPlatform rootDb notesSetup).dataRowEvents.rows = [] := by
      decide +kernel
    rw [KeyedTable.mem_def, hnone] at he
    cases he

/-- A `replace` that names the one row there is: the log stays faithful. -/
theorem replaced_note_follows :
    FreshTable (runData asciiPlatform rootDb notesSetup) "t0" ∧
      ∀ pre post, [importNote "a" "one", replaceNote "a" "two"] = pre ++ post →
        RowsFollowEvents (Transition.run (handleDataRequest asciiPlatform)
          (runData asciiPlatform rootDb notesSetup) pre) "t0" := by
  refine ⟨notes_fresh, (rows_follow_events_iff asciiPlatform rootDb notesSetup
    [importNote "a" "one", replaceNote "a" "two"] "t0" notes_fresh ?_ ?_).mpr ?_⟩
  · decide
  · intro pre request post hsplit
    rcases pre with _ | ⟨first, _ | ⟨second, rest⟩⟩
    · cases hsplit
      decide +kernel
    · cases hsplit
      decide +kernel
    · simp at hsplit
  · intro pre request post hsplit
    rcases pre with _ | ⟨first, _ | ⟨second, rest⟩⟩
    · cases hsplit
      decide +kernel
    · cases hsplit
      decide +kernel
    · simp at hsplit

/-- After a `replace` with another row, the log still has the old one. -/
theorem replaced_note_lingers :
    FreshTable (runData asciiPlatform rootDb notesSetup) "t0" ∧
      (∀ request ∈ [importNote "a" "one", replaceNote "b" "two"], request.isRowRequest = true) ∧
      statementsSucceed asciiPlatform (runData asciiPlatform rootDb notesSetup)
        (importNote "a" "one") = true ∧
      statementsSucceed asciiPlatform (handleDataRequest asciiPlatform
        (runData asciiPlatform rootDb notesSetup) (importNote "a" "one"))
        (replaceNote "b" "two") = true ∧
      ¬ RowsFollowEvents (Transition.run (handleDataRequest asciiPlatform)
        (runData asciiPlatform rootDb notesSetup) [importNote "a" "one", replaceNote "b" "two"])
        "t0" := by
  have hwf := wellFormed_runData asciiPlatform rootDb notesSetup
  have hissued := issued_runData asciiPlatform rootDb notesSetup
  have hfirst : RowsFollowEvents (handleDataRequest asciiPlatform
      (runData asciiPlatform rootDb notesSetup) (importNote "a" "one")) "t0" :=
    (rowsFollowEvents_step hwf hissued rfl (by decide +kernel)
      (rowsFollowEvents_of_fresh notes_fresh)).mpr (by decide +kernel)
  refine ⟨notes_fresh, by decide, by decide +kernel, by decide +kernel, ?_⟩
  rw [Transition.run, Transition.run, Transition.run,
    rowsFollowEvents_step (hwf.steps (handleDataRequest_steps hwf _))
      (handleDataRequest_issued hissued _) rfl (by decide +kernel) hfirst]
  decide +kernel

end Peanut
