import Peanut.Data.LiveRows
import Peanut.Library.TableChanges
import Peanut.Push.Idempotency

/-!
# What the requests of an app change

The statements with which rows are created, updated and deleted and with which messages are
queued write rows, events, messages and audit entries of the app of the request and count in
its workspace.  That holds of each statement, and so of a request that stops between two.
-/

namespace Peanut

open Relational Interleaving

/-- The database changed within an app: rows of the app, the counters of its workspace,
    and new entries of the app in the logs and in the queue. -/
structure WithinApp (appId : String) (db db' : Db) : Prop where
  rows : db.dataRows.ChangesOnly (·.appId = appId) db'.dataRows
  events : db.dataRowEvents.AddsOnly (·.appId = appId) db'.dataRowEvents
  logs : db.auditLogs.AddsOnly (·.appId = some appId) db'.auditLogs
  queue : db.pushQueue.AddsOnly (·.appId = appId) db'.pushQueue
  counters : db.usageCounters.ChangesOnly (fun c => appWorkspaceId db appId = some c.workspaceId)
    db'.usageCounters
  others : db' = { db with
    dataRows := db'.dataRows
    dataRowEvents := db'.dataRowEvents
    dataRowEventSeq := db'.dataRowEventSeq
    auditLogs := db'.auditLogs
    pushQueue := db'.pushQueue
    pushQueueSeq := db'.pushQueueSeq
    usageCounters := db'.usageCounters }

namespace WithinApp

variable {appId : String} {db db' db'' : Db} {env : Env}

theorem refl (appId : String) (db : Db) : WithinApp appId db db where
  rows := .refl _ _
  events := .refl _ _
  logs := .refl _ _
  queue := .refl _ _
  counters := .refl _ _
  others := rfl

theorem apps_eq (h : WithinApp appId db db') : db'.apps = db.apps := by rw [h.others]

theorem appWorkspaceId_eq (h : WithinApp appId db db') (a : String) :
    appWorkspaceId db' a = appWorkspaceId db a := by
  rw [appWorkspaceId, h.apps_eq, appWorkspaceId]

theorem trans (h : WithinApp appId db db') (h' : WithinApp appId db' db'') :
    WithinApp appId db db'' where
  rows := h.rows.trans h'.rows
  events := h.events.trans h'.events
  logs := h.logs.trans h'.logs
  queue := h.queue.trans h'.queue
  counters := by
    have hcounters := h'.counters
    simp only [h.appWorkspaceId_eq] at hcounters
    exact h.counters.trans hcounters
  others := by
    rw [h'.others, h.others]

theorem audit (db : Db) (env : Env) (uuid : String) (claims : Claims)
    (action targetType targetId : String) (metadata : Value) :
    WithinApp appId db
      (db.recordAuditLog env uuid (some appId) claims action targetType targetId metadata) := by
  unfold Db.recordAuditLog
  dsimp only
  split
  · split
    · rename_i logs hlogs
      exact { refl appId db with logs := KeyedTable.addsOnly_insert? hlogs rfl, others := rfl }
    · exact refl appId db
  · exact refl appId db

theorem rowEvent (db : Db) (env : Env) (tableId rowId actor action : String)
    (diff : Option Value) :
    WithinApp appId db (db.logRowEvent env appId tableId rowId actor action diff) := by
  unfold Db.logRowEvent Db.recordRowEvent
  dsimp only
  split
  · rename_i hrecorded
    split at hrecorded
    · obtain ⟨events, hevents, heq⟩ := Option.map_eq_some_iff.mp hrecorded
      cases heq
      exact { refl appId db with events := KeyedTable.addsOnly_insert? hevents rfl, others := rfl }
    · cases hrecorded
  · exact refl appId db

theorem usage {workspaceId : String} (h : appWorkspaceId db appId = some workspaceId) (env : Env)
    (resource : ResourceKey) (amount : Int) :
    WithinApp appId db (recordUsage db env workspaceId resource amount) := by
  unfold recordUsage
  dsimp only
  split
  · exact refl appId db
  · split
    · rename_i counters hcounters
      exact { refl appId db with
        counters := (KeyedTable.addsOnly_insert? hcounters h).changesOnly
        others := rfl }
    · refine { refl appId db with counters := ?_, others := rfl }
      have hcounter : ∀ c ∈ db.usageCounters, (c.workspaceId == workspaceId &&
          c.resourceKey == resource && c.periodStart == usagePeriodStart env resource) = true →
            appWorkspaceId db appId = some c.workspaceId := by
        intro c _ hc
        simp only [Bool.and_eq_true, beq_iff_eq] at hc
        rw [h, hc.1.1]
      exact KeyedTable.changesOnly_updateWhere
        (f := fun c : UsageCounter => { c with used := c.used + amount }) hcounter hcounter
        fun _ => rfl

end WithinApp

/-! ### One statement of a request -/

/-- The statement of a request changes the database within the app; `Holds` is what the
    request relies on. -/
structure StaysWithinApp {ρ : Type} (pf : Platform) (appId : String) (Holds : Db → ρ → Prop)
    (db : Db) (r : Db × ρ) : Prop where
  within : WithinApp appId db r.1
  wellFormed : WellFormed pf r.1.core
  holds : Holds r.1 r.2

theorem alone_withinApp {ε ρ : Type} {pf : Platform} {appId : String} {Holds : Db → ρ → Prop}
    {step : ε → Db → ρ → Db × ρ} {e : ε}
    (hstep : ∀ db c, WellFormed pf db.core → Holds db c →
      StaysWithinApp pf appId Holds db (step e db c))
    (stop : Nat) {db : Db} (hwf : WellFormed pf db.core) {c : ρ} (h : Holds db c) :
    WithinApp appId db (alone step e stop db c).1 ∧
      WellFormed pf (alone step e stop db c).1.core := by
  have hgoesOn : ∀ db' c, (WithinApp appId db db' ∧ WellFormed pf db'.core) ∧ Holds db' c →
      (WithinApp appId db (step e db' c).1 ∧ WellFormed pf (step e db' c).1.core) ∧
        Holds (step e db' c).1 (step e db' c).2 := by
    rintro db' c ⟨⟨hwithin, hwf'⟩, hholds⟩
    have hnext := hstep db' c hwf' hholds
    exact ⟨⟨hwithin.trans hnext.within, hnext.wellFormed⟩, hnext.holds⟩
  exact (alone_rule hgoesOn stop db c ⟨⟨.refl _ _, hwf⟩, h⟩).1

section Statements

variable {pf : Platform} {env : Env} {db : Db} {appId : String}

/-- The row a statement matches belongs to the app of its table. -/
theorem WellFormed.matched_mine (hwf : WellFormed pf db.core) {table : LoadedTable}
    (hknown : ∃ s ∈ db.dataTables, s.id = table.id ∧ s.appId = appId) (rowId : String) :
    ∀ r ∈ db.dataRows, (r.id == rowId && r.tableId == table.id) = true → r.appId = appId := by
  intro r hr hmatch
  obtain ⟨s, hs, hid, happ⟩ := hknown
  rw [Bool.and_eq_true, beq_iff_eq, beq_iff_eq] at hmatch
  rw [hwf.row_app hr hs (hid.trans hmatch.2.symm), happ]

/-! ### Creating a row -/

/-- The workspace that is counted in. -/
def CreateRowStage.workspace : CreateRowStage → Option String
  | .workspaceFound _ workspaceId => some workspaceId
  | .counted _ workspaceId _ => some workspaceId
  | .checked _ workspaceId _ => some workspaceId
  | .inserted _ workspaceId _ => some workspaceId
  | _ => none

structure CreateRowCall.Holds (pf : Platform) (appId : String) (db : Db) (c : CreateRowCall) :
    Prop where
  app_eq : c.claims.appId = appId
  sound : TableCall.Sound pf db (.createRow c)
  workspace : ∀ workspaceId, c.stage.workspace = some workspaceId →
    appWorkspaceId db appId = some workspaceId

theorem createRowStep_within {c : CreateRowCall} (h : c.Holds pf appId db) :
    WithinApp appId db (c.step pf env db).1 := by
  obtain ⟨claims, tableName, payload, stage⟩ := c
  obtain rfl : claims.appId = appId := h.app_eq
  cases stage with
  | checked table workspaceId normalized =>
    simp only [CreateRowCall.step]
    split
    · exact .refl _ _
    · rename_i db' hinsert
      obtain ⟨-, -, rows, hrows, rfl⟩ := Db.insertDataRow_eq_some.mp hinsert
      exact { WithinApp.refl claims.appId db with
        rows := (KeyedTable.addsOnly_insert? (P := (·.appId = claims.appId)) hrows rfl).changesOnly
        others := rfl }
  | inserted table workspaceId row => exact .usage (h.workspace _ rfl) env .dataRows 1
  | usageRecorded table row => exact .rowEvent db env table.id row.id claims.sub "insert" _
  | logged table row => exact .audit db env _ claims _ _ _ _
  | _ =>
    simp only [CreateRowCall.step]
    repeat' split
    all_goals exact .refl _ _

theorem createRowStep_workspace {c : CreateRowCall} {workspaceId : String}
    (h : (c.step pf env db).2.stage.workspace = some workspaceId) :
    c.stage.workspace = some workspaceId ∨ appWorkspaceId db c.claims.appId = some workspaceId := by
  obtain ⟨claims, tableName, payload, stage⟩ := c
  cases stage with
  | tableLoaded table =>
    simp only [CreateRowCall.step] at h
    split at h
    · cases h
    · rename_i found hfound
      cases h
      exact .inr hfound
  | workspaceFound table found => exact .inl h
  | counted table found used =>
    simp only [CreateRowCall.step] at h
    split at h
    · cases h
    · exact .inl h
  | checked table found normalized =>
    simp only [CreateRowCall.step] at h
    split at h
    · cases h
    · exact .inl h
  | received =>
    simp only [CreateRowCall.step] at h
    split at h
    · cases h
    · cases h
  | audited table row =>
    simp only [CreateRowCall.step] at h
    split at h
    · cases h
    · cases h
  | _ => cases h

/-- **A statement of a row that is created.** -/
theorem createRowStep_staysWithinApp (hwf : WellFormed pf db.core) {c : CreateRowCall}
    (h : c.Holds pf appId db) :
    StaysWithinApp pf appId (CreateRowCall.Holds pf appId) db (c.step pf env db) where
  within := createRowStep_within h
  wellFormed := (TableCall.step_effect env db (.createRow c)).wellFormed h.sound hwf
  holds := {
    app_eq := (congrArg Claims.appId (@carried_createRow pf env db c).1).trans h.app_eq
    sound := TableCall.sound_createRow h.sound hwf env
    workspace := by
      intro workspaceId hnext
      rw [(createRowStep_within h).appWorkspaceId_eq]
      rcases createRowStep_workspace hnext with hknown | hfound
      · exact h.workspace workspaceId hknown
      · rwa [h.app_eq] at hfound }

/-! ### Updating and deleting a row -/

structure UpdateRowCall.Holds (pf : Platform) (appId : String) (db : Db) (c : UpdateRowCall) :
    Prop where
  app_eq : c.claims.appId = appId
  sound : TableCall.Sound pf db (.updateRow c)

theorem updateRowStep_within (hwf : WellFormed pf db.core) {c : UpdateRowCall}
    (h : c.Holds pf appId db) : WithinApp appId db (c.step pf env db).1 := by
  obtain ⟨claims, tableName, rowId, payload, stage⟩ := c
  obtain rfl : claims.appId = appId := h.app_eq
  cases stage with
  | merged table existing normalized =>
    obtain ⟨happ, s, hs, hid, hsapp, -⟩ := h.sound.loaded table rfl
    have hmine := hwf.matched_mine ⟨s, hs, hid, hsapp.trans happ⟩ rowId
    exact { WithinApp.refl claims.appId db with
      rows := KeyedTable.changesOnly_updateWhere
        (f := fun r : DataRow => { r with data := normalized, updatedAt := env.now }) hmine hmine
        fun _ => rfl
      others := rfl }
  | rewritten table normalized => exact .rowEvent db env table.id rowId claims.sub "update" _
  | logged table => exact .audit db env _ claims _ _ _ _
  | _ =>
    simp only [UpdateRowCall.step]
    repeat' split
    all_goals exact .refl _ _

/-- **A statement of a row that is updated.** -/
theorem updateRowStep_staysWithinApp (hwf : WellFormed pf db.core) {c : UpdateRowCall}
    (h : c.Holds pf appId db) :
    StaysWithinApp pf appId (UpdateRowCall.Holds pf appId) db (c.step pf env db) where
  within := updateRowStep_within hwf h
  wellFormed := (TableCall.step_effect env db (.updateRow c)).wellFormed h.sound hwf
  holds := {
    app_eq := (congrArg Claims.appId (@carried_updateRow pf env db c).1).trans h.app_eq
    sound := TableCall.sound_updateRow h.sound hwf env }

structure DeleteRowCall.Holds (appId : String) (db : Db) (c : DeleteRowCall) : Prop where
  app_eq : c.claims.appId = appId
  carries : (RowCall.delete c).Carries db

theorem deleteRowStep_within (hwf : WellFormed pf db.core) {c : DeleteRowCall}
    (h : c.Holds appId db) : WithinApp appId db (c.step pf env db).1 := by
  obtain ⟨claims, tableName, rowId, stage⟩ := c
  obtain rfl : claims.appId = appId := h.app_eq
  cases stage with
  | located table existing =>
    obtain ⟨happ, s, hs, hid, hsapp, -⟩ := h.carries table rfl
    simp only [DeleteRowCall.step]
    split
    · exact .refl _ _
    · have hmine := hwf.matched_mine ⟨s, hs, hid, hsapp.trans happ⟩ rowId
      exact { WithinApp.refl claims.appId db with
        rows := KeyedTable.changesOnly_deleteWhere hmine
        others := rfl }
  | deleted table existing => exact .rowEvent db env table.id rowId claims.sub "delete" _
  | logged table => exact .audit db env _ claims _ _ _ _
  | _ =>
    simp only [DeleteRowCall.step]
    repeat' split
    all_goals exact .refl _ _

theorem deleteRowStep_wellFormed (hwf : WellFormed pf db.core) (c : DeleteRowCall) :
    WellFormed pf (c.step pf env db).1.core := by
  obtain ⟨claims, tableName, rowId, stage⟩ := c
  cases stage with
  | located table existing =>
    simp only [DeleteRowCall.step]
    split
    · exact hwf
    · exact hwf.deleteRows _
  | deleted table existing =>
    simpa only [DeleteRowCall.step, logRowEvent_core] using hwf
  | logged table => simpa only [DeleteRowCall.step, recordAuditLog_core] using hwf
  | _ =>
    simp only [DeleteRowCall.step]
    repeat' split
    all_goals exact hwf

/-- **A statement of a row that is deleted.** -/
theorem deleteRowStep_staysWithinApp (hwf : WellFormed pf db.core) {c : DeleteRowCall}
    (h : c.Holds appId db) :
    StaysWithinApp pf appId (DeleteRowCall.Holds appId) db (c.step pf env db) where
  within := deleteRowStep_within hwf h
  wellFormed := deleteRowStep_wellFormed hwf c
  holds := {
    app_eq := (congrArg Claims.appId (@carried_deleteRow pf env db c).1).trans h.app_eq
    carries := h.carries.step pf env }

/-! ### Queueing a message -/

structure EnqueuePushCall.Holds (appId : String) (db : Db) (c : EnqueuePushCall) : Prop where
  app_eq : c.input.appId = appId
  workspace : ∀ workspaceId, c.stage.workspace = some workspaceId →
    appWorkspaceId db appId = some workspaceId

theorem enqueuePushStep_within {c : EnqueuePushCall} (h : c.Holds appId db) :
    WithinApp appId db (c.step env db).1 := by
  obtain ⟨input, stage⟩ := c
  obtain rfl : input.appId = appId := h.app_eq
  cases stage with
  | checked workspaceId =>
    simp only [EnqueuePushCall.step]
    split
    · exact .refl _ _
    · rename_i id db' hinsert
      unfold Db.insertPushMessage at hinsert
      dsimp only at hinsert
      split at hinsert
      · obtain ⟨queue, hqueue, heq⟩ := Option.map_eq_some_iff.mp hinsert
        obtain ⟨-, rfl⟩ := Prod.mk.inj heq
        exact { WithinApp.refl input.appId db with
          queue := KeyedTable.addsOnly_insert? hqueue rfl
          others := rfl }
      · cases hinsert
  | inserted workspaceId id => exact .usage (h.workspace _ rfl) env .pushSendsMonth 1
  | usageRecorded id => exact .audit db env _ input.claims _ _ _ _
  | _ =>
    simp only [EnqueuePushCall.step]
    repeat' split
    all_goals exact .refl _ _

theorem EnqueuePushCall.Moves.keeps {input : EnqueuePushInput} {stage stage' : EnqueuePushStage}
    {db' : Db} (h : Moves env db input stage db' stage') :
    db'.core = db.core ∧ ∀ workspaceId, stage'.workspace = some workspaceId →
      stage.workspace = some workspaceId ∨ appWorkspaceId db input.appId = some workspaceId := by
  cases h with
  | workspace w hw =>
    refine ⟨rfl, fun workspaceId hnext => .inr ?_⟩
    cases hnext
    exact hw
  | insert w id db' hinsert =>
    obtain ⟨queue, seq, rfl⟩ := Db.insertPushMessage_frame hinsert
    exact ⟨rfl, fun _ hnext => .inl hnext⟩
  | charge w id => exact ⟨recordUsage_core .., fun _ hnext => by cases hnext⟩
  | count w used => exact ⟨rfl, fun _ hnext => .inl hnext⟩
  | within w used => exact ⟨rfl, fun _ hnext => .inl hnext⟩
  | _ => exact ⟨rfl, fun _ hnext => by cases hnext⟩

/-- **A statement of a message that is queued.** -/
theorem enqueuePushStep_staysWithinApp (hwf : WellFormed pf db.core) {c : EnqueuePushCall}
    (h : c.Holds appId db) :
    StaysWithinApp pf appId (EnqueuePushCall.Holds appId) db (c.step env db) := by
  obtain ⟨hcore, hworkspace⟩ := (c.step_moves env db).keeps
  have hwithin := @enqueuePushStep_within env db appId c h
  have hinput := (c.step_input env db).symm ▸ h.app_eq
  refine ⟨hwithin, hcore ▸ hwf, hinput, fun workspaceId hnext => ?_⟩
  rw [hwithin.appWorkspaceId_eq]
  rcases hworkspace workspaceId hnext with hknown | hfound
  · exact h.workspace workspaceId hknown
  · rwa [h.app_eq] at hfound

end Statements

end Peanut
