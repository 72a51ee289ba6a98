import Peanut.Library.Transition
import Peanut.Functions.Invocations
import Peanut.Functions.Numbering

/-!
# Scheduled jobs and data triggers

`jobs/scheduler.rs` and `jobs/triggers.rs`: what is due or matches is handed to a
task of its own, which loads the function and queues an invocation.

The loader of a version in `jobs/scheduler.rs` reads the struct of the functions
API from a `SELECT` list of its own.  The list lacks five of the columns the struct
needs, so the loader fails on every version, and no task queues anything.
-/

namespace Peanut

open Relational

namespace Jobs

/-- Functions of the `cron` and `chrono` crates; instants are in nanoseconds.

    * `scheduleFromStr`   `Schedule::from_str`; the schedule gives the first
                          occurrence after an instant;
    * `parseNaive`        `NaiveDateTime::parse_from_str` with `%Y-%m-%d %H:%M:%S`, in UTC;
    * `parseRfc3339`      `DateTime::parse_from_rfc3339`, in UTC;
    * `toRfc3339`         `DateTime::to_rfc3339`. -/
structure Calendar where
  scheduleFromStr : String → Except String (Int → Option Int)
  parseNaive : String → Option Int
  parseRfc3339 : String → Option Int
  toRfc3339 : Int → String

/-- Work handed to `tokio::spawn`. -/
inductive Task where
  | scheduled (jobId appId functionId : String)
  | triggered (appId tableId event rowId : String) (data : Option Value)
deriving DecidableEq

/-! ### Loading -/

def loadFunctionById (db : Db) (functionId appId : String) : Except String FunctionDetail :=
  Outcome.require (db.functions.selectOne fun f => f.id == functionId && f.appId == appId)
    "function not found"

/-- The `SELECT` list of the scheduler. -/
def versionColumns : List VersionColumn :=
  [.id, .functionId, .versionNumber, .runtime, .sourceCode, .envJson, .timeoutMs, .createdAt]

/-- `load_function_version_by_id` of `jobs/scheduler.rs`. -/
def loadFunctionVersionById (db : Db) (versionId : String) :
    Except (RowError VersionColumn) LoadedFunctionVersion :=
  match db.functionVersions.find? versionId with
  | none => .error .rowNotFound
  | some v =>
      LoadedFunctionVersion.fromRow
        (ResultRow.select versionColumns (v.cell (countSecrets db v.id)))

theorem loadFunctionVersionById_ne_ok (db : Db) (versionId : String)
    (version : LoadedFunctionVersion) : loadFunctionVersionById db versionId ≠ .ok version := by
  unfold loadFunctionVersionById
  split
  · intro h
    cases h
  · intro h
    have hsub := (LoadedFunctionVersion.fromRow_select.mp h).1
    exact absurd (hsub (by decide : VersionColumn.invokePolicy ∈ LoadedFunctionVersion.columns))
      (by decide)

/-! ### Invoking -/

def invokeFunctionById (db : Db) (env : Env) (uuid appId functionId : String) (input : Value)
    (triggerLabel : String) : Db × Except String Unit :=
  Outcome.proceed db
    (do
      let function ← loadFunctionById db functionId appId
      Outcome.ensure function.enabled s!"{triggerLabel} function is disabled"
      let version ← (loadFunctionVersionById db function.activeVersionId).mapError
        fun _ => "failed to load active function version"
      return (function, version))
    fun (function, version) =>
      ((queueFunctionInvocation db env uuid function version input appId 0 none).1, .ok ())

def invokeScheduledFunction (calendar : Calendar) (db : Db) (env : Env) (now : Int) (uuid jobId
    appId functionId : String) : Db × Except String Unit :=
  invokeFunctionById db env uuid appId functionId
    (.object [("job_id", .string jobId), ("scheduled_at", .string (calendar.toRfc3339 now)),
      ("trigger", .string "cron")])
    "scheduled"

/-- The payload of a data trigger. -/
def triggerPayload (tableId event rowId : String) (data : Option Value) : Value :=
  .object [("data", data.getD .null), ("event", .string event), ("row_id", .string rowId),
    ("table_id", .string tableId), ("trigger", .string "data_row")]

/-- The triggers one after the other; the error of one is logged and the next is
    run.  The `n`-th call draws the `n`-th id. -/
def invokeTriggers (env : Env) (appId : String) (payload : Value) : Nat → List DataFunctionTrigger →
    Db → Db
  | _, [], db => db
  | n, t :: rest, db =>
      invokeTriggers env appId payload (n + 1) rest
        (invokeFunctionById db env (env.uuid n) appId t.functionId payload "data-trigger").1

/-- What a task does when its turn comes. -/
def runTask (calendar : Calendar) (db : Db) (env : Env) (now : Int) : Task → Db
  | .scheduled jobId appId functionId =>
      (invokeScheduledFunction calendar db env now (env.uuid 0) jobId appId functionId).1
  | .triggered appId tableId event rowId data =>
      invokeTriggers env appId (triggerPayload tableId event rowId data) 0
        (db.dataFunctionTriggers.select fun t =>
          t.appId == appId && t.tableId == tableId && t.event == event && t.enabled)
        db

/-! ### Scheduling -/

def parseSqliteTimestamp (calendar : Calendar) (value : String) : Option Int :=
  (calendar.parseNaive value).or (calendar.parseRfc3339 value)

/-- 3650 days in nanoseconds. -/
def neverRun : Int := 3650 * 86400 * 1000000000

def isDue (calendar : Calendar) (now : Int) (job : ScheduledJob) : Bool :=
  match calendar.scheduleFromStr job.cronExpr with
  | .error _ => false
  | .ok schedule =>
      let lastRunAt := (job.lastRunAt.bind (parseSqliteTimestamp calendar)).getD (now - neverRun)
      match schedule lastRunAt with
      | some next => decide (next ≤ now)
      | none => false

/-- The loop over the jobs: a due job is stamped and handed to a task. -/
def processJobs (calendar : Calendar) (env : Env) (now : Int) : List ScheduledJob → Db →
    Db × List Task
  | [], db => (db, [])
  | job :: rest, db =>
      if isDue calendar now job then
        let db := { db with
          scheduledJobs := db.scheduledJobs.updateWhere (fun j => j.id == job.id)
            (fun j => { j with lastRunAt := some env.now }) (fun _ => rfl) }
        let (db, tasks) := processJobs calendar env now rest db
        (db, .scheduled job.id job.appId job.functionId :: tasks)
      else processJobs calendar env now rest db

def processScheduledJobs (calendar : Calendar) (functionsEnabled : Bool) (db : Db) (env : Env)
    (now : Int) : Db × List Task :=
  if !functionsEnabled then (db, [])
  else processJobs calendar env now (db.scheduledJobs.select (·.enabled)) db

/-- The task `fire_data_triggers` spawns, if any. -/
def fireDataTriggers (functionsEnabled : Bool) (appId tableId event rowId : String)
    (data : Option Value) : List Task :=
  if !functionsEnabled then [] else [.triggered appId tableId event rowId data]

/-! ### Runs -/

/-- The server between two steps: the database and the tasks not yet run. -/
structure JobState where
  db : Db
  pending : List Task

inductive JobEvent where
  | tick (env : Env) (now : Int)
  | rowChanged (appId tableId event rowId : String) (data : Option Value)
  | run (env : Env) (now : Int) (index : Nat)

/-- Tasks are run in any order. -/
def handleJobEvent (calendar : Calendar) (functionsEnabled : Bool) (s : JobState) :
    JobEvent → JobState
  | .tick env now =>
      let (db, tasks) := processScheduledJobs calendar functionsEnabled s.db env now
      { db := db, pending := s.pending ++ tasks }
  | .rowChanged appId tableId event rowId data =>
      { s with
        pending := s.pending ++ fireDataTriggers functionsEnabled appId tableId event rowId data }
  | .run env now index =>
      match s.pending[index]? with
      | none => s
      | some task =>
          { db := runTask calendar s.db env now task, pending := s.pending.eraseIdx index }

def runJobs (calendar : Calendar) (functionsEnabled : Bool) (s : JobState)
    (events : List JobEvent) :
    JobState :=
  Transition.run (handleJobEvent calendar functionsEnabled) s events

/-- The function is enabled, its active version is stored, and the workspace has
    quota left. -/
def Invocable (db : Db) (env : Env) (appId functionId : String) : Prop :=
  (∃ f ∈ db.functions, f.id = functionId ∧ f.appId = appId ∧ f.enabled = true ∧
      db.functionVersions.hasKey f.activeVersionId = true) ∧
    ∃ workspaceId, requireAppResourceAvailable db env appId .functionInvocationsMonth 1 =
      .ok workspaceId

/-- One invocation of the function was added, and nothing else. -/
def InsertsOneInvocation (db db' : Db) (functionId : String) : Prop :=
  ∃ i, i.functionId = functionId ∧ i ∉ db.functionInvocations ∧
    ∀ j, j ∈ db'.functionInvocations ↔ j ∈ db.functionInvocations ∨ j = i

theorem not_insertsOneInvocation {db db' : Db}
    (h : db'.functionInvocations = db.functionInvocations) (functionId : String) :
    ¬ InsertsOneInvocation db db' functionId := by
  rintro ⟨i, -, hnew, hrows⟩
  have hi : i ∈ db'.functionInvocations := (hrows i).mpr (.inr rfl)
  rw [h] at hi
  exact hnew hi

theorem queueFunctionInvocation_inserts {db : Db} {env : Env} {uuid appId workspaceId : String}
    {f : FunctionDetail} (hf : f ∈ db.functions)
    (hquota : requireAppResourceAvailable db env appId .functionInvocationsMonth 1 =
      .ok workspaceId)
    (hfresh : db.functionInvocations.hasKey uuid = false) (version : LoadedFunctionVersion)
    (input : Value) :
    InsertsOneInvocation db (queueFunctionInvocation db env uuid f version input appId 0 none).1
      f.id := by
  obtain ⟨invocations, hins⟩ : ∃ invocations, db.functionInvocations.insert?
      (newInvocation env uuid f version input true appId 0 none) = some invocations :=
    KeyedTable.exists_insert? hfresh
  have hstart : startFunctionInvocation db env uuid f version input true appId 0 none =
      .ok (uuid, recordUsage { db with functionInvocations := invocations } env workspaceId
        .functionInvocationsMonth 1) := by
    have hinsert : db.insertFunctionInvocation (newInvocation env uuid f version input true appId 0
        none) = some { db with functionInvocations := invocations } := by
      rw [Db.insertFunctionInvocation, hins]
      exact if_pos (KeyedTable.hasKey_of_mem hf)
    rw [startFunctionInvocation, hquota, Outcome.ok_bind, hinsert]
    rfl
  obtain ⟨counters, hcounters⟩ :=
    recordUsage_frame { db with functionInvocations := invocations } env
    workspaceId .functionInvocationsMonth 1
  refine ⟨newInvocation env uuid f version input true appId 0 none, rfl, ?_, ?_⟩
  · intro hmem
    have hkey : db.functionInvocations.hasKey uuid = true := KeyedTable.hasKey_of_mem hmem
    rw [hfresh] at hkey
    cases hkey
  · intro j
    rw [queueFunctionInvocation, hstart, Outcome.proceed_ok, hcounters]
    exact KeyedTable.mem_insert? hins

theorem invokeFunctionById_db (db : Db) (env : Env) (uuid appId functionId : String) (input : Value)
    (triggerLabel : String) :
    (invokeFunctionById db env uuid appId functionId input triggerLabel).1 = db := by
  unfold invokeFunctionById
  refine Outcome.proceed_rule (P := fun s : Db => s = db) rfl ?_
  rintro ⟨function, version⟩ h
  simp only [Outcome.bind_eq_ok, Outcome.mapError_eq_ok] at h
  obtain ⟨f, -, enabled, -, version', hversion, -⟩ := h
  exact absurd hversion (loadFunctionVersionById_ne_ok db f.activeVersionId version')

theorem invokeTriggers_db (env : Env) (appId : String) (payload : Value)
    (triggers : List DataFunctionTrigger) :
    ∀ (n : Nat) (db : Db), invokeTriggers env appId payload n triggers db = db := by
  induction triggers with
  | nil =>
    intro n db
    rfl
  | cons t rest ih =>
    intro n db
    rw [invokeTriggers, invokeFunctionById_db]
    exact ih (n + 1) db

theorem runTask_db (calendar : Calendar) (db : Db) (env : Env) (now : Int) (task : Task) :
    runTask calendar db env now task = db := by
  cases task with
  | scheduled jobId appId functionId => exact invokeFunctionById_db db env _ appId functionId _ _
  | triggered appId tableId event rowId data => exact invokeTriggers_db env appId _ _ 0 db

theorem processJobs_frame (calendar : Calendar) (env : Env) (now : Int) (jobs : List ScheduledJob) :
    ∀ db : Db, ∃ stamped, (processJobs calendar env now jobs db).1 =
      { db with scheduledJobs := stamped } := by
  induction jobs with
  | nil =>
    intro db
    exact ⟨db.scheduledJobs, rfl⟩
  | cons job rest ih =>
    intro db
    rw [processJobs]
    split
    · exact ih _
    · exact ih db

theorem handleJobEvent_functionInvocations (calendar : Calendar) (functionsEnabled : Bool)
    (s : JobState) (event : JobEvent) :
    (handleJobEvent calendar functionsEnabled s event).db.functionInvocations =
      s.db.functionInvocations := by
  cases event with
  | tick env now =>
    simp only [handleJobEvent, processScheduledJobs]
    split
    · rfl
    · obtain ⟨stamped, hstamped⟩ := processJobs_frame calendar env now
        (s.db.scheduledJobs.select (·.enabled)) s.db
      rw [hstamped]
  | rowChanged appId tableId event rowId data => rfl
  | run env now index =>
    simp only [handleJobEvent]
    split
    · rfl
    · rename_i task _
      exact congrArg Db.functionInvocations (runTask_db calendar s.db env now task)

theorem runJobs_functionInvocations (calendar : Calendar) (functionsEnabled : Bool) (s : JobState)
    (events : List JobEvent) :
    (runJobs calendar functionsEnabled s events).db.functionInvocations =
      s.db.functionInvocations := by
  have hstep : ∀ (t : JobState) (event : JobEvent),
      t.db.functionInvocations = s.db.functionInvocations →
      (handleJobEvent calendar functionsEnabled t event).db.functionInvocations =
        s.db.functionInvocations := by
    intro t event h
    rw [handleJobEvent_functionInvocations]
    exact h
  exact Transition.run_preserves hstep rfl events

/-- **Scheduled functions are not invoked.**  The functions API reads every stored
    version and the scheduler reads none; where queueing what the functions API
    loads adds an invocation, the scheduler's call adds none; and no run of ticks,
    changes of rows and tasks does. -/
theorem scheduler_never_invokes (calendar : Calendar) (functionsEnabled : Bool) (s : JobState) :
    (∀ v ∈ s.db.functionVersions,
      Peanut.loadFunctionVersionById s.db v.id = .ok (v.loaded (countSecrets s.db v.id)) ∧
        ∀ version, loadFunctionVersionById s.db v.id ≠ .ok version) ∧
      (∀ env uuid appId functionId input triggerLabel, Invocable s.db env appId functionId →
        s.db.functionInvocations.hasKey uuid = false →
        (∃ f ∈ s.db.functions, f.id = functionId ∧ f.appId = appId ∧ ∃ version,
          Peanut.loadFunctionVersionById s.db f.activeVersionId = .ok version ∧
            InsertsOneInvocation s.db
              (queueFunctionInvocation s.db env uuid f version input appId 0 none).1 functionId) ∧
        ¬ InsertsOneInvocation s.db
          (invokeFunctionById s.db env uuid appId functionId input triggerLabel).1 functionId) ∧
      ∀ events, (runJobs calendar functionsEnabled s events).db.functionInvocations =
        s.db.functionInvocations := by
  refine ⟨?_, ?_, runJobs_functionInvocations calendar functionsEnabled s⟩
  · intro v hv
    exact ⟨loadFunctionVersionById_of_mem hv, loadFunctionVersionById_ne_ok s.db v.id⟩
  · rintro env uuid appId functionId input triggerLabel ⟨⟨f, hf, rfl, happ, -, hversion⟩, hquota⟩
      hfresh
    obtain ⟨workspaceId, hquota⟩ := hquota
    obtain ⟨v, hv, hid⟩ := KeyedTable.hasKey_iff.mp hversion
    constructor
    · refine ⟨f, hf, rfl, happ, v.loaded (countSecrets s.db v.id), ?_, ?_⟩
      · rw [← hid]
        exact loadFunctionVersionById_of_mem hv
      · exact queueFunctionInvocation_inserts hf hquota hfresh _ input
    · exact not_insertsOneInvocation
        (congrArg Db.functionInvocations (invokeFunctionById_db s.db env uuid appId f.id input
          triggerLabel)) f.id

/-! ### A job that is due every minute -/

/-- The calendar of the one cron expression below, at midnight of 1 January 2026. -/
def minuteCalendar : Calendar where
  scheduleFromStr expression :=
    if expression = "0 * * * * *" then
      .ok fun t => some ((t / 60000000000 + 1) * 60000000000)
    else .error "invalid expression"
  parseNaive _ := none
  parseRfc3339 _ := none
  toRfc3339 _ := "2026-01-01T00:00:00+00:00"

def midnight : Int := 1767225600 * 1000000000

def everyMinute : ScheduledJob :=
  { id := "j1", appId := "default", functionId := "a0", cronExpr := "0 * * * * *", enabled := true
    lastRunAt := none, createdAt := "2026-01-01 00:00:00" }

def jobApp : App :=
  { id := "default", name := "default", displayName := "Default", workspaceId := "default"
    createdBy := none, createdAt := "2026-01-01 00:00:00", updatedAt := "2026-01-01 00:00:00"
    deletedAt := none }

/-- A function Ada has written, and a job for it. -/
def jobDb : Db :=
  (createFunction asciiPlatform readableCipher
    { functionAdminDb with
      apps := ⟨[jobApp], by decide⟩, scheduledJobs := ⟨[everyMinute], by decide⟩ }
    (sampleEnv "a") functionAdminClaims
    { name := "report", displayName := "Report", endpointSlug := "report", runtime := "javascript"
      sourceCode := "run()" }).1

theorem invocable_jobDb : Invocable jobDb (sampleEnv "b") "default" "a0" := by
  refine ⟨?_, "default", by decide +kernel⟩
  have hrows : ∃ f ∈ jobDb.functions.rows, f.id = "a0" ∧ f.appId = "default" ∧ f.enabled = true ∧
      jobDb.functionVersions.hasKey f.activeVersionId = true := by
    decide +kernel
  exact hrows

/-- The job is due and its task is run, but the function is not invoked. -/
theorem due_job_not_invoked :
    Invocable jobDb (sampleEnv "b") "default" "a0" ∧
      (processScheduledJobs minuteCalendar true jobDb (sampleEnv "b") midnight).2 =
        [.scheduled "j1" "default" "a0"] ∧
      (∃ v ∈ jobDb.functionVersions, ∃ version,
        Peanut.loadFunctionVersionById jobDb v.id = .ok version ∧
          loadFunctionVersionById jobDb v.id ≠ .ok version) ∧
      ¬ InsertsOneInvocation jobDb
        (runJobs minuteCalendar true { db := jobDb, pending := [] }
          [.tick (sampleEnv "b") midnight, .run (sampleEnv "c") midnight 0]).db "a0" := by
  refine ⟨invocable_jobDb, by decide +kernel, ?_, ?_⟩
  · have hstored : ∃ v ∈ jobDb.functionVersions.rows, v.id = "a1" := by decide +kernel
    obtain ⟨v, hv, -⟩ := hstored
    exact ⟨v, hv, _, loadFunctionVersionById_of_mem hv, loadFunctionVersionById_ne_ok jobDb v.id _⟩
  · exact not_insertsOneInvocation
      (runJobs_functionInvocations minuteCalendar true { db := jobDb, pending := [] } _) "a0"

/-- A direct call of the function by the scheduler adds nothing either. -/
theorem report_not_invoked :
    ¬ InsertsOneInvocation jobDb
      (invokeFunctionById jobDb (sampleEnv "b") "b0" "default" "a0" .null "scheduled").1 "a0" :=
  ((scheduler_never_invokes minuteCalendar true { db := jobDb, pending := [] }).2.1 (sampleEnv "b")
    "b0" "default" "a0" .null "scheduled" invocable_jobDb (by decide +kernel)).2

end Jobs

end Peanut
