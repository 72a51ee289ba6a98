import Peanut.Data.Statements
import Peanut.Functions.Invoke
import Peanut.Push.Enqueue
import Peanut.Workspaces.Quotas

/-!
# Requests that use up what is limited

`create_row`, `enqueue_push` and the invocation of a function read a count, decide
and write in statements of their own.  Here their machines are put side by side:
the limits of a workspace, the writes that use something up, and what each
statement does to the counts.
-/

namespace Peanut

open Relational Interleaving

/-! ### Time -/

/-- SQLite's `datetime` on the seconds it writes with a four-digit year: the order
    of the texts is the order of the instants. -/
structure Clock where
  datetime : Int → String
  first : Int
  last : Int
  datetime_lt : ∀ s t, first ≤ s → s ≤ last → first ≤ t → t ≤ last →
    (strLt (datetime s) (datetime t) = true ↔ s < t)

namespace Clock

variable (clock : Clock)

/-- Instants that are written with a four-digit year, a minute earlier too. -/
def Covers (t : Int) : Prop := clock.first + 60 ≤ t ∧ t ≤ clock.last

instance (t : Int) : Decidable (clock.Covers t) := inferInstanceAs (Decidable (_ ∧ _))

/-- What a statement draws at an instant. -/
def reading (now : Int) (env : Env) : Env :=
  { env with now := clock.datetime now, secondsAgo := fun n => clock.datetime (now - n) }

@[simp] theorem reading_now (now : Int) (env : Env) :
    (clock.reading now env).now = clock.datetime now := rfl

@[simp] theorem reading_secondsAgo (now n : Int) (env : Env) :
    (clock.reading now env).secondsAgo n = clock.datetime (now - n) := rfl

theorem datetime_le {s t : Int} (hs : clock.first ≤ s) (hst : s ≤ t) (ht : t ≤ clock.last) :
    strLt (clock.datetime t) (clock.datetime s) = false := by
  rw [← Bool.not_eq_true, clock.datetime_lt t s (by omega) ht hs (by omega)]
  omega

theorem le_of_datetime_le {s t : Int} (hs : clock.first ≤ s) (hs' : s ≤ clock.last)
    (ht : clock.first ≤ t) (ht' : t ≤ clock.last)
    (h : strLt (clock.datetime t) (clock.datetime s) = false) : s ≤ t := by
  rw [← Bool.not_eq_true, clock.datetime_lt t s ht ht' hs hs'] at h
  omega

end Clock

/-- An instant a statement is executed at, and what else it draws. -/
structure Moment (clock : Clock) where
  instant : Int
  covered : clock.Covers instant
  env : Env

/-! ### Requests and limits -/

inductive LimitedCall where
  | createRow (call : CreateRowCall)
  | enqueuePush (call : EnqueuePushCall)
  | invoke (call : InvokeCall)

namespace LimitedCall

def step (pf : Platform) (env : Env) (db : Db) : LimitedCall → Db × LimitedCall
  | .createRow c => ((c.step pf env db).1, .createRow (c.step pf env db).2)
  | .enqueuePush c => ((c.step env db).1, .enqueuePush (c.step env db).2)
  | .invoke c => ((c.step pf env db).1, .invoke (c.step pf env db).2)

/-- Nothing counted yet. -/
def fresh : LimitedCall → Prop
  | .createRow c => c.stage = .received
  | .enqueuePush c => c.stage = .received
  | .invoke c => c.stage = .received

end LimitedCall

/-- The invocations of a function that were created between two instants. -/
def countInvocationsWithin (db : Db) (functionId start stop : String) : Int :=
  (db.functionInvocations.select fun i =>
    i.functionId == functionId && (!strLt i.createdAt start && !strLt stop i.createdAt)).length

/-- The resources that the requests here use up. -/
def limitedResources : List ResourceKey :=
  [.dataRows, .pushSendsMonth, .functionInvocationsMonth]

/-- No function of the apps of a workspace was invoked more often in 60 seconds than
    its rate limit says. -/
def WithinRates (clock : Clock) (w : String) (db : Db) : Prop :=
  ∀ f ∈ db.functions, appInWorkspace db w f.appId = true →
    ∀ t, clock.first ≤ t → t + 60 ≤ clock.last →
      countInvocationsWithin db f.id (clock.datetime t) (clock.datetime (t + 60)) ≤
        f.rateLimitPerMinute

/-- **Within the limits** of a workspace: what is used of each resource is not more
    than its limit, and the functions keep to their rates. -/
structure WithinLimits (clock : Clock) (w : String) (db : Db) : Prop where
  quotas : ∀ env, ∀ key ∈ limitedResources,
    (resourceLimitSummary db env w key).used ≤ (resourceLimitSummary db env w key).limit
  rates : WithinRates clock w db

/-! ### Writes -/

/-- A write that uses up something limited. -/
inductive Write where
  | row (appId : String)
  | usage (workspaceId : String) (key : ResourceKey)
  | invocation (functionId : String)

/-- The write of the next statement, if it is one and succeeds. -/
def LimitedCall.write (env : Env) (db : Db) : LimitedCall → Option Write
  | .createRow c =>
      match c.stage with
      | .checked table _ normalized =>
          let row := newRow env c.claims table (env.uuid 0)
            (ownerUserIdForNewRow c.claims table.accessPolicy) normalized
          (db.insertDataRow row).map fun _ => .row c.claims.appId
      | _ => none
  | .enqueuePush c =>
      match c.stage with
      | .inserted workspaceId _ =>
          if db.workspaces.hasKey workspaceId then some (.usage workspaceId .pushSendsMonth)
          else none
      | _ => none
  | .invoke c =>
      match c.stage with
      | .checked function payload version _ =>
          (db.insertFunctionInvocation (c.request.invocation env function payload version)).map
            fun _ => .invocation function.id
      | .inserted workspaceId _ =>
          if db.workspaces.hasKey workspaceId then
            some (.usage workspaceId .functionInvocationsMonth)
          else none
      | _ => none

/-- The check before a write, at the write: is there room in the workspace, and is
    the function within its rate? -/
def Write.StillAllowed (env : Env) (db : Db) (w : String) : Write → Prop
  | .row appId =>
      appWorkspaceId db appId = some w → requireResourceLimitAvailable db env w .dataRows 1 = .ok ()
  | .usage workspaceId key =>
      workspaceId = w → requireResourceLimitAvailable db env w key 1 = .ok ()
  | .invocation functionId =>
      ∀ f ∈ db.functions, f.id = functionId → appInWorkspace db w f.appId = true →
        requireRateLimit db env f = .ok ()

namespace Write

/-- The rows that a write adds to a workspace. -/
def rowsIn (db : Db) (w : String) : Option Write → Int
  | some (.row appId) => if appWorkspaceId db appId = some w then 1 else 0
  | _ => 0

/-- What a write adds to a counter. -/
def usageOf (env : Env) (w : String) (key : ResourceKey) (period : String) : Option Write → Int
  | some (.usage workspaceId k) =>
      if (workspaceId, k, usagePeriodStart env k) = (w, key, period) then 1 else 0
  | _ => 0

/-- The invocations of a function that a write adds, of those with a given property
    of their time. -/
def invocationsOf (env : Env) (functionId : String) (p : String → Bool) : Option Write → Int
  | some (.invocation g) => if g = functionId ∧ p env.now = true then 1 else 0
  | _ => 0

@[simp] theorem rowsIn_none (db : Db) (w : String) : rowsIn db w none = 0 := rfl

@[simp] theorem usageOf_none (env : Env) (w : String) (key : ResourceKey) (period : String) :
    usageOf env w key period none = 0 := rfl

@[simp] theorem invocationsOf_none (env : Env) (functionId : String) (p : String → Bool) :
    invocationsOf env functionId p none = 0 := rfl

end Write

/-- What a write does to the counts; everything they are compared with stays. -/
structure Performs (env : Env) (x : Option Write) (db db' : Db) : Prop where
  apps : ∀ appId, appWorkspaceId db' appId = appWorkspaceId db appId
  functions : db'.functions = db.functions
  limits : ∀ w key, limitOf db' w key = limitOf db w key
  rows : ∀ w, rowCount db' w = rowCount db w + Write.rowsIn db w x
  counters : ∀ w key period, isMonthlyResource key = true →
    counterValue db' w key period = counterValue db w key period + Write.usageOf env w key period x
  invocations : ∀ f (p : String → Bool),
    ((db'.functionInvocations.select fun i => i.functionId == f && p i.createdAt).length : Int) =
      (db.functionInvocations.select fun i => i.functionId == f && p i.createdAt).length +
        Write.invocationsOf env f p x

/-! ### What a statement does to the counts -/

section Statements

variable {db db' : Db} (env : Env)

theorem Performs.of_eq (happs : db'.apps = db.apps) (hfunctions : db'.functions = db.functions)
    (hrows : db'.dataRows = db.dataRows) (hcounters : db'.usageCounters = db.usageCounters)
    (hinvocations : db'.functionInvocations = db.functionInvocations) :
    Performs env none db db' where
  apps appId := by rw [appWorkspaceId, appWorkspaceId, happs]
  functions := hfunctions
  limits w key := by rw [limitOf, limitOf, hcounters]
  rows w := by simp [rowCount, appInWorkspace, appWorkspaceId, happs, hrows]
  counters w key period _ := by simp [counterValue, hcounters]
  invocations f p := by simp [hinvocations]

theorem Performs.refl (db : Db) : Performs env none db db := .of_eq env rfl rfl rfl rfl rfl

theorem insertDataRow_performs {row : DataRow} (h : db.insertDataRow row = some db') :
    Performs env (some (.row row.appId)) db db' := by
  have hadds := insertDataRow_adds h
  obtain ⟨-, -, rows, -, rfl⟩ := Db.insertDataRow_eq_some.mp h
  refine ⟨fun _ => rfl, rfl, fun _ _ => rfl, ?_, ?_, ?_⟩
  · intro w
    rw [hadds.rows w]
    simp [appInWorkspace, Write.rowsIn]
  · intro w key period _
    simp [counterValue, Write.usageOf]
  · intro f p
    simp [Write.invocationsOf]

/-- Counting usage of a resource that is counted in a table of its own has no
    effect on what is limited. -/
theorem recordUsage_performs_none (db : Db) (workspaceId : String) {key : ResourceKey}
    (h : db.workspaces.hasKey workspaceId = false ∨ isMonthlyResource key = false) :
    Performs env none db (recordUsage db env workspaceId key 1) := by
  have hlimits := limitOf_recordUsage db env workspaceId key 1
  have hcounters := counterValue_recordUsage db env workspaceId key 1
  obtain ⟨counters, heq⟩ := recordUsage_frame db env workspaceId key 1
  rw [heq] at hlimits hcounters ⊢
  refine ⟨fun _ => rfl, rfl, hlimits, ?_, ?_, ?_⟩
  · intro w
    simp [rowCount, appInWorkspace, appWorkspaceId, Write.rowsIn]
  · intro w k period hk
    rw [hcounters, Write.usageOf_none, if_neg]
    rintro ⟨hworkspace, hkey⟩
    rcases h with hmissing | hcounted
    · rw [hmissing] at hworkspace
      cases hworkspace
    · simp only [Prod.mk.injEq] at hkey
      rw [hkey.2.1, hk] at hcounted
      cases hcounted
  · intro f p
    simp [Write.invocationsOf]

theorem recordUsage_performs {db : Db} {workspaceId : String} (key : ResourceKey)
    (h : db.workspaces.hasKey workspaceId = true) :
    Performs env (some (.usage workspaceId key)) db (recordUsage db env workspaceId key 1) := by
  have hlimits := limitOf_recordUsage db env workspaceId key 1
  have hcounters := counterValue_recordUsage db env workspaceId key 1
  obtain ⟨counters, heq⟩ := recordUsage_frame db env workspaceId key 1
  rw [heq] at hlimits hcounters ⊢
  refine ⟨fun _ => rfl, rfl, hlimits, ?_, ?_, ?_⟩
  · intro w
    simp [rowCount, appInWorkspace, appWorkspaceId, Write.rowsIn]
  · intro w k period _
    rw [hcounters, Write.usageOf]
    simp [h]
  · intro f p
    simp [Write.invocationsOf]

theorem insertFunctionInvocation_performs {i : FunctionInvocation}
    (h : db.insertFunctionInvocation i = some db') (hnow : i.createdAt = env.now) :
    Performs env (some (.invocation i.functionId)) db db' := by
  unfold Db.insertFunctionInvocation at h
  split at h
  · obtain ⟨invocations, hins, rfl⟩ := Option.map_eq_some_iff.mp h
    refine ⟨fun _ => rfl, rfl, fun _ _ => rfl, ?_, ?_, ?_⟩
    · intro w
      simp [rowCount, appInWorkspace, appWorkspaceId, Write.rowsIn]
    · intro w key period _
      simp [counterValue, Write.usageOf]
    · intro f p
      have hcount := KeyedTable.length_select_insert? hins fun j =>
        j.functionId == f && p j.createdAt
      rw [hcount, hnow, Write.invocationsOf]
      by_cases hp : i.functionId = f ∧ p env.now = true
      · simp [hp]
      · simp only [Bool.and_eq_true, beq_iff_eq, hp, if_false, Nat.add_zero, Int.add_zero]
  · cases h

theorem insertPushMessage_performs {m : PushMessage} {id : Nat}
    (h : db.insertPushMessage m = some (id, db')) : Performs env none db db' := by
  obtain ⟨queue, seq, rfl⟩ := Db.insertPushMessage_frame h
  exact .of_eq env rfl rfl rfl rfl rfl

theorem recordAuditLog_performs (db : Db) (uuid : String) (target : Option String) (claims : Claims)
    (action targetType targetId : String) (metadata : Value) :
    Performs env none db
      (db.recordAuditLog env uuid target claims action targetType targetId metadata) := by
  obtain ⟨logs, hlogs⟩ :=
    db.recordAuditLog_frame env uuid target claims action targetType targetId metadata
  rw [hlogs]
  exact .of_eq env rfl rfl rfl rfl rfl

theorem logRowEvent_performs (db : Db) (app tableId rowId actor action : String)
    (diff : Option Value) :
    Performs env none db (db.logRowEvent env app tableId rowId actor action diff) := by
  unfold Db.logRowEvent Db.recordRowEvent
  dsimp only
  split
  · rename_i hrec
    split at hrec
    · obtain ⟨events, -, heq⟩ := Option.map_eq_some_iff.mp hrec
      cases heq
      exact .of_eq env rfl rfl rfl rfl rfl
    · cases hrec
  · exact .refl env db

end Statements

section Steps

variable (pf : Platform) (env : Env) (db : Db)

theorem createRow_performs (c : CreateRowCall) :
    Performs env ((LimitedCall.createRow c).write env db) db (c.step pf env db).1 := by
  obtain ⟨claims, tableName, payload, stage⟩ := c
  cases stage with
  | received =>
    simp only [CreateRowCall.step, LimitedCall.write]
    split <;> exact .refl env db
  | tableLoaded table =>
    simp only [CreateRowCall.step, LimitedCall.write]
    split <;> exact .refl env db
  | workspaceFound table workspaceId => exact .refl env db
  | counted table workspaceId used =>
    simp only [CreateRowCall.step, LimitedCall.write]
    split <;> exact .refl env db
  | checked table workspaceId normalized =>
    simp only [CreateRowCall.step, LimitedCall.write]
    generalize hrow : newRow env claims table (env.uuid 0)
      (ownerUserIdForNewRow claims table.accessPolicy) normalized = row
    have happ : row.appId = claims.appId := by rw [← hrow]; rfl
    cases hinsert : db.insertDataRow row with
    | none => exact .refl env db
    | some db' =>
      have hperforms := insertDataRow_performs env hinsert
      rw [happ] at hperforms
      exact hperforms
  | inserted table workspaceId row => exact recordUsage_performs_none env db workspaceId (.inr rfl)
  | usageRecorded table row => exact logRowEvent_performs env db ..
  | logged table row => exact recordAuditLog_performs env db ..
  | audited table row =>
    simp only [CreateRowCall.step, LimitedCall.write]
    split <;> exact .refl env db
  | completed row => exact .refl env db
  | refused e => exact .refl env db

theorem enqueuePush_performs (c : EnqueuePushCall) :
    Performs env ((LimitedCall.enqueuePush c).write env db) db (c.step env db).1 := by
  obtain ⟨input, stage⟩ := c
  cases stage with
  | received =>
    simp only [EnqueuePushCall.step, LimitedCall.write]
    split <;> exact .refl env db
  | targetFound =>
    simp only [EnqueuePushCall.step, LimitedCall.write]
    split <;> exact .refl env db
  | unqueued =>
    simp only [EnqueuePushCall.step, LimitedCall.write]
    split <;> exact .refl env db
  | workspaceFound workspaceId => exact .refl env db
  | counted workspaceId used =>
    simp only [EnqueuePushCall.step, LimitedCall.write]
    split <;> exact .refl env db
  | checked workspaceId =>
    simp only [EnqueuePushCall.step, LimitedCall.write]
    split
    · exact .refl env db
    · rename_i hinsert
      exact insertPushMessage_performs env hinsert
  | inserted workspaceId id =>
    simp only [EnqueuePushCall.step, LimitedCall.write]
    split
    · rename_i hworkspace
      exact recordUsage_performs env .pushSendsMonth hworkspace
    · rename_i hworkspace
      exact recordUsage_performs_none env db workspaceId
        (.inl (Bool.eq_false_iff.mpr hworkspace))
  | usageRecorded id => exact recordAuditLog_performs env db ..
  | completed id => exact .refl env db
  | refused e => exact .refl env db

theorem invoke_performs (c : InvokeCall) :
    Performs env ((LimitedCall.invoke c).write env db) db (c.step pf env db).1 := by
  obtain ⟨request, stage⟩ := c
  cases stage with
  | received =>
    simp only [InvokeCall.step, LimitedCall.write]
    split <;> exact .refl env db
  | loaded function payload =>
    simp only [InvokeCall.step, LimitedCall.write]
    split <;> exact .refl env db
  | admitted function payload =>
    simp only [InvokeCall.step, LimitedCall.write]
    split <;> exact .refl env db
  | versionLoaded function payload version =>
    simp only [InvokeCall.step, LimitedCall.write]
    split <;> exact .refl env db
  | workspaceFound function payload version workspaceId => exact .refl env db
  | counted function payload version workspaceId used =>
    simp only [InvokeCall.step, LimitedCall.write]
    split <;> exact .refl env db
  | checked function payload version workspaceId =>
    simp only [InvokeCall.step, LimitedCall.write]
    cases hinsert : db.insertFunctionInvocation
        (request.invocation env function payload version) with
    | none => exact .refl env db
    | some db' => exact insertFunctionInvocation_performs env hinsert rfl
  | inserted workspaceId invocationId =>
    simp only [InvokeCall.step, LimitedCall.write]
    split
    · rename_i hworkspace
      exact recordUsage_performs env .functionInvocationsMonth hworkspace
    · rename_i hworkspace
      exact recordUsage_performs_none env db workspaceId
        (.inl (Bool.eq_false_iff.mpr hworkspace))
  | started invocationId => exact .refl env db
  | refused e => exact .refl env db

/-- **Step lemma.**  A statement does to the counts what its write says. -/
theorem LimitedCall.step_performs (c : LimitedCall) :
    Performs env (c.write env db) db (c.step pf env db).1 := by
  cases c with
  | createRow c => exact createRow_performs pf env db c
  | enqueuePush c => exact enqueuePush_performs env db c
  | invoke c => exact invoke_performs pf env db c

end Steps

end Peanut
