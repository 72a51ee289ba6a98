import Peanut.Data.Core
import Peanut.Library.Outcome

/-!
# Workspace quotas

The part of `api/workspaces.rs` that resource-consuming handlers call: the
workspace of an app, the resource limit in force and the usage counters.
-/

namespace Peanut

open Relational

def ResourceKey.text : ResourceKey → String
  | .apps => "apps"
  | .appUsers => "app_users"
  | .dataRows => "data_rows"
  | .storageBytes => "storage_bytes"
  | .functionInvocationsMonth => "function_invocations_month"
  | .pushSendsMonth => "push_sends_month"
  | .apiRequestsMonth => "api_requests_month"

def defaultResourceLimit : ResourceKey → Int
  | .apps => 3
  | .appUsers => 10000
  | .dataRows => 250000
  | .storageBytes => 2147483648
  | .functionInvocationsMonth => 50000
  | .pushSendsMonth => 50000
  | .apiRequestsMonth => 1000000

def isMonthlyResource : ResourceKey → Bool
  | .functionInvocationsMonth | .pushSendsMonth | .apiRequestsMonth => true
  | _ => false

def usagePeriodStart (env : Env) (key : ResourceKey) : String :=
  if isMonthlyResource key then env.monthStart else "all"

def usageResetAt (env : Env) (key : ResourceKey) : Option String :=
  if isMonthlyResource key then some env.nextMonthStart else none

structure ResourceLimitSummary where
  resourceKey : ResourceKey
  used : Int
  limit : Int
  periodStart : String
  resetAt : Option String
  source : String
deriving DecidableEq, Repr

def appWorkspaceId (db : Db) (appId : String) : Option String :=
  (db.apps.selectOne fun a => a.id == appId && a.deletedAt.isNone).map (·.workspaceId)

/-- Does the app exist, undeleted, in the workspace?  The join condition of the
    `COUNT(*)` queries below. -/
def appInWorkspace (db : Db) (workspaceId appId : String) : Bool :=
  appWorkspaceId db appId == some workspaceId

def usedResource (db : Db) (env : Env) (workspaceId : String) (key : ResourceKey) : Int :=
  match key with
  | .apps =>
      ((db.apps.select fun a => a.workspaceId == workspaceId && a.deletedAt.isNone).length : Int)
  | .appUsers => ((db.users.select fun u => appInWorkspace db workspaceId u.appId).length : Int)
  | .dataRows => ((db.dataRows.select fun r => appInWorkspace db workspaceId r.appId).length : Int)
  | key =>
      match db.usageCounters.find? (workspaceId, key, usagePeriodStart env key) with
      | some counter => counter.used
      | none => 0

def resourceLimitSummary (db : Db) (env : Env) (workspaceId : String) (key : ResourceKey) :
    ResourceLimitSummary :=
  let overrideLimit := (db.usageCounters.find? (workspaceId, key, "all")).bind (·.resourceLimit)
  { resourceKey := key
    used := usedResource db env workspaceId key
    limit := overrideLimit.getD (defaultResourceLimit key)
    periodStart := usagePeriodStart env key
    resetAt := usageResetAt env key
    source := match key with
      | .apps | .appUsers | .dataRows => "count"
      | _ => "counter" }

def resourceLimitExceededResponse (limit : ResourceLimitSummary) : ApiError :=
  { status := .forbidden
    code := "resource_limit_exceeded"
    error := "workspace resource_limit exceeded"
    details := [("resource_key", .string limit.resourceKey.text),
      ("used", .number (.ofInt limit.used)), ("limit", .number (.ofInt limit.limit)),
      ("period_start", .string limit.periodStart),
      ("reset_at", optionToValue .string limit.resetAt), ("source", .string limit.source)] }

def requireResourceLimitAvailable (db : Db) (env : Env) (workspaceId : String) (key : ResourceKey)
    (requested : Int) : Except ApiError Unit :=
  let limit := resourceLimitSummary db env workspaceId key
  if limit.used + requested > limit.limit then .error (resourceLimitExceededResponse limit)
  else .ok ()

/-- The end of `require_resource_limit_available`, as a statement of its own: the
    limit is read and compared with what was counted before. -/
def requireWithinLimit (db : Db) (env : Env) (workspaceId : String) (key : ResourceKey)
    (used requested : Int) : Except ApiError Unit :=
  let limit := { resourceLimitSummary db env workspaceId key with used := used }
  if limit.used + requested > limit.limit then .error (resourceLimitExceededResponse limit)
  else .ok ()

theorem requireWithinLimit_usedResource (db : Db) (env : Env) (workspaceId : String)
    (key : ResourceKey) (requested : Int) :
    requireWithinLimit db env workspaceId key (usedResource db env workspaceId key) requested =
      requireResourceLimitAvailable db env workspaceId key requested := rfl

def requireAppResourceAvailable (db : Db) (env : Env) (appId : String) (key : ResourceKey)
    (requested : Int) : Except ApiError String := do
  let workspaceId ← Outcome.require (appWorkspaceId db appId) (jsonError .notFound "app not found")
  requireResourceLimitAvailable db env workspaceId key requested
  return workspaceId

/-- `record_usage`, whose result every caller drops: bump the counter, or start
    it, provided the workspace exists.  The `usage_events` log is not kept. -/
def recordUsage (db : Db) (env : Env) (workspaceId : String) (key : ResourceKey) (amount : Int) :
    Db :=
  let period := usagePeriodStart env key
  if !db.workspaces.hasKey workspaceId then db
  else
    match db.usageCounters.insert?
        { workspaceId := workspaceId, resourceKey := key, periodStart := period, used := amount,
          resourceLimit := none } with
    | some counters => { db with usageCounters := counters }
    | none =>
        { db with
          usageCounters := db.usageCounters.updateWhere
            (fun c => c.workspaceId == workspaceId && c.resourceKey == key &&
              c.periodStart == period)
            (fun c => { c with used := c.used + amount }) (fun _ => rfl) }

theorem recordUsage_frame (db : Db) (env : Env) (workspaceId : String) (key : ResourceKey)
    (amount : Int) :
    ∃ counters, recordUsage db env workspaceId key amount =
      { db with usageCounters := counters } := by
  unfold recordUsage
  dsimp only
  split
  · exact ⟨db.usageCounters, rfl⟩
  · split
    · exact ⟨_, rfl⟩
    · exact ⟨_, rfl⟩

@[simp] theorem recordUsage_users (db : Db) (env : Env) (workspaceId : String) (key : ResourceKey)
    (amount : Int) : (recordUsage db env workspaceId key amount).users = db.users := by
  obtain ⟨counters, hcounters⟩ := recordUsage_frame db env workspaceId key amount
  rw [hcounters]

/-- What a counter stands at. -/
def counterValue (db : Db) (workspaceId : String) (key : ResourceKey) (period : String) : Int :=
  ((db.usageCounters.find? (workspaceId, key, period)).map (·.used)).getD 0

/-- The resources that are counted in a table of their own. -/
def isCountedResource : ResourceKey → Bool
  | .apps | .appUsers | .dataRows => true
  | _ => false

theorem usedResource_eq_counterValue (db : Db) (env : Env) (workspaceId : String)
    {key : ResourceKey} (h : isCountedResource key = false) :
    usedResource db env workspaceId key =
      counterValue db workspaceId key (usagePeriodStart env key) := by
  unfold usedResource counterValue
  cases hfind : db.usageCounters.find? (workspaceId, key, usagePeriodStart env key) with
  | none => cases key <;> first | (cases h; done) | simp [hfind]
  | some counter => cases key <;> first | (cases h; done) | simp [hfind]

/-- Usage goes to one counter, provided the workspace exists. -/
theorem counterValue_recordUsage (db : Db) (env : Env) (workspaceId : String) (key : ResourceKey)
    (amount : Int) (w : String) (k : ResourceKey) (period : String) :
    counterValue (recordUsage db env workspaceId key amount) w k period =
      counterValue db w k period +
        if db.workspaces.hasKey workspaceId = true ∧
          (workspaceId, key, usagePeriodStart env key) = (w, k, period) then amount else 0 := by
  unfold recordUsage counterValue
  dsimp only
  cases hworkspace : db.workspaces.hasKey workspaceId with
  | false => simp
  | true =>
    simp only [Bool.not_true, Bool.false_eq_true, if_false, true_and]
    split
    · rename_i counters hinsert
      rw [KeyedTable.find?_insert? hinsert]
      by_cases hkey : (workspaceId, key, usagePeriodStart env key) = (w, k, period)
      · -- the counter starts here, so it stood at 0
        have hfree := (KeyedTable.insert?_eq_some.mp hinsert).1
        dsimp only at hfree
        rw [hkey, KeyedTable.hasKey, Option.isSome_eq_false_iff, Option.isNone_iff_eq_none] at hfree
        rw [hfree, if_pos hkey, if_pos hkey]
        simp
      · rw [if_neg hkey, if_neg hkey, Int.add_zero]
    · rw [KeyedTable.find?_updateWhere]
      cases hfind : db.usageCounters.find? (w, k, period) with
      | none =>
        rename_i htaken
        have hkey : (workspaceId, key, usagePeriodStart env key) ≠ (w, k, period) := by
          intro hkey
          rw [KeyedTable.insert?_eq_none, hkey, KeyedTable.hasKey, hfind] at htaken
          cases htaken
        simp [hkey]
      | some counter =>
        obtain ⟨-, hcounter⟩ := KeyedTable.find?_eq_some.mp hfind
        obtain ⟨rfl, rfl, rfl⟩ := by simpa using hcounter
        by_cases hkey : (workspaceId, key, usagePeriodStart env key) =
            (counter.workspaceId, counter.resourceKey, counter.periodStart)
        · obtain ⟨rfl, rfl, hperiod⟩ := by simpa using hkey
          simp [hperiod]
        · have hother : ¬ (counter.workspaceId = workspaceId ∧ counter.resourceKey = key ∧
              counter.periodStart = usagePeriodStart env key) := by
            rintro ⟨rfl, rfl, hperiod⟩
            exact hkey (by rw [hperiod])
          simp [hkey, hother, and_assoc]

@[simp] theorem recordUsage_core (db : Db) (env : Env) (workspaceId : String) (key : ResourceKey)
    (amount : Int) : (recordUsage db env workspaceId key amount).core = db.core := by
  obtain ⟨counters, hcounters⟩ := recordUsage_frame db env workspaceId key amount
  rw [hcounters]
  rfl

end Peanut
