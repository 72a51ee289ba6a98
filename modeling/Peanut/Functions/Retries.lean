import Peanut.Functions.Invoke
import Peanut.Library.Forest

/-!
# Retries

`api/functions/invocations.rs`: the attempts at one invocation, and the request to
run an invocation again.  A retry is an invocation of its own that names the one it
repeats as its parent.
-/

namespace Peanut

open Relational Interleaving

/-! ### Loading -/

inductive LoadInvocationError where
  | notFound
  | queryFailed
deriving DecidableEq

def loadInvocation (db : Db) (functionId invocationId : String) :
    Except LoadInvocationError FunctionInvocation :=
  Outcome.require
    (db.functionInvocations.selectOne fun i => i.functionId == functionId && i.id == invocationId)
    .notFound

theorem loadInvocation_eq_ok {db : Db} {functionId invocationId : String} {i : FunctionInvocation} :
    loadInvocation db functionId invocationId = .ok i ↔
      i ∈ db.functionInvocations ∧ i.functionId = functionId ∧ i.id = invocationId := by
  rw [loadInvocation, Outcome.require_eq_ok]
  constructor
  · intro h
    obtain ⟨hmem, hmatch⟩ := KeyedTable.selectOne_some h
    rw [Bool.and_eq_true, beq_iff_eq, beq_iff_eq] at hmatch
    exact ⟨hmem, hmatch⟩
  · rintro ⟨hmem, rfl, rfl⟩
    refine KeyedTable.selectOne_eq_some hmem (by simp) fun j hj hmatch => ?_
    rw [Bool.and_eq_true, beq_iff_eq, beq_iff_eq] at hmatch
    exact db.functionInvocations.eq_of_key_eq hj hmem hmatch.2

def invocationError (error : LoadInvocationError) (queryFailed : String) : ApiError :=
  match error with
  | .notFound => jsonError .notFound "function invocation not found"
  | .queryFailed => jsonError .internalServerError queryFailed

/-! ### The attempts -/

/-- The loop of `find_root_invocation_id`; `none` when the fuel is spent first. -/
def climbToRoot (db : Db) (functionId : String) :
    Nat → FunctionInvocation → Option (Except LoadInvocationError String)
  | 0, _ => none
  | fuel + 1, current =>
      match current.parentInvocationId with
      | none => some (.ok current.id)
      | some parentId =>
          match loadInvocation db functionId parentId with
          | .error e => some (.error e)
          | .ok parent => climbToRoot db functionId fuel parent

def findRootInvocationId (fuel : Nat) (db : Db) (functionId invocationId : String) :
    Option (Except LoadInvocationError String) :=
  match loadInvocation db functionId invocationId with
  | .error e => some (.error e)
  | .ok current => climbToRoot db functionId fuel current

/-- The recursive part of `attempt_chain`: the rows joined to one row. -/
def nextAttempts (db : Db) (functionId : String) (attempt : FunctionInvocation) :
    List FunctionInvocation :=
  db.functionInvocations.select fun i =>
    i.parentInvocationId == some attempt.id && i.functionId == functionId

/-- `WITH RECURSIVE attempt_chain`: SQLite takes rows from a queue that starts with
    the root and adds what is joined to each. -/
def attemptChain (fuel : Nat) (db : Db) (functionId rootInvocationId : String) :
    Option (List FunctionInvocation) :=
  Forest.visit (nextAttempts db functionId) fuel
    (db.functionInvocations.select fun i => i.functionId == functionId && i.id == rootInvocationId)

/-- `ORDER BY retry_count ASC, created_at ASC` -/
def attemptLe (i j : FunctionInvocation) : Bool :=
  decide (i.retryCount < j.retryCount) ||
    (decide (i.retryCount = j.retryCount) && !strLt j.createdAt i.createdAt)

def listFunctionInvocationAttempts (fuel : Nat) (db : Db) (claims : Claims)
    (name invocationId : String) : Option (Except ApiError (Reply (List FunctionInvocation))) :=
  match (do
    requireAdmin claims
    Outcome.require (loadFunctionByName db claims.appId name)
      (jsonError .notFound "function not found")) with
  | .error e => some (.error e)
  | .ok function => do
      let root ← findRootInvocationId fuel db function.id invocationId
      match root with
      | .error e =>
          return .error (invocationError e "failed to load function invocation attempts")
      | .ok rootInvocationId =>
          let attempts ← attemptChain fuel db function.id rootInvocationId
          return .ok { status := .ok, body := attempts.mergeSort attemptLe }

/-! ### Retrying -/

/-- `retry_function_invocation` up to the execution: the id of the invocation. -/
def retryFunctionInvocation (db : Db) (env : Env) (claims : Claims) (name invocationId : String) :
    Db × Except ApiError String :=
  let started := do
    requireAdmin claims
    let function ← Outcome.require (loadFunctionByName db claims.appId name)
      (jsonError .notFound "function not found")
    let invocation ← (loadInvocation db function.id invocationId).mapError fun e =>
      invocationError e "failed to load function invocation"
    let version ← (loadFunctionVersionById db invocation.functionVersionId).mapError fun _ =>
      jsonError .internalServerError "failed to load function version"
    startFunctionInvocation db env (env.uuid 0) function version invocation.request false
      claims.appId (invocation.retryCount + 1) (some invocation.id)
  Outcome.proceed db started fun (invocationId, db) => (db, .ok invocationId)

/-! ### One statement at a time -/

inductive RetryStage where
  | received
  | found (function : FunctionDetail)
  | loaded (function : FunctionDetail) (invocation : FunctionInvocation)
  | versionLoaded (function : FunctionDetail) (invocation : FunctionInvocation)
      (version : LoadedFunctionVersion)
  | workspaceFound (function : FunctionDetail) (invocation : FunctionInvocation)
      (version : LoadedFunctionVersion) (workspaceId : String)
  | counted (function : FunctionDetail) (invocation : FunctionInvocation)
      (version : LoadedFunctionVersion) (workspaceId : String) (used : Int)
  | checked (function : FunctionDetail) (invocation : FunctionInvocation)
      (version : LoadedFunctionVersion) (workspaceId : String)
  | inserted (workspaceId invocationId : String)
  | started (invocationId : String)
  | refused (error : ApiError)

structure RetryCall where
  claims : Claims
  name : String
  invocationId : String
  stage : RetryStage

namespace RetryCall

/-- The row that the `INSERT` of a retry adds. -/
def retried (c : RetryCall) (env : Env) (function : FunctionDetail)
    (invocation : FunctionInvocation) (version : LoadedFunctionVersion) : FunctionInvocation :=
  newInvocation env (env.uuid 0) function version invocation.request false c.claims.appId
    (invocation.retryCount + 1) (some invocation.id)

def step (env : Env) (db : Db) (c : RetryCall) : Db × RetryCall :=
  match c.stage with
  | .received =>
      match (do
        requireAdmin c.claims
        Outcome.require (loadFunctionByName db c.claims.appId c.name)
          (jsonError .notFound "function not found")) with
      | .error e => (db, { c with stage := .refused e })
      | .ok function => (db, { c with stage := .found function })
  | .found function =>
      match loadInvocation db function.id c.invocationId with
      | .error e =>
          (db, { c with
            stage := .refused (invocationError e "failed to load function invocation") })
      | .ok invocation => (db, { c with stage := .loaded function invocation })
  | .loaded function invocation =>
      match loadFunctionVersionById db invocation.functionVersionId with
      | .error _ =>
          (db, { c with stage := .refused (jsonError .internalServerError
            "failed to load function version") })
      | .ok version => (db, { c with stage := .versionLoaded function invocation version })
  | .versionLoaded function invocation version =>
      match appWorkspaceId db c.claims.appId with
      | none => (db, { c with stage := .refused (jsonError .notFound "app not found") })
      | some workspaceId =>
          (db, { c with stage := .workspaceFound function invocation version workspaceId })
  | .workspaceFound function invocation version workspaceId =>
      let used := usedResource db env workspaceId .functionInvocationsMonth
      (db, { c with stage := .counted function invocation version workspaceId used })
  | .counted function invocation version workspaceId used =>
      match requireWithinLimit db env workspaceId .functionInvocationsMonth used 1 with
      | .error e => (db, { c with stage := .refused e })
      | .ok () => (db, { c with stage := .checked function invocation version workspaceId })
  | .checked function invocation version workspaceId =>
      match db.insertFunctionInvocation (c.retried env function invocation version) with
      | none =>
          (db, { c with stage := .refused (jsonError .internalServerError
            "failed to create invocation log") })
      | some db => (db, { c with stage := .inserted workspaceId (env.uuid 0) })
  | .inserted workspaceId invocationId =>
      (recordUsage db env workspaceId .functionInvocationsMonth 1,
        { c with stage := .started invocationId })
  | .started _ => (db, c)
  | .refused _ => (db, c)

def reply (c : RetryCall) : Option (Except ApiError String) :=
  match c.stage with
  | .started invocationId => some (.ok invocationId)
  | .refused e => some (.error e)
  | _ => none

end RetryCall

/-- On its own, the machine computes `retryFunctionInvocation`. -/
theorem retryFunctionInvocation_alone (env : Env) (db : Db) (claims : Claims)
    (name invocationId : String) :
    (alone RetryCall.step env 8 db ⟨claims, name, invocationId, .received⟩).1 =
        (retryFunctionInvocation db env claims name invocationId).1 ∧
      (alone RetryCall.step env 8 db ⟨claims, name, invocationId, .received⟩).2.reply =
        some (retryFunctionInvocation db env claims name invocationId).2 := by
  unfold retryFunctionInvocation startFunctionInvocation requireAppResourceAvailable
  dsimp only
  rcases hadmin : requireAdmin claims with e | u
  · simp [alone, RetryCall.step, RetryCall.reply, hadmin]
  rcases hname : loadFunctionByName db claims.appId name with _ | function
  · simp [alone, RetryCall.step, RetryCall.reply, hadmin, hname]
  rcases hload : loadInvocation db function.id invocationId with e | invocation
  · simp [alone, RetryCall.step, RetryCall.reply, hadmin, hname, hload]
  rcases hversion : loadFunctionVersionById db invocation.functionVersionId with e | version
  · simp [alone, RetryCall.step, RetryCall.reply, hadmin, hname, hload, hversion]
  rcases hws : appWorkspaceId db claims.appId with _ | workspaceId
  · simp [alone, RetryCall.step, RetryCall.reply, hadmin, hname, hload, hversion, hws]
  simp only [Outcome.require_some, Outcome.ok_bind]
  rw [← requireWithinLimit_usedResource]
  rcases hlimit : requireWithinLimit db env workspaceId .functionInvocationsMonth
      (usedResource db env workspaceId .functionInvocationsMonth) 1 with e | u
  · simp [alone, RetryCall.step, RetryCall.reply, hadmin, hname, hload, hversion, hws, hlimit]
  rcases hinsert : db.insertFunctionInvocation
      (RetryCall.retried ⟨claims, name, invocationId, .received⟩ env function invocation version)
    with _ | db'
  · have hsame := hinsert
    rw [RetryCall.retried] at hsame
    simp [alone, RetryCall.step, RetryCall.retried, RetryCall.reply, hadmin, hname, hload, hversion,
      hws, hlimit, hsame]
  · have hsame := hinsert
    rw [RetryCall.retried] at hsame
    simp [alone, RetryCall.step, RetryCall.retried, RetryCall.reply, hadmin, hname, hload, hversion,
      hws, hlimit, hsame, pure, Except.pure]

end Peanut
