import Peanut.Library.ResultRow
import Peanut.Functions.Versions
import Peanut.Workspaces.Usage

/-!
# Invocations

`LoadedFunctionVersion` as `sqlx` reads it from a query, the loader of the
functions API, and the part of `run_function_invocation_with_version` that every
call goes through: the quota, the row of the invocation and the usage counter.
-/

namespace Peanut

open Relational

/-! ### Reading a version -/

/-- The columns of `function_versions`, and the count of secrets that queries add. -/
inductive VersionColumn where
  | id
  | appId
  | functionId
  | versionNumber
  | runtime
  | sourceCode
  | invokePolicy
  | envJson
  | apiKeyHash
  | allowedOriginsJson
  | rateLimitPerMinute
  | timeoutMs
  | createdBy
  | createdAt
  | secretKeyCount
deriving DecidableEq, Repr

/-- What a column holds; the two `*_json` texts are given decoded. -/
inductive Cell where
  | null
  | text (value : String)
  | integer (value : Int)
  | env (value : BTreeMap String)
  | origins (value : List String)

namespace Cell

def asText : Cell → Option String
  | .text value => some value
  | _ => none

def asOptionText : Cell → Option (Option String)
  | .null => some none
  | .text value => some (some value)
  | _ => none

def asInteger : Cell → Option Int
  | .integer value => some value
  | _ => none

def asEnv : Cell → Option (BTreeMap String)
  | .env value => some value
  | _ => none

def asOrigins : Cell → Option (List String)
  | .origins value => some value
  | _ => none

end Cell

def FunctionVersion.cell (v : FunctionVersion) (secretKeyCount : Int) : VersionColumn → Cell
  | .id => .text v.id
  | .appId => .text v.appId
  | .functionId => .text v.functionId
  | .versionNumber => .integer v.versionNumber
  | .runtime => .text v.runtime
  | .sourceCode => .text v.sourceCode
  | .invokePolicy => .text v.invokePolicy
  | .envJson => .env v.env
  | .apiKeyHash => match v.apiKeyHash with
      | some hash => .text hash
      | none => .null
  | .allowedOriginsJson => .origins v.allowedOrigins
  | .rateLimitPerMinute => .integer v.rateLimitPerMinute
  | .timeoutMs => .integer v.timeoutMs
  | .createdBy => .text v.createdBy
  | .createdAt => .text v.createdAt
  | .secretKeyCount => .integer secretKeyCount

/-- `#[derive(FromRow)]`: the fields in the order of the struct. -/
def LoadedFunctionVersion.fromRow (row : ResultRow VersionColumn Cell) :
    Except (RowError VersionColumn) LoadedFunctionVersion := do
  let id ← row.tryGet Cell.asText .id
  let versionNumber ← row.tryGet Cell.asInteger .versionNumber
  let runtime ← row.tryGet Cell.asText .runtime
  let sourceCode ← row.tryGet Cell.asText .sourceCode
  let invokePolicy ← row.tryGet Cell.asText .invokePolicy
  let env ← row.tryGet Cell.asEnv .envJson
  let apiKeyHash ← row.tryGet Cell.asOptionText .apiKeyHash
  let allowedOrigins ← row.tryGet Cell.asOrigins .allowedOriginsJson
  let rateLimitPerMinute ← row.tryGet Cell.asInteger .rateLimitPerMinute
  let timeoutMs ← row.tryGet Cell.asInteger .timeoutMs
  let secretKeyCount ← row.tryGet Cell.asInteger .secretKeyCount
  return { id := id, versionNumber := versionNumber, runtime := runtime, sourceCode := sourceCode,
           invokePolicy := invokePolicy, env := env, apiKeyHash := apiKeyHash,
           allowedOrigins := allowedOrigins, rateLimitPerMinute := rateLimitPerMinute,
           timeoutMs := timeoutMs, secretKeyCount := secretKeyCount }

/-- The columns the struct needs. -/
def LoadedFunctionVersion.columns : List VersionColumn :=
  [.id, .versionNumber, .runtime, .sourceCode, .invokePolicy, .envJson, .apiKeyHash,
    .allowedOriginsJson, .rateLimitPerMinute, .timeoutMs, .secretKeyCount]

/-- **Reading a version.**  A query gives the version exactly when it selects every
    column the struct needs. -/
theorem LoadedFunctionVersion.fromRow_select {columns : List VersionColumn} {v : FunctionVersion}
    {secretKeyCount : Int} {version : LoadedFunctionVersion} :
    fromRow (ResultRow.select columns (v.cell secretKeyCount)) = .ok version ↔
      LoadedFunctionVersion.columns ⊆ columns ∧ version = v.loaded secretKeyCount := by
  have hhash : Cell.asOptionText (v.cell secretKeyCount .apiKeyHash) = some v.apiKeyHash := by
    cases h : v.apiKeyHash <;> simp [FunctionVersion.cell, h, Cell.asOptionText]
  constructor
  · intro h
    simp only [fromRow, Outcome.bind_eq_ok, ResultRow.tryGet_select_eq_ok, hhash] at h
    simp only [FunctionVersion.cell, Cell.asText, Cell.asInteger, Cell.asEnv, Cell.asOrigins,
      Option.some.injEq] at h
    obtain ⟨_, ⟨h1, rfl⟩, _, ⟨h2, rfl⟩, _, ⟨h3, rfl⟩, _, ⟨h4, rfl⟩, _, ⟨h5, rfl⟩, _, ⟨h6, rfl⟩, _,
      ⟨h7, rfl⟩, _, ⟨h8, rfl⟩, _, ⟨h9, rfl⟩, _, ⟨h10, rfl⟩, _, ⟨h11, rfl⟩, heq⟩ := h
    cases heq
    refine ⟨?_, rfl⟩
    simp only [LoadedFunctionVersion.columns, List.cons_subset, List.nil_subset, and_true]
    exact ⟨h1, h2, h3, h4, h5, h6, h7, h8, h9, h10, h11⟩
  · rintro ⟨hsub, rfl⟩
    simp only [LoadedFunctionVersion.columns, List.cons_subset, List.nil_subset, and_true] at hsub
    obtain ⟨h1, h2, h3, h4, h5, h6, h7, h8, h9, h10, h11⟩ := hsub
    simp only [fromRow, Outcome.bind_eq_ok, ResultRow.tryGet_select_eq_ok, hhash]
    exact ⟨_, ⟨h1, rfl⟩, _, ⟨h2, rfl⟩, _, ⟨h3, rfl⟩, _, ⟨h4, rfl⟩, _, ⟨h5, rfl⟩, _, ⟨h6, rfl⟩, _,
      ⟨h7, rfl⟩, _, ⟨h8, rfl⟩, _, ⟨h9, rfl⟩, _, ⟨h10, rfl⟩, _, ⟨h11, rfl⟩, rfl⟩

inductive LoadFunctionVersionError where
  | notFound
  | queryFailed
deriving DecidableEq

/-- The `SELECT` list of the functions API. -/
def apiVersionColumns : List VersionColumn :=
  [.id, .functionId, .versionNumber, .runtime, .sourceCode, .invokePolicy, .envJson, .apiKeyHash,
    .allowedOriginsJson, .rateLimitPerMinute, .timeoutMs, .secretKeyCount]

/-- `load_function_version_by_id` of `api/functions/internal.rs`. -/
def loadFunctionVersionById (db : Db) (versionId : String) :
    Except LoadFunctionVersionError LoadedFunctionVersion :=
  match db.functionVersions.find? versionId with
  | none => .error .notFound
  | some v =>
      (LoadedFunctionVersion.fromRow
        (ResultRow.select apiVersionColumns (v.cell (countSecrets db v.id)))).mapError
        fun _ => .queryFailed

theorem loadFunctionVersionById_of_mem {db : Db} {v : FunctionVersion}
    (hv : v ∈ db.functionVersions) :
    loadFunctionVersionById db v.id = .ok (v.loaded (countSecrets db v.id)) := by
  have hfind : db.functionVersions.find? v.id = some v := KeyedTable.find?_eq_some.mpr ⟨hv, rfl⟩
  have hread := (@LoadedFunctionVersion.fromRow_select apiVersionColumns v (countSecrets db v.id)
    _).mpr
    ⟨by decide, rfl⟩
  rw [loadFunctionVersionById, hfind]
  simp only [hread, Outcome.mapError_ok]

/-! ### Starting an invocation -/

structure InvokeFunctionResponse where
  invocationId : String
  status : String
  response : Value
  durationMs : Int
deriving DecidableEq, Repr

/-- `INSERT INTO function_invocations`. -/
def Db.insertFunctionInvocation (db : Db) (i : FunctionInvocation) : Option Db :=
  if db.functions.hasKey i.functionId then
    (db.functionInvocations.insert? i).map fun invocations =>
      { db with functionInvocations := invocations }
  else none

theorem Db.insertFunctionInvocation_eq_some {db db' : Db} {i : FunctionInvocation} :
    db.insertFunctionInvocation i = some db' ↔
      db.functions.hasKey i.functionId = true ∧
        ∃ invocations, db.functionInvocations.insert? i = some invocations ∧
          db' = { db with functionInvocations := invocations } := by
  simp only [Db.insertFunctionInvocation, Option.ite_none_right_eq_some, Option.map_eq_some_iff,
    @eq_comm _ db']

/-- The row of a new invocation. -/
def newInvocation (env : Env) (uuid : String) (function : FunctionDetail)
    (functionVersion : LoadedFunctionVersion) (input : Value) (asyncInvoke : Bool) (appId : String)
    (retryCount : Int) (parentInvocationId : Option String) : FunctionInvocation :=
  { id := uuid, appId := appId, functionId := function.id
    status := if asyncInvoke then "queued" else "running"
    request := input, invokeMode := if asyncInvoke then "async" else "sync"
    functionVersionId := functionVersion.id, retryCount := retryCount
    parentInvocationId := parentInvocationId, createdAt := env.now }

/-- `run_function_invocation_with_version` up to the point where the function is
    executed.  The result is the id of the invocation; `uuid` is the id drawn. -/
def startFunctionInvocation (db : Db) (env : Env) (uuid : String) (function : FunctionDetail)
    (functionVersion : LoadedFunctionVersion) (input : Value) (asyncInvoke : Bool) (appId : String)
    (retryCount : Int) (parentInvocationId : Option String) : Except ApiError (String × Db) := do
  let workspaceId ← requireAppResourceAvailable db env appId .functionInvocationsMonth 1
  let db ← Outcome.require
    (db.insertFunctionInvocation
      (newInvocation env uuid function functionVersion input asyncInvoke appId retryCount
        parentInvocationId))
    (jsonError .internalServerError "failed to create invocation log")
  return (uuid, recordUsage db env workspaceId .functionInvocationsMonth 1)

/-- `run_function_invocation_with_version` with `async_invoke`: the execution is left
    to a task of its own, which updates the row of the invocation. -/
def queueFunctionInvocation (db : Db) (env : Env) (uuid : String) (function : FunctionDetail)
    (functionVersion : LoadedFunctionVersion) (input : Value) (appId : String) (retryCount : Int)
    (parentInvocationId : Option String) : Db × Except ApiError (Reply InvokeFunctionResponse) :=
  Outcome.proceed db
    (startFunctionInvocation db env uuid function functionVersion input true appId retryCount
      parentInvocationId)
    fun (invocationId, db) =>
      (db, .ok { status := .accepted
                 body := { invocationId := invocationId, status := "queued", response := .null
                           durationMs := 0 } })

end Peanut
