import Peanut.Functions.Invocations
import Peanut.Library.Interleaving

/-!
# Invoking a function

`api/functions/invoke.rs` up to the point where the function is executed: the
body of the request, the policies of the function, the rate limit, the version,
the quota, the row of the invocation and the usage counter.  `invoke_function`
and `invoke_app_function` differ in the app only.
-/

namespace Peanut

open Relational Interleaving

/-! ### The request -/

/-- The bytes of a body, as far as `serde_json::from_slice` tells them apart. -/
inductive RequestBody where
  | empty
  | invalid
  | json (value : Value)

structure InvokeFunctionRequest where
  input : Value := .null
  apiKey : Option String := none
  asyncInvoke : Option Bool := none

/-- `Option<String>` of a member that may be missing. -/
def optionalText (v : Value) (key : String) : Option (Option String) :=
  match v.member key with
  | none | some .null => some none
  | some (.string s) => some (some s)
  | some _ => none

/-- `Option<bool>` of a member that may be missing. -/
def optionalBool (v : Value) (key : String) : Option (Option Bool) :=
  match v.member key with
  | none | some .null => some none
  | some (.bool b) => some (some b)
  | some _ => none

/-- `serde_json::from_value`. -/
def InvokeFunctionRequest.ofValue (v : Value) : Option InvokeFunctionRequest := do
  let apiKey ← optionalText v "api_key"
  let asyncInvoke ← optionalBool v "async_invoke"
  return { input := (v.member "input").getD .null, apiKey := apiKey, asyncInvoke := asyncInvoke }

/-- A body with none of the three members is the input itself. -/
def parseInvokeRequest : RequestBody → Except String InvokeFunctionRequest
  | .empty => .ok {}
  | .invalid => .error "request body must be valid JSON"
  | .json value =>
      if (value.member "input").isSome || (value.member "api_key").isSome ||
          (value.member "async_invoke").isSome then
        Outcome.require (InvokeFunctionRequest.ofValue value) "invalid function request body"
      else .ok { input := value }

/-- What a request to invoke a function carries; `origin` and `functionKey` are the
    headers `origin` and `x-peanut-function-key`. -/
structure InvokeRequest where
  claims : Option Claims
  origin : Option String
  functionKey : Option String
  appId : String
  endpointSlug : String
  body : RequestBody

/-! ### Policies -/

def requireInvokePolicy (function : FunctionDetail) (claims : Option Claims) :
    Except ApiError Unit :=
  if function.invokePolicy == "public" || function.invokePolicy == "api_key" then .ok ()
  else if function.invokePolicy == "authenticated" then
    Outcome.ensure claims.isSome
      (jsonError .unauthorized "authentication required for function invoke")
  else if function.invokePolicy == "admin_only" then
    match claims with
    | some claims =>
        Outcome.ensure claims.isAdmin
          (jsonError .forbidden "admin access required for function invoke")
    | none => .error (jsonError .unauthorized "authentication required for function invoke")
  else .error (jsonError .internalServerError "invalid invoke policy")

def requireOriginPolicy (function : FunctionDetail) (origin : Option String) :
    Except ApiError Unit :=
  if function.allowedOrigins.isEmpty then .ok ()
  else
    match origin with
    | some origin =>
        Outcome.ensure (function.allowedOrigins.contains origin)
          (jsonError .forbidden "origin is not allowed for function invoke")
    | none => .error (jsonError .forbidden "origin header is required for this function")

def requireApiKey (pf : Platform) (function : FunctionDetail)
    (headerKey bodyApiKey : Option String) : Except ApiError Unit :=
  match function.apiKeyHash with
  | none => .ok ()
  | some storedHash =>
      Outcome.ensure ((bodyApiKey.or headerKey).map (hashApiKey pf) == some storedHash)
        (jsonError .unauthorized "valid function api key is required")

/-- The invocations of a function that were created at an instant or later. -/
def countInvocationsSince (db : Db) (functionId since : String) : Int :=
  (db.functionInvocations.select fun i =>
    i.functionId == functionId && !strLt i.createdAt since).length

def requireRateLimit (db : Db) (env : Env) (function : FunctionDetail) : Except ApiError Unit :=
  Outcome.ensure
    (!decide (countInvocationsSince db function.id (env.secondsAgo 60) ≥
      function.rateLimitPerMinute))
    (jsonError .tooManyRequests "function rate limit exceeded")

def loadFunctionByAppEndpoint (db : Db) (appId endpointSlug : String) : Option FunctionDetail :=
  db.functions.selectOne fun f => f.appId == appId && f.endpointSlug == endpointSlug

/-- The checks up to the rate limit: one `SELECT`. -/
def invokableFunction (pf : Platform) (db : Db) (r : InvokeRequest) :
    Except ApiError (FunctionDetail × InvokeFunctionRequest) := do
  let payload ← badRequest (parseInvokeRequest r.body)
  let function ← Outcome.require (loadFunctionByAppEndpoint db r.appId r.endpointSlug)
    (jsonError .notFound "function endpoint not found")
  Outcome.ensure function.enabled (jsonError .conflict "function is disabled")
  requireOriginPolicy function r.origin
  requireInvokePolicy function r.claims
  requireApiKey pf function r.functionKey payload.apiKey
  return (function, payload)

theorem invokableFunction_ok {pf : Platform} {db : Db} {r : InvokeRequest}
    {function : FunctionDetail} {payload : InvokeFunctionRequest}
    (h : invokableFunction pf db r = .ok (function, payload)) :
    parseInvokeRequest r.body = .ok payload ∧
      loadFunctionByAppEndpoint db r.appId r.endpointSlug = some function ∧
      requireApiKey pf function r.functionKey payload.apiKey = .ok () := by
  simp only [invokableFunction, Outcome.bind_eq_ok, badRequest_eq_ok, Outcome.require_eq_ok] at h
  obtain ⟨_, hparse, _, hload, _, _, _, _, _, _, _, hkey, heq⟩ := h
  cases heq
  exact ⟨hparse, hload, hkey⟩

theorem invokableFunction_mem {pf : Platform} {db : Db} {r : InvokeRequest}
    {function : FunctionDetail} {payload : InvokeFunctionRequest}
    (h : invokableFunction pf db r = .ok (function, payload)) : function ∈ db.functions :=
  (KeyedTable.selectOne_some (invokableFunction_ok h).2.1).1

def loadActiveVersion (db : Db) (function : FunctionDetail) :
    Except ApiError LoadedFunctionVersion :=
  (loadFunctionVersionById db function.activeVersionId).mapError fun _ =>
    jsonError .internalServerError "failed to load active function version"

/-- `invoke_app_function` up to the execution: the id of the invocation. -/
def invokeAppFunction (pf : Platform) (db : Db) (env : Env) (r : InvokeRequest) :
    Db × Except ApiError String :=
  let started := do
    let (function, payload) ← invokableFunction pf db r
    requireRateLimit db env function
    let version ← loadActiveVersion db function
    startFunctionInvocation db env (env.uuid 0) function version payload.input
      (payload.asyncInvoke.getD false) r.appId 0 none
  Outcome.proceed db started fun (invocationId, db) => (db, .ok invocationId)

/-- `invoke_function`. -/
def invokeFunction (pf : Platform) (db : Db) (env : Env) (r : InvokeRequest) :
    Db × Except ApiError String :=
  invokeAppFunction pf db env { r with appId := DEFAULT_APP_ID }

/-! ### One statement at a time -/

inductive InvokeStage where
  | received
  | loaded (function : FunctionDetail) (payload : InvokeFunctionRequest)
  | admitted (function : FunctionDetail) (payload : InvokeFunctionRequest)
  | versionLoaded (function : FunctionDetail) (payload : InvokeFunctionRequest)
      (version : LoadedFunctionVersion)
  | workspaceFound (function : FunctionDetail) (payload : InvokeFunctionRequest)
      (version : LoadedFunctionVersion) (workspaceId : String)
  | counted (function : FunctionDetail) (payload : InvokeFunctionRequest)
      (version : LoadedFunctionVersion) (workspaceId : String) (used : Int)
  | checked (function : FunctionDetail) (payload : InvokeFunctionRequest)
      (version : LoadedFunctionVersion) (workspaceId : String)
  | inserted (workspaceId invocationId : String)
  | started (invocationId : String)
  | refused (error : ApiError)

structure InvokeCall where
  request : InvokeRequest
  stage : InvokeStage

/-- The row that the `INSERT` of an invocation request adds. -/
def InvokeRequest.invocation (r : InvokeRequest) (env : Env) (function : FunctionDetail)
    (payload : InvokeFunctionRequest) (version : LoadedFunctionVersion) : FunctionInvocation :=
  newInvocation env (env.uuid 0) function version payload.input (payload.asyncInvoke.getD false)
    r.appId 0 none

namespace InvokeCall

def step (pf : Platform) (env : Env) (db : Db) (c : InvokeCall) : Db × InvokeCall :=
  match c.stage with
  | .received =>
      match invokableFunction pf db c.request with
      | .error e => (db, { c with stage := .refused e })
      | .ok (function, payload) => (db, { c with stage := .loaded function payload })
  | .loaded function payload =>
      match requireRateLimit db env function with
      | .error e => (db, { c with stage := .refused e })
      | .ok () => (db, { c with stage := .admitted function payload })
  | .admitted function payload =>
      match loadActiveVersion db function with
      | .error e => (db, { c with stage := .refused e })
      | .ok version => (db, { c with stage := .versionLoaded function payload version })
  | .versionLoaded function payload version =>
      match appWorkspaceId db c.request.appId with
      | none => (db, { c with stage := .refused (jsonError .notFound "app not found") })
      | some workspaceId =>
          (db, { c with stage := .workspaceFound function payload version workspaceId })
  | .workspaceFound function payload version workspaceId =>
      let used := usedResource db env workspaceId .functionInvocationsMonth
      (db, { c with stage := .counted function payload version workspaceId used })
  | .counted function payload version workspaceId used =>
      match requireWithinLimit db env workspaceId .functionInvocationsMonth used 1 with
      | .error e => (db, { c with stage := .refused e })
      | .ok () => (db, { c with stage := .checked function payload version workspaceId })
  | .checked function payload version workspaceId =>
      match db.insertFunctionInvocation (c.request.invocation env function payload version) with
      | none =>
          (db, { c with stage := .refused (jsonError .internalServerError
            "failed to create invocation log") })
      | some db => (db, { c with stage := .inserted workspaceId (env.uuid 0) })
  | .inserted workspaceId invocationId =>
      (recordUsage db env workspaceId .functionInvocationsMonth 1,
        { c with stage := .started invocationId })
  | .started _ => (db, c)
  | .refused _ => (db, c)

/-- The id of the invocation, once it is started, or the answer. -/
def reply (c : InvokeCall) : Option (Except ApiError String) :=
  match c.stage with
  | .started invocationId => some (.ok invocationId)
  | .refused e => some (.error e)
  | _ => none

end InvokeCall

/-- On its own, the machine computes `invokeAppFunction`. -/
theorem invokeAppFunction_alone (pf : Platform) (env : Env) (db : Db) (r : InvokeRequest) :
    (alone (InvokeCall.step pf) env 8 db ⟨r, .received⟩).1 = (invokeAppFunction pf db env r).1 ∧
      (alone (InvokeCall.step pf) env 8 db ⟨r, .received⟩).2.reply =
        some (invokeAppFunction pf db env r).2 := by
  unfold invokeAppFunction startFunctionInvocation requireAppResourceAvailable
  dsimp only
  cases hload : invokableFunction pf db r with
  | error e => simp [alone, InvokeCall.step, InvokeCall.reply, hload]
  | ok loaded =>
    obtain ⟨function, payload⟩ := loaded
    cases hrate : requireRateLimit db env function with
    | error e => simp [alone, InvokeCall.step, InvokeCall.reply, hload, hrate]
    | ok u =>
      cases hversion : loadActiveVersion db function with
      | error e => simp [alone, InvokeCall.step, InvokeCall.reply, hload, hrate, hversion]
      | ok version =>
        cases hws : appWorkspaceId db r.appId with
        | none => simp [alone, InvokeCall.step, InvokeCall.reply, hload, hrate, hversion, hws]
        | some workspaceId =>
          simp only [Outcome.require_some, Outcome.ok_bind]
          rw [← requireWithinLimit_usedResource]
          cases hlimit : requireWithinLimit db env workspaceId .functionInvocationsMonth
              (usedResource db env workspaceId .functionInvocationsMonth) 1 with
          | error e =>
            simp [alone, InvokeCall.step, InvokeCall.reply, hload, hrate, hversion, hws, hlimit]
          | ok u =>
            cases hinsert : db.insertFunctionInvocation
                (r.invocation env function payload version) with
            | none =>
              have hsame := hinsert
              rw [InvokeRequest.invocation] at hsame
              simp [alone, InvokeCall.step, InvokeCall.reply, hload, hrate, hversion, hws, hlimit,
                hinsert, hsame, pure, Except.pure]
            | some db' =>
              have hsame := hinsert
              rw [InvokeRequest.invocation] at hsame
              simp [alone, InvokeCall.step, InvokeCall.reply, hload, hrate, hversion, hws, hlimit,
                hinsert, hsame, pure, Except.pure]

end Peanut
