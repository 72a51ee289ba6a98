import Peanut.Functions.Mirror
import Peanut.Functions.Invoke

/-!
# The key of a function

A function with the policy `api_key` is to be invoked with its key.  The policy
leaves the key to `require_api_key`, and `require_api_key` asks for none where no
hash is stored; creating and updating accept the policy without a key.
-/

namespace Peanut

open Relational

/-! ### Invocations -/

/-- The two ways to an endpoint. -/
inductive InvokeRoute where
  | endpoint
  | appEndpoint

namespace InvokeRoute

def appId (r : InvokeRequest) : InvokeRoute → String
  | .endpoint => DEFAULT_APP_ID
  | .appEndpoint => r.appId

def invoke (pf : Platform) (db : Db) (env : Env) (r : InvokeRequest) :
    InvokeRoute → Db × Except ApiError String
  | .endpoint => invokeFunction pf db env r
  | .appEndpoint => invokeAppFunction pf db env r

end InvokeRoute

/-- The request reaches the function and starts it. -/
structure RunsFunction (pf : Platform) (db : Db) (env : Env) (route : InvokeRoute)
    (r : InvokeRequest) (f : FunctionDetail) : Prop where
  found : loadFunctionByAppEndpoint db (route.appId r) r.endpointSlug = some f
  started : ∃ invocationId, (route.invoke pf db env r).2 = .ok invocationId

/-- The body or the header has a key whose hash is the one stored. -/
def PresentsKey (pf : Platform) (r : InvokeRequest) (f : FunctionDetail) : Prop :=
  ∃ payload key, parseInvokeRequest r.body = .ok payload ∧
    (payload.apiKey = some key ∨ r.functionKey = some key) ∧
    f.apiKeyHash = some (hashApiKey pf key)

variable {r : InvokeRequest} {f : FunctionDetail}

theorem requireApiKey_presents {pf : Platform}
    {payload : InvokeFunctionRequest} {storedHash : String}
    (hparse : parseInvokeRequest r.body = .ok payload) (hhash : f.apiKeyHash = some storedHash)
    (h : requireApiKey pf f r.functionKey payload.apiKey = .ok ()) : PresentsKey pf r f := by
  simp only [requireApiKey, hhash, Outcome.ensure_eq_ok, beq_iff_eq] at h
  obtain ⟨key, hkey, rfl⟩ := Option.map_eq_some_iff.mp h
  refine ⟨payload, key, hparse, ?_, hhash⟩
  cases hbody : payload.apiKey with
  | none =>
    rw [hbody, Option.none_or] at hkey
    exact .inr hkey
  | some bodyKey =>
    rw [hbody, Option.some_or] at hkey
    exact .inl hkey

theorem RunsFunction.key_checked {pf : Platform} {db : Db} {env : Env} {route : InvokeRoute}
    (h : RunsFunction pf db env route r f) :
    ∃ payload, parseInvokeRequest r.body = .ok payload ∧
      requireApiKey pf f r.functionKey payload.apiKey = .ok () := by
  have happ : ∀ r' : InvokeRequest, (∃ id, (invokeAppFunction pf db env r').2 = .ok id) →
      loadFunctionByAppEndpoint db r'.appId r'.endpointSlug = some f →
      ∃ payload, parseInvokeRequest r'.body = .ok payload ∧
        requireApiKey pf f r'.functionKey payload.apiKey = .ok () := by
    rintro r' ⟨id, hid⟩ hfound
    simp only [invokeAppFunction, Outcome.proceed_eq_ok, Outcome.bind_eq_ok] at hid
    obtain ⟨_, ⟨⟨function, payload⟩, hload, _⟩, _⟩ := hid
    obtain ⟨hparse, hload, hkey⟩ := invokableFunction_ok hload
    rw [hfound] at hload
    cases hload
    exact ⟨payload, hparse, hkey⟩
  cases route with
  | endpoint => exact happ { r with appId := DEFAULT_APP_ID } h.started h.found
  | appEndpoint => exact happ r h.started h.found

/-- **One invocation.**  Of a function that is started, the key was presented
    exactly if there is one. -/
theorem RunsFunction.presentsKey_iff {pf : Platform} {db : Db} {env : Env} {route : InvokeRoute}
    (h : RunsFunction pf db env route r f) :
    PresentsKey pf r f ↔ f.apiKeyHash.isSome = true := by
  constructor
  · rintro ⟨payload, key, -, -, hhash⟩
    rw [hhash]
    rfl
  · intro hsome
    obtain ⟨storedHash, hhash⟩ := Option.isSome_iff_exists.mp hsome
    obtain ⟨payload, hparse, hkey⟩ := h.key_checked
    exact requireApiKey_presents hparse hhash hkey

/-! ### Policies with a key -/

/-- The policy `api_key` comes with the hash of a key. -/
def Keyed (invokePolicy : String) (apiKeyHash : Option String) : Prop :=
  invokePolicy = "api_key" → apiKeyHash.isSome = true

/-- So it does in every function and every version. -/
structure PoliciesKeyed (db : Db) : Prop where
  functions : ∀ f ∈ db.functions, Keyed f.invokePolicy f.apiKeyHash
  versions : ∀ v ∈ db.functionVersions, Keyed v.invokePolicy v.apiKeyHash

/-- The request gives no function the policy `api_key` without a key.  A rollback
    takes both from one version. -/
def SetsKey (pf : Platform) (db : Db) : FunctionRequest → Prop
  | .create _ _ payload =>
      normalizeInvokePolicy pf (payload.invokePolicy.getD "authenticated") = .ok "api_key" →
        ∃ key, payload.apiKey = some key ∧ isBlank key = false
  | .update _ claims name payload =>
      ∀ f, loadFunctionByName db claims.appId name = some f →
        normalizeInvokePolicy pf (payload.invokePolicy.getD f.invokePolicy) = .ok "api_key" →
          payload.apiKey.isSome = true ∨ f.apiKeyHash.isSome = true
  | .rollback _ _ _ _ => True
  | .delete _ _ _ => True

/-- Every request of the run does so in the state it finds. -/
def RunSetsKeys (pf : Platform) (cipher : SecretCipher) (db : Db)
    (requests : List FunctionRequest) : Prop :=
  ∀ before request after, requests = before ++ request :: after →
    SetsKey pf (runFunctions pf cipher db before) request

section Policies

variable {pf : Platform} {cipher : SecretCipher} {env : Env} {db db' : Db}

theorem PoliciesKeyed.logged (h : PoliciesKeyed db) (logs : KeyedTable AuditLog (·.id)) :
    PoliciesKeyed { db with auditLogs := logs } := ⟨h.functions, h.versions⟩

variable {validated : ValidatedFunction}

theorem PoliciesKeyed.activate (h : PoliciesKeyed db) {functionId updatedBy : String}
    {version : LoadedFunctionVersion} (hkeyed : Keyed validated.invokePolicy validated.apiKeyHash)
    (hact : activateFunctionVersion db env functionId validated version updatedBy = some db') :
    PoliciesKeyed db' := by
  obtain ⟨functions, rfl, hmem, -⟩ := activateFunctionVersion_some hact
  refine ⟨?_, h.versions⟩
  intro f' hf'
  obtain ⟨f, hf, rfl⟩ := (hmem _).mp hf'
  split
  · exact hkeyed
  · exact h.functions f hf

theorem PoliciesKeyed.insertFunctionVersion (h : PoliciesKeyed db)
    {versionId functionId appId createdBy : String} {number : Int} {version : LoadedFunctionVersion}
    (hkeyed : Keyed validated.invokePolicy validated.apiKeyHash)
    (hversion : Peanut.insertFunctionVersion cipher db env versionId functionId appId number
      validated createdBy = some (version, db')) :
    PoliciesKeyed db' := by
  have hadded := (insertFunctionVersion_some hversion).1
  refine ⟨?_, ?_⟩
  · obtain ⟨versions, secrets, rfl⟩ := hadded.frame
    exact h.functions
  · intro v hv
    rcases (hadded.versions v).mp hv with hv | rfl
    · exact h.versions v hv
    · exact hkeyed

theorem PoliciesKeyed.createFunctionTx (h : PoliciesKeyed db) {claims : Claims}
    (hkeyed : Keyed validated.invokePolicy validated.apiKeyHash)
    (hok : Peanut.createFunctionTx cipher db env claims validated = .ok db') :
    PoliciesKeyed db' := by
  simp only [Peanut.createFunctionTx, Outcome.bind_eq_ok, Outcome.require_eq_ok] at hok
  obtain ⟨db₁, hinsert, ⟨version, db₂⟩, hversion, hact⟩ := hok
  obtain ⟨-, -, -, functions, hins, rfl⟩ := Db.insertFunction_eq_some.mp hinsert
  have hinserted : PoliciesKeyed { db with functions := functions } := by
    refine ⟨?_, h.versions⟩
    intro f hf
    rcases (KeyedTable.mem_insert? hins).mp hf with hf | rfl
    · exact h.functions f hf
    · exact hkeyed
  exact (hinserted.insertFunctionVersion hkeyed hversion).activate hkeyed hact

theorem PoliciesKeyed.updateFunctionTx (h : PoliciesKeyed db) {claims : Claims}
    {existing : FunctionDetail} (hkeyed : Keyed validated.invokePolicy validated.apiKeyHash)
    (hok : Peanut.updateFunctionTx cipher db env claims existing validated = .ok db') :
    PoliciesKeyed db' := by
  simp only [Peanut.updateFunctionTx, Outcome.bind_eq_ok, Outcome.require_eq_ok] at hok
  obtain ⟨⟨version, db₁⟩, hversion, hact⟩ := hok
  exact (h.insertFunctionVersion hkeyed hversion).activate hkeyed hact

theorem PoliciesKeyed.deleteFunctions (h : PoliciesKeyed db) (p : FunctionDetail → Bool) :
    PoliciesKeyed (db.deleteFunctions p) := by
  refine ⟨?_, ?_⟩
  · intro f hf
    exact h.functions f (KeyedTable.mem_deleteWhere.mp hf).1
  · intro v hv
    exact h.versions v (KeyedTable.mem_deleteWhere.mp hv).1

theorem validateCreatePayload_keyed {payload : UpsertFunctionRequest}
    (hsets : normalizeInvokePolicy pf (payload.invokePolicy.getD "authenticated") = .ok "api_key" →
      ∃ key, payload.apiKey = some key ∧ isBlank key = false)
    (h : validateCreatePayload pf payload = .ok validated) :
    Keyed validated.invokePolicy validated.apiKeyHash := by
  simp only [validateCreatePayload, Outcome.bind_eq_ok] at h
  obtain ⟨_, _, _, _, _, _, _, _, _, _, policy, hpolicy, _, _, _, _, _, _, _, _, _, _, heq⟩ := h
  cases heq
  rintro rfl
  obtain ⟨key, hkey, hblank⟩ := hsets hpolicy
  simp [hkey, Option.filter, hblank]

theorem validateUpdatePayload_keyed {existing : FunctionDetail} {secrets : List (String × String)}
    {payload : UpdateFunctionRequest}
    (hsets : normalizeInvokePolicy pf (payload.invokePolicy.getD existing.invokePolicy) =
      .ok "api_key" → payload.apiKey.isSome = true ∨ existing.apiKeyHash.isSome = true)
    (h : validateUpdatePayload pf existing secrets payload = .ok validated) :
    Keyed validated.invokePolicy validated.apiKeyHash := by
  simp only [validateUpdatePayload, Outcome.bind_eq_ok] at h
  obtain ⟨_, _, _, _, _, _, _, _, policy, hpolicy, _, _, _, _, _, _, _, _, _, _, heq⟩ := h
  cases heq
  rintro rfl
  rcases hsets hpolicy with hkey | hkey
  · obtain ⟨key, hkey⟩ := Option.isSome_iff_exists.mp hkey
    simp [hkey]
  · cases payload.apiKey with
    | none => simpa using hkey
    | some key => simp

theorem FunctionCommit.keyed (h : PoliciesKeyed db) {request : FunctionRequest}
    (hsets : SetsKey pf db request) (hcommit : FunctionCommit pf cipher db request db') :
    PoliciesKeyed db' := by
  cases hcommit with
  | refused => exact h
  | create hvalid hok => exact h.createFunctionTx (validateCreatePayload_keyed hsets hvalid) hok
  | update hload _ hvalid hok =>
    exact h.updateFunctionTx (validateUpdatePayload_keyed (hsets _ hload) hvalid) hok
  | rollback hload hversion hact =>
    -- the policy and the key are those of one stored version
    obtain ⟨v, hv, -, rfl⟩ := loadFunctionVersionByNumber_stored hversion
    exact h.activate (h.versions v hv) hact
  | delete env claims name p => exact h.deleteFunctions p

theorem handleFunctionRequest_keyed (h : PoliciesKeyed db) (request : FunctionRequest)
    (hsets : SetsKey pf db request) :
    PoliciesKeyed (handleFunctionRequest pf cipher db request) :=
  handleFunctionRequest_rule (fun _ hcommit => hcommit.keyed h hsets) fun _ logs hkeyed =>
    hkeyed.logged logs

theorem runFunctions_keyed {requests : List FunctionRequest}
    (hsets : RunSetsKeys pf cipher db requests) :
    PoliciesKeyed (runFunctions pf cipher db requests) := by
  have hstart : PoliciesKeyed db.withoutFunctions := by
    refine ⟨?_, ?_⟩
    · intro f hf
      exact absurd hf (KeyedTable.not_mem_empty f)
    · intro v hv
      exact absurd hv (KeyedTable.not_mem_empty v)
  have hstep : ∀ s request, PoliciesKeyed s → SetsKey pf s request →
      PoliciesKeyed (handleFunctionRequest pf cipher s request) :=
    fun s request h hset => handleFunctionRequest_keyed h request hset
  exact Transition.run_invariant hstep hstart requests hsets

end Policies

/-- **The policy `api_key`.**  In every state a run has reached, a request that starts
    a function with the policy has presented its key exactly if a hash is stored
    for the function; and it always has in a run that gives no function the policy
    without a key. -/
theorem api_key_presented_iff (pf : Platform) (cipher : SecretCipher) (db : Db)
    (requests : List FunctionRequest) :
    (∀ env route r f, f.invokePolicy = "api_key" →
      RunsFunction pf (runFunctions pf cipher db requests) env route r f →
      (PresentsKey pf r f ↔ f.apiKeyHash.isSome = true)) ∧
      (RunSetsKeys pf cipher db requests →
        ∀ before after, requests = before ++ after → ∀ env route r f,
          f.invokePolicy = "api_key" →
          RunsFunction pf (runFunctions pf cipher db before) env route r f →
          PresentsKey pf r f) := by
  constructor
  · intro env route r f _ hruns
    exact hruns.presentsKey_iff
  · rintro hsets before after rfl env route r f hpolicy hruns
    have hbefore : RunSetsKeys pf cipher db before := by
      rintro first request last rfl
      exact hsets first request (last ++ after) (by simp)
    have hmem := (KeyedTable.selectOne_some hruns.found).1
    exact hruns.presentsKey_iff.mpr ((runFunctions_keyed hbefore).functions f hmem hpolicy)

/-! ### With a key and without -/

/-- Ada's app. -/
def greetingsDb : Db :=
  { functionAdminDb with
    workspaces := ⟨[{
      id := "default", name := "default", displayName := "Default", createdBy := some "ada"
      createdAt := "2026-01-01 00:00:00", updatedAt := "2026-01-01 00:00:00" }], by decide⟩
    apps := ⟨[{
      id := "default", name := "default", displayName := "Default", workspaceId := "default"
      createdBy := some "ada", createdAt := "2026-01-01 00:00:00"
      updatedAt := "2026-01-01 00:00:00", deletedAt := none }], by decide⟩ }

/-- She writes a function with the policy `api_key`. -/
def greetWithPolicy (apiKey : Option String) : List FunctionRequest :=
  [.create (sampleEnv "a") functionAdminClaims
    { name := "greet", displayName := "Greet", endpointSlug := "greet", runtime := "javascript"
      sourceCode := "one", invokePolicy := some "api_key", apiKey := apiKey }]

/-- Somebody invokes it. -/
def greetRequest (functionKey : Option String) : InvokeRequest :=
  { claims := none, origin := none, functionKey := functionKey, appId := "default"
    endpointSlug := "greet", body := .empty }

theorem exists_runsFunction {pf : Platform} {db : Db} {env : Env} {route : InvokeRoute}
    {r : InvokeRequest} {p : FunctionDetail → Bool}
    (hfound : (loadFunctionByAppEndpoint db (route.appId r) r.endpointSlug).any p = true)
    (hstarted : Outcome.succeeded (route.invoke pf db env r).2 = true) :
    ∃ f, p f = true ∧ RunsFunction pf db env route r f := by
  obtain ⟨f, hload, hp⟩ := (Option.any_eq_true p _).mp hfound
  exact ⟨f, hp, hload, Outcome.succeeded_iff.mp hstarted⟩

/-- Without a key in the definition nobody needs one. -/
theorem keyless_function_runs :
    ∃ f, f.invokePolicy = "api_key" ∧
      RunsFunction asciiPlatform
        (runFunctions asciiPlatform readableCipher greetingsDb (greetWithPolicy none))
        (sampleEnv "b") .endpoint (greetRequest none) f ∧
      ¬ PresentsKey asciiPlatform (greetRequest none) f := by
  obtain ⟨f, hf, hruns⟩ := @exists_runsFunction asciiPlatform
    (runFunctions asciiPlatform readableCipher greetingsDb (greetWithPolicy none))
    (sampleEnv "b") .endpoint (greetRequest none)
    (fun f => f.invokePolicy == "api_key" && f.apiKeyHash.isNone) (by decide +kernel)
    (by decide +kernel)
  simp only [Bool.and_eq_true, beq_iff_eq, Option.isNone_iff_eq_none] at hf
  refine ⟨f, hf.1, hruns, ?_⟩
  rintro ⟨payload, key, -, -, hhash⟩
  rw [hf.2] at hhash
  cases hhash

/-- With one it is asked for. -/
theorem keyed_function_needs_key :
    ∃ f, f.invokePolicy = "api_key" ∧
      RunsFunction asciiPlatform
        (runFunctions asciiPlatform readableCipher greetingsDb (greetWithPolicy (some "mint")))
        (sampleEnv "b") .endpoint (greetRequest (some "mint")) f ∧
      PresentsKey asciiPlatform (greetRequest (some "mint")) f := by
  obtain ⟨f, hf, hruns⟩ := @exists_runsFunction asciiPlatform
    (runFunctions asciiPlatform readableCipher greetingsDb (greetWithPolicy (some "mint")))
    (sampleEnv "b") .endpoint (greetRequest (some "mint"))
    (fun f => f.invokePolicy == "api_key") (by decide +kernel) (by decide +kernel)
  have hpolicy := beq_iff_eq.mp hf
  have hsets : RunSetsKeys asciiPlatform readableCipher greetingsDb
      (greetWithPolicy (some "mint")) := by
    intro before request after hsplit
    have hmem : request ∈ greetWithPolicy (some "mint") := by rw [hsplit]; simp
    simp only [greetWithPolicy, List.mem_singleton] at hmem
    rw [hmem]
    exact fun _ => ⟨"mint", rfl, by decide⟩
  refine ⟨f, hpolicy, hruns, ?_⟩
  exact (api_key_presented_iff asciiPlatform readableCipher greetingsDb
    (greetWithPolicy (some "mint"))).2 hsets _ [] (by simp) _ _ _ f hpolicy hruns

end Peanut
