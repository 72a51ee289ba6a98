import Peanut.Functions.KeyPolicy
import Peanut.Functions.SecretHistory
import Peanut.Functions.Redaction

/-!
# The execution of a function

`execute_and_finalize_invocation`: the permit, the secrets, the sandbox, and the row of
the invocation, which is to end as `succeeded` or `failed`.  It does so behind every
answer of the sandbox.  In front of it there are two returns that leave the row as it
was inserted.
-/

namespace Peanut

open Relational

/-! ### The sandbox -/

structure SandboxExecutionRequest where
  runtime : String
  sourceCode : String
  functionName : String
  requestMethod : String
  requestPayload : Value
  requestQuery : Value
  requestBody : Value
  authPayload : Value
  envPayload : Value
  timeoutMs : Int

structure SandboxExecutionResult where
  responseJson : Value
  stdout : String
  stderr : String
  durationMs : Int

/-- What lies outside:
    * `permit`            the semaphore is open and hands out a permit;
    * `executeInSandbox`  the process, which may write to the database on the way;
    * `encodes`           `serde_json` writes the value as text. -/
structure FunctionsRuntime where
  permit : Bool
  executeInSandbox : Db → SandboxExecutionRequest → Option Claims →
    Db × Except String SandboxExecutionResult
  encodes : Value → Bool := fun _ => true

/-- The fields of `InvocationContext` the execution reads. -/
structure InvocationContext where
  invocationId : String
  functionVersion : LoadedFunctionVersion

/-! ### The row of the invocation -/

def FunctionInvocation.withStatus (i : FunctionInvocation) (status : String) : FunctionInvocation :=
  { i with status := status }

def FunctionInvocation.failed (i : FunctionInvocation) (error : String) (durationMs : Int)
    (now : String) : FunctionInvocation :=
  { i with
    status := "failed", error := some error, durationMs := some durationMs
    finishedAt := some now }

def FunctionInvocation.succeeded (i : FunctionInvocation) (response : Value)
    (logs : Option String) (durationMs : Int) (now : String) : FunctionInvocation :=
  { i with
    status := "succeeded", response := some response, error := logs
    durationMs := some durationMs, finishedAt := some now }

theorem FunctionInvocation.withStatus_id (i : FunctionInvocation) (status : String) :
    (i.withStatus status).id = i.id := rfl

theorem FunctionInvocation.failed_id (i : FunctionInvocation) (error : String) (durationMs : Int)
    (now : String) : (i.failed error durationMs now).id = i.id := rfl

theorem FunctionInvocation.succeeded_id (i : FunctionInvocation) (response : Value)
    (logs : Option String) (durationMs : Int) (now : String) :
    (i.succeeded response logs durationMs now).id = i.id := rfl

def markInvocationRunning (db : Db) (invocationId : String) : Db :=
  { db with
    functionInvocations := db.functionInvocations.updateWhere (fun i => i.id == invocationId)
      (fun i => i.withStatus "running") fun i => i.withStatus_id "running" }

def markInvocationFailed (db : Db) (env : Env) (invocationId error : String) (durationMs : Int) :
    Db :=
  { db with
    functionInvocations := db.functionInvocations.updateWhere (fun i => i.id == invocationId)
      (fun i => i.failed error durationMs env.now) fun i => i.failed_id error durationMs env.now }

def markInvocationSucceeded (db : Db) (env : Env) (invocationId : String) (response : Value)
    (logs : Option String) (durationMs : Int) : Db :=
  { db with
    functionInvocations := db.functionInvocations.updateWhere (fun i => i.id == invocationId)
      (fun i => i.succeeded response logs durationMs env.now)
      fun i => i.succeeded_id response logs durationMs env.now }

/-! ### The execution -/

/-- What follows on the answer of the sandbox. -/
def finalizeInvocation (encodes : Value → Bool) (db : Db) (env : Env)
    (invocation : InvocationContext) (secretValues : List (String × String))
    (sandboxResult : Except String SandboxExecutionResult) : Db × Except String (Value × Int) :=
  match sandboxResult with
  | .ok result =>
      let redactedResponse := redactJsonValue secretValues result.responseJson
      let redactedLogs := (composeLogText result.stdout result.stderr).map fun text =>
        redactSecretText text secretValues
      if encodes redactedResponse then
        (markInvocationSucceeded db env invocation.invocationId redactedResponse redactedLogs
          result.durationMs,
          .ok (redactedResponse, result.durationMs))
      else
        (markInvocationFailed db env invocation.invocationId
          "function returned non-serializable data" result.durationMs,
          .error "function returned non-serializable data")
  | .error error =>
      let redactedError := redactSecretText error secretValues
      (markInvocationFailed db env invocation.invocationId redactedError
        invocation.functionVersion.timeoutMs,
        .error redactedError)

/-- `parse_env_map`, and the secrets over it. -/
def runtimeEnv (env : BTreeMap String) (secretValues : List (String × String)) : Value :=
  .object ((secretValues.foldl (fun m secret => OrderedMap.insert strLt m secret.1 secret.2)
    env.entries).map fun e => (e.1, .string e.2))

def authPayload (claims : Option Claims) : Value :=
  match claims with
  | some claims => .object [("is_admin", .bool claims.isAdmin), ("user_id", .string claims.sub)]
  | none => .null

/-- `db` is the database when the semaphore answers, `env` the clock at the end. -/
def executeAndFinalizeInvocation (rt : FunctionsRuntime) (cipher : SecretCipher) (db : Db)
    (env : Env) (functionName : String) (invocation : InvocationContext) (claims : Option Claims)
    (input : Value) (requestMethod : String) (requestQuery requestBody : Value) :
    Db × Except String (Value × Int) :=
  let version := invocation.functionVersion
  Outcome.proceed db
    (do
      Outcome.ensure rt.permit "functions runtime is unavailable"
      (loadFunctionSecrets cipher db version.id).mapError fun _ =>
        "failed to load function secrets")
    fun secretValues =>
      let (db, sandboxResult) := rt.executeInSandbox db
        { runtime := version.runtime, sourceCode := version.sourceCode
          functionName := functionName, requestMethod := requestMethod, requestPayload := input
          requestQuery := requestQuery, requestBody := requestBody
          authPayload := authPayload claims, envPayload := runtimeEnv version.env secretValues
          timeoutMs := version.timeoutMs }
        claims
      finalizeInvocation rt.encodes db env invocation secretValues sandboxResult

/-- Before the execution, the task of an asynchronous invocation marks its row. -/
def beginInvocation (db : Db) (invocationId : String) (asyncInvoke : Bool) : Db :=
  if asyncInvoke then markInvocationRunning db invocationId else db

/-- The reply of a synchronous invocation. -/
def invocationReply (invocationId : String) (result : Except String (Value × Int)) :
    Except ApiError (Reply InvokeFunctionResponse) :=
  match result with
  | .ok (response, durationMs) =>
      .ok { status := .ok
            body := { invocationId := invocationId, status := "succeeded", response := response
                      durationMs := durationMs } }
  | .error error => .error (jsonError .internalServerError error)

/-- `run_function_invocation_with_version`, to the end of the task where there is one. -/
def runFunctionInvocationWithVersion (rt : FunctionsRuntime) (cipher : SecretCipher) (db : Db)
    (env : Env) (uuid : String) (function : FunctionDetail) (version : LoadedFunctionVersion)
    (claims : Option Claims) (input : Value) (requestMethod : String)
    (requestQuery requestBody : Value) (asyncInvoke : Bool) (appId : String) (retryCount : Int)
    (parentInvocationId : Option String) : Db × Except ApiError (Reply InvokeFunctionResponse) :=
  Outcome.proceed db
    (startFunctionInvocation db env uuid function version input asyncInvoke appId retryCount
      parentInvocationId)
    fun (invocationId, db) =>
      let executed := executeAndFinalizeInvocation rt cipher
        (beginInvocation db invocationId asyncInvoke) env function.name ⟨invocationId, version⟩
        claims input requestMethod requestQuery requestBody
      (executed.1,
        if asyncInvoke then
          .ok { status := .accepted
                body := { invocationId := invocationId, status := "queued", response := .null
                          durationMs := 0 } }
        else invocationReply invocationId executed.2)

/-! ### The end of an invocation -/

/-- The row has ended, and as the result says. -/
def Finalized (invocationId : String) (r : Db × Except String (Value × Int)) : Prop :=
  ∀ i ∈ r.1.functionInvocations, i.id = invocationId →
    (i.status = "succeeded" ∨ i.status = "failed") ∧ i.finishedAt.isSome = true ∧
      (i.status = "succeeded" ↔ Outcome.succeeded r.2 = true)

section Rows

variable {db : Db} {env : Env} {invocationId : String} {i : FunctionInvocation}

theorem mem_markInvocationSucceeded {response : Value} {logs : Option String} {durationMs : Int}
    (hi : i ∈ (markInvocationSucceeded db env invocationId response logs
      durationMs).functionInvocations) (hid : i.id = invocationId) :
    ∃ j ∈ db.functionInvocations, j.id = invocationId ∧
      i = j.succeeded response logs durationMs env.now := by
  obtain ⟨j, hj, rfl⟩ := (KeyedTable.mem_updateWhere fun i =>
    i.succeeded_id response logs durationMs env.now).mp hi
  by_cases hjd : j.id = invocationId
  · rw [if_pos (beq_iff_eq.mpr hjd)]
    exact ⟨j, hj, hjd, rfl⟩
  · rw [if_neg (by simpa using hjd)] at hid
    exact absurd hid hjd

theorem mem_markInvocationFailed {error : String} {durationMs : Int}
    (hi : i ∈ (markInvocationFailed db env invocationId error durationMs).functionInvocations)
    (hid : i.id = invocationId) :
    ∃ j ∈ db.functionInvocations, j.id = invocationId ∧ i = j.failed error durationMs env.now := by
  obtain ⟨j, hj, rfl⟩ := (KeyedTable.mem_updateWhere fun i =>
    i.failed_id error durationMs env.now).mp hi
  by_cases hjd : j.id = invocationId
  · rw [if_pos (beq_iff_eq.mpr hjd)]
    exact ⟨j, hj, hjd, rfl⟩
  · rw [if_neg (by simpa using hjd)] at hid
    exact absurd hid hjd

end Rows

theorem finalizeInvocation_finalized (encodes : Value → Bool) (db : Db) (env : Env)
    (invocation : InvocationContext) (secretValues : List (String × String))
    (sandboxResult : Except String SandboxExecutionResult) :
    Finalized invocation.invocationId
      (finalizeInvocation encodes db env invocation secretValues sandboxResult) := by
  have hfailed : ∀ error durationMs message, Finalized invocation.invocationId
      (markInvocationFailed db env invocation.invocationId error durationMs, .error message) := by
    intro error durationMs message i hi hid
    obtain ⟨j, -, -, rfl⟩ := mem_markInvocationFailed hi hid
    exact ⟨.inr rfl, rfl, by simp [FunctionInvocation.failed]⟩
  cases sandboxResult with
  | error error => exact hfailed _ _ _
  | ok result =>
    simp only [finalizeInvocation]
    split
    · intro i hi hid
      obtain ⟨j, -, -, rfl⟩ := mem_markInvocationSucceeded hi hid
      exact ⟨.inl rfl, rfl, by simp [FunctionInvocation.succeeded]⟩
    · exact hfailed _ _ _

theorem startFunctionInvocation_row {db db₁ : Db} {env : Env} {uuid appId id : String}
    {function : FunctionDetail} {version : LoadedFunctionVersion} {input : Value}
    {asyncInvoke : Bool} {retryCount : Int} {parentInvocationId : Option String}
    (hstart : startFunctionInvocation db env uuid function version input asyncInvoke appId
      retryCount
      parentInvocationId = .ok (id, db₁)) :
    ∃ i, db₁.functionInvocations.find? id = some i ∧ i.finishedAt = none := by
  simp only [startFunctionInvocation, Outcome.bind_eq_ok, Outcome.require_eq_ok] at hstart
  obtain ⟨workspaceId, -, db', hinsert, heq⟩ := hstart
  cases heq
  rw [Db.insertFunctionInvocation, Option.ite_none_right_eq_some, Option.map_eq_some_iff] at hinsert
  obtain ⟨-, invocations, hins, rfl⟩ := hinsert
  obtain ⟨counters, hcounters⟩ := recordUsage_frame { db with functionInvocations := invocations }
    env workspaceId .functionInvocationsMonth 1
  rw [hcounters]
  refine ⟨_, KeyedTable.find?_eq_some.mpr ⟨(KeyedTable.mem_insert? hins).mpr (.inr rfl), rfl⟩, rfl⟩

theorem beginInvocation_row {db : Db} {id : String} {asyncInvoke : Bool}
    (h : ∃ i, db.functionInvocations.find? id = some i ∧ i.finishedAt = none) :
    ∃ i, (beginInvocation db id asyncInvoke).functionInvocations.find? id = some i ∧
      i.finishedAt = none := by
  obtain ⟨i, hfind, hopen⟩ := h
  cases asyncInvoke with
  | false => exact ⟨i, hfind, hopen⟩
  | true =>
    refine ⟨if i.id == id then i.withStatus "running" else i, ?_, ?_⟩
    · exact (KeyedTable.find?_updateWhere (fun i => i.withStatus_id "running") id).trans
        (by rw [hfind, Option.map_some])
    · split
      · exact hopen
      · exact hopen

/-- Every secret of the version is there and can be decrypted. -/
def SecretsReadable (cipher : SecretCipher) (db : Db) (versionId : String) : Prop :=
  ∀ s ∈ db.functionVersionSecrets, s.versionId = versionId →
    Outcome.succeeded (resolveSecret cipher s) = true

theorem loadFunctionSecrets_succeeds_iff {cipher : SecretCipher} {db : Db} {versionId : String} :
    (∃ secrets, loadFunctionSecrets cipher db versionId = .ok secrets) ↔
      SecretsReadable cipher db versionId := by
  have hmem : ∀ s, s ∈ secretsOfVersion db versionId ↔
      s ∈ db.functionVersionSecrets ∧ s.versionId = versionId := by
    intro s
    rw [secretsOfVersion, List.mem_mergeSort, KeyedTable.mem_select, beq_iff_eq]
  constructor
  · rintro ⟨secrets, hload⟩ s hs hversion
    exact Outcome.succeeded_iff.mpr (Outcome.isOk_of_mapM hload s ((hmem s).mpr ⟨hs, hversion⟩))
  · intro h
    obtain ⟨secrets, hload, -⟩ := Outcome.mapM_of_forall fun s hs =>
      Outcome.succeeded_iff.mp (h s ((hmem s).mp hs).1 ((hmem s).mp hs).2)
    exact ⟨secrets, hload⟩

section Execution

variable {rt : FunctionsRuntime} {cipher : SecretCipher} {db : Db} {env : Env}
  {functionName requestMethod : String} {invocation : InvocationContext} {claims : Option Claims}
  {input requestQuery requestBody : Value}

theorem executeAndFinalizeInvocation_eq {secrets : List (String × String)}
    (hpermit : rt.permit = true)
    (hload : loadFunctionSecrets cipher db invocation.functionVersion.id = .ok secrets) :
    ∃ request, executeAndFinalizeInvocation rt cipher db env functionName invocation claims input
        requestMethod requestQuery requestBody =
      finalizeInvocation rt.encodes (rt.executeInSandbox db request claims).1 env invocation secrets
        (rt.executeInSandbox db request claims).2 := by
  rw [executeAndFinalizeInvocation, hpermit, hload]
  exact ⟨_, rfl⟩

/-- An open row ends exactly if there is a permit and the secrets can be read. -/
theorem executed_finalized_iff
    (hrow : ∃ i, db.functionInvocations.find? invocation.invocationId = some i ∧
      i.finishedAt = none) :
    Finalized invocation.invocationId
        (executeAndFinalizeInvocation rt cipher db env functionName invocation claims input
          requestMethod requestQuery requestBody) ↔
      rt.permit = true ∧ SecretsReadable cipher db invocation.functionVersion.id := by
  obtain ⟨i, hfind, hopen⟩ := hrow
  obtain ⟨hi, hid⟩ := KeyedTable.find?_eq_some.mp hfind
  -- without the permit or the secrets, the database is left as it is
  have hleft : ∀ result, ¬ Finalized invocation.invocationId (db, result) := by
    intro result hended
    have hfinished := (hended i hi hid).2.1
    rw [hopen] at hfinished
    cases hfinished
  rw [← loadFunctionSecrets_succeeds_iff]
  constructor
  · intro hended
    cases hpermit : rt.permit with
    | false =>
      rw [executeAndFinalizeInvocation, hpermit] at hended
      exact absurd hended (hleft _)
    | true =>
      refine ⟨rfl, ?_⟩
      cases hload : loadFunctionSecrets cipher db invocation.functionVersion.id with
      | error e =>
        rw [executeAndFinalizeInvocation, hpermit, hload] at hended
        exact absurd hended (hleft _)
      | ok secrets => exact ⟨secrets, rfl⟩
  · rintro ⟨hpermit, secrets, hload⟩
    obtain ⟨request, heq⟩ := @executeAndFinalizeInvocation_eq rt cipher db env functionName
      requestMethod invocation claims input requestQuery requestBody secrets hpermit hload
    rw [heq]
    exact finalizeInvocation_finalized rt.encodes _ env invocation secrets _

end Execution

/-- **The end of an invocation.**  The row an invocation inserted has ended when its
    execution returns exactly if the semaphore handed out a permit and every secret of
    the version could be decrypted. -/
theorem invocation_finalized_iff (rt : FunctionsRuntime) (cipher : SecretCipher) {db db₁ db₂ : Db}
    {env : Env} {uuid appId id : String} {function : FunctionDetail}
    {version : LoadedFunctionVersion} {input : Value} {asyncInvoke : Bool} {retryCount : Int}
    {parentInvocationId : Option String}
    (hstart : startFunctionInvocation db env uuid function version input asyncInvoke appId
      retryCount
      parentInvocationId = .ok (id, db₁))
    (hrow : db₂.functionInvocations.find? id =
      (beginInvocation db₁ id asyncInvoke).functionInvocations.find? id)
    (finish : Env) (claims : Option Claims) (requestMethod : String)
    (requestQuery requestBody : Value) :
    Finalized id (executeAndFinalizeInvocation rt cipher db₂ finish function.name ⟨id, version⟩
        claims input requestMethod requestQuery requestBody) ↔
      rt.permit = true ∧ SecretsReadable cipher db₂ version.id := by
  refine @executed_finalized_iff rt cipher db₂ finish function.name requestMethod ⟨id, version⟩
    claims input requestQuery requestBody ?_
  show ∃ i, db₂.functionInvocations.find? id = some i ∧ i.finishedAt = none
  rw [hrow]
  exact beginInvocation_row (startFunctionInvocation_row hstart)

/-! ### A key that was changed -/

/-- A cipher that writes its key into the tag, and reads nothing under another. -/
def keyedCipher (key : String) : SecretCipher :=
  { readableCipher with
    masterKey := key
    encrypt := fun key _ plaintext =>
      (String.ofList (escapeColons plaintext.toList), String.ofList (escapeColons key.toList))
    decrypt := fun key _ body tag =>
      if tag = String.ofList (escapeColons key.toList) then
        .ok (String.ofList (unescapeColons body.toList))
      else .error "decryption failed"
    decrypt_encrypt := by
      intro key nonce plaintext
      simp [unescapeColons_escapeColons]
    encrypt_base64 := by
      intro key nonce plaintext
      refine ⟨?_, ?_⟩
      · simpa [readableCipher] using colon_not_mem_escapeColons plaintext.toList
      · simpa [readableCipher] using colon_not_mem_escapeColons key.toList }

/-- Ada's function with a secret, stored under the key `old`. -/
def secretGreetingDb : Db :=
  runFunctions asciiPlatform (keyedCipher "old") greetingsDb
    [.create (sampleEnv "a") functionAdminClaims
      { name := "greet", displayName := "Greet", endpointSlug := "greet", runtime := "javascript"
        sourceCode := "one", secrets := some greetSecrets }]

def greetingVersion : LoadedFunctionVersion :=
  { id := "a1", versionNumber := 1, runtime := "javascript", sourceCode := "one"
    invokePolicy := "authenticated", env := .empty, apiKeyHash := none, allowedOrigins := []
    rateLimitPerMinute := 60, timeoutMs := 3000, secretKeyCount := 1 }

def startGreeting (f : FunctionDetail) : Except ApiError (String × Db) :=
  startFunctionInvocation secretGreetingDb (sampleEnv "c") "i" f greetingVersion .null false
    "default" 0 none

/-- A sandbox that answers what it is asked. -/
def echoRuntime : FunctionsRuntime where
  permit := true
  executeInSandbox db request _ :=
    (db, .ok
      { responseJson := request.requestPayload, stdout := "", stderr := "", durationMs := 1 })

/-- Ada's function is invoked, and the database is then as `p` says. -/
theorem exists_started (p : Db → Bool)
    (h : (loadFunctionByName secretGreetingDb "default" "greet").any (fun f =>
      match startGreeting f with
      | .ok (_, db) => p db
      | .error _ => false) = true) :
    ∃ f id db, startGreeting f = .ok (id, db) ∧ p db = true := by
  obtain ⟨f, -, hf⟩ := (Option.any_eq_true _ _).mp h
  split at hf
  next id db hstart => exact ⟨f, id, db, hstart, hf⟩
  next => cases hf

/-- After the key was changed, the row stays `running`. -/
theorem changed_key_leaves_running :
    ∃ f id db, startGreeting f = .ok (id, db) ∧
      ¬ Finalized id (executeAndFinalizeInvocation echoRuntime (keyedCipher "new") db
        (sampleEnv "d")
        f.name ⟨id, greetingVersion⟩ none .null "POST" .null .null) := by
  obtain ⟨f, id, db, hstart, hsealed⟩ := exists_started
    (fun db => db.functionVersionSecrets.rows.any fun s =>
      s.versionId == "a1" && !Outcome.succeeded (resolveSecret (keyedCipher "new") s))
    (by decide +kernel)
  refine ⟨f, id, db, hstart, ?_⟩
  have hrow : ∃ i, db.functionInvocations.find? id = some i ∧ i.finishedAt = none :=
    startFunctionInvocation_row hstart
  rw [@executed_finalized_iff echoRuntime (keyedCipher "new") db (sampleEnv "d") f.name "POST"
    ⟨id, greetingVersion⟩ none .null .null .null hrow]
  rintro ⟨-, hreadable⟩
  obtain ⟨s, hs, hsealed⟩ := List.any_eq_true.mp hsealed
  rw [Bool.and_eq_true, beq_iff_eq, Bool.not_eq_true'] at hsealed
  have hopened := hreadable s hs hsealed.1
  rw [hsealed.2] at hopened
  cases hopened

/-- Under the key it was stored with, the row ends. -/
theorem same_key_ends :
    ∃ f id db, startGreeting f = .ok (id, db) ∧
      Finalized id (executeAndFinalizeInvocation echoRuntime (keyedCipher "old") db (sampleEnv "d")
        f.name ⟨id, greetingVersion⟩ none .null "POST" .null .null) := by
  obtain ⟨f, id, db, hstart, hopen⟩ := exists_started
    (fun db => db.functionVersionSecrets.rows.all fun s =>
      Outcome.succeeded (resolveSecret (keyedCipher "old") s))
    (by decide +kernel)
  refine ⟨f, id, db, hstart, ?_⟩
  have hrow : db.functionInvocations.find? id =
      (beginInvocation db id false).functionInvocations.find? id := rfl
  exact (invocation_finalized_iff echoRuntime (keyedCipher "old") hstart hrow (sampleEnv "d") none
    "POST" .null .null).mpr ⟨rfl, fun s hs _ => List.all_eq_true.mp hopen s hs⟩

end Peanut
