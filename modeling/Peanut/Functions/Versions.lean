import Peanut.Data.Tables
import Peanut.Functions.Secrets

/-!
# Functions and their versions

`api/functions/admin.rs`, `versions.rs` and the part of `internal.rs` they use.
A function row holds a copy of its active version; creating, updating and rolling
back each write that copy.

`env_json` and `allowed_origins_json` hold what `serde_json` encoded; they are
modelled by the decoded values.
-/

namespace Peanut

open Relational

/-- The columns of a version the handlers work with. -/
structure LoadedFunctionVersion where
  id : String
  versionNumber : Int
  runtime : String
  sourceCode : String
  invokePolicy : String
  env : BTreeMap String
  apiKeyHash : Option String
  allowedOrigins : List String
  rateLimitPerMinute : Int
  timeoutMs : Int
  secretKeyCount : Int
deriving DecidableEq

/-- `secretValues` are the entries of the map, in key order. -/
structure ValidatedFunction where
  id : String
  name : String
  displayName : String
  endpointSlug : String
  runtime : String
  sourceCode : String
  invokePolicy : String
  env : BTreeMap String
  secretValues : List (String × String)
  apiKeyHash : Option String
  allowedOrigins : List String
  rateLimitPerMinute : Int
  timeoutMs : Int
  enabled : Bool

structure UpsertFunctionRequest where
  name : String
  displayName : String
  endpointSlug : String
  runtime : String
  sourceCode : String
  timeoutMs : Option Int := none
  enabled : Option Bool := none
  invokePolicy : Option String := none
  env : Option (BTreeMap String) := none
  secrets : Option (BTreeMap String) := none
  apiKey : Option String := none
  allowedOrigins : Option (List String) := none
  rateLimitPerMinute : Option Int := none

structure UpdateFunctionRequest where
  displayName : Option String := none
  endpointSlug : Option String := none
  runtime : Option String := none
  sourceCode : Option String := none
  timeoutMs : Option Int := none
  enabled : Option Bool := none
  invokePolicy : Option String := none
  env : Option (BTreeMap String) := none
  secrets : Option (BTreeMap String) := none
  apiKey : Option String := none
  allowedOrigins : Option (List String) := none
  rateLimitPerMinute : Option Int := none

/-! ### Validation -/

def normalizeNonEmpty (value fieldName : String) : Except String String := do
  Outcome.ensure (trim value != "") s!"{fieldName} is required"
  return trim value

def normalizeIdentifier (pf : Platform) (value fieldName : String) : Except String String := do
  let value := pf.toLowercase (trim value)
  Outcome.ensure (value != "") s!"{fieldName} is required"
  Outcome.ensure (decide (len value ≤ 64)) s!"{fieldName} must be 64 characters or fewer"
  Outcome.ensure
    (charsAll (fun ch => isAsciiLowercase ch || isAsciiDigit ch || ch == '-' || ch == '_') value)
    s!"{fieldName} may only contain lowercase letters, digits, hyphens, and underscores"
  return value

def normalizeRuntime (pf : Platform) (value : String) : Except String String := do
  let value := pf.toLowercase (trim value)
  Outcome.ensure (value == "javascript" || value == "typescript")
    "runtime must be javascript or typescript"
  return value

def normalizeInvokePolicy (pf : Platform) (value : String) : Except String String := do
  let value := pf.toLowercase (trim value)
  Outcome.ensure
    (value == "public" || value == "authenticated" || value == "admin_only" || value == "api_key")
    "invoke_policy must be public, authenticated, admin_only, or api_key"
  return value

/-- The keys of `env` and of `secrets`; `kind` is the word in the message. -/
def checkVariableKey (kind key : String) : Except String Unit := do
  Outcome.ensure (key != "") s!"{kind} keys must not be empty"
  Outcome.ensure (charsAll (fun ch => isAsciiUppercase ch || isAsciiDigit ch || ch == '_') key)
    s!"{kind} keys may only contain uppercase letters, digits, and underscores"

def normalizeEnv (values : BTreeMap String) : Except String (BTreeMap String) := do
  Outcome.checkAll (fun e : String × String => checkVariableKey "env" e.1) values.entries
  return values

def normalizeSecretValues (values : BTreeMap String) : Except String (List (String × String)) := do
  Outcome.checkAll
    (fun e : String × String => do
      checkVariableKey "secret" e.1
      Outcome.ensure (!isBlank e.2) "secret values must not be empty")
    values.entries
  return values.entries

def startsWith (start s : String) : Bool := start.toList.isPrefixOf s.toList

def normalizeAllowedOrigins (values : List String) : Except String (List String) := do
  let normalized := (values.map trim).filter (· != "")
  Outcome.checkAll
    (fun origin => Outcome.ensure (startsWith "http://" origin || startsWith "https://" origin)
      "allowed_origins entries must start with http:// or https://")
    normalized
  return normalized

def hashApiKey (pf : Platform) (value : String) : String := pf.sha256Hex value

def normalizeRateLimit (value : Int) : Except String Int := do
  Outcome.ensure (decide (1 ≤ value) && decide (value ≤ 600))
    "rate_limit_per_minute must be between 1 and 600"
  return value

def normalizeTimeout (timeoutMs : Int) : Except String Int := do
  Outcome.ensure (decide (100 ≤ timeoutMs) && decide (timeoutMs ≤ 10000))
    "timeout_ms must be between 100 and 10000"
  return timeoutMs

def validateCreatePayload (pf : Platform) (payload : UpsertFunctionRequest) :
    Except String ValidatedFunction := do
  let name ← normalizeIdentifier pf payload.name "name"
  let displayName ← normalizeNonEmpty payload.displayName "display_name"
  let endpointSlug ← normalizeIdentifier pf payload.endpointSlug "endpoint_slug"
  let runtime ← normalizeRuntime pf payload.runtime
  let sourceCode ← normalizeNonEmpty payload.sourceCode "source_code"
  let invokePolicy ← normalizeInvokePolicy pf (payload.invokePolicy.getD "authenticated")
  let env ← normalizeEnv (payload.env.getD .empty)
  let secretValues ← normalizeSecretValues (payload.secrets.getD .empty)
  let apiKeyHash := (payload.apiKey.filter fun v => !isBlank v).map (hashApiKey pf)
  let allowedOrigins ← normalizeAllowedOrigins (payload.allowedOrigins.getD [])
  let rateLimitPerMinute ← normalizeRateLimit (payload.rateLimitPerMinute.getD 60)
  let timeoutMs ← normalizeTimeout (payload.timeoutMs.getD 3000)
  return { id := "", name := name, displayName := displayName, endpointSlug := endpointSlug,
           runtime := runtime, sourceCode := sourceCode, invokePolicy := invokePolicy, env := env,
           secretValues := secretValues, apiKeyHash := apiKeyHash,
           allowedOrigins := allowedOrigins, rateLimitPerMinute := rateLimitPerMinute,
           timeoutMs := timeoutMs, enabled := payload.enabled.getD true }

/-- The secrets of an update: new ones are checked, the old ones taken over. -/
def updatedSecretValues (existingSecretValues : List (String × String))
    (secrets : Option (BTreeMap String)) : Except String (List (String × String)) :=
  match secrets with
  | some secrets => normalizeSecretValues secrets
  | none => .ok existingSecretValues

def validateUpdatePayload (pf : Platform) (existing : FunctionDetail)
    (existingSecretValues : List (String × String)) (payload : UpdateFunctionRequest) :
    Except String ValidatedFunction := do
  let displayName ←
    normalizeNonEmpty (payload.displayName.getD existing.displayName) "display_name"
  let endpointSlug ←
    normalizeIdentifier pf (payload.endpointSlug.getD existing.endpointSlug) "endpoint_slug"
  let runtime ← normalizeRuntime pf (payload.runtime.getD existing.runtime)
  let sourceCode ← normalizeNonEmpty (payload.sourceCode.getD existing.sourceCode) "source_code"
  let invokePolicy ← normalizeInvokePolicy pf (payload.invokePolicy.getD existing.invokePolicy)
  let env ← normalizeEnv (payload.env.getD existing.env)
  let secretValues ← updatedSecretValues existingSecretValues payload.secrets
  let apiKeyHash := (payload.apiKey.map (hashApiKey pf)).or existing.apiKeyHash
  let allowedOrigins ←
    normalizeAllowedOrigins (payload.allowedOrigins.getD existing.allowedOrigins)
  let rateLimitPerMinute ←
    normalizeRateLimit (payload.rateLimitPerMinute.getD existing.rateLimitPerMinute)
  let timeoutMs ← normalizeTimeout (payload.timeoutMs.getD existing.timeoutMs)
  return { id := existing.id, name := existing.name, displayName := displayName,
           endpointSlug := endpointSlug, runtime := runtime, sourceCode := sourceCode,
           invokePolicy := invokePolicy, env := env, secretValues := secretValues,
           apiKeyHash := apiKeyHash, allowedOrigins := allowedOrigins,
           rateLimitPerMinute := rateLimitPerMinute, timeoutMs := timeoutMs,
           enabled := payload.enabled.getD existing.enabled }

/-! ### Statements -/

/-- `INSERT INTO functions`: name and endpoint are unique per app and both users
    exist. -/
def Db.insertFunction (db : Db) (f : FunctionDetail) : Option Db :=
  if !(db.functions.rows.any fun g =>
        g.appId == f.appId && (g.name == f.name || g.endpointSlug == f.endpointSlug)) &&
      db.users.hasKey f.createdBy && db.users.hasKey f.updatedBy then
    (db.functions.insert? f).map fun functions => { db with functions := functions }
  else none

variable {db db' : Db}

theorem Db.insertFunction_eq_some {f : FunctionDetail} :
    db.insertFunction f = some db' ↔
      (∀ g ∈ db.functions, g.appId = f.appId → g.name ≠ f.name ∧ g.endpointSlug ≠ f.endpointSlug) ∧
        db.users.hasKey f.createdBy = true ∧ db.users.hasKey f.updatedBy = true ∧
        ∃ functions, db.functions.insert? f = some functions ∧
          db' = { db with functions := functions } := by
  have hfree : (!(db.functions.rows.any fun g =>
        g.appId == f.appId && (g.name == f.name || g.endpointSlug == f.endpointSlug))) = true ↔
      ∀ g ∈ db.functions, g.appId = f.appId →
        g.name ≠ f.name ∧ g.endpointSlug ≠ f.endpointSlug := by
    simp [KeyedTable.mem_def]
  simp only [Db.insertFunction, Option.ite_none_right_eq_some, Option.map_eq_some_iff,
    Bool.and_eq_true, hfree, and_assoc, @eq_comm _ db']

/-- `INSERT INTO function_versions`: a function has one version of a number. -/
def Db.insertFunctionVersionRow (db : Db) (v : FunctionVersion) : Option Db :=
  if !(db.functionVersions.rows.any fun w =>
        w.functionId == v.functionId && w.versionNumber == v.versionNumber) &&
      db.functions.hasKey v.functionId && db.users.hasKey v.createdBy then
    (db.functionVersions.insert? v).map fun versions => { db with functionVersions := versions }
  else none

theorem Db.insertFunctionVersionRow_eq_some {v : FunctionVersion} :
    db.insertFunctionVersionRow v = some db' ↔
      (∀ w ∈ db.functionVersions, w.functionId = v.functionId →
        w.versionNumber ≠ v.versionNumber) ∧
        db.functions.hasKey v.functionId = true ∧ db.users.hasKey v.createdBy = true ∧
        ∃ versions, db.functionVersions.insert? v = some versions ∧
          db' = { db with functionVersions := versions } := by
  have hfree : (!(db.functionVersions.rows.any fun w =>
        w.functionId == v.functionId && w.versionNumber == v.versionNumber)) = true ↔
      ∀ w ∈ db.functionVersions, w.functionId = v.functionId →
        w.versionNumber ≠ v.versionNumber := by
    simp [KeyedTable.mem_def]
  simp only [Db.insertFunctionVersionRow, Option.ite_none_right_eq_some, Option.map_eq_some_iff,
    Bool.and_eq_true, hfree, and_assoc, @eq_comm _ db']

/-- `INSERT INTO function_version_secrets`. -/
def Db.insertFunctionSecret (db : Db) (s : FunctionVersionSecret) : Option Db :=
  if db.functionVersions.hasKey s.versionId then
    (db.functionVersionSecrets.insert? s).map fun secrets =>
      { db with functionVersionSecrets := secrets }
  else none

theorem Db.insertFunctionSecret_eq_some {s : FunctionVersionSecret} :
    db.insertFunctionSecret s = some db' ↔
      db.functionVersions.hasKey s.versionId = true ∧
        ∃ secrets, db.functionVersionSecrets.insert? s = some secrets ∧
          db' = { db with functionVersionSecrets := secrets } := by
  simp only [Db.insertFunctionSecret, Option.ite_none_right_eq_some, Option.map_eq_some_iff,
    @eq_comm _ db']

/-- `DELETE FROM functions WHERE …`, cascading to invocations, versions and their
    secrets. -/
def Db.deleteFunctions (db : Db) (p : FunctionDetail → Bool) : Db :=
  let gone (functionId : String) : Bool := db.functions.rows.any fun f => p f && f.id == functionId
  { db with
    functions := db.functions.deleteWhere p
    functionVersions := db.functionVersions.deleteWhere fun v => gone v.functionId
    functionVersionSecrets := db.functionVersionSecrets.deleteWhere fun s =>
      db.functionVersions.rows.any fun v => gone v.functionId && v.id == s.versionId
    functionInvocations := db.functionInvocations.deleteWhere fun i => gone i.functionId }

variable {functionId : String}

theorem Db.functionGone_eq_false {p : FunctionDetail → Bool} :
    (db.functions.rows.any fun f => p f && f.id == functionId) = false ↔
      ∀ f ∈ db.functions, p f = true → f.id ≠ functionId := by
  simp [KeyedTable.mem_def]

theorem Db.not_deleted_of_mem {p : FunctionDetail → Bool} {f : FunctionDetail}
    (hf : f ∈ (db.deleteFunctions p).functions) :
    ∀ g ∈ db.functions, p g = true → g.id ≠ f.id := by
  obtain ⟨hf, hstays⟩ := KeyedTable.mem_deleteWhere.mp hf
  intro g hg hp heq
  have hsame := db.functions.eq_of_key_eq hg hf heq
  subst hsame
  rw [hstays] at hp
  cases hp

theorem Db.deleteFunctions_secret_version
    (h : ∀ s ∈ db.functionVersionSecrets, db.functionVersions.hasKey s.versionId = true)
    (p : FunctionDetail → Bool) :
    ∀ s ∈ (db.deleteFunctions p).functionVersionSecrets,
      (db.deleteFunctions p).functionVersions.hasKey s.versionId = true := by
  intro s hs
  obtain ⟨hs, hstays⟩ := KeyedTable.mem_deleteWhere.mp hs
  obtain ⟨v, hv, hid⟩ := KeyedTable.hasKey_iff.mp (h s hs)
  refine KeyedTable.hasKey_iff.mpr ⟨v, KeyedTable.mem_deleteWhere.mpr ⟨hv, ?_⟩, hid⟩
  have hversion := List.any_eq_false.mp hstays v hv
  simpa [hid] using hversion

/-- The row of one secret. -/
def newSecretRow (cipher : SecretCipher) (env : Env) (versionId : String) (n : Nat)
    (e : String × String) : FunctionVersionSecret :=
  let ciphertext := encryptSecret cipher (env.nonce n) e.2
  { versionId := versionId, secretKey := e.1, secretValue := ciphertext,
    secretCiphertext := some ciphertext, encryptionVersion := some SECRET_ENCRYPTION_VERSION }

def insertFunctionSecrets (cipher : SecretCipher) (env : Env) (versionId : String) :
    Nat → List (String × String) → Db → Option Db
  | _, [], db => some db
  | n, e :: rest, db => do
      let db ← db.insertFunctionSecret (newSecretRow cipher env versionId n e)
      insertFunctionSecrets cipher env versionId (n + 1) rest db

/-- The row of a new version. -/
def versionRow (env : Env) (versionId functionId appId : String) (versionNumber : Int)
    (validated : ValidatedFunction) (createdBy : String) : FunctionVersion :=
  { id := versionId, appId := appId, functionId := functionId, versionNumber := versionNumber,
    runtime := validated.runtime, sourceCode := validated.sourceCode,
    invokePolicy := validated.invokePolicy, env := validated.env,
    apiKeyHash := validated.apiKeyHash, allowedOrigins := validated.allowedOrigins,
    rateLimitPerMinute := validated.rateLimitPerMinute, timeoutMs := validated.timeoutMs,
    createdBy := createdBy, createdAt := env.now }

def insertFunctionVersion (cipher : SecretCipher) (db : Db) (env : Env)
    (versionId functionId appId : String) (versionNumber : Int) (validated : ValidatedFunction)
    (createdBy : String) : Option (LoadedFunctionVersion × Db) := do
  let db ← db.insertFunctionVersionRow
    (versionRow env versionId functionId appId versionNumber validated createdBy)
  let db ← insertFunctionSecrets cipher env versionId 0 validated.secretValues db
  return ({ id := versionId, versionNumber := versionNumber, runtime := validated.runtime,
            sourceCode := validated.sourceCode, invokePolicy := validated.invokePolicy,
            env := validated.env, apiKeyHash := validated.apiKeyHash,
            allowedOrigins := validated.allowedOrigins,
            rateLimitPerMinute := validated.rateLimitPerMinute, timeoutMs := validated.timeoutMs,
            secretKeyCount := validated.secretValues.length }, db)

/-- A function row after the activation of a version. -/
def FunctionDetail.activated (f : FunctionDetail) (validated : ValidatedFunction)
    (version : LoadedFunctionVersion) (updatedBy now : String) : FunctionDetail :=
  { f with
    displayName := validated.displayName, endpointSlug := validated.endpointSlug
    runtime := validated.runtime, sourceCode := validated.sourceCode
    invokePolicy := validated.invokePolicy, env := validated.env
    apiKeyHash := validated.apiKeyHash, allowedOrigins := validated.allowedOrigins
    rateLimitPerMinute := validated.rateLimitPerMinute, timeoutMs := validated.timeoutMs
    enabled := validated.enabled, activeVersionNumber := version.versionNumber
    activeVersionId := version.id, secretKeyCount := version.secretKeyCount
    updatedBy := updatedBy, updatedAt := now }

theorem FunctionDetail.activated_id (f : FunctionDetail) (validated : ValidatedFunction)
    (version : LoadedFunctionVersion) (updatedBy now : String) :
    (f.activated validated version updatedBy now).id = f.id := rfl

/-- `UPDATE functions SET … WHERE id = ?`: the new endpoint must be free in the
    app, and the user must exist. -/
def activateFunctionVersion (db : Db) (env : Env) (functionId : String)
    (validated : ValidatedFunction) (version : LoadedFunctionVersion) (updatedBy : String) :
    Option Db :=
  let taken := db.functions.rows.any fun f => f.id == functionId &&
    db.functions.rows.any fun g =>
      g.id != functionId && g.appId == f.appId && g.endpointSlug == validated.endpointSlug
  if !taken && (!db.functions.hasKey functionId || db.users.hasKey updatedBy) then
    some { db with
      functions := db.functions.updateWhere (fun f => f.id == functionId)
        (fun f => f.activated validated version updatedBy env.now)
        (fun f => f.activated_id validated version updatedBy env.now) }
  else none

theorem activateFunctionVersion_eq_some {env : Env}
    {validated : ValidatedFunction} {version : LoadedFunctionVersion} {updatedBy : String} :
    activateFunctionVersion db env functionId validated version updatedBy = some db' ↔
      (∀ f ∈ db.functions, f.id = functionId → ∀ g ∈ db.functions, g.id ≠ functionId →
        g.appId = f.appId → g.endpointSlug ≠ validated.endpointSlug) ∧
        (db.functions.hasKey functionId = true → db.users.hasKey updatedBy = true) ∧
        db' = { db with
          functions := db.functions.updateWhere (fun f => f.id == functionId)
            (fun f => f.activated validated version updatedBy env.now)
            (fun f => f.activated_id validated version updatedBy env.now) } := by
  have hfree : (!(db.functions.rows.any fun f => f.id == functionId &&
        db.functions.rows.any fun g =>
          g.id != functionId && g.appId == f.appId && g.endpointSlug == validated.endpointSlug)) =
        true ↔
      ∀ f ∈ db.functions, f.id = functionId → ∀ g ∈ db.functions, g.id ≠ functionId →
        g.appId = f.appId → g.endpointSlug ≠ validated.endpointSlug := by
    simp [KeyedTable.mem_def]
  have huser : (!db.functions.hasKey functionId || db.users.hasKey updatedBy) = true ↔
      (db.functions.hasKey functionId = true → db.users.hasKey updatedBy = true) := by
    cases db.functions.hasKey functionId <;> simp
  simp only [activateFunctionVersion, Option.ite_none_right_eq_some, Bool.and_eq_true, hfree, huser,
    and_assoc, Option.some.injEq, @eq_comm _ db']

theorem activateFunctionVersion_isSome {db : Db} {functionId updatedBy : String}
    {validated : ValidatedFunction}
    (hfree : ∀ f ∈ db.functions, f.id = functionId → ∀ g ∈ db.functions, g.id ≠ functionId →
      g.appId = f.appId → g.endpointSlug ≠ validated.endpointSlug)
    (huser : db.users.hasKey updatedBy = true) (env : Env) (version : LoadedFunctionVersion) :
    ∃ db', activateFunctionVersion db env functionId validated version updatedBy = some db' :=
  ⟨_, activateFunctionVersion_eq_some.mpr ⟨hfree, fun _ => huser, rfl⟩⟩

theorem activateFunctionVersion_some {env : Env}
    {validated : ValidatedFunction} {version : LoadedFunctionVersion} {updatedBy : String}
    (h : activateFunctionVersion db env functionId validated version updatedBy = some db') :
    ∃ functions, db' = { db with functions := functions } ∧
      (∀ f', f' ∈ functions ↔ ∃ f ∈ db.functions, f' =
        if f.id = functionId then f.activated validated version updatedBy env.now else f) ∧
      ∀ id, functions.hasKey id = db.functions.hasKey id := by
  obtain ⟨-, -, rfl⟩ := activateFunctionVersion_eq_some.mp h
  refine ⟨_, rfl, ?_, ?_⟩
  · intro f'
    rw [KeyedTable.mem_updateWhere]
    simp only [beq_iff_eq]
  · intro id
    rw [KeyedTable.hasKey_updateWhere]

/-! ### Loading -/

def loadFunctionByName (db : Db) (appId name : String) : Option FunctionDetail :=
  db.functions.selectOne fun f => f.appId == appId && f.name == name

/-- The secrets of a version, decrypted, in key order. -/
def secretsOfVersion (db : Db) (versionId : String) : List FunctionVersionSecret :=
  (db.functionVersionSecrets.select (·.versionId == versionId)).mergeSort
    fun s t => !strLt t.secretKey s.secretKey

def resolveSecret (cipher : SecretCipher) (s : FunctionVersionSecret) :
    Except String (String × String) := do
  let ciphertext ← Outcome.require s.secretCiphertext
    s!"function secret '{s.secretKey}' is missing ciphertext"
  Outcome.ensure (s.secretValue == ciphertext)
    s!"function secret '{s.secretKey}' uses unsupported plaintext storage"
  let resolved ← (decryptSecret cipher ciphertext).mapError
    fun error => s!"failed to decrypt function secret '{s.secretKey}': {error}"
  return (s.secretKey, resolved)

def loadFunctionSecrets (cipher : SecretCipher) (db : Db) (versionId : String) :
    Except String (List (String × String)) :=
  (secretsOfVersion db versionId).mapM (resolveSecret cipher)

/-- The loaded form of a version row. -/
def FunctionVersion.loaded (v : FunctionVersion) (secretKeyCount : Int) : LoadedFunctionVersion :=
  { id := v.id, versionNumber := v.versionNumber, runtime := v.runtime, sourceCode := v.sourceCode,
    invokePolicy := v.invokePolicy, env := v.env, apiKeyHash := v.apiKeyHash,
    allowedOrigins := v.allowedOrigins, rateLimitPerMinute := v.rateLimitPerMinute,
    timeoutMs := v.timeoutMs, secretKeyCount := secretKeyCount }

def countSecrets (db : Db) (versionId : String) : Int :=
  ((db.functionVersionSecrets.select (·.versionId == versionId)).length : Int)

def loadFunctionVersionByNumber (db : Db) (functionId : String) (versionNumber : Int) :
    Option LoadedFunctionVersion :=
  (db.functionVersions.selectOne fun v =>
    v.functionId == functionId && v.versionNumber == versionNumber).map
    fun v => v.loaded (countSecrets db v.id)

/-! ### The requests -/

/-- The reply to a change of a function: the row as it is now. -/
def reloadFunction (db : Db) (env : Env) (uuid : String) (claims : Claims) (name action : String)
    (status : StatusCode) (metadata : FunctionDetail → Value) (message : String) :
    Db × Except ApiError (Reply FunctionDetail) :=
  match loadFunctionByName db claims.appId name with
  | none => (db, .error (jsonError .internalServerError message))
  | some function =>
      (db.recordAuditLog env uuid (some claims.appId) claims action "function" function.name
          (metadata function),
        .ok { status := status, body := function })

/-- The row `create_function` inserts before there is a version. -/
def newFunctionRow (env : Env) (claims : Claims) (functionId : String)
    (validated : ValidatedFunction) : FunctionDetail :=
  { id := functionId, appId := claims.appId, name := validated.name,
    displayName := validated.displayName, endpointSlug := validated.endpointSlug,
    runtime := validated.runtime, sourceCode := validated.sourceCode,
    invokePolicy := validated.invokePolicy, env := validated.env,
    apiKeyHash := validated.apiKeyHash, allowedOrigins := validated.allowedOrigins,
    rateLimitPerMinute := validated.rateLimitPerMinute, timeoutMs := validated.timeoutMs,
    enabled := validated.enabled, activeVersionNumber := 1, activeVersionId := "",
    secretKeyCount := 0, createdBy := claims.sub, updatedBy := claims.sub, createdAt := env.now,
    updatedAt := env.now }

/-- The transaction of `create_function`. -/
def createFunctionTx (cipher : SecretCipher) (db : Db) (env : Env) (claims : Claims)
    (validated : ValidatedFunction) : Except ApiError Db := do
  let functionId := env.uuid 0
  let db ← Outcome.require (db.insertFunction (newFunctionRow env claims functionId validated))
    (jsonError .conflict "function name or endpoint already exists")
  let (version, db) ← Outcome.require
    (insertFunctionVersion cipher db env (env.uuid 1) functionId claims.appId 1 validated
      claims.sub)
    (jsonError .internalServerError "failed to persist function version")
  Outcome.require (activateFunctionVersion db env functionId validated version claims.sub)
    (jsonError .internalServerError "failed to activate function version")

def createFunction (pf : Platform) (cipher : SecretCipher) (db : Db) (env : Env) (claims : Claims)
    (payload : UpsertFunctionRequest) : Db × Except ApiError (Reply FunctionDetail) :=
  Outcome.proceed db
    (do
      requireAdmin claims
      badRequest (validateCreatePayload pf payload))
    fun validated =>
      Outcome.proceed db (createFunctionTx cipher db env claims validated) fun db =>
        reloadFunction db env (env.uuid 2) claims validated.name "function.created" .created
          (fun f => .object [("endpoint_slug", .string f.endpointSlug)])
          "created function could not be reloaded"

/-- The checks of `update_function`; the result is the function found and its
    new definition. -/
def updateFunctionChecks (pf : Platform) (cipher : SecretCipher) (db : Db) (claims : Claims)
    (name : String) (payload : UpdateFunctionRequest) :
    Except ApiError (FunctionDetail × ValidatedFunction) := do
  requireAdmin claims
  let existing ← Outcome.require (loadFunctionByName db claims.appId name)
    (jsonError .notFound "function not found")
  let secrets ← (loadFunctionSecrets cipher db existing.activeVersionId).mapError
    fun _ => jsonError .internalServerError "failed to load function secrets"
  let validated ← badRequest (validateUpdatePayload pf existing secrets payload)
  return (existing, validated)

/-- The transaction of `update_function`.  The next number follows the active one. -/
def updateFunctionTx (cipher : SecretCipher) (db : Db) (env : Env) (claims : Claims)
    (existing : FunctionDetail) (validated : ValidatedFunction) : Except ApiError Db := do
  let nextVersionNumber := existing.activeVersionNumber + 1
  let (version, db) ← Outcome.require
    (insertFunctionVersion cipher db env (env.uuid 0) validated.id claims.appId nextVersionNumber
      validated claims.sub)
    (jsonError .internalServerError "failed to persist function version")
  Outcome.require (activateFunctionVersion db env validated.id validated version claims.sub)
    (jsonError .conflict "function name or endpoint already exists")

def updateFunction (pf : Platform) (cipher : SecretCipher) (db : Db) (env : Env) (claims : Claims)
    (name : String) (payload : UpdateFunctionRequest) :
    Db × Except ApiError (Reply FunctionDetail) :=
  Outcome.proceed db (updateFunctionChecks pf cipher db claims name payload)
    fun (existing, validated) =>
      Outcome.proceed db (updateFunctionTx cipher db env claims existing validated) fun db =>
        reloadFunction db env (env.uuid 1) claims validated.name "function.updated" .ok
          (fun f => .object [("active_version_number", .number (.ofInt f.activeVersionNumber))])
          "updated function could not be reloaded"

def deleteFunction (db : Db) (env : Env) (claims : Claims) (name : String) :
    Db × Except ApiError (Reply MessageResponse) :=
  Outcome.proceed db
    (do
      requireAdmin claims
      Outcome.require (loadFunctionByName db claims.appId name)
        (jsonError .notFound "function not found"))
    fun existing =>
      let p (f : FunctionDetail) : Bool := f.appId == claims.appId && f.id == existing.id
      if db.functions.rows.any p then
        ((db.deleteFunctions p).recordAuditLog env (env.uuid 0) (some claims.appId) claims
            "function.deleted" "function" existing.name (.object []),
          .ok (jsonMessage .ok s!"deleted function {existing.name}"))
      else (db, .error (jsonError .notFound "function not found"))

/-- What a rollback activates: the old version under the function's present name,
    endpoint and switch. -/
def rollbackTarget (cipher : SecretCipher) (db : Db) (function : FunctionDetail)
    (version : LoadedFunctionVersion) : ValidatedFunction :=
  { id := function.id, name := function.name, displayName := function.displayName,
    endpointSlug := function.endpointSlug, runtime := version.runtime,
    sourceCode := version.sourceCode, invokePolicy := version.invokePolicy, env := version.env,
    secretValues := (loadFunctionSecrets cipher db version.id).toOption.getD [],
    apiKeyHash := version.apiKeyHash, allowedOrigins := version.allowedOrigins,
    rateLimitPerMinute := version.rateLimitPerMinute, timeoutMs := version.timeoutMs,
    enabled := function.enabled }

def rollbackFunctionVersion (cipher : SecretCipher) (db : Db) (env : Env) (claims : Claims)
    (name : String) (versionNumber : Int) : Db × Except ApiError (Reply FunctionDetail) :=
  Outcome.proceed db
    (do
      requireAdmin claims
      let function ← Outcome.require (loadFunctionByName db claims.appId name)
        (jsonError .notFound "function not found")
      let version ← Outcome.require (loadFunctionVersionByNumber db function.id versionNumber)
        (jsonError .notFound "function version not found")
      return (function, version))
    fun (function, version) =>
      let validated := rollbackTarget cipher db function version
      Outcome.proceed db
        (Outcome.require (activateFunctionVersion db env function.id validated version claims.sub)
          (jsonError .internalServerError "failed to activate function version"))
        fun db =>
          reloadFunction db env (env.uuid 0) claims function.name "function.rolled_back" .ok
            (fun _ => .object [("version_number", .number (.ofInt versionNumber))])
            "rolled back function could not be reloaded"

end Peanut
