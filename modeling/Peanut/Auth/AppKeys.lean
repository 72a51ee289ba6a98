import Peanut.Auth.Principal
import Peanut.Workspaces.Members

/-!
# App keys

The keys that an app hands to its clients and servers: `api/keys.rs`, and the part of
`middleware/sdk_auth.rs` that turns a key into the identity of a request.  A key acts
in two capacities: as a principal, with the scopes of the key, and as an actor, which
is the user who created it.
-/

namespace Peanut

open Relational

/-! ### Managing keys -/

def AppKeyType.text : AppKeyType → String
  | .client => "client"
  | .server => "server"
  | .admin => "admin"

def normalizeName (value : String) : Except String String := do
  let value := trim value
  Outcome.ensure (value != "") "name is required"
  Outcome.ensure (len value ≤ 120) "name must be 120 chars or fewer"
  return value

def normalizeKeyType (value : String) : Except String AppKeyType :=
  match asciiLowercase (trim value) with
  | "client" => .ok .client
  | "server" => .ok .server
  | "admin" => .ok .admin
  | _ => .error "key_type must be client, server, or admin"

def allowedScopes : List String :=
  ["auth:public", "auth:admin", "data:*", "data:read", "data:write", "storage:*", "storage:read",
    "storage:write", "functions:invoke", "functions:admin", "push:subscribe", "push:send",
    "admin:all"]

def defaultScopesForType : AppKeyType → List String
  | .client => ["auth:public", "storage:read", "push:subscribe"]
  | .server => ["auth:public", "data:*", "storage:*", "functions:invoke", "push:send"]
  | .admin => ["admin:all"]

def normalizeScopes (keyType : AppKeyType) (scopes : List String) :
    Except String (List String) := do
  let scopes := if scopes.isEmpty then defaultScopesForType keyType else scopes
  Outcome.ensure (scopes.all allowedScopes.contains) "scope is not supported"
  Outcome.ensure (keyType == .admin || !scopes.contains "admin:all")
    "admin scope requires an admin key"
  return scopes

def keyPrefixForType : AppKeyType → String
  | .client => "pk"
  | .server => "sk"
  | .admin => "adm"

structure CreateAppKeyRequest where
  name : String
  keyType : String
  scopes : Option (List String) := none
  expiresInDays : Option Int := none
  rateLimitPerMinute : Option Int := none

def requireAppRole (db : Db) (claims : Claims) (appId : String) (requiredRole : Role) :
    Except ApiError Unit := do
  let workspaceId ← Outcome.require (appWorkspaceId db appId) (jsonError .notFound "app not found")
  requireWorkspaceRole db claims workspaceId requiredRole

/-- A number that is positive and at most the bound, if it is given. -/
def requireUpTo (field : String) (bound : Int) (value : Option Int) : Except ApiError Unit :=
  match value with
  | none => .ok ()
  | some value => do
      Outcome.ensure (decide (0 < value)) (jsonError .badRequest (field ++ " must be positive"))
      Outcome.ensure (decide (value ≤ bound))
        (jsonError .badRequest (field ++ " must be " ++ toString bound ++ " or fewer"))

/-- The checks of `create_app_key`; the result is the name, the type and the scopes. -/
def createAppKeyChecks (db : Db) (claims : Claims) (appId : String)
    (payload : CreateAppKeyRequest) : Except ApiError (String × AppKeyType × List String) := do
  requireAppRole db claims appId .owner
  let name ← (normalizeName payload.name).mapError (jsonError .badRequest)
  let keyType ← (normalizeKeyType payload.keyType).mapError (jsonError .badRequest)
  let scopes ← (normalizeScopes keyType (payload.scopes.getD [])).mapError (jsonError .badRequest)
  requireUpTo "expires_in_days" 3650 payload.expiresInDays
  requireUpTo "rate_limit_per_minute" 60000 payload.rateLimitPerMinute
  return (name, keyType, scopes)

/-- `INSERT INTO app_keys`: the hash is unique, and the app and the user exist. -/
def Db.insertAppKey (db : Db) (k : AppKey) : Option Db :=
  if db.apps.hasKey k.appId && db.users.hasKey k.createdBy &&
      !db.appKeys.rows.any fun other => other.keyHash == k.keyHash then
    (db.appKeys.insert? k).map fun keys => { db with appKeys := keys }
  else none

def newKeyText (env : Env) (keyType : AppKeyType) : String :=
  keyPrefixForType keyType ++ "_" ++ env.token 0

/-- The key in the clear, which is not stored, with the row. -/
def createAppKey (pf : Platform) (db : Db) (env : Env) (claims : Claims) (appId : String)
    (payload : CreateAppKeyRequest) : Db × Except ApiError (Reply (AppKey × String)) :=
  Outcome.proceed db (createAppKeyChecks db claims appId payload) fun (name, keyType, scopes) =>
    let key := newKeyText env keyType
    let appKey : AppKey :=
      { id := env.uuid 0, appId := appId, name := name
        keyPrefix := String.ofList (key.toList.take 16), keyHash := hashOpaqueToken pf key
        keyType := keyType, scopes := scopes, createdBy := claims.sub, createdAt := env.now
        lastUsedAt := none, expiresAt := payload.expiresInDays.map env.daysFromNow
        revokedAt := none, rateLimitPerMinute := payload.rateLimitPerMinute }
    match db.insertAppKey appKey with
    | none => (db, .error (jsonError .internalServerError "failed to create app key"))
    | some db =>
        (db.recordAuditLog env (env.uuid 1) (some appId) claims "app_key.created" "app_key"
            appKey.id
            (.object [("key_type", .string keyType.text), ("name", .string name)]),
          .ok { status := .created, body := (appKey, key) })

/-! ### Requests with a key -/

def DEFAULT_SDK_KEY_RATE_LIMIT_PER_MINUTE : Nat := 300

structure AuthenticatedSdkAppKey where
  keyId : String
  principal : Principal
  actor : Claims
  rateLimit : Nat

/-- The key that is neither revoked nor expired. -/
def loadSdkAppKey (pf : Platform) (db : Db) (now rawKey : String) : Option AppKey :=
  db.appKeys.selectOne fun k =>
    k.keyHash == hashOpaqueToken pf rawKey && k.revokedAt.isNone && k.expiresAt.all (strLt now ·)

/-- `COALESCE(u.is_admin, FALSE)` of the `LEFT JOIN` with the user who created the key. -/
def createdByIsAdmin (db : Db) (k : AppKey) : Bool :=
  ((db.users.find? k.createdBy).map (·.isAdmin)).getD false

def AppKey.isAdmin (k : AppKey) : Bool :=
  k.keyType == .admin && k.scopes.any (· == "admin:all")

theorem AppKey.id_used (now : String) (k : AppKey) :
    ({ k with lastUsedAt := some now } : AppKey).id = k.id := rfl

def i64Max : Int := 9223372036854775807

/-- `u32::try_from(value).ok().filter(|value| *value > 0)`. -/
def AppKey.rateLimit (k : AppKey) : Nat :=
  ((k.rateLimitPerMinute.filter fun value => decide (0 < value ∧ value < 2 ^ 32)).map
    Int.toNat).getD DEFAULT_SDK_KEY_RATE_LIMIT_PER_MINUTE

/-- The actor is the user who created the key, and an administrator if either is. -/
def AppKey.authenticated (db : Db) (k : AppKey) : AuthenticatedSdkAppKey :=
  { keyId := k.id
    principal := .appKey k.id k.appId k.isAdmin k.scopes
    actor := { sub := k.createdBy, appId := k.appId, exp := i64Max
               isAdmin := createdByIsAdmin db k || k.isAdmin }
    rateLimit := k.rateLimit }

def authenticateSdkAppKey (pf : Platform) (db : Db) (env : Env) (rawKey : String) :
    Db × Except ApiError AuthenticatedSdkAppKey :=
  match loadSdkAppKey pf db env.now rawKey with
  | none => (db, .error (jsonError .unauthorized "invalid app key"))
  | some k =>
      ({ db with
          appKeys := db.appKeys.updateWhere (fun other => other.id == k.id)
            (fun other => { other with lastUsedAt := some env.now }) (AppKey.id_used env.now) },
        .ok (k.authenticated db))

/-- Requests of a key and the start of their minute, in milliseconds. -/
abbrev AppKeyCounters := String → Option (Nat × Nat)

def enforceAppKeyRateLimit (counters : AppKeyCounters) (keyId : String) (maxPerMinute now : Nat) :
    AppKeyCounters × Except ApiError Unit :=
  let entry := (counters keyId).getD (0, now)
  if 60000 < now - entry.2 then (Function.update counters keyId (some (1, now)), .ok ())
  else if maxPerMinute ≤ entry.1 then
    (Function.update counters keyId (some entry),
      .error (jsonError .tooManyRequests "app key rate limit exceeded"))
  else (Function.update counters keyId (some (entry.1 + 1, entry.2)), .ok ())

theorem authenticateSdkAppKey_eq_ok {pf : Platform} {db : Db} {env : Env} {rawKey : String}
    {key : AuthenticatedSdkAppKey} (h : (authenticateSdkAppKey pf db env rawKey).2 = .ok key) :
    ∃ k, loadSdkAppKey pf db env.now rawKey = some k ∧ key = k.authenticated db := by
  unfold authenticateSdkAppKey at h
  split at h
  · cases h
  · rename_i k hload
    cases h
    exact ⟨k, hload, rfl⟩

end Peanut
