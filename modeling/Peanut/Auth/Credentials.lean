import Peanut.Auth.AppKeys
import Peanut.Auth.SignedTokens
import Peanut.Backups.Paths
import Peanut.NewestFirst

/-!
# Credentials

What a `Bearer` header may carry: the session of a user, a service token
(`api/admin.rs`) or an app key (`api/keys.rs`).  `middleware/auth.rs` tells them apart.
Of the last two only hashes are stored, so a text is shown once, when it is made.
-/

namespace Peanut

open Relational

/-! ### Tables -/

/-- A row of `service_tokens`. -/
structure ServiceToken where
  id : String
  name : String
  tokenHash : String
  accessMode : String
  userId : String
  createdAt : String
  lastUsedAt : Option String
  expiresAt : Option String
  revokedAt : Option String
deriving DecidableEq, Repr

/-- The database with the table of the service tokens. -/
structure CredentialStore where
  db : Db
  serviceTokens : KeyedTable ServiceToken (·.id) := .empty

/-! ### App keys -/

/-- `WHERE app_id = ? AND id = ? AND revoked_at IS NULL`. -/
def AppKey.isActive (appId keyId : String) (k : AppKey) : Bool :=
  k.appId == appId && k.id == keyId && k.revokedAt.isNone

def AppKey.revoked (now : String) (k : AppKey) : AppKey := { k with revokedAt := some now }

def AppKey.used (now : String) (k : AppKey) : AppKey := { k with lastUsedAt := some now }

def keyTextPrefix (key : String) : String := String.ofList (key.toList.take 16)

def AppKey.rotated (pf : Platform) (key : String) (k : AppKey) : AppKey :=
  { k with keyPrefix := keyTextPrefix key, keyHash := hashOpaqueToken pf key, lastUsedAt := none }

theorem AppKey.id_revoked (now : String) (k : AppKey) : (k.revoked now).id = k.id := rfl

theorem AppKey.id_rotated (pf : Platform) (key : String) (k : AppKey) :
    (k.rotated pf key).id = k.id := rfl

/-- The `UPDATE` of `revoke_app_key`; `none` when no row matches. -/
def Db.revokeAppKey (db : Db) (now appId keyId : String) : Option Db :=
  if db.appKeys.rows.any (AppKey.isActive appId keyId) then
    some { db with
      appKeys := db.appKeys.updateWhere (AppKey.isActive appId keyId) (AppKey.revoked now)
        (AppKey.id_revoked now) }
  else none

/-- The `UPDATE` of `rotate_app_key`, which fails when another key has the hash. -/
def Db.rotateAppKey (pf : Platform) (db : Db) (appId keyId key : String) : Except ApiError Db := do
  Outcome.ensure (db.appKeys.rows.any (AppKey.isActive appId keyId))
    (jsonError .notFound "app key not found")
  Outcome.ensure
    (!db.appKeys.rows.any fun k => !k.isActive appId keyId && k.keyHash == hashOpaqueToken pf key)
    (jsonError .internalServerError "failed to rotate app key")
  return { db with
    appKeys := db.appKeys.updateWhere (AppKey.isActive appId keyId) (AppKey.rotated pf key)
      (AppKey.id_rotated pf key) }

def AppKey.stamp (k : AppKey) : RowStamp := (k.createdAt, k.id)

structure CreateServiceTokenRequest where
  name : String
  expiresInDays : Option Int := none

def createServiceTokenChecks (claims : Claims) (payload : CreateServiceTokenRequest) :
    Except ApiError String := do
  Outcome.ensure claims.isAdmin (jsonError .forbidden "admin access required")
  let name ← (normalizeName payload.name).mapError (jsonError .badRequest)
  requireUpTo "expires_in_days" 3650 payload.expiresInDays
  return name

/-- `INSERT INTO service_tokens`: the hash is unique, and the user exists. -/
def CredentialStore.insertServiceToken (s : CredentialStore) (t : ServiceToken) :
    Option CredentialStore :=
  if s.db.users.hasKey t.userId && !s.serviceTokens.rows.any fun o =>
    o.tokenHash == t.tokenHash then
    (s.serviceTokens.insert? t).map fun tokens => { s with serviceTokens := tokens }
  else none

def newServiceTokenText (env : Env) : String := "pst_" ++ env.token 0

def newServiceToken (pf : Platform) (env : Env) (claims : Claims) (name : String)
    (expiresInDays : Option Int) : ServiceToken :=
  { id := env.uuid 0, name := name, tokenHash := hashOpaqueToken pf (newServiceTokenText env)
    accessMode := "admin", userId := claims.sub, createdAt := env.now, lastUsedAt := none
    expiresAt := expiresInDays.map env.daysFromNow, revokedAt := none }

def ServiceToken.revoked (now : String) (t : ServiceToken) : ServiceToken :=
  { t with revokedAt := some now }

def ServiceToken.used (now : String) (t : ServiceToken) : ServiceToken :=
  { t with lastUsedAt := some now }

theorem ServiceToken.id_revoked (now : String) (t : ServiceToken) : (t.revoked now).id = t.id := rfl

theorem ServiceToken.id_used (now : String) (t : ServiceToken) : (t.used now).id = t.id := rfl

/-- The `UPDATE` of `revoke_service_token`, which may hit a token that is revoked already. -/
def CredentialStore.revokeServiceToken (s : CredentialStore) (now tokenId userId : String) :
    Option CredentialStore :=
  let p := fun t : ServiceToken => t.id == tokenId && t.userId == userId
  if s.serviceTokens.rows.any p then
    some { s with
      serviceTokens := s.serviceTokens.updateWhere p (ServiceToken.revoked now)
        (ServiceToken.id_revoked now) }
  else none

/-! ### Bearer tokens -/

structure AuthenticatedPrincipal where
  claims : Claims
  principal : Principal
deriving DecidableEq, Repr

/-- The claims of a user as the database has them now. -/
def validateUserClaims (db : Db) (appId userId : String) (exp : Int) : Except ApiError Claims := do
  let user ← Outcome.require (loadUserById db appId userId)
    (jsonError .unauthorized "user not found")
  Outcome.ensure user.isActive (jsonError .unauthorized "user is not active")
  return { sub := user.id, appId := user.appId, exp := exp, isAdmin := user.isAdmin }

/-- `(Utc::now() + Duration::days(3650)).timestamp()`. -/
def tenYearsOn (timestamp : Int) : Int := timestamp + 3650 * 86400

/-- The token that is neither revoked nor expired. -/
def loadServiceToken (pf : Platform) (s : CredentialStore) (now rawToken : String) :
    Option ServiceToken :=
  s.serviceTokens.selectOne fun t =>
    t.tokenHash == hashOpaqueToken pf rawToken && t.revokedAt.isNone && t.expiresAt.all
      (strLt now ·)

def serviceTokenChecks (pf : Platform) (s : CredentialStore) (env : Env) (timestamp : Int)
    (rawToken : String) : Except ApiError (ServiceToken × Claims) := do
  let stored ← Outcome.require (loadServiceToken pf s env.now rawToken)
    (jsonError .unauthorized "invalid bearer token")
  let claims ← validateUserClaims s.db DEFAULT_APP_ID stored.userId (tenYearsOn timestamp)
  Outcome.ensure (stored.accessMode == "admin" && claims.isAdmin)
    (jsonError .forbidden "service token does not have required access")
  return (stored, claims)

def authenticateServiceToken (pf : Platform) (s : CredentialStore) (env : Env) (timestamp : Int)
    (rawToken : String) : CredentialStore × Except ApiError AuthenticatedPrincipal :=
  Outcome.proceed s (serviceTokenChecks pf s env timestamp rawToken) fun (stored, claims) =>
    ({ s with
        serviceTokens := s.serviceTokens.updateWhere (fun t => t.id == stored.id)
          (ServiceToken.used env.now) (ServiceToken.id_used env.now) },
      .ok { claims := claims, principal := .serviceToken claims.sub claims.isAdmin })

def appKeyChecks (pf : Platform) (db : Db) (now rawToken : String) : Except ApiError AppKey := do
  let stored ← Outcome.require (loadSdkAppKey pf db now rawToken)
    (jsonError .unauthorized "invalid bearer token")
  Outcome.ensure stored.isAdmin (jsonError .forbidden "app key requires an app-scoped endpoint")
  return stored

/-- Whoever holds an admin key is an administrator, whether the creator of the key is one
    or not. -/
def AppKey.bearer (timestamp : Int) (k : AppKey) : AuthenticatedPrincipal :=
  { claims := { sub := k.createdBy, appId := k.appId, exp := tenYearsOn timestamp, isAdmin := true }
    principal := .appKey k.id k.appId true k.scopes }

/-- The time at which a key was accepted last. -/
def Db.useAppKey (db : Db) (now keyId : String) : Db :=
  { db with
    appKeys := db.appKeys.updateWhere (fun k => k.id == keyId) (AppKey.used now)
      (AppKey.id_used now) }

def authenticateAppKey (pf : Platform) (s : CredentialStore) (env : Env) (timestamp : Int)
    (rawToken : String) : CredentialStore × Except ApiError AuthenticatedPrincipal :=
  Outcome.proceed s (appKeyChecks pf s.db env.now rawToken) fun stored =>
    ({ s with db := s.db.useAppKey env.now stored.id }, .ok (stored.bearer timestamp))

def bearerText (authHeader : Option String) : Except ApiError String :=
  Outcome.require (authHeader.bind (stripStart "Bearer "))
    (jsonError .unauthorized "missing bearer token")

/-- The session of a user: what the token claims is looked up. -/
def validateSession (db : Db) (tokenClaims : Claims) : Except ApiError AuthenticatedPrincipal := do
  let claims ← validateUserClaims db tokenClaims.appId tokenClaims.sub tokenClaims.exp
  return { claims := claims
           principal := .userForApp claims.sub claims.appId claims.isAdmin }

/-- An app key is tried whatever was wrong with the text as a service token, and the
    error is that of the app key. -/
def authenticateBearerPrincipal (pf : Platform) (tk : TokenKey) (s : CredentialStore) (env : Env)
    (timestamp : Int) (authHeader : Option String) :
    CredentialStore × Except ApiError AuthenticatedPrincipal :=
  Outcome.proceed s (bearerText authHeader) fun token =>
    match verifyJwt tk timestamp token with
    | .ok tokenClaims => (s, validateSession s.db tokenClaims)
    | .error _ =>
        match authenticateServiceToken pf s env timestamp token with
        | (s, .ok authenticated) => (s, .ok authenticated)
        | (s, .error _) => authenticateAppKey pf s env timestamp token

end Peanut
