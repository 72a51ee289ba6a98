import Peanut.Auth.Users
import Peanut.Functions.Secrets
import Peanut.Library.ResultRow

/-!
# Signing in through a provider

`oauth_callback` of `api/auth/providers/mod.rs`, one SQL statement at a time: the
state is read and matched, the code is exchanged for the profile of the user, the
user is found or created, and only then is the state deleted and a session
started.  The exchange is two HTTP requests to the provider, so what it returns
is a parameter; it happens after the statement that reads the configuration.
-/

namespace Peanut

open Relational

/-! ### The provider -/

structure OidcProviderRuntimeConfig where
  authorizationEndpoint : String
  tokenEndpoint : String
  userinfoEndpoint : String
  clientId : String
  clientSecret : Option String
  redirectUri : String
  scopes : List String
deriving DecidableEq, Repr

structure UserInfoResponse where
  sub : String
  email : Option String
deriving DecidableEq, Repr

/-- `serde_json::to_string(userinfo)`, decoded. -/
def UserInfoResponse.profile (info : UserInfoResponse) : Value :=
  .object [("email", optionToValue .string info.email), ("sub", .string info.sub)]

def normalizeProvider (provider : String) : Except String String :=
  let provider := asciiLowercase (trim provider)
  if provider ∈ ["google", "github", "apple", "kakao", "naver", "oidc"] then .ok provider
  else .error "provider is not supported"

def configString (config : Value) (key : String) : Except String String :=
  Outcome.require ((((config.member key).bind Value.asStr).map trim).filter (· != ""))
    "oidc endpoint config is required"

/-- Authorization, token and userinfo endpoint. -/
def oidcEndpoints (row : AuthProviderConfig) : Except String (String × String × String) :=
  if row.provider == "google" then
    .ok ("https://accounts.google.com/o/oauth2/v2/auth", "https://oauth2.googleapis.com/token",
      "https://openidconnect.googleapis.com/v1/userinfo")
  else do
    let authorizationEndpoint ← configString row.config "authorization_endpoint"
    let tokenEndpoint ← configString row.config "token_endpoint"
    let userinfoEndpoint ← configString row.config "userinfo_endpoint"
    return (authorizationEndpoint, tokenEndpoint, userinfoEndpoint)

def oidcScopes (config : Value) : List String :=
  let scopes := ((config.member "scopes").bind Value.asArray).map (·.filterMap Value.asStr)
  (scopes.filter (!·.isEmpty)).getD ["openid", "email", "profile"]

def decryptClientSecret (cipher : SecretCipher) (row : AuthProviderConfig) :
    Except String (Option String) :=
  match row.clientSecretCiphertext with
  | none => .ok none
  | some ciphertext =>
      ((decryptSecret cipher ciphertext).map some).mapError fun _ =>
        "failed to decrypt client secret"

def oidcRuntimeConfig (cipher : SecretCipher) (row : AuthProviderConfig) :
    Except String OidcProviderRuntimeConfig := do
  let clientId ← Outcome.require row.clientId "client_id is required"
  let clientSecret ← decryptClientSecret cipher row
  let (authorizationEndpoint, tokenEndpoint, userinfoEndpoint) ← oidcEndpoints row
  let redirectUri ← Outcome.require row.redirectUri "redirect_uri is required"
  return { authorizationEndpoint := authorizationEndpoint, tokenEndpoint := tokenEndpoint
           userinfoEndpoint := userinfoEndpoint, clientId := clientId
           clientSecret := clientSecret, redirectUri := redirectUri
           scopes := oidcScopes row.config }

/-! ### Finding the user -/

inductive UserColumn where
  | id
  | appId
  | email
  | isActive
  | isAdmin
  | adminRole
deriving DecidableEq, Repr

inductive UserCell where
  | text (value : String)
  | flag (value : Bool)
  | role (value : Role)

def UserCell.asText : UserCell → Option String
  | .text value => some value
  | _ => none

def UserCell.asFlag : UserCell → Option Bool
  | .flag value => some value
  | _ => none

def UserCell.asRole : UserCell → Option Role
  | .role value => some value
  | _ => none

def User.cell (u : User) : UserColumn → UserCell
  | .id => .text u.id
  | .appId => .text u.appId
  | .email => .text u.email
  | .isActive => .flag u.isActive
  | .isAdmin => .flag u.isAdmin
  | .adminRole => .role u.adminRole

/-- `#[derive(FromRow)]`: the fields in the order of the struct. -/
def UserSummary.fromRow (row : ResultRow UserColumn UserCell) :
    Except (RowError UserColumn) UserSummary := do
  let id ← row.tryGet UserCell.asText .id
  let appId ← row.tryGet UserCell.asText .appId
  let email ← row.tryGet UserCell.asText .email
  let isActive ← row.tryGet UserCell.asFlag .isActive
  let isAdmin ← row.tryGet UserCell.asFlag .isAdmin
  let adminRole ← row.tryGet UserCell.asRole .adminRole
  return { id := id, appId := appId, email := email, isActive := isActive, isAdmin := isAdmin
           adminRole := adminRole }

/-- The user of an identity, if the identity is known. -/
def oauthIdentityUser (db : Db) (appId provider providerUserId : String) : Option User :=
  (db.authIdentities.selectOne fun i =>
    i.appId == appId && i.provider == provider && i.providerUserId == providerUserId).bind
      fun i => db.users.find? i.userId

/-- The query for the identity.  Its `SELECT` list has no `admin_role`. -/
def loadOAuthIdentity (db : Db) (appId provider providerUserId : String) :
    Except (RowError UserColumn) (Option UserSummary) :=
  match oauthIdentityUser db appId provider providerUserId with
  | none => .ok none
  | some user =>
      (UserSummary.fromRow (.select [.id, .appId, .email, .isActive, .isAdmin] user.cell)).map some

theorem loadOAuthIdentity_ok {db : Db} {appId provider providerUserId : String}
    {found : Option UserSummary}
    (h : loadOAuthIdentity db appId provider providerUserId = .ok found) : found = none := by
  unfold loadOAuthIdentity at h
  split at h
  · cases h
    rfl
  · cases h

def loadOAuthUserByEmail (db : Db) (appId email : String) : Option User :=
  db.users.selectOne fun u => u.appId == appId && u.email == email

theorem AuthIdentity.id_relinked (userId email : String) (profile : Value) (i : AuthIdentity) :
    ({ i with userId := userId, email := email, profile := profile } : AuthIdentity).id = i.id :=
  rfl

/-- `INSERT INTO auth_identities … ON CONFLICT(app_id, provider, provider_user_id)
    DO UPDATE`.  An identity refers to an app and a user, and a user has one
    identity per provider. -/
def Db.upsertAuthIdentity (db : Db) (i : AuthIdentity) : Option Db :=
  let known (r : AuthIdentity) : Bool :=
    r.appId == i.appId && r.provider == i.provider && r.providerUserId == i.providerUserId
  let taken (r : AuthIdentity) : Bool :=
    r.appId == i.appId && r.provider == i.provider && r.userId == i.userId && !known r
  if db.apps.hasKey i.appId && db.users.hasKey i.userId && !db.authIdentities.rows.any taken then
    if db.authIdentities.rows.any known then
      some { db with
        authIdentities := db.authIdentities.updateWhere known
          (fun r => { r with userId := i.userId, email := i.email, profile := i.profile })
          (AuthIdentity.id_relinked i.userId i.email i.profile) }
    else (db.authIdentities.insert? i).map fun identities =>
      { db with authIdentities := identities }
  else none

theorem Db.upsertAuthIdentity_eq_some {db db' : Db} {i : AuthIdentity}
    (h : db.upsertAuthIdentity i = some db') :
    ∃ identities, db' = { db with authIdentities := identities } := by
  unfold Db.upsertAuthIdentity at h
  dsimp only at h
  split at h
  · split at h
    · cases h
      exact ⟨_, rfl⟩
    · obtain ⟨identities, -, rfl⟩ := Option.map_eq_some_iff.mp h
      exact ⟨identities, rfl⟩
  · cases h

/-- The row `create_oauth_user` inserts. -/
def oauthUser (env : Env) (appId email passwordHash : String) (isAdmin : Bool) : User :=
  { id := env.uuid 0, appId := appId, email := email, passwordHash := passwordHash
    isActive := true, isAdmin := isAdmin, adminRole := if isAdmin then .owner else .viewer
    createdAt := env.now }

/-! ### The callback -/

/-- What a callback knows after the exchange; `email` is as the profile gives it,
    without surrounding white space. -/
structure OAuthLogin where
  provider : String
  stateHash : String
  userinfo : UserInfoResponse
  email : String
deriving DecidableEq, Repr

inductive OAuthStage where
  | received
  | matched (provider stateHash : String)
  | exchanged (login : OAuthLogin)
  | unknownIdentity (login : OAuthLogin)
  | newcomer (login : OAuthLogin)
  | counted (login : OAuthLogin) (isAdmin : Bool)
  | found (login : OAuthLogin) (user : UserSummary)
  | linked (login : OAuthLogin) (user : UserSummary)
  | spent (login : OAuthLogin) (user : UserSummary)
  | issued (login : OAuthLogin) (user : UserSummary) (response : LoginResponse)
  | completed (stateHash : String) (response : LoginResponse)
  | refused (error : ApiError)

structure OAuthCallbackCall where
  appId : String
  provider : String
  code : String
  state : String
  stage : OAuthStage

/-- Where a provider's token and userinfo endpoints lead at a given time. -/
abbrev CodeExchange := Env → OidcProviderRuntimeConfig → String → Except String UserInfoResponse

def loadOAuthState (db : Db) (now stateHash : String) : Option OAuthState :=
  db.oauthStates.selectOne fun s => s.stateHash == stateHash && strLt now s.expiresAt

/-- The state must exist and fit the path. -/
def oauthStateChecks (pf : Platform) (env : Env) (db : Db) (c : OAuthCallbackCall) :
    Except ApiError (String × String) := do
  let provider ← (normalizeProvider c.provider).mapError (jsonError .badRequest)
  let stateHash := hashOpaqueToken pf c.state
  let stored ← Outcome.require (loadOAuthState db env.now stateHash)
    (jsonError .unauthorized "oauth state is invalid")
  Outcome.ensure (stored.appId == c.appId && stored.provider == provider)
    (jsonError .unauthorized "oauth state does not match provider")
  return (provider, stateHash)

def fetchProviderRow (db : Db) (appId provider : String) : Option AuthProviderConfig :=
  db.authProviderConfigs.find? (appId, provider)

/-- The configuration, the exchange and the address. -/
def oauthExchangeChecks (cipher : SecretCipher) (exchange : CodeExchange) (env : Env) (db : Db)
    (c : OAuthCallbackCall) (provider stateHash : String) : Except ApiError OAuthLogin := do
  let row ← Outcome.require (fetchProviderRow db c.appId provider)
    (jsonError .notFound "auth provider not found")
  Outcome.ensure row.enabled (jsonError .conflict "auth provider is disabled")
  let config ← (oidcRuntimeConfig cipher row).mapError (jsonError .badRequest)
  let userinfo ← (exchange env config c.code).mapError (jsonError .badGateway)
  let email ← Outcome.require ((userinfo.email.map trim).filter (· != ""))
    (jsonError .badGateway "oauth provider did not return email")
  return { provider := provider, stateHash := stateHash, userinfo := userinfo, email := email }

namespace OAuthCallbackCall

def fail (c : OAuthCallbackCall) (message : String) : OAuthCallbackCall :=
  { c with stage := .refused (jsonError .internalServerError message) }

def step (pf : Platform) (cipher : SecretCipher) (exchange : CodeExchange) (env : Env) (db : Db)
    (c : OAuthCallbackCall) : Db × OAuthCallbackCall :=
  match c.stage with
  | .received =>
      match oauthStateChecks pf env db c with
      | .error e => (db, { c with stage := .refused e })
      | .ok (provider, stateHash) => (db, { c with stage := .matched provider stateHash })
  | .matched provider stateHash =>
      match oauthExchangeChecks cipher exchange env db c provider stateHash with
      | .error e => (db, { c with stage := .refused e })
      | .ok login => (db, { c with stage := .exchanged login })
  | .exchanged login =>
      match loadOAuthIdentity db c.appId login.provider login.userinfo.sub with
      | .error _ => (db, c.fail "failed to load oauth identity")
      | .ok none => (db, { c with stage := .unknownIdentity login })
      | .ok (some user) => (db, { c with stage := .linked login user })
  | .unknownIdentity login =>
      match loadOAuthUserByEmail db c.appId (asciiLowercase (trim login.email)) with
      | none => (db, { c with stage := .newcomer login })
      | some user => (db, { c with stage := .found login user.summary })
  | .newcomer login => (db, { c with stage := .counted login db.users.rows.isEmpty })
  | .counted login isAdmin =>
      match pf.hashPassword (env.token 0) env.salt with
      | none => (db, c.fail "failed to hash oauth user password")
      | some passwordHash =>
          let user := oauthUser env c.appId (asciiLowercase (trim login.email)) passwordHash isAdmin
          match db.insertUser user with
          | none => (db, c.fail "failed to create oauth user")
          | some db => (db, { c with stage := .found login user.summary })
  | .found login user =>
      match db.upsertAuthIdentity
          { id := env.uuid 0, appId := c.appId, provider := login.provider
            providerUserId := login.userinfo.sub, userId := user.id
            email := asciiLowercase (trim login.email), profile := login.userinfo.profile } with
      | none => (db, c.fail "failed to save oauth identity")
      | some db => (db, { c with stage := .linked login user })
  | .linked login user =>
      ({ db with
          oauthStates := db.oauthStates.deleteWhere fun s => s.stateHash == login.stateHash },
        { c with stage := .spent login user })
  | .spent login user =>
      match issueLoginResponse pf db env c.appId user with
      | .error message => (db, c.fail message)
      | .ok (response, db) => (db, { c with stage := .issued login user response })
  | .issued login user response =>
      (recordAuthEvent db env (env.uuid 0) c.appId user.id (some user.id) "oauth_login_succeeded"
          (some (.object [("app_id", .string c.appId), ("provider", .string login.provider)])),
        { c with stage := .completed login.stateHash response })
  | .completed _ _ => (db, c)
  | .refused _ => (db, c)

def reply (c : OAuthCallbackCall) : Option (Except ApiError (Reply LoginResponse)) :=
  match c.stage with
  | .completed _ response => some (.ok { status := .ok, body := response })
  | .refused e => some (.error e)
  | _ => none

end OAuthCallbackCall

end Peanut
