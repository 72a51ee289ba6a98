import Mathlib.Data.List.Dedup
import Peanut.Auth.Users
import Peanut.Library.Transition

/-!
# Sessions

Signing in, refreshing, signing out and revoking, of the apps and of the console
(`api/auth/public.rs`, `sessions.rs`, `admin_console.rs`, `admin_users.rs`).
-/

namespace Peanut

open Relational

/-! ### Signing in -/

def passwordChecks (pf : Platform) (db : Db) (appId : String) (payload : Credentials) :
    Except ApiError User := do
  badCredentials payload.email payload.password
  let user ← Outcome.require (loadUserByEmail pf db appId (trim payload.email))
    (jsonError .unauthorized "invalid credentials")
  Outcome.ensure user.isActive (jsonError .forbidden "user is not active")
  return user

def verifyPasswordOf (pf : Platform) (payload : Credentials) (user : User) :
    Except ApiError Unit :=
  Outcome.ensure (pf.verifyPassword payload.password user.passwordHash)
    (jsonError .unauthorized "invalid credentials")

def loginChecks (pf : Platform) (db : Db) (appId : String) (payload : Credentials) :
    Except ApiError User := do
  let user ← passwordChecks pf db appId payload
  verifyPasswordOf pf payload user
  return user

def adminLoginChecks (pf : Platform) (db : Db) (payload : Credentials) : Except ApiError User := do
  let user ← passwordChecks pf db DEFAULT_APP_ID payload
  Outcome.ensure user.isAdmin (jsonError .forbidden "admin access required")
  verifyPasswordOf pf payload user
  return user

/-- The part both sign-ins share: a new session, and an event that names it by
    the refresh token. -/
def signIn (pf : Platform) (db : Db) (env : Env) (appId action : String)
    (checks : Except ApiError User) : Db × Except ApiError (Reply LoginResponse) :=
  Outcome.proceed db checks fun user =>
    match issueLoginResponse pf db env appId user.summary with
    | .error message => (db, .error (jsonError .internalServerError message))
    | .ok (response, db) =>
        (recordAuthEvent db env (env.uuid 0) appId user.id (some user.id) action
            (some (sessionMetadata response.refreshToken)),
          .ok { status := .ok, body := response })

def loginForApp (pf : Platform) (db : Db) (env : Env) (appId : String) (payload : Credentials) :
    Db × Except ApiError (Reply LoginResponse) :=
  signIn pf db env appId "login_succeeded" (loginChecks pf db appId payload)

def adminLogin (pf : Platform) (db : Db) (env : Env) (payload : Credentials) :
    Db × Except ApiError (Reply LoginResponse) :=
  signIn pf db env DEFAULT_APP_ID "admin_console_login" (adminLoginChecks pf db payload)

/-! ### Refreshing -/

/-- The token and the user a refresh is about. -/
def refreshChecks (pf : Platform) (db : Db) (env : Env) (appId rawToken : String) :
    Except ApiError (RefreshToken × User) := do
  let stored ← Outcome.require (loadActiveRefreshToken pf db env.now appId rawToken)
    (jsonError .unauthorized "valid refresh token is required")
  let user ← Outcome.require (loadUserById db appId stored.userId)
    (jsonError .unauthorized "user not found")
  return (stored, user)

/-- The part both refreshes share.  A refused user loses the token. -/
def refreshWith (pf : Platform) (db : Db) (env : Env) (appId action rawToken : String)
    (refusal : User → Option ApiError) : Db × Except ApiError (Reply LoginResponse) :=
  Outcome.proceed db (refreshChecks pf db env appId rawToken) fun (stored, user) =>
    match refusal user with
    | some e => (revokeRefreshTokenHash db env stored.token, .error e)
    | none =>
        match rotateRefreshToken pf db env stored with
        | .error message => (db, .error (jsonError .internalServerError message))
        | .ok (newToken, db) =>
            (recordAuthEvent db env (env.uuid 0) appId user.id (some user.id) action
                (some (sessionMetadata stored.sessionId)),
              .ok { status := .ok
                    body := { accessToken := pf.createJwt
                                { sub := user.id, appId := appId, exp := env.accessExpiresAt,
                                  isAdmin := user.isAdmin }
                              refreshToken := newToken, tokenType := "Bearer"
                              expiresAt := env.accessExpiresAt, user := user.summary } })

def inactiveRefusal (user : User) : Option ApiError :=
  if user.isActive then none else some (jsonError .unauthorized "user is not active")

def refreshSessionForApp (pf : Platform) (db : Db) (env : Env) (appId rawToken : String) :
    Db × Except ApiError (Reply LoginResponse) :=
  refreshWith pf db env appId "session_refreshed" rawToken inactiveRefusal

def adminRefreshSession (pf : Platform) (db : Db) (env : Env) (rawToken : String) :
    Db × Except ApiError (Reply LoginResponse) :=
  refreshWith pf db env DEFAULT_APP_ID "admin_console_session_refreshed" rawToken fun user =>
    (inactiveRefusal user).or
      (if user.isAdmin then none else some (jsonError .forbidden "admin access required"))

/-! ### Signing out and revoking -/

/-- The token is revoked whatever its app; the event needs a token of the app. -/
def logoutForApp (pf : Platform) (db : Db) (env : Env) (appId rawToken : String) :
    Db × Except ApiError (Reply MessageResponse) :=
  let stored := loadActiveRefreshToken pf db env.now appId rawToken
  let db := revokeRefreshToken pf db env rawToken
  let db :=
    match stored with
    | some stored =>
        recordAuthEvent db env (env.uuid 0) appId stored.userId (some stored.userId) "logged_out"
          (some (sessionMetadata stored.sessionId))
    | none => db
  (db, .ok (jsonMessage .ok "logged out"))

/-- The part both revocations share. -/
def revokeSessionOf (db : Db) (env : Env) (appId userId actorId action sessionId : String) :
    Db × Except ApiError (Reply MessageResponse) :=
  match revokeSessionForUser db env appId userId sessionId with
  | (0, db) => (db, .error (jsonError .notFound "auth session not found"))
  | (_, db) =>
      (recordAuthEvent db env (env.uuid 0) appId userId (some actorId) action
          (some (sessionMetadata sessionId)),
        .ok (jsonMessage .ok "auth session revoked"))

def revokeSession (db : Db) (env : Env) (claims : Claims) (sessionId : String) :
    Db × Except ApiError (Reply MessageResponse) :=
  revokeSessionOf db env claims.appId claims.sub claims.sub "auth_session_revoked" sessionId

def revokeAdminUserSession (db : Db) (env : Env) (claims : Claims)
    (appId userId sessionId : String) : Db × Except ApiError (Reply MessageResponse) :=
  Outcome.proceed db (adminClaimsForApp claims appId) fun claims =>
    revokeSessionOf db env claims.appId userId claims.sub "auth_session_revoked_by_admin" sessionId

def revokeAllSessions (db : Db) (env : Env) (claims : Claims) :
    Db × Except ApiError (Reply MessageResponse) :=
  let db := revokeAllRefreshTokensForUser db env claims.appId claims.sub
  (recordAuthEvent db env (env.uuid 0) claims.appId claims.sub (some claims.sub)
      "all_auth_sessions_revoked" none,
    .ok (jsonMessage .ok "all auth sessions revoked"))

/-! ### Listing -/

structure AuthSessionSummary where
  sessionId : String
  createdAt : String
  lastSeenAt : String
  expiresAt : String
  isActive : Bool
deriving DecidableEq, Repr

/-- `MAX` and `MIN` of a text column over a non-empty group. -/
def textMax (texts : List String) : String :=
  texts.foldl (fun a b => if strLt a b then b else a) (texts.headD "")

def textMin (texts : List String) : String :=
  texts.foldl (fun a b => if strLt b a then b else a) (texts.headD "")

/-- One group of the query: the tokens of a session. -/
def sessionSummary (now sessionId : String) (tokens : List RefreshToken) : AuthSessionSummary :=
  { sessionId := sessionId
    createdAt := textMin (tokens.map (·.createdAt))
    lastSeenAt := textMax (tokens.map (·.createdAt))
    expiresAt := textMax (tokens.map (·.expiresAt))
    isActive := tokens.any (·.activeAt now) }

/-- `GROUP BY session_id ORDER BY MAX(created_at) DESC`. -/
def loadSessionsForUser (db : Db) (now appId userId : String) : List AuthSessionSummary :=
  let tokens := db.refreshTokens.select fun t => t.appId == appId && t.userId == userId
  let summaries := (tokens.map (·.sessionId)).dedup.map fun sessionId =>
    sessionSummary now sessionId (tokens.filter (·.sessionId == sessionId))
  summaries.mergeSort fun a b => !strLt a.lastSeenAt b.lastSeenAt

theorem mem_loadSessionsForUser {db : Db} {now sessionId : String} :
    (∃ appId userId, ∃ summary ∈ loadSessionsForUser db now appId userId,
      summary.sessionId = sessionId) ↔ ∃ t ∈ db.refreshTokens, t.sessionId = sessionId := by
  simp only [loadSessionsForUser, List.mem_mergeSort, List.mem_map, List.mem_dedup,
    KeyedTable.mem_select, Bool.and_eq_true, beq_iff_eq]
  constructor
  · rintro ⟨appId, userId, summary, ⟨s, ⟨t, ⟨ht, -⟩, rfl⟩, rfl⟩, rfl⟩
    exact ⟨t, ht, rfl⟩
  · rintro ⟨t, ht, rfl⟩
    exact ⟨t.appId, t.userId, _, ⟨t.sessionId, ⟨t, ⟨ht, rfl, rfl⟩, rfl⟩, rfl⟩, rfl⟩

end Peanut
