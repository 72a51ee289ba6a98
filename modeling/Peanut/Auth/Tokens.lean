import Peanut.Store
import Peanut.Library.Outcome

/-!
# Refresh tokens and auth events

The helpers of `api/auth.rs` that every sign-in path shares.  A refresh token is
handed out in the clear and stored as its hash; the session it belongs to is
named by a string of its own, which the tokens that replace it inherit.

Timestamps are texts in SQLite's format, whose byte order is the order of time.
-/

namespace Peanut

open Relational

def hashOpaqueToken (pf : Platform) (token : String) : String := pf.sha256Hex token

structure UserSummary where
  id : String
  appId : String
  email : String
  isActive : Bool
  isAdmin : Bool
  adminRole : Role
deriving DecidableEq, Repr

def User.summary (u : User) : UserSummary :=
  { id := u.id, appId := u.appId, email := u.email, isActive := u.isActive, isAdmin := u.isAdmin,
    adminRole := u.adminRole }

structure LoginResponse where
  accessToken : String
  refreshToken : String
  tokenType : String
  expiresAt : Int
  user : UserSummary
deriving DecidableEq, Repr

/-- `INSERT INTO refresh_tokens`: a token has one row and belongs to a user. -/
def Db.insertRefreshToken (db : Db) (t : RefreshToken) : Option Db :=
  if db.users.hasKey t.userId then
    (db.refreshTokens.insert? t).map fun tokens => { db with refreshTokens := tokens }
  else none

theorem Db.insertRefreshToken_eq_some {db db' : Db} {t : RefreshToken}
    (h : db.insertRefreshToken t = some db') :
    ∃ tokens, db.refreshTokens.insert? t = some tokens ∧
      db' = { db with refreshTokens := tokens } := by
  unfold Db.insertRefreshToken at h
  split at h
  · obtain ⟨tokens, hins, rfl⟩ := Option.map_eq_some_iff.mp h
    exact ⟨tokens, hins, rfl⟩
  · cases h

/-- The row a newly issued token gets. -/
def newRefreshToken (pf : Platform) (env : Env) (appId userId rawToken sessionId : String) :
    RefreshToken :=
  { token := hashOpaqueToken pf rawToken, appId := appId, userId := userId,
    expiresAt := env.refreshExpiresAt, createdAt := env.now, sessionId := sessionId,
    revokedAt := none, replacedByToken := none }

/-- A token that starts a session names the session after itself. -/
def issueRefreshToken (pf : Platform) (db : Db) (env : Env) (appId userId : String)
    (sessionId : Option String) : Except String (String × Db) := do
  let rawToken := env.token 0
  let db ← Outcome.require
    (db.insertRefreshToken
      (newRefreshToken pf env appId userId rawToken (sessionId.getD rawToken)))
    "failed to create refresh token"
  return (rawToken, db)

def issueLoginResponse (pf : Platform) (db : Db) (env : Env) (appId : String) (user : UserSummary) :
    Except String (LoginResponse × Db) := do
  let (refreshToken, db) ← issueRefreshToken pf db env appId user.id none
  return ({ accessToken := pf.createJwt
              { sub := user.id, appId := appId, exp := env.accessExpiresAt,
                isAdmin := user.isAdmin }
            refreshToken := refreshToken, tokenType := "Bearer"
            expiresAt := env.accessExpiresAt, user := user }, db)

theorem issueLoginResponse_frame {pf : Platform} {db db' : Db} {env : Env} {appId : String}
    {user : UserSummary} {response : LoginResponse}
    (h : issueLoginResponse pf db env appId user = .ok (response, db')) :
    ∃ tokens, db' = { db with refreshTokens := tokens } := by
  unfold issueLoginResponse at h
  obtain ⟨⟨refreshToken, db₁⟩, hissue, hreturn⟩ := Outcome.bind_eq_ok.mp h
  cases hreturn
  unfold issueRefreshToken at hissue
  obtain ⟨db₂, hrequire, hreturn⟩ := Outcome.bind_eq_ok.mp hissue
  cases hreturn
  obtain ⟨tokens, -, rfl⟩ := Db.insertRefreshToken_eq_some (Outcome.require_eq_ok.mp hrequire)
  exact ⟨tokens, rfl⟩

/-- `record_auth_event`, whose result every caller drops: the event belongs to a
    user, and its actor, if any, is one. -/
def recordAuthEvent (db : Db) (env : Env) (uuid appId userId : String)
    (actorUserId : Option String) (action : String) (metadata : Option Value) : Db :=
  if db.users.hasKey userId && db.userOrNull actorUserId then
    match db.authEvents.insert?
        { id := uuid, appId := appId, userId := userId, actorUserId := actorUserId,
          action := action, metadata := metadata, createdAt := env.now } with
    | some events => { db with authEvents := events }
    | none => db
  else db

theorem recordAuthEvent_frame (db : Db) (env : Env) (uuid appId userId : String)
    (actor : Option String) (action : String) (metadata : Option Value) :
    ∃ events, recordAuthEvent db env uuid appId userId actor action metadata =
      { db with authEvents := events } := by
  unfold recordAuthEvent
  split
  · split
    · exact ⟨_, rfl⟩
    · exact ⟨db.authEvents, rfl⟩
  · exact ⟨db.authEvents, rfl⟩

@[simp] theorem recordAuthEvent_refreshTokens (db : Db) (env : Env) (uuid appId userId : String)
    (actor : Option String) (action : String) (metadata : Option Value) :
    (recordAuthEvent db env uuid appId userId actor action metadata).refreshTokens =
      db.refreshTokens := by
  obtain ⟨events, hevents⟩ := recordAuthEvent_frame db env uuid appId userId actor action metadata
  rw [hevents]

@[simp] theorem recordAuthEvent_users (db : Db) (env : Env) (uuid appId userId : String)
    (actor : Option String) (action : String) (metadata : Option Value) :
    (recordAuthEvent db env uuid appId userId actor action metadata).users = db.users := by
  obtain ⟨events, hevents⟩ := recordAuthEvent_frame db env uuid appId userId actor action metadata
  rw [hevents]

/-- The metadata of events about a session. -/
def sessionMetadata (sessionId : String) : Value := .object [("session_id", .string sessionId)]

/-! ### Reading -/

/-- A token that is neither revoked nor expired. -/
def RefreshToken.activeAt (t : RefreshToken) (now : String) : Bool :=
  t.revokedAt.isNone && strLt now t.expiresAt

def loadActiveRefreshToken (pf : Platform) (db : Db) (now appId rawToken : String) :
    Option RefreshToken :=
  db.refreshTokens.selectOne fun t =>
    t.token == hashOpaqueToken pf rawToken && t.appId == appId && t.activeAt now

def loadUserById (db : Db) (appId userId : String) : Option User :=
  db.users.selectOne fun u => u.appId == appId && u.id == userId

def loadUserByEmail (pf : Platform) (db : Db) (appId email : String) : Option User :=
  db.users.selectOne fun u => u.appId == appId && u.email == pf.toLowercase (trim email)

/-! ### Rotating and revoking -/

/-- Mark the matching tokens as revoked. -/
def revokeTokens (db : Db) (env : Env) (p : RefreshToken → Bool) : Db :=
  { db with
    refreshTokens := db.refreshTokens.updateWhere p (fun t => { t with revokedAt := some env.now })
      (fun _ => rfl) }

def revokeRefreshTokenHash (db : Db) (env : Env) (tokenHash : String) : Db :=
  revokeTokens db env fun t => t.token == tokenHash

def revokeRefreshToken (pf : Platform) (db : Db) (env : Env) (rawToken : String) : Db :=
  revokeRefreshTokenHash db env (hashOpaqueToken pf rawToken)

def revokeAllRefreshTokensForUser (db : Db) (env : Env) (appId userId : String) : Db :=
  revokeTokens db env fun t => t.appId == appId && t.userId == userId && t.revokedAt.isNone

def sessionTokens (appId userId sessionId : String) (t : RefreshToken) : Bool :=
  t.appId == appId && t.userId == userId && t.sessionId == sessionId && t.revokedAt.isNone

/-- The number of rows affected and the database after. -/
def revokeSessionForUser (db : Db) (env : Env) (appId userId sessionId : String) : Nat × Db :=
  ((db.refreshTokens.select (sessionTokens appId userId sessionId)).length,
    revokeTokens db env (sessionTokens appId userId sessionId))

/-- The next token of the session; the old one is revoked and points to it. -/
def rotateRefreshToken (pf : Platform) (db : Db) (env : Env) (stored : RefreshToken) :
    Except String (String × Db) := do
  let nextToken := env.token 0
  let nextHash := hashOpaqueToken pf nextToken
  let db ← Outcome.require
    (db.insertRefreshToken
      (newRefreshToken pf env stored.appId stored.userId nextToken stored.sessionId))
    "failed to rotate refresh token"
  return (nextToken,
    { db with
      refreshTokens := db.refreshTokens.updateWhere (fun t => t.token == stored.token)
        (fun t => { t with revokedAt := some env.now, replacedByToken := some nextHash })
        (fun _ => rfl) })

end Peanut
