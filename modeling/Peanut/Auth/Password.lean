import Peanut.Auth.Users

/-!
# Changing and resetting passwords

`change_password` and `reset_password_for_app` of `api/auth/password.rs`, one SQL
statement at a time.  Each stage names what the next statement needs; what the
code computes between two statements (checking a password, hashing the new one)
belongs to the step before it.
-/

namespace Peanut

open Relational

theorem User.id_rehashed (passwordHash : String) (u : User) :
    ({ u with passwordHash := passwordHash } : User).id = u.id := rfl

/-- `UPDATE users SET password_hash = ? WHERE id = ?`. -/
def setPasswordHash (db : Db) (userId passwordHash : String) : Db :=
  { db with
    users := db.users.updateWhere (fun u => u.id == userId)
      (fun u => { u with passwordHash := passwordHash }) (User.id_rehashed passwordHash) }

/-! ### Changing a password -/

structure ChangePasswordRequest where
  currentPassword : String
  newPassword : String
deriving DecidableEq, Repr

inductive ChangePasswordStage where
  | received
  | verified (userId nextHash : String)
  | updated (userId : String)
  | revoked (userId : String)
  | completed (userId : String)
  | refused (error : ApiError)

structure ChangePasswordCall where
  claims : Claims
  payload : ChangePasswordRequest
  stage : ChangePasswordStage

/-- What the code does with the user it has read. -/
def verifyCurrentPassword (pf : Platform) (env : Env) (payload : ChangePasswordRequest)
    (user : User) : Except ApiError String := do
  Outcome.ensure (pf.verifyPassword payload.currentPassword user.passwordHash)
    (jsonError .unauthorized "current password is incorrect")
  hashPasswordOr500 pf env payload.newPassword

def changePasswordChecks (pf : Platform) (env : Env) (db : Db) (claims : Claims)
    (payload : ChangePasswordRequest) : Except ApiError (String × String) := do
  (validatePassword payload.newPassword).mapError (jsonError .badRequest)
  let user ← Outcome.require (loadUserById db claims.appId claims.sub)
    (jsonError .notFound "user not found")
  let nextHash ← verifyCurrentPassword pf env payload user
  return (user.id, nextHash)

namespace ChangePasswordCall

def step (pf : Platform) (env : Env) (db : Db) (c : ChangePasswordCall) :
    Db × ChangePasswordCall :=
  match c.stage with
  | .received =>
      match changePasswordChecks pf env db c.claims c.payload with
      | .error e => (db, { c with stage := .refused e })
      | .ok (userId, nextHash) => (db, { c with stage := .verified userId nextHash })
  | .verified userId nextHash =>
      (setPasswordHash db userId nextHash, { c with stage := .updated userId })
  | .updated userId =>
      (revokeAllRefreshTokensForUser db env c.claims.appId userId,
        { c with stage := .revoked userId })
  | .revoked userId =>
      (recordAuthEvent db env (env.uuid 0) c.claims.appId userId (some userId) "password_changed"
          none,
        { c with stage := .completed userId })
  | .completed _ => (db, c)
  | .refused _ => (db, c)

def reply (c : ChangePasswordCall) : Option (Except ApiError (Reply MessageResponse)) :=
  match c.stage with
  | .completed _ => some (.ok (jsonMessage .ok "password updated"))
  | .refused e => some (.error e)
  | _ => none

end ChangePasswordCall

/-! ### Resetting a password -/

structure ResetPasswordRequest where
  resetToken : String
  newPassword : String
deriving DecidableEq, Repr

inductive ResetPasswordStage where
  | received
  | loaded (record : PasswordResetToken) (nextHash : String)
  | passwordSet (record : PasswordResetToken)
  | consumed (record : PasswordResetToken)
  | revoked (record : PasswordResetToken)
  | completed (record : PasswordResetToken)
  | refused (error : ApiError)

structure ResetPasswordCall where
  appId : String
  payload : ResetPasswordRequest
  stage : ResetPasswordStage

def loadActivePasswordResetToken (pf : Platform) (db : Db) (now appId rawToken : String) :
    Option PasswordResetToken :=
  db.passwordResetTokens.selectOne fun t =>
    t.token == hashOpaqueToken pf rawToken && t.appId == appId && t.consumedAt.isNone &&
      strLt now t.expiresAt

theorem PasswordResetToken.token_consumed (now : String) (t : PasswordResetToken) :
    ({ t with consumedAt := some now } : PasswordResetToken).token = t.token := rfl

/-- `UPDATE password_reset_tokens SET consumed_at = … WHERE token = ?`. -/
def consumePasswordResetTokenHash (db : Db) (env : Env) (tokenHash : String) : Db :=
  { db with
    passwordResetTokens := db.passwordResetTokens.updateWhere (fun t => t.token == tokenHash)
      (fun t => { t with consumedAt := some env.now })
      (PasswordResetToken.token_consumed env.now) }

def resetPasswordChecks (pf : Platform) (env : Env) (db : Db) (appId : String)
    (payload : ResetPasswordRequest) : Except ApiError (PasswordResetToken × String) := do
  (validatePassword payload.newPassword).mapError (jsonError .badRequest)
  let record ← Outcome.require (loadActivePasswordResetToken pf db env.now appId payload.resetToken)
    (jsonError .unauthorized "valid reset token is required")
  let nextHash ← hashPasswordOr500 pf env payload.newPassword
  return (record, nextHash)

namespace ResetPasswordCall

def step (pf : Platform) (env : Env) (db : Db) (c : ResetPasswordCall) : Db × ResetPasswordCall :=
  match c.stage with
  | .received =>
      match resetPasswordChecks pf env db c.appId c.payload with
      | .error e => (db, { c with stage := .refused e })
      | .ok (record, nextHash) => (db, { c with stage := .loaded record nextHash })
  | .loaded record nextHash =>
      (setPasswordHash db record.userId nextHash, { c with stage := .passwordSet record })
  | .passwordSet record =>
      (consumePasswordResetTokenHash db env record.token, { c with stage := .consumed record })
  | .consumed record =>
      (revokeAllRefreshTokensForUser db env record.appId record.userId,
        { c with stage := .revoked record })
  | .revoked record =>
      (recordAuthEvent db env (env.uuid 0) record.appId record.userId (some record.userId)
          "password_reset_completed" none,
        { c with stage := .completed record })
  | .completed _ => (db, c)
  | .refused _ => (db, c)

def reply (c : ResetPasswordCall) : Option (Except ApiError (Reply MessageResponse)) :=
  match c.stage with
  | .completed _ => some (.ok (jsonMessage .ok "password reset complete"))
  | .refused e => some (.error e)
  | _ => none

end ResetPasswordCall

end Peanut
