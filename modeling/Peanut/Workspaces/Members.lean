import Peanut.Auth.Users

/-!
# Workspace membership

The role check of `api/workspaces.rs`, the requests that create memberships, and
the instance-wide role update of `api/admin.rs`.
-/

namespace Peanut

open Relational

/-! ### Roles -/

def Role.text : Role → String
  | .owner => "owner"
  | .developer => "developer"
  | .operator => "operator"
  | .viewer => "viewer"
  | .unknown text => text

def roleLevel : Role → Int
  | .owner => 30
  | .developer => 20
  | .operator => 10
  | .viewer => 0
  | .unknown _ => -1

def roleAllows (actual required : Role) : Bool := decide (roleLevel required ≤ roleLevel actual)

/-- `SELECT admin_role FROM users WHERE id = ? AND is_admin = TRUE`: the app of
    the user plays no part. -/
def loadInstanceAdminRole (db : Db) (userId : String) : Option Role :=
  (db.users.selectOne fun u => u.id == userId && u.isAdmin).map (·.adminRole)

def loadWorkspaceRole (db : Db) (workspaceId userId : String) : Option Role :=
  (db.workspaceMembers.selectOne fun m => m.workspaceId == workspaceId && m.userId == userId).map
    (·.role)

def workspaceRoleError (workspaceId : String) (requiredRole : Role) : ApiError :=
  { status := .forbidden, code := "workspace_role_required", error := "workspace role required"
    details := [("workspace_id", .string workspaceId),
      ("required_role", .string requiredRole.text)] }

def requireWorkspaceRole (db : Db) (claims : Claims) (workspaceId : String)
    (requiredRole : Role) : Except ApiError Unit :=
  let instanceRole := if claims.isAdmin then loadInstanceAdminRole db claims.sub else none
  if instanceRole.any (roleAllows · requiredRole) then .ok ()
  else
    Outcome.ensure ((loadWorkspaceRole db workspaceId claims.sub).any (roleAllows · requiredRole))
      (workspaceRoleError workspaceId requiredRole)

/-! ### Memberships -/

/-- `INSERT … ON CONFLICT(workspace_id, user_id) DO UPDATE SET role = …`. -/
def upsertWorkspaceMember (db : Db) (env : Env) (workspaceId userId : String) (role : Role) :
    Option Db :=
  if db.workspaces.hasKey workspaceId && db.users.hasKey userId then
    if db.workspaceMembers.hasKey (workspaceId, userId) then
      some { db with
        workspaceMembers := db.workspaceMembers.updateWhere
          (fun m => m.workspaceId == workspaceId && m.userId == userId)
          (fun m => { m with role := role, updatedAt := env.now }) (fun _ => rfl) }
    else
      (db.workspaceMembers.insert?
        { workspaceId := workspaceId, userId := userId, role := role, createdAt := env.now,
          updatedAt := env.now }).map fun members => { db with workspaceMembers := members }
  else none

/-! ### Setup invites -/

structure CreateWorkspaceInviteRequest where
  label : String
  email : Option String := none
  domain : Option String := none
  maxUses : Option Int := none
  expiresInDays : Option Int := none
deriving DecidableEq, Repr

structure CreateWorkspaceInviteResponse where
  invite : WorkspaceSetupInvite
  inviteCode : String
deriving DecidableEq, Repr

def createInviteChecks (claims : Claims) (payload : CreateWorkspaceInviteRequest) :
    Except ApiError Unit := do
  Outcome.ensure claims.isAdmin (jsonError .forbidden "admin access required")
  let label := trim payload.label
  Outcome.ensure (!(label == "" || len label > 120))
    (jsonError .badRequest "label is required and must fit 120 chars")
  let maxUses := payload.maxUses.getD 1
  Outcome.ensure (decide (1 ≤ maxUses) && decide (maxUses ≤ 10000))
    (jsonError .badRequest "max_uses must be between 1 and 10000")
  Outcome.ensure (payload.expiresInDays.all fun days => decide (1 ≤ days) && decide (days ≤ 3650))
    (jsonError .badRequest "expires_in_days must be between 1 and 3650")

/-- `INSERT INTO workspace_setup_invites`: the code is unique and the creator is
    a user. -/
def Db.insertWorkspaceSetupInvite (db : Db) (invite : WorkspaceSetupInvite) : Option Db :=
  if !(db.workspaceSetupInvites.rows.any fun i => i.codeHash == invite.codeHash) &&
      db.users.hasKey invite.createdBy then
    (db.workspaceSetupInvites.insert? invite).map fun invites =>
      { db with workspaceSetupInvites := invites }
  else none

def createWorkspaceSetupInvite (pf : Platform) (db : Db) (env : Env) (claims : Claims)
    (payload : CreateWorkspaceInviteRequest) :
    Db × Except ApiError (Reply CreateWorkspaceInviteResponse) :=
  Outcome.proceed db (createInviteChecks claims payload) fun _ =>
    let code := "pbi_" ++ env.token 0
    let invite : WorkspaceSetupInvite :=
      { id := env.uuid 0, label := trim payload.label, codeHash := hashOpaqueToken pf code,
        email := payload.email.map fun e => pf.toLowercase (trim e),
        domain := payload.domain.map fun d => pf.toLowercase (trim d),
        maxUses := payload.maxUses.getD 1, usedCount := 0,
        expiresAt := payload.expiresInDays.map env.daysFromNow, createdBy := claims.sub,
        createdAt := env.now, revokedAt := none }
    match db.insertWorkspaceSetupInvite invite with
    | none => (db, .error (jsonError .internalServerError "failed to create workspace invite"))
    | some db =>
        (db.recordAuditLog env (env.uuid 1) none claims "workspace_setup_invite.created"
            "workspace_setup_invite" invite.id (.object [("label", .string invite.label)]),
          .ok { status := .created, body := { invite := invite, inviteCode := code } })

/-- Revoked, used up or expired invites are not usable. -/
def WorkspaceSetupInvite.usable (i : WorkspaceSetupInvite) (now : String) : Bool :=
  i.revokedAt.isNone && decide (i.usedCount < i.maxUses) &&
    i.expiresAt.all fun expiresAt => strLt now expiresAt

def loadValidInvite (pf : Platform) (db : Db) (env : Env) (code email : String) :
    Option WorkspaceSetupInvite := do
  let invite ← db.workspaceSetupInvites.selectOne fun i =>
    i.codeHash == hashOpaqueToken pf (trim code) && i.usable env.now
  let normalizedEmail := pf.toLowercase (trim email)
  if invite.email.any (· != normalizedEmail) then none
  else if invite.domain.any fun domain =>
    !(('@' :: domain.toList).isSuffixOf normalizedEmail.toList)
    then none
  else some invite

/-- One character of the slug; a run of other characters becomes one dash. -/
def slugStep (state : List Char × Bool) (ch : Char) : List Char × Bool :=
  if isAsciiLowercase ch || isAsciiUppercase ch || isAsciiDigit ch then (state.1 ++ [ch], false)
  else if !state.2 then (state.1 ++ ['-'], true)
  else state

def trimMatches (c : Char) (cs : List Char) : List Char :=
  ((cs.dropWhile (· == c)).reverse.dropWhile (· == c)).reverse

def normalizeSlug (value : String) : Except String String := do
  let chars := ((trim value).toList.map asciiToLower).foldl slugStep ([], false)
  let slug := String.ofList (trimMatches '-' chars.1)
  Outcome.ensure (slug != "") "workspace_name is required"
  Outcome.ensure (decide (len slug ≤ 80)) "workspace_name must be 80 chars or fewer"
  return slug

structure AcceptWorkspaceInviteRequest where
  inviteCode : String
  workspaceName : String
  email : String
  password : String
deriving DecidableEq, Repr

structure AcceptWorkspaceInviteResponse where
  login : LoginResponse
  workspace : Workspace
  membership : WorkspaceMember
deriving DecidableEq, Repr

/-- The checks before the transaction; the result is the invite, the name of the
    workspace and the password hash. -/
def acceptInviteChecks (pf : Platform) (db : Db) (env : Env)
    (payload : AcceptWorkspaceInviteRequest) :
    Except ApiError (WorkspaceSetupInvite × String × String) := do
  badCredentials payload.email payload.password
  let invite ← Outcome.require (loadValidInvite pf db env payload.inviteCode payload.email)
    (jsonErrorWithCode .badRequest "invite_invalid" "valid workspace invite is required")
  let workspaceName ← (normalizeSlug payload.workspaceName).mapError (jsonError .badRequest)
  let passwordHash ← hashPasswordOr500 pf env payload.password
  return (invite, workspaceName, passwordHash)

/-- `UPDATE workspace_setup_invites SET used_count = used_count + 1 WHERE id = ?
    AND revoked_at IS NULL AND used_count < max_uses`, one row expected. -/
def Db.useInvite (db : Db) (inviteId : String) : Option Db :=
  let usable (i : WorkspaceSetupInvite) : Bool :=
    i.id == inviteId && i.revokedAt.isNone && decide (i.usedCount < i.maxUses)
  if (db.workspaceSetupInvites.select usable).length = 1 then
    some { db with
      workspaceSetupInvites := db.workspaceSetupInvites.updateWhere usable
        (fun i => { i with usedCount := i.usedCount + 1 }) (fun _ => rfl) }
  else none

/-- `INSERT INTO workspaces`: the name is unique and the creator, if any, a user. -/
def Db.insertWorkspace (db : Db) (w : Workspace) : Option Db :=
  if !(db.workspaces.rows.any fun v => v.name == w.name) && db.userOrNull w.createdBy then
    (db.workspaces.insert? w).map fun workspaces => { db with workspaces := workspaces }
  else none

/-- `INSERT INTO workspace_members`. -/
def Db.insertWorkspaceMember (db : Db) (m : WorkspaceMember) : Option Db :=
  if db.workspaces.hasKey m.workspaceId && db.users.hasKey m.userId then
    (db.workspaceMembers.insert? m).map fun members => { db with workspaceMembers := members }
  else none

/-- The statements of the signup transaction; an error drops them all. -/
def signup (db : Db) (inviteId : String) (user : User) (workspace : Workspace)
    (membership : WorkspaceMember) : Except ApiError Db := do
  let db ← Outcome.require (db.useInvite inviteId)
    (jsonErrorWithCode .badRequest "invite_invalid" "valid workspace invite is required")
  let db ← Outcome.require (db.insertUser user) (jsonError .conflict "user already exists")
  let db ← Outcome.require (db.insertWorkspace workspace)
    (jsonError .conflict "workspace name already exists")
  Outcome.require (db.insertWorkspaceMember membership)
    (jsonError .internalServerError "failed to create membership")

def acceptWorkspaceInvite (pf : Platform) (db : Db) (env : Env)
    (payload : AcceptWorkspaceInviteRequest) :
    Db × Except ApiError (Reply AcceptWorkspaceInviteResponse) :=
  Outcome.proceed db (acceptInviteChecks pf db env payload)
    fun (invite, workspaceName, passwordHash) =>
      let user : User :=
        { id := env.uuid 0, appId := DEFAULT_APP_ID, email := pf.toLowercase (trim payload.email),
          passwordHash := passwordHash, isActive := true, isAdmin := false, adminRole := .viewer,
          createdAt := env.now }
      let workspace : Workspace :=
        { id := env.uuid 1, name := workspaceName, displayName := trim payload.workspaceName,
          createdBy := some user.id, createdAt := env.now, updatedAt := env.now }
      let membership : WorkspaceMember :=
        { workspaceId := workspace.id, userId := user.id, role := .owner, createdAt := env.now,
          updatedAt := env.now }
      Outcome.proceed db (signup db invite.id user workspace membership) fun db =>
        match issueLoginResponse pf db env DEFAULT_APP_ID user.summary with
        | .error message => (db, .error (jsonError .internalServerError message))
        | .ok (login, db) =>
            (db, .ok { status := .created
                       body := { login := login, workspace := workspace,
                                 membership := membership } })

/-! ### Instance roles -/

def requireOwner (db : Db) (claims : Claims) : Except ApiError Unit := do
  Outcome.ensure claims.isAdmin (jsonError .forbidden "admin access required")
  let role ← Outcome.require (loadInstanceAdminRole db claims.sub)
    (jsonError .unauthorized "admin user not found")
  Outcome.ensure (role == .owner) (jsonError .forbidden "admin role does not have required access")

def normalizeAdminRole (value : String) : Except String Role := do
  let role := Role.ofText (trim value)
  Outcome.ensure role.isKnown "admin_role must be owner, developer, operator, or viewer"
  return role

def ownerCount (db : Db) : Nat :=
  (db.users.select fun u => u.isAdmin && u.adminRole == .owner).length

def updateAdminRoleChecks (db : Db) (claims : Claims) (userId adminRole : String) :
    Except ApiError Role := do
  requireOwner db claims
  let role ← (normalizeAdminRole adminRole).mapError (jsonError .badRequest)
  Outcome.ensure (!(claims.sub == userId && role != .owner && decide (ownerCount db ≤ 1)))
    (jsonError .badRequest "last owner cannot be demoted")
  return role

/-- `UPDATE users SET is_admin = TRUE, admin_role = ? WHERE id = ?`: any user of
    any app. -/
def updateAdminRole (db : Db) (env : Env) (claims : Claims) (userId adminRole : String) :
    Db × Except ApiError (Reply MessageResponse) :=
  Outcome.proceed db (updateAdminRoleChecks db claims userId adminRole) fun role =>
    if db.users.hasKey userId then
      let db : Db :=
        { db with
          users := db.users.updateWhere (fun u => u.id == userId)
            (fun u => { u with isAdmin := true, adminRole := role }) (fun _ => rfl) }
      (db.recordAuditLog env (env.uuid 0) (some claims.appId) claims "admin.role.updated" "user"
          userId (.object [("admin_role", .string role.text)]),
        .ok (jsonMessage .ok "admin role updated"))
    else (db, .error (jsonError .notFound "user not found"))

end Peanut
