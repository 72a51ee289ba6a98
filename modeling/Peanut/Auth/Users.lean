import Peanut.Auth.Tokens
import Peanut.Data.Core
import Peanut.Workspaces.Usage

/-!
# User accounts

The requests that create and delete users: registration on an app, the
bootstrap of the first administrator, and the user administration of
`api/auth/admin_users.rs`.
-/

namespace Peanut

open Relational

/-! ### Credentials -/

def MIN_PASSWORD_LENGTH : Nat := 8

def validateEmail (email : String) : Except String Unit := do
  let email := trim email
  Outcome.ensure (email != "") "email is required"
  Outcome.ensure (!email.toList.any isWhitespace) "email must not contain spaces"
  let parts := splitAt '@' email
  let localPart := parts.getD 0 ""
  let domain := parts.getD 1 ""
  Outcome.ensure (!(localPart == "" || domain == "" || parts.length > 2))
    "email must be a valid address"
  Outcome.ensure
    (domain.toList.contains '.' && domain.toList.head? != some '.' &&
      domain.toList.getLast? != some '.')
    "email must be a valid address"

def validatePassword (password : String) : Except String Unit :=
  Outcome.ensure (len password ≥ MIN_PASSWORD_LENGTH) "password must be at least 8 characters"

def validateCredentials (email password : String) : Except String Unit := do
  validateEmail email
  validatePassword password

def badCredentials (email password : String) : Except ApiError Unit :=
  (validateCredentials email password).mapError (jsonError .badRequest)

def hashPasswordOr500 (pf : Platform) (env : Env) (password : String) : Except ApiError String :=
  Outcome.require (pf.hashPassword password env.salt)
    (jsonError .internalServerError "failed to hash password")

def requireAppWorkspace (db : Db) (appId : String) : Except ApiError String :=
  Outcome.require (appWorkspaceId db appId) (jsonError .notFound "app not found")

structure Credentials where
  email : String
  password : String
deriving DecidableEq, Repr

/-! ### Registration -/

structure RegisterResponse where
  message : String
  user : UserSummary
deriving DecidableEq, Repr

/-- The first user of an app becomes its administrator, on every app. -/
def isFirstUser (db : Db) (appId : String) : Bool := (db.users.select (·.appId == appId)).isEmpty

/-- The row `register_for_app` inserts. -/
def registeredUser (pf : Platform) (db : Db) (env : Env) (appId : String) (payload : Credentials)
    (passwordHash : String) : User :=
  let isAdmin := isFirstUser db appId
  { id := env.uuid 0, appId := appId, email := pf.toLowercase (trim payload.email),
    passwordHash := passwordHash, isActive := isAdmin, isAdmin := isAdmin,
    adminRole := if isAdmin then .owner else .viewer, createdAt := env.now }

/-- The checks of `register_for_app`; the result is the workspace charged and
    the password hash. -/
def registerChecks (pf : Platform) (db : Db) (env : Env) (appId : String) (payload : Credentials) :
    Except ApiError (String × String) := do
  badCredentials payload.email payload.password
  let passwordHash ← hashPasswordOr500 pf env payload.password
  let workspaceId ← requireAppWorkspace db appId
  requireResourceLimitAvailable db env workspaceId .appUsers 1
  return (workspaceId, passwordHash)

def registerForApp (pf : Platform) (db : Db) (env : Env) (appId : String) (payload : Credentials) :
    Db × Except ApiError (Reply RegisterResponse) :=
  Outcome.proceed db (registerChecks pf db env appId payload) fun (workspaceId, passwordHash) =>
    let user := registeredUser pf db env appId payload passwordHash
    match db.insertUser user with
    | none => (db, .error (jsonError .conflict "email already exists"))
    | some db =>
        let db := recordUsage db env workspaceId .appUsers 1
        let db := recordAuthEvent db env (env.uuid 1) appId user.id (some user.id)
          "user_registered" none
        (db, .ok { status := .created
                   body := { message := if user.isAdmin
                     then "First user registered as active admin."
                               else "User registered. Wait for admin approval."
                             user := user.summary } })

/-! ### The first administrator -/

/-- `INSERT OR IGNORE INTO apps`: the default app exists afterwards. -/
def ensureDefaultApp (db : Db) (env : Env) : Db :=
  if db.apps.rows.any fun a => a.name == DEFAULT_APP_ID then db
  else
    match db.apps.insert?
        { id := DEFAULT_APP_ID, name := DEFAULT_APP_ID, displayName := "Default App",
          workspaceId := "default", createdBy := none, createdAt := env.now, updatedAt := env.now,
          deletedAt := none } with
    | some apps => { db with apps := apps }
    | none => db

@[simp] theorem ensureDefaultApp_users (db : Db) (env : Env) :
    (ensureDefaultApp db env).users = db.users := by
  unfold ensureDefaultApp
  split
  · rfl
  · split
    · rfl
    · rfl

def bootstrapAdmin (pf : Platform) (db : Db) (env : Env) (payload : Credentials) :
    Db × Except ApiError (Reply LoginResponse) :=
  Outcome.proceed db
    (do
      badCredentials payload.email payload.password
      Outcome.ensure (db.users.select (·.isAdmin)).isEmpty
        (jsonError .conflict "admin already exists"))
    fun _ =>
      let db := ensureDefaultApp db env
      Outcome.proceed db (hashPasswordOr500 pf env payload.password) fun passwordHash =>
        let user : User :=
          { id := env.uuid 0, appId := DEFAULT_APP_ID, email := pf.toLowercase (trim payload.email),
            passwordHash := passwordHash, isActive := true, isAdmin := true, adminRole := .owner,
            createdAt := env.now }
        match db.insertUser user with
        | none => (db, .error (jsonError .conflict "admin user could not be bootstrapped"))
        | some db =>
            match issueLoginResponse pf db env DEFAULT_APP_ID user.summary with
            | .error message => (db, .error (jsonError .internalServerError message))
            | .ok (response, db) =>
                (recordAuthEvent db env (env.uuid 1) DEFAULT_APP_ID user.id (some user.id)
                    "admin_bootstrapped" none,
                  .ok { status := .created, body := response })

/-! ### User administration -/

/-- Claims that act on an app: an administrator of the app itself or of the
    default app. -/
def adminClaimsForApp (claims : Claims) (appId : String) : Except ApiError Claims := do
  Outcome.ensure claims.isAdmin (jsonError .forbidden "admin access required")
  Outcome.ensure (claims.appId == appId || claims.appId == DEFAULT_APP_ID)
    (jsonError .forbidden "bearer token does not belong to this app")
  return { claims with appId := appId }

structure CreateAdminUserRequest where
  email : String
  password : String
  isActive : Bool := true
  isAdmin : Bool := false
  adminRole : Option String := none
deriving DecidableEq, Repr

def Role.ofText (text : String) : Role :=
  match text with
  | "owner" => .owner
  | "developer" => .developer
  | "operator" => .operator
  | "viewer" => .viewer
  | other => .unknown other

def Role.isKnown : Role → Bool
  | .unknown _ => false
  | _ => true

/-- The role of a new user: the one asked for, else one that fits the flag. -/
def requestedAdminRole (payload : CreateAdminUserRequest) : Role :=
  match (payload.adminRole.map trim).filter (· != "") with
  | some text => .ofText text
  | none => if payload.isAdmin then .developer else .viewer

def createAdminUserChecks (pf : Platform) (db : Db) (env : Env) (claims : Claims) (appId : String)
    (payload : CreateAdminUserRequest) : Except ApiError (Claims × String × String) := do
  let claims ← adminClaimsForApp claims appId
  badCredentials payload.email payload.password
  Outcome.ensure (requestedAdminRole payload).isKnown
    (jsonError .badRequest "admin_role is invalid")
  let workspaceId ← requireAppWorkspace db claims.appId
  requireResourceLimitAvailable db env workspaceId .appUsers 1
  let passwordHash ← hashPasswordOr500 pf env payload.password
  return (claims, workspaceId, passwordHash)

def createAdminUser (pf : Platform) (db : Db) (env : Env) (claims : Claims) (appId : String)
    (payload : CreateAdminUserRequest) : Db × Except ApiError (Reply UserSummary) :=
  Outcome.proceed db (createAdminUserChecks pf db env claims appId payload)
    fun (claims, workspaceId, passwordHash) =>
      let user : User :=
        { id := env.uuid 0, appId := claims.appId, email := pf.toLowercase (trim payload.email),
          passwordHash := passwordHash, isActive := payload.isActive, isAdmin := payload.isAdmin,
          adminRole := requestedAdminRole payload, createdAt := env.now }
      match db.insertUser user with
      | none => (db, .error (jsonError .conflict "email already exists"))
      | some db =>
          let db := recordUsage db env workspaceId .appUsers 1
          let db := recordAuthEvent db env (env.uuid 1) claims.appId user.id (some claims.sub)
            "auth.user.created" (some (.object [("email", .string user.email)]))
          (db, .ok { status := .created, body := user.summary })

def deleteAdminUserChecks (db : Db) (claims : Claims) (appId userId : String) :
    Except ApiError (Claims × User) := do
  let claims ← adminClaimsForApp claims appId
  Outcome.ensure (claims.sub != userId)
    (jsonError .badRequest "current user cannot be deleted")
  let user ← Outcome.require (loadUserById db claims.appId userId)
    (jsonError .notFound "auth user not found")
  return (claims, user)

/-- One transaction deletes the user's tokens and then the user; it is dropped
    as a whole when a restricting reference remains. -/
def deleteAdminUser (db : Db) (env : Env) (claims : Claims) (appId userId : String) :
    Db × Except ApiError (Reply Unit) :=
  Outcome.proceed db (deleteAdminUserChecks db claims appId userId) fun (claims, user) =>
    let cleaned : Db :=
      { db with
        refreshTokens := db.refreshTokens.deleteWhere
          fun t => t.appId == claims.appId && t.userId == userId }
    match cleaned.deleteUser claims.appId userId with
    | none =>
        (db, .error (jsonError .conflict "auth user still owns resources and cannot be deleted"))
    | some (0, _) => (db, .error (jsonError .notFound "auth user not found"))
    | some (_, db) =>
        (recordAuthEvent db env (env.uuid 0) claims.appId claims.sub (some claims.sub)
            "auth.user.deleted"
            (some (.object [("deleted_user_id", .string user.id), ("email", .string user.email)])),
          .ok { status := .noContent, body := () })

/-! ### Every request is a sequence of steps of the data plane -/

@[simp] theorem recordAuthEvent_core (db : Db) (env : Env) (uuid appId userId : String)
    (actor : Option String) (action : String) (metadata : Option Value) :
    (recordAuthEvent db env uuid appId userId actor action metadata).core = db.core := by
  unfold recordAuthEvent
  split
  · split <;> rfl
  · rfl

theorem insertUser_step (pf : Platform) {db db' : Db} {u : User} (h : db.insertUser u = some db') :
    DataStep pf db.core db'.core := by
  obtain ⟨users, hins, rfl⟩ := Db.insertUser_eq_some h
  exact .insertUser hins

theorem registerForApp_steps (pf : Platform) (db : Db) (env : Env) (appId : String)
    (payload : Credentials) :
    DataSteps pf db.core (registerForApp pf db env appId payload).1.core := by
  unfold registerForApp
  refine Outcome.proceed_rule (P := fun s : Db => DataSteps pf db.core s.core) .refl ?_
  rintro ⟨workspaceId, passwordHash⟩ _
  dsimp only
  split
  · exact .refl
  · rename_i db' hinsert
    rw [recordAuthEvent_core, recordUsage_core]
    exact .single (insertUser_step pf hinsert)

theorem createAdminUser_steps (pf : Platform) (db : Db) (env : Env) (claims : Claims)
    (appId : String) (payload : CreateAdminUserRequest) :
    DataSteps pf db.core (createAdminUser pf db env claims appId payload).1.core := by
  unfold createAdminUser
  refine Outcome.proceed_rule (P := fun s : Db => DataSteps pf db.core s.core) .refl ?_
  rintro ⟨claims', workspaceId, passwordHash⟩ _
  dsimp only
  split
  · exact .refl
  · rename_i db' hinsert
    rw [recordAuthEvent_core, recordUsage_core]
    exact .single (insertUser_step pf hinsert)

theorem deleteUser_core {db db' : Db} {appId userId : String} {n : Nat}
    (h : db.deleteUser appId userId = some (n + 1, db')) :
    db'.core = db.core.deleteUser userId := by
  unfold Db.deleteUser at h
  split at h
  · cases h
  · split at h
    · cases h
    · cases h
      rfl

theorem deleteAdminUser_steps (pf : Platform) (db : Db) (env : Env) (claims : Claims)
    (appId userId : String) :
    DataSteps pf db.core (deleteAdminUser db env claims appId userId).1.core := by
  unfold deleteAdminUser
  refine Outcome.proceed_rule (P := fun s : Db => DataSteps pf db.core s.core) .refl ?_
  rintro ⟨claims', user⟩ _
  dsimp only
  split
  · exact .refl
  · exact .refl
  · rename_i n db' hne hdelete
    rw [recordAuthEvent_core]
    cases n with
    | zero => exact (hne rfl).elim
    | succ n =>
      rw [deleteUser_core hdelete]
      exact .single (.deleteUser userId)

end Peanut
