import Peanut.Auth.Users
import Peanut.Library.Interleaving

/-!
# Signing up, one statement at a time

`register_for_app` and `bootstrap_admin` as the statements they execute.  Each
counts first and inserts later; between the two lie the hash of the password and
the statements of the resource limit.
-/

namespace Peanut

open Relational Interleaving

/-! ### Registration -/

/-- The row `register_for_app` inserts, given what it counted. -/
def signedUpUser (pf : Platform) (env : Env) (appId : String) (payload : Credentials)
    (passwordHash : String) (isAdmin : Bool) : User :=
  { id := env.uuid 0, appId := appId, email := pf.toLowercase (trim payload.email),
    passwordHash := passwordHash, isActive := isAdmin, isAdmin := isAdmin,
    adminRole := if isAdmin then .owner else .viewer, createdAt := env.now }

def registerResponse (user : User) : RegisterResponse :=
  { message := if user.isAdmin then "First user registered as active admin."
      else "User registered. Wait for admin approval."
    user := user.summary }

inductive RegisterStage where
  | received
  | counted (passwordHash : String) (isAdmin : Bool)
  | workspaceFound (passwordHash : String) (isAdmin : Bool) (workspaceId : String)
  | measured (passwordHash : String) (isAdmin : Bool) (workspaceId : String) (used : Int)
  | checked (passwordHash : String) (isAdmin : Bool) (workspaceId : String)
  | inserted (workspaceId : String) (user : User)
  | usageRecorded (user : User)
  | completed (user : User)
  | refused (error : ApiError)

structure RegisterCall where
  appId : String
  payload : Credentials
  stage : RegisterStage

/-- What happens before the first statement. -/
def registerHash (pf : Platform) (env : Env) (payload : Credentials) : Except ApiError String := do
  badCredentials payload.email payload.password
  hashPasswordOr500 pf env payload.password

namespace RegisterCall

def step (pf : Platform) (env : Env) (db : Db) (c : RegisterCall) : Db × RegisterCall :=
  match c.stage with
  | .received =>
      match registerHash pf env c.payload with
      | .error e => (db, { c with stage := .refused e })
      | .ok passwordHash =>
          (db, { c with stage := .counted passwordHash (isFirstUser db c.appId) })
  | .counted passwordHash isAdmin =>
      match appWorkspaceId db c.appId with
      | none => (db, { c with stage := .refused (jsonError .notFound "app not found") })
      | some workspaceId =>
          (db, { c with stage := .workspaceFound passwordHash isAdmin workspaceId })
  | .workspaceFound passwordHash isAdmin workspaceId =>
      let used := usedResource db env workspaceId .appUsers
      (db, { c with stage := .measured passwordHash isAdmin workspaceId used })
  | .measured passwordHash isAdmin workspaceId used =>
      match requireWithinLimit db env workspaceId .appUsers used 1 with
      | .error e => (db, { c with stage := .refused e })
      | .ok () => (db, { c with stage := .checked passwordHash isAdmin workspaceId })
  | .checked passwordHash isAdmin workspaceId =>
      let user := signedUpUser pf env c.appId c.payload passwordHash isAdmin
      match db.insertUser user with
      | none => (db, { c with stage := .refused (jsonError .conflict "email already exists") })
      | some db => (db, { c with stage := .inserted workspaceId user })
  | .inserted workspaceId user =>
      (recordUsage db env workspaceId .appUsers 1, { c with stage := .usageRecorded user })
  | .usageRecorded user =>
      (recordAuthEvent db env (env.uuid 1) c.appId user.id (some user.id) "user_registered" none,
        { c with stage := .completed user })
  | .completed _ => (db, c)
  | .refused _ => (db, c)

def reply (c : RegisterCall) : Option (Except ApiError (Reply RegisterResponse)) :=
  match c.stage with
  | .completed user => some (.ok { status := .created, body := registerResponse user })
  | .refused e => some (.error e)
  | _ => none

end RegisterCall

/-- On its own, the machine computes `registerForApp`. -/
theorem registerForApp_alone (pf : Platform) (env : Env) (db : Db) (appId : String)
    (payload : Credentials) :
    (alone (RegisterCall.step pf) env 7 db ⟨appId, payload, .received⟩).1 =
        (registerForApp pf db env appId payload).1 ∧
      (alone (RegisterCall.step pf) env 7 db ⟨appId, payload, .received⟩).2.reply =
        some (registerForApp pf db env appId payload).2 := by
  unfold registerForApp registerChecks requireAppWorkspace
  cases hcredentials : badCredentials payload.email payload.password with
  | error e => simp [alone, RegisterCall.step, RegisterCall.reply, registerHash, hcredentials]
  | ok u =>
    cases hhash : hashPasswordOr500 pf env payload.password with
    | error e =>
      simp [alone, RegisterCall.step, RegisterCall.reply, registerHash, hcredentials, hhash]
    | ok passwordHash =>
      have hstart : registerHash pf env payload = .ok passwordHash := by
        simp [registerHash, hcredentials, hhash]
      cases hworkspace : appWorkspaceId db appId with
      | none => simp [alone, RegisterCall.step, RegisterCall.reply, hstart, hworkspace]
      | some workspaceId =>
        simp only [Outcome.require_some, Outcome.ok_bind]
        rw [← requireWithinLimit_usedResource]
        cases hlimit : requireWithinLimit db env workspaceId .appUsers
            (usedResource db env workspaceId .appUsers) 1 with
        | error e => simp [alone, RegisterCall.step, RegisterCall.reply, hstart, hworkspace, hlimit]
        | ok u =>
          have hrow : registeredUser pf db env appId payload passwordHash =
              signedUpUser pf env appId payload passwordHash (isFirstUser db appId) := rfl
          cases hinsert : db.insertUser
              (signedUpUser pf env appId payload passwordHash (isFirstUser db appId)) with
          | none =>
            simp [alone, RegisterCall.step, RegisterCall.reply, hstart, hworkspace, hlimit, hrow,
              hinsert, pure, Except.pure]
          | some db' =>
            simp [alone, RegisterCall.step, RegisterCall.reply, hstart, hworkspace, hlimit, hrow,
              hinsert, registerResponse, pure, Except.pure]

/-! ### The first administrator -/

/-- The row `bootstrap_admin` inserts. -/
def bootstrappedUser (pf : Platform) (env : Env) (payload : Credentials) (passwordHash : String) :
    User :=
  { id := env.uuid 0, appId := DEFAULT_APP_ID, email := pf.toLowercase (trim payload.email),
    passwordHash := passwordHash, isActive := true, isAdmin := true, adminRole := .owner,
    createdAt := env.now }

inductive BootstrapStage where
  | received
  | unclaimed
  | appEnsured
  | inserted (user : User)
  | issued (user : User) (response : LoginResponse)
  | completed (user : User) (response : LoginResponse)
  | refused (error : ApiError)

structure BootstrapCall where
  payload : Credentials
  stage : BootstrapStage

/-- The first statement: no user is an administrator. -/
def bootstrapChecks (db : Db) (payload : Credentials) : Except ApiError Unit := do
  badCredentials payload.email payload.password
  Outcome.ensure (db.users.select (·.isAdmin)).isEmpty (jsonError .conflict "admin already exists")

namespace BootstrapCall

def step (pf : Platform) (env : Env) (db : Db) (c : BootstrapCall) : Db × BootstrapCall :=
  match c.stage with
  | .received =>
      match bootstrapChecks db c.payload with
      | .error e => (db, { c with stage := .refused e })
      | .ok () => (db, { c with stage := .unclaimed })
  | .unclaimed => (ensureDefaultApp db env, { c with stage := .appEnsured })
  | .appEnsured =>
      match hashPasswordOr500 pf env c.payload.password with
      | .error e => (db, { c with stage := .refused e })
      | .ok passwordHash =>
          let user := bootstrappedUser pf env c.payload passwordHash
          match db.insertUser user with
          | none =>
              (db, { c with
                stage := .refused (jsonError .conflict "admin user could not be bootstrapped") })
          | some db => (db, { c with stage := .inserted user })
  | .inserted user =>
      match issueLoginResponse pf db env DEFAULT_APP_ID user.summary with
      | .error message =>
          (db, { c with stage := .refused (jsonError .internalServerError message) })
      | .ok (response, db) => (db, { c with stage := .issued user response })
  | .issued user response =>
      (recordAuthEvent db env (env.uuid 1) DEFAULT_APP_ID user.id (some user.id)
          "admin_bootstrapped" none,
        { c with stage := .completed user response })
  | .completed _ _ => (db, c)
  | .refused _ => (db, c)

def reply (c : BootstrapCall) : Option (Except ApiError (Reply LoginResponse)) :=
  match c.stage with
  | .completed _ response => some (.ok { status := .created, body := response })
  | .refused e => some (.error e)
  | _ => none

end BootstrapCall

/-- On its own, the machine computes `bootstrapAdmin`. -/
theorem bootstrapAdmin_alone (pf : Platform) (env : Env) (db : Db) (payload : Credentials) :
    (alone (BootstrapCall.step pf) env 5 db ⟨payload, .received⟩).1 =
        (bootstrapAdmin pf db env payload).1 ∧
      (alone (BootstrapCall.step pf) env 5 db ⟨payload, .received⟩).2.reply =
        some (bootstrapAdmin pf db env payload).2 := by
  have hunfold : bootstrapAdmin pf db env payload =
      Outcome.proceed db (bootstrapChecks db payload) fun _ =>
        Outcome.proceed (ensureDefaultApp db env) (hashPasswordOr500 pf env payload.password)
          fun passwordHash =>
            match (ensureDefaultApp db env).insertUser
                (bootstrappedUser pf env payload passwordHash) with
            | none =>
                (ensureDefaultApp db env,
                  .error (jsonError .conflict "admin user could not be bootstrapped"))
            | some db =>
                match issueLoginResponse pf db env DEFAULT_APP_ID
                    (bootstrappedUser pf env payload passwordHash).summary with
                | .error message => (db, .error (jsonError .internalServerError message))
                | .ok (response, db) =>
                    (recordAuthEvent db env (env.uuid 1) DEFAULT_APP_ID (env.uuid 0)
                        (some (env.uuid 0)) "admin_bootstrapped" none,
                      .ok { status := .created, body := response }) := rfl
  rw [hunfold]
  cases hchecks : bootstrapChecks db payload with
  | error e => simp [alone, BootstrapCall.step, BootstrapCall.reply, hchecks]
  | ok u =>
    cases hhash : hashPasswordOr500 pf env payload.password with
    | error e => simp [alone, BootstrapCall.step, BootstrapCall.reply, hchecks, hhash]
    | ok passwordHash =>
      cases hinsert : (ensureDefaultApp db env).insertUser
          (bootstrappedUser pf env payload passwordHash) with
      | none => simp [alone, BootstrapCall.step, BootstrapCall.reply, hchecks, hhash, hinsert]
      | some db' =>
        cases hissue : issueLoginResponse pf db' env DEFAULT_APP_ID
            (bootstrappedUser pf env payload passwordHash).summary with
        | error message =>
          simp [alone, BootstrapCall.step, BootstrapCall.reply, hchecks, hhash, hinsert, hissue]
        | ok issued =>
          have hid : (bootstrappedUser pf env payload passwordHash).id = env.uuid 0 := rfl
          simp [alone, BootstrapCall.step, BootstrapCall.reply, hchecks, hhash, hinsert, hissue,
            hid]

end Peanut
