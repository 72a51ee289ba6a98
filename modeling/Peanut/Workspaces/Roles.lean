import Peanut.Library.Transition
import Peanut.Workspaces.Members

/-!
# Who holds a workspace role

A workspace role should come from one of two places: the administrators of the
platform, who are users of the default app, and the members of the workspace.
The role check looks an administrator up by id alone, and the first user of
every app is stored as an administrator, so the administrators of tenant apps
pass it too.
-/

namespace Peanut

open Relational

/-- The user is an administrator of the default app with a role that allows the
    required one. -/
def PlatformAdminAllows (db : Db) (userId : String) (requiredRole : Role) : Prop :=
  ∃ u ∈ db.users, u.id = userId ∧ u.appId = DEFAULT_APP_ID ∧ u.isAdmin = true ∧
    roleAllows u.adminRole requiredRole = true

/-- The user is a member of the workspace with a role that allows the required one. -/
def MemberAllows (db : Db) (workspaceId userId : String) (requiredRole : Role) : Prop :=
  ∃ m ∈ db.workspaceMembers, m.workspaceId = workspaceId ∧ m.userId = userId ∧
    roleAllows m.role requiredRole = true

/-- The role check lets the caller pass only for one of the two reasons. -/
def RoleEarned (db : Db) (claims : Claims) (workspaceId : String) (requiredRole : Role) : Prop :=
  requireWorkspaceRole db claims workspaceId requiredRole = .ok () →
    PlatformAdminAllows db claims.sub requiredRole ∨
      MemberAllows db workspaceId claims.sub requiredRole

/-- The caller is an administrator of another app, with a role that allows the
    required one. -/
def TenantAdminAllows (db : Db) (claims : Claims) (requiredRole : Role) : Prop :=
  claims.isAdmin = true ∧ ∃ u ∈ db.users, u.id = claims.sub ∧ u.appId ≠ DEFAULT_APP_ID ∧
    u.isAdmin = true ∧ roleAllows u.adminRole requiredRole = true

section Check

variable {db : Db}

theorem loadInstanceAdminRole_any {userId : String} {requiredRole : Role} :
    (loadInstanceAdminRole db userId).any (roleAllows · requiredRole) = true ↔
      ∃ u ∈ db.users, u.id = userId ∧ u.isAdmin = true ∧
        roleAllows u.adminRole requiredRole = true := by
  rw [loadInstanceAdminRole]
  constructor
  · intro h
    cases hsel : db.users.selectOne fun u => u.id == userId && u.isAdmin with
    | none =>
      rw [hsel] at h
      cases h
    | some u =>
      rw [hsel] at h
      obtain ⟨hu, hmatch⟩ := KeyedTable.selectOne_some hsel
      simp only [Bool.and_eq_true, beq_iff_eq] at hmatch
      exact ⟨u, hu, hmatch.1, hmatch.2, h⟩
  · rintro ⟨u, hu, hid, hadmin, hallows⟩
    have hsel : db.users.selectOne (fun u => u.id == userId && u.isAdmin) = some u := by
      refine KeyedTable.selectOne_eq_some hu (by simp [hid, hadmin]) ?_
      intro v hv hmatch
      simp only [Bool.and_eq_true, beq_iff_eq] at hmatch
      exact db.users.eq_of_key_eq hv hu (hmatch.1.trans hid.symm)
    rw [hsel]
    exact hallows

theorem loadWorkspaceRole_any {workspaceId userId : String} {requiredRole : Role} :
    (loadWorkspaceRole db workspaceId userId).any (roleAllows · requiredRole) = true ↔
      MemberAllows db workspaceId userId requiredRole := by
  rw [loadWorkspaceRole]
  constructor
  · intro h
    cases hsel : db.workspaceMembers.selectOne
        fun m => m.workspaceId == workspaceId && m.userId == userId with
    | none =>
      rw [hsel] at h
      cases h
    | some m =>
      rw [hsel] at h
      obtain ⟨hm, hmatch⟩ := KeyedTable.selectOne_some hsel
      simp only [Bool.and_eq_true, beq_iff_eq] at hmatch
      exact ⟨m, hm, hmatch.1, hmatch.2, h⟩
  · rintro ⟨m, hm, hworkspace, huser, hallows⟩
    have hsel : db.workspaceMembers.selectOne
        (fun m => m.workspaceId == workspaceId && m.userId == userId) = some m := by
      refine KeyedTable.selectOne_eq_some hm (by simp [hworkspace, huser]) ?_
      intro n hn hmatch
      simp only [Bool.and_eq_true, beq_iff_eq] at hmatch
      apply db.workspaceMembers.eq_of_key_eq hn hm
      rw [hmatch.1, hmatch.2, hworkspace, huser]
    rw [hsel]
    exact hallows

theorem requireWorkspaceRole_eq_ok {claims : Claims} {workspaceId : String} {requiredRole : Role} :
    requireWorkspaceRole db claims workspaceId requiredRole = .ok () ↔
      (claims.isAdmin = true ∧ ∃ u ∈ db.users, u.id = claims.sub ∧ u.isAdmin = true ∧
        roleAllows u.adminRole requiredRole = true) ∨
      MemberAllows db workspaceId claims.sub requiredRole := by
  unfold requireWorkspaceRole
  cases hadmin : claims.isAdmin with
  | false =>
    simp only [Bool.false_eq_true, if_false, Option.any_none, Outcome.ensure_eq_ok,
      loadWorkspaceRole_any, false_and, false_or]
  | true =>
    simp only [if_true, true_and]
    split
    · rename_i hinstance
      rw [loadInstanceAdminRole_any] at hinstance
      simp [hinstance]
    · rename_i hinstance
      rw [loadInstanceAdminRole_any] at hinstance
      rw [Outcome.ensure_eq_ok, loadWorkspaceRole_any]
      simp only [hinstance, false_or]

/-- A call is answered as it should be exactly when the caller is not an
    administrator of another app whom only that makes pass. -/
theorem roleEarned_iff {claims : Claims} {workspaceId : String} {requiredRole : Role} :
    RoleEarned db claims workspaceId requiredRole ↔
      (TenantAdminAllows db claims requiredRole →
        MemberAllows db workspaceId claims.sub requiredRole) := by
  unfold RoleEarned
  rw [requireWorkspaceRole_eq_ok]
  constructor
  · rintro h ⟨hclaims, u, hu, hid, happ, hadmin, hallows⟩
    rcases h (.inl ⟨hclaims, u, hu, hid, hadmin, hallows⟩) with ⟨v, hv, hvid, hvapp, -⟩ | hmember
    · have hsame : v = u := db.users.eq_of_key_eq hv hu (hvid.trans hid.symm)
      rw [hsame] at hvapp
      exact absurd hvapp happ
    · exact hmember
  · rintro h (⟨hclaims, u, hu, hid, hadmin, hallows⟩ | hmember)
    · by_cases happ : u.appId = DEFAULT_APP_ID
      · exact .inl ⟨u, hu, hid, happ, hadmin, hallows⟩
      · exact .inr (h ⟨hclaims, u, hu, hid, happ, hadmin, hallows⟩)
    · exact .inr hmember

end Check

/-! ### Runs in which administrators are made on the platform only -/

inductive WorkspaceRequest where
  | registerForApp (env : Env) (appId : String) (payload : Credentials)
  | bootstrapAdmin (env : Env) (payload : Credentials)
  | createWorkspaceSetupInvite (env : Env) (claims : Claims)
      (payload : CreateWorkspaceInviteRequest)
  | acceptWorkspaceInvite (env : Env) (payload : AcceptWorkspaceInviteRequest)
  | upsertWorkspaceMember (env : Env) (workspaceId userId : String) (role : Role)
  | updateAdminRole (env : Env) (claims : Claims) (userId adminRole : String)
  | createAdminUser (env : Env) (claims : Claims) (appId : String)
      (payload : CreateAdminUserRequest)
  | deleteAdminUser (env : Env) (claims : Claims) (appId userId : String)

/-- The database after a request. -/
def handleWorkspaceRequest (pf : Platform) (db : Db) : WorkspaceRequest → Db
  | .registerForApp env appId payload => (registerForApp pf db env appId payload).1
  | .bootstrapAdmin env payload => (bootstrapAdmin pf db env payload).1
  | .createWorkspaceSetupInvite env claims payload =>
      (createWorkspaceSetupInvite pf db env claims payload).1
  | .acceptWorkspaceInvite env payload => (acceptWorkspaceInvite pf db env payload).1
  | .upsertWorkspaceMember env workspaceId userId role =>
      (upsertWorkspaceMember db env workspaceId userId role).getD db
  | .updateAdminRole env claims userId adminRole =>
      (updateAdminRole db env claims userId adminRole).1
  | .createAdminUser env claims appId payload => (createAdminUser pf db env claims appId payload).1
  | .deleteAdminUser env claims appId userId => (deleteAdminUser db env claims appId userId).1

/-- A database with apps and workspaces and no users. -/
def Db.withoutUsers (db : Db) : Db := { apps := db.apps, workspaces := db.workspaces }

/-- The database after a run that starts without users. -/
def runWorkspaces (pf : Platform) (db : Db) (requests : List WorkspaceRequest) : Db :=
  Transition.run (handleWorkspaceRequest pf) db.withoutUsers requests

/-- The request makes nobody outside the default app an administrator: it does
    not register the first user of another app, create an administrator there,
    or give a role to a user there. -/
def MakesNoTenantAdmin (db : Db) : WorkspaceRequest → Prop
  | .registerForApp _ appId _ => appId = DEFAULT_APP_ID ∨ isFirstUser db appId = false
  | .createAdminUser _ _ appId payload => appId = DEFAULT_APP_ID ∨ payload.isAdmin = false
  | .updateAdminRole _ _ userId _ => ∀ u ∈ db.users, u.id = userId → u.appId = DEFAULT_APP_ID
  | _ => True

/-- Every administrator is a user of the default app. -/
def DataCore.AdminsOnPlatform (c : DataCore) : Prop :=
  ∀ u ∈ c.users, u.isAdmin = true → u.appId = DEFAULT_APP_ID

section Requests

variable {pf : Platform} {db : Db}

theorem DataCore.AdminsOnPlatform.insertUser {db' : Db} (h : db.core.AdminsOnPlatform) {u : User}
    (hinsert : db.insertUser u = some db') (hu : u.isAdmin = true → u.appId = DEFAULT_APP_ID) :
    db'.core.AdminsOnPlatform := by
  obtain ⟨users, hins, rfl⟩ := Db.insertUser_eq_some hinsert
  intro v hv
  rcases (KeyedTable.mem_insert? hins).mp hv with hv | rfl
  · exact h v hv
  · exact hu

theorem issueLoginResponse_core {env : Env} {appId : String} {user : UserSummary}
    {login : LoginResponse} {db' : Db}
    (h : issueLoginResponse pf db env appId user = .ok (login, db')) : db'.core = db.core := by
  obtain ⟨tokens, rfl⟩ := issueLoginResponse_frame h
  rfl

theorem registerForApp_adminsOnPlatform (h : db.core.AdminsOnPlatform) (env : Env) (appId : String)
    (payload : Credentials) (hno : appId = DEFAULT_APP_ID ∨ isFirstUser db appId = false) :
    (registerForApp pf db env appId payload).1.core.AdminsOnPlatform := by
  unfold registerForApp
  refine Outcome.proceed_rule (P := fun s : Db => s.core.AdminsOnPlatform) h ?_
  rintro ⟨workspaceId, passwordHash⟩ _
  dsimp only
  split
  · exact h
  · rename_i db' hinsert
    rw [recordAuthEvent_core, recordUsage_core]
    apply h.insertUser hinsert
    intro hadmin
    rcases hno with happ | hfirst
    · exact happ
    · have hfirst' : isFirstUser db appId = true := hadmin
      rw [hfirst] at hfirst'
      cases hfirst'

theorem bootstrapAdmin_adminsOnPlatform (h : db.core.AdminsOnPlatform) (env : Env)
    (payload : Credentials) : (bootstrapAdmin pf db env payload).1.core.AdminsOnPlatform := by
  have happ : (ensureDefaultApp db env).core.AdminsOnPlatform := by
    unfold ensureDefaultApp
    split
    · exact h
    · split <;> exact h
  unfold bootstrapAdmin
  refine Outcome.proceed_rule (P := fun s : Db => s.core.AdminsOnPlatform) h ?_
  intro _ _
  refine Outcome.proceed_rule (P := fun s : Db => s.core.AdminsOnPlatform) happ ?_
  intro passwordHash _
  dsimp only
  split
  · exact happ
  · rename_i db' hinsert
    have hnew : db'.core.AdminsOnPlatform := happ.insertUser hinsert fun _ => rfl
    split
    · exact hnew
    · rename_i login db'' hlogin
      rw [recordAuthEvent_core, issueLoginResponse_core hlogin]
      exact hnew

theorem createWorkspaceSetupInvite_adminsOnPlatform (h : db.core.AdminsOnPlatform) (env : Env)
    (claims : Claims) (payload : CreateWorkspaceInviteRequest) :
    (createWorkspaceSetupInvite pf db env claims payload).1.core.AdminsOnPlatform := by
  unfold createWorkspaceSetupInvite
  refine Outcome.proceed_rule (P := fun s : Db => s.core.AdminsOnPlatform) h ?_
  intro _ _
  dsimp only
  split
  · exact h
  · rename_i db' hinsert
    rw [recordAuditLog_core]
    unfold Db.insertWorkspaceSetupInvite at hinsert
    split at hinsert
    · obtain ⟨invites, -, rfl⟩ := Option.map_eq_some_iff.mp hinsert
      exact h
    · cases hinsert

theorem signup_ok {inviteId : String} {user : User} {workspace : Workspace}
    {membership : WorkspaceMember} {db' : Db}
    (h : signup db inviteId user workspace membership = .ok db') :
    ∃ db₁ db₂ : Db, db₁.core = db.core ∧ db₁.insertUser user = some db₂ ∧ db'.core = db₂.core := by
  simp only [signup, Outcome.bind_eq_ok, Outcome.require_eq_ok] at h
  obtain ⟨db₁, huse, db₂, huser, db₃, hworkspace, hmember⟩ := h
  have h₁ : db₁.core = db.core := by
    simp only [Db.useInvite] at huse
    split at huse
    · cases huse
      rfl
    · cases huse
  have h₃ : db₃.core = db₂.core := by
    unfold Db.insertWorkspace at hworkspace
    split at hworkspace
    · obtain ⟨workspaces, -, rfl⟩ := Option.map_eq_some_iff.mp hworkspace
      rfl
    · cases hworkspace
  have h₄ : db'.core = db₃.core := by
    unfold Db.insertWorkspaceMember at hmember
    split at hmember
    · obtain ⟨members, -, rfl⟩ := Option.map_eq_some_iff.mp hmember
      rfl
    · cases hmember
  exact ⟨db₁, db₂, h₁, huser, h₄.trans h₃⟩

theorem acceptWorkspaceInvite_adminsOnPlatform (h : db.core.AdminsOnPlatform) (env : Env)
    (payload : AcceptWorkspaceInviteRequest) :
    (acceptWorkspaceInvite pf db env payload).1.core.AdminsOnPlatform := by
  unfold acceptWorkspaceInvite
  refine Outcome.proceed_rule (P := fun s : Db => s.core.AdminsOnPlatform) h ?_
  rintro ⟨invite, workspaceName, passwordHash⟩ _
  refine Outcome.proceed_rule (P := fun s : Db => s.core.AdminsOnPlatform) h ?_
  intro db' hsignup
  obtain ⟨db₁, db₂, hcore₁, huser, hcore⟩ := signup_ok hsignup
  have hnew : db'.core.AdminsOnPlatform := by
    rw [hcore]
    rw [← hcore₁] at h
    exact h.insertUser huser fun _ => rfl
  dsimp only
  split
  · exact hnew
  · rename_i login db'' hlogin
    rw [issueLoginResponse_core hlogin]
    exact hnew

theorem upsertWorkspaceMember_adminsOnPlatform (h : db.core.AdminsOnPlatform) (env : Env)
    (workspaceId userId : String) (role : Role) :
    ((upsertWorkspaceMember db env workspaceId userId role).getD db).core.AdminsOnPlatform := by
  cases hupsert : upsertWorkspaceMember db env workspaceId userId role with
  | none => exact h
  | some db' =>
    unfold upsertWorkspaceMember at hupsert
    split at hupsert
    · split at hupsert
      · cases hupsert
        exact h
      · obtain ⟨members, -, rfl⟩ := Option.map_eq_some_iff.mp hupsert
        exact h
    · cases hupsert

theorem updateAdminRole_adminsOnPlatform (h : db.core.AdminsOnPlatform) (env : Env)
    (claims : Claims) (userId adminRole : String)
    (hno : ∀ u ∈ db.users, u.id = userId → u.appId = DEFAULT_APP_ID) :
    (updateAdminRole db env claims userId adminRole).1.core.AdminsOnPlatform := by
  unfold updateAdminRole
  refine Outcome.proceed_rule (P := fun s : Db => s.core.AdminsOnPlatform) h ?_
  intro role _
  dsimp only
  split
  · rw [recordAuditLog_core]
    intro v hv
    obtain ⟨u, hu, rfl⟩ := (KeyedTable.mem_updateWhere (t := db.users)
      (p := fun u => u.id == userId)
      (f := fun u => { u with isAdmin := true, adminRole := role }) (fun _ => rfl)).mp hv
    split
    · rename_i hid
      intro _
      exact hno u hu (by simpa using hid)
    · exact h u hu
  · exact h

theorem createAdminUser_adminsOnPlatform (h : db.core.AdminsOnPlatform) (env : Env)
    (claims : Claims) (appId : String) (payload : CreateAdminUserRequest)
    (hno : appId = DEFAULT_APP_ID ∨ payload.isAdmin = false) :
    (createAdminUser pf db env claims appId payload).1.core.AdminsOnPlatform := by
  unfold createAdminUser
  refine Outcome.proceed_rule (P := fun s : Db => s.core.AdminsOnPlatform) h ?_
  rintro ⟨claims', workspaceId, passwordHash⟩ hchecks
  simp only [createAdminUserChecks, adminClaimsForApp, Outcome.bind_eq_ok] at hchecks
  obtain ⟨_, ⟨_, -, _, -, heq⟩, _, -, _, -, _, -, _, -, _, -, heq'⟩ := hchecks
  cases heq
  cases heq'
  dsimp only
  split
  · exact h
  · rename_i db' hinsert
    rw [recordAuthEvent_core, recordUsage_core]
    apply h.insertUser hinsert
    intro hadmin
    rcases hno with happ | hplain
    · exact happ
    · have hadmin' : payload.isAdmin = true := hadmin
      rw [hplain] at hadmin'
      cases hadmin'

theorem deleteAdminUser_adminsOnPlatform (h : db.core.AdminsOnPlatform) (env : Env)
    (claims : Claims) (appId userId : String) :
    (deleteAdminUser db env claims appId userId).1.core.AdminsOnPlatform := by
  unfold deleteAdminUser
  refine Outcome.proceed_rule (P := fun s : Db => s.core.AdminsOnPlatform) h ?_
  rintro ⟨claims', user⟩ _
  dsimp only
  split
  · exact h
  · exact h
  · rename_i n db' hne hdelete
    rw [recordAuthEvent_core]
    cases n with
    | zero => exact (hne rfl).elim
    | succ n =>
      rw [deleteUser_core hdelete]
      intro u hu
      exact h u (KeyedTable.mem_deleteWhere.mp hu).1

end Requests

/-- **One request.**  Where a request makes no tenant user an administrator,
    every administrator is still one of the platform. -/
theorem handleWorkspaceRequest_adminsOnPlatform {pf : Platform} {db : Db}
    (h : db.core.AdminsOnPlatform) (request : WorkspaceRequest)
    (hno : MakesNoTenantAdmin db request) :
    (handleWorkspaceRequest pf db request).core.AdminsOnPlatform := by
  cases request with
  | registerForApp env appId payload =>
    exact registerForApp_adminsOnPlatform h env appId payload hno
  | bootstrapAdmin env payload => exact bootstrapAdmin_adminsOnPlatform h env payload
  | createWorkspaceSetupInvite env claims payload =>
    exact createWorkspaceSetupInvite_adminsOnPlatform h env claims payload
  | acceptWorkspaceInvite env payload => exact acceptWorkspaceInvite_adminsOnPlatform h env payload
  | upsertWorkspaceMember env workspaceId userId role =>
    exact upsertWorkspaceMember_adminsOnPlatform h env workspaceId userId role
  | updateAdminRole env claims userId adminRole =>
    exact updateAdminRole_adminsOnPlatform h env claims userId adminRole hno
  | createAdminUser env claims appId payload =>
    exact createAdminUser_adminsOnPlatform h env claims appId payload hno
  | deleteAdminUser env claims appId userId =>
    exact deleteAdminUser_adminsOnPlatform h env claims appId userId

/-- Every request of the run, in the state it is handled in, makes no tenant
    user an administrator. -/
def RunMakesNoTenantAdmin (pf : Platform) (db : Db) (requests : List WorkspaceRequest) : Prop :=
  ∀ (before : List WorkspaceRequest) (request : WorkspaceRequest) (after : List WorkspaceRequest),
    requests = before ++ request :: after →
      MakesNoTenantAdmin (runWorkspaces pf db before) request

theorem runWorkspaces_adminsOnPlatform {pf : Platform} {db : Db}
    {requests : List WorkspaceRequest} (h : RunMakesNoTenantAdmin pf db requests) :
    (runWorkspaces pf db requests).core.AdminsOnPlatform := by
  have hstep : ∀ (s : Db) (request : WorkspaceRequest), s.core.AdminsOnPlatform →
      MakesNoTenantAdmin s request → (handleWorkspaceRequest pf s request).core.AdminsOnPlatform :=
    fun s request hs hno => handleWorkspaceRequest_adminsOnPlatform hs request hno
  have hstart : db.withoutUsers.core.AdminsOnPlatform :=
    fun u hu => absurd hu (KeyedTable.not_mem_empty u)
  exact Transition.run_invariant hstep hstart requests h

/-- **Workspace roles.**  In a state a run has reached, a call of the role check
    is answered as it should be exactly when the caller is no administrator of
    another app, or a member anyway; and every call is in a run that makes
    administrators on the platform only. -/
theorem workspace_roles_earned_iff (pf : Platform) (db : Db) (requests : List WorkspaceRequest) :
    (∀ claims workspaceId requiredRole,
      RoleEarned (runWorkspaces pf db requests) claims workspaceId requiredRole ↔
        (TenantAdminAllows (runWorkspaces pf db requests) claims requiredRole →
          MemberAllows (runWorkspaces pf db requests) workspaceId claims.sub requiredRole)) ∧
      (RunMakesNoTenantAdmin pf db requests →
        ∀ before after, requests = before ++ after → ∀ claims workspaceId requiredRole,
          RoleEarned (runWorkspaces pf db before) claims workspaceId requiredRole) := by
  refine ⟨fun claims workspaceId requiredRole => roleEarned_iff, ?_⟩
  rintro hno before after rfl claims workspaceId requiredRole
  have hbefore : RunMakesNoTenantAdmin pf db before := by
    rintro first request last rfl
    exact hno first request (last ++ after) (by simp)
  rw [roleEarned_iff]
  rintro ⟨-, u, hu, -, happ, hadmin, -⟩
  exact absurd (runWorkspaces_adminsOnPlatform hbefore u hu hadmin) happ

/-! ### The first user of a tenant app -/

def tenantApp : App :=
  { id := "shop", name := "shop", displayName := "Shop", workspaceId := "w1", createdBy := none
    createdAt := "2026-01-01 00:00:00", updatedAt := "2026-01-01 00:00:00", deletedAt := none }

def defaultApp : App :=
  { tenantApp with id := "default", name := "default", workspaceId := "default" }

/-- The default app and a tenant app, each in a workspace of its own. -/
def twoApps : Db := { apps := ⟨[defaultApp, tenantApp], by decide⟩ }

def signUp (appId email : String) : WorkspaceRequest :=
  .registerForApp (sampleEnv appId) appId { email := email, password := "12345678" }

def shopkeeper : Claims := { sub := "shop0", appId := "shop", exp := 0, isAdmin := true }

/-- Whoever registers first on the tenant app owns the workspace of the platform. -/
theorem tenant_admin_owns_default_workspace :
    ¬ RoleEarned (runWorkspaces asciiPlatform twoApps [signUp "shop" "eve@example.com"])
      shopkeeper "default" .owner := by
  intro h
  rcases h (by decide +kernel) with ⟨u, hu, hid, happ, -⟩ | ⟨m, hm, -⟩
  · have hall : ∀ v ∈ (runWorkspaces asciiPlatform twoApps
        [signUp "shop" "eve@example.com"]).users.rows, v.appId ≠ DEFAULT_APP_ID := by
      decide +kernel
    exact hall u hu happ
  · have hnone : (runWorkspaces asciiPlatform twoApps
        [signUp "shop" "eve@example.com"]).workspaceMembers.rows = [] := by
      decide +kernel
    rw [KeyedTable.mem_def, hnone] at hm
    cases hm

/-- Registration on the default app makes an administrator of the platform. -/
theorem platform_admin_earned :
    RoleEarned (runWorkspaces asciiPlatform twoApps [signUp "default" "root@example.com"])
      { shopkeeper with sub := "default0", appId := "default" } "w1" .owner := by
  apply (workspace_roles_earned_iff asciiPlatform twoApps
    [signUp "default" "root@example.com"]).2 _ _ [] (by simp)
  rintro before request after hsplit
  rcases before with _ | ⟨first, rest⟩
  · cases hsplit
    exact .inl rfl
  · exact absurd (congrArg List.length hsplit) (by simp)

end Peanut
