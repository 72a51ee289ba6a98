import Peanut.Workspaces.Quotas

/-!
# Workspace invites under concurrency

Whether an invite is valid is read outside the transaction that uses it up.  The
transaction counts the use first, under a guard, and a failure of any statement
after that takes the count back.
-/

namespace Peanut

open Relational Interleaving

/-! ### The machines -/

/-- What one accepted invite has created. -/
structure InviteSignup where
  inviteId : String
  user : User
  workspace : Workspace
  membership : WorkspaceMember

/-- The database, and which workspace came of which invite: no column says so. -/
structure InviteStore where
  db : Db
  signups : List InviteSignup := []

namespace InviteStore

/-- The sign-ups through an invite. -/
def through (s : InviteStore) (inviteId : String) : List InviteSignup :=
  s.signups.filter fun g => g.inviteId == inviteId

end InviteStore

inductive InviteRequest where
  | create (claims : Claims) (payload : CreateWorkspaceInviteRequest)
  | accept (payload : AcceptWorkspaceInviteRequest)

inductive InviteStage where
  | received (request : InviteRequest)
  | created (claims : Claims) (invite : WorkspaceSetupInvite) (code : String)
  | validated (payload : AcceptWorkspaceInviteRequest) (invite : WorkspaceSetupInvite)
      (workspaceName passwordHash : String)
  | signedUp (user : User) (workspace : Workspace) (membership : WorkspaceMember)
  | invited (reply : Except ApiError (Reply CreateWorkspaceInviteResponse))
  | accepted (reply : Except ApiError (Reply AcceptWorkspaceInviteResponse))

/-- What a request draws at a tick, and the statement of the tick that fails. -/
structure InviteTick where
  env : Env
  fault : Option Nat := none

/-- The row of a new invite. -/
def newInvite (pf : Platform) (env : Env) (claims : Claims)
    (payload : CreateWorkspaceInviteRequest) : WorkspaceSetupInvite :=
  { id := env.uuid 0, label := trim payload.label
    codeHash := hashOpaqueToken pf ("pbi_" ++ env.token 0)
    email := payload.email.map fun e => pf.toLowercase (trim e)
    domain := payload.domain.map fun d => pf.toLowercase (trim d)
    maxUses := payload.maxUses.getD 1, usedCount := 0
    expiresAt := payload.expiresInDays.map env.daysFromNow, createdBy := claims.sub
    createdAt := env.now, revokedAt := none }

/-- The answers to a failure in the signup transaction, by the statement: it
    begins, uses the invite, inserts the user, the workspace, its limit profile and
    the membership, and commits. -/
def signupFaults : List ApiError :=
  [jsonError .internalServerError "failed to start signup",
    jsonErrorWithCode .badRequest "invite_invalid" "valid workspace invite is required",
    jsonError .conflict "user already exists",
    jsonError .conflict "workspace name already exists",
    jsonError .internalServerError "failed to assign limit_profile",
    jsonError .internalServerError "failed to create membership",
    jsonError .internalServerError "failed to finish signup"]

namespace InviteStage

/-- `create_workspace_setup_invite` up to its `INSERT`. -/
def create (pf : Platform) (t : InviteTick) (db : Db) (claims : Claims)
    (payload : CreateWorkspaceInviteRequest) : Except ApiError Db := do
  createInviteChecks claims payload
  Outcome.require (if t.fault.isSome then none
      else db.insertWorkspaceSetupInvite (newInvite pf t.env claims payload))
    (jsonError .internalServerError "failed to create workspace invite")

/-- `accept_workspace_invite` up to its transaction. -/
def validate (pf : Platform) (t : InviteTick) (db : Db) (payload : AcceptWorkspaceInviteRequest) :
    Except ApiError (WorkspaceSetupInvite × String × String) := do
  badCredentials payload.email payload.password
  Outcome.ensure t.fault.isNone (jsonError .internalServerError "failed to validate invite")
  acceptInviteChecks pf db t.env payload

/-- The transaction: a statement that fails drops all of it. -/
def sign (t : InviteTick) (db : Db) (inviteId : String)
    (rows : User × Workspace × WorkspaceMember) :
    Except ApiError Db :=
  match t.fault.bind fun n => signupFaults[n]? with
  | some e => .error e
  | none => signup db inviteId rows.1 rows.2.1 rows.2.2

/-- The login of the new user. -/
def login (pf : Platform) (t : InviteTick) (db : Db) (user : User) :
    Except String (LoginResponse × Db) := do
  Outcome.ensure t.fault.isNone "failed to create refresh token"
  issueLoginResponse pf db t.env DEFAULT_APP_ID user.summary

/-- The row of the audit log; a failure is ignored. -/
def log (t : InviteTick) (db : Db) (claims : Claims) (invite : WorkspaceSetupInvite) : Db :=
  if t.fault.isSome then db
  else db.recordAuditLog t.env (t.env.uuid 1) none claims "workspace_setup_invite.created"
    "workspace_setup_invite" invite.id (.object [("label", .string invite.label)])

/-- One statement, or the transaction. -/
def step (pf : Platform) (t : InviteTick) (s : InviteStore) (stage : InviteStage) :
    InviteStore × InviteStage :=
  match stage with
  | .received (.create claims payload) =>
      match create pf t s.db claims payload with
      | .error e => (s, .invited (.error e))
      | .ok db =>
          ({ s with db := db },
            .created claims (newInvite pf t.env claims payload) ("pbi_" ++ t.env.token 0))
  | .created claims invite code =>
      ({ s with db := log t s.db claims invite },
        .invited (.ok { status := .created, body := { invite := invite, inviteCode := code } }))
  | .received (.accept payload) =>
      match validate pf t s.db payload with
      | .error e => (s, .accepted (.error e))
      | .ok (invite, workspaceName, passwordHash) =>
          (s, .validated payload invite workspaceName passwordHash)
  | .validated payload invite workspaceName passwordHash =>
      let rows := invitedRows pf t.env payload workspaceName passwordHash
      match sign t s.db invite.id rows with
      | .error e => (s, .accepted (.error e))
      | .ok db =>
          ({ db := db, signups := s.signups ++ [⟨invite.id, rows.1, rows.2.1, rows.2.2⟩] },
            .signedUp rows.1 rows.2.1 rows.2.2)
  | .signedUp user workspace membership =>
      match login pf t s.db user with
      | .error message => (s, .accepted (.error (jsonError .internalServerError message)))
      | .ok (login, db) =>
          ({ s with db := db },
            .accepted (.ok { status := .created, body := { login := login, workspace := workspace,
                                                           membership := membership } }))
  | .invited _ => (s, stage)
  | .accepted _ => (s, stage)

end InviteStage

/-! ### On their own -/

section Alone

variable (pf : Platform) (db : Db) (env : Env)

/-- On its own, the machine computes `createWorkspaceSetupInvite`. -/
theorem createWorkspaceSetupInvite_alone (claims : Claims) (payload : CreateWorkspaceInviteRequest)
    (signups : List InviteSignup) :
    alone (InviteStage.step pf) { env := env } 2 ⟨db, signups⟩
        (.received (.create claims payload)) =
      (⟨(createWorkspaceSetupInvite pf db env claims payload).1, signups⟩,
        .invited (createWorkspaceSetupInvite pf db env claims payload).2) := by
  cases hchecks : createInviteChecks claims payload with
  | error e =>
    have hfirst : InviteStage.step pf { env := env } ⟨db, signups⟩
        (.received (.create claims payload)) =
        (⟨db, signups⟩, .invited (.error e)) := by
      simp [InviteStage.step, InviteStage.create, hchecks, bind, Except.bind]
    rw [alone_of_step hfirst, createWorkspaceSetupInvite, hchecks]
    rfl
  | ok u =>
    cases hinsert : db.insertWorkspaceSetupInvite (newInvite pf env claims payload) with
    | none =>
      have hfirst : InviteStage.step pf { env := env } ⟨db, signups⟩
          (.received (.create claims payload)) = (⟨db, signups⟩, .invited (.error
            (jsonError .internalServerError "failed to create workspace invite"))) := by
        simp [InviteStage.step, InviteStage.create, hchecks, hinsert, Outcome.require, bind,
          Except.bind]
      rw [newInvite] at hinsert
      simp only [alone_of_step hfirst, createWorkspaceSetupInvite, hchecks, Outcome.proceed_ok,
        hinsert]
      rfl
    | some db' =>
      have hfirst : InviteStage.step pf { env := env } ⟨db, signups⟩
          (.received (.create claims payload)) = (⟨db', signups⟩,
            .created claims (newInvite pf env claims payload) ("pbi_" ++ env.token 0)) := by
        simp [InviteStage.step, InviteStage.create, hchecks, hinsert, Outcome.require, bind,
          Except.bind]
      rw [newInvite] at hinsert
      simp only [alone_of_step hfirst, createWorkspaceSetupInvite, hchecks, Outcome.proceed_ok,
        hinsert]
      rfl

theorem validate_alone (payload : AcceptWorkspaceInviteRequest) :
    InviteStage.validate pf { env := env } db payload = acceptInviteChecks pf db env payload := by
  unfold InviteStage.validate acceptInviteChecks
  cases badCredentials payload.email payload.password with
  | error e => rfl
  | ok u => rfl

/-- On its own, the machine computes `acceptWorkspaceInvite`. -/
theorem acceptWorkspaceInvite_alone (payload : AcceptWorkspaceInviteRequest)
    (signups : List InviteSignup) :
    ∃ signups', alone (InviteStage.step pf) { env := env } 3 ⟨db, signups⟩
        (.received (.accept payload)) =
      (⟨(acceptWorkspaceInvite pf db env payload).1, signups'⟩,
        .accepted (acceptWorkspaceInvite pf db env payload).2) := by
  cases hchecks : acceptInviteChecks pf db env payload with
  | error e =>
    have hfirst : InviteStage.step pf { env := env } ⟨db, signups⟩ (.received (.accept payload)) =
        (⟨db, signups⟩, .accepted (.error e)) := by
      simp [InviteStage.step, validate_alone, hchecks]
    refine ⟨signups, ?_⟩
    rw [alone_of_step hfirst, acceptWorkspaceInvite, hchecks]
    rfl
  | ok checked =>
    obtain ⟨invite, workspaceName, passwordHash⟩ := checked
    have hfirst : InviteStage.step pf { env := env } ⟨db, signups⟩ (.received (.accept payload)) =
        (⟨db, signups⟩, .validated payload invite workspaceName passwordHash) := by
      simp [InviteStage.step, validate_alone, hchecks]
    cases hsignup : signup db invite.id (invitedRows pf env payload workspaceName passwordHash).1
        (invitedRows pf env payload workspaceName passwordHash).2.1
        (invitedRows pf env payload workspaceName passwordHash).2.2 with
    | error e =>
      have hsecond : InviteStage.step pf { env := env } ⟨db, signups⟩
          (.validated payload invite workspaceName passwordHash) =
          (⟨db, signups⟩, .accepted (.error e)) := by
        simp [InviteStage.step, InviteStage.sign, hsignup]
      refine ⟨signups, ?_⟩
      rw [invitedRows] at hsignup
      simp only [alone_of_step hfirst, alone_of_step hsecond, acceptWorkspaceInvite, hchecks,
        Outcome.proceed_ok, hsignup, Outcome.proceed_error]
      rfl
    | ok db' =>
      have hsecond : InviteStage.step pf { env := env } ⟨db, signups⟩
          (.validated payload invite workspaceName passwordHash) =
          (⟨db', signups ++ [⟨invite.id, (invitedRows pf env payload workspaceName passwordHash).1,
              (invitedRows pf env payload workspaceName passwordHash).2.1,
              (invitedRows pf env payload workspaceName passwordHash).2.2⟩]⟩,
            .signedUp (invitedRows pf env payload workspaceName passwordHash).1
              (invitedRows pf env payload workspaceName passwordHash).2.1
              (invitedRows pf env payload workspaceName passwordHash).2.2) := by
        simp [InviteStage.step, InviteStage.sign, hsignup]
      refine ⟨signups ++ [⟨invite.id, (invitedRows pf env payload workspaceName passwordHash).1,
        (invitedRows pf env payload workspaceName passwordHash).2.1,
        (invitedRows pf env payload workspaceName passwordHash).2.2⟩], ?_⟩
      rw [alone_of_step hfirst, alone_of_step hsecond]
      rw [invitedRows] at hsignup
      simp only [alone, acceptWorkspaceInvite, hchecks, Outcome.proceed_ok, hsignup]
      simp only [InviteStage.step, InviteStage.login, invitedRows, Option.isNone_none,
        Outcome.ensure_true]
      cases issueLoginResponse pf db' env DEFAULT_APP_ID _ with
      | error message => rfl
      | ok issued => rfl

end Alone

/-! ### What a tick does -/

section Statements

variable {db db' : Db}

theorem Db.useInvite_some {inviteId : String} (h : db.useInvite inviteId = some db') :
    (∃ i ∈ db.workspaceSetupInvites, i.id = inviteId ∧ i.usedCount < i.maxUses) ∧
      ∃ invites, db' = { db with workspaceSetupInvites := invites } ∧
        ∀ j, j ∈ invites ↔ ∃ i ∈ db.workspaceSetupInvites, j =
          if i.id = inviteId then { i with usedCount := i.usedCount + 1 } else i := by
  simp only [Db.useInvite] at h
  split at h
  · rename_i hone
    obtain ⟨i, hi⟩ := List.length_eq_one_iff.mp hone
    have hmem : i ∈ db.workspaceSetupInvites.select fun i =>
        i.id == inviteId && i.revokedAt.isNone && decide (i.usedCount < i.maxUses) := by
      rw [hi]
      exact List.mem_singleton_self i
    obtain ⟨hstored, husable⟩ := KeyedTable.mem_select.mp hmem
    have hparts := husable
    simp only [Bool.and_eq_true, beq_iff_eq, decide_eq_true_eq] at hparts
    obtain ⟨⟨hid, -⟩, hleft⟩ := hparts
    cases h
    refine ⟨⟨i, hstored, hid, hleft⟩, _, rfl, ?_⟩
    intro j
    rw [KeyedTable.mem_updateWhere]
    -- the guard holds of the invite with the id and of no other
    have hguard : ∀ k ∈ db.workspaceSetupInvites, (k.id == inviteId && k.revokedAt.isNone &&
        decide (k.usedCount < k.maxUses)) = decide (k.id = inviteId) := by
      intro k hk
      by_cases hkid : k.id = inviteId
      · have hsame := db.workspaceSetupInvites.eq_of_key_eq hk hstored (hkid.trans hid.symm)
        subst hsame
        rw [husable, decide_eq_true hkid]
      · simp [hkid]
    constructor
    · rintro ⟨k, hk, rfl⟩
      refine ⟨k, hk, ?_⟩
      rw [hguard k hk]
      simp
    · rintro ⟨k, hk, rfl⟩
      refine ⟨k, hk, ?_⟩
      rw [hguard k hk]
      simp
  · cases h

/-- What a sign-up through an invite leaves behind. -/
structure SignedUp (db db' : Db) (g : InviteSignup) : Prop where
  usable : ∃ i ∈ db.workspaceSetupInvites, i.id = g.inviteId ∧ i.usedCount < i.maxUses
  invites : ∀ j, j ∈ db'.workspaceSetupInvites ↔ ∃ i ∈ db.workspaceSetupInvites, j =
    if i.id = g.inviteId then { i with usedCount := i.usedCount + 1 } else i
  workspaces : db'.workspaces.rows = db.workspaces.rows ++ [g.workspace]
  users : ∀ u, u ∈ db'.users ↔ u ∈ db.users ∨ u = g.user
  members : ∀ m, m ∈ db'.workspaceMembers ↔ m ∈ db.workspaceMembers ∨ m = g.membership

theorem signup_signedUp {g : InviteSignup}
    (h : signup db g.inviteId g.user g.workspace g.membership = .ok db') : SignedUp db db' g := by
  simp only [signup, Outcome.bind_eq_ok, Outcome.require_eq_ok] at h
  obtain ⟨db₁, huse, db₂, huser, db₃, hworkspace, hmember⟩ := h
  obtain ⟨husable, invites, rfl, hinvites⟩ := Db.useInvite_some huse
  obtain ⟨users, husers, rfl⟩ := Db.insertUser_eq_some huser
  unfold Db.insertWorkspace at hworkspace
  split at hworkspace
  · obtain ⟨workspaces, hworkspaces, rfl⟩ := Option.map_eq_some_iff.mp hworkspace
    unfold Db.insertWorkspaceMember at hmember
    split at hmember
    · obtain ⟨members, hmembers, rfl⟩ := Option.map_eq_some_iff.mp hmember
      exact ⟨husable, hinvites, (KeyedTable.insert?_eq_some.mp hworkspaces).2,
        fun u => KeyedTable.mem_insert? husers, fun m => KeyedTable.mem_insert? hmembers⟩
    · cases hmember
  · cases hworkspace

/-- The invites, the workspaces, the users and the members are as they were. -/
structure SameInvites (db db' : Db) : Prop where
  invites : db'.workspaceSetupInvites = db.workspaceSetupInvites
  workspaces : db'.workspaces = db.workspaces
  users : db'.users = db.users
  members : db'.workspaceMembers = db.workspaceMembers

theorem log_sameInvites (t : InviteTick) (db : Db) (claims : Claims) (i : WorkspaceSetupInvite) :
    SameInvites db (InviteStage.log t db claims i) := by
  unfold InviteStage.log
  split
  · exact ⟨rfl, rfl, rfl, rfl⟩
  · obtain ⟨logs, hlogs⟩ := db.recordAuditLog_frame t.env (t.env.uuid 1) none claims
      "workspace_setup_invite.created" "workspace_setup_invite" i.id
      (.object [("label", .string i.label)])
    rw [hlogs]
    exact ⟨rfl, rfl, rfl, rfl⟩

theorem login_sameInvites {pf : Platform} {t : InviteTick} {user : User} {response : LoginResponse}
    (h : InviteStage.login pf t db user = .ok (response, db')) : SameInvites db db' := by
  obtain ⟨-, -, hissue⟩ := Outcome.bind_eq_ok.mp h
  obtain ⟨tokens, rfl⟩ := issueLoginResponse_frame hissue
  exact ⟨rfl, rfl, rfl, rfl⟩

theorem create_some {pf : Platform} {t : InviteTick} {claims : Claims}
    {payload : CreateWorkspaceInviteRequest}
    (h : InviteStage.create pf t db claims payload = .ok db') :
    1 ≤ (newInvite pf t.env claims payload).maxUses ∧
      ∃ invites, db.workspaceSetupInvites.insert? (newInvite pf t.env claims payload) =
        some invites ∧
        db' = { db with workspaceSetupInvites := invites } := by
  simp only [InviteStage.create, Outcome.bind_eq_ok, Outcome.require_eq_ok] at h
  obtain ⟨_, hchecks, hinsert⟩ := h
  constructor
  · simp only [createInviteChecks, Outcome.bind_eq_ok, Outcome.ensure_eq_ok, Bool.and_eq_true,
      decide_eq_true_eq] at hchecks
    obtain ⟨-, -, -, -, -, ⟨hpositive, -⟩, -⟩ := hchecks
    exact hpositive
  · split at hinsert
    · cases hinsert
    · unfold Db.insertWorkspaceSetupInvite at hinsert
      split at hinsert
      · obtain ⟨invites, hins, rfl⟩ := Option.map_eq_some_iff.mp hinsert
        exact ⟨invites, hins, rfl⟩
      · cases hinsert

end Statements

/-- What a tick does: nothing to the invites and workspaces, a new invite, or a
    sign-up. -/
inductive InviteChange (s : InviteStore) : InviteStore → Prop where
  | none {db : Db} (hsame : SameInvites s.db db) : InviteChange s { s with db := db }
  | create {i : WorkspaceSetupInvite} {invites : KeyedTable WorkspaceSetupInvite (·.id)}
      (hunused : i.usedCount = 0) (hpositive : 1 ≤ i.maxUses)
      (hinsert : s.db.workspaceSetupInvites.insert? i = some invites) :
      InviteChange s { s with db := { s.db with workspaceSetupInvites := invites } }
  | signUp {db : Db} {g : InviteSignup} (hsigned : SignedUp s.db db g)
      (howner : g.workspace.createdBy = some g.user.id ∧ g.membership.workspaceId = g.workspace.id ∧
        g.membership.userId = g.user.id ∧ g.membership.role = .owner) :
      InviteChange s { db := db, signups := s.signups ++ [g] }

/-- **One tick.**  The answers to a failure change nothing. -/
theorem InviteStage.step_change (pf : Platform) (t : InviteTick) (s : InviteStore)
    (stage : InviteStage) : InviteChange s (stage.step pf t s).1 := by
  have hidle : InviteChange s s := .none ⟨rfl, rfl, rfl, rfl⟩
  cases stage with
  | received request =>
    cases request with
    | create claims payload =>
      simp only [step]
      split
      · exact hidle
      · rename_i db hcreate
        obtain ⟨hpositive, invites, hinsert, rfl⟩ := create_some hcreate
        exact .create rfl hpositive hinsert
    | accept payload =>
      simp only [step]
      split
      · exact hidle
      · exact hidle
  | created claims invite code => exact .none (log_sameInvites t s.db claims invite)
  | validated payload invite workspaceName passwordHash =>
    simp only [step]
    split
    · exact hidle
    · rename_i db hsign
      unfold sign at hsign
      split at hsign
      · cases hsign
      · exact .signUp (g := ⟨invite.id, _, _, _⟩) (signup_signedUp hsign) ⟨rfl, rfl, rfl, rfl⟩
  | signedUp user workspace membership =>
    simp only [step]
    split
    · exact hidle
    · rename_i login db hlogin
      exact .none (login_sameInvites hlogin)
  | invited reply => exact hidle
  | accepted reply => exact hidle

/-! ### The count of every invite -/

/-- The workspace of a sign-up is stored with its owner. -/
structure InviteSignup.Stored (db : Db) (g : InviteSignup) : Prop where
  workspace : g.workspace ∈ db.workspaces
  user : g.user ∈ db.users
  membership : g.membership ∈ db.workspaceMembers
  created_by : g.workspace.createdBy = some g.user.id
  member_of : g.membership.workspaceId = g.workspace.id
  member_user : g.membership.userId = g.user.id
  owner : g.membership.role = .owner

/-- The invariant.  Its last two fields say that the sign-ups are those of stored
    invites and account for every workspace the run has added. -/
structure InvitesCounted (start : Db) (s : InviteStore) : Prop where
  bounded : ∀ i ∈ s.db.workspaceSetupInvites, i.usedCount ≤ i.maxUses
  counted : ∀ i ∈ s.db.workspaceSetupInvites, i.usedCount = (s.through i.id).length
  stored : ∀ g ∈ s.signups, g.Stored s.db
  known : ∀ g ∈ s.signups, s.db.workspaceSetupInvites.hasKey g.inviteId = true
  workspaces : s.db.workspaces.rows = start.workspaces.rows ++ s.signups.map (·.workspace)

section Counted

variable {start : Db} {s s' : InviteStore}

theorem InviteStore.through_append (s : InviteStore) (g : InviteSignup) (id : String) (db : Db) :
    InviteStore.through ⟨db, s.signups ++ [g]⟩ id =
      s.through id ++ if g.inviteId = id then [g] else [] := by
  rw [through, through, List.filter_append, List.filter_singleton]
  by_cases hid : g.inviteId = id
  · simp [hid]
  · simp [hid, beq_false_of_ne hid]

theorem InvitesCounted.through_nil (h : InvitesCounted start s) {id : String}
    (hfree : s.db.workspaceSetupInvites.hasKey id = false) : s.through id = [] := by
  rw [List.eq_nil_iff_forall_not_mem]
  intro g hg
  obtain ⟨hg, hid⟩ := List.mem_filter.mp hg
  have hkey := h.known g hg
  rw [beq_iff_eq.mp hid, hfree] at hkey
  cases hkey

theorem InviteSignup.Stored.mono {db db' : Db} {g : InviteSignup} (h : g.Stored db)
    (hworkspaces : ∀ w ∈ db.workspaces, w ∈ db'.workspaces) (husers : ∀ u ∈ db.users, u ∈ db'.users)
    (hmembers : ∀ m ∈ db.workspaceMembers, m ∈ db'.workspaceMembers) : g.Stored db' :=
  ⟨hworkspaces _ h.workspace, husers _ h.user, hmembers _ h.membership, h.created_by, h.member_of,
    h.member_user, h.owner⟩

theorem InvitesCounted.signUp (h : InvitesCounted start s) {db : Db} {g : InviteSignup}
    (hsigned : SignedUp s.db db g)
    (howner : g.workspace.createdBy = some g.user.id ∧ g.membership.workspaceId = g.workspace.id ∧
      g.membership.userId = g.user.id ∧ g.membership.role = .owner) :
    InvitesCounted start ⟨db, s.signups ++ [g]⟩ := by
  obtain ⟨used, hused, hid, hleft⟩ := hsigned.usable
  have hworkspace : ∀ w, w ∈ db.workspaces ↔ w ∈ s.db.workspaces ∨ w = g.workspace := by
    intro w
    rw [KeyedTable.mem_def, hsigned.workspaces, List.mem_append, List.mem_singleton]
    rfl
  refine ⟨?_, ?_, ?_, ?_, ?_⟩
  · intro j hj
    obtain ⟨i, hi, rfl⟩ := (hsigned.invites j).mp hj
    split
    · rename_i hiid
      have hsame := s.db.workspaceSetupInvites.eq_of_key_eq hi hused (hiid.trans hid.symm)
      subst hsame
      exact hleft
    · exact h.bounded i hi
  · intro j hj
    obtain ⟨i, hi, rfl⟩ := (hsigned.invites j).mp hj
    rw [InviteStore.through_append]
    by_cases hiid : i.id = g.inviteId
    · simp only [hiid, if_true]
      rw [← hiid, List.length_append, Nat.cast_add, ← h.counted i hi]
      rfl
    · simp only [hiid, if_false, Ne.symm hiid, List.append_nil]
      exact h.counted i hi
  · intro g' hg'
    rcases List.mem_append.mp hg' with hold | hnew
    · exact (h.stored g' hold).mono (fun w hw => (hworkspace w).mpr (.inl hw))
        (fun u hu => (hsigned.users u).mpr (.inl hu)) (fun m hm =>
          (hsigned.members m).mpr (.inl hm))
    · rw [List.mem_singleton] at hnew
      subst hnew
      obtain ⟨hcreated, hof, huser, hrole⟩ := howner
      exact ⟨(hworkspace _).mpr (.inr rfl), (hsigned.users _).mpr (.inr rfl),
        (hsigned.members _).mpr (.inr rfl), hcreated, hof, huser, hrole⟩
  · intro g' hg'
    have hkey : s.db.workspaceSetupInvites.hasKey g'.inviteId = true := by
      rcases List.mem_append.mp hg' with hold | hnew
      · exact h.known g' hold
      · rw [List.mem_singleton] at hnew
        subst hnew
        exact KeyedTable.hasKey_iff.mpr ⟨used, hused, hid⟩
    obtain ⟨i, hi, hiid⟩ := KeyedTable.hasKey_iff.mp hkey
    refine KeyedTable.hasKey_iff.mpr ⟨_, (hsigned.invites _).mpr ⟨i, hi, rfl⟩, ?_⟩
    split
    · exact hiid
    · exact hiid
  · rw [hsigned.workspaces, h.workspaces, List.map_append, List.append_assoc]
    rfl

/-- **Invite step.**  Every tick keeps the counts. -/
theorem InvitesCounted.change (h : InvitesCounted start s) (hchange : InviteChange s s') :
    InvitesCounted start s' := by
  cases hchange with
  | @none db hsame =>
    refine ⟨?_, ?_, ?_, ?_, ?_⟩
    · rw [hsame.invites]
      exact h.bounded
    · rw [hsame.invites]
      exact h.counted
    · intro g hg
      apply (h.stored g hg).mono
      · rw [hsame.workspaces]
        exact fun w hw => hw
      · rw [hsame.users]
        exact fun u hu => hu
      · rw [hsame.members]
        exact fun m hm => hm
    · rw [hsame.invites]
      exact h.known
    · rw [hsame.workspaces]
      exact h.workspaces
  | @create i invites hunused hpositive hinsert =>
    have hmem : ∀ j, j ∈ invites ↔ j ∈ s.db.workspaceSetupInvites ∨ j = i :=
      fun j => KeyedTable.mem_insert? hinsert
    refine ⟨?_, ?_, ?_, ?_, h.workspaces⟩
    · intro j hj
      rcases (hmem j).mp hj with hj | rfl
      · exact h.bounded j hj
      · omega
    · intro j hj
      rcases (hmem j).mp hj with hj | rfl
      · exact h.counted j hj
      · have hnone := h.through_nil (KeyedTable.insert?_eq_some.mp hinsert).1
        rw [hunused]
        exact congrArg (fun l : List InviteSignup => (l.length : Int)) hnone.symm
    · intro g hg
      exact (h.stored g hg).mono (fun _ hw => hw) (fun _ hu => hu) (fun _ hm => hm)
    · intro g hg
      obtain ⟨j, hj, hid⟩ := KeyedTable.hasKey_iff.mp (h.known g hg)
      exact KeyedTable.hasKey_iff.mpr ⟨j, (hmem j).mpr (.inl hj), hid⟩
  | signUp hsigned howner => exact h.signUp hsigned howner

end Counted

/-! ### Runs -/

/-- A database in which nobody has been invited yet. -/
def Db.withoutInvites (db : Db) : Db := { db with workspaceSetupInvites := .empty }

theorem invitesCounted_withoutInvites (db : Db) : InvitesCounted db ⟨db.withoutInvites, []⟩ := by
  refine ⟨?_, ?_, ?_, ?_, ?_⟩
  · intro i hi
    exact absurd hi (KeyedTable.not_mem_empty i)
  · intro i hi
    exact absurd hi (KeyedTable.not_mem_empty i)
  · intro g hg
    cases hg
  · intro g hg
    cases hg
  · exact (List.append_nil db.workspaces.rows).symm

/-- No invite is used more often than it may be, and as often as it is used there is
    a workspace with its owner that was created through it; the workspaces the run
    has added are all of these. -/
def InvitesNotOverused (start : Db) (s : InviteStore) : Prop :=
  (∀ i ∈ s.db.workspaceSetupInvites, i.usedCount ≤ i.maxUses ∧
    i.usedCount = (s.through i.id).length ∧
    ((s.through i.id).map (·.workspace.id)).Nodup ∧ ∀ g ∈ s.through i.id, g.Stored s.db) ∧
  ∀ w ∈ s.db.workspaces, w ∈ start.workspaces ∨
    ∃ i ∈ s.db.workspaceSetupInvites, ∃ g ∈ s.through i.id, g.workspace = w

theorem InvitesCounted.notOverused {start : Db} {s : InviteStore} (h : InvitesCounted start s) :
    InvitesNotOverused start s := by
  constructor
  · intro i hi
    refine ⟨h.bounded i hi, h.counted i hi, ?_, ?_⟩
    · -- the ids of all workspaces are distinct
      have hids := s.db.workspaces.nodup
      rw [h.workspaces, List.map_append, List.map_map] at hids
      exact (List.nodup_append.mp hids).2.1.sublist (List.filter_sublist.map _)
    · intro g hg
      exact h.stored g (List.mem_filter.mp hg).1
  · intro w hw
    rw [KeyedTable.mem_def, h.workspaces, List.mem_append] at hw
    rcases hw with hw | hw
    · exact .inl hw
    · obtain ⟨g, hg, rfl⟩ := List.mem_map.mp hw
      obtain ⟨i, hi, hid⟩ := KeyedTable.hasKey_iff.mp (h.known g hg)
      exact .inr ⟨i, hi, g, List.mem_filter.mpr ⟨hg, beq_iff_eq.mpr hid.symm⟩, rfl⟩

/-- **Invites are not over-used.**  In every interleaving of invites being created
    and accepted, with statements failing anywhere, every count is within its bound
    and is the number of workspaces created. -/
theorem invites_not_overused {ι : Type*} [DecidableEq ι] (pf : Platform) (db : Db)
    (requests : ι → InviteRequest) (ticks : List (ι × InviteTick)) :
    Always (InviteStage.step pf) (fun p => InvitesNotOverused db p.store)
      ⟨⟨db.withoutInvites, []⟩, fun i => .received (requests i)⟩ ticks := by
  have hstep : ∀ (p : Pool ι InviteStore InviteStage) (t : ι × InviteTick),
      InvitesCounted db p.store → InvitesCounted db (tick (InviteStage.step pf) p t).store := by
    intro p t h
    rw [tick_store]
    exact h.change (InviteStage.step_change pf t.2 p.store (p.request t.1))
  have hall : Always (InviteStage.step pf)
      (fun p : Pool ι InviteStore InviteStage => InvitesCounted db p.store)
      ⟨⟨db.withoutInvites, []⟩, fun i => .received (requests i)⟩ ticks :=
    run_always hstep (invitesCounted_withoutInvites db) ticks
  intro pre post hsplit
  exact (hall pre post hsplit).notOverused

end Peanut
