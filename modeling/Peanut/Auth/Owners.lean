import Peanut.Auth.Users
import Peanut.Library.Transition
import Peanut.Workspaces.Members

/-!
# Owners of the platform

The requests that make and unmake administrators: roles (`api/admin.rs`), activity
through both admin routes, deletion, registration and the bootstrap.  Only
`update_admin_role` asks whether an owner remains, and it asks for the rows of all
apps, active or not, and only when an owner demotes itself.
-/

namespace Peanut

open Relational

/-! ### Activity -/

def User.withActive (isActive : Bool) (u : User) : User := { u with isActive := isActive }

theorem User.id_withActive (isActive : Bool) (u : User) : (u.withActive isActive).id = u.id := rfl

/-- The activity of the users that match. -/
def Db.setActive (db : Db) (p : User → Bool) (isActive : Bool) : Db :=
  let users := db.users.updateWhere p (User.withActive isActive) (User.id_withActive isActive)
  { db with users := users }

/-- `UPDATE users SET is_active = ? WHERE id = ?`: any user of any app. -/
def setUserActive (db : Db) (env : Env) (appId actorUserId userId : String) (isActive : Bool)
    (action eventAction : String) : Db × Except ApiError (Reply MessageResponse) :=
  if db.users.hasKey userId then
    (recordAuthEvent (db.setActive (fun u => u.id == userId) isActive) env (env.uuid 0) appId userId
        (some actorUserId) eventAction none,
      .ok (jsonMessage .ok (action ++ "d user " ++ userId)))
  else (db, .error (jsonError .notFound "user not found"))

def activateUser (db : Db) (env : Env) (claims : Claims) (userId : String) :
    Db × Except ApiError (Reply MessageResponse) :=
  Outcome.proceed db (Outcome.ensure claims.isAdmin (jsonError .forbidden "admin access required"))
    fun () => setUserActive db env claims.appId claims.sub userId true "activate" "user_activated"

def deactivateUser (db : Db) (env : Env) (claims : Claims) (userId : String) :
    Db × Except ApiError (Reply MessageResponse) :=
  Outcome.proceed db (Outcome.ensure claims.isAdmin (jsonError .forbidden "admin access required"))
    fun () =>
      setUserActive db env claims.appId claims.sub userId false "deactivate" "user_deactivated"

def updateAdminUserActive (db : Db) (env : Env) (claims : Claims) (appId userId : String)
    (isActive : Bool) : Db × Except ApiError (Reply UserSummary) :=
  Outcome.proceed db (adminClaimsForApp claims appId) fun claims =>
    match loadUserById db claims.appId userId with
    | none => (db, .error (jsonError .notFound "auth user not found"))
    | some _ =>
        let db := db.setActive (fun u => u.appId == claims.appId && u.id == userId) isActive
        let db := recordAuthEvent db env (env.uuid 0) claims.appId userId (some claims.sub)
          (if isActive then "auth.user.activated" else "auth.user.deactivated") none
        (db, (Outcome.require (loadUserById db claims.appId userId)
          (jsonError .internalServerError "failed to load auth user")).map
            fun user => { status := .ok, body := user.summary })

def activateAdminUser (db : Db) (env : Env) (claims : Claims) (appId userId : String) :
    Db × Except ApiError (Reply UserSummary) :=
  updateAdminUserActive db env claims appId userId true

def deactivateAdminUser (db : Db) (env : Env) (claims : Claims) (appId userId : String) :
    Db × Except ApiError (Reply UserSummary) :=
  updateAdminUserActive db env claims appId userId false

/-! ### Runs -/

inductive AdminAction where
  | updateAdminRole (claims : Claims) (userId adminRole : String)
  | activateUser (claims : Claims) (userId : String)
  | deactivateUser (claims : Claims) (userId : String)
  | activateAdminUser (claims : Claims) (appId userId : String)
  | deactivateAdminUser (claims : Claims) (appId userId : String)
  | createAdminUser (claims : Claims) (appId : String) (payload : CreateAdminUserRequest)
  | deleteAdminUser (claims : Claims) (appId userId : String)
  | registerForApp (appId : String) (payload : Credentials)
  | bootstrapAdmin (payload : Credentials)

/-- The database after a request, with what it draws from outside. -/
def adminStep (pf : Platform) (db : Db) : Env × AdminAction → Db
  | (env, .updateAdminRole claims userId adminRole) =>
      (updateAdminRole db env claims userId adminRole).1
  | (env, .activateUser claims userId) => (activateUser db env claims userId).1
  | (env, .deactivateUser claims userId) => (deactivateUser db env claims userId).1
  | (env, .activateAdminUser claims appId userId) =>
      (activateAdminUser db env claims appId userId).1
  | (env, .deactivateAdminUser claims appId userId) =>
      (deactivateAdminUser db env claims appId userId).1
  | (env, .createAdminUser claims appId payload) =>
      (createAdminUser pf db env claims appId payload).1
  | (env, .deleteAdminUser claims appId userId) => (deleteAdminUser db env claims appId userId).1
  | (env, .registerForApp appId payload) => (registerForApp pf db env appId payload).1
  | (env, .bootstrapAdmin payload) => (bootstrapAdmin pf db env payload).1

/-- An active owner of the default app. -/
def User.isPlatformOwner (u : User) : Bool :=
  u.appId == DEFAULT_APP_ID && u.isActive && u.isAdmin && u.adminRole == .owner

def IsPlatformOwner (db : Db) (userId : String) : Prop :=
  ∃ u ∈ db.users, u.id = userId ∧ u.isPlatformOwner = true

/-- There is someone who can administrate the platform. -/
def HasPlatformOwner (db : Db) : Prop := ∃ userId, IsPlatformOwner db userId

/-- The user a request takes the ownership from, if the user has it. -/
def AdminAction.disowns (db : Db) : AdminAction → Option String
  | .updateAdminRole claims userId adminRole =>
      match updateAdminRoleChecks db claims userId adminRole with
      | .ok role => if role = .owner then none else some userId
      | .error _ => none
  | .deactivateUser claims userId => if claims.isAdmin then some userId else none
  | .deactivateAdminUser claims appId userId =>
      if Outcome.succeeded (adminClaimsForApp claims appId) && appId == DEFAULT_APP_ID then
        some userId
      else none
  | .deleteAdminUser claims appId userId =>
      if Outcome.succeeded (adminClaimsForApp claims appId) && appId == DEFAULT_APP_ID &&
          claims.sub != userId && !db.userRestricted userId then
        some userId
      else none
  | _ => none

/-- Another owner remains. -/
def SparesOwner (db : Db) (action : AdminAction) : Prop :=
  ∀ userId, action.disowns db = some userId → ∃ other, other ≠ userId ∧ IsPlatformOwner db other

/-! ### What a request does to the owners -/

section Owners

variable {db db' : Db} {userId : String}

theorem isPlatformOwner_congr (h : db'.users = db.users) (id : String) :
    IsPlatformOwner db' id ↔ IsPlatformOwner db id := by
  rw [IsPlatformOwner, IsPlatformOwner, h]

variable {p : User → Bool} {g : User → User}

theorem isPlatformOwner_updateWhere
    (hg : ∀ u, (g u).id = u.id) (h : db'.users = db.users.updateWhere p g hg) (id : String) :
    IsPlatformOwner db' id ↔
      ∃ u ∈ db.users, u.id = id ∧ (if p u then g u else u).isPlatformOwner = true := by
  unfold IsPlatformOwner
  rw [h]
  constructor
  · rintro ⟨v, hv, rfl, howner⟩
    obtain ⟨u, hu, rfl⟩ := (KeyedTable.mem_updateWhere hg).mp hv
    refine ⟨u, hu, ?_, howner⟩
    split
    · exact (hg u).symm
    · rfl
  · rintro ⟨u, hu, rfl, howner⟩
    refine ⟨_, (KeyedTable.mem_updateWhere hg).mpr ⟨u, hu, rfl⟩, ?_, howner⟩
    split
    · exact hg u
    · rfl

/-- An update that is no owner's afterwards takes the ownership from whom it matches. -/
theorem isPlatformOwner_of_disowning
    (hg : ∀ u, (g u).id = u.id) (h : db'.users = db.users.updateWhere p g hg)
    (hdisowns : ∀ u, (g u).isPlatformOwner = false)
    (hmatches : ∀ u ∈ db.users, u.isPlatformOwner = true → (p u = true ↔ u.id = userId))
    (id : String) : IsPlatformOwner db' id ↔ IsPlatformOwner db id ∧ id ≠ userId := by
  rw [isPlatformOwner_updateWhere hg h]
  constructor
  · rintro ⟨u, hu, rfl, howner⟩
    split at howner
    · rw [hdisowns u] at howner
      cases howner
    · rename_i hno
      exact ⟨⟨u, hu, rfl, howner⟩, fun hid => hno ((hmatches u hu howner).mpr hid)⟩
  · rintro ⟨⟨u, hu, rfl, howner⟩, hne⟩
    refine ⟨u, hu, rfl, ?_⟩
    rw [if_neg fun hp => hne ((hmatches u hu howner).mp hp)]
    exact howner

variable {id : String}

theorem isPlatformOwner_of_keeping
    (hg : ∀ u, (g u).id = u.id) (h : db'.users = db.users.updateWhere p g hg)
    (hkeeps : ∀ u, p u = true → u.isPlatformOwner = true → (g u).isPlatformOwner = true)
    (howner : IsPlatformOwner db id) : IsPlatformOwner db' id := by
  rw [isPlatformOwner_updateWhere hg h]
  obtain ⟨u, hu, rfl, hu'⟩ := howner
  refine ⟨u, hu, rfl, ?_⟩
  split
  · rename_i hp
    exact hkeeps u hp hu'
  · exact hu'

theorem isPlatformOwner_insertUser {u : User} (h : db.insertUser u = some db')
    (howner : IsPlatformOwner db id) : IsPlatformOwner db' id := by
  obtain ⟨users, hinsert, rfl⟩ := Db.insertUser_eq_some h
  obtain ⟨v, hv, hid, hv'⟩ := howner
  exact ⟨v, (KeyedTable.mem_insert? hinsert).mpr (.inl hv), hid, hv'⟩

theorem recordAuditLog_users (db : Db) (env : Env) (uuid : String) (appId : Option String)
    (claims : Claims) (action targetType targetId : String) (metadata : Value) :
    (db.recordAuditLog env uuid appId claims action targetType targetId metadata).users =
      db.users := by
  obtain ⟨logs, hlogs⟩ := db.recordAuditLog_frame env uuid appId claims action targetType targetId
    metadata
  rw [hlogs]

theorem ne_of_not_hasKey (hnone : db.users.hasKey userId = false)
    (h : IsPlatformOwner db id) : id ≠ userId := by
  rintro rfl
  obtain ⟨u, hu, rfl, -⟩ := h
  rw [KeyedTable.hasKey_of_mem hu] at hnone
  cases hnone

theorem isPlatformOwner_inactive (u : User) :
    (u.withActive false).isPlatformOwner = false := by
  simp [User.isPlatformOwner, User.withActive]

theorem isPlatformOwner_activated (u : User) (h : u.isPlatformOwner = true) :
    (u.withActive true).isPlatformOwner = true := by
  simp only [User.isPlatformOwner, User.withActive, Bool.and_eq_true] at h ⊢
  exact ⟨⟨⟨h.1.1.1, trivial⟩, h.1.2⟩, h.2⟩

/-! ### One request -/

theorem setUserActive_true_keeps (env : Env) (appId actor userId action event : String)
    (h : IsPlatformOwner db id) :
    IsPlatformOwner (setUserActive db env appId actor userId true action event).1 id := by
  unfold setUserActive
  split
  · rw [isPlatformOwner_congr (recordAuthEvent_users ..)]
    exact isPlatformOwner_of_keeping (User.id_withActive true) rfl
      (fun u _ hu => isPlatformOwner_activated u hu) h
  · exact h

theorem setUserActive_false_disowns (db : Db) (env : Env)
    (appId actor userId action event id : String) :
    IsPlatformOwner (setUserActive db env appId actor userId false action event).1 id ↔
      IsPlatformOwner db id ∧ id ≠ userId := by
  unfold setUserActive
  split
  · rw [isPlatformOwner_congr (recordAuthEvent_users ..)]
    refine isPlatformOwner_of_disowning (User.id_withActive false) rfl
      isPlatformOwner_inactive ?_ id
    intro u _ _
    exact beq_iff_eq
  · rename_i hnone
    rw [Bool.not_eq_true] at hnone
    exact ⟨fun h => ⟨h, ne_of_not_hasKey hnone h⟩, And.left⟩

theorem loadUserById_of_owner {u : User} (hu : u ∈ db.users) (howner : u.isPlatformOwner = true) :
    (loadUserById db DEFAULT_APP_ID u.id).isSome = true := by
  simp only [User.isPlatformOwner, Bool.and_eq_true, beq_iff_eq] at howner
  rw [loadUserById, KeyedTable.selectOne, List.find?_isSome]
  exact ⟨u, hu, by simp [howner.1.1.1]⟩

theorem updateAdminUserActive_true_keeps (env : Env) (claims : Claims) (appId userId : String)
    (h : IsPlatformOwner db id) :
    IsPlatformOwner (updateAdminUserActive db env claims appId userId true).1 id := by
  unfold updateAdminUserActive
  refine Outcome.proceed_rule (P := fun s => IsPlatformOwner s id) h ?_
  intro claims' _
  split
  · exact h
  · dsimp only
    rw [isPlatformOwner_congr (recordAuthEvent_users ..)]
    exact isPlatformOwner_of_keeping (User.id_withActive true) rfl
      (fun u _ hu => isPlatformOwner_activated u hu) h

theorem adminClaimsForApp_eq_ok {claims claims' : Claims} {appId : String}
    (h : adminClaimsForApp claims appId = .ok claims') :
    claims' = { claims with appId := appId } := by
  simp only [adminClaimsForApp, Outcome.bind_eq_ok, Outcome.ensure_eq_ok, pure, Except.pure,
    Except.ok.injEq] at h
  obtain ⟨-, -, -, -, rfl⟩ := h
  rfl

theorem updateAdminUserActive_false_cases (db : Db) (env : Env) (claims : Claims)
    (appId userId id : String) :
    IsPlatformOwner (updateAdminUserActive db env claims appId userId false).1 id ↔
      IsPlatformOwner db id ∧
        (Outcome.succeeded (adminClaimsForApp claims appId) = true → appId = DEFAULT_APP_ID →
          id ≠ userId) := by
  unfold updateAdminUserActive
  cases hclaims : adminClaimsForApp claims appId with
  | error e =>
    rw [Outcome.proceed_error]
    exact (and_iff_left nofun).symm
  | ok claims' =>
    rw [Outcome.proceed_ok, adminClaimsForApp_eq_ok hclaims]
    dsimp only
    by_cases happ : appId = DEFAULT_APP_ID
    · subst happ
      simp only [Outcome.succeeded_ok, true_implies]
      split
      · rename_i hnone
        refine ⟨fun h => ⟨h, ?_⟩, And.left⟩
        rintro rfl
        obtain ⟨u, hu, rfl, howner⟩ := h
        have hsome := loadUserById_of_owner hu howner
        rw [hnone] at hsome
        cases hsome
      · rw [isPlatformOwner_congr (recordAuthEvent_users ..)]
        refine isPlatformOwner_of_disowning (User.id_withActive false) rfl
          isPlatformOwner_inactive ?_ id
        intro u _ howner
        simp only [User.isPlatformOwner, Bool.and_eq_true, beq_iff_eq] at howner
        simp [howner.1.1.1]
    · simp only [happ, false_implies, implies_true, and_true]
      split
      · rfl
      · rw [isPlatformOwner_congr (recordAuthEvent_users ..),
          isPlatformOwner_updateWhere (User.id_withActive false) rfl]
        refine exists_congr fun u => and_congr_right fun _ => and_congr_right fun _ => ?_
        split
        · rename_i hmatch
          rw [Bool.and_eq_true, beq_iff_eq] at hmatch
          refine iff_of_false ?_ ?_
          · rw [isPlatformOwner_inactive]
            exact Bool.false_ne_true
          · intro howner
            simp only [User.isPlatformOwner, Bool.and_eq_true, beq_iff_eq] at howner
            exact happ (hmatch.1.symm.trans howner.1.1.1)
        · rfl

/-- Deletion through the routes of an app: the user must be one of the app, somebody
    else, and not referred to. -/
theorem deleteAdminUser_cases (db : Db) (env : Env) (claims : Claims) (appId userId id : String) :
    IsPlatformOwner (deleteAdminUser db env claims appId userId).1 id ↔
      IsPlatformOwner db id ∧
        (Outcome.succeeded (adminClaimsForApp claims appId) = true → appId = DEFAULT_APP_ID →
          claims.sub ≠ userId → db.userRestricted userId = false → id ≠ userId) := by
  have hunchanged : (IsPlatformOwner db id → Outcome.succeeded (adminClaimsForApp claims appId) =
      true → appId = DEFAULT_APP_ID → claims.sub ≠ userId → db.userRestricted userId = false →
        id ≠ userId) →
      (IsPlatformOwner db id ↔ IsPlatformOwner db id ∧
        (Outcome.succeeded (adminClaimsForApp claims appId) = true → appId = DEFAULT_APP_ID →
          claims.sub ≠ userId → db.userRestricted userId = false → id ≠ userId)) :=
    fun h => ⟨fun howner => ⟨howner, h howner⟩, And.left⟩
  unfold deleteAdminUser deleteAdminUserChecks
  cases hclaims : adminClaimsForApp claims appId with
  | error e =>
    rw [hclaims] at hunchanged
    exact hunchanged fun _ => nofun
  | ok claims' =>
    rw [hclaims] at hunchanged
    rw [adminClaimsForApp_eq_ok hclaims, Outcome.ok_bind]
    by_cases hself : claims.sub = userId
    · have hrefused : Outcome.ensure (claims.sub != userId)
          (jsonError .badRequest "current user cannot be deleted") =
            .error (jsonError .badRequest "current user cannot be deleted") := by
        rw [hself, bne_self_eq_false]
        rfl
      rw [hrefused]
      exact hunchanged fun _ _ _ hother => absurd hself hother
    · have hallowed : Outcome.ensure (claims.sub != userId)
          (jsonError .badRequest "current user cannot be deleted") = .ok () := by
        rw [bne_iff_ne.mpr hself]
        rfl
      rw [hallowed, Outcome.ok_bind]
      dsimp only
      cases hload : loadUserById db appId userId with
      | none =>
        refine hunchanged fun howner _ happ _ _ => ?_
        rintro rfl
        obtain ⟨u, hu, rfl, hu'⟩ := howner
        have hsome := loadUserById_of_owner hu hu'
        rw [← happ, hload] at hsome
        cases hsome
      | some user =>
        obtain ⟨db', hdelete, husers⟩ : ∃ db' : Db, Db.deleteUser { db with
            refreshTokens := db.refreshTokens.deleteWhere
              fun t => t.appId == appId && t.userId == userId } appId userId =
              (if db.userRestricted userId then none else some (1, db')) ∧
            db'.users = db.users.deleteWhere fun u => u.id == userId := by
          unfold loadUserById at hload
          unfold Db.deleteUser
          dsimp only
          rw [hload]
          exact ⟨_, rfl, rfl⟩
        simp only [Outcome.require_some, Outcome.ok_bind, pure, Except.pure, Outcome.proceed_ok]
        rw [hdelete]
        by_cases hrestricted : db.userRestricted userId = true
        · rw [if_pos hrestricted]
          refine hunchanged fun _ _ _ _ hfree => ?_
          rw [hrestricted] at hfree
          cases hfree
        · rw [if_neg hrestricted]
          show IsPlatformOwner (recordAuthEvent db' _ _ _ _ _ _ _) id ↔ _
          rw [isPlatformOwner_congr (recordAuthEvent_users ..), IsPlatformOwner, husers]
          obtain ⟨hmem, hmatch⟩ := KeyedTable.selectOne_some hload
          rw [Bool.and_eq_true, beq_iff_eq, beq_iff_eq] at hmatch
          constructor
          · rintro ⟨u, hu, rfl, howner⟩
            obtain ⟨hu', hother⟩ := KeyedTable.mem_deleteWhere.mp hu
            refine ⟨⟨u, hu', rfl, howner⟩, fun _ _ _ _ => ?_⟩
            exact beq_eq_false_iff_ne.mp hother
          · rintro ⟨⟨u, hu, rfl, howner⟩, hspared⟩
            refine ⟨u, KeyedTable.mem_deleteWhere.mpr ⟨hu, ?_⟩, rfl, howner⟩
            rw [beq_eq_false_iff_ne]
            intro hid
            -- the user that goes is of this app, so an owner only if it is the default app
            have hsame := db.users.eq_of_key_eq hu hmem (hid.trans hmatch.2.symm)
            simp only [User.isPlatformOwner, Bool.and_eq_true, beq_iff_eq] at howner
            have happ : appId = DEFAULT_APP_ID := by
              rw [← hmatch.1, ← hsame]
              exact howner.1.1.1
            exact hspared rfl happ hself (Bool.eq_false_iff.mpr hrestricted) hid

theorem updateAdminRole_cases (db : Db) (env : Env) (claims : Claims)
    (userId adminRole id : String) :
    (∀ role, updateAdminRoleChecks db claims userId adminRole = .ok role → role ≠ .owner →
      (IsPlatformOwner (updateAdminRole db env claims userId adminRole).1 id ↔
        IsPlatformOwner db id ∧ id ≠ userId)) ∧
    ((∀ role, updateAdminRoleChecks db claims userId adminRole = .ok role → role = .owner) →
      IsPlatformOwner db id →
        IsPlatformOwner (updateAdminRole db env claims userId adminRole).1 id) := by
  unfold updateAdminRole
  cases hchecks : updateAdminRoleChecks db claims userId adminRole with
  | error e =>
    refine ⟨nofun, fun _ h => ?_⟩
    rw [Outcome.proceed_error]
    exact h
  | ok role =>
    rw [Outcome.proceed_ok]
    dsimp only
    split
    · rw [isPlatformOwner_congr (recordAuditLog_users ..)]
      constructor
      · intro role' hrole hne
        cases hrole
        refine isPlatformOwner_of_disowning (g := fun u =>
          { u with isAdmin := true, adminRole := role }) (fun _ => rfl) rfl ?_ ?_ id
        · intro u
          simp [User.isPlatformOwner, hne]
        · intro u _ _
          exact beq_iff_eq
      · intro howner h
        refine isPlatformOwner_of_keeping (g := fun u =>
          { u with isAdmin := true, adminRole := role }) (fun _ => rfl) rfl ?_ h
        intro u _ hu
        simp only [User.isPlatformOwner, Bool.and_eq_true] at hu ⊢
        rw [howner role rfl]
        exact ⟨⟨hu.1.1, trivial⟩, beq_self_eq_true _⟩
    · rename_i hnone
      rw [Bool.not_eq_true] at hnone
      constructor
      · intro role' _ _
        exact ⟨fun h => ⟨h, ne_of_not_hasKey hnone h⟩, And.left⟩
      · exact fun _ h => h

theorem registerForApp_keeps (pf : Platform) (env : Env) (appId : String) (payload : Credentials)
    (h : IsPlatformOwner db id) :
    IsPlatformOwner (registerForApp pf db env appId payload).1 id := by
  unfold registerForApp
  refine Outcome.proceed_rule (P := fun s => IsPlatformOwner s id) h ?_
  rintro ⟨workspaceId, passwordHash⟩ _
  dsimp only
  split
  · exact h
  · rename_i db' hinsert
    rw [isPlatformOwner_congr (recordAuthEvent_users ..),
      isPlatformOwner_congr (recordUsage_users ..)]
    exact isPlatformOwner_insertUser hinsert h

theorem createAdminUser_keeps (pf : Platform) (env : Env) (claims : Claims) (appId : String)
    (payload : CreateAdminUserRequest) (h : IsPlatformOwner db id) :
    IsPlatformOwner (createAdminUser pf db env claims appId payload).1 id := by
  unfold createAdminUser
  refine Outcome.proceed_rule (P := fun s => IsPlatformOwner s id) h ?_
  rintro ⟨claims', workspaceId, passwordHash⟩ _
  dsimp only
  split
  · exact h
  · rename_i db' hinsert
    rw [isPlatformOwner_congr (recordAuthEvent_users ..),
      isPlatformOwner_congr (recordUsage_users ..)]
    exact isPlatformOwner_insertUser hinsert h

theorem bootstrapAdmin_keeps (pf : Platform) (env : Env) (payload : Credentials)
    (h : IsPlatformOwner db id) : IsPlatformOwner (bootstrapAdmin pf db env payload).1 id := by
  have happ : IsPlatformOwner (ensureDefaultApp db env) id :=
    (isPlatformOwner_congr (ensureDefaultApp_users db env) id).mpr h
  unfold bootstrapAdmin
  refine Outcome.proceed_rule (P := fun s => IsPlatformOwner s id) h ?_
  intro _ _
  dsimp only
  refine Outcome.proceed_rule (P := fun s => IsPlatformOwner s id) happ ?_
  intro passwordHash _
  split
  · exact happ
  · rename_i db' hinsert
    have hinserted := isPlatformOwner_insertUser hinsert happ
    split
    · exact hinserted
    · rename_i response db'' hissue
      obtain ⟨tokens, rfl⟩ := issueLoginResponse_frame hissue
      rw [isPlatformOwner_congr (recordAuthEvent_users ..)]
      exact hinserted

/-- **One request** takes the ownership from the user it disowns, and from nobody else. -/
theorem adminStep_owners (pf : Platform) (db : Db) (env : Env) (action : AdminAction) :
    (∀ userId, action.disowns db = some userId → ∀ id,
      (IsPlatformOwner (adminStep pf db (env, action)) id ↔ IsPlatformOwner db id ∧ id ≠ userId)) ∧
    (action.disowns db = none → ∀ id, IsPlatformOwner db id →
      IsPlatformOwner (adminStep pf db (env, action)) id) := by
  cases action with
  | updateAdminRole claims userId adminRole =>
    have hcases := updateAdminRole_cases db env claims userId adminRole
    simp only [AdminAction.disowns, adminStep]
    constructor
    · intro userId' hdisowns id
      split at hdisowns
      · rename_i role hchecks
        split at hdisowns
        · cases hdisowns
        · rename_i hne
          cases hdisowns
          exact (hcases id).1 role hchecks hne
      · cases hdisowns
    · intro hdisowns id
      refine (hcases id).2 fun role hchecks => ?_
      rw [hchecks] at hdisowns
      dsimp only at hdisowns
      split at hdisowns
      · assumption
      · cases hdisowns
  | activateUser claims userId =>
    refine ⟨nofun, fun _ id h => ?_⟩
    refine Outcome.proceed_rule (P := fun s => IsPlatformOwner s id) h ?_
    intro _ _
    exact setUserActive_true_keeps env _ _ _ _ _ h
  | deactivateUser claims userId =>
    simp only [AdminAction.disowns, adminStep, deactivateUser]
    cases hadmin : claims.isAdmin with
    | true =>
      refine ⟨?_, nofun⟩
      intro userId' hdisowns id
      cases hdisowns
      exact setUserActive_false_disowns db env _ _ _ _ _ id
    | false => exact ⟨nofun, fun _ id h => h⟩
  | activateAdminUser claims appId userId =>
    exact ⟨nofun, fun _ id h => updateAdminUserActive_true_keeps env claims appId userId h⟩
  | deactivateAdminUser claims appId userId =>
    have hcases := updateAdminUserActive_false_cases db env claims appId userId
    simp only [AdminAction.disowns, adminStep, deactivateAdminUser]
    constructor
    · intro userId' hdisowns id
      split at hdisowns
      · rename_i hmet
        rw [Bool.and_eq_true, beq_iff_eq] at hmet
        cases hdisowns
        rw [hcases, and_congr_right_iff]
        exact fun _ => ⟨fun h => h hmet.1 hmet.2, fun h _ _ => h⟩
      · cases hdisowns
    · intro hdisowns id h
      split at hdisowns
      · cases hdisowns
      · rename_i hunmet
        refine (hcases id).mpr ⟨h, fun hok happ => ?_⟩
        rw [hok, happ] at hunmet
        exact absurd rfl hunmet
  | createAdminUser claims appId payload =>
    exact ⟨nofun, fun _ id h => createAdminUser_keeps pf env claims appId payload h⟩
  | deleteAdminUser claims appId userId =>
    have hcases := deleteAdminUser_cases db env claims appId userId
    simp only [AdminAction.disowns, adminStep]
    constructor
    · intro userId' hdisowns id
      split at hdisowns
      · rename_i hmet
        simp only [Bool.and_eq_true, beq_iff_eq, bne_iff_ne, Bool.not_eq_true'] at hmet
        obtain ⟨⟨⟨hok, happ⟩, hother⟩, hfree⟩ := hmet
        cases hdisowns
        rw [hcases, and_congr_right_iff]
        exact fun _ => ⟨fun h => h hok happ hother hfree, fun h _ _ _ _ => h⟩
      · cases hdisowns
    · intro hdisowns id h
      split at hdisowns
      · cases hdisowns
      · rename_i hunmet
        refine (hcases id).mpr ⟨h, fun hok happ hother hfree => ?_⟩
        simp only [Bool.and_eq_true, beq_iff_eq, bne_iff_ne, Bool.not_eq_true'] at hunmet
        exact absurd ⟨⟨⟨hok, happ⟩, hother⟩, hfree⟩ hunmet
  | registerForApp appId payload =>
    exact ⟨nofun, fun _ id h => registerForApp_keeps pf env appId payload h⟩
  | bootstrapAdmin payload =>
    exact ⟨nofun, fun _ id h => bootstrapAdmin_keeps pf env payload h⟩

theorem hasPlatformOwner_step_iff (pf : Platform) {db : Db} (h : HasPlatformOwner db) (env : Env)
    (action : AdminAction) :
    HasPlatformOwner (adminStep pf db (env, action)) ↔ SparesOwner db action := by
  obtain ⟨hdisowned, hkept⟩ := adminStep_owners pf db env action
  unfold SparesOwner
  cases hdisowns : action.disowns db with
  | none =>
    obtain ⟨id, howner⟩ := h
    exact iff_of_true ⟨id, hkept hdisowns id howner⟩ nofun
  | some userId =>
    constructor
    · rintro ⟨id, howner⟩ userId' hsome
      cases hsome
      obtain ⟨hbefore, hne⟩ := (hdisowned userId hdisowns id).mp howner
      exact ⟨id, hne, hbefore⟩
    · intro hspares
      obtain ⟨id, hne, hbefore⟩ := hspares userId rfl
      exact ⟨id, (hdisowned userId hdisowns id).mpr ⟨hbefore, hne⟩⟩

end Owners

/-- **There is always an owner** along a run exactly if no request demotes, deactivates
    or deletes the last one. -/
theorem platform_owner_remains_iff (pf : Platform) {db : Db} (h : HasPlatformOwner db)
    (requests : List (Env × AdminAction)) :
    (∀ pre post, requests = pre ++ post →
        HasPlatformOwner (Transition.run (adminStep pf) db pre)) ↔
      ∀ pre request post, requests = pre ++ request :: post →
        SparesOwner (Transition.run (adminStep pf) db pre) request.2 := by
  have hstep : ∀ (s : Db) (r : Env × AdminAction), HasPlatformOwner s →
      (HasPlatformOwner (adminStep pf s r) ↔ SparesOwner s r.2) :=
    fun s r hs => hasPlatformOwner_step_iff pf hs r.1 r.2
  exact Transition.good_iff_admissible hstep h requests

/-! ### The last owner -/

def platformOwner (id : String) : User :=
  { id := id, appId := DEFAULT_APP_ID, email := id ++ "@example.com", passwordHash := "$" ++ id
    isActive := true, isAdmin := true, adminRole := .owner, createdAt := "2026-01-01 00:00:00" }

def olgaClaims : Claims := { sub := "olga", appId := DEFAULT_APP_ID, exp := 0, isAdmin := true }

/-- Olga and Ivan own the platform. -/
def olgaAndIvan : Db := { users := ⟨[platformOwner "olga", platformOwner "ivan"], by decide⟩ }

theorem olga_owns_platform : IsPlatformOwner olgaAndIvan "olga" :=
  ⟨platformOwner "olga", List.mem_cons_self, rfl, rfl⟩

theorem owner_remains_without_ivan :
    HasPlatformOwner olgaAndIvan ∧
      ∀ pre post, [(sampleEnv "a", AdminAction.deactivateUser olgaClaims "ivan")] = pre ++ post →
        HasPlatformOwner (Transition.run (adminStep asciiPlatform) olgaAndIvan pre) := by
  refine ⟨⟨"olga", olga_owns_platform⟩,
    (platform_owner_remains_iff asciiPlatform ⟨"olga", olga_owns_platform⟩ _).mpr ?_⟩
  intro pre request post hsplit
  rcases pre with _ | ⟨first, rest⟩
  · cases hsplit
    intro userId hdisowns
    cases hdisowns
    exact ⟨"olga", by decide, olga_owns_platform⟩
  · simp at hsplit

/-- Olga owns the platform alone. -/
def olgaAlone : Db := { users := ⟨[platformOwner "olga"], by decide⟩ }

/-- She can deactivate herself. -/
theorem last_owner_deactivated :
    HasPlatformOwner olgaAlone ∧
      Outcome.succeeded (deactivateUser olgaAlone (sampleEnv "a") olgaClaims "olga").2 = true ∧
      ¬ HasPlatformOwner (Transition.run (adminStep asciiPlatform) olgaAlone
        [(sampleEnv "a", .deactivateUser olgaClaims "olga")]) := by
  have howner : HasPlatformOwner olgaAlone :=
    ⟨"olga", platformOwner "olga", List.mem_singleton_self _, rfl, rfl⟩
  refine ⟨howner, rfl, ?_⟩
  rw [Transition.run, Transition.run, hasPlatformOwner_step_iff asciiPlatform howner]
  intro hspares
  obtain ⟨other, hne, u, hu, rfl, -⟩ := hspares "olga" rfl
  rw [List.mem_singleton.mp hu] at hne
  exact hne rfl

end Peanut
