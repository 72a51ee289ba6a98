import Peanut.Auth.OAuth
import Peanut.Auth.SignUp

/-!
# The first user

Three requests make an administrator of a user who asks for it: registration makes
one of the first user of an app, an OAuth login of the first user of all apps, and
the bootstrap if nobody is one.  Each decides by a count that it takes some
statements before its `INSERT`, which does not look again.
-/

namespace Peanut

open Relational Interleaving

/-! ### Creating a user from a profile -/

/-- `create_oauth_user`. -/
def createOAuthUser (pf : Platform) (db : Db) (env : Env) (appId email : String) :
    Db × Except String UserSummary :=
  let isAdmin := db.users.rows.isEmpty
  match pf.hashPassword (env.token 0) env.salt with
  | none => (db, .error "failed to hash oauth user password")
  | some passwordHash =>
      let user := oauthUser env appId email passwordHash isAdmin
      match db.insertUser user with
      | none => (db, .error "failed to create oauth user")
      | some db => (db, .ok user.summary)

/-- Without interference, a callback for a newcomer computes `createOAuthUser`. -/
theorem createOAuthUser_alone (pf : Platform) (cipher : SecretCipher) (exchange : CodeExchange)
    (env : Env) (db : Db) (c : OAuthCallbackCall) (login : OAuthLogin) :
    alone (OAuthCallbackCall.step pf cipher exchange) env 2 db
        { c with stage := .newcomer login } =
      ((createOAuthUser pf db env c.appId (asciiLowercase (trim login.email))).1,
        match (createOAuthUser pf db env c.appId (asciiLowercase (trim login.email))).2 with
        | .error message => { c with stage := .refused (jsonError .internalServerError message) }
        | .ok user => { c with stage := .found login user }) := by
  unfold createOAuthUser
  cases hhash : pf.hashPassword (env.token 0) env.salt with
  | none => simp [alone, OAuthCallbackCall.step, OAuthCallbackCall.fail, hhash]
  | some passwordHash =>
    cases hinsert : db.insertUser (oauthUser env c.appId (asciiLowercase (trim login.email))
        passwordHash db.users.rows.isEmpty) with
    | none => simp [alone, OAuthCallbackCall.step, OAuthCallbackCall.fail, hhash, hinsert]
    | some db' => simp [alone, OAuthCallbackCall.step, hhash, hinsert]

theorem createOAuthUser_eq_ok {pf : Platform} {db : Db} {env : Env} {appId email : String}
    {user : UserSummary} (h : (createOAuthUser pf db env appId email).2 = .ok user) :
    user.isAdmin = db.users.rows.isEmpty ∧
      user.adminRole = if db.users.rows.isEmpty then .owner else .viewer := by
  unfold createOAuthUser at h
  dsimp only at h
  split at h
  · cases h
  · split at h
    · cases h
    · cases h
      exact ⟨rfl, rfl⟩

theorem registerForApp_eq_ok {pf : Platform} {db : Db} {env : Env} {appId : String}
    {payload : Credentials} {reply : Reply RegisterResponse}
    (h : (registerForApp pf db env appId payload).2 = .ok reply) :
    reply.body.user.isAdmin = isFirstUser db appId ∧
      reply.body.user.adminRole = if isFirstUser db appId then .owner else .viewer := by
  unfold registerForApp at h
  cases hchecks : registerChecks pf db env appId payload with
  | error e =>
    rw [hchecks] at h
    cases h
  | ok checked =>
    rw [hchecks, Outcome.proceed_ok] at h
    dsimp only at h
    split at h
    · cases h
    · cases h
      exact ⟨rfl, rfl⟩

theorem isFirstUser_eq_false {db : Db} {appId : String} :
    isFirstUser db appId = false ↔ ∃ u ∈ db.users, u.appId = appId := by
  unfold isFirstUser
  rw [List.isEmpty_eq_false_iff_exists_mem]
  simp

/-- **Two first-user rules.**  An OAuth login and a registration make the same of a
    new user of an app exactly if there are no users at all or the app has one. -/
theorem oauth_and_register_agree_iff {pf : Platform} {db : Db} {env env' : Env}
    {appId email : String} {payload : Credentials} {user : UserSummary}
    {reply : Reply RegisterResponse}
    (hoauth : (createOAuthUser pf db env appId email).2 = .ok user)
    (hregister : (registerForApp pf db env' appId payload).2 = .ok reply) :
    (user.isAdmin = reply.body.user.isAdmin ∧ user.adminRole = reply.body.user.adminRole) ↔
      db.users.rows = [] ∨ ∃ u ∈ db.users, u.appId = appId := by
  obtain ⟨hadmin, hrole⟩ := createOAuthUser_eq_ok hoauth
  obtain ⟨hadmin', hrole'⟩ := registerForApp_eq_ok hregister
  rw [hadmin, hrole, hadmin', hrole', ← isFirstUser_eq_false, ← List.isEmpty_iff]
  cases hall : db.users.rows.isEmpty with
  | false => cases isFirstUser db appId <;> simp
  | true =>
    -- no users at all, so none of the app
    have hfirst : isFirstUser db appId = true := by
      rw [List.isEmpty_iff] at hall
      simp [isFirstUser, KeyedTable.select, hall]
    simp [hfirst]

/-- The default app has a user and the shop has none. -/
def olgaAndShop : Db :=
  { users := ⟨[{
      id := "olga", appId := "default", email := "olga@example.com", passwordHash := "$olga"
      isActive := true, isAdmin := true, adminRole := .owner
      createdAt := "2026-01-01 00:00:00" }], by decide⟩
    apps := ⟨[{
      id := "default", name := "default", displayName := "Default", workspaceId := "default"
      createdBy := none, createdAt := "2026-01-01 00:00:00", updatedAt := "2026-01-01 00:00:00"
      deletedAt := none }, {
      id := "shop", name := "shop", displayName := "Shop", workspaceId := "default"
      createdBy := none, createdAt := "2026-01-01 00:00:00", updatedAt := "2026-01-01 00:00:00"
      deletedAt := none }], by decide⟩ }

def ivanCredentials : Credentials := { email := "ivan@example.com", password := "ivan-password" }

def ivanSummary (appId : String) (isActive isAdmin : Bool) (role : Role) : UserSummary :=
  { id := "a0", appId := appId, email := "ivan@example.com", isActive := isActive
    isAdmin := isAdmin, adminRole := role }

def ivanRegistered (message : String) (user : UserSummary) : Reply RegisterResponse :=
  { status := .created, body := { message := message, user := user } }

/-- Whichever way Ivan comes to the default app, he is a viewer. -/
theorem second_user_same_either_way :
    (createOAuthUser asciiPlatform olgaAndShop (sampleEnv "a") "default" "ivan@example.com").2 =
        .ok (ivanSummary "default" true false .viewer) ∧
      (registerForApp asciiPlatform olgaAndShop (sampleEnv "a") "default" ivanCredentials).2 =
        .ok (ivanRegistered "User registered. Wait for admin approval."
          (ivanSummary "default" false false .viewer)) ∧
      (ivanSummary "default" true false .viewer).isAdmin =
        (ivanSummary "default" false false .viewer).isAdmin ∧
      (ivanSummary "default" true false .viewer).adminRole =
        (ivanSummary "default" false false .viewer).adminRole := by
  have hoauth : (createOAuthUser asciiPlatform olgaAndShop (sampleEnv "a") "default"
      "ivan@example.com").2 = .ok (ivanSummary "default" true false .viewer) := by
    decide +kernel
  have hregister : (registerForApp asciiPlatform olgaAndShop (sampleEnv "a") "default"
      ivanCredentials).2 = .ok (ivanRegistered "User registered. Wait for admin approval."
        (ivanSummary "default" false false .viewer)) := by
    decide +kernel
  refine ⟨hoauth, hregister, (oauth_and_register_agree_iff hoauth hregister).mpr ?_⟩
  decide

/-- The first user of the shop is an owner or not, depending on the way in. -/
theorem first_user_of_second_app_differs :
    (createOAuthUser asciiPlatform olgaAndShop (sampleEnv "a") "shop" "ivan@example.com").2 =
        .ok (ivanSummary "shop" true false .viewer) ∧
      (registerForApp asciiPlatform olgaAndShop (sampleEnv "a") "shop" ivanCredentials).2 =
        .ok (ivanRegistered "First user registered as active admin."
          (ivanSummary "shop" true true .owner)) ∧
      (ivanSummary "shop" true false .viewer).isAdmin ≠
        (ivanSummary "shop" true true .owner).isAdmin := by
  decide +kernel

/-! ### Racing for the first place -/

/-- What is counted before a user is made an administrator. -/
inductive UserCount where
  | ofApp (appId : String)
  | ofAllApps
  | ofAdmins
deriving DecidableEq

def UserCount.includes : UserCount → User → Bool
  | .ofApp appId, u => u.appId == appId
  | .ofAllApps, _ => true
  | .ofAdmins, u => u.isAdmin

def UserCount.isZero (db : Db) (count : UserCount) : Bool :=
  (db.users.select count.includes).isEmpty

theorem UserCount.isZero_iff {db : Db} {count : UserCount} :
    count.isZero db = true ↔ ∀ u ∈ db.users, count.includes u = false := by
  rw [isZero, List.isEmpty_iff, List.eq_nil_iff_forall_not_mem]
  simp

inductive SignUpCall where
  | register (c : RegisterCall)
  | oauth (c : OAuthCallbackCall)
  | bootstrap (c : BootstrapCall)

namespace SignUpCall

def step (pf : Platform) (cipher : SecretCipher) (exchange : CodeExchange) (env : Env) (db : Db) :
    SignUpCall → Db × SignUpCall
  | .register c => Prod.map id .register (c.step pf env db)
  | .oauth c => Prod.map id .oauth (c.step pf cipher exchange env db)
  | .bootstrap c => Prod.map id .bootstrap (c.step pf env db)

def isReceived : SignUpCall → Prop
  | .register c => c.stage = .received
  | .oauth c => c.stage = .received
  | .bootstrap c => c.stage = .received

/-- The user that the next statement is to insert, with the count by which the
    user is an administrator or not. -/
def insertion (pf : Platform) (env : Env) : SignUpCall → Option (UserCount × User)
  | .register c =>
      match c.stage with
      | .checked passwordHash isAdmin _ =>
          some (.ofApp c.appId, signedUpUser pf env c.appId c.payload passwordHash isAdmin)
      | _ => none
  | .oauth c =>
      match c.stage with
      | .counted login isAdmin =>
          (pf.hashPassword (env.token 0) env.salt).map fun passwordHash =>
            (.ofAllApps,
              oauthUser env c.appId (asciiLowercase (trim login.email)) passwordHash isAdmin)
      | _ => none
  | .bootstrap c =>
      match c.stage with
      | .appEnsured =>
          match hashPasswordOr500 pf env c.payload.password with
          | .error _ => none
          | .ok passwordHash => some (.ofAdmins, bootstrappedUser pf env c.payload passwordHash)
      | _ => none

/-- The administrator that a bootstrap has made. -/
def bootstrapped : SignUpCall → Option User
  | .bootstrap c =>
      match c.stage with
      | .inserted user => some user
      | .issued user _ => some user
      | .completed user _ => some user
      | _ => none
  | _ => none

/-- A bootstrap that was answered with success. -/
def bootstrapSucceeded : SignUpCall → Bool
  | .bootstrap c => c.reply.any Outcome.succeeded
  | _ => false

theorem bootstrapped_of_succeeded {c : SignUpCall} (h : c.bootstrapSucceeded = true) :
    c.bootstrapped ≠ none := by
  cases c with
  | register c => cases h
  | oauth c => cases h
  | bootstrap c =>
    obtain ⟨payload, stage⟩ := c
    cases stage with
    | completed user response => exact Option.some_ne_none user
    | _ => cases h

theorem step_users (pf : Platform) (cipher : SecretCipher) (exchange : CodeExchange) (env : Env)
    (db : Db) (c : SignUpCall) :
    (c.step pf cipher exchange env db).1.users = db.users ∨
      ∃ count user, c.insertion pf env = some (count, user) ∧
        db.insertUser user = some (c.step pf cipher exchange env db).1 := by
  cases c with
  | register c =>
    obtain ⟨appId, payload, stage⟩ := c
    cases stage with
    | checked passwordHash isAdmin workspaceId =>
      simp only [step, RegisterCall.step, Prod.map_fst, id]
      split
      · exact .inl rfl
      · rename_i db' hinsert
        exact .inr ⟨_, _, rfl, hinsert⟩
    | inserted workspaceId user => exact .inl (recordUsage_users ..)
    | usageRecorded user => exact .inl (recordAuthEvent_users ..)
    | _ =>
      -- the remaining stages only read
      refine .inl ?_
      simp only [step, RegisterCall.step, Prod.map_fst, id]
      repeat' split
      all_goals rfl
  | oauth c =>
    obtain ⟨appId, provider, code, state, stage⟩ := c
    cases stage with
    | counted login isAdmin =>
      simp only [step, OAuthCallbackCall.step, Prod.map_fst, id]
      split
      · exact .inl rfl
      · rename_i passwordHash hhash
        split
        · exact .inl rfl
        · rename_i db' hinsert
          refine .inr ⟨.ofAllApps, _, ?_, hinsert⟩
          simp [insertion, hhash]
    | found login user =>
      refine .inl ?_
      simp only [step, OAuthCallbackCall.step, Prod.map_fst, id]
      split
      · rfl
      · rename_i db' hupsert
        obtain ⟨identities, rfl⟩ := Db.upsertAuthIdentity_eq_some hupsert
        rfl
    | spent login user =>
      refine .inl ?_
      simp only [step, OAuthCallbackCall.step, Prod.map_fst, id]
      split
      · rfl
      · rename_i response db' hissue
        obtain ⟨tokens, rfl⟩ := issueLoginResponse_frame hissue
        rfl
    | issued login user response => exact .inl (recordAuthEvent_users ..)
    | _ =>
      refine .inl ?_
      simp only [step, OAuthCallbackCall.step, Prod.map_fst, id]
      repeat' split
      all_goals rfl
  | bootstrap c =>
    obtain ⟨payload, stage⟩ := c
    cases stage with
    | unclaimed => exact .inl (ensureDefaultApp_users db env)
    | appEnsured =>
      simp only [step, BootstrapCall.step, Prod.map_fst, id]
      split
      · exact .inl rfl
      · rename_i passwordHash hhash
        split
        · exact .inl rfl
        · rename_i db' hinsert
          refine .inr ⟨.ofAdmins, _, ?_, hinsert⟩
          simp [insertion, hhash]
    | inserted user =>
      refine .inl ?_
      simp only [step, BootstrapCall.step, Prod.map_fst, id]
      split
      · rfl
      · rename_i response db' hissue
        obtain ⟨tokens, rfl⟩ := issueLoginResponse_frame hissue
        rfl
    | issued user response => exact .inl (recordAuthEvent_users ..)
    | _ =>
      refine .inl ?_
      simp only [step, BootstrapCall.step, Prod.map_fst, id]
      repeat' split
      all_goals rfl

theorem step_bootstrapped {pf : Platform} {cipher : SecretCipher} {exchange : CodeExchange}
    {env : Env} {db : Db} {c : SignUpCall} {user : User}
    (h : (c.step pf cipher exchange env db).2.bootstrapped = some user) :
    c.bootstrapped = some user ∨
      (c.insertion pf env = some (.ofAdmins, user) ∧
        db.insertUser user = some (c.step pf cipher exchange env db).1) := by
  cases c with
  | register c => cases h
  | oauth c => cases h
  | bootstrap c =>
    obtain ⟨payload, stage⟩ := c
    cases stage with
    | appEnsured =>
      simp only [step, BootstrapCall.step, Prod.map_fst, Prod.map_snd, id] at h ⊢
      split at h
      · cases h
      · rename_i passwordHash hhash
        split at h
        · cases h
        · rename_i db' hinsert
          cases h
          refine .inr ⟨?_, ?_⟩
          · simp [insertion, hhash]
          · simp [hinsert]
    | inserted made =>
      simp only [step, BootstrapCall.step, Prod.map_snd] at h
      split at h
      · cases h
      · cases h
        exact .inl rfl
    | received =>
      simp only [step, BootstrapCall.step, Prod.map_snd] at h
      split at h
      · cases h
      · cases h
    | unclaimed => cases h
    | issued made response => exact .inl h
    | completed made response => exact .inl h
    | refused e => cases h

theorem no_admin_of_isZero {pf : Platform} {env : Env} {db : Db} {c : SignUpCall}
    {count : UserCount} {user : User} (h : c.insertion pf env = some (count, user))
    (hzero : count.isZero db = true) :
    ∀ u ∈ db.users, u.isAdmin = true → u.appId ≠ user.appId := by
  intro u hu hadmin happ
  have hnone := UserCount.isZero_iff.mp hzero u hu
  cases c with
  | register c =>
    obtain ⟨appId, payload, stage⟩ := c
    cases stage with
    | checked passwordHash isAdmin workspaceId =>
      cases h
      exact absurd happ (beq_eq_false_iff_ne.mp hnone)
    | _ => cases h
  | oauth c =>
    obtain ⟨appId, provider, code, state, stage⟩ := c
    cases stage with
    | counted login isAdmin =>
      obtain ⟨passwordHash, -, hsome⟩ := Option.map_eq_some_iff.mp h
      cases hsome
      cases hnone
    | _ => cases h
  | bootstrap c =>
    obtain ⟨payload, stage⟩ := c
    cases stage with
    | appEnsured =>
      simp only [insertion] at h
      split at h
      · cases h
      · cases h
        rw [UserCount.includes, hadmin] at hnone
        cases hnone
    | _ => cases h

theorem isAdmin_of_insertion {pf : Platform} {env : Env} {c : SignUpCall} {user : User}
    (h : c.insertion pf env = some (.ofAdmins, user)) : user.isAdmin = true := by
  cases c with
  | register c =>
    simp only [insertion] at h
    split at h <;> cases h
  | oauth c =>
    simp only [insertion] at h
    split at h
    · obtain ⟨passwordHash, -, hsome⟩ := Option.map_eq_some_iff.mp h
      cases hsome
    · cases h
  | bootstrap c =>
    simp only [insertion] at h
    split at h
    · split at h
      · cases h
      · cases h
        rfl
    · cases h

end SignUpCall

section Pools

variable {ι : Type} [DecidableEq ι]

/-- No app has two administrators. -/
def OneAdminPerApp (db : Db) : Prop :=
  ∀ u ∈ db.users, ∀ v ∈ db.users, u.isAdmin = true → v.isAdmin = true → u.appId = v.appId → u = v

def HasAdmin (db : Db) : Prop := ∃ u ∈ db.users, u.isAdmin = true

/-- Where only sign-ups run, every administrator is an automatic one. -/
structure AtMostOneAutomaticAdmin (p : Pool ι Db SignUpCall) : Prop where
  perApp : OneAdminPerApp p.store
  bootstraps : ∀ i j, (p.request i).bootstrapSucceeded = true →
    (p.request j).bootstrapSucceeded = true → i = j

/-- The tick does not insert an administrator whose count is out of date. -/
def StillFirst (pf : Platform) (p : Pool ι Db SignUpCall) (t : ι × Env) : Prop :=
  ∀ x ∈ (p.request t.1).insertion pf t.2,
    x.2.isAdmin = true → (p.store.insertUser x.2).isSome = true → x.1.isZero p.store = true

instance (pf : Platform) (p : Pool ι Db SignUpCall) (t : ι × Env) :
    Decidable (StillFirst pf p t) :=
  inferInstanceAs (Decidable (∀ x ∈ (p.request t.1).insertion pf t.2,
    x.2.isAdmin = true → (p.store.insertUser x.2).isSome = true → x.1.isZero p.store = true))

theorem insertUser_users {db db' : Db} {user : User} (h : db.insertUser user = some db')
    (u : User) :
    u ∈ db'.users ↔ u ∈ db.users ∨ u = user := by
  obtain ⟨users, hinsert, rfl⟩ := Db.insertUser_eq_some h
  exact KeyedTable.mem_insert? hinsert

variable {pf : Platform} {cipher : SecretCipher} {exchange : CodeExchange}

theorem oneAdminPerApp_tick {p : Pool ι Db SignUpCall} {t : ι × Env} (h : OneAdminPerApp p.store)
    (hfirst : StillFirst pf p t) :
    OneAdminPerApp (tick (SignUpCall.step pf cipher exchange) p t).store := by
  rw [tick_store]
  rcases SignUpCall.step_users pf cipher exchange t.2 p.store (p.request t.1) with
    husers | ⟨count, user, hinsertion, hinsert⟩
  · unfold OneAdminPerApp
    rw [husers]
    exact h
  · have hfree : user.isAdmin = true →
        ∀ u ∈ p.store.users, u.isAdmin = true → u.appId ≠ user.appId := by
      intro hadmin
      apply SignUpCall.no_admin_of_isZero hinsertion
      apply hfirst _ hinsertion hadmin
      rw [hinsert]
      rfl
    intro u hu v hv hadmin hadmin' happ
    rw [insertUser_users hinsert] at hu hv
    rcases hu with hu | rfl
    · rcases hv with hv | rfl
      · exact h u hu v hv hadmin hadmin' happ
      · exact absurd happ (hfree hadmin' u hu hadmin)
    · rcases hv with hv | rfl
      · exact absurd happ.symm (hfree hadmin v hv hadmin')
      · rfl

/-- At most one bootstrap has made an administrator, and then there is one. -/
def BootstrapsOnce (p : Pool ι Db SignUpCall) : Prop :=
  SingleUse (κ := Unit) (fun db _ => HasAdmin db) (fun c _ => c.bootstrapped ≠ none)
    (fun _ _ => False) p

theorem bootstrapsOnce_tick {p : Pool ι Db SignUpCall} {t : ι × Env} (h : BootstrapsOnce p)
    (hfirst : StillFirst pf p t) :
    BootstrapsOnce (tick (SignUpCall.step pf cipher exchange) p t) := by
  have hmark : HasAdmin p.store →
      HasAdmin ((p.request t.1).step pf cipher exchange t.2 p.store).1 := by
    rintro ⟨u, hu, hadmin⟩
    refine ⟨u, ?_, hadmin⟩
    rcases SignUpCall.step_users pf cipher exchange t.2 p.store (p.request t.1) with
      husers | ⟨count, user, -, hinsert⟩
    · rw [husers]
      exact hu
    · exact (insertUser_users hinsert u).mpr (.inl hu)
  have hcases : ((p.request t.1).step pf cipher exchange t.2 p.store).2.bootstrapped ≠ none →
      (p.request t.1).bootstrapped ≠ none ∨
        (¬ HasAdmin p.store ∧
          HasAdmin ((p.request t.1).step pf cipher exchange t.2 p.store).1) := by
    intro hmade
    obtain ⟨user, huser⟩ := Option.ne_none_iff_exists'.mp hmade
    rcases SignUpCall.step_bootstrapped huser with hbefore | ⟨hinsertion, hinsert⟩
    · rw [hbefore]
      exact .inl (Option.some_ne_none user)
    · refine .inr ⟨?_, user, (insertUser_users hinsert user).mpr (.inr rfl),
        SignUpCall.isAdmin_of_insertion hinsertion⟩
      have hzero : UserCount.ofAdmins.isZero p.store = true := by
        apply hfirst _ hinsertion (SignUpCall.isAdmin_of_insertion hinsertion)
        rw [hinsert]
        rfl
      rintro ⟨u, hu, hadmin⟩
      have hnone := UserCount.isZero_iff.mp hzero u hu
      rw [UserCount.includes, hadmin] at hnone
      cases hnone
  refine SingleUse.tick h (fun _ => hmark) ?_ ?_
  · intro k hmade
    rcases hcases hmade with hbefore | ⟨hnone, -⟩
    · exact .inl hbefore
    · exact .inr ⟨hnone, fun _ _ => id⟩
  · intro k hmade hcovered
    rcases hcases hmade with hbefore | ⟨-, hadmin⟩
    · rcases hcovered hbefore with hholds | hmarked
      · exact hholds.elim
      · exact .inr (hmark hmarked)
    · exact .inr hadmin

/-- **At most one automatic administrator.**  From an empty users table, in every
    interleaving in which no administrator is inserted on a count that is out of date,
    no app has two administrators and at most one bootstrap succeeds. -/
theorem one_automatic_admin_of_stillFirst (pf : Platform) (cipher : SecretCipher)
    (exchange : CodeExchange) (p : Pool ι Db SignUpCall) (hempty : p.store.users.rows = [])
    (hreceived : ∀ i, (p.request i).isReceived) (ticks : List (ι × Env))
    (hfirst : Admissible (SignUpCall.step pf cipher exchange) (StillFirst pf) p ticks) :
    Always (SignUpCall.step pf cipher exchange) AtMostOneAutomaticAdmin p ticks := by
  have hstep : ∀ (q : Pool ι Db SignUpCall) (t : ι × Env),
      OneAdminPerApp q.store ∧ BootstrapsOnce q → StillFirst pf q t →
      OneAdminPerApp (tick (SignUpCall.step pf cipher exchange) q t).store ∧
        BootstrapsOnce (tick (SignUpCall.step pf cipher exchange) q t) := by
    rintro q t ⟨hperApp, honce⟩ ht
    exact ⟨oneAdminPerApp_tick hperApp ht, bootstrapsOnce_tick honce ht⟩
  have hnobody : ∀ i, (p.request i).bootstrapped = none := by
    intro i
    have hi := hreceived i
    cases hcall : p.request i with
    | register c => rfl
    | oauth c => rfl
    | bootstrap c =>
      rw [hcall] at hi
      rw [SignUpCall.bootstrapped, hi]
  have hperApp : OneAdminPerApp p.store := by
    intro u hu
    rw [KeyedTable.mem_def, hempty] at hu
    cases hu
  have honce : BootstrapsOnce p :=
    ⟨fun i _ hmade => absurd (hnobody i) hmade, fun i _ _ hmade => absurd (hnobody i) hmade⟩
  intro pre post hsplit
  obtain ⟨hone, hsingle⟩ := run_rule hstep ⟨hperApp, honce⟩ hfirst pre post hsplit
  refine ⟨hone, ?_⟩
  intro i j hi hj
  exact hsingle.unique i j () (SignUpCall.bootstrapped_of_succeeded hi)
    (SignUpCall.bootstrapped_of_succeeded hj)

end Pools

/-! ### Two first users -/

/-- Nobody has signed up yet. -/
def newShop : Db :=
  { apps := olgaAndShop.apps }

def olgaCredentials : Credentials := { email := "olga@example.com", password := "olga-password" }

/-- Olga and Ivan register at the shop. -/
def shopRegistrations : Pool Bool Db SignUpCall :=
  { store := newShop
    request := fun i =>
      .register ⟨"shop", if i then olgaCredentials else ivanCredentials, .received⟩ }

theorem registrations_in_order_one_admin :
    newShop.users.rows = [] ∧
      Always (SignUpCall.step asciiPlatform readableCipher fun _ _ _ => .error "")
        AtMostOneAutomaticAdmin shopRegistrations
        (List.replicate 7 (true, sampleEnv "a") ++ List.replicate 7 (false, sampleEnv "b")) := by
  refine ⟨rfl, one_automatic_admin_of_stillFirst asciiPlatform readableCipher _ shopRegistrations
    rfl (fun _ => rfl) _ ?_⟩
  decide +kernel

/-- They take turns, and the shop has two owners. -/
theorem racing_registrations_two_admins :
    newShop.users.rows = [] ∧
      ¬ Always (SignUpCall.step asciiPlatform readableCipher fun _ _ _ => .error "")
        AtMostOneAutomaticAdmin shopRegistrations
        (List.replicate 7 [(true, sampleEnv "a"), (false, sampleEnv "b")]).flatten := by
  refine ⟨rfl, ?_⟩
  intro halways
  have hadmins := (halways _ [] (List.append_nil _).symm).perApp
  have hrows : (run (SignUpCall.step asciiPlatform readableCipher fun _ _ _ => .error "")
      shopRegistrations
      (List.replicate 7 [(true, sampleEnv "a"), (false, sampleEnv "b")]).flatten).store.users.rows =
      [signedUpUser asciiPlatform (sampleEnv "a") "shop" olgaCredentials "$olga-password" true,
        signedUpUser asciiPlatform (sampleEnv "b") "shop" ivanCredentials "$ivan-password"
          true] := by
    decide +kernel
  have hsame := hadmins
    (signedUpUser asciiPlatform (sampleEnv "a") "shop" olgaCredentials "$olga-password" true)
    (by rw [KeyedTable.mem_def, hrows]; exact List.mem_cons_self)
    (signedUpUser asciiPlatform (sampleEnv "b") "shop" ivanCredentials "$ivan-password" true)
    (by rw [KeyedTable.mem_def, hrows]; exact List.mem_cons_of_mem _ List.mem_cons_self)
    rfl rfl rfl
  revert hsame
  decide +kernel

end Peanut
