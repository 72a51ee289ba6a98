import Peanut.Auth.OneTimeTokens
import Peanut.Auth.Rotation

/-!
# The ways to a token

The requests that hand out tokens: signing in with a password to an app or to the
console, refreshing on either route, and the OAuth callback.  Each is the list of
its statements, and at each statement it meets whatever database the other requests
have left; nothing is assumed of what they do.

The password and the refresh check that the user is active right after they read
the row.  The callback does not check at all.
-/

namespace Peanut

open Relational Interleaving

/-! ### Signing in with a password -/

inductive LoginRequest where
  | loginForApp (appId : String) (payload : Credentials)
  | adminLogin (payload : Credentials)

namespace LoginRequest

def appId : LoginRequest → String
  | .loginForApp appId _ => appId
  | .adminLogin _ => DEFAULT_APP_ID

def payload : LoginRequest → Credentials
  | .loginForApp _ payload => payload
  | .adminLogin payload => payload

def action : LoginRequest → String
  | .loginForApp _ _ => "login_succeeded"
  | .adminLogin _ => "admin_console_login"

def checks (pf : Platform) (db : Db) : LoginRequest → Except ApiError User
  | .loginForApp appId payload => loginChecks pf db appId payload
  | .adminLogin payload => adminLoginChecks pf db payload

/-- The request without interference. -/
def handle (pf : Platform) (db : Db) (env : Env) :
    LoginRequest → Db × Except ApiError (Reply LoginResponse)
  | .loginForApp appId payload => Peanut.loginForApp pf db env appId payload
  | .adminLogin payload => Peanut.adminLogin pf db env payload

theorem handle_eq (pf : Platform) (db : Db) (env : Env) (r : LoginRequest) :
    r.handle pf db env = signIn pf db env r.appId r.action (r.checks pf db) := by
  cases r <;> rfl

end LoginRequest

inductive LoginStage where
  | received
  | admitted (user : User)
  | issued (user : User) (response : LoginResponse)
  | completed (response : LoginResponse)
  | refused (error : ApiError)

structure PasswordLoginCall where
  request : LoginRequest
  stage : LoginStage

namespace PasswordLoginCall

def step (pf : Platform) (env : Env) (db : Db) (c : PasswordLoginCall) : Db × PasswordLoginCall :=
  match c.stage with
  | .received =>
      match c.request.checks pf db with
      | .error e => (db, { c with stage := .refused e })
      | .ok user => (db, { c with stage := .admitted user })
  | .admitted user =>
      match issueLoginResponse pf db env c.request.appId user.summary with
      | .error message =>
          (db, { c with stage := .refused (jsonError .internalServerError message) })
      | .ok (response, db) => (db, { c with stage := .issued user response })
  | .issued user response =>
      (recordAuthEvent db env (env.uuid 0) c.request.appId user.id (some user.id) c.request.action
          (some (sessionMetadata response.refreshToken)),
        { c with stage := .completed response })
  | .completed _ => (db, c)
  | .refused _ => (db, c)

def reply (c : PasswordLoginCall) : Option (Except ApiError (Reply LoginResponse)) :=
  match c.stage with
  | .completed response => some (.ok { status := .ok, body := response })
  | .refused e => some (.error e)
  | _ => none

end PasswordLoginCall

/-- On its own, the machine computes `loginForApp` or `adminLogin`. -/
theorem passwordLogin_alone (pf : Platform) (env : Env) (db : Db) (r : LoginRequest) :
    (alone (PasswordLoginCall.step pf) env 3 db ⟨r, .received⟩).1 = (r.handle pf db env).1 ∧
      (alone (PasswordLoginCall.step pf) env 3 db ⟨r, .received⟩).2.reply =
        some (r.handle pf db env).2 := by
  rw [LoginRequest.handle_eq, signIn]
  cases hchecks : r.checks pf db with
  | error e => simp [alone, PasswordLoginCall.step, PasswordLoginCall.reply, hchecks]
  | ok user =>
    cases hissue : issueLoginResponse pf db env r.appId user.summary with
    | error message =>
      simp [alone, PasswordLoginCall.step, PasswordLoginCall.reply, hchecks, hissue]
    | ok issued => simp [alone, PasswordLoginCall.step, PasswordLoginCall.reply, hchecks, hissue]

theorem LoginRequest.checks_eq_ok {pf : Platform} {db : Db} {r : LoginRequest} {user : User}
    (h : r.checks pf db = .ok user) :
    Outcome.succeeded (badCredentials r.payload.email r.payload.password) = true ∧
      loadUserByEmail pf db r.appId (trim r.payload.email) = some user ∧ user.isActive = true := by
  have hpassword : passwordChecks pf db r.appId r.payload = .ok user := by
    cases r with
    | loginForApp appId payload =>
      obtain ⟨found, hfound, h⟩ := Outcome.bind_eq_ok.mp h
      obtain ⟨-, -, h⟩ := Outcome.bind_eq_ok.mp h
      cases h
      exact hfound
    | adminLogin payload =>
      obtain ⟨found, hfound, h⟩ := Outcome.bind_eq_ok.mp h
      obtain ⟨-, -, h⟩ := Outcome.bind_eq_ok.mp h
      obtain ⟨-, -, h⟩ := Outcome.bind_eq_ok.mp h
      cases h
      exact hfound
  obtain ⟨u, hcredentials, h⟩ := Outcome.bind_eq_ok.mp hpassword
  obtain ⟨found, hload, h⟩ := Outcome.bind_eq_ok.mp h
  obtain ⟨_, hactive, h⟩ := Outcome.bind_eq_ok.mp h
  cases h
  rw [hcredentials]
  exact ⟨rfl, Outcome.require_eq_ok.mp hload, Outcome.ensure_eq_ok.mp hactive⟩

theorem issueLoginResponse_user {pf : Platform} {db db' : Db} {env : Env} {appId : String}
    {user : UserSummary} {response : LoginResponse}
    (h : issueLoginResponse pf db env appId user = .ok (response, db')) : response.user = user := by
  unfold issueLoginResponse at h
  obtain ⟨⟨refreshToken, db₁⟩, -, hreturn⟩ := Outcome.bind_eq_ok.mp h
  cases hreturn
  rfl

theorem RefreshRequest.active_of_refusal {r : RefreshRequest} {user : User}
    (h : r.refusal user = none) : user.isActive = true := by
  have hinactive : inactiveRefusal user = none := by
    cases r with
    | refreshSessionForApp appId rawToken => exact h
    | adminRefreshSession rawToken => exact (Option.or_eq_none_iff.mp h).1
  unfold inactiveRefusal at hinactive
  split at hinactive
  · assumption
  · cases hinactive

/-! ### Any way in -/

inductive LoginCall where
  | password (c : PasswordLoginCall)
  | refresh (c : RefreshCall)
  | oauth (c : OAuthCallbackCall)

namespace LoginCall

def step (pf : Platform) (cipher : SecretCipher) (exchange : CodeExchange) (env : Env) (db : Db) :
    LoginCall → Db × LoginCall
  | .password c => Prod.map id .password (c.step pf env db)
  | .refresh c => Prod.map id .refresh (c.step pf env db)
  | .oauth c => Prod.map id .oauth (c.step pf cipher exchange env db)

def isReceived : LoginCall → Prop
  | .password c => c.stage = .received
  | .refresh c => c.stage = .received
  | .oauth c => c.stage = .received

def reply : LoginCall → Option (Except ApiError (Reply LoginResponse))
  | .password c => c.reply
  | .refresh c =>
      match c.stage with
      | .answered reply => some reply
      | _ => none
  | .oauth c => c.reply

/-- The row of `users` that the next statement returns, or adds. -/
def readsUser (pf : Platform) (env : Env) (db : Db) : LoginCall → Option User
  | .password c =>
      match c.stage with
      | .received =>
          if Outcome.succeeded (badCredentials c.request.payload.email c.request.payload.password)
          then loadUserByEmail pf db c.request.appId (trim c.request.payload.email)
          else none
      | _ => none
  | .refresh c =>
      match c.stage with
      | .loaded stored => loadUserById db c.request.appId stored.userId
      | _ => none
  | .oauth c =>
      match c.stage with
      | .exchanged login => oauthIdentityUser db c.appId login.provider login.userinfo.sub
      | .unknownIdentity login =>
          loadOAuthUserByEmail db c.appId (asciiLowercase (trim login.email))
      | .counted login isAdmin =>
          (pf.hashPassword (env.token 0) env.salt).bind fun passwordHash =>
            let user :=
              oauthUser env c.appId (asciiLowercase (trim login.email)) passwordHash isAdmin
            (db.insertUser user).map fun _ => user
      | _ => none

/-- The row that an OAuth callback takes the user from by the address alone. -/
def emailMatch (db : Db) : LoginCall → Option User
  | .oauth c =>
      match c.stage with
      | .unknownIdentity login =>
          loadOAuthUserByEmail db c.appId (asciiLowercase (trim login.email))
      | _ => none
  | _ => none

/-- The user the request is going to answer with. -/
def goesOnWith : LoginCall → Option UserSummary
  | .password c =>
      match c.stage with
      | .admitted user => some user.summary
      | .issued _ response => some response.user
      | .completed response => some response.user
      | _ => none
  | .refresh c =>
      match c.stage with
      | .admitted _ user => some user.summary
      | .inserted _ user _ => some user.summary
      | .rotated _ user _ => some user.summary
      | .answered (.ok reply) => some reply.body.user
      | _ => none
  | .oauth c =>
      match c.stage with
      | .found _ user => some user
      | .linked _ user => some user
      | .spent _ user => some user
      | .issued _ _ response => some response.user
      | .completed _ response => some response.user
      | _ => none

theorem goesOnWith_of_reply {c : LoginCall} {response : Reply LoginResponse}
    (h : c.reply = some (.ok response)) : c.goesOnWith = some response.body.user := by
  cases c with
  | password c =>
    obtain ⟨r, stage⟩ := c
    cases stage with
    | completed response' =>
      cases h
      rfl
    | _ => cases h
  | refresh c =>
    obtain ⟨r, stage⟩ := c
    cases stage with
    | answered reply =>
      cases h
      rfl
    | _ => cases h
  | oauth c =>
    obtain ⟨appId, provider, code, state, stage⟩ := c
    cases stage with
    | completed stateHash response' =>
      cases h
      rfl
    | _ => cases h

/-- A request goes on with the user it went on with, or with the row its statement has
    just read or added.  That row is active unless an address alone led to it. -/
def GoesOnFrom (pf : Platform) (cipher : SecretCipher) (exchange : CodeExchange) (env : Env)
    (db : Db) (c : LoginCall) (u : UserSummary) : Prop :=
  (c.goesOnWith = some u ∧ c.readsUser pf env db = none) ∨
    ∃ row, c.readsUser pf env db = some row ∧
      row ∈ (c.step pf cipher exchange env db).1.users ∧ row.summary = u ∧
      (row.isActive = true ∨ c.emailMatch db = some row)

section Steps

variable {pf : Platform} {cipher : SecretCipher} {exchange : CodeExchange} {env : Env} {db : Db}
  {u : UserSummary}

theorem password_goesOnFrom {c : PasswordLoginCall}
    (h : ((password c).step pf cipher exchange env db).2.goesOnWith = some u) :
    GoesOnFrom pf cipher exchange env db (password c) u := by
  obtain ⟨r, stage⟩ := c
  cases stage with
  | received =>
    unfold GoesOnFrom
    simp only [step, PasswordLoginCall.step, Prod.map_fst, Prod.map_snd, id] at h ⊢
    split at h
    · cases h
    · rename_i user hchecks
      cases h
      obtain ⟨hcredentials, hload, hactive⟩ := LoginRequest.checks_eq_ok hchecks
      refine .inr ⟨user, ?_, ?_, rfl, .inl hactive⟩
      · simp [readsUser, hcredentials, hload]
      · exact (KeyedTable.selectOne_some hload).1
  | admitted user =>
    simp only [step, PasswordLoginCall.step, Prod.map_snd] at h
    split at h
    · cases h
    · rename_i response db' hissue
      cases h
      rw [issueLoginResponse_user hissue]
      exact .inl ⟨rfl, rfl⟩
  | issued user response => exact .inl ⟨h, rfl⟩
  | completed response => exact .inl ⟨h, rfl⟩
  | refused e => cases h

theorem refresh_goesOnFrom {c : RefreshCall}
    (h : ((refresh c).step pf cipher exchange env db).2.goesOnWith = some u) :
    GoesOnFrom pf cipher exchange env db (refresh c) u := by
  obtain ⟨r, stage⟩ := c
  cases stage with
  | received =>
    simp only [step, RefreshCall.step, Prod.map_snd] at h
    split at h <;> cases h
  | loaded stored =>
    unfold GoesOnFrom
    simp only [step, RefreshCall.step, Prod.map_fst, Prod.map_snd, id] at h ⊢
    split at h
    · cases h
    · rename_i user hload
      split at h
      · cases h
      · rename_i hrefusal
        cases h
        exact .inr ⟨user, hload, (KeyedTable.selectOne_some hload).1, rfl,
          .inl (RefreshRequest.active_of_refusal hrefusal)⟩
  | admitted stored user =>
    simp only [step, RefreshCall.step, Prod.map_snd] at h
    split at h
    · cases h
    · exact .inl ⟨h, rfl⟩
  | inserted stored user nextToken => exact .inl ⟨h, rfl⟩
  | rotated stored user nextToken => exact .inl ⟨h, rfl⟩
  | answered reply => exact .inl ⟨h, rfl⟩
  | refused stored e => cases h

theorem oauth_goesOnFrom {c : OAuthCallbackCall}
    (h : ((oauth c).step pf cipher exchange env db).2.goesOnWith = some u) :
    GoesOnFrom pf cipher exchange env db (oauth c) u := by
  obtain ⟨appId, provider, code, state, stage⟩ := c
  cases stage with
  | received =>
    simp only [step, OAuthCallbackCall.step, Prod.map_snd] at h
    split at h <;> cases h
  | matched provider stateHash =>
    simp only [step, OAuthCallbackCall.step, Prod.map_snd] at h
    split at h <;> cases h
  | exchanged login =>
    simp only [step, OAuthCallbackCall.step, Prod.map_snd] at h
    split at h
    · cases h
    · cases h
    · -- the identity is never found
      rename_i user hload
      cases loadOAuthIdentity_ok hload
  | unknownIdentity login =>
    unfold GoesOnFrom
    simp only [step, OAuthCallbackCall.step, Prod.map_fst, Prod.map_snd, id] at h ⊢
    split at h
    · cases h
    · rename_i row hload
      cases h
      exact .inr ⟨row, hload, (KeyedTable.selectOne_some hload).1, rfl, .inr hload⟩
  | newcomer login => cases h
  | counted login isAdmin =>
    unfold GoesOnFrom
    simp only [step, OAuthCallbackCall.step, Prod.map_fst, Prod.map_snd, id] at h ⊢
    split at h
    · cases h
    · rename_i passwordHash hhash
      split at h
      · cases h
      · rename_i db' hinsert
        cases h
        refine .inr ⟨_, ?_, ?_, rfl, .inl rfl⟩
        · simp [readsUser, hhash, hinsert]
        · obtain ⟨users, hrow, rfl⟩ := Db.insertUser_eq_some hinsert
          exact (KeyedTable.mem_insert? hrow).mpr (.inr rfl)
  | found login user =>
    simp only [step, OAuthCallbackCall.step, Prod.map_snd] at h
    split at h
    · cases h
    · exact .inl ⟨h, rfl⟩
  | linked login user => exact .inl ⟨h, rfl⟩
  | spent login user =>
    simp only [step, OAuthCallbackCall.step, Prod.map_snd] at h
    split at h
    · cases h
    · rename_i response db' hissue
      cases h
      rw [issueLoginResponse_user hissue]
      exact .inl ⟨rfl, rfl⟩
  | issued login user response => exact .inl ⟨h, rfl⟩
  | completed stateHash response => exact .inl ⟨h, rfl⟩
  | refused e => cases h

/-- **One statement.** -/
theorem step_goesOnWith {c : LoginCall}
    (h : (c.step pf cipher exchange env db).2.goesOnWith = some u) :
    GoesOnFrom pf cipher exchange env db c u := by
  cases c with
  | password c => exact password_goesOnFrom h
  | refresh c => exact refresh_goesOnFrom h
  | oauth c => exact oauth_goesOnFrom h

end Steps

theorem step_of_emailMatch {pf : Platform} {cipher : SecretCipher} {exchange : CodeExchange}
    {env : Env} {db : Db} {c : LoginCall} {row : User} (h : c.emailMatch db = some row) :
    (c.step pf cipher exchange env db).2.goesOnWith = some row.summary := by
  cases c with
  | password c => cases h
  | refresh c => cases h
  | oauth c =>
    obtain ⟨appId, provider, code, state, stage⟩ := c
    cases stage with
    | unknownIdentity login =>
      have hload : loadOAuthUserByEmail db appId (asciiLowercase (trim login.email)) = some row := h
      simp only [step, OAuthCallbackCall.step, Prod.map_snd, hload]
      rfl
    | _ => cases h

theorem step_of_goesOnWith (pf : Platform) (cipher : SecretCipher) (exchange : CodeExchange)
    (env : Env) (db : Db) {c : LoginCall} {u : UserSummary} (h : c.goesOnWith = some u) :
    (c.step pf cipher exchange env db).2.goesOnWith = some u ∨
      ∃ e, (c.step pf cipher exchange env db).2.reply = some (.error e) := by
  cases c with
  | password c =>
    obtain ⟨r, stage⟩ := c
    cases stage with
    | admitted user =>
      simp only [step, PasswordLoginCall.step, Prod.map_snd]
      split
      · exact .inr ⟨_, rfl⟩
      · rename_i response db' hissue
        refine .inl ?_
        cases h
        exact congrArg some (issueLoginResponse_user hissue)
    | issued user response => exact .inl h
    | completed response => exact .inl h
    | _ => cases h
  | refresh c =>
    obtain ⟨r, stage⟩ := c
    cases stage with
    | admitted stored user =>
      simp only [step, RefreshCall.step, Prod.map_snd]
      split
      · exact .inr ⟨_, rfl⟩
      · exact .inl h
    | inserted stored user nextToken => exact .inl h
    | rotated stored user nextToken => exact .inl h
    | answered reply => exact .inl h
    | _ => cases h
  | oauth c =>
    obtain ⟨appId, provider, code, state, stage⟩ := c
    cases stage with
    | found login user =>
      simp only [step, OAuthCallbackCall.step, Prod.map_snd]
      split
      · exact .inr ⟨_, rfl⟩
      · exact .inl h
    | linked login user => exact .inl h
    | spent login user =>
      simp only [step, OAuthCallbackCall.step, Prod.map_snd]
      split
      · exact .inr ⟨_, rfl⟩
      · rename_i response db' hissue
        refine .inl ?_
        cases h
        exact congrArg some (issueLoginResponse_user hissue)
    | issued login user response => exact .inl h
    | completed stateHash response => exact .inl h
    | _ => cases h

theorem step_of_reply (pf : Platform) (cipher : SecretCipher) (exchange : CodeExchange) (env : Env)
    (db : Db) {c : LoginCall} {answer : Except ApiError (Reply LoginResponse)}
    (h : c.reply = some answer) :
    (c.step pf cipher exchange env db).2.reply = some answer := by
  cases c with
  | password c =>
    obtain ⟨r, stage⟩ := c
    cases stage with
    | completed response => exact h
    | refused e => exact h
    | _ => cases h
  | refresh c =>
    obtain ⟨r, stage⟩ := c
    cases stage with
    | answered reply => exact h
    | _ => cases h
  | oauth c =>
    obtain ⟨appId, provider, code, state, stage⟩ := c
    cases stage with
    | completed stateHash response => exact h
    | refused e => exact h
    | _ => cases h

end LoginCall

/-! ### The life of a request -/

section Life

variable (pf : Platform) (cipher : SecretCipher) (exchange : CodeExchange)

/-- A request, with the row of `users` it has read or added last and the database
    right after that statement. -/
structure LoginLife where
  call : LoginCall
  lastRead : Option (Db × User)

/-- The next statement, on the database it meets. -/
def LoginLife.meet (s : LoginLife) (m : Env × Db) : LoginLife :=
  { call := (s.call.step pf cipher exchange m.1 m.2).2
    lastRead := match s.call.readsUser pf m.1 m.2 with
      | some row => some ((s.call.step pf cipher exchange m.1 m.2).1, row)
      | none => s.lastRead }

def loginLife (c : LoginCall) (meetings : List (Env × Db)) : LoginLife :=
  Transition.run (LoginLife.meet pf cipher exchange) { call := c, lastRead := none } meetings

/-- The statement finds no inactive user by the address alone. -/
def MatchesActive (s : LoginLife) (m : Env × Db) : Prop :=
  ∀ row ∈ s.call.emailMatch m.2, row.isActive = true

/-- What the request goes on with is the row it has read last. -/
def LoginLife.Backed (P : User → Prop) (s : LoginLife) : Prop :=
  ∀ u, s.call.goesOnWith = some u →
    ∃ db row, s.lastRead = some (db, row) ∧ row ∈ db.users ∧ row.summary = u ∧ P row

variable {pf cipher exchange}

theorem LoginLife.Backed.meet {P : User → Prop} {s : LoginLife} (h : s.Backed P) {m : Env × Db}
    (hread : ∀ row, row.isActive = true ∨ s.call.emailMatch m.2 = some row → P row) :
    (s.meet pf cipher exchange m).Backed P := by
  intro u hu
  rcases LoginCall.step_goesOnWith hu with ⟨hbefore, hnone⟩ | ⟨row, hrow, hmem, hsummary, hactive⟩
  · obtain ⟨db, row, hlast, hrest⟩ := h u hbefore
    refine ⟨db, row, ?_, hrest⟩
    simp only [LoginLife.meet, hnone]
    exact hlast
  · refine ⟨_, row, ?_, hmem, hsummary, hread row hactive⟩
    simp only [LoginLife.meet, hrow]

/-- The request answers with an inactive user, if it does not fail. -/
def LoginLife.Wrong (s : LoginLife) : Prop :=
  (∃ u, s.call.goesOnWith = some u ∧ u.isActive = false) ∨ ∃ e, s.call.reply = some (.error e)

theorem LoginLife.Wrong.meet {s : LoginLife} (h : s.Wrong) (m : Env × Db) :
    (s.meet pf cipher exchange m).Wrong := by
  rcases h with ⟨u, hu, hinactive⟩ | ⟨e, he⟩
  · rcases LoginCall.step_of_goesOnWith pf cipher exchange m.1 m.2 hu with hnext | hfailed
    · exact .inl ⟨u, hnext, hinactive⟩
    · exact .inr hfailed
  · exact .inr ⟨e, LoginCall.step_of_reply pf cipher exchange m.1 m.2 he⟩

variable (pf cipher exchange)

theorem LoginLife.Backed.of_received {c : LoginCall} (hreceived : c.isReceived)
    (P : User → Prop) : LoginLife.Backed P { call := c, lastRead := none } := by
  intro u hu
  cases c with
  | password c =>
    rw [LoginCall.goesOnWith, (hreceived : c.stage = .received)] at hu
    cases hu
  | refresh c =>
    rw [LoginCall.goesOnWith, (hreceived : c.stage = .received)] at hu
    cases hu
  | oauth c =>
    rw [LoginCall.goesOnWith, (hreceived : c.stage = .received)] at hu
    cases hu

/-- **Tokens for active users.**  Whatever databases a request meets, if it answers with
    tokens then the user was active when it last read the row, exactly if it did not
    find an inactive user by the address that a provider reported. -/
theorem active_when_read_iff (c : LoginCall) (hreceived : c.isReceived)
    (meetings : List (Env × Db)) {response : Reply LoginResponse}
    (hreply : (loginLife pf cipher exchange c meetings).call.reply = some (.ok response)) :
    (∃ db row, (loginLife pf cipher exchange c meetings).lastRead = some (db, row) ∧
        row ∈ db.users ∧ row.id = response.body.user.id ∧ row.isActive = true) ↔
      ∀ pre m post, meetings = pre ++ m :: post →
        MatchesActive (loginLife pf cipher exchange c pre) m := by
  have hgoes := LoginCall.goesOnWith_of_reply hreply
  constructor
  · rintro ⟨db, row, hlast, -, -, hactive⟩ pre m post rfl row' hmatch
    by_contra hinactive
    rw [Bool.not_eq_true] at hinactive
    -- the callback goes on with the inactive user to the end
    have hwrong : LoginLife.Wrong (LoginLife.meet pf cipher exchange
        (loginLife pf cipher exchange c pre) m) :=
      .inl ⟨row'.summary, LoginCall.step_of_emailMatch hmatch, hinactive⟩
    have hend : LoginLife.Wrong (loginLife pf cipher exchange c (pre ++ m :: post)) := by
      have hlasts : ∀ (s : LoginLife) (m' : Env × Db), s.Wrong →
          (s.meet pf cipher exchange m').Wrong := fun s m' hs => hs.meet m'
      unfold loginLife
      rw [Transition.run_append]
      exact Transition.run_preserves hlasts hwrong post
    have hbacked : LoginLife.Backed (fun _ => True)
        (loginLife pf cipher exchange c (pre ++ m :: post)) := by
      have hkeep : ∀ (s : LoginLife) (m' : Env × Db), s.Backed (fun _ => True) →
          (s.meet pf cipher exchange m').Backed fun _ => True :=
        fun s m' hs => hs.meet fun _ _ => trivial
      exact Transition.run_preserves hkeep (.of_received hreceived _) _
    rcases hend with ⟨u, hu, hu'⟩ | ⟨e, he⟩
    · obtain ⟨db', row'', hlast', -, hsummary, -⟩ := hbacked u hu
      rw [hlast] at hlast'
      cases hlast'
      rw [← hsummary] at hu'
      exact Bool.false_ne_true (hu'.symm.trans hactive)
    · rw [hreply] at he
      cases he
  · intro hmatches
    have hstep : ∀ (s : LoginLife) (m : Env × Db), s.Backed (fun row => row.isActive = true) →
        MatchesActive s m →
        (s.meet pf cipher exchange m).Backed fun row => row.isActive = true := by
      intro s m hs hm
      apply hs.meet
      rintro row (hactive | hmatch)
      · exact hactive
      · exact hm row hmatch
    obtain ⟨db, row, hlast, hmem, hsummary, hactive⟩ :=
      Transition.run_invariant hstep (.of_received hreceived _) meetings hmatches _ hgoes
    exact ⟨db, row, hlast, hmem, congrArg UserSummary.id hsummary, hactive⟩

end Life

/-! ### A user who was deactivated -/

/-- What a request meets when it is alone. -/
def ownMeetings (pf : Platform) (cipher : SecretCipher) (exchange : CodeExchange) (env : Env) :
    Nat → Db → LoginCall → List (Env × Db)
  | 0, _, _ => []
  | n + 1, db, c =>
      (env, db) :: ownMeetings pf cipher exchange env n (c.step pf cipher exchange env db).1
        (c.step pf cipher exchange env db).2

/-- Dana comes back from the provider, which knows her address. -/
def danaCallback : LoginCall := .oauth ⟨"default", "google", "code1", "state", .received⟩

def danaLife (db : Db) : LoginLife :=
  loginLife asciiPlatform readableCipher danaExchange danaCallback
    (ownMeetings asciiPlatform readableCipher danaExchange (sampleEnv "a") 8 db danaCallback)

def danaTokens (isActive : Bool) : Reply LoginResponse :=
  { status := .ok
    body := { accessToken := asciiPlatform.createJwt
                { sub := "dana", appId := "default", exp := 0, isAdmin := dana.isAdmin }
              refreshToken := "at0", tokenType := "Bearer", expiresAt := 0
              user := { dana.summary with isActive := isActive } } }

theorem LoginCall.emailMatch_mem {c : LoginCall} {db : Db} {row : User}
    (h : c.emailMatch db = some row) : row ∈ db.users := by
  cases c with
  | password c => cases h
  | refresh c => cases h
  | oauth c =>
    obtain ⟨appId, provider, code, state, stage⟩ := c
    cases stage with
    | unknownIdentity login => exact (KeyedTable.selectOne_some h).1
    | _ => cases h

theorem dana_active_when_read :
    (danaLife danaAsked).call.reply = some (.ok (danaTokens true)) ∧
      ∃ db row, (danaLife danaAsked).lastRead = some (db, row) ∧ row ∈ db.users ∧
        row.id = "dana" ∧ row.isActive = true := by
  have hreply : (danaLife danaAsked).call.reply = some (.ok (danaTokens true)) := by
    decide +kernel
  refine ⟨hreply, (active_when_read_iff asciiPlatform readableCipher danaExchange danaCallback rfl
    _ hreply).mpr ?_⟩
  intro pre m post hsplit row hmatch
  have hall : ∀ m ∈ ownMeetings asciiPlatform readableCipher danaExchange (sampleEnv "a") 8
      danaAsked danaCallback, ∀ u ∈ m.2.users.rows, u.isActive = true := by
    decide +kernel
  apply hall m
  · rw [hsplit]
    simp
  · exact LoginCall.emailMatch_mem hmatch

/-- An administrator has deactivated her. -/
def danaDeactivated : Db :=
  { danaAsked with users := ⟨[{ dana with isActive := false }], by decide⟩ }

/-- She gets tokens all the same. -/
theorem inactive_user_gets_tokens :
    (danaLife danaDeactivated).call.reply = some (.ok (danaTokens false)) ∧
      ¬ ∃ db row, (danaLife danaDeactivated).lastRead = some (db, row) ∧ row ∈ db.users ∧
        row.id = "dana" ∧ row.isActive = true := by
  have hread : (danaLife danaDeactivated).lastRead.map (fun x => x.2.isActive) = some false := by
    decide +kernel
  refine ⟨by decide +kernel, ?_⟩
  rintro ⟨db, row, hlast, -, -, hactive⟩
  rw [hlast, Option.map_some, hactive] at hread
  cases hread

end Peanut
