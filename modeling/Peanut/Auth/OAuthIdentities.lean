import Mathlib.Logic.Relation
import Peanut.Auth.FirstUser
import Peanut.Auth.OneTimeTokens

/-!
# Identities at a provider

The first login through a provider links the identity to a user, by a query on the
address; every later one is to find the user by the link.  The query for the link
selects no `admin_role`, which the struct it fills needs, so a link that is found is
an error.
-/

namespace Peanut

open Relational Interleaving

/-! ### Finding or creating the user -/

/-- The user with the address, or a new one. -/
def oauthUserByEmail (pf : Platform) (db : Db) (env : Env) (appId email : String) :
    Db × Except String UserSummary :=
  match loadOAuthUserByEmail db appId email with
  | some user => (db, .ok user.summary)
  | none => createOAuthUser pf db env appId email

/-- The row that links an identity to a user. -/
def identityLink (env : Env) (appId provider email userId : String) (userinfo : UserInfoResponse) :
    AuthIdentity :=
  { id := env.uuid 0, appId := appId, provider := provider, providerUserId := userinfo.sub
    userId := userId, email := email, profile := userinfo.profile }

/-- `find_or_create_oauth_user`. -/
def findOrCreateOAuthUser (pf : Platform) (db : Db) (env : Env) (appId provider : String)
    (userinfo : UserInfoResponse) (email : String) : Db × Except String UserSummary :=
  match loadOAuthIdentity db appId provider userinfo.sub with
  | .error _ => (db, .error "failed to load oauth identity")
  | .ok (some user) => (db, .ok user)
  | .ok none =>
      let normalizedEmail := asciiLowercase (trim email)
      match oauthUserByEmail pf db env appId normalizedEmail with
      | (db, .error message) => (db, .error message)
      | (db, .ok user) =>
          match db.upsertAuthIdentity
              (identityLink env appId provider normalizedEmail user.id userinfo) with
          | none => (db, .error "failed to save oauth identity")
          | some db => (db, .ok user)

/-- Without interference, a callback that has the profile computes
    `findOrCreateOAuthUser`. -/
theorem findOrCreateOAuthUser_alone (pf : Platform) (cipher : SecretCipher)
    (exchange : CodeExchange) (env : Env) (db : Db) (c : OAuthCallbackCall) (login : OAuthLogin) :
    ∃ n, alone (OAuthCallbackCall.step pf cipher exchange) env n db
        { c with stage := .exchanged login } =
      ((findOrCreateOAuthUser pf db env c.appId login.provider login.userinfo login.email).1,
        match (findOrCreateOAuthUser pf db env c.appId login.provider login.userinfo
            login.email).2 with
        | .error message => { c with stage := .refused (jsonError .internalServerError message) }
        | .ok user => { c with stage := .linked login user }) := by
  unfold findOrCreateOAuthUser oauthUserByEmail
  cases hidentity : loadOAuthIdentity db c.appId login.provider login.userinfo.sub with
  | error e =>
    refine ⟨1, ?_⟩
    simp [alone, OAuthCallbackCall.step, OAuthCallbackCall.fail, hidentity]
  | ok found =>
    cases found with
    | some user =>
      refine ⟨1, ?_⟩
      simp [alone, OAuthCallbackCall.step, hidentity]
    | none =>
      cases hemail : loadOAuthUserByEmail db c.appId (asciiLowercase (trim login.email)) with
      | some user =>
        refine ⟨3, ?_⟩
        cases hupsert : db.upsertAuthIdentity (identityLink env c.appId login.provider
            (asciiLowercase (trim login.email)) user.id login.userinfo) with
        | none =>
          rw [identityLink] at hupsert
          simp [alone, OAuthCallbackCall.step, OAuthCallbackCall.fail, hidentity, hemail,
            identityLink, User.summary, hupsert]
        | some db' =>
          rw [identityLink] at hupsert
          simp [alone, OAuthCallbackCall.step, hidentity, hemail, identityLink, User.summary,
            hupsert]
      | none =>
        unfold createOAuthUser
        cases hhash : pf.hashPassword (env.token 0) env.salt with
        | none =>
          refine ⟨4, ?_⟩
          simp [alone, OAuthCallbackCall.step, OAuthCallbackCall.fail, hidentity, hemail, hhash]
        | some passwordHash =>
          cases hinsert : db.insertUser (oauthUser env c.appId
              (asciiLowercase (trim login.email)) passwordHash db.users.rows.isEmpty) with
          | none =>
            refine ⟨4, ?_⟩
            simp [alone, OAuthCallbackCall.step, OAuthCallbackCall.fail, hidentity, hemail, hhash,
              hinsert]
          | some db' =>
            refine ⟨5, ?_⟩
            have hid : (oauthUser env c.appId (asciiLowercase (trim login.email)) passwordHash
                db.users.rows.isEmpty).summary.id = env.uuid 0 := rfl
            cases hupsert : db'.upsertAuthIdentity (identityLink env c.appId login.provider
                (asciiLowercase (trim login.email)) (env.uuid 0) login.userinfo) with
            | none =>
              rw [identityLink] at hupsert
              simp [alone, OAuthCallbackCall.step, OAuthCallbackCall.fail, hidentity, hemail,
                hhash, hinsert, identityLink, hid, hupsert]
            | some db'' =>
              rw [identityLink] at hupsert
              simp [alone, OAuthCallbackCall.step, hidentity, hemail, hhash, hinsert,
                identityLink, hid, hupsert]

/-! ### The link -/

/-- The identity, and only to this user. -/
structure LinkedTo (appId provider sub userId : String) (db : Db) : Prop where
  user : db.users.hasKey userId = true
  link : ∃ i ∈ db.authIdentities, i.appId = appId ∧ i.provider = provider ∧ i.providerUserId = sub
  only : ∀ i ∈ db.authIdentities, i.appId = appId → i.provider = provider →
    i.providerUserId = sub → i.userId = userId

variable {appId provider sub userId : String} {db db' : Db}

theorem LinkedTo.findOrCreateOAuthUser
    (h : LinkedTo appId provider sub userId db) (pf : Platform) (env : Env)
    {userinfo : UserInfoResponse} (hsub : userinfo.sub = sub) (email : String) :
    findOrCreateOAuthUser pf db env appId provider userinfo email =
      (db, .error "failed to load oauth identity") := by
  have hfound : ∃ user, oauthIdentityUser db appId provider userinfo.sub = some user := by
    unfold oauthIdentityUser
    cases hselect : db.authIdentities.selectOne fun i =>
        i.appId == appId && i.provider == provider && i.providerUserId == userinfo.sub with
    | none =>
      obtain ⟨i, hi, happ, hprovider, hlinked⟩ := h.link
      have hmiss := KeyedTable.selectOne_none.mp hselect i hi
      simp [happ, hprovider, hlinked, hsub] at hmiss
    | some i =>
      obtain ⟨hi, hmatch⟩ := KeyedTable.selectOne_some hselect
      simp only [Bool.and_eq_true, beq_iff_eq] at hmatch
      obtain ⟨⟨happ, hprovider⟩, hlinked⟩ := hmatch
      have huser := h.only i hi happ hprovider (hlinked.trans hsub)
      rw [Option.bind_some, huser]
      exact Option.isSome_iff_exists.mp h.user
  obtain ⟨user, huser⟩ := hfound
  have herror : ∃ e, loadOAuthIdentity db appId provider userinfo.sub = .error e := by
    rw [loadOAuthIdentity, huser]
    exact ⟨_, rfl⟩
  obtain ⟨e, he⟩ := herror
  unfold Peanut.findOrCreateOAuthUser
  rw [he]

theorem LinkedTo.of_keeping
    (h : LinkedTo appId provider sub userId db) (huser : db'.users.hasKey userId = true)
    (hkept : ∀ i ∈ db.authIdentities, i.userId = userId → i ∈ db'.authIdentities)
    (hnone : ∀ i ∈ db'.authIdentities, i ∈ db.authIdentities) :
    LinkedTo appId provider sub userId db' := by
  refine ⟨huser, ?_, fun i hi => h.only i (hnone i hi)⟩
  obtain ⟨i, hi, happ, hprovider, hlinked⟩ := h.link
  exact ⟨i, hkept i hi (h.only i hi happ hprovider hlinked), happ, hprovider, hlinked⟩

theorem LinkedTo.of_eq
    (h : LinkedTo appId provider sub userId db) (huser : db'.users.hasKey userId = true)
    (heq : db'.authIdentities = db.authIdentities) : LinkedTo appId provider sub userId db' := by
  refine h.of_keeping huser ?_ ?_
  · intro i hi _
    rw [heq]
    exact hi
  · intro i hi
    rw [heq] at hi
    exact hi

/-- The identities after an upsert: those of other users of the provider as they were,
    and this one linked to its user. -/
theorem Db.mem_upsertAuthIdentity {link : AuthIdentity}
    (h : db.upsertAuthIdentity link = some db') :
    db'.users = db.users ∧ db.users.hasKey link.userId = true ∧
      LinkedTo link.appId link.provider link.providerUserId link.userId db' ∧
      ∀ i, ¬ (i.appId = link.appId ∧ i.provider = link.provider ∧
          i.providerUserId = link.providerUserId) →
        (i ∈ db'.authIdentities ↔ i ∈ db.authIdentities) := by
  unfold Db.upsertAuthIdentity at h
  dsimp only at h
  split at h
  · rename_i hrefers
    simp only [Bool.and_eq_true] at hrefers
    obtain ⟨⟨-, huser⟩, -⟩ := hrefers
    split at h
    · -- the identity is known, and is linked to the user now
      rename_i hknown
      cases h
      refine ⟨rfl, huser, ⟨huser, ?_, ?_⟩, ?_⟩
      · obtain ⟨r, hr, hmatch⟩ := List.any_eq_true.mp hknown
        refine ⟨{ r with userId := link.userId, email := link.email, profile := link.profile },
          ?_, by simpa [and_assoc] using hmatch⟩
        rw [KeyedTable.mem_updateWhere]
        exact ⟨r, hr, (if_pos hmatch).symm⟩
      · intro i hi happ hprovider hlinked
        rw [KeyedTable.mem_updateWhere] at hi
        obtain ⟨r, hr, rfl⟩ := hi
        split
        · rfl
        · rename_i hmiss
          rw [if_neg hmiss] at happ hprovider hlinked
          simp [happ, hprovider, hlinked] at hmiss
      · intro i hother
        rw [KeyedTable.mem_updateWhere]
        constructor
        · rintro ⟨r, hr, rfl⟩
          by_cases hmatch : (r.appId == link.appId && r.provider == link.provider &&
              r.providerUserId == link.providerUserId) = true
          · rw [if_pos hmatch] at hother
            simp only [Bool.and_eq_true, beq_iff_eq] at hmatch
            exact absurd ⟨hmatch.1.1, hmatch.1.2, hmatch.2⟩ hother
          · rw [if_neg hmatch]
            exact hr
        · intro hi
          refine ⟨i, hi, ?_⟩
          rw [if_neg]
          simpa [and_assoc] using hother
    · rename_i hunknown
      obtain ⟨identities, hinsert, rfl⟩ := Option.map_eq_some_iff.mp h
      refine ⟨rfl, huser, ⟨huser, ?_, ?_⟩, ?_⟩
      · exact ⟨link, (KeyedTable.mem_insert? hinsert).mpr (.inr rfl), rfl, rfl, rfl⟩
      · intro i hi happ hprovider hlinked
        rcases (KeyedTable.mem_insert? hinsert).mp hi with hold | rfl
        · refine absurd (List.any_eq_true.mpr ⟨i, hold, ?_⟩) hunknown
          simp [happ, hprovider, hlinked]
        · rfl
      · intro i hother
        rw [KeyedTable.mem_insert? hinsert]
        refine or_iff_left ?_
        rintro rfl
        exact hother ⟨rfl, rfl, rfl⟩
  · cases h

/-! ### Everything that happens to accounts -/

/-- The requests that write `auth_identities` are the logins and the deletion of a
    user; what any other request does to the accounts is left open. -/
inductive AccountStep (pf : Platform) : Db → Db → Prop
  | oauthLogin (db : Db) (env : Env) (appId provider : String) (userinfo : UserInfoResponse)
      (email : String) :
      AccountStep pf db (findOrCreateOAuthUser pf db env appId provider userinfo email).1
  | deleteUser (db : Db) (env : Env) (claims : Claims) (appId userId : String) :
      AccountStep pf db (deleteAdminUser db env claims appId userId).1
  | elsewhere (db db' : Db) (h : db'.authIdentities = db.authIdentities) : AccountStep pf db db'

theorem oauthUserByEmail_frame {pf : Platform} {env : Env} {appId email : String}
    {outcome : Except String UserSummary}
    (h : oauthUserByEmail pf db env appId email = (db', outcome)) :
    db'.authIdentities = db.authIdentities ∧
      ∀ id, db.users.hasKey id = true → db'.users.hasKey id = true := by
  unfold oauthUserByEmail createOAuthUser at h
  dsimp only at h
  split at h
  · cases h
    exact ⟨rfl, fun _ => id⟩
  · split at h
    · cases h
      exact ⟨rfl, fun _ => id⟩
    · split at h
      · cases h
        exact ⟨rfl, fun _ => id⟩
      · rename_i db₁ hinsert
        cases h
        obtain ⟨users, hrow, rfl⟩ := Db.insertUser_eq_some hinsert
        refine ⟨rfl, fun id hid => ?_⟩
        obtain ⟨u, hu, hkey⟩ := KeyedTable.hasKey_iff.mp hid
        exact KeyedTable.hasKey_iff.mpr ⟨u, (KeyedTable.mem_insert? hrow).mpr (.inl hu), hkey⟩

section Links

variable {pf : Platform} {appId provider sub userId : String} {db : Db}

theorem LinkedTo.oauthLogin (h : LinkedTo appId provider sub userId db) (env : Env)
    (appId' provider' : String) (userinfo : UserInfoResponse) (email : String) :
    LinkedTo appId provider sub userId
      (Peanut.findOrCreateOAuthUser pf db env appId' provider' userinfo email).1 := by
  by_cases hsame : appId = appId' ∧ provider = provider' ∧ sub = userinfo.sub
  · obtain ⟨rfl, rfl, rfl⟩ := hsame
    rw [h.findOrCreateOAuthUser pf env rfl]
    exact h
  · unfold Peanut.findOrCreateOAuthUser
    split
    · exact h
    · exact h
    · dsimp only
      split
      · rename_i db₁ message hby
        obtain ⟨hidentities, hkept⟩ := oauthUserByEmail_frame hby
        exact h.of_eq (hkept userId h.user) hidentities
      · rename_i db₁ user hby
        obtain ⟨hidentities, hkept⟩ := oauthUserByEmail_frame hby
        have hbefore := h.of_eq (hkept userId h.user) hidentities
        split
        · exact hbefore
        · rename_i db₂ hupsert
          obtain ⟨husers, -, -, hothers⟩ := Db.mem_upsertAuthIdentity hupsert
          have hunchanged : ∀ i : AuthIdentity, i.appId = appId → i.provider = provider →
              i.providerUserId = sub → (i ∈ db₂.authIdentities ↔ i ∈ db₁.authIdentities) := by
            rintro i rfl rfl rfl
            exact hothers i hsame
          obtain ⟨i, hi, happ, hprovider, hlinked⟩ := hbefore.link
          refine ⟨by rw [husers]; exact hbefore.user, ⟨i, ?_, happ, hprovider, hlinked⟩, ?_⟩
          · exact (hunchanged i happ hprovider hlinked).mpr hi
          · intro j hj happ' hprovider' hlinked'
            exact hbefore.only j ((hunchanged j happ' hprovider' hlinked').mp hj) happ' hprovider'
              hlinked'

theorem deleteUser_accounts {db db' : Db} {appId userId : String} {n : Nat}
    (h : db.deleteUser appId userId = some (n + 1, db')) :
    db'.users = db.users.deleteWhere (fun u => u.id == userId) ∧
      db'.authIdentities = db.authIdentities.deleteWhere fun i => i.userId == userId := by
  unfold Db.deleteUser at h
  split at h
  · cases h
  · split at h
    · cases h
    · cases h
      exact ⟨rfl, rfl⟩

theorem LinkedTo.deleteAdminUser (h : LinkedTo appId provider sub userId db) (env : Env)
    (claims : Claims) (appId' userId' : String)
    (huser : (Peanut.deleteAdminUser db env claims appId' userId').1.users.hasKey userId = true) :
    LinkedTo appId provider sub userId
      (Peanut.deleteAdminUser db env claims appId' userId').1 := by
  revert huser
  unfold Peanut.deleteAdminUser
  refine Outcome.proceed_rule (P := fun s : Db => s.users.hasKey userId = true →
    LinkedTo appId provider sub userId s) (fun _ => h) ?_
  rintro ⟨claims', user⟩ -
  dsimp only
  split
  · exact fun _ => h
  · exact fun _ => h
  · rename_i n db' hne hdelete
    obtain ⟨events, hevents⟩ := recordAuthEvent_frame db' env (env.uuid 0) claims'.appId claims'.sub
      (some claims'.sub) "auth.user.deleted"
      (some (.object [("deleted_user_id", .string user.id), ("email", .string user.email)]))
    rw [hevents]
    cases n with
    | zero => exact (hne rfl).elim
    | succ n =>
      obtain ⟨husers, hidentities⟩ := deleteUser_accounts hdelete
      intro huser
      refine h.of_keeping huser ?_ ?_
      · -- the user who is still there is not the one who was deleted
        intro i hi hlinked
        show i ∈ db'.authIdentities
        rw [hidentities, KeyedTable.mem_deleteWhere]
        refine ⟨hi, ?_⟩
        rw [beq_eq_false_iff_ne, hlinked]
        rintro rfl
        obtain ⟨u, hu, hkey⟩ := KeyedTable.hasKey_iff.mp huser
        rw [show _ = db'.users from rfl, husers, KeyedTable.mem_deleteWhere, hkey] at hu
        simp at hu
      · intro i hi
        rw [show _ = db'.authIdentities from rfl, hidentities] at hi
        exact (KeyedTable.mem_deleteWhere.mp hi).1

theorem LinkedTo.step (h : LinkedTo appId provider sub userId db) {db' : Db}
    (hstep : AccountStep pf db db') (huser : db'.users.hasKey userId = true) :
    LinkedTo appId provider sub userId db' := by
  cases hstep with
  | oauthLogin env appId' provider' userinfo email =>
    exact h.oauthLogin env appId' provider' userinfo email
  | deleteUser env claims appId' userId' => exact h.deleteAdminUser env claims appId' userId' huser
  | elsewhere _ heq => exact h.of_eq huser heq

end Links

/-- Any number of steps, after each of which the user is there. -/
def UserRemains (pf : Platform) (userId : String) : Db → Db → Prop :=
  Relation.ReflTransGen fun db db' => AccountStep pf db db' ∧ db'.users.hasKey userId = true

theorem LinkedTo.remains {pf : Platform}
    (h : LinkedTo appId provider sub userId db) (hruns : UserRemains pf userId db db') :
    LinkedTo appId provider sub userId db' := by
  induction hruns with
  | refl => exact h
  | tail _ hlast ih => exact ih.step hlast.1 hlast.2

theorem linkedTo_of_findOrCreate {pf : Platform} {env : Env}
    {userinfo : UserInfoResponse} {email : String} {user : UserSummary}
    (h : (findOrCreateOAuthUser pf db env appId provider userinfo email).2 = .ok user) :
    LinkedTo appId provider userinfo.sub user.id
      (findOrCreateOAuthUser pf db env appId provider userinfo email).1 := by
  unfold findOrCreateOAuthUser at h ⊢
  split at h
  · cases h
  · rename_i found hload
    cases loadOAuthIdentity_ok hload
  · dsimp only at h ⊢
    split at h
    · cases h
    · split at h
      · cases h
      · rename_i db₂ hupsert
        cases h
        exact (Db.mem_upsertAuthIdentity hupsert).2.2.1

/-- The login is answered with this user and touches no user. -/
def LogsInAs (db : Db) (userId : String) (outcome : Db × Except String UserSummary) : Prop :=
  ∃ user, outcome.2 = .ok user ∧ user.id = userId ∧ outcome.1.users = db.users

/-- **No second login.**  Once an identity has logged in, every later login with it is
    refused for as long as the user exists, whatever address the provider reports. -/
theorem later_oauth_login_refused {pf : Platform} {db : Db} {env : Env} {appId provider : String}
    {userinfo : UserInfoResponse} {email : String} {user : UserSummary}
    (hfirst : (findOrCreateOAuthUser pf db env appId provider userinfo email).2 = .ok user)
    {later : Db}
    (hremains : UserRemains pf user.id
      (findOrCreateOAuthUser pf db env appId provider userinfo email).1 later)
    (env' : Env) (userinfo' : UserInfoResponse) (hsub : userinfo'.sub = userinfo.sub)
    (email' : String) :
    findOrCreateOAuthUser pf later env' appId provider userinfo' email' =
        (later, .error "failed to load oauth identity") ∧
      ¬ LogsInAs later user.id
        (findOrCreateOAuthUser pf later env' appId provider userinfo' email') := by
  have hlinked := (linkedTo_of_findOrCreate hfirst).remains hremains
  have hrefused := hlinked.findOrCreateOAuthUser pf env' hsub email'
  refine ⟨hrefused, ?_⟩
  rw [hrefused]
  rintro ⟨again, hok, -, -⟩
  cases hok

/-- Dana logs in through the provider for the first time. -/
def danaFirstLogin : Db × Except String UserSummary :=
  findOrCreateOAuthUser asciiPlatform danaAsked (sampleEnv "a") "default" "google"
    { sub := "g1", email := some "dana@example.com" } "dana@example.com"

theorem dana_linked_then_refused :
    danaFirstLogin.2 = .ok dana.summary ∧
      ¬ LogsInAs danaFirstLogin.1 "dana"
        (findOrCreateOAuthUser asciiPlatform danaFirstLogin.1 (sampleEnv "b") "default" "google"
          { sub := "g1", email := some "dana@new.example.com" } "dana@new.example.com") := by
  have hfirst : danaFirstLogin.2 = .ok dana.summary := by
    decide +kernel
  have hrefused := later_oauth_login_refused hfirst .refl (sampleEnv "b")
    { sub := "g1", email := some "dana@new.example.com" } rfl "dana@new.example.com"
  exact ⟨hfirst, hrefused.2⟩

/-- The second login fails. -/
theorem second_oauth_login_fails :
    danaFirstLogin.2 = .ok dana.summary ∧
      danaFirstLogin.1.users.hasKey "dana" = true ∧
      (findOrCreateOAuthUser asciiPlatform danaFirstLogin.1 (sampleEnv "b") "default" "google"
        { sub := "g1", email := some "dana@example.com" } "dana@example.com").2 =
          .error "failed to load oauth identity" := by
  decide +kernel

end Peanut
