import Peanut.Auth.CredentialJournal

/-!
# Who gets in

Whatever requests are served at the same time and however their statements interleave, a
credential is accepted exactly if the server has handed its text out and has not said since
that it is rotated, revoked or gone with its user:

  * `app_key_accepted_iff`  for the keys of the SDK routes;
  * `bearer_accepted_iff`   for what a `Bearer` header carries;
  * `app_keys_listed`       for the list that the console shows.
-/

namespace Peanut

open Relational Interleaving Journal

/-! ### Who gets in -/

/-- **The text stands for the app key**: it was handed out for the key, nothing was said
    about the key since, and the key is not expired. -/
structure AppKeyStands (pf : Platform) (ns : List CredentialNotice) (now rawKey : String)
    (k : AppKey) : Prop where
  issued : ∃ key, .appKeyIssued k key ∈ ns
  handedOut : ∃ n key, Standing CredentialNotice.ends ns n ∧ n.handsOut = some (k.id, key) ∧
    hashOpaqueToken pf key = hashOpaqueToken pf rawKey
  unexpired : k.expiresAt.all (strLt now ·) = true

/-- **The text stands for the service token.** -/
structure ServiceTokenStands (pf : Platform) (ns : List CredentialNotice) (now rawToken : String)
    (t : ServiceToken) : Prop where
  handedOut : ∃ token, Standing CredentialNotice.ends ns (.serviceTokenIssued t token) ∧
    hashOpaqueToken pf token = hashOpaqueToken pf rawToken
  unexpired : t.expiresAt.all (strLt now ·) = true

section Accepted

variable {pf : Platform} {s : CredentialSystem}

theorem loadSdkAppKey_eq_some (h : AppKeysAsTold pf s.db.appKeys s.notices) {now rawKey : String}
    {r : AppKey} :
    loadSdkAppKey pf s.db now rawKey = some r ↔
      r ∈ s.db.appKeys ∧ r.keyHash = hashOpaqueToken pf rawKey ∧ r.revokedAt = none ∧
        r.expiresAt.all (strLt now ·) = true := by
  constructor
  · intro hload
    obtain ⟨hr, hmatch⟩ := KeyedTable.selectOne_some hload
    simp only [Bool.and_eq_true, beq_iff_eq, Option.isNone_iff_eq_none] at hmatch
    exact ⟨hr, hmatch.1.1, hmatch.1.2, hmatch.2⟩
  · rintro ⟨hr, hhash, hlive, hexpires⟩
    refine KeyedTable.selectOne_eq_some hr ?_ ?_
    · simp only [Bool.and_eq_true, beq_iff_eq, Option.isNone_iff_eq_none]
      exact ⟨⟨hhash, hlive⟩, hexpires⟩
    · intro r' hr' hmatch
      simp only [Bool.and_eq_true, beq_iff_eq] at hmatch
      exact h.distinct r' hr' r hr (hmatch.1.1.trans hhash.symm)

theorem AppKey.IssuedAs.authenticated {r k : AppKey} (h : r.IssuedAs k) (db : Db) :
    r.authenticated db = k.authenticated db := by
  rw [h]
  rfl

theorem AppKey.IssuedAs.expiresAt_eq {r k : AppKey} (h : r.IssuedAs k) :
    r.expiresAt = k.expiresAt :=
  congrArg (·.expiresAt) h

/-- **What the database finds for a text** is what the journal says about it. -/
theorem loadSdkAppKey_iff (h : AppKeysAsTold pf s.db.appKeys s.notices) {now rawKey : String}
    {P : AppKey → Prop} (hP : ∀ r k, r.IssuedAs k → (P r ↔ P k)) :
    (∃ r, loadSdkAppKey pf s.db now rawKey = some r ∧ P r) ↔
      ∃ k, AppKeyStands pf s.notices now rawKey k ∧ P k := by
  constructor
  · rintro ⟨r, hload, hPr⟩
    obtain ⟨hr, hhash, hlive, hexpires⟩ := (loadSdkAppKey_eq_some h).mp hload
    obtain ⟨k, key, hk, hissued⟩ := h.issued r hr
    obtain ⟨n, key', hn, hhands⟩ := h.live r hr hlive
    obtain ⟨r', hr', hid, -, hhash', -⟩ := h.standing n r.id key' hn hhands
    rw [s.db.appKeys.eq_of_key_eq hr' hr hid] at hhash'
    refine ⟨k, ⟨⟨key, hk⟩, ⟨n, key', hn, ?_, hhash'.symm.trans hhash⟩, ?_⟩, (hP r k hissued).mp hPr⟩
    · rw [hhands, hissued.id_eq]
    · rwa [← hissued.expiresAt_eq]
  · rintro ⟨k, ⟨⟨key, hk⟩, ⟨n, key', hn, hhands, hsame⟩, hexpires⟩, hPk⟩
    obtain ⟨r, hr, hissued⟩ := h.kept k key hk
    obtain ⟨r', hr', hid, hlive, hhash, -⟩ := h.standing n k.id key' hn hhands
    obtain rfl := s.db.appKeys.eq_of_key_eq hr' hr (hid.trans hissued.id_eq.symm)
    refine ⟨r', (loadSdkAppKey_eq_some h).mpr ⟨hr, hhash.trans hsame, hlive, ?_⟩,
      (hP r' k hissued).mpr hPk⟩
    rwa [hissued.expiresAt_eq]

theorem loadServiceToken_eq_some
    (h : ServiceTokensAsTold pf s.serviceTokens s.notices) {now rawToken : String}
    {r : ServiceToken} :
    loadServiceToken pf s.toCredentialStore now rawToken = some r ↔
      r ∈ s.serviceTokens ∧ r.tokenHash = hashOpaqueToken pf rawToken ∧ r.revokedAt = none ∧
        r.expiresAt.all (strLt now ·) = true := by
  constructor
  · intro hload
    obtain ⟨hr, hmatch⟩ := KeyedTable.selectOne_some hload
    simp only [Bool.and_eq_true, beq_iff_eq, Option.isNone_iff_eq_none] at hmatch
    exact ⟨hr, hmatch.1.1, hmatch.1.2, hmatch.2⟩
  · rintro ⟨hr, hhash, hlive, hexpires⟩
    refine KeyedTable.selectOne_eq_some hr ?_ ?_
    · simp only [Bool.and_eq_true, beq_iff_eq, Option.isNone_iff_eq_none]
      exact ⟨⟨hhash, hlive⟩, hexpires⟩
    · intro r' hr' hmatch
      simp only [Bool.and_eq_true, beq_iff_eq] at hmatch
      exact h.distinct r' hr' r hr (hmatch.1.1.trans hhash.symm)

theorem loadServiceToken_iff (h : ServiceTokensAsTold pf s.serviceTokens s.notices)
    (now rawToken : String) {P : ServiceToken → Prop} (hP : ∀ r t, r.IssuedAs t → (P r ↔ P t)) :
    (∃ r, loadServiceToken pf s.toCredentialStore now rawToken = some r ∧ P r) ↔
      ∃ t, ServiceTokenStands pf s.notices now rawToken t ∧ P t := by
  constructor
  · rintro ⟨r, hload, hPr⟩
    obtain ⟨hr, hhash, hlive, hexpires⟩ := (loadServiceToken_eq_some h).mp hload
    obtain ⟨t, token, hstands, hissued⟩ := h.live r hr hlive
    obtain ⟨-, hhash', -⟩ := h.standing t token hstands
    have htoken : r.tokenHash = t.tokenHash := congrArg (·.tokenHash) hissued
    refine ⟨t, ⟨⟨token, hstands, ?_⟩, ?_⟩, (hP r t hissued).mp hPr⟩
    · rw [← hhash', ← htoken, hhash]
    · rwa [← show r.expiresAt = t.expiresAt from congrArg (·.expiresAt) hissued]
  · rintro ⟨t, ⟨⟨token, hstands, hsame⟩, hexpires⟩, hPt⟩
    obtain ⟨-, hhash, r, hr, hissued, hlive⟩ := h.standing t token hstands
    have htoken : r.tokenHash = t.tokenHash := congrArg (·.tokenHash) hissued
    refine ⟨r, (loadServiceToken_eq_some h).mpr ⟨hr, ?_, hlive, ?_⟩, (hP r t hissued).mpr hPt⟩
    · rw [htoken, hhash, hsame]
    · rwa [show r.expiresAt = t.expiresAt from congrArg (·.expiresAt) hissued]

theorem validateUserClaims_eq_ok {db : Db} {appId userId : String} {exp : Int} {claims : Claims} :
    validateUserClaims db appId userId exp = .ok claims ↔
      ∃ u ∈ db.users, u.appId = appId ∧ u.id = userId ∧ u.isActive = true ∧
        claims = { sub := u.id, appId := u.appId, exp := exp, isAdmin := u.isAdmin } := by
  simp only [validateUserClaims, Outcome.bind_eq_ok, Outcome.require_eq_ok, Outcome.ensure_eq_ok,
    pure, Except.pure, Except.ok.injEq]
  constructor
  · rintro ⟨u, hload, -, hactive, rfl⟩
    obtain ⟨hu, hmatch⟩ := KeyedTable.selectOne_some hload
    simp only [Bool.and_eq_true, beq_iff_eq] at hmatch
    exact ⟨u, hu, hmatch.1, hmatch.2, hactive, rfl⟩
  · rintro ⟨u, hu, rfl, rfl, hactive, rfl⟩
    refine ⟨u, KeyedTable.selectOne_eq_some hu (by simp) ?_, (), hactive, rfl⟩
    intro u' hu' hmatch
    simp only [Bool.and_eq_true, beq_iff_eq] at hmatch
    exact db.users.eq_of_key_eq hu' hu hmatch.2

/-- An active administrator of the default app. -/
def User.administers (u : User) : Bool := u.appId == DEFAULT_APP_ID && u.isActive && u.isAdmin

/-- The text is that of a service token, and the user of the token is an administrator
    now. -/
def ServiceTokenGrants (pf : Platform) (s : CredentialSystem) (now rawToken : String)
    (u : User) : Prop :=
  u ∈ s.db.users ∧ u.administers = true ∧
    ∃ t, ServiceTokenStands pf s.notices now rawToken t ∧ t.userId = u.id

def serviceTokenClaims (u : User) (timestamp : Int) : Claims :=
  { sub := u.id, appId := DEFAULT_APP_ID, exp := tenYearsOn timestamp, isAdmin := true }

theorem serviceTokenChecks_eq_ok (h : ServiceTokensAsTold pf s.serviceTokens s.notices) {env : Env}
    {timestamp : Int} {rawToken : String} {claims : Claims} :
    (∃ stored, serviceTokenChecks pf s.toCredentialStore env timestamp rawToken =
      .ok (stored, claims)) ↔
        ∃ u, ServiceTokenGrants pf s env.now rawToken u ∧
          claims = serviceTokenClaims u timestamp := by
  have hload := loadServiceToken_iff h env.now rawToken
    (P := fun t => t.accessMode = "admin" ∧ ∃ u ∈ s.db.users, u.appId = DEFAULT_APP_ID ∧
      u.id = t.userId ∧ u.isActive = true ∧ u.isAdmin = true ∧
        claims = serviceTokenClaims u timestamp) fun r t hissued => by
          rw [hissued.userId_eq, show r.accessMode =
            t.accessMode from congrArg (·.accessMode) hissued]
  have hchecks : (∃ stored, serviceTokenChecks pf s.toCredentialStore env timestamp rawToken =
      .ok (stored, claims)) ↔
      ∃ r, loadServiceToken pf s.toCredentialStore env.now rawToken = some r ∧
        r.accessMode = "admin" ∧ ∃ u ∈ s.db.users, u.appId = DEFAULT_APP_ID ∧
          u.id = r.userId ∧ u.isActive = true ∧ u.isAdmin = true ∧
            claims = serviceTokenClaims u timestamp := by
    simp only [serviceTokenChecks, Outcome.bind_eq_ok, Outcome.require_eq_ok,
      validateUserClaims_eq_ok, Outcome.ensure_eq_ok, Bool.and_eq_true, beq_iff_eq, pure,
      Except.pure, Except.ok.injEq, Prod.mk.injEq]
    constructor
    · rintro ⟨stored, r, hr, claims', ⟨u, hu, happ, hid, hactive, rfl⟩, -, ⟨hmode, hadmin⟩, rfl,
        rfl⟩
      refine ⟨r, hr, hmode, u, hu, happ, hid, hactive, hadmin, ?_⟩
      rw [serviceTokenClaims, happ, show u.isAdmin = true from hadmin]
    · rintro ⟨r, hr, hmode, u, hu, happ, hid, hactive, hadmin, rfl⟩
      refine ⟨r, r, hr, _, ⟨u, hu, happ, hid, hactive, rfl⟩, (), ⟨hmode, hadmin⟩, rfl, ?_⟩
      rw [serviceTokenClaims, happ, hadmin]
  rw [hchecks, hload]
  constructor
  · rintro ⟨t, hstands, -, u, hu, happ, hid, hactive, hadmin, hclaims⟩
    refine ⟨u, ⟨hu, ?_, t, hstands, hid.symm⟩, hclaims⟩
    simp [User.administers, happ, hactive, hadmin]
  · rintro ⟨u, ⟨hu, hadministers, t, hstands, hid⟩, hclaims⟩
    simp only [User.administers, Bool.and_eq_true, beq_iff_eq] at hadministers
    obtain ⟨token, htoken, -⟩ := hstands.handedOut
    exact ⟨t, hstands, (h.standing t token htoken).1, u, hu, hadministers.1.1, hid.symm,
      hadministers.1.2, hadministers.2, hclaims⟩

end Accepted

/-- **What a bearer text entitles to.**  A session that is valid is never taken for anything
    else, and a service token comes before an app key. -/
inductive BearerEntitles (pf : Platform) (tk : TokenKey) (s : CredentialSystem) (env : Env)
    (timestamp : Int) (token : String) : AuthenticatedPrincipal → Prop where
  | session {claims : Claims} {u : User} (hjwt : verifyJwt tk timestamp token = .ok claims)
      (hu : u ∈ s.db.users) (happ : u.appId = claims.appId) (hid : u.id = claims.sub)
      (hactive : u.isActive = true) :
      BearerEntitles pf tk s env timestamp token
        { claims := { sub := u.id, appId := u.appId, exp := claims.exp, isAdmin := u.isAdmin }
          principal := .userForApp u.id u.appId u.isAdmin }
  | serviceToken {e : JwtError} {u : User} (hjwt : verifyJwt tk timestamp token = .error e)
      (hgrants : ServiceTokenGrants pf s env.now token u) :
      BearerEntitles pf tk s env timestamp token
        { claims := serviceTokenClaims u timestamp, principal := .serviceToken u.id true }
  | appKey {e : JwtError} {k : AppKey} (hjwt : verifyJwt tk timestamp token = .error e)
      (hnone : ∀ u, ¬ ServiceTokenGrants pf s env.now token u)
      (hstands : AppKeyStands pf s.notices env.now token k) (hadmin : k.isAdmin = true) :
      BearerEntitles pf tk s env timestamp token (k.bearer timestamp)

theorem AppKey.IssuedAs.bearer {r k : AppKey} (h : r.IssuedAs k) (timestamp : Int) :
    r.bearer timestamp = k.bearer timestamp ∧ r.isAdmin = k.isAdmin := by
  rw [h]
  exact ⟨rfl, rfl⟩

section Bearer

variable {pf : Platform} {tk : TokenKey} {s : CredentialSystem} {env : Env} {timestamp : Int}
  {token : String} {a : AuthenticatedPrincipal}

theorem validateSession_eq_ok {db : Db} {tokenClaims : Claims} :
    validateSession db tokenClaims = .ok a ↔
      ∃ u ∈ db.users, u.appId = tokenClaims.appId ∧ u.id = tokenClaims.sub ∧ u.isActive = true ∧
        a = { claims := { sub := u.id, appId := u.appId, exp := tokenClaims.exp
                          isAdmin := u.isAdmin }
              principal := .userForApp u.id u.appId u.isAdmin } := by
  simp only [validateSession, Outcome.bind_eq_ok, validateUserClaims_eq_ok, pure, Except.pure,
    Except.ok.injEq]
  constructor
  · rintro ⟨claims, ⟨u, hu, happ, hid, hactive, rfl⟩, rfl⟩
    exact ⟨u, hu, happ, hid, hactive, rfl⟩
  · rintro ⟨u, hu, happ, hid, hactive, rfl⟩
    exact ⟨_, ⟨u, hu, happ, hid, hactive, rfl⟩, rfl⟩

theorem authenticateAppKey_eq_ok (h : AppKeysAsTold pf s.db.appKeys s.notices) :
    (authenticateAppKey pf s.toCredentialStore env timestamp token).2 = .ok a ↔
      ∃ k, AppKeyStands pf s.notices env.now token k ∧ k.isAdmin = true ∧
        a = k.bearer timestamp := by
  rw [← loadSdkAppKey_iff h (P := fun k => k.isAdmin = true ∧ a = k.bearer timestamp)
    fun r k hissued => by rw [(hissued.bearer timestamp).1, (hissued.bearer timestamp).2]]
  simp only [authenticateAppKey, Outcome.proceed_eq_ok, appKeyChecks, Outcome.bind_eq_ok,
    Outcome.require_eq_ok, Outcome.ensure_eq_ok, pure, Except.pure, Except.ok.injEq]
  constructor
  · rintro ⟨k, ⟨k', hload, -, hadmin, rfl⟩, rfl⟩
    exact ⟨k', hload, hadmin, rfl⟩
  · rintro ⟨k, hload, hadmin, rfl⟩
    exact ⟨k, ⟨k, hload, (), hadmin, rfl⟩, rfl⟩

theorem stripStart_eq_some {start text rest : String} :
    stripStart start text = some rest ↔ text = start ++ rest := by
  rw [stripStart, Option.ite_none_right_eq_some, List.isPrefixOf_iff_prefix, Option.some.injEq]
  constructor
  · rintro ⟨⟨more, hmore⟩, rfl⟩
    apply String.toList_inj.mp
    rw [String.toList_append, String.toList_ofList, ← hmore, ← String.length_toList,
      List.drop_left]
  · rintro rfl
    rw [String.toList_append, ← String.length_toList, List.drop_left, String.ofList_toList]
    exact ⟨List.prefix_append _ _, rfl⟩

theorem bearerText_eq_ok {authHeader : Option String} :
    bearerText authHeader = .ok token ↔ authHeader = some ("Bearer " ++ token) := by
  simp only [bearerText, Outcome.require_eq_ok, Option.bind_eq_some_iff, stripStart_eq_some]
  constructor
  · rintro ⟨header, rfl, rfl⟩
    rfl
  · rintro rfl
    exact ⟨_, rfl, rfl⟩

theorem opaque_entitles (h : AsTold pf s) {e : JwtError}
    (hjwt : verifyJwt tk timestamp token = .error e) :
    (match authenticateServiceToken pf s.toCredentialStore env timestamp token with
      | (s, .ok authenticated) => (s, Except.ok authenticated)
      | (s, .error _) => authenticateAppKey pf s env timestamp token).2 = .ok a ↔
        BearerEntitles pf tk s env timestamp token a := by
  have hchecks := @serviceTokenChecks_eq_ok pf s h.serviceTokens env timestamp token
  rcases hresult : serviceTokenChecks pf s.toCredentialStore env timestamp token with
    e' | ⟨stored, claims⟩
  · have hnone : ∀ u, ¬ ServiceTokenGrants pf s env.now token u := by
      intro u hu
      obtain ⟨stored, hstored⟩ := hchecks.mpr ⟨u, hu, rfl⟩
      rw [hresult] at hstored
      cases hstored
    rw [authenticateServiceToken, hresult, Outcome.proceed_error]
    refine (authenticateAppKey_eq_ok h.appKeys).trans ⟨?_, ?_⟩
    · rintro ⟨k, hstands, hadmin, rfl⟩
      exact .appKey hjwt hnone hstands hadmin
    · rintro hentitles
      cases hentitles with
      | session hjwt' => cases hjwt.symm.trans hjwt'
      | serviceToken _ hgrants => exact absurd hgrants (hnone _)
      | appKey _ _ hstands hadmin => exact ⟨_, hstands, hadmin, rfl⟩
  · have hboth : ∀ u, ServiceTokenGrants pf s env.now token u →
        claims = serviceTokenClaims u timestamp := by
      intro u hu
      obtain ⟨stored', hstored'⟩ := hchecks.mpr ⟨u, hu, rfl⟩
      rw [hresult] at hstored'
      cases hstored'
      rfl
    obtain ⟨u, hgrants, rfl⟩ := hchecks.mp ⟨stored, hresult⟩
    rw [authenticateServiceToken, hresult, Outcome.proceed_ok]
    simp only [Except.ok.injEq]
    constructor
    · rintro rfl
      exact .serviceToken hjwt hgrants
    · intro hentitles
      cases hentitles with
      | session hjwt' => cases hjwt.symm.trans hjwt'
      | @serviceToken _ u' _ hgrants' =>
        rw [hboth u' hgrants']
        rfl
      | appKey _ hnone => exact absurd hgrants (hnone u)

theorem bearer_entitles (h : AsTold pf s) {authHeader : Option String} :
    (authenticateBearerPrincipal pf tk s.toCredentialStore env timestamp authHeader).2 = .ok a ↔
      ∃ token, authHeader = some ("Bearer " ++ token) ∧
        BearerEntitles pf tk s env timestamp token a := by
  rw [authenticateBearerPrincipal, Outcome.proceed_eq_ok]
  refine exists_congr fun token => and_congr bearerText_eq_ok ?_
  rcases hjwt : verifyJwt tk timestamp token with e | tokenClaims
  · exact opaque_entitles h hjwt
  · refine validateSession_eq_ok.trans ⟨?_, ?_⟩
    · rintro ⟨u, hu, happ, hid, hactive, rfl⟩
      exact .session hjwt hu happ hid hactive
    · intro hentitles
      cases hentitles with
      | session hjwt' hu happ hid hactive =>
        cases hjwt.symm.trans hjwt'
        exact ⟨_, hu, happ, hid, hactive, rfl⟩
      | serviceToken hjwt' => cases hjwt.symm.trans hjwt'
      | appKey hjwt' => cases hjwt.symm.trans hjwt'

end Bearer

/-- **The list of an app tells what was made known**: every key that was issued for the app
    is on it, and nothing else, the newest first; a key is shown as revoked exactly when a
    revocation was told, and with the start of the text handed out last. -/
structure ListedAsTold (ns : List CredentialNotice) (appId : String) (l : List AppKey) : Prop where
  sorted : l.Pairwise fun a b => toLex b.stamp < toLex a.stamp
  complete : ∀ k key, .appKeyIssued k key ∈ ns → k.appId = appId → ∃ r ∈ l, r.IssuedAs k
  sound : ∀ r ∈ l, r.appId = appId ∧ ∃ k key, .appKeyIssued k key ∈ ns ∧ r.IssuedAs k
  standing : ∀ r ∈ l, ∀ n key, Standing CredentialNotice.ends ns n →
    n.handsOut = some (r.id, key) → r.revokedAt = none ∧ r.keyPrefix = keyTextPrefix key
  live : ∀ r ∈ l, r.revokedAt = none →
    ∃ n key, Standing CredentialNotice.ends ns n ∧ n.handsOut = some (r.id, key)
  revoked : ∀ r ∈ l, .appKeyRevoked r.id ∈ ns ↔ r.revokedAt ≠ none

theorem AppKeysAsTold.listed {pf : Platform} {t : AppKeyTable} {ns : List CredentialNotice}
    (h : AppKeysAsTold pf t ns) (appId : String) :
    ListedAsTold ns appId
      ((t.select fun k => k.appId == appId).mergeSort fun a b => newestFirst a.stamp b.stamp) := by
  have hmem : ∀ r, r ∈ (t.select fun k => k.appId == appId).mergeSort
      (fun a b => newestFirst a.stamp b.stamp) ↔ r ∈ t ∧ r.appId = appId := by
    intro r
    rw [List.mem_mergeSort, KeyedTable.mem_select, beq_iff_eq]
  refine ⟨?_, ?_, ?_, ?_, ?_, ?_⟩
  · rw [mergeSort_newestFirst]
    refine (keyed_of_nodup AppKey.stamp ?_).descending
    exact t.nodup.sublist (List.filter_sublist.map _)
  · intro k key hk happ
    obtain ⟨r, hr, hissued⟩ := h.kept k key hk
    have hrapp : r.appId = k.appId := congrArg (·.appId) hissued
    exact ⟨r, (hmem r).mpr ⟨hr, hrapp.trans happ⟩, hissued⟩
  · intro r hr
    obtain ⟨hr, happ⟩ := (hmem r).mp hr
    exact ⟨happ, h.issued r hr⟩
  · intro r hr n key hn hhands
    obtain ⟨r', hr', hid, hlive, -, hprefix⟩ := h.standing n r.id key hn hhands
    rw [t.eq_of_key_eq hr' ((hmem r).mp hr).1 hid] at hlive hprefix
    exact ⟨hlive, hprefix⟩
  · intro r hr hlive
    exact h.live r ((hmem r).mp hr).1 hlive
  · intro r hr
    rw [h.revoked r.id]
    constructor
    · rintro ⟨r', hr', hid, hrevoked⟩
      rwa [t.eq_of_key_eq hr' ((hmem r).mp hr).1 hid] at hrevoked
    · exact fun hrevoked => ⟨r, ((hmem r).mp hr).1, rfl, hrevoked⟩

section Results

variable {ι : Type*} [DecidableEq ι] (pf : Platform) (tk : TokenKey) (db : Db)
  (requests : ι → CredentialRequest) (ticks : List (ι × Env))

/-- **Keys of the SDK routes.**  At any moment a text is accepted exactly if it stands for
    an app key, and then with the app, the scopes and the creator that the key was issued
    with. -/
theorem app_key_accepted_iff (env : Env) (rawKey : String) (auth : AuthenticatedSdkAppKey) :
    let s := (run (CredentialCall.step pf tk) (servedFrom db requests) ticks).store
    (authenticateSdkAppKey pf s.db env rawKey).2 = .ok auth ↔
      ∃ k, AppKeyStands pf s.notices env.now rawKey k ∧ auth = k.authenticated s.db := by
  intro s
  have hs := (asTold_run pf tk db requests ticks).appKeys
  rw [← loadSdkAppKey_iff hs (P := fun k => auth = k.authenticated s.db)
    fun r k hissued => by rw [hissued.authenticated]]
  constructor
  · exact authenticateSdkAppKey_eq_ok
  · rintro ⟨k, hload, rfl⟩
    rw [authenticateSdkAppKey, hload]

/-- **Bearer texts.**  At any moment a header is accepted exactly if it carries a text that
    entitles: a session of an active user, a service token that stands and whose user is an
    administrator, or an admin key that stands. -/
theorem bearer_accepted_iff (env : Env) (timestamp : Int) (authHeader : Option String)
    (a : AuthenticatedPrincipal) :
    let s := (run (CredentialCall.step pf tk) (servedFrom db requests) ticks).store
    (authenticateBearerPrincipal pf tk s.toCredentialStore env timestamp authHeader).2 = .ok a ↔
      ∃ token, authHeader = some ("Bearer " ++ token) ∧
        BearerEntitles pf tk s env timestamp token a :=
  bearer_entitles (asTold_run pf tk db requests ticks)

end Results

end Peanut
