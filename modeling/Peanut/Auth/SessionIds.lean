import Mathlib.Data.List.Induction
import Peanut.Auth.Sessions

/-!
# Session ids as credentials

A session id is shown in session lists and in the event log, so it should not be
good for anything but naming a session.  A session is named after the first
refresh token it was given, though, and that token stays valid until it is
rotated, revoked or expired.  The refresh tokens that follow it are fresh and
appear nowhere but in their hashes.
-/

namespace Peanut

open Relational

/-- The metadata of the event has this `session_id`. -/
def AuthEvent.namesSession (e : AuthEvent) (sessionId : String) : Prop :=
  ∃ m : JsonMap, e.metadata = some (.object m) ∧ m.get? "session_id" = some (.string sessionId)

/-- A stored token or an event shows this session id. -/
def SessionVisible (db : Db) (sessionId : String) : Prop :=
  (∃ t ∈ db.refreshTokens, t.sessionId = sessionId) ∨
    ∃ e ∈ db.authEvents, e.namesSession sessionId

theorem SessionVisible.updateTokens {db : Db} {p : RefreshToken → Bool}
    {f : RefreshToken → RefreshToken} {sessionId : String} (h : SessionVisible db sessionId)
    (htoken : ∀ t, (f t).token = t.token) (hsession : ∀ t, (f t).sessionId = t.sessionId) :
    SessionVisible { db with refreshTokens := db.refreshTokens.updateWhere p f htoken }
      sessionId := by
  rcases h with ⟨t, ht, rfl⟩ | hevent
  · refine .inl ⟨_, (KeyedTable.mem_updateWhere htoken).mpr ⟨t, ht, rfl⟩, ?_⟩
    split
    · exact hsession t
    · rfl
  · exact .inr hevent

theorem SessionVisible.revoke {db : Db} {sessionId : String} (h : SessionVisible db sessionId)
    (env : Env) (p : RefreshToken → Bool) : SessionVisible (revokeTokens db env p) sessionId := by
  apply h.updateTokens (f := fun t => { t with revokedAt := some env.now }) (fun _ => rfl)
  intro t
  rfl

/-- **No session id is a refresh token.**  What a session list of any user or the
    metadata of any event shows is accepted as a raw refresh token by no app. -/
def SessionIdsNotCredentials (pf : Platform) (db : Db) (now : String) : Prop :=
  ∀ sessionId,
    ((∃ appId userId, ∃ summary ∈ loadSessionsForUser db now appId userId,
        summary.sessionId = sessionId) ∨
      ∃ e ∈ db.authEvents, e.namesSession sessionId) →
    ∀ appId, loadActiveRefreshToken pf db now appId sessionId = none

/-- No session has its first refresh token, after which it is named, still active. -/
def FirstTokensSpent (pf : Platform) (db : Db) (now : String) : Prop :=
  ∀ t ∈ db.refreshTokens, t.token = hashOpaqueToken pf t.sessionId → t.activeAt now = false

/-! ### The invariant -/

/-- Session ids are tokens issued before, and a stored token that is one of them
    is the one its own session is named after. -/
structure SessionInv (pf : Platform) (db : Db) (issued : List String) : Prop where
  visible_issued : ∀ s, SessionVisible db s → s ∈ issued
  own_session : ∀ t ∈ db.refreshTokens, ∀ s, SessionVisible db s →
    t.token = hashOpaqueToken pf s → t.sessionId = s

/-- The hash of the raw token is none of the hashes of issued tokens. -/
def FreshToken (pf : Platform) (issued : List String) (rawToken : String) : Prop :=
  ∀ s ∈ issued, hashOpaqueToken pf s ≠ hashOpaqueToken pf rawToken

namespace SessionInv

variable {pf : Platform} {db db' : Db} {issued : List String}

theorem mono {more : List String} (h : SessionInv pf db issued) (hsub : issued ⊆ more) :
    SessionInv pf db more :=
  ⟨fun s hs => hsub (h.visible_issued s hs), h.own_session⟩

/-- A change that shows no new session id and keeps hash and session of every
    token keeps the invariant. -/
theorem of_same (h : SessionInv pf db issued)
    (hrows : ∀ t' ∈ db'.refreshTokens, ∃ t ∈ db.refreshTokens,
      t'.token = t.token ∧ t'.sessionId = t.sessionId)
    (hvisible : ∀ s, SessionVisible db' s → SessionVisible db s) : SessionInv pf db' issued := by
  refine ⟨fun s hs => h.visible_issued s (hvisible s hs), ?_⟩
  intro t' ht' s hs htoken
  obtain ⟨t, ht, htok, hsess⟩ := hrows t' ht'
  rw [hsess]
  exact h.own_session t ht s (hvisible s hs) (htok.symm.trans htoken)

theorem updateTokens {p : RefreshToken → Bool} {f : RefreshToken → RefreshToken}
    (h : SessionInv pf db issued) (htoken : ∀ t, (f t).token = t.token)
    (hsession : ∀ t, (f t).sessionId = t.sessionId) :
    SessionInv pf { db with refreshTokens := db.refreshTokens.updateWhere p f htoken } issued := by
  have hrows : ∀ t' ∈ db.refreshTokens.updateWhere p f htoken, ∃ t ∈ db.refreshTokens,
      t'.token = t.token ∧ t'.sessionId = t.sessionId := by
    intro t' ht'
    obtain ⟨t, ht, rfl⟩ := (KeyedTable.mem_updateWhere htoken).mp ht'
    refine ⟨t, ht, ?_⟩
    split
    · exact ⟨htoken t, hsession t⟩
    · exact ⟨rfl, rfl⟩
  apply h.of_same hrows
  rintro s (⟨t', ht', rfl⟩ | hevent)
  · obtain ⟨t, ht, -, hsess⟩ := hrows t' ht'
    exact .inl ⟨t, ht, hsess.symm⟩
  · exact .inr hevent

theorem revoke (h : SessionInv pf db issued) (env : Env) (p : RefreshToken → Bool) :
    SessionInv pf (revokeTokens db env p) issued := by
  apply h.updateTokens (f := fun t => { t with revokedAt := some env.now }) (fun _ => rfl)
  intro t
  rfl

theorem logEvent (h : SessionInv pf db issued) (env : Env) (uuid appId userId : String)
    (actor : Option String) (action : String) (metadata : Option Value)
    (hmeta : ∀ (s : String) (m : JsonMap), metadata = some (.object m) →
      m.get? "session_id" = some (.string s) →
      SessionVisible db s) :
    SessionInv pf (recordAuthEvent db env uuid appId userId actor action metadata) issued := by
  unfold recordAuthEvent
  split
  · split
    · rename_i events hins
      apply h.of_same
      · intro t ht
        exact ⟨t, ht, rfl, rfl⟩
      · rintro s (htoken | ⟨e, he, hnames⟩)
        · exact .inl htoken
        · rcases (KeyedTable.mem_insert? hins).mp he with he | rfl
          · exact .inr ⟨e, he, hnames⟩
          · obtain ⟨m, hm, hs⟩ := hnames
            exact hmeta s m hm hs
    · exact h
  · exact h

theorem logSession (h : SessionInv pf db issued) (env : Env) (uuid appId userId : String)
    (actor : Option String) (action : String) {sessionId : String}
    (hvisible : SessionVisible db sessionId) :
    SessionInv pf (recordAuthEvent db env uuid appId userId actor action
      (some (sessionMetadata sessionId))) issued := by
  apply h.logEvent
  intro s m hm hs
  simp only [sessionMetadata, Option.some.injEq, Value.object.injEq] at hm
  subst hm
  simp only [JsonMap.get?, List.lookup_cons_self, Option.some.injEq, Value.string.injEq] at hs
  subst hs
  exact hvisible

theorem issue (h : SessionInv pf db issued) {env : Env} {appId userId rawToken sessionId : String}
    (hfresh : FreshToken pf issued rawToken)
    (hsession : sessionId = rawToken ∨ SessionVisible db sessionId)
    (hinsert : db.insertRefreshToken (newRefreshToken pf env appId userId rawToken sessionId) =
      some db') :
    SessionInv pf db' (rawToken :: issued) := by
  obtain ⟨tokens, hins, rfl⟩ := Db.insertRefreshToken_eq_some hinsert
  have hnew : ∀ t ∈ db.refreshTokens, t.token ≠ hashOpaqueToken pf rawToken := by
    have hkey := (KeyedTable.insert?_eq_some.mp hins).1
    intro t ht heq
    have hhas := KeyedTable.hasKey_of_mem ht
    rw [heq] at hhas
    exact absurd hhas (by simpa [newRefreshToken] using hkey)
  have hvisible : ∀ s, SessionVisible { db with refreshTokens := tokens } s →
      s = sessionId ∨ SessionVisible db s := by
    rintro s (⟨t, ht, rfl⟩ | hevent)
    · rcases (KeyedTable.mem_insert? hins).mp ht with ht | rfl
      · exact .inr (.inl ⟨t, ht, rfl⟩)
      · exact .inl rfl
    · exact .inr (.inr hevent)
  refine ⟨?_, ?_⟩
  · intro s hs
    rcases hvisible s hs with rfl | hold
    · rcases hsession with rfl | hold
      · exact List.mem_cons_self
      · exact List.mem_cons_of_mem _ (h.visible_issued s hold)
    · exact List.mem_cons_of_mem _ (h.visible_issued s hold)
  · intro t ht s hs htoken
    rcases (KeyedTable.mem_insert? hins).mp ht with ht | rfl
    · -- an older token: the new one has another hash
      rcases hvisible s hs with rfl | hold
      · rcases hsession with rfl | hold
        · exact absurd htoken (hnew t ht)
        · exact h.own_session t ht s hold htoken
      · exact h.own_session t ht s hold htoken
    · -- the new token: no older session id has its hash
      rcases hvisible s hs with rfl | hold
      · rfl
      · exact absurd htoken.symm (hfresh s (h.visible_issued s hold))

end SessionInv

/-! ### The requests -/

section Requests

variable {pf : Platform} {db : Db} {issued : List String}

theorem signIn_sessionInv (h : SessionInv pf db issued) {env : Env}
    (hfresh : FreshToken pf issued (env.token 0)) (appId action : String)
    (checks : Except ApiError User) :
    SessionInv pf (signIn pf db env appId action checks).1 (env.token 0 :: issued) := by
  have hold : SessionInv pf db (env.token 0 :: issued) := h.mono (List.subset_cons_self _ _)
  unfold signIn
  refine Outcome.proceed_rule (P := fun s : Db => SessionInv pf s (env.token 0 :: issued)) hold ?_
  intro user _
  split
  · exact hold
  · rename_i response db' hlogin
    simp only [issueLoginResponse, issueRefreshToken, Outcome.bind_eq_ok, Outcome.require_eq_ok,
      Option.getD_none] at hlogin
    obtain ⟨⟨token, db₁⟩, ⟨db₂, hinsert, heq⟩, heq'⟩ := hlogin
    cases heq
    cases heq'
    have hnew := h.issue hfresh (.inl rfl) hinsert
    apply hnew.logSession
    obtain ⟨tokens, hins, rfl⟩ := Db.insertRefreshToken_eq_some hinsert
    exact .inl ⟨_, (KeyedTable.mem_insert? hins).mpr (.inr rfl), rfl⟩

theorem loadActiveRefreshToken_mem {now appId rawToken : String} {t : RefreshToken}
    (h : loadActiveRefreshToken pf db now appId rawToken = some t) :
    t ∈ db.refreshTokens ∧ t.token = hashOpaqueToken pf rawToken ∧ t.appId = appId ∧
      t.activeAt now = true := by
  obtain ⟨ht, hmatch⟩ := KeyedTable.selectOne_some h
  simp only [Bool.and_eq_true, beq_iff_eq] at hmatch
  exact ⟨ht, hmatch.1.1, hmatch.1.2, hmatch.2⟩

theorem refreshWith_sessionInv (h : SessionInv pf db issued) {env : Env}
    (hfresh : FreshToken pf issued (env.token 0)) (appId action rawToken : String)
    (refusal : User → Option ApiError) :
    SessionInv pf (refreshWith pf db env appId action rawToken refusal).1
      (env.token 0 :: issued) := by
  have hold : SessionInv pf db (env.token 0 :: issued) := h.mono (List.subset_cons_self _ _)
  unfold refreshWith
  refine Outcome.proceed_rule (P := fun s : Db => SessionInv pf s (env.token 0 :: issued)) hold ?_
  rintro ⟨stored, user⟩ hchecks
  simp only [refreshChecks, Outcome.bind_eq_ok, Outcome.require_eq_ok] at hchecks
  obtain ⟨t, hload, u, -, heq⟩ := hchecks
  cases heq
  obtain ⟨hstored, -⟩ := loadActiveRefreshToken_mem hload
  dsimp only
  split
  · exact hold.revoke env fun t => t.token == stored.token
  · split
    · exact hold
    · rename_i newToken db' hrotate
      simp only [rotateRefreshToken, Outcome.bind_eq_ok, Outcome.require_eq_ok] at hrotate
      obtain ⟨db₁, hinsert, heq⟩ := hrotate
      cases heq
      have hsession : SessionVisible db stored.sessionId := .inl ⟨stored, hstored, rfl⟩
      have hnew := h.issue hfresh (.inr hsession) hinsert
      have hmarked := hnew.updateTokens (p := fun t => t.token == stored.token)
        (f := fun t => { t with
          revokedAt := some env.now, replacedByToken := some (hashOpaqueToken pf (env.token 0)) })
        (fun _ => rfl) (fun _ => rfl)
      -- the session goes on under its name with the new token
      have hgoes : SessionVisible db₁ stored.sessionId := by
        obtain ⟨tokens, hins, rfl⟩ := Db.insertRefreshToken_eq_some hinsert
        exact .inl ⟨_, (KeyedTable.mem_insert? hins).mpr (.inr rfl), rfl⟩
      apply hmarked.logSession
      exact hgoes.updateTokens (p := fun t => t.token == stored.token)
        (f := fun t => { t with
          revokedAt := some env.now, replacedByToken := some (hashOpaqueToken pf (env.token 0)) })
        (fun _ => rfl) (fun _ => rfl)

theorem logoutForApp_sessionInv (h : SessionInv pf db issued) (env : Env)
    (appId rawToken : String) :
    SessionInv pf (logoutForApp pf db env appId rawToken).1 issued := by
  have hrevoked : SessionInv pf (revokeRefreshToken pf db env rawToken) issued :=
    h.revoke env fun t => t.token == hashOpaqueToken pf rawToken
  unfold logoutForApp
  dsimp only
  split
  · rename_i stored hload
    obtain ⟨hstored, -⟩ := loadActiveRefreshToken_mem hload
    apply hrevoked.logSession
    have hvisible : SessionVisible db stored.sessionId := .inl ⟨stored, hstored, rfl⟩
    exact hvisible.revoke env fun t => t.token == hashOpaqueToken pf rawToken
  · exact hrevoked

theorem revokeSessionOf_sessionInv (h : SessionInv pf db issued) (env : Env)
    (appId userId actorId action sessionId : String) :
    SessionInv pf (revokeSessionOf db env appId userId actorId action sessionId).1 issued := by
  have hrevoked := h.revoke env (sessionTokens appId userId sessionId)
  unfold revokeSessionOf
  split
  · rename_i db' hrevoke
    simp only [revokeSessionForUser, Prod.mk.injEq] at hrevoke
    obtain ⟨-, rfl⟩ := hrevoke
    exact hrevoked
  · rename_i n db' hne hrevoke
    simp only [revokeSessionForUser, Prod.mk.injEq] at hrevoke
    obtain ⟨hcount, rfl⟩ := hrevoke
    apply hrevoked.logSession
    -- at least one row was affected, so the session is one of a stored token
    have hsome : db.refreshTokens.select (sessionTokens appId userId sessionId) ≠ [] := by
      intro hnil
      rw [hnil] at hcount
      exact hne hcount.symm
    obtain ⟨t, ht⟩ := List.exists_mem_of_ne_nil _ hsome
    obtain ⟨ht, hmatch⟩ := KeyedTable.mem_select.mp ht
    simp only [sessionTokens, Bool.and_eq_true, beq_iff_eq] at hmatch
    have hvisible : SessionVisible db sessionId := .inl ⟨t, ht, hmatch.1.2⟩
    exact hvisible.revoke env (sessionTokens appId userId sessionId)

theorem revokeAllSessions_sessionInv (h : SessionInv pf db issued) (env : Env) (claims : Claims) :
    SessionInv pf (revokeAllSessions db env claims).1 issued := by
  unfold revokeAllSessions
  dsimp only
  have hrevoked : SessionInv pf (revokeAllRefreshTokensForUser db env claims.appId claims.sub)
      issued :=
    h.revoke env _
  apply hrevoked.logEvent
  intro s m hm
  cases hm

end Requests

/-! ### Runs -/

inductive AuthRequest where
  | loginForApp (env : Env) (appId : String) (payload : Credentials)
  | adminLogin (env : Env) (payload : Credentials)
  | refreshSessionForApp (env : Env) (appId rawToken : String)
  | adminRefreshSession (env : Env) (rawToken : String)
  | logoutForApp (env : Env) (appId rawToken : String)
  | revokeSession (env : Env) (claims : Claims) (sessionId : String)
  | revokeAdminUserSession (env : Env) (claims : Claims) (appId userId sessionId : String)
  | revokeAllSessions (env : Env) (claims : Claims)

/-- The database after a request. -/
def handleAuthRequest (pf : Platform) (db : Db) : AuthRequest → Db
  | .loginForApp env appId payload => (loginForApp pf db env appId payload).1
  | .adminLogin env payload => (adminLogin pf db env payload).1
  | .refreshSessionForApp env appId rawToken => (refreshSessionForApp pf db env appId rawToken).1
  | .adminRefreshSession env rawToken => (adminRefreshSession pf db env rawToken).1
  | .logoutForApp env appId rawToken => (logoutForApp pf db env appId rawToken).1
  | .revokeSession env claims sessionId => (revokeSession db env claims sessionId).1
  | .revokeAdminUserSession env claims appId userId sessionId =>
      (revokeAdminUserSession db env claims appId userId sessionId).1
  | .revokeAllSessions env claims => (revokeAllSessions db env claims).1

/-- The opaque token a request draws, if it issues one. -/
def AuthRequest.drawnToken : AuthRequest → Option String
  | .loginForApp env _ _ | .adminLogin env _ | .refreshSessionForApp env _ _
  | .adminRefreshSession env _ => some (env.token 0)
  | _ => none

def drawnTokens (requests : List AuthRequest) : List String :=
  requests.filterMap AuthRequest.drawnToken

/-- A database with users and without sessions or events. -/
def Db.withoutSessions (db : Db) : Db := { db with refreshTokens := .empty, authEvents := .empty }

/-- The database after a run that starts without sessions. -/
def runAuth (pf : Platform) (db : Db) (requests : List AuthRequest) : Db :=
  Transition.run (handleAuthRequest pf) db.withoutSessions requests

/-- The draws of the run are fresh: no token is drawn twice and the hash keeps
    them apart. -/
def FreshDraws (pf : Platform) (requests : List AuthRequest) : Prop :=
  (drawnTokens requests).Nodup ∧
    ∀ a ∈ drawnTokens requests, ∀ b ∈ drawnTokens requests,
      hashOpaqueToken pf a = hashOpaqueToken pf b → a = b

/-- **One request.**  A request whose draw is fresh keeps the invariant. -/
theorem handleAuthRequest_sessionInv {pf : Platform} {db : Db} {issued : List String}
    (h : SessionInv pf db issued) (request : AuthRequest)
    (hfresh : ∀ r, request.drawnToken = some r → FreshToken pf issued r) :
    SessionInv pf (handleAuthRequest pf db request) (request.drawnToken.toList ++ issued) := by
  cases request with
  | loginForApp env appId payload => exact signIn_sessionInv h (hfresh _ rfl) appId _ _
  | adminLogin env payload => exact signIn_sessionInv h (hfresh _ rfl) DEFAULT_APP_ID _ _
  | refreshSessionForApp env appId rawToken =>
    exact refreshWith_sessionInv h (hfresh _ rfl) appId _ rawToken _
  | adminRefreshSession env rawToken =>
    exact refreshWith_sessionInv h (hfresh _ rfl) DEFAULT_APP_ID _ rawToken _
  | logoutForApp env appId rawToken => exact logoutForApp_sessionInv h env appId rawToken
  | revokeSession env claims sessionId => exact revokeSessionOf_sessionInv h env _ _ _ _ sessionId
  | revokeAdminUserSession env claims appId userId sessionId =>
    simp only [handleAuthRequest, revokeAdminUserSession]
    refine Outcome.proceed_rule (P := fun s : Db => SessionInv pf s issued) h ?_
    intro claims' _
    exact revokeSessionOf_sessionInv h env _ _ _ _ sessionId
  | revokeAllSessions env claims => exact revokeAllSessions_sessionInv h env claims

theorem FreshDraws.of_append {pf : Platform} {before after : List AuthRequest}
    (h : FreshDraws pf (before ++ after)) : FreshDraws pf before := by
  obtain ⟨hnodup, hinj⟩ := h
  simp only [drawnTokens, List.filterMap_append] at hnodup hinj
  refine ⟨(List.nodup_append.mp hnodup).1, ?_⟩
  intro a ha b hb
  exact hinj a (List.mem_append_left _ ha) b (List.mem_append_left _ hb)

/-- Every run with fresh draws ends in a state that meets the invariant.  The
    induction takes requests off the end, so that the draws before are known. -/
theorem runAuth_sessionInv {pf : Platform} {db : Db} (requests : List AuthRequest)
    (h : FreshDraws pf requests) :
    ∃ issued, issued ⊆ drawnTokens requests ∧ SessionInv pf (runAuth pf db requests) issued := by
  induction requests using List.reverseRecOn with
  | nil =>
    have hnone : ∀ s, ¬ SessionVisible db.withoutSessions s := by
      rintro s (⟨t, ht, -⟩ | ⟨e, he, -⟩)
      · exact KeyedTable.not_mem_empty t ht
      · exact KeyedTable.not_mem_empty e he
    exact ⟨[], List.nil_subset _, fun s hs => absurd hs (hnone s), fun t _ s hs =>
      absurd hs (hnone s)⟩
  | append_singleton before request ih =>
    obtain ⟨issued, hsub, hinv⟩ := ih h.of_append
    have hrun : runAuth pf db (before ++ [request]) =
        handleAuthRequest pf (runAuth pf db before) request :=
      Transition.run_append (handleAuthRequest pf) db.withoutSessions before [request]
    obtain ⟨hnodup, hinj⟩ := h
    have hdrawn : drawnTokens (before ++ [request]) =
        drawnTokens before ++ request.drawnToken.toList := by
      rw [drawnTokens, List.filterMap_append]
      cases hdraw : request.drawnToken <;> simp [drawnTokens, hdraw]
    rw [hdrawn] at hnodup hinj
    have hfresh : ∀ r, request.drawnToken = some r → FreshToken pf issued r := by
      intro r hr s hs heq
      have hmem : r ∈ drawnTokens before ++ request.drawnToken.toList := by simp [hr]
      have hsame := hinj s (List.mem_append_left _ (hsub hs)) r hmem heq
      subst hsame
      exact (List.nodup_append.mp hnodup).2.2 s (hsub hs) s (by simp [hr]) rfl
    refine ⟨request.drawnToken.toList ++ issued, ?_, ?_⟩
    · rw [hdrawn]
      intro s hs
      rcases List.mem_append.mp hs with hs | hs
      · exact List.mem_append_right _ hs
      · exact List.mem_append_left _ (hsub hs)
    · rw [hrun]
      exact handleAuthRequest_sessionInv hinv request hfresh

/-- **Session ids.**  In every state of a run with fresh draws, and at every
    time, no session id is accepted as a refresh token exactly when no session
    has the token it is named after still active. -/
theorem session_ids_not_credentials_iff (pf : Platform) (db : Db) (requests : List AuthRequest)
    (hfresh : FreshDraws pf requests) :
    ∀ before after, requests = before ++ after → ∀ now,
      (SessionIdsNotCredentials pf (runAuth pf db before) now ↔
        FirstTokensSpent pf (runAuth pf db before) now) := by
  rintro before after rfl now
  obtain ⟨issued, -, hinv⟩ := @runAuth_sessionInv pf db before hfresh.of_append
  constructor
  · intro h t ht hfirst
    by_contra hactive
    rw [Bool.not_eq_false] at hactive
    have hnone := h t.sessionId (.inl (mem_loadSessionsForUser.mpr ⟨t, ht, rfl⟩)) t.appId
    rw [loadActiveRefreshToken, KeyedTable.selectOne_none] at hnone
    have hmatch := hnone t ht
    rw [← hfirst, hactive] at hmatch
    simp at hmatch
  · intro h sessionId hvisible appId
    rw [mem_loadSessionsForUser] at hvisible
    cases hload : loadActiveRefreshToken pf (runAuth pf db before) now appId sessionId with
    | none => rfl
    | some t =>
      obtain ⟨ht, htoken, -, hactive⟩ := loadActiveRefreshToken_mem hload
      have hown : t.sessionId = sessionId := hinv.own_session t ht sessionId hvisible htoken
      have hspent := h t ht (by rw [hown]; exact htoken)
      rw [hactive] at hspent
      cases hspent

/-! ### One login -/

def dana : User :=
  { id := "dana", appId := "default", email := "dana@example.com", passwordHash := "$12345678"
    isActive := true, isAdmin := false, adminRole := .viewer, createdAt := "2026-01-01 00:00:00" }

def danaDb : Db := { users := ⟨[dana], by decide⟩ }

def danaLogin : AuthRequest :=
  .loginForApp (sampleEnv "a") "default" { email := "dana@example.com", password := "12345678" }

/-- Right after a login, the id of the session in the event log is a valid
    refresh token. -/
theorem login_session_id_is_token :
    ¬ SessionIdsNotCredentials asciiPlatform (runAuth asciiPlatform danaDb [danaLogin])
      "2026-01-01 00:00:00" := by
  intro h
  have hlisted : ∃ t ∈ (runAuth asciiPlatform danaDb [danaLogin]).refreshTokens.rows,
      t.sessionId = "at0" := by
    decide +kernel
  have hnone := h "at0" (.inl (mem_loadSessionsForUser.mpr hlisted)) "default"
  revert hnone
  decide +kernel

/-- Dana signs in and refreshes once, which replaces the first token. -/
def danaRun : List AuthRequest := [danaLogin, .refreshSessionForApp (sampleEnv "b") "default" "at0"]

theorem refreshed_session_id_not_token :
    SessionIdsNotCredentials asciiPlatform (runAuth asciiPlatform danaDb danaRun)
      "2026-01-01 00:00:00" := by
  have hspent : ∀ t ∈ (runAuth asciiPlatform danaDb danaRun).refreshTokens.rows,
      t.token = hashOpaqueToken asciiPlatform t.sessionId →
        t.activeAt "2026-01-01 00:00:00" = false := by
    decide +kernel
  exact (session_ids_not_credentials_iff asciiPlatform danaDb danaRun
    ⟨by decide +kernel, by decide +kernel⟩ danaRun [] (by simp) "2026-01-01 00:00:00").mpr hspent

end Peanut
