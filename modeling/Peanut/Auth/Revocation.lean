import Peanut.Auth.Password
import Peanut.Auth.Rotation

/-!
# Revoking every session of a user

`revoke_all_sessions`, `change_password` and `reset_password_for_app` revoke the
tokens a user has at one instant, with a single `UPDATE`.  A refresh that has
read its token before inserts the next one afterwards, and nothing revokes that.
-/

namespace Peanut

open Relational Interleaving

/-! ### The requests -/

inductive RevokeAllStage where
  | received
  | revoked
  | completed

/-- `revoke_all_sessions`, one statement at a time. -/
structure RevokeAllCall where
  claims : Claims
  stage : RevokeAllStage

namespace RevokeAllCall

def step (env : Env) (db : Db) (c : RevokeAllCall) : Db × RevokeAllCall :=
  match c.stage with
  | .received =>
      (revokeAllRefreshTokensForUser db env c.claims.appId c.claims.sub,
        { c with stage := .revoked })
  | .revoked =>
      (recordAuthEvent db env (env.uuid 0) c.claims.appId c.claims.sub (some c.claims.sub)
          "all_auth_sessions_revoked" none,
        { c with stage := .completed })
  | .completed => (db, c)

theorem alone_eq (db : Db) (env : Env) (claims : Claims) :
    alone step env 2 db ⟨claims, .received⟩ =
      ((revokeAllSessions db env claims).1, ⟨claims, .completed⟩) := rfl

end RevokeAllCall

/-- A request that rotates a token or revokes all tokens of a user. -/
inductive SessionCall where
  | refresh (c : RefreshCall)
  | revokeAll (c : RevokeAllCall)
  | changePassword (c : ChangePasswordCall)
  | resetPassword (c : ResetPasswordCall)

namespace SessionCall

def step (pf : Platform) (env : Env) (db : Db) : SessionCall → Db × SessionCall
  | .refresh c => Prod.map id .refresh (c.step pf env db)
  | .revokeAll c => Prod.map id .revokeAll (c.step env db)
  | .changePassword c => Prod.map id .changePassword (c.step pf env db)
  | .resetPassword c => Prod.map id .resetPassword (c.step pf env db)

/-- App and user whose tokens the request has revoked; it can only succeed now. -/
def revoked : SessionCall → Option (String × String)
  | .refresh _ => none
  | .revokeAll c =>
      match c.stage with
      | .received => none
      | _ => some (c.claims.appId, c.claims.sub)
  | .changePassword c =>
      match c.stage with
      | .revoked userId => some (c.claims.appId, userId)
      | .completed userId => some (c.claims.appId, userId)
      | _ => none
  | .resetPassword c =>
      match c.stage with
      | .revoked record => some (record.appId, record.userId)
      | .completed record => some (record.appId, record.userId)
      | _ => none

/-- App and user of a revocation that has returned success. -/
def returned : SessionCall → Option (String × String)
  | .refresh _ => none
  | .revokeAll c =>
      match c.stage with
      | .completed => some (c.claims.appId, c.claims.sub)
      | _ => none
  | .changePassword c =>
      match c.stage with
      | .completed userId => some (c.claims.appId, userId)
      | _ => none
  | .resetPassword c =>
      match c.stage with
      | .completed record => some (record.appId, record.userId)
      | _ => none

/-- The token whose successor the next statement inserts. -/
def inserting : SessionCall → Option RefreshToken
  | .refresh c => c.stage.inserting
  | _ => none

theorem revoked_of_returned {c : SessionCall} {key : String × String}
    (h : c.returned = some key) : c.revoked = some key := by
  unfold returned at h
  unfold revoked
  split at h
  · cases h
  · split at h
    · simp_all
    · cases h
  · split at h
    · simp_all
    · cases h
  · split at h
    · simp_all
    · cases h

end SessionCall

/-! ### What a statement does to the tokens of a user -/

/-- The user has no unrevoked token on the app. -/
def NoneLive (db : Db) (key : String × String) : Prop :=
  ∀ t ∈ db.refreshTokens, t.appId = key.1 → t.userId = key.2 → t.revokedAt ≠ none

theorem NoneLive.of_old {db db' : Db} {key : String × String} (h : NoneLive db key)
    (hold : TokensOld db db') : NoneLive db' key := by
  intro t' ht' happ huser
  obtain ⟨t, ht, hages⟩ := hold t' ht'
  exact hages.revoked (h t ht (hages.appId.symm.trans happ) (hages.userId.symm.trans huser))

theorem noneLive_revokeAll (db : Db) (env : Env) (appId userId : String) :
    NoneLive (revokeAllRefreshTokensForUser db env appId userId) (appId, userId) := by
  intro t' ht' happ huser
  obtain ⟨t, ht, rfl⟩ := mem_revokeTokens.mp ht'
  have hages := t.ages_revoked
    (fun t => t.appId == appId && t.userId == userId && t.revokedAt.isNone) env.now
  by_cases hlive : t.revokedAt.isNone = true
  · rw [hages.appId] at happ
    rw [hages.userId] at huser
    simp [happ, huser, hlive]
  · exact hages.revoked (by simpa using hlive)

namespace SessionCall

variable {pf : Platform}

/-- Tokens come from the `INSERT` of a rotation only. -/
theorem step_tokens (env : Env) (db : Db) (c : SessionCall) :
    (∃ stored, c.inserting = some stored ∧
      db.insertRefreshToken (newRefreshToken pf env stored.appId stored.userId (env.token 0)
        stored.sessionId) = some (c.step pf env db).1) ∨ TokensOld db (c.step pf env db).1 := by
  cases c with
  | refresh c => exact (RefreshCall.step_moves pf env db c).tokens_old
  | revokeAll c =>
    right
    simp only [step, RevokeAllCall.step]
    split
    · exact revokeTokens_old db env _
    · exact .of_eq (recordAuthEvent_refreshTokens ..)
    · exact .of_eq rfl
  | changePassword c =>
    right
    simp only [step, ChangePasswordCall.step]
    split
    · split <;> exact .of_eq rfl
    · exact .of_eq rfl
    · exact revokeTokens_old db env _
    · exact .of_eq (recordAuthEvent_refreshTokens ..)
    · exact .of_eq rfl
    · exact .of_eq rfl
  | resetPassword c =>
    right
    simp only [step, ResetPasswordCall.step]
    split
    · split <;> exact .of_eq rfl
    · exact .of_eq rfl
    · exact .of_eq rfl
    · exact revokeTokens_old db env _
    · exact .of_eq (recordAuthEvent_refreshTokens ..)
    · exact .of_eq rfl
    · exact .of_eq rfl

theorem step_revoked_stays (env : Env) (db : Db) {c : SessionCall} {key : String × String}
    (h : c.revoked = some key) : (c.step pf env db).2.revoked = some key := by
  cases c with
  | refresh c => cases h
  | revokeAll c =>
    obtain ⟨claims, stage⟩ := c
    cases stage with
    | received => cases h
    | revoked => exact h
    | completed => exact h
  | changePassword c =>
    obtain ⟨claims, payload, stage⟩ := c
    cases stage with
    | revoked userId => exact h
    | completed userId => exact h
    | _ => cases h
  | resetPassword c =>
    obtain ⟨appId, payload, stage⟩ := c
    cases stage with
    | revoked record => exact h
    | completed record => exact h
    | _ => cases h

/-- Right after its `UPDATE`, a revocation has left no live token. -/
theorem step_revoked_by (env : Env) (db : Db) {c : SessionCall} {key : String × String}
    (h : (c.step pf env db).2.revoked = some key) :
    c.revoked = some key ∨ NoneLive (c.step pf env db).1 key := by
  cases c with
  | refresh c => cases h
  | revokeAll c =>
    obtain ⟨claims, stage⟩ := c
    cases stage with
    | received =>
      cases h
      exact .inr (noneLive_revokeAll db env _ _)
    | revoked => exact .inl h
    | completed => exact .inl h
  | changePassword c =>
    obtain ⟨claims, payload, stage⟩ := c
    cases stage with
    | received =>
      simp only [step, ChangePasswordCall.step] at h
      split at h <;> cases h
    | verified userId nextHash => cases h
    | updated userId =>
      cases h
      exact .inr (noneLive_revokeAll db env _ _)
    | revoked userId => exact .inl h
    | completed userId => exact .inl h
    | refused e => cases h
  | resetPassword c =>
    obtain ⟨appId, payload, stage⟩ := c
    cases stage with
    | received =>
      simp only [step, ResetPasswordCall.step] at h
      split at h <;> cases h
    | loaded record nextHash => cases h
    | passwordSet record => cases h
    | consumed record =>
      cases h
      exact .inr (noneLive_revokeAll db env _ _)
    | revoked record => exact .inl h
    | completed record => exact .inl h
    | refused e => cases h

end SessionCall

/-! ### Every interleaving -/

section Pools

variable {ι : Type} [DecidableEq ι] {pf : Platform}

/-- Once a request has revoked the tokens of a user, the user has no live token. -/
def RevokedStaysRevoked (p : Pool ι Db SessionCall) : Prop :=
  ∀ i key, (p.request i).revoked = some key → NoneLive p.store key

/-- The same from the moment the request has returned success. -/
def RevocationFinal (p : Pool ι Db SessionCall) : Prop :=
  ∀ i key, (p.request i).returned = some key → NoneLive p.store key

/-- The tick is the `INSERT` of a rotation, which succeeds although a request has
    already revoked all tokens of the user. -/
def InsertsAfterRevocation (pf : Platform) (p : Pool ι Db SessionCall) (t : ι × Env) : Prop :=
  ∃ stored ∈ (p.request t.1).inserting,
    (p.store.insertRefreshToken (newRefreshToken pf t.2 stored.appId stored.userId (t.2.token 0)
      stored.sessionId)).isSome = true ∧
    ∃ i, (p.request i).revoked = some (stored.appId, stored.userId)

theorem revokedStaysRevoked_tick {p : Pool ι Db SessionCall} (h : RevokedStaysRevoked p)
    (t : ι × Env) :
    RevokedStaysRevoked (tick (SessionCall.step pf) p t) ↔ ¬ InsertsAfterRevocation pf p t := by
  constructor
  · rintro hafter ⟨stored, hinserting, hsome, i, hrevoked⟩
    obtain ⟨db', hinsert⟩ := Option.isSome_iff_exists.mp hsome
    have hstore : (tick (SessionCall.step pf) p t).store = db' := by
      rw [tick_store]
      cases hc : p.request t.1 with
      | refresh c =>
        rw [hc] at hinserting
        obtain ⟨user, hstage⟩ := RefreshStage.inserting_eq_some.mp hinserting
        simp [SessionCall.step, RefreshCall.step, hstage, hinsert]
      | _ =>
        rw [hc] at hinserting
        cases hinserting
    have hstays : ((tick (SessionCall.step pf) p t).request i).revoked =
        some (stored.appId, stored.userId) := by
      by_cases hi : i = t.1
      · subst hi
        rw [tick_request_self]
        exact SessionCall.step_revoked_stays t.2 p.store hrevoked
      · rw [tick_request_of_ne p t hi]
        exact hrevoked
    -- the token just inserted is live
    have hnone := hafter i _ hstays
    rw [hstore] at hnone
    exact hnone _ ((mem_insertRefreshToken hinsert).mpr (.inr rfl)) rfl rfl rfl
  · intro hnot i key
    rcases @SessionCall.step_tokens pf t.2 p.store (p.request t.1) with
      ⟨stored, hinserting, hinsert⟩ | hold
    · -- an insertion: it is for a user whose tokens nobody has revoked
      have hother : ∀ j, (p.request j).revoked ≠ some (stored.appId, stored.userId) := by
        intro j hj
        apply hnot
        exact ⟨stored, hinserting, by rw [hinsert]; rfl, j, hj⟩
      intro hkey
      have hbefore : ∃ j, (p.request j).revoked = some key := by
        by_cases hi : i = t.1
        · subst hi
          rw [tick_request_self] at hkey
          cases hc : p.request t.1 with
          | refresh c =>
            rw [hc] at hkey
            cases hkey
          | _ =>
            rw [hc] at hinserting
            cases hinserting
        · rw [tick_request_of_ne p t hi] at hkey
          exact ⟨i, hkey⟩
      obtain ⟨j, hj⟩ := hbefore
      intro u hu happ huser
      rw [tick_store, mem_insertRefreshToken hinsert] at hu
      rcases hu with hu | rfl
      · exact h j key hj u hu happ huser
      · exfalso
        apply hother j
        rw [hj]
        exact congrArg some (Prod.ext happ.symm huser.symm)
    · by_cases hi : i = t.1
      · subst hi
        rw [tick_request_self]
        intro hkey
        rcases SessionCall.step_revoked_by t.2 p.store hkey with hbefore | hnow
        · exact (h t.1 key hbefore).of_old hold
        · exact hnow
      · rw [tick_request_of_ne p t hi]
        intro hkey
        exact (h i key hkey).of_old hold

/-- **Revocation.**  Over every interleaving of refreshes with requests that
    revoke all tokens of their user, no such token is live after the revoking
    `UPDATE` exactly when no rotation inserts a token for the user after it; and
    then none is live from the moment such a request has returned success. -/
theorem revocation_final_iff (pf : Platform) (p : Pool ι Db SessionCall)
    (hstart : ∀ i, (p.request i).revoked = none) (ticks : List (ι × Env)) :
    (Always (SessionCall.step pf) RevokedStaysRevoked p ticks ↔
      Admissible (SessionCall.step pf) (fun q t => ¬ InsertsAfterRevocation pf q t) p ticks) ∧
    (Admissible (SessionCall.step pf) (fun q t => ¬ InsertsAfterRevocation pf q t) p ticks →
      Always (SessionCall.step pf) RevocationFinal p ticks) := by
  have hgood : RevokedStaysRevoked p := by
    intro i key hkey
    rw [hstart i] at hkey
    cases hkey
  have hstep : ∀ (q : Pool ι Db SessionCall) (t : ι × Env), RevokedStaysRevoked q →
      (RevokedStaysRevoked (tick (SessionCall.step pf) q t) ↔ ¬ InsertsAfterRevocation pf q t) :=
    fun q t hq => revokedStaysRevoked_tick hq t
  have hiff : Always (SessionCall.step pf) RevokedStaysRevoked p ticks ↔
      Admissible (SessionCall.step pf) (fun q t => ¬ InsertsAfterRevocation pf q t) p ticks := by
    rw [always_iff hstep p ticks]
    simp only [hgood, true_and]
  refine ⟨hiff, ?_⟩
  intro hadm pre post hsplit i key hreturned
  exact hiff.mpr hadm pre post hsplit i key (SessionCall.revoked_of_returned hreturned)

end Pools

/-! ### A refresh around a revocation -/

/-- Dana refreshes on one device and signs out everywhere on another. -/
def danaSignsOut : Pool Bool Db SessionCall :=
  { store := danaSignedIn
    request := fun signOut =>
      if signOut then .revokeAll ⟨{ sub := "dana", appId := "default", exp := 0, isAdmin := false },
        .received⟩
      else .refresh ⟨.refreshSessionForApp "default" "at0", .received⟩ }

/-- The refresh reads its token and the user, the revocation runs from beginning
    to end, and the refresh goes on. -/
def danaSurvives : List (Bool × Env) :=
  [(false, sampleEnv "b"), (false, sampleEnv "b"), (true, sampleEnv "c"), (true, sampleEnv "c"),
    (false, sampleEnv "b"), (false, sampleEnv "b"), (false, sampleEnv "b")]

/-- The revocation has returned success, and the successor of the token that was
    issued before it is active. -/
theorem revoked_session_survives :
    ((run (SessionCall.step asciiPlatform) danaSignsOut danaSurvives).request true).returned =
        some ("default", "dana") ∧
      ∃ t ∈ (run (SessionCall.step asciiPlatform) danaSignsOut
        danaSurvives).store.refreshTokens.rows,
      ∃ u ∈ (run (SessionCall.step asciiPlatform) danaSignsOut
        danaSurvives).store.refreshTokens.rows,
        t.token = hashOpaqueToken asciiPlatform "at0" ∧ t.replacedByToken = some u.token ∧
          u.appId = "default" ∧ u.userId = "dana" ∧ u.activeAt "2026-01-01 00:00:00" = true := by
  refine ⟨rfl, ?_⟩
  decide +kernel

/-- The refresh is through before the revocation starts. -/
def danaOrderly : List (Bool × Env) :=
  List.replicate 5 (false, sampleEnv "b") ++ List.replicate 2 (true, sampleEnv "c")

instance (db : Db) (key : String × String) : Decidable (NoneLive db key) :=
  inferInstanceAs (Decidable (∀ t ∈ db.refreshTokens.rows, t.appId = key.1 → t.userId = key.2 →
    t.revokedAt ≠ none))

instance (pf : Platform) (p : Pool Bool Db SessionCall) (t : Bool × Env) :
    Decidable (InsertsAfterRevocation pf p t) :=
  inferInstanceAs (Decidable (∃ stored ∈ (p.request t.1).inserting,
    (p.store.insertRefreshToken (newRefreshToken pf t.2 stored.appId stored.userId (t.2.token 0)
      stored.sessionId)).isSome = true ∧
    ∃ i, (p.request i).revoked = some (stored.appId, stored.userId)))

theorem orderly_revocation_final :
    Always (SessionCall.step asciiPlatform) RevocationFinal danaSignsOut danaOrderly := by
  have hstart : ∀ i, (danaSignsOut.request i).revoked = none := by
    intro i
    cases i <;> rfl
  apply (revocation_final_iff asciiPlatform danaSignsOut hstart danaOrderly).2
  decide +kernel

end Peanut
