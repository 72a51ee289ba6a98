import Peanut.Auth.SessionIds
import Peanut.Library.Interleaving

/-!
# Refreshing at the level of SQL statements

A refresh reads the token, reads the user, inserts the next token, revokes the
old one and logs an event, each in a statement of its own and without a
transaction.  `RefreshCall.step` is one statement; a request that is alone runs
through `refreshSessionForApp` or `adminRefreshSession`, and any number of
requests interleave in a `Pool`.

The second half says when a token is redeemed once and a session has one live
token, whatever the interleaving.
-/

namespace Peanut

open Relational Interleaving

/-! ### The requests -/

inductive RefreshRequest where
  | refreshSessionForApp (appId rawToken : String)
  | adminRefreshSession (rawToken : String)
deriving DecidableEq

namespace RefreshRequest

def appId : RefreshRequest → String
  | .refreshSessionForApp appId _ => appId
  | .adminRefreshSession _ => DEFAULT_APP_ID

def rawToken : RefreshRequest → String
  | .refreshSessionForApp _ rawToken => rawToken
  | .adminRefreshSession rawToken => rawToken

def action : RefreshRequest → String
  | .refreshSessionForApp _ _ => "session_refreshed"
  | .adminRefreshSession _ => "admin_console_session_refreshed"

/-- Why the user may not refresh. -/
def refusal : RefreshRequest → User → Option ApiError
  | .refreshSessionForApp _ _, user => inactiveRefusal user
  | .adminRefreshSession _, user =>
      (inactiveRefusal user).or
        (if user.isAdmin then none else some (jsonError .forbidden "admin access required"))

/-- The request without interference. -/
def handle (pf : Platform) (db : Db) (env : Env) :
    RefreshRequest → Db × Except ApiError (Reply LoginResponse)
  | .refreshSessionForApp appId rawToken => Peanut.refreshSessionForApp pf db env appId rawToken
  | .adminRefreshSession rawToken => Peanut.adminRefreshSession pf db env rawToken

theorem handle_eq (pf : Platform) (db : Db) (env : Env) (r : RefreshRequest) :
    r.handle pf db env = refreshWith pf db env r.appId r.action r.rawToken r.refusal := by
  cases r <;> rfl

end RefreshRequest

/-- Where a refresh stands, with what it has read so far. -/
inductive RefreshStage where
  | received
  | loaded (stored : RefreshToken)
  | refused (stored : RefreshToken) (error : ApiError)
  | admitted (stored : RefreshToken) (user : User)
  | inserted (stored : RefreshToken) (user : User) (nextToken : String)
  | rotated (stored : RefreshToken) (user : User) (nextToken : String)
  | answered (reply : Except ApiError (Reply LoginResponse))

structure RefreshCall where
  request : RefreshRequest
  stage : RefreshStage

theorem RefreshToken.token_replaced (now nextHash : String) (t : RefreshToken) :
    ({ t with revokedAt := some now, replacedByToken := some nextHash } : RefreshToken).token =
      t.token := rfl

/-- `UPDATE refresh_tokens SET revoked_at = …, replaced_by_token = ? WHERE token = ?`. -/
def replaceRefreshToken (db : Db) (env : Env) (token nextHash : String) : Db :=
  { db with
    refreshTokens := db.refreshTokens.updateWhere (fun t => t.token == token)
      (fun t => { t with revokedAt := some env.now, replacedByToken := some nextHash })
      (RefreshToken.token_replaced env.now nextHash) }

/-- The answer to a refresh that rotated the token. -/
def refreshReply (pf : Platform) (env : Env) (appId newToken : String) (user : User) :
    Reply LoginResponse :=
  { status := .ok
    body := { accessToken := pf.createJwt
                { sub := user.id, appId := appId, exp := env.accessExpiresAt,
                  isAdmin := user.isAdmin }
              refreshToken := newToken, tokenType := "Bearer"
              expiresAt := env.accessExpiresAt, user := user.summary } }

namespace RefreshCall

def fail (c : RefreshCall) (status : StatusCode) (message : String) : RefreshCall :=
  { c with stage := .answered (.error (jsonError status message)) }

/-- One statement of a refresh, with what the code does until the next one. -/
def step (pf : Platform) (env : Env) (db : Db) (c : RefreshCall) : Db × RefreshCall :=
  match c.stage with
  | .received =>
      match loadActiveRefreshToken pf db env.now c.request.appId c.request.rawToken with
      | none => (db, c.fail .unauthorized "valid refresh token is required")
      | some stored => (db, { c with stage := .loaded stored })
  | .loaded stored =>
      match loadUserById db c.request.appId stored.userId with
      | none => (db, c.fail .unauthorized "user not found")
      | some user =>
          match c.request.refusal user with
          | some e => (db, { c with stage := .refused stored e })
          | none => (db, { c with stage := .admitted stored user })
  | .refused stored e =>
      (revokeRefreshTokenHash db env stored.token, { c with stage := .answered (.error e) })
  | .admitted stored user =>
      match db.insertRefreshToken
          (newRefreshToken pf env stored.appId stored.userId (env.token 0) stored.sessionId) with
      | none => (db, c.fail .internalServerError "failed to rotate refresh token")
      | some db => (db, { c with stage := .inserted stored user (env.token 0) })
  | .inserted stored user nextToken =>
      (replaceRefreshToken db env stored.token (hashOpaqueToken pf nextToken),
        { c with stage := .rotated stored user nextToken })
  | .rotated stored user nextToken =>
      (recordAuthEvent db env (env.uuid 0) c.request.appId user.id (some user.id) c.request.action
          (some (sessionMetadata stored.sessionId)),
        { c with stage := .answered (.ok (refreshReply pf env c.request.appId nextToken user)) })
  | .answered _ => (db, c)

end RefreshCall

theorem refresh_alone (pf : Platform) (db : Db) (env : Env) (r : RefreshRequest) :
    alone (RefreshCall.step pf) env 5 db ⟨r, .received⟩ =
      ((r.handle pf db env).1, ⟨r, .answered (r.handle pf db env).2⟩) := by
  rw [RefreshRequest.handle_eq, refreshWith, refreshChecks]
  cases hload : loadActiveRefreshToken pf db env.now r.appId r.rawToken with
  | none => simp [alone, RefreshCall.step, RefreshCall.fail, hload]
  | some stored =>
    cases huser : loadUserById db r.appId stored.userId with
    | none => simp [alone, RefreshCall.step, RefreshCall.fail, hload, huser]
    | some user =>
      cases hrefusal : r.refusal user with
      | some e => simp [alone, RefreshCall.step, hload, huser, hrefusal]
      | none =>
        cases hinsert : db.insertRefreshToken
            (newRefreshToken pf env stored.appId stored.userId (env.token 0) stored.sessionId) with
        | none =>
          simp [alone, RefreshCall.step, RefreshCall.fail, hload, huser, hrefusal, hinsert,
            rotateRefreshToken]
        | some db' =>
          simp [alone, RefreshCall.step, hload, huser, hrefusal, hinsert, rotateRefreshToken,
            replaceRefreshToken, refreshReply]

/-! ### What a statement does -/

/-- The statements of a refresh, each with the state it leaves. -/
inductive RefreshCall.Moves (pf : Platform) (env : Env) (db : Db) (r : RefreshRequest) :
    RefreshStage → Db → RefreshStage → Prop
  | unknownToken {e} : Moves pf env db r .received db (.answered (.error e))
  | load {stored} (h : loadActiveRefreshToken pf db env.now r.appId r.rawToken = some stored) :
      Moves pf env db r .received db (.loaded stored)
  | unknownUser {stored e} : Moves pf env db r (.loaded stored) db (.answered (.error e))
  | refuse {stored e} : Moves pf env db r (.loaded stored) db (.refused stored e)
  | accept {stored user} : Moves pf env db r (.loaded stored) db (.admitted stored user)
  | revoke {stored e} :
      Moves pf env db r (.refused stored e) (revokeRefreshTokenHash db env stored.token)
        (.answered (.error e))
  | insertFails {stored user e} :
      Moves pf env db r (.admitted stored user) db (.answered (.error e))
  | insert {stored user db'}
      (h : db.insertRefreshToken
        (newRefreshToken pf env stored.appId stored.userId (env.token 0) stored.sessionId) =
          some db') :
      Moves pf env db r (.admitted stored user) db' (.inserted stored user (env.token 0))
  | replace {stored user nextToken} :
      Moves pf env db r (.inserted stored user nextToken)
        (replaceRefreshToken db env stored.token (hashOpaqueToken pf nextToken))
        (.rotated stored user nextToken)
  | log {stored user nextToken reply} :
      Moves pf env db r (.rotated stored user nextToken)
        (recordAuthEvent db env (env.uuid 0) r.appId user.id (some user.id) r.action
          (some (sessionMetadata stored.sessionId)))
        (.answered (.ok reply))
  | done {reply} : Moves pf env db r (.answered reply) db (.answered reply)

theorem RefreshCall.step_request (pf : Platform) (env : Env) (db : Db) (c : RefreshCall) :
    (c.step pf env db).2.request = c.request := by
  unfold RefreshCall.step RefreshCall.fail
  split <;> try rfl
  · split <;> rfl
  · split
    · rfl
    · split <;> rfl
  · split <;> rfl

theorem RefreshCall.step_moves (pf : Platform) (env : Env) (db : Db) (c : RefreshCall) :
    Moves pf env db c.request c.stage (c.step pf env db).1 (c.step pf env db).2.stage := by
  obtain ⟨r, stage⟩ := c
  cases stage with
  | received =>
    cases hload : loadActiveRefreshToken pf db env.now r.appId r.rawToken with
    | none => simpa [step, fail, hload] using .unknownToken
    | some stored => simpa [step, hload] using .load hload
  | loaded stored =>
    cases huser : loadUserById db r.appId stored.userId with
    | none => simpa [step, fail, huser] using .unknownUser
    | some user =>
      cases hrefusal : r.refusal user with
      | some e => simpa [step, huser, hrefusal] using .refuse
      | none => simpa [step, huser, hrefusal] using .accept
  | refused stored e => exact .revoke
  | admitted stored user =>
    cases hinsert : db.insertRefreshToken
        (newRefreshToken pf env stored.appId stored.userId (env.token 0) stored.sessionId) with
    | none => simpa [step, fail, hinsert] using .insertFails
    | some db' => simpa [step, hinsert] using .insert hinsert
  | inserted stored user nextToken => exact .replace
  | rotated stored user nextToken => exact .log
  | answered reply => exact .done

/-! ### What happens to a stored token -/

/-- The same token later: perhaps revoked or replaced since, never restored. -/
structure RefreshToken.Ages (t t' : RefreshToken) : Prop where
  token : t'.token = t.token
  appId : t'.appId = t.appId
  userId : t'.userId = t.userId
  sessionId : t'.sessionId = t.sessionId
  revoked : t.revokedAt ≠ none → t'.revokedAt ≠ none
  replaced : t.replacedByToken ≠ none → t'.replacedByToken ≠ none

theorem RefreshToken.Ages.refl (t : RefreshToken) : t.Ages t := ⟨rfl, rfl, rfl, rfl, id, id⟩

theorem RefreshToken.Ages.trans {t u v : RefreshToken} (h : t.Ages u) (h' : u.Ages v) : t.Ages v :=
  ⟨h'.token.trans h.token, h'.appId.trans h.appId, h'.userId.trans h.userId,
    h'.sessionId.trans h.sessionId, fun hr => h'.revoked (h.revoked hr),
    fun hr => h'.replaced (h.replaced hr)⟩

/-- No token is lost. -/
def TokensKept (db db' : Db) : Prop :=
  ∀ t ∈ db.refreshTokens, ∃ t' ∈ db'.refreshTokens, t.Ages t'

variable {db db' : Db}

theorem TokensKept.of_eq (h : db'.refreshTokens = db.refreshTokens) :
    TokensKept db db' := by
  intro t ht
  exact ⟨t, h ▸ ht, .refl t⟩

/-- No token is new. -/
def TokensOld (db db' : Db) : Prop :=
  ∀ t' ∈ db'.refreshTokens, ∃ t ∈ db.refreshTokens, t.Ages t'

theorem TokensOld.of_eq (h : db'.refreshTokens = db.refreshTokens) :
    TokensOld db db' := by
  intro t ht
  exact ⟨t, h ▸ ht, .refl t⟩

variable {env : Env}

theorem mem_revokeTokens {p : RefreshToken → Bool} {t' : RefreshToken} :
    t' ∈ (revokeTokens db env p).refreshTokens ↔
      ∃ t ∈ db.refreshTokens, t' = if p t then { t with revokedAt := some env.now } else t := by
  rw [revokeTokens, KeyedTable.mem_updateWhere]

theorem RefreshToken.ages_revoked (p : RefreshToken → Bool) (now : String) (t : RefreshToken) :
    t.Ages (if p t then { t with revokedAt := some now } else t) := by
  split
  · exact ⟨rfl, rfl, rfl, rfl, fun _ => Option.some_ne_none _, id⟩
  · exact .refl t

theorem revokeTokens_kept (db : Db) (env : Env) (p : RefreshToken → Bool) :
    TokensKept db (revokeTokens db env p) := by
  intro t ht
  exact ⟨_, mem_revokeTokens.mpr ⟨t, ht, rfl⟩, t.ages_revoked p env.now⟩

theorem revokeTokens_old (db : Db) (env : Env) (p : RefreshToken → Bool) :
    TokensOld db (revokeTokens db env p) := by
  intro t' ht'
  obtain ⟨t, ht, rfl⟩ := mem_revokeTokens.mp ht'
  exact ⟨t, ht, t.ages_revoked p env.now⟩

theorem mem_replaceRefreshToken {token nextHash : String} {t' : RefreshToken} :
    t' ∈ (replaceRefreshToken db env token nextHash).refreshTokens ↔
      ∃ t ∈ db.refreshTokens, t' = if t.token == token then
        { t with revokedAt := some env.now, replacedByToken := some nextHash } else t :=
  KeyedTable.mem_updateWhere (RefreshToken.token_replaced env.now nextHash)

theorem RefreshToken.ages_replaced (token now nextHash : String) (t : RefreshToken) :
    t.Ages (if t.token == token then
      { t with revokedAt := some now, replacedByToken := some nextHash } else t) := by
  split
  · exact ⟨rfl, rfl, rfl, rfl, fun _ => Option.some_ne_none _, fun _ => Option.some_ne_none _⟩
  · exact .refl t

theorem replaceRefreshToken_kept (db : Db) (env : Env) (token nextHash : String) :
    TokensKept db (replaceRefreshToken db env token nextHash) := by
  intro t ht
  exact ⟨_, mem_replaceRefreshToken.mpr ⟨t, ht, rfl⟩, t.ages_replaced token env.now nextHash⟩

theorem replaceRefreshToken_old (db : Db) (env : Env) (token nextHash : String) :
    TokensOld db (replaceRefreshToken db env token nextHash) := by
  intro t' ht'
  obtain ⟨t, ht, rfl⟩ := mem_replaceRefreshToken.mp ht'
  exact ⟨t, ht, t.ages_replaced token env.now nextHash⟩

theorem mem_insertRefreshToken {t s : RefreshToken} (h : db.insertRefreshToken t = some db') :
    s ∈ db'.refreshTokens ↔ s ∈ db.refreshTokens ∨ s = t := by
  obtain ⟨tokens, hins, rfl⟩ := Db.insertRefreshToken_eq_some h
  exact KeyedTable.mem_insert? hins

theorem insertRefreshToken_kept {t : RefreshToken}
    (h : db.insertRefreshToken t = some db') : TokensKept db db' := by
  intro s hs
  exact ⟨s, (mem_insertRefreshToken h).mpr (.inl hs), .refl s⟩

theorem RefreshCall.Moves.tokensKept {pf : Platform}
    {r : RefreshRequest} {stage stage' : RefreshStage}
    (h : Moves pf env db r stage db' stage') : TokensKept db db' := by
  cases h with
  | revoke => exact revokeTokens_kept db env _
  | insert hinsert => exact insertRefreshToken_kept hinsert
  | replace => exact replaceRefreshToken_kept db env _ _
  | log => exact .of_eq (recordAuthEvent_refreshTokens ..)
  | _ => exact .of_eq rfl

/-- The token with this hash has been replaced by a newer one. -/
def TokenReplaced (db : Db) (token : String) : Prop :=
  ∃ t ∈ db.refreshTokens, t.token = token ∧ t.replacedByToken ≠ none

theorem TokensKept.replaced (h : TokensKept db db') {token : String}
    (hreplaced : TokenReplaced db token) : TokenReplaced db' token := by
  obtain ⟨t, ht, rfl, hmark⟩ := hreplaced
  obtain ⟨t', ht', hages⟩ := h t ht
  exact ⟨t', ht', hages.token, hages.replaced hmark⟩

/-- Only the `UPDATE` of a rotation replaces a token. -/
theorem RefreshCall.Moves.replaced_only {pf : Platform}
    {r : RefreshRequest} {stage stage' : RefreshStage}
    (h : Moves pf env db r stage db' stage') {token : String}
    (hreplaced : TokenReplaced db' token) :
    TokenReplaced db token ∨
      ∃ stored user nextToken, stage = .inserted stored user nextToken ∧ stored.token = token := by
  obtain ⟨t', ht', rfl, hmark⟩ := hreplaced
  cases h with
  | revoke =>
    obtain ⟨t, ht, rfl⟩ := mem_revokeTokens.mp ht'
    split at hmark <;> rename_i hmatch
    · exact .inl ⟨t, ht, by simp [hmatch], hmark⟩
    · exact .inl ⟨t, ht, by simp [hmatch], hmark⟩
  | insert hinsert =>
    rcases (mem_insertRefreshToken hinsert).mp ht' with ht | rfl
    · exact .inl ⟨t', ht, rfl, hmark⟩
    · exact absurd rfl hmark
  | @replace stored user nextToken =>
    obtain ⟨t, ht, rfl⟩ := mem_replaceRefreshToken.mp ht'
    by_cases hmatch : (t.token == stored.token) = true
    · refine .inr ⟨stored, user, nextToken, rfl, ?_⟩
      simpa [hmatch] using (beq_iff_eq.mp hmatch).symm
    · simp only [hmatch] at hmark ⊢
      exact .inl ⟨t, ht, rfl, hmark⟩
  | log =>
    rw [recordAuthEvent_refreshTokens] at ht'
    exact .inl ⟨t', ht', rfl, hmark⟩
  | _ => exact .inl ⟨t', ht', rfl, hmark⟩

/-! ### Redeeming a token -/

/-- The `UPDATE` of the rotation has run: the answer is a new token, or will be. -/
def RefreshStage.redeemed : RefreshStage → Bool
  | .rotated _ _ _ => true
  | .answered (.ok _) => true
  | _ => false

/-- The token that has been read and is neither replaced nor given up yet. -/
def RefreshStage.held : RefreshStage → Option RefreshToken
  | .loaded stored => some stored
  | .refused stored _ => some stored
  | .admitted stored _ => some stored
  | .inserted stored _ _ => some stored
  | _ => none

/-- The token whose successor the next statement inserts. -/
def RefreshStage.inserting : RefreshStage → Option RefreshToken
  | .admitted stored _ => some stored
  | _ => none

/-- The token that the next statement replaces. -/
def RefreshStage.replacing : RefreshStage → Option RefreshToken
  | .inserted stored _ _ => some stored
  | _ => none

theorem RefreshStage.inserting_eq_some {stage : RefreshStage} {stored : RefreshToken} :
    stage.inserting = some stored ↔ ∃ user, stage = .admitted stored user := by
  cases stage <;> simp [inserting]

theorem RefreshStage.replacing_eq_some {stage : RefreshStage} {stored : RefreshToken} :
    stage.replacing = some stored ↔ ∃ user nextToken, stage = .inserted stored user nextToken := by
  cases stage <;> simp [replacing]

namespace RefreshCall

/-- The hash of the presented token. -/
def presented (pf : Platform) (c : RefreshCall) : String := hashOpaqueToken pf c.request.rawToken

/-- The request redeems the token with this hash. -/
def Redeems (pf : Platform) (c : RefreshCall) (token : String) : Prop :=
  c.stage.redeemed = true ∧ c.presented pf = token

theorem step_presented (pf : Platform) (env : Env) (db : Db) (c : RefreshCall) :
    (c.step pf env db).2.presented pf = c.presented pf := by
  rw [presented, step_request, presented]

variable {pf : Platform} {env : Env} {db db' : Db} {r : RefreshRequest}
  {stage stage' : RefreshStage}

theorem Moves.redeemed_stays (h : Moves pf env db r stage db' stage')
    (hredeemed : stage.redeemed = true) : stage'.redeemed = true := by
  cases h with
  | log => rfl
  | done => exact hredeemed
  | replace => rfl
  | _ => cases hredeemed

/-- Redeeming is the `UPDATE`. -/
theorem Moves.redeemed_by (h : Moves pf env db r stage db' stage')
    (hredeemed : stage'.redeemed = true) :
    stage.redeemed = true ∨ ∃ stored user nextToken, stage = .inserted stored user nextToken := by
  cases h with
  | @replace stored user nextToken => exact .inr ⟨stored, user, nextToken, rfl⟩
  | log => exact .inl rfl
  | done => exact .inl hredeemed
  | _ => cases hredeemed

theorem Moves.held_by (h : Moves pf env db r stage db' stage') {stored : RefreshToken}
    (hheld : stage'.held = some stored) :
    stage.held = some stored ∨
      db' = db ∧ loadActiveRefreshToken pf db env.now r.appId r.rawToken = some stored := by
  cases h with
  | load hload =>
    cases hheld
    exact .inr ⟨rfl, hload⟩
  | refuse => exact .inl hheld
  | accept => exact .inl hheld
  | insert _ => exact .inl hheld
  | _ => cases hheld

/-- What a request knows about the store: the token it holds is the presented one
    and still there, and the token it redeemed has been replaced. -/
structure Coherent (pf : Platform) (db : Db) (c : RefreshCall) : Prop where
  held : ∀ stored, c.stage.held = some stored →
    stored.token = c.presented pf ∧ ∃ t ∈ db.refreshTokens, stored.Ages t
  redeemed : c.stage.redeemed = true → TokenReplaced db (c.presented pf)

theorem Coherent.received {c : RefreshCall} (h : c.stage = .received) : c.Coherent pf db := by
  refine ⟨?_, ?_⟩
  · intro stored hheld
    rw [h] at hheld
    cases hheld
  · intro hredeemed
    rw [h] at hredeemed
    cases hredeemed

theorem Coherent.kept {c : RefreshCall} (h : c.Coherent pf db) (hkept : TokensKept db db') :
    c.Coherent pf db' := by
  refine ⟨?_, fun hredeemed => hkept.replaced (h.redeemed hredeemed)⟩
  intro stored hheld
  obtain ⟨htoken, t, ht, hages⟩ := h.held stored hheld
  obtain ⟨t', ht', hages'⟩ := hkept t ht
  exact ⟨htoken, t', ht', hages.trans hages'⟩

theorem Coherent.step {c : RefreshCall} (h : c.Coherent pf db) (env : Env) :
    (c.step pf env db).2.Coherent pf (c.step pf env db).1 := by
  have hmoves := step_moves pf env db c
  have hkept := hmoves.tokensKept
  refine ⟨?_, ?_⟩
  · intro stored hheld
    rw [step_presented]
    rcases hmoves.held_by hheld with hbefore | ⟨hsame, hload⟩
    · exact (h.kept hkept).held stored hbefore
    · obtain ⟨hmem, htoken, -⟩ := loadActiveRefreshToken_mem hload
      rw [hsame]
      exact ⟨htoken, stored, hmem, .refl stored⟩
  · intro hredeemed
    rw [step_presented]
    rcases hmoves.redeemed_by hredeemed with hbefore | ⟨stored, user, nextToken, hstage⟩
    · exact hkept.replaced (h.redeemed hbefore)
    · -- the row of the token is there, so the update finds it
      obtain ⟨htoken, t, ht, hages⟩ := h.held stored (by rw [hstage]; rfl)
      have hstore : (c.step pf env db).1 =
          replaceRefreshToken db env stored.token (hashOpaqueToken pf nextToken) := by
        rw [RefreshCall.step, hstage]
      rw [hstore, ← htoken]
      have hmatch : (t.token == stored.token) = true := beq_iff_eq.mpr hages.token
      refine ⟨_, mem_replaceRefreshToken.mpr ⟨t, ht, rfl⟩, ?_, ?_⟩
      · simpa [hmatch] using hages.token
      · simp [hmatch]

end RefreshCall

/-! ### Every interleaving -/

section Pools

variable {ι : Type} [DecidableEq ι] {pf : Platform}

/-- A token that has been replaced is revoked. -/
def ReplacedRevoked (db : Db) : Prop :=
  ∀ t ∈ db.refreshTokens, t.replacedByToken ≠ none → t.revokedAt ≠ none

theorem RefreshCall.Moves.replacedRevoked {env : Env} {db db' : Db} {r : RefreshRequest}
    {stage stage' : RefreshStage} (h : Moves pf env db r stage db' stage')
    (hdb : ReplacedRevoked db) : ReplacedRevoked db' := by
  intro t' ht' hmark
  cases h with
  | revoke =>
    obtain ⟨t, ht, rfl⟩ := mem_revokeTokens.mp ht'
    split at hmark <;> rename_i hmatch
    · simp [hmatch]
    · simpa [hmatch] using hdb t ht hmark
  | insert hinsert =>
    rcases (mem_insertRefreshToken hinsert).mp ht' with ht | rfl
    · exact hdb t' ht hmark
    · exact absurd rfl hmark
  | @replace stored user nextToken =>
    obtain ⟨t, ht, rfl⟩ := mem_replaceRefreshToken.mp ht'
    by_cases hmatch : (t.token == stored.token) = true
    · simp [hmatch]
    · simp only [hmatch] at hmark ⊢
      exact hdb t ht hmark
  | log =>
    rw [recordAuthEvent_refreshTokens] at ht'
    exact hdb t' ht' hmark
  | _ => exact hdb t' ht' hmark

/-- What holds of every interleaving of refreshes: each request is coherent, and
    a token that was replaced while somebody held it was redeemed by a request
    of the pool. -/
structure RotationInv (pf : Platform) (p : Pool ι Db RefreshCall) : Prop where
  coherent : ∀ i, (p.request i).Coherent pf p.store
  revoked : ReplacedRevoked p.store
  traced : ∀ i stored, (p.request i).stage.held = some stored →
    TokenReplaced p.store stored.token → ∃ j, (p.request j).Redeems pf stored.token

variable {p : Pool ι Db RefreshCall}

theorem redeems_tick {i : ι} {token : String} (h : (p.request i).Redeems pf token) (t : ι × Env) :
    ((tick (RefreshCall.step pf) p t).request i).Redeems pf token := by
  by_cases hi : i = t.1
  · subst hi
    rw [tick_request_self]
    refine ⟨?_, ?_⟩
    · exact (RefreshCall.step_moves pf t.2 p.store (p.request t.1)).redeemed_stays h.1
    · rw [RefreshCall.step_presented]
      exact h.2
  · rw [tick_request_of_ne p t hi]
    exact h

theorem RotationInv.tick (h : RotationInv pf p) (t : ι × Env) :
    RotationInv pf (tick (RefreshCall.step pf) p t) := by
  have hmoves := RefreshCall.step_moves pf t.2 p.store (p.request t.1)
  refine ⟨?_, ?_, ?_⟩
  · apply assertions_tick _ _ h.coherent
    · intro hown
      exact hown.step t.2
    · intro c hc
      exact hc.kept hmoves.tokensKept
  · exact hmoves.replacedRevoked h.revoked
  · intro i stored hheld hreplaced
    rw [tick_store] at hreplaced
    rcases hmoves.replaced_only hreplaced with hbefore | ⟨other, user, nextToken, hstage, htoken⟩
    · -- replaced earlier: whoever redeemed it then still does
      have hheldBefore : (p.request i).stage.held = some stored := by
        by_cases hi : i = t.1
        · subst hi
          rw [tick_request_self] at hheld
          rcases hmoves.held_by hheld with hsame | ⟨-, hload⟩
          · exact hsame
          · -- a token that was read just now is not revoked, hence not replaced
            obtain ⟨hmem, -, -, hactive⟩ := loadActiveRefreshToken_mem hload
            obtain ⟨u, hu, htoken, hmark⟩ := hbefore
            have hsame : u = stored := p.store.refreshTokens.eq_of_key_eq hu hmem htoken
            subst hsame
            have hrevoked := h.revoked u hu hmark
            simp [RefreshToken.activeAt] at hactive
            exact absurd hactive.1 hrevoked
        · rwa [tick_request_of_ne p t hi] at hheld
      obtain ⟨j, hj⟩ := h.traced i stored hheldBefore hbefore
      exact ⟨j, redeems_tick hj t⟩
    · -- replaced by this very statement
      refine ⟨t.1, ?_⟩
      rw [tick_request_self, ← htoken]
      obtain ⟨hown, -⟩ := (h.coherent t.1).held other (by rw [hstage]; rfl)
      refine ⟨?_, by rw [RefreshCall.step_presented, hown]⟩
      rw [RefreshCall.step, hstage]
      rfl

/-- No two requests redeem the same token. -/
def RedeemedOnce (pf : Platform) (p : Pool ι Db RefreshCall) : Prop :=
  ∀ i j, (p.request i).stage.redeemed = true → (p.request j).stage.redeemed = true →
    (p.request i).presented pf = (p.request j).presented pf → i = j

/-- The tick is the `UPDATE` of a rotation, and its token has been replaced before. -/
def ReplacesTwice (p : Pool ι Db RefreshCall) (t : ι × Env) : Prop :=
  ∃ stored ∈ (p.request t.1).stage.replacing, TokenReplaced p.store stored.token

theorem redeemedOnce_tick (hinv : RotationInv pf p) (h : RedeemedOnce pf p) (t : ι × Env) :
    RedeemedOnce pf (tick (RefreshCall.step pf) p t) ↔ ¬ ReplacesTwice p t := by
  have hmoves := RefreshCall.step_moves pf t.2 p.store (p.request t.1)
  constructor
  · rintro honce ⟨stored, hreplacing, hreplaced⟩
    obtain ⟨user, nextToken, hstage⟩ := RefreshStage.replacing_eq_some.mp hreplacing
    have hheld : (p.request t.1).stage.held = some stored := by rw [hstage]; rfl
    obtain ⟨j, hj⟩ := hinv.traced t.1 stored hheld hreplaced
    have hself : ((tick (RefreshCall.step pf) p t).request t.1).Redeems pf stored.token := by
      rw [tick_request_self]
      refine ⟨by rw [RefreshCall.step, hstage]; rfl, ?_⟩
      rw [RefreshCall.step_presented]
      exact ((hinv.coherent t.1).held stored hheld).1.symm
    have hother := redeems_tick hj t
    have heq := honce j t.1 hother.1 hself.1 (hother.2.trans hself.2.symm)
    subst heq
    -- but the request had not redeemed anything before its update
    rw [RefreshCall.Redeems, hstage] at hj
    exact absurd hj.1 (by simp [RefreshStage.redeemed])
  · intro hfirst
    have hsingle : SingleUse TokenReplaced (fun c token => c.Redeems pf token)
        (fun _ _ => False) p := by
      refine ⟨?_, ?_⟩
      · rintro i token ⟨hredeemed, rfl⟩
        exact .inr ((hinv.coherent i).redeemed hredeemed)
      · rintro i j token ⟨hi, rfl⟩ ⟨hj, hsame⟩
        exact h i j hi hj hsame.symm
    have htick : SingleUse TokenReplaced (fun c token => c.Redeems pf token) (fun _ _ => False)
        (tick (RefreshCall.step pf) p t) := by
      apply hsingle.tick
      · intro token
        exact hmoves.tokensKept.replaced
      · rintro token ⟨hredeemed, rfl⟩
        rw [RefreshCall.step_presented]
        rcases hmoves.redeemed_by hredeemed with hbefore | ⟨stored, user, nextToken, hstage⟩
        · exact .inl ⟨hbefore, rfl⟩
        · refine .inr ⟨?_, fun _ _ => id⟩
          intro hreplaced
          apply hfirst
          refine ⟨stored, by rw [hstage]; rfl, ?_⟩
          rwa [((hinv.coherent t.1).held stored (by rw [hstage]; rfl)).1]
      · rintro token ⟨hredeemed, rfl⟩ _
        exact .inr (((hinv.coherent t.1).step t.2).redeemed hredeemed)
    intro i j hi hj hsame
    exact htick.unique i j _ ⟨hi, rfl⟩ ⟨hj, hsame.symm⟩

/-! ### One live token per session -/

/-- No two tokens of a session are unrevoked. -/
def OneActivePerSession (db : Db) : Prop :=
  ∀ t ∈ db.refreshTokens, ∀ u ∈ db.refreshTokens, t.sessionId = u.sessionId →
    t.revokedAt = none → u.revokedAt = none → t = u

/-- The tick is the `INSERT` of a rotation, which succeeds while the session still
    has an unrevoked token. -/
def InsertsBeside (pf : Platform) (p : Pool ι Db RefreshCall) (t : ι × Env) : Prop :=
  ∃ stored ∈ (p.request t.1).stage.inserting,
    (p.store.insertRefreshToken (newRefreshToken pf t.2 stored.appId stored.userId (t.2.token 0)
      stored.sessionId)).isSome = true ∧
    ∃ u ∈ p.store.refreshTokens, u.sessionId = stored.sessionId ∧ u.revokedAt = none

theorem OneActivePerSession.of_old {db db' : Db} (h : OneActivePerSession db)
    (hold : TokensOld db db') : OneActivePerSession db' := by
  intro t' ht' u' hu' hsession htlive hulive
  obtain ⟨t, ht, hages⟩ := hold t' ht'
  obtain ⟨u, hu, hages'⟩ := hold u' hu'
  have hsame : t = u := by
    apply h t ht u hu
    · rw [← hages.sessionId, ← hages'.sessionId, hsession]
    · by_contra hrevoked
      exact hages.revoked hrevoked htlive
    · by_contra hrevoked
      exact hages'.revoked hrevoked hulive
  apply db'.refreshTokens.eq_of_key_eq ht' hu'
  show t'.token = u'.token
  rw [hages.token, hages'.token, hsame]

/-- Tokens come from the `INSERT` of a rotation only. -/
theorem RefreshCall.Moves.tokens_old {env : Env} {db db' : Db} {r : RefreshRequest}
    {stage stage' : RefreshStage} (h : Moves pf env db r stage db' stage') :
    (∃ stored, stage.inserting = some stored ∧
      db.insertRefreshToken (newRefreshToken pf env stored.appId stored.userId (env.token 0)
        stored.sessionId) = some db') ∨ TokensOld db db' := by
  cases h with
  | @insert stored user _ hinsert => exact .inl ⟨stored, rfl, hinsert⟩
  | revoke => exact .inr (revokeTokens_old db env _)
  | replace => exact .inr (replaceRefreshToken_old db env _ _)
  | log => exact .inr (.of_eq (recordAuthEvent_refreshTokens ..))
  | _ => exact .inr (.of_eq rfl)

theorem oneActivePerSession_tick (h : OneActivePerSession p.store) (t : ι × Env) :
    OneActivePerSession (tick (RefreshCall.step pf) p t).store ↔ ¬ InsertsBeside pf p t := by
  have hmoves := RefreshCall.step_moves pf t.2 p.store (p.request t.1)
  constructor
  · rintro hone ⟨stored, hinserting, hsome, u, hu, hsession, hlive⟩
    obtain ⟨user, hstage⟩ := RefreshStage.inserting_eq_some.mp hinserting
    obtain ⟨db', hinsert⟩ := Option.isSome_iff_exists.mp hsome
    have hstore : (tick (RefreshCall.step pf) p t).store = db' := by
      simp [RefreshCall.step, hstage, hinsert]
    rw [hstore] at hone
    have hnew := (mem_insertRefreshToken hinsert).mpr (.inr rfl)
    have hsame := hone u ((mem_insertRefreshToken hinsert).mpr (.inl hu)) _ hnew hsession hlive rfl
    -- the inserted row cannot have been there before
    obtain ⟨tokens, hins, -⟩ := Db.insertRefreshToken_eq_some hinsert
    have hfree := (KeyedTable.insert?_eq_some.mp hins).1
    rw [← hsame, KeyedTable.hasKey_of_mem hu] at hfree
    cases hfree
  · intro hnone
    rcases hmoves.tokens_old with ⟨stored, hinserting, hinsert⟩ | hold
    · -- the new token is the only live one of its session
      have hdead : ∀ u ∈ p.store.refreshTokens, u.sessionId = stored.sessionId →
          u.revokedAt ≠ none := by
        intro u hu hsession hlive
        apply hnone
        exact ⟨stored, hinserting, by rw [hinsert]; rfl, u, hu, hsession, hlive⟩
      intro a ha b hb hsession halive hblive
      rw [tick_store, mem_insertRefreshToken hinsert] at ha hb
      rcases ha with ha | rfl
      · rcases hb with hb | rfl
        · exact h a ha b hb hsession halive hblive
        · exact absurd halive (hdead a ha hsession)
      · rcases hb with hb | rfl
        · exact absurd hblive (hdead b hb hsession.symm)
        · rfl
    · exact h.of_old hold

/-- **Rotation.**  Over every interleaving of the statements of any number of
    refreshes, each token is redeemed at most once exactly when no `UPDATE` of a
    rotation finds its token replaced already, and each session has at most one
    unrevoked token in every state exactly when that holds at the start and no `INSERT`
    of a rotation succeeds while the session still has an unrevoked token. -/
theorem refresh_rotation_iff (pf : Platform) (p : Pool ι Db RefreshCall)
    (hstart : ∀ i, (p.request i).stage = .received) (hdb : ReplacedRevoked p.store)
    (ticks : List (ι × Env)) :
    (Always (RefreshCall.step pf) (RedeemedOnce pf) p ticks ↔
      Admissible (RefreshCall.step pf) (fun q t => ¬ ReplacesTwice q t) p ticks) ∧
    (Always (RefreshCall.step pf) (fun q => OneActivePerSession q.store) p ticks ↔
      OneActivePerSession p.store ∧
        Admissible (RefreshCall.step pf) (fun q t => ¬ InsertsBeside pf q t) p ticks) ∧
    (Always (RefreshCall.step pf)
        (fun q => RedeemedOnce pf q ∧ OneActivePerSession q.store) p ticks ↔
      OneActivePerSession p.store ∧
        Admissible (RefreshCall.step pf) (fun q t => ¬ ReplacesTwice q t ∧ ¬ InsertsBeside pf q t)
          p ticks) := by
  have hinv : RotationInv pf p := by
    refine ⟨fun i => .received (hstart i), hdb, ?_⟩
    intro i stored hheld
    rw [hstart i] at hheld
    cases hheld
  have hfirst : RedeemedOnce pf p := by
    intro i j hi
    rw [hstart i] at hi
    cases hi
  have honce : Always (RefreshCall.step pf) (RedeemedOnce pf) p ticks ↔
      Admissible (RefreshCall.step pf) (fun q t => ¬ ReplacesTwice q t) p ticks := by
    have hkeep : ∀ (q : Pool ι Db RefreshCall) (t : ι × Env), RotationInv pf q →
        RotationInv pf (tick (RefreshCall.step pf) q t) :=
      fun q t hq => hq.tick t
    rw [run_iff hkeep (fun _ t hq hgood => redeemedOnce_tick hq hgood t) hinv]
    exact and_iff_right hfirst
  have hone : Always (RefreshCall.step pf) (fun q => OneActivePerSession q.store) p ticks ↔
      OneActivePerSession p.store ∧
        Admissible (RefreshCall.step pf) (fun q t => ¬ InsertsBeside pf q t) p ticks :=
    always_iff (fun _ t hgood => oneActivePerSession_tick hgood t) p ticks
  refine ⟨honce, hone, ?_⟩
  rw [always_and, honce, hone, admissible_and, and_left_comm]

/-! ### Two refreshes with one token -/

instance (db : Db) (token : String) : Decidable (TokenReplaced db token) :=
  inferInstanceAs (Decidable (∃ t ∈ db.refreshTokens.rows, t.token = token ∧
    t.replacedByToken ≠ none))

instance (db : Db) : Decidable (ReplacedRevoked db) :=
  inferInstanceAs (Decidable (∀ t ∈ db.refreshTokens.rows, t.replacedByToken ≠ none →
    t.revokedAt ≠ none))

instance (db : Db) : Decidable (OneActivePerSession db) :=
  inferInstanceAs (Decidable (∀ t ∈ db.refreshTokens.rows, ∀ u ∈ db.refreshTokens.rows,
    t.sessionId = u.sessionId → t.revokedAt = none → u.revokedAt = none → t = u))

instance (p : Pool ι Db RefreshCall) (t : ι × Env) : Decidable (ReplacesTwice p t) :=
  inferInstanceAs (Decidable (∃ stored ∈ (p.request t.1).stage.replacing,
    TokenReplaced p.store stored.token))

instance (p : Pool ι Db RefreshCall) (t : ι × Env) : Decidable (InsertsBeside pf p t) :=
  inferInstanceAs (Decidable (∃ stored ∈ (p.request t.1).stage.inserting,
    (p.store.insertRefreshToken (newRefreshToken pf t.2 stored.appId stored.userId (t.2.token 0)
      stored.sessionId)).isSome = true ∧
    ∃ u ∈ p.store.refreshTokens.rows, u.sessionId = stored.sessionId ∧ u.revokedAt = none))

end Pools

/-- Dana has signed in and holds the token `at0`. -/
def danaSignedIn : Db := runAuth asciiPlatform danaDb [danaLogin]

/-- Two refreshes that present it. -/
def danaTwice : Pool Bool Db RefreshCall :=
  { store := danaSignedIn
    request := fun _ => ⟨.refreshSessionForApp "default" "at0", .received⟩ }

/-- The two requests take turns. -/
def danaRace : List (Bool × Env) :=
  (List.replicate 5 [(false, sampleEnv "b"), (true, sampleEnv "c")]).flatten

/-- Both answer with a new token, and the session is left with two of them. -/
theorem refresh_race_redeems_twice :
    (∃ reply, ((run (RefreshCall.step asciiPlatform) danaTwice danaRace).request false).stage =
        .answered (.ok reply)) ∧
      (∃ reply, ((run (RefreshCall.step asciiPlatform) danaTwice danaRace).request true).stage =
        .answered (.ok reply)) ∧
      ¬ OneActivePerSession (run (RefreshCall.step asciiPlatform) danaTwice danaRace).store := by
  refine ⟨⟨_, rfl⟩, ⟨_, rfl⟩, ?_⟩
  decide +kernel

/-- The console refuses Dana, who is no administrator, and revokes the token; the
    request of the app comes too late. -/
def danaRefused : Pool Bool Db RefreshCall :=
  { store := danaSignedIn
    request := fun console =>
      if console then ⟨.adminRefreshSession "at0", .received⟩
      else ⟨.refreshSessionForApp "default" "at0", .received⟩ }

def danaRefusal : List (Bool × Env) :=
  [(true, sampleEnv "b"), (true, sampleEnv "b"), (true, sampleEnv "b"), (false, sampleEnv "c")]

/-- Dana refreshes, and presents the same token once more. -/
def danaAgain : List (Bool × Env) :=
  List.replicate 5 (false, sampleEnv "b") ++ List.replicate 5 (true, sampleEnv "c")

/-- A refresh that succeeds redeems its token once.  One that is refused leaves the
    session with one live token at most all along. -/
theorem dana_refreshes_rotate :
    ((∃ reply, ((run (RefreshCall.step asciiPlatform) danaTwice danaAgain).request false).stage =
        .answered (.ok reply)) ∧
      Always (RefreshCall.step asciiPlatform) (RedeemedOnce asciiPlatform) danaTwice danaAgain) ∧
    Always (RefreshCall.step asciiPlatform)
      (fun q => RedeemedOnce asciiPlatform q ∧ OneActivePerSession q.store) danaRefused
      danaRefusal := by
  refine ⟨⟨⟨_, rfl⟩, ?_⟩, ?_⟩
  · apply (refresh_rotation_iff asciiPlatform danaTwice (fun _ => rfl) (by decide +kernel)
      danaAgain).1.mpr
    decide +kernel
  · have hstart : ∀ i, (danaRefused.request i).stage = .received := by
      intro i
      cases i <;> rfl
    apply (refresh_rotation_iff asciiPlatform danaRefused hstart (by decide +kernel)
      danaRefusal).2.2.mpr
    decide +kernel

end Peanut
