import Mathlib.Data.Fintype.Prod
import Peanut.Auth.OAuth
import Peanut.Auth.Password
import Peanut.Auth.SessionIds
import Peanut.Library.Interleaving

/-!
# Tokens that are good for one use

A password reset token, an email verification token and the state of an OAuth
login are each read, acted upon and only then marked as used or deleted, by a
statement that does not look whether somebody else was faster.

Requests of all three kinds interleave in one pool.  A request takes a token when
its `SELECT` finds it usable, and holds it until it has marked it.
-/

namespace Peanut

open Relational Interleaving

/-! ### Confirming an address -/

def EMAIL_VERIFICATION_PURPOSE : String := "verify_email"

inductive ConfirmEmailStage where
  | received
  | loaded (stored : EmailVerificationToken)
  | consumed (stored : EmailVerificationToken)
  | completed (stored : EmailVerificationToken)
  | refused (error : ApiError)

/-- `confirm_email_verification_for_app`, one statement at a time. -/
structure ConfirmEmailCall where
  appId : String
  rawToken : String
  stage : ConfirmEmailStage

def loadEmailVerificationToken (pf : Platform) (db : Db) (now appId rawToken : String) :
    Option EmailVerificationToken :=
  db.emailVerificationTokens.selectOne fun t =>
    t.appId == appId && t.tokenHash == hashOpaqueToken pf rawToken &&
      t.purpose == EMAIL_VERIFICATION_PURPOSE && t.consumedAt.isNone && strLt now t.expiresAt

theorem EmailVerificationToken.id_consumed (now : String) (t : EmailVerificationToken) :
    ({ t with consumedAt := some now } : EmailVerificationToken).id = t.id := rfl

/-- `UPDATE email_verification_tokens SET consumed_at = … WHERE id = ?`. -/
def consumeEmailVerificationToken (db : Db) (env : Env) (id : String) : Db :=
  { db with
    emailVerificationTokens := db.emailVerificationTokens.updateWhere (fun t => t.id == id)
      (fun t => { t with consumedAt := some env.now })
      (EmailVerificationToken.id_consumed env.now) }

def confirmEmailChecks (pf : Platform) (env : Env) (db : Db) (appId rawToken : String) :
    Except ApiError EmailVerificationToken := do
  Outcome.ensure (trim rawToken != "") (jsonError .badRequest "token is required")
  Outcome.require (loadEmailVerificationToken pf db env.now appId rawToken)
    (jsonError .unauthorized "valid verification token is required")

namespace ConfirmEmailCall

def step (pf : Platform) (env : Env) (db : Db) (c : ConfirmEmailCall) : Db × ConfirmEmailCall :=
  match c.stage with
  | .received =>
      match confirmEmailChecks pf env db c.appId c.rawToken with
      | .error e => (db, { c with stage := .refused e })
      | .ok stored => (db, { c with stage := .loaded stored })
  | .loaded stored =>
      (consumeEmailVerificationToken db env stored.id, { c with stage := .consumed stored })
  | .consumed stored =>
      (recordAuthEvent db env (env.uuid 0) c.appId stored.userId (some stored.userId)
          "email_verified" (some (.object [("email", .string stored.email)])),
        { c with stage := .completed stored })
  | .completed _ => (db, c)
  | .refused _ => (db, c)

def reply (c : ConfirmEmailCall) : Option (Except ApiError (Reply MessageResponse)) :=
  match c.stage with
  | .completed _ => some (.ok (jsonMessage .ok "email verified"))
  | .refused e => some (.error e)
  | _ => none

end ConfirmEmailCall

/-! ### Tokens -/

/-- A token, by the key of its row. -/
inductive OneTimeToken where
  | passwordReset (token : String)
  | emailVerification (id : String)
  | oauthState (stateHash : String)
deriving DecidableEq

/-- No row of the token is usable. -/
def TokenSpent (db : Db) : OneTimeToken → Prop
  | .passwordReset token => ∀ t ∈ db.passwordResetTokens, t.token = token → t.consumedAt ≠ none
  | .emailVerification id => ∀ t ∈ db.emailVerificationTokens, t.id = id → t.consumedAt ≠ none
  | .oauthState stateHash => ∀ s ∈ db.oauthStates, s.stateHash ≠ stateHash

inductive OneTimeCall where
  | resetPassword (c : ResetPasswordCall)
  | confirmEmail (c : ConfirmEmailCall)
  | oauthCallback (c : OAuthCallbackCall)

def ResetPasswordStage.taken : ResetPasswordStage → Option OneTimeToken
  | .loaded record _ => some (.passwordReset record.token)
  | .passwordSet record => some (.passwordReset record.token)
  | .consumed record => some (.passwordReset record.token)
  | .revoked record => some (.passwordReset record.token)
  | .completed record => some (.passwordReset record.token)
  | _ => none

def ResetPasswordStage.holding : ResetPasswordStage → Option OneTimeToken
  | .loaded record _ => some (.passwordReset record.token)
  | .passwordSet record => some (.passwordReset record.token)
  | _ => none

/-- The password has been set. -/
def ResetPasswordStage.performed : ResetPasswordStage → Option OneTimeToken
  | .passwordSet record => some (.passwordReset record.token)
  | .consumed record => some (.passwordReset record.token)
  | .revoked record => some (.passwordReset record.token)
  | .completed record => some (.passwordReset record.token)
  | _ => none

def ConfirmEmailStage.taken : ConfirmEmailStage → Option OneTimeToken
  | .loaded stored => some (.emailVerification stored.id)
  | .consumed stored => some (.emailVerification stored.id)
  | .completed stored => some (.emailVerification stored.id)
  | _ => none

def ConfirmEmailStage.holding : ConfirmEmailStage → Option OneTimeToken
  | .loaded stored => some (.emailVerification stored.id)
  | _ => none

/-- The address counts as verified. -/
def ConfirmEmailStage.performed : ConfirmEmailStage → Option OneTimeToken
  | .consumed stored => some (.emailVerification stored.id)
  | .completed stored => some (.emailVerification stored.id)
  | _ => none

def OAuthStage.holding : OAuthStage → Option OneTimeToken
  | .matched _ stateHash => some (.oauthState stateHash)
  | .exchanged login => some (.oauthState login.stateHash)
  | .unknownIdentity login => some (.oauthState login.stateHash)
  | .newcomer login => some (.oauthState login.stateHash)
  | .counted login _ => some (.oauthState login.stateHash)
  | .found login _ => some (.oauthState login.stateHash)
  | .linked login _ => some (.oauthState login.stateHash)
  | _ => none

/-- The login has been issued. -/
def OAuthStage.performed : OAuthStage → Option OneTimeToken
  | .issued login _ _ => some (.oauthState login.stateHash)
  | .completed stateHash _ => some (.oauthState stateHash)
  | _ => none

def OAuthStage.taken : OAuthStage → Option OneTimeToken
  | .spent login _ => some (.oauthState login.stateHash)
  | stage => stage.holding.or stage.performed

namespace OneTimeCall

def step (pf : Platform) (cipher : SecretCipher) (exchange : CodeExchange) (env : Env) (db : Db) :
    OneTimeCall → Db × OneTimeCall
  | .resetPassword c => Prod.map id .resetPassword (c.step pf env db)
  | .confirmEmail c => Prod.map id .confirmEmail (c.step pf env db)
  | .oauthCallback c => Prod.map id .oauthCallback (c.step pf cipher exchange env db)

/-- The token the request has found usable and goes on with. -/
def taken : OneTimeCall → Option OneTimeToken
  | .resetPassword c => c.stage.taken
  | .confirmEmail c => c.stage.taken
  | .oauthCallback c => c.stage.taken

/-- The token it has taken and not yet marked as used. -/
def holding : OneTimeCall → Option OneTimeToken
  | .resetPassword c => c.stage.holding
  | .confirmEmail c => c.stage.holding
  | .oauthCallback c => c.stage.holding

/-- The token whose effect it has brought about: a password, a verified address
    or a login. -/
def performed : OneTimeCall → Option OneTimeToken
  | .resetPassword c => c.stage.performed
  | .confirmEmail c => c.stage.performed
  | .oauthCallback c => c.stage.performed

/-- The request has been answered with success. -/
def succeeded : OneTimeCall → Bool
  | .resetPassword c => c.reply.any Outcome.succeeded
  | .confirmEmail c => c.reply.any Outcome.succeeded
  | .oauthCallback c => c.reply.any Outcome.succeeded

theorem taken_of_holding {c : OneTimeCall} {k : OneTimeToken} (h : c.holding = some k) :
    c.taken = some k := by
  cases c with
  | resetPassword c => cases hs : c.stage <;> simp_all [holding, taken,
      ResetPasswordStage.holding, ResetPasswordStage.taken]
  | confirmEmail c => cases hs : c.stage <;> simp_all [holding, taken,
      ConfirmEmailStage.holding, ConfirmEmailStage.taken]
  | oauthCallback c => cases hs : c.stage <;> simp_all [holding, taken,
      OAuthStage.holding, OAuthStage.taken]

theorem taken_of_performed {c : OneTimeCall} {k : OneTimeToken} (h : c.performed = some k) :
    c.taken = some k := by
  cases c with
  | resetPassword c => cases hs : c.stage <;> simp_all [performed, taken,
      ResetPasswordStage.performed, ResetPasswordStage.taken]
  | confirmEmail c => cases hs : c.stage <;> simp_all [performed, taken,
      ConfirmEmailStage.performed, ConfirmEmailStage.taken]
  | oauthCallback c => cases hs : c.stage <;> simp_all [performed, taken,
      OAuthStage.performed, OAuthStage.taken, OAuthStage.holding]

end OneTimeCall

/-! ### What one statement does to the tokens -/

/-- No token is added and no mark is taken away. -/
structure SpendsOnly (db db' : Db) : Prop where
  resets : ∀ t' ∈ db'.passwordResetTokens, ∃ t ∈ db.passwordResetTokens,
    t'.token = t.token ∧ (t.consumedAt ≠ none → t'.consumedAt ≠ none)
  emails : ∀ t' ∈ db'.emailVerificationTokens, ∃ t ∈ db.emailVerificationTokens,
    t'.id = t.id ∧ (t.consumedAt ≠ none → t'.consumedAt ≠ none)
  states : ∀ s ∈ db'.oauthStates, s ∈ db.oauthStates

variable {db db' : Db}

theorem SpendsOnly.of_eq (hresets : db'.passwordResetTokens = db.passwordResetTokens)
    (hemails : db'.emailVerificationTokens = db.emailVerificationTokens)
    (hstates : db'.oauthStates = db.oauthStates) : SpendsOnly db db' := by
  refine ⟨?_, ?_, ?_⟩
  · intro t ht
    rw [hresets] at ht
    exact ⟨t, ht, rfl, id⟩
  · intro t ht
    rw [hemails] at ht
    exact ⟨t, ht, rfl, id⟩
  · intro s hs
    rwa [hstates] at hs

theorem SpendsOnly.refl (db : Db) : SpendsOnly db db := .of_eq rfl rfl rfl

theorem SpendsOnly.spent (h : SpendsOnly db db') {k : OneTimeToken}
    (hk : TokenSpent db k) : TokenSpent db' k := by
  cases k with
  | passwordReset token =>
    rintro t' ht' rfl
    obtain ⟨t, ht, htoken, hconsumed⟩ := h.resets t' ht'
    exact hconsumed (hk t ht htoken.symm)
  | emailVerification id =>
    rintro t' ht' rfl
    obtain ⟨t, ht, hid, hconsumed⟩ := h.emails t' ht'
    exact hconsumed (hk t ht hid.symm)
  | oauthState stateHash =>
    intro s hs
    exact hk s (h.states s hs)

theorem recordAuthEvent_spendsOnly (db : Db) (env : Env) (uuid appId userId : String)
    (actor : Option String) (action : String) (metadata : Option Value) :
    SpendsOnly db (recordAuthEvent db env uuid appId userId actor action metadata) := by
  obtain ⟨events, hevents⟩ := recordAuthEvent_frame db env uuid appId userId actor action metadata
  rw [hevents]
  exact .of_eq rfl rfl rfl

variable {pf : Platform} {env : Env}

theorem issueLoginResponse_spendsOnly {appId : String}
    {user : UserSummary} {response : LoginResponse}
    (h : issueLoginResponse pf db env appId user = .ok (response, db')) : SpendsOnly db db' := by
  obtain ⟨tokens, rfl⟩ := issueLoginResponse_frame h
  exact .of_eq rfl rfl rfl

theorem consumePasswordResetTokenHash_spendsOnly (db : Db) (env : Env) (tokenHash : String) :
    SpendsOnly db (consumePasswordResetTokenHash db env tokenHash) := by
  refine { SpendsOnly.refl db with resets := ?_ }
  intro t' ht'
  rw [consumePasswordResetTokenHash, KeyedTable.mem_updateWhere] at ht'
  obtain ⟨t, ht, rfl⟩ := ht'
  refine ⟨t, ht, ?_⟩
  split
  · exact ⟨rfl, fun _ => Option.some_ne_none _⟩
  · exact ⟨rfl, id⟩

theorem consumeEmailVerificationToken_spendsOnly (db : Db) (env : Env) (id : String) :
    SpendsOnly db (consumeEmailVerificationToken db env id) := by
  refine { SpendsOnly.refl db with emails := ?_ }
  intro t' ht'
  rw [consumeEmailVerificationToken, KeyedTable.mem_updateWhere] at ht'
  obtain ⟨t, ht, rfl⟩ := ht'
  refine ⟨t, ht, ?_⟩
  split
  · exact ⟨rfl, fun _ => Option.some_ne_none _⟩
  · exact ⟨rfl, fun h => h⟩

namespace OneTimeCall

variable {pf : Platform} {cipher : SecretCipher} {exchange : CodeExchange}

theorem step_spendsOnly (env : Env) (db : Db) (c : OneTimeCall) :
    SpendsOnly db (c.step pf cipher exchange env db).1 := by
  cases c with
  | resetPassword c =>
    obtain ⟨appId, payload, stage⟩ := c
    cases stage with
    | received =>
      simp only [step, ResetPasswordCall.step, Prod.map_fst, id]
      split <;> exact .refl db
    | loaded record nextHash => exact .of_eq rfl rfl rfl
    | passwordSet record => exact consumePasswordResetTokenHash_spendsOnly db env record.token
    | consumed record => exact .of_eq rfl rfl rfl
    | revoked record => exact recordAuthEvent_spendsOnly ..
    | completed record => exact .refl db
    | refused e => exact .refl db
  | confirmEmail c =>
    obtain ⟨appId, rawToken, stage⟩ := c
    cases stage with
    | received =>
      simp only [step, ConfirmEmailCall.step, Prod.map_fst, id]
      split <;> exact .refl db
    | loaded stored => exact consumeEmailVerificationToken_spendsOnly db env stored.id
    | consumed stored => exact recordAuthEvent_spendsOnly ..
    | completed stored => exact .refl db
    | refused e => exact .refl db
  | oauthCallback c =>
    obtain ⟨appId, provider, code, state, stage⟩ := c
    cases stage with
    | counted login isAdmin =>
      simp only [step, OAuthCallbackCall.step, Prod.map_fst, id]
      split
      · exact .refl db
      · split
        · exact .refl db
        · rename_i _ db' hinsert
          obtain ⟨users, -, rfl⟩ := Db.insertUser_eq_some hinsert
          exact .of_eq rfl rfl rfl
    | found login user =>
      simp only [step, OAuthCallbackCall.step, Prod.map_fst, id]
      split
      · exact .refl db
      · rename_i db' hupsert
        obtain ⟨identities, rfl⟩ := Db.upsertAuthIdentity_eq_some hupsert
        exact .of_eq rfl rfl rfl
    | linked login user =>
      refine { SpendsOnly.refl db with states := ?_ }
      intro s hs
      exact (KeyedTable.mem_deleteWhere.mp hs).1
    | spent login user =>
      simp only [step, OAuthCallbackCall.step, Prod.map_fst, id]
      split
      · exact .refl db
      · rename_i response db' hissue
        exact issueLoginResponse_spendsOnly hissue
    | issued login user response => exact recordAuthEvent_spendsOnly ..
    | completed stateHash response => exact .refl db
    | refused e => exact .refl db
    | _ =>
      -- the remaining stages only read
      simp only [step, OAuthCallbackCall.step, Prod.map_fst, id]
      repeat' split
      all_goals exact .refl db

end OneTimeCall

/-! ### Taking a token -/

theorem resetPasswordChecks_unspent {appId : String}
    {payload : ResetPasswordRequest} {record : PasswordResetToken} {nextHash : String}
    (h : resetPasswordChecks pf env db appId payload = .ok (record, nextHash)) :
    ¬ TokenSpent db (.passwordReset record.token) := by
  unfold resetPasswordChecks at h
  obtain ⟨-, -, h⟩ := Outcome.bind_eq_ok.mp h
  obtain ⟨record', hload, h⟩ := Outcome.bind_eq_ok.mp h
  obtain ⟨nextHash', -, h⟩ := Outcome.bind_eq_ok.mp h
  cases h
  obtain ⟨hmem, hmatch⟩ := KeyedTable.selectOne_some (Outcome.require_eq_ok.mp hload)
  simp only [Bool.and_eq_true, Option.isNone_iff_eq_none] at hmatch
  intro hspent
  exact hspent record hmem rfl hmatch.1.2

theorem confirmEmailChecks_unspent {appId rawToken : String} {stored : EmailVerificationToken}
    (h : confirmEmailChecks pf env db appId rawToken = .ok stored) :
    ¬ TokenSpent db (.emailVerification stored.id) := by
  unfold confirmEmailChecks at h
  obtain ⟨-, -, hload⟩ := Outcome.bind_eq_ok.mp h
  obtain ⟨hmem, hmatch⟩ := KeyedTable.selectOne_some (Outcome.require_eq_ok.mp hload)
  simp only [Bool.and_eq_true, Option.isNone_iff_eq_none] at hmatch
  intro hspent
  exact hspent stored hmem rfl hmatch.1.2

theorem oauthStateChecks_unspent {c : OAuthCallbackCall}
    {provider stateHash : String} (h : oauthStateChecks pf env db c = .ok (provider, stateHash)) :
    ¬ TokenSpent db (.oauthState stateHash) := by
  unfold oauthStateChecks at h
  obtain ⟨provider', -, h⟩ := Outcome.bind_eq_ok.mp h
  obtain ⟨stored, hload, h⟩ := Outcome.bind_eq_ok.mp h
  obtain ⟨-, -, h⟩ := Outcome.bind_eq_ok.mp h
  cases h
  obtain ⟨hmem, hmatch⟩ := KeyedTable.selectOne_some (Outcome.require_eq_ok.mp hload)
  simp only [Bool.and_eq_true, beq_iff_eq] at hmatch
  intro hspent
  exact hspent stored hmem hmatch.1

theorem oauthExchangeChecks_stateHash {cipher : SecretCipher} {exchange : CodeExchange}
    {c : OAuthCallbackCall} {provider stateHash : String} {login : OAuthLogin}
    (h : oauthExchangeChecks cipher exchange env db c provider stateHash = .ok login) :
    login.stateHash = stateHash := by
  unfold oauthExchangeChecks at h
  obtain ⟨row, -, h⟩ := Outcome.bind_eq_ok.mp h
  obtain ⟨-, -, h⟩ := Outcome.bind_eq_ok.mp h
  obtain ⟨config, -, h⟩ := Outcome.bind_eq_ok.mp h
  obtain ⟨userinfo, -, h⟩ := Outcome.bind_eq_ok.mp h
  obtain ⟨email, -, h⟩ := Outcome.bind_eq_ok.mp h
  cases h
  rfl

theorem spent_consumePasswordResetTokenHash (db : Db) (env : Env) (tokenHash : String) :
    TokenSpent (consumePasswordResetTokenHash db env tokenHash) (.passwordReset tokenHash) := by
  intro t' ht' htoken
  rw [consumePasswordResetTokenHash, KeyedTable.mem_updateWhere] at ht'
  obtain ⟨t, -, rfl⟩ := ht'
  split at htoken
  · simp_all
  · simp_all

theorem spent_consumeEmailVerificationToken (db : Db) (env : Env) (id : String) :
    TokenSpent (consumeEmailVerificationToken db env id) (.emailVerification id) := by
  intro t' ht' hid
  rw [consumeEmailVerificationToken, KeyedTable.mem_updateWhere] at ht'
  obtain ⟨t, -, rfl⟩ := ht'
  split at hid
  · simp_all
  · simp_all

namespace OneTimeCall

variable {pf : Platform} {cipher : SecretCipher} {exchange : CodeExchange}

/-- A request that has marked its token has left it spent. -/
def Covered (db : Db) (c : OneTimeCall) : Prop :=
  ∀ k, c.taken = some k → c.holding = some k ∨ TokenSpent db k

/-- What one statement does to the token of the request: it takes one that is not
    spent, it keeps holding it, it marks it, or it is past that. -/
theorem step_taken (env : Env) (db : Db) {c : OneTimeCall} {k : OneTimeToken}
    (h : (c.step pf cipher exchange env db).2.taken = some k) :
    (c.taken = none ∧ ¬ TokenSpent db k ∧
        (c.step pf cipher exchange env db).2.holding = some k) ∨
      (c.taken = some k ∧
        ((c.step pf cipher exchange env db).2.holding = some k ∨
          TokenSpent (c.step pf cipher exchange env db).1 k ∨ c.holding = none)) := by
  cases c with
  | resetPassword c =>
    obtain ⟨appId, payload, stage⟩ := c
    cases stage with
    | received =>
      simp only [step, ResetPasswordCall.step] at h ⊢
      split at h
      · cases h
      · rename_i record nextHash hchecks
        cases h
        exact .inl ⟨rfl, resetPasswordChecks_unspent hchecks, rfl⟩
    | loaded record nextHash => exact .inr ⟨h, .inl h⟩
    | passwordSet record =>
      cases h
      exact .inr ⟨rfl, .inr (.inl (spent_consumePasswordResetTokenHash db env record.token))⟩
    | consumed record => exact .inr ⟨h, .inr (.inr rfl)⟩
    | revoked record => exact .inr ⟨h, .inr (.inr rfl)⟩
    | completed record => exact .inr ⟨h, .inr (.inr rfl)⟩
    | refused e => cases h
  | confirmEmail c =>
    obtain ⟨appId, rawToken, stage⟩ := c
    cases stage with
    | received =>
      simp only [step, ConfirmEmailCall.step] at h ⊢
      split at h
      · cases h
      · rename_i stored hchecks
        cases h
        exact .inl ⟨rfl, confirmEmailChecks_unspent hchecks, rfl⟩
    | loaded stored =>
      cases h
      exact .inr ⟨rfl, .inr (.inl (spent_consumeEmailVerificationToken db env stored.id))⟩
    | consumed stored => exact .inr ⟨h, .inr (.inr rfl)⟩
    | completed stored => exact .inr ⟨h, .inr (.inr rfl)⟩
    | refused e => cases h
  | oauthCallback c =>
    obtain ⟨appId, provider, code, state, stage⟩ := c
    cases stage with
    | received =>
      simp only [step, OAuthCallbackCall.step] at h ⊢
      split at h
      · cases h
      · rename_i provider' stateHash hchecks
        cases h
        exact .inl ⟨rfl, oauthStateChecks_unspent hchecks, rfl⟩
    | matched provider' stateHash =>
      simp only [step, OAuthCallbackCall.step] at h ⊢
      split at h
      · cases h
      · rename_i login hchecks
        cases h
        refine .inr ⟨?_, .inl rfl⟩
        exact congrArg (fun hash => some (OneTimeToken.oauthState hash))
          (oauthExchangeChecks_stateHash hchecks).symm
    | linked login user =>
      cases h
      refine .inr ⟨rfl, .inr (.inl ?_)⟩
      intro s hs
      have hkept := (KeyedTable.mem_deleteWhere.mp hs).2
      simpa using hkept
    | spent login user =>
      simp only [step, OAuthCallbackCall.step] at h ⊢
      split at h
      · cases h
      · cases h
        exact .inr ⟨rfl, .inr (.inr rfl)⟩
    | issued login user response => exact .inr ⟨h, .inr (.inr rfl)⟩
    | completed stateHash response => exact .inr ⟨h, .inr (.inr rfl)⟩
    | refused e => cases h
    | _ =>
      -- between the exchange and the `DELETE` the state is held on to
      simp only [step, OAuthCallbackCall.step] at h ⊢
      repeat' split at h
      all_goals cases h
      all_goals exact .inr ⟨rfl, .inl rfl⟩

/-- A statement never drops a token that the request has performed or still
    needs: it stays taken, or the request is refused. -/
theorem Covered.step {db : Db} {c : OneTimeCall} (h : Covered db c) (env : Env) :
    Covered (c.step pf cipher exchange env db).1 (c.step pf cipher exchange env db).2 := by
  intro k hk
  rcases step_taken env db hk with ⟨-, -, hholding⟩ | ⟨htaken, hholding | hspent | hreleased⟩
  · exact .inl hholding
  · exact .inl hholding
  · exact .inr hspent
  · rcases h k htaken with hheld | hspent
    · rw [hreleased] at hheld
      cases hheld
    · exact .inr ((step_spendsOnly env db c).spent hspent)

end OneTimeCall

/-! ### Every interleaving -/

section Pools

variable {ι : Type} [DecidableEq ι] {pf : Platform} {cipher : SecretCipher}
  {exchange : CodeExchange}

/-- No two requests have taken the same token. -/
def TakenOnce (p : Pool ι Db OneTimeCall) : Prop :=
  ∀ i j k, (p.request i).taken = some k → (p.request j).taken = some k → i = j

/-- No two requests have brought about the effect of the same token. -/
def PerformedOnce (p : Pool ι Db OneTimeCall) : Prop :=
  ∀ i j k, (p.request i).performed = some k → (p.request j).performed = some k → i = j

/-- The tick is a `SELECT` that finds a token which another request has taken and
    not marked yet. -/
def TakesHeld (pf : Platform) (cipher : SecretCipher) (exchange : CodeExchange)
    (p : Pool ι Db OneTimeCall) (t : ι × Env) : Prop :=
  (p.request t.1).taken = none ∧
    ∃ k ∈ ((p.request t.1).step pf cipher exchange t.2 p.store).2.taken,
      ∃ j, j ≠ t.1 ∧ (p.request j).holding = some k

def AllCovered (p : Pool ι Db OneTimeCall) : Prop :=
  ∀ i, (p.request i).Covered p.store

theorem AllCovered.tick {p : Pool ι Db OneTimeCall} (h : AllCovered p) (t : ι × Env) :
    AllCovered (tick (OneTimeCall.step pf cipher exchange) p t) := by
  refine assertions_tick (fun hown => hown.step t.2) ?_ h
  intro q hq k hk
  exact (hq k hk).imp_right (OneTimeCall.step_spendsOnly t.2 p.store (p.request t.1)).spent

theorem takenOnce_tick {p : Pool ι Db OneTimeCall} (hcovered : AllCovered p) (h : TakenOnce p)
    (t : ι × Env) :
    TakenOnce (tick (OneTimeCall.step pf cipher exchange) p t) ↔
      ¬ TakesHeld pf cipher exchange p t := by
  constructor
  · rintro hafter ⟨-, k, hk, j, hj, hheld⟩
    apply hj
    apply hafter j t.1 k
    · rw [tick_request_of_ne p t hj]
      exact OneTimeCall.taken_of_holding hheld
    · rw [tick_request_self]
      exact hk
  · intro hfree
    have hsingle : SingleUse TokenSpent (fun c k => c.taken = some k) (fun c k => c.holding =
        some k)
        p := ⟨fun i k hk => hcovered i k hk, h⟩
    have htick : SingleUse TokenSpent (fun c k => c.taken = some k)
        (fun c k => c.holding = some k) (tick (OneTimeCall.step pf cipher exchange) p t) := by
      apply hsingle.tick
      · intro k hk
        exact (OneTimeCall.step_spendsOnly t.2 p.store (p.request t.1)).spent hk
      · intro k hk
        rcases OneTimeCall.step_taken t.2 p.store hk with ⟨hnone, hunspent, -⟩ | ⟨htaken, -⟩
        · refine .inr ⟨hunspent, ?_⟩
          intro j hj hheld
          apply hfree
          exact ⟨hnone, k, hk, j, hj, hheld⟩
        · exact .inl htaken
      · intro k hk hbefore
        exact (hcovered t.1).step t.2 k hk
    exact htick.unique

/-- **One use.**  Over every interleaving of password resets, email confirmations
    and OAuth callbacks, each token is taken by at most one request exactly when
    no `SELECT` finds a token that another request has taken and not marked yet;
    and then at most one request sets a password, verifies an address or issues a
    login with it. -/
theorem one_time_token_iff (pf : Platform) (cipher : SecretCipher) (exchange : CodeExchange)
    (p : Pool ι Db OneTimeCall) (hstart : ∀ i, (p.request i).taken = none)
    (ticks : List (ι × Env)) :
    (Always (OneTimeCall.step pf cipher exchange) TakenOnce p ticks ↔
      Admissible (OneTimeCall.step pf cipher exchange)
        (fun q t => ¬ TakesHeld pf cipher exchange q t) p ticks) ∧
    (Admissible (OneTimeCall.step pf cipher exchange)
        (fun q t => ¬ TakesHeld pf cipher exchange q t) p ticks →
      Always (OneTimeCall.step pf cipher exchange) PerformedOnce p ticks) := by
  have hcovered : AllCovered p := by
    intro i k hk
    rw [hstart i] at hk
    cases hk
  have honce : TakenOnce p := by
    intro i j k hk
    rw [hstart i] at hk
    cases hk
  have hkeep : ∀ (q : Pool ι Db OneTimeCall) (t : ι × Env), AllCovered q →
      AllCovered (tick (OneTimeCall.step pf cipher exchange) q t) :=
    fun q t hq => hq.tick t
  have hstep : ∀ (q : Pool ι Db OneTimeCall) (t : ι × Env), AllCovered q → TakenOnce q →
      (TakenOnce (tick (OneTimeCall.step pf cipher exchange) q t) ↔
        ¬ TakesHeld pf cipher exchange q t) :=
    fun q t hq hgood => takenOnce_tick hq hgood t
  have hiff : Always (OneTimeCall.step pf cipher exchange) TakenOnce p ticks ↔
      Admissible (OneTimeCall.step pf cipher exchange)
        (fun q t => ¬ TakesHeld pf cipher exchange q t) p ticks := by
    rw [run_iff hkeep hstep hcovered ticks]
    simp only [honce, true_and]
  refine ⟨hiff, ?_⟩
  intro hadm pre post hsplit i j k hi hj
  apply hiff.mpr hadm pre post hsplit i j k
  · exact OneTimeCall.taken_of_performed hi
  · exact OneTimeCall.taken_of_performed hj

end Pools

/-! ### Two requests with one token -/

/-- Dana has asked for a reset and a verification, and has started a login. -/
def danaAsked : Db :=
  { users := ⟨[dana], danaDb.users.nodup⟩
    apps := ⟨[{
      id := "default", name := "default", displayName := "Default", workspaceId := "default"
      createdBy := none, createdAt := "2026-01-01 00:00:00", updatedAt := "2026-01-01 00:00:00"
      deletedAt := none }], by decide⟩
    passwordResetTokens := ⟨[{
      token := "#reset", appId := "default", userId := "dana"
      expiresAt := "2026-01-01 01:00:00", createdAt := "2026-01-01 00:00:00"
      consumedAt := none }], by decide⟩
    emailVerificationTokens := ⟨[{
      id := "v1", appId := "default", userId := "dana", email := "dana@example.com"
      tokenHash := "#verify", purpose := "verify_email", expiresAt := "2026-01-01 01:00:00"
      consumedAt := none, createdAt := "2026-01-01 00:00:00" }], by decide⟩
    oauthStates := ⟨[{
      stateHash := "#state", appId := "default", provider := "google", redirectTo := none
      expiresAt := "2026-01-01 01:00:00" }], by decide⟩
    authProviderConfigs := ⟨[{
      appId := "default", provider := "google", enabled := true, clientId := some "client"
      clientSecretCiphertext := none, redirectUri := some "https://example.com/callback"
      config := .object [] }], by decide⟩ }

/-- The provider knows Dana by her address, whatever the code. -/
def danaExchange : CodeExchange := fun _ _ _ =>
  .ok { sub := "g1", email := some "dana@example.com" }

/-- Each token is presented twice. -/
def danaPresents : Pool (Fin 3 × Bool) Db OneTimeCall :=
  { store := danaAsked
    request := fun i =>
      match i with
      | (0, again) => .resetPassword ⟨"default",
          ⟨"reset", if again then "other-password" else "new-password"⟩, .received⟩
      | (1, _) => .confirmEmail ⟨"default", "verify", .received⟩
      | (_, again) => .oauthCallback ⟨"default", "google", if again then "code2" else "code1",
          "state", .received⟩ }

/-- The two requests of each kind take turns. -/
def danaTakesTurns : List ((Fin 3 × Bool) × Env) :=
  (List.replicate 5 [((0, false), sampleEnv "b"), ((0, true), sampleEnv "c")]).flatten ++
    (List.replicate 3 [((1, false), sampleEnv "d"), ((1, true), sampleEnv "e")]).flatten ++
    (List.replicate 8 [((2, false), sampleEnv "f"), ((2, true), sampleEnv "g")]).flatten

def danaToken : Fin 3 → OneTimeToken
  | 0 => .passwordReset "#reset"
  | 1 => .emailVerification "v1"
  | _ => .oauthState "#state"

/-- Both requests of each kind succeed with one token. -/
theorem one_time_tokens_used_twice :
    (∀ i, (danaPresents.request i).taken = none) ∧
      ∀ (kind : Fin 3) (again : Bool),
        ((run (OneTimeCall.step asciiPlatform readableCipher danaExchange) danaPresents
            danaTakesTurns).request (kind, again)).performed = some (danaToken kind) ∧
          ((run (OneTimeCall.step asciiPlatform readableCipher danaExchange) danaPresents
            danaTakesTurns).request (kind, again)).succeeded = true := by
  decide +kernel

/-- The first request of each kind is through before the second one starts. -/
def danaInOrder : List ((Fin 3 × Bool) × Env) :=
  List.replicate 5 ((0, false), sampleEnv "b") ++ [((0, true), sampleEnv "c")] ++
    List.replicate 3 ((1, false), sampleEnv "d") ++ [((1, true), sampleEnv "e")] ++
    List.replicate 8 ((2, false), sampleEnv "f") ++ [((2, true), sampleEnv "g")]

instance (pf : Platform) (cipher : SecretCipher) (exchange : CodeExchange)
    (p : Pool (Fin 3 × Bool) Db OneTimeCall) (t : (Fin 3 × Bool) × Env) :
    Decidable (TakesHeld pf cipher exchange p t) :=
  inferInstanceAs (Decidable ((p.request t.1).taken = none ∧
    ∃ k ∈ ((p.request t.1).step pf cipher exchange t.2 p.store).2.taken,
      ∃ j, j ≠ t.1 ∧ (p.request j).holding = some k))

theorem tokens_in_order_used_once :
    Always (OneTimeCall.step asciiPlatform readableCipher danaExchange) PerformedOnce danaPresents
      danaInOrder := by
  have hstart : ∀ i, (danaPresents.request i).taken = none := by
    decide
  apply (one_time_token_iff asciiPlatform readableCipher danaExchange danaPresents hstart
    danaInOrder).2
  decide +kernel

end Peanut
