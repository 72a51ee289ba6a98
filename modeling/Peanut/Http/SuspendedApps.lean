import Peanut.Http.DataPlane

/-!
# What a suspended app still answers

A request to a suspended app is refused where the layer of the SDK stands in front
of the handler, or of the answer to a wrong method, and the path writes the app as it
is stored.  The public routes have no such layer: they answer, sign users in and take
objects.
-/

namespace Peanut

open Relational Interleaving

/-! ### Errors of handlers -/

/-- An outcome that is no refusal of a suspended app. -/
def Unsuspended {α : Type} (x : Except ApiError α) : Prop :=
  ∀ e, x = .error e → ¬ e.IsSuspension

namespace Unsuspended

variable {α β σ : Type}

theorem ok (a : α) : Unsuspended (.ok a) := by
  intro e he
  cases he

theorem error {e : ApiError} (h : ¬ e.IsSuspension) :
    Unsuspended (.error e : Except ApiError α) := by
  intro e' he
  cases he
  exact h

theorem ensure {c : Bool} {e : ApiError} (h : ¬ e.IsSuspension) :
    Unsuspended (Outcome.ensure c e) := by
  cases c with
  | true => exact .ok ()
  | false => exact .error h

theorem require {x : Option α} {e : ApiError} (h : ¬ e.IsSuspension) :
    Unsuspended (Outcome.require x e) := by
  cases x with
  | some a => exact .ok a
  | none => exact .error h

variable {x : Except ApiError α}

theorem bind {f : α → Except ApiError β} (hx : Unsuspended x)
    (hf : ∀ a, Unsuspended (f a)) : Unsuspended (x >>= f) := by
  cases x with
  | ok a => exact hf a
  | error e => exact .error (hx e rfl)

theorem map (hx : Unsuspended x) (f : α → β) : Unsuspended (x.map f) := by
  cases x with
  | ok a => exact .ok (f a)
  | error e => exact .error (hx e rfl)

theorem mapError {δ : Type} {x : Except δ α} {f : δ → ApiError} (hf : ∀ d, ¬ (f d).IsSuspension) :
    Unsuspended (x.mapError f) := by
  cases x with
  | ok a => exact .ok a
  | error d => exact .error (hf d)

theorem proceed {s : σ} {next : α → σ × Except ApiError β}
    (hx : Unsuspended x) (hnext : ∀ a, Unsuspended (next a).2) :
    Unsuspended (Outcome.proceed s x next).2 := by
  cases x with
  | ok a => exact hnext a
  | error e => exact .error (hx e rfl)

end Unsuspended

theorem rejection_not_isSuspension (message : String) : ¬ (rejection message).IsSuspension := by
  simp [rejection, ApiError.IsSuspension]

theorem ioResponse_not_isSuspension (notFound : Option String) (shown : List IoErrorKind)
    (fallback : String) (e : IoError) :
    ¬ (ioResponse notFound shown fallback e).IsSuspension := by
  unfold ioResponse
  split
  · exact jsonError_not_isSuspension _ _
  · split
    · exact jsonError_not_isSuspension _ _
    · exact jsonError_not_isSuspension _ _

/-! ### The public handlers -/

theorem oauthCallbackCall_unsuspended {pf : Platform} {cipher : SecretCipher}
    {exchange : CodeExchange} {env : Env} (db : Db) (c : OAuthCallbackCall)
    (h : ∀ e, c.stage = .refused e → ¬ e.IsSuspension) :
    ∀ e, (c.step pf cipher exchange env db).2.stage = .refused e → ¬ e.IsSuspension := by
  have hchecks : Unsuspended (oauthStateChecks pf env db c) := by
    unfold oauthStateChecks
    refine .bind (.mapError (jsonError_not_isSuspension _)) fun provider => ?_
    refine .bind (.require (jsonError_not_isSuspension _ _)) fun stored => ?_
    exact .bind (.ensure (jsonError_not_isSuspension _ _)) fun _ => .ok _
  have hexchange : ∀ provider stateHash,
      Unsuspended (oauthExchangeChecks cipher exchange env db c provider stateHash) := by
    intro provider stateHash
    unfold oauthExchangeChecks
    refine .bind (.require (jsonError_not_isSuspension _ _)) fun row => ?_
    refine .bind (.ensure (jsonError_not_isSuspension _ _)) fun _ => ?_
    refine .bind (.mapError (jsonError_not_isSuspension _)) fun config => ?_
    refine .bind (.mapError (jsonError_not_isSuspension _)) fun userinfo => ?_
    exact .bind (.require (jsonError_not_isSuspension _ _)) fun email => .ok _
  have hfail : ∀ message e, (c.fail message).stage = .refused e → ¬ e.IsSuspension := by
    intro message e heq
    cases heq
    exact jsonError_not_isSuspension _ _
  intro e he
  unfold OAuthCallbackCall.step at he
  cases hstage : c.stage with
  | received =>
    rw [hstage] at he
    dsimp only at he
    split at he
    · rename_i e' herror
      cases he
      exact hchecks _ herror
    · cases he
  | matched provider stateHash =>
    rw [hstage] at he
    dsimp only at he
    split at he
    · rename_i e' herror
      cases he
      exact hexchange _ _ _ herror
    · cases he
  | exchanged login =>
    rw [hstage] at he
    dsimp only at he
    split at he
    · exact hfail _ e he
    · cases he
    · cases he
  | unknownIdentity login =>
    rw [hstage] at he
    dsimp only at he
    split at he
    · cases he
    · cases he
  | newcomer login =>
    rw [hstage] at he
    cases he
  | counted login isAdmin =>
    rw [hstage] at he
    dsimp only at he
    split at he
    · exact hfail _ e he
    · split at he
      · exact hfail _ e he
      · cases he
  | found login user =>
    rw [hstage] at he
    dsimp only at he
    split at he
    · exact hfail _ e he
    · cases he
  | linked login user =>
    rw [hstage] at he
    cases he
  | spent login user =>
    rw [hstage] at he
    dsimp only at he
    split at he
    · exact hfail _ e he
    · cases he
  | issued login user response =>
    rw [hstage] at he
    cases he
  | completed stateHash response =>
    rw [hstage] at he
    dsimp only at he
    rw [hstage] at he
    cases he
  | refused error =>
    rw [hstage] at he
    dsimp only at he
    exact h e he

theorem completeOAuthCallback_unsuspended (cfg : ServerConfig) (env : Env) (db : Db)
    (c : OAuthCallbackCall) (hstart : c.stage = .received) :
    Unsuspended (completeOAuthCallback cfg env db c hstart).2 := by
  have hrefused : ∀ e, (alone (OAuthCallbackCall.step cfg.platform cfg.cipher cfg.exchange) env 10
      db c).2.stage = .refused e → ¬ e.IsSuspension := by
    refine alone_rule (P := fun _ c => ∀ e, c.stage = .refused e → ¬ e.IsSuspension) ?_ 10 db c ?_
    · intro db c hc
      exact oauthCallbackCall_unsuspended db c hc
    · intro e he
      rw [hstart] at he
      cases he
  intro e he
  have hreply : (alone (OAuthCallbackCall.step cfg.platform cfg.cipher cfg.exchange) env 10
      db c).2.reply = some (.error e) := by
    rw [← he]
    exact (Option.some_get _).symm
  unfold OAuthCallbackCall.reply at hreply
  split at hreply
  · cases hreply
  · rename_i hstage
    cases hreply
    exact hrefused e hstage
  · cases hreply

theorem completeEmailConfirmation_unsuspended (cfg : ServerConfig) (env : Env) (db : Db)
    (appId rawToken : String) :
    Unsuspended (completeEmailConfirmation cfg env db appId rawToken).2 := by
  intro e he
  have hreply : (alone (ConfirmEmailCall.step cfg.platform) env 3 db
      ⟨appId, rawToken, .received⟩).2.reply = some (.error e) := by
    rw [completeEmailConfirmation] at he
    rw [← he, Option.some_get]
  cases hchecks : confirmEmailChecks cfg.platform env db appId rawToken with
  | error e' =>
    simp only [alone, ConfirmEmailCall.step, hchecks, ConfirmEmailCall.reply, Option.some.injEq,
      Except.error.injEq] at hreply
    rw [← hreply]
    have hplain : Unsuspended (confirmEmailChecks cfg.platform env db appId rawToken) :=
      .bind (.ensure (jsonError_not_isSuspension _ _)) fun _ =>
        .require (jsonError_not_isSuspension _ _)
    exact hplain e' hchecks
  | ok stored =>
    simp [alone, ConfirmEmailCall.step, hchecks, ConfirmEmailCall.reply] at hreply

theorem oauthStart_unsuspended (pf : Platform) (cipher : SecretCipher) (env : Env) (db : Db)
    (appId provider : String) (redirectTo : Option String) :
    Unsuspended (oauthStart pf cipher env db appId provider redirectTo).2 := by
  apply Unsuspended.proceed
  · refine .bind (.mapError (jsonError_not_isSuspension _)) fun provider => ?_
    refine .bind (.require (jsonError_not_isSuspension _ _)) fun row => ?_
    refine .bind (.ensure (jsonError_not_isSuspension _ _)) fun _ => ?_
    refine .bind (.mapError (jsonError_not_isSuspension _)) fun config => ?_
    exact .bind (.ensure (jsonError_not_isSuspension _ _)) fun _ => .ok _
  · rintro ⟨provider, config⟩
    dsimp only
    split
    · exact .error (jsonError_not_isSuspension _ _)
    · exact .bind (.ensure (jsonError_not_isSuspension _ _)) fun _ => .ok _

theorem putPresignedObject_unsuspended (dg : Digests) (sg : Signer) (s : StorageState) (os : Os)
    (appId bucket key token : String) (header : Option HeaderText) (body : List UInt8) :
    Unsuspended (putPresignedObject dg sg s os appId bucket key token header body).2 := by
  apply Unsuspended.proceed
  · exact .bind (.mapError (jsonError_not_isSuspension _)) fun claims =>
      .ensure (jsonError_not_isSuspension _ _)
  · intro _
    apply Unsuspended.proceed
    · exact .mapError (ioResponse_not_isSuspension _ _ _)
    · rintro ⟨metadata, storage⟩
      exact .ok _

theorem getPresignedObject_unsuspended (sg : Signer) (s : StorageState) (os : Os)
    (appId bucket key token : String) :
    Unsuspended (getPresignedObject sg s os appId bucket key token) := by
  refine .bind ?_ fun _ => .bind (.mapError (ioResponse_not_isSuspension _ _ _)) fun _ => .ok _
  exact .bind (.mapError (jsonError_not_isSuspension _)) fun claims =>
    .ensure (jsonError_not_isSuspension _ _)

/-- **No public route** refuses a request because of a suspension. -/
theorem publicHandle_unsuspended (cfg : ServerConfig) (env : Env) (os : Os) (s : StorageState)
    (r : HttpRequest) (handler : PublicHandler) (params : List String) :
    Unsuspended (publicHandle cfg env os s r handler params).2 := by
  have hfield : ∀ name, ¬ (missingField name).IsSuspension := by
    intro name
    exact rejection_not_isSuspension _
  have hanswer : ∀ {α : Type} {x : Except ApiError (Reply α)} (make : α → PublicBody),
      Unsuspended x → Unsuspended (answerAs make x) := by
    intro α x make hx
    exact hx.map _
  unfold publicHandle
  split
  · dsimp only
    exact hanswer _ (.bind (.ensure (jsonError_not_isSuspension _ _)) fun _ => .ok _)
  · dsimp only
    exact hanswer _ (oauthStart_unsuspended _ _ _ _ _ _ _)
  · refine .proceed (.require (hfield _)) fun code => ?_
    refine .proceed (.require (hfield _)) fun state => ?_
    dsimp only
    exact hanswer _ (completeOAuthCallback_unsuspended _ _ _ _ _)
  · refine .proceed (.require (hfield _)) fun token => ?_
    dsimp only
    exact hanswer _ (completeEmailConfirmation_unsuspended _ _ _ _ _)
  · refine .proceed (.require (hfield _)) fun token => ?_
    dsimp only
    exact hanswer _ (putPresignedObject_unsuspended _ _ _ _ _ _ _ _ _ _)
  · refine .proceed (.require (hfield _)) fun token => ?_
    dsimp only
    exact hanswer _ (getPresignedObject_unsuspended _ _ _ _ _ _ _)
  · exact .error (by simp [methodNotAllowed, ApiError.IsSuspension])
  · exact .error (rejection_not_isSuspension _)

theorem requireAllowed_unsuspended (allowed : List String) (value : Option String)
    (other missing : String) : Unsuspended (requireAllowed allowed value other missing) := by
  unfold requireAllowed
  split
  · exact .ok ()
  · split
    · exact .ensure (jsonError_not_isSuspension _ _)
    · exact .error (jsonError_not_isSuspension _ _)

theorem decodedParams_unsuspended (handler : PublicHandler) (params : List String) :
    Unsuspended (decodedParams handler params) := by
  unfold decodedParams
  split
  · exact .ok []
  · exact .require (rejection_not_isSuspension _)

theorem publicRoute_unsuspended (cfg : ServerConfig) (env : Env) (os : Os) (s : ServerState)
    (r : HttpRequest) (handler : PublicHandler) (params : List String) :
    Unsuspended (publicRoute cfg env os s r handler params).2 := by
  apply Unsuspended.proceed
  · exact .bind (requireAllowed_unsuspended _ _ _ _) fun _ => requireAllowed_unsuspended _ _ _ _
  · intro _
    refine .proceed (.ensure (jsonError_not_isSuspension _ _)) fun _ => ?_
    refine .proceed (decodedParams_unsuspended handler params) fun params => ?_
    exact publicHandle_unsuspended cfg env os _ r handler params

theorem elsewhereRoute_unsuspended {β : Type} (backends : Backends β) (env : Env) (os : Os)
    (s : ServerState) (r : HttpRequest) :
    Unsuspended (elsewhereRoute backends env os s r).2 :=
  .mapError fun e => e.property

/-! ### Which requests are refused -/

/-- The request is refused with a suspension error; the database and the objects are
    as they were, and an error has no token in it. -/
structure RefusedAsSuspended {γ : Type} (before : ServerState)
    (after : ServerState × Except ApiError γ) : Prop where
  refused : ∃ e, after.2 = .error e ∧ e.IsSuspension
  unchanged : after.1.state = before.state

variable {before s : ServerState}

theorem RefusedAsSuspended.not_of_unsuspended {γ : Type}
    {after : ServerState × Except ApiError γ} (h : Unsuspended after.2) :
    ¬ RefusedAsSuspended before after := by
  rintro ⟨⟨e, he, hsuspension⟩, -⟩
  exact h e he hsuspension

theorem RefusedAsSuspended.withBody_iff {α β : Type}
    {make : α → ServerBody β} {after : ServerState × Except ApiError (Reply α)} :
    RefusedAsSuspended before (withBody make after) ↔ RefusedAsSuspended before after := by
  obtain ⟨s, answer⟩ := after
  cases answer with
  | ok a =>
    apply iff_of_false
    · exact not_of_unsuspended (.ok _)
    · exact not_of_unsuspended (.ok a)
  | error e =>
    constructor
    · rintro ⟨⟨e', he, hsuspension⟩, hunchanged⟩
      cases he
      exact ⟨⟨e, rfl, hsuspension⟩, hunchanged⟩
    · rintro ⟨⟨e', he, hsuspension⟩, hunchanged⟩
      cases he
      exact ⟨⟨e, rfl, hsuspension⟩, hunchanged⟩

/-- The address has requests left in its minute. -/
def IsAdmitted (limits : RateLimits) (r : HttpRequest) : Prop :=
  (countRequest (limits.global r.clientIp) r.instant).isSome = true

/-- The request goes behind the layer of the SDK: to a handler, or to the answer that
    a path of the SDK has for other methods. -/
def GoesToSdk (r : HttpRequest) : Prop :=
  ∃ pattern handler, routeOf r = some (pattern, .sdk handler)

/-- The layer of the SDK refuses exactly what names a suspended app in its path,
    whatever was counted before it. -/
theorem sdkRoute_refused_iff {β : Type} (backends : Backends β) (env : Env) (os : Os)
    (hstate : s.state = before.state) {r : HttpRequest}
    {route : List PathPart × Destination} (hroute : routeOf r = some route)
    (handler : SdkHandler) (params : List String) :
    RefusedAsSuspended before (sdkRoute backends env os s r handler params) ↔
      IsSuspended s.state.db r.appSegment := by
  rw [sdkRoute, appIdFromSdkPath_of_route hroute, Outcome.require_some, Outcome.proceed_ok,
    ← sdkSuspensionResponse_isSome_iff]
  cases hresponse : sdkSuspensionResponse s.state.db r.appSegment with
  | some response =>
    exact iff_of_true ⟨⟨response, rfl, sdkSuspensionResponse_isSuspension hresponse⟩, hstate⟩
      rfl
  | none =>
    apply iff_of_false
    · apply RefusedAsSuspended.not_of_unsuspended
      exact .mapError fun e => e.property
    · exact Bool.false_ne_true

theorem refused_iff_of_unsuspended {α β : Type} {r : HttpRequest}
    {make : α → ServerBody β} {after : ServerState × Except ApiError (Reply α)}
    (hafter : Unsuspended after.2) (hroute : ¬ GoesToSdk r) :
    RefusedAsSuspended before (withBody make after) ↔
      GoesToSdk r ∧ IsSuspended s.state.db r.appSegment := by
  rw [RefusedAsSuspended.withBody_iff]
  apply iff_of_false
  · exact RefusedAsSuspended.not_of_unsuspended hafter
  · exact fun h => hroute h.1

theorem dispatch_refused_iff {β : Type} (cfg : ServerConfig) (backends : Backends β) (env : Env)
    (os : Os) (hstate : s.state = before.state) (r : HttpRequest) :
    RefusedAsSuspended before (dispatch cfg backends env os s r) ↔
      GoesToSdk r ∧ IsSuspended s.state.db r.appSegment := by
  unfold dispatch
  split
  · rename_i pattern handler hroute
    apply refused_iff_of_unsuspended
    · exact publicRoute_unsuspended cfg env os s r handler _
    · simp [GoesToSdk, hroute]
  · rename_i pattern handler hroute
    have hsdk : GoesToSdk r := ⟨pattern, handler, hroute⟩
    rw [RefusedAsSuspended.withBody_iff, sdkRoute_refused_iff backends env os hstate hroute]
    exact ⟨fun h => ⟨hsdk, h⟩, fun h => h.2⟩
  · rename_i pattern hroute
    apply refused_iff_of_unsuspended
    · exact elsewhereRoute_unsuspended backends env os s r
    · simp [GoesToSdk, hroute]
  · rename_i hroute
    apply refused_iff_of_unsuspended
    · exact elsewhereRoute_unsuspended backends env os s r
    · simp [GoesToSdk, hroute]

/-- **A request to a suspended app is refused** exactly if it is no `OPTIONS`, it goes to
    the SDK, its path writes the app as it is stored, and the limit of its address lets
    it through. -/
theorem suspended_refused_iff {β : Type} (cfg : ServerConfig) (backends : Backends β) (env : Env)
    (os : Os) (s : ServerState) (r : HttpRequest) :
    RefusedAsSuspended s (serve cfg backends env os s r) ↔
      r.method ≠ .options ∧ GoesToSdk r ∧ IsSuspended s.state.db r.appSegment ∧
        IsAdmitted s.limits r := by
  unfold serve
  split
  · rename_i hoptions
    apply iff_of_false
    · exact RefusedAsSuspended.not_of_unsuspended (.ok _)
    · rintro ⟨hmethod, -⟩
      exact hmethod hoptions
  · rename_i hmethod
    unfold rateLimit
    cases hcount : countRequest (s.limits.global r.clientIp) r.instant with
    | none =>
      apply iff_of_false
      · exact RefusedAsSuspended.not_of_unsuspended (.error (jsonError_not_isSuspension _ _))
      · rintro ⟨-, -, -, hadmitted⟩
        rw [IsAdmitted, hcount] at hadmitted
        cases hadmitted
    | some counter =>
      have hadmitted : IsAdmitted s.limits r := by
        rw [IsAdmitted, hcount]
        rfl
      dsimp only
      rw [Outcome.proceed_ok, dispatch_refused_iff cfg backends env os (by rfl) r]
      constructor
      · rintro ⟨hsdk, hsuspended⟩
        exact ⟨hmethod, hsdk, hsuspended, hadmitted⟩
      · rintro ⟨-, hsdk, hsuspended, -⟩
        exact ⟨hsdk, hsuspended⟩

/-! ### A login through a provider -/

/-- The app Dana logs in to is disabled. -/
def danaSuspended : StorageState :=
  { db := { danaAsked with
      workspaces := ⟨[{
        id := "default", name := "default", displayName := "Default", createdBy := none
        createdAt := "2026-01-01 00:00:00", updatedAt := "2026-01-01 00:00:00" }], by simp⟩
      apps := ⟨[{
        id := "default", name := "default", displayName := "Default", workspaceId := "default"
        createdBy := none, createdAt := "2026-01-01 00:00:00", updatedAt := "2026-01-01 00:00:00"
        deletedAt := none, disabledAt := some "2026-01-01 00:00:00" }], by simp⟩ }
    storage := {} }

/-- The provider sends Dana's browser back. -/
def danaReturns : HttpRequest :=
  { method := .get
    path := ["api", "apps", "default", "auth", "oauth", "google", "callback"]
    query := [("code", "code1"), ("state", "state")] }

/-- Nobody has credentials. -/
def missingToken : HandlerError :=
  ⟨jsonError .unauthorized "missing bearer token", jsonError_not_isSuspension _ _⟩

def noCredentials : Backends Unit where
  sdk := fun _ _ _ _ _ s => (s, .error missingToken)
  elsewhere := fun _ _ _ s => (s, .error missingToken)

/-- The answer to it; no object is read or signed on the way. -/
def danaAnswer : ServerState × Except ApiError (Reply (ServerBody Unit)) :=
  serve { platform := asciiPlatform, cipher := readableCipher, exchange := danaExchange
          digests := ⟨fun _ => "", fun _ => "", fun _ => ""⟩
          signer := ⟨id, fun claims => claims.key, fun _ => none⟩ }
    noCredentials (sampleEnv "b") { now := "2026-01-01T00:00:00+00:00", timestamp := 1767225600 }
    ⟨danaSuspended, {}⟩ danaReturns

/-- The app is disabled, and Dana gets her tokens. -/
theorem suspended_app_signs_in :
    IsSuspended danaSuspended.db danaReturns.appSegment ∧
      (routeOf danaReturns).map (·.2) = some (.authPublic .oauthCallback) ∧
      ¬ RefusedAsSuspended ⟨danaSuspended, {}⟩ danaAnswer ∧
      danaSuspended.db.refreshTokens.rows.length = 0 ∧
      danaAnswer.1.state.db.refreshTokens.rows.length = 1 := by
  have hsuspended : IsSuspended danaSuspended.db danaReturns.appSegment := by
    rw [← sdkSuspensionResponse_isSome_iff]
    decide
  have hsucceeded : Outcome.succeeded danaAnswer.2 = true := by
    decide +kernel
  have hroute : (routeOf danaReturns).map (·.2) = some (.authPublic .oauthCallback) := by
    decide +kernel
  have hissued : danaAnswer.1.state.db.refreshTokens.rows.length = 1 := by
    decide +kernel
  refine ⟨hsuspended, hroute, ?_, rfl, hissued⟩
  rintro ⟨⟨e, he, -⟩, -⟩
  rw [he] at hsucceeded
  cases hsucceeded

end Peanut
