import Peanut.Http.Public

/-!
# The data plane of an app

The routes below `/api/apps/{app_id}` that the clients of an app use: those of
`build_auth_public_routes`, which have no credentials, and those of
`build_sdk_routes`, which stand behind `sdk_auth_middleware`.  That layer is the one
place that looks at a suspension, and it looks at the app as the path writes it.
-/

namespace Peanut

open Relational Interleaving

/-! ### Routes -/

inductive PathPart where
  | lit (text : String)
  | param
  | rest
deriving DecidableEq, Repr

/-- A parameter takes one segment, and the rest of a path takes at least one. -/
def matchesPattern : List PathPart → List String → Bool
  | [], [] => true
  | [.rest], segment :: segments => segment != "" || !segments.isEmpty
  | .lit text :: pattern, segment :: segments => text == segment && matchesPattern pattern segments
  | .param :: pattern, segment :: segments => segment != "" && matchesPattern pattern segments
  | _, _ => false

/-- The handlers of the public routes; `methodNotAllowed` is what the router puts
    behind their layers for the other methods of their paths. -/
inductive PublicHandler where
  | getAuthPublicConfig
  | oauthStart
  | oauthCallback
  | confirmEmailVerification
  | putPresignedObject
  | getPresignedObject
  | methodNotAllowed
deriving DecidableEq, Repr

/-- The handlers of the SDK routes, and the answer to the other methods. -/
inductive SdkHandler where
  | register
  | login
  | refreshSession
  | logout
  | me
  | changePassword
  | forgotPassword
  | resetPassword
  | requestEmailVerification
  | listAuthSessions
  | revokeAllAuthSessions
  | revokeAuthSession
  | listAuthEvents
  | listDataTables
  | getDataTable
  | listDataRows
  | createDataRow
  | getDataRow
  | updateDataRow
  | deleteDataRow
  | streamDataEvents
  | listPushSubscriptions
  | createPushSubscription
  | deletePushSubscription
  | getVapidPublicKey
  | enqueuePushMessage
  | enqueuePushBatch
  | getPushMessageStatus
  | invokeFunction
  | listSdkObjects
  | getSdkObject
  | putSdkObject
  | deleteSdkObject
  | createPresignedUploadUrl
  | createPresignedDownloadUrl
  | createMultipartUpload
  | uploadMultipartPart
  | completeMultipartUpload
  | abortMultipartUpload
  | methodNotAllowed
deriving DecidableEq, Repr

/-- A route below `/api/apps/:app_id`; without a method it is one of `any`. -/
structure Route (η : Type) where
  method : Option HttpMethod
  pattern : List PathPart
  handler : η
deriving DecidableEq

/-- `get` answers `HEAD` as well. -/
def Route.accepts {η : Type} (route : Route η) (method : HttpMethod) : Bool :=
  match route.method with
  | none => true
  | some .get => method == .get || method == .head
  | some m => method == m

/-- `/apps/:app_id` and what follows. -/
def underApp (tail : List PathPart) : List PathPart := .lit "apps" :: .param :: tail

def bucketPath (tail : List PathPart) : List PathPart :=
  underApp (.lit "storage" :: .lit "buckets" :: .param :: tail)

def authPath (tail : List PathPart) : List PathPart := underApp (.lit "auth" :: tail)

def tablePath (tail : List PathPart) : List PathPart :=
  underApp (.lit "data" :: .lit "tables" :: tail)

def pushPath (tail : List PathPart) : List PathPart := underApp (.lit "push" :: tail)

def authPublicRoutes : List (Route PublicHandler) :=
  [⟨some .get, authPath [.lit "public-config"], .getAuthPublicConfig⟩,
    ⟨some .get, authPath [.lit "oauth", .param, .lit "start"], .oauthStart⟩,
    ⟨some .get, authPath [.lit "oauth", .param, .lit "callback"], .oauthCallback⟩,
    ⟨some .post, authPath [.lit "verify-email", .lit "confirm"], .confirmEmailVerification⟩,
    ⟨some .put, bucketPath [.lit "presigned-objects", .rest], .putPresignedObject⟩,
    ⟨some .get, bucketPath [.lit "presigned-objects", .rest], .getPresignedObject⟩]

def sdkRoutes : List (Route SdkHandler) :=
  [⟨some .post, authPath [.lit "register"], .register⟩,
    ⟨some .post, authPath [.lit "login"], .login⟩,
    ⟨some .post, authPath [.lit "refresh"], .refreshSession⟩,
    ⟨some .post, authPath [.lit "logout"], .logout⟩,
    ⟨some .get, authPath [.lit "me"], .me⟩,
    ⟨some .post, authPath [.lit "change-password"], .changePassword⟩,
    ⟨some .post, authPath [.lit "forgot-password"], .forgotPassword⟩,
    ⟨some .post, authPath [.lit "reset-password"], .resetPassword⟩,
    ⟨some .post, authPath [.lit "verify-email", .lit "request"], .requestEmailVerification⟩,
    ⟨some .get, authPath [.lit "sessions"], .listAuthSessions⟩,
    ⟨some .post, authPath [.lit "sessions", .lit "revoke-all"], .revokeAllAuthSessions⟩,
    ⟨some .delete, authPath [.lit "sessions", .param], .revokeAuthSession⟩,
    ⟨some .get, authPath [.lit "events"], .listAuthEvents⟩,
    ⟨some .get, tablePath [], .listDataTables⟩,
    ⟨some .get, tablePath [.param], .getDataTable⟩,
    ⟨some .get, tablePath [.param, .lit "rows"], .listDataRows⟩,
    ⟨some .post, tablePath [.param, .lit "rows"], .createDataRow⟩,
    ⟨some .get, tablePath [.param, .lit "rows", .param], .getDataRow⟩,
    ⟨some .patch, tablePath [.param, .lit "rows", .param], .updateDataRow⟩,
    ⟨some .delete, tablePath [.param, .lit "rows", .param], .deleteDataRow⟩,
    ⟨some .get, tablePath [.param, .lit "events", .lit "stream"], .streamDataEvents⟩,
    ⟨some .get, pushPath [.lit "subscriptions"], .listPushSubscriptions⟩,
    ⟨some .post, pushPath [.lit "subscriptions"], .createPushSubscription⟩,
    ⟨some .delete, pushPath [.lit "subscriptions", .param], .deletePushSubscription⟩,
    ⟨some .get, pushPath [.lit "vapid-public-key"], .getVapidPublicKey⟩,
    ⟨some .post, pushPath [.lit "messages"], .enqueuePushMessage⟩,
    ⟨some .post, pushPath [.lit "messages", .lit "batch"], .enqueuePushBatch⟩,
    ⟨some .get, pushPath [.lit "messages", .param], .getPushMessageStatus⟩,
    ⟨none, underApp [.lit "function-endpoints", .param], .invokeFunction⟩,
    ⟨some .get, bucketPath [.lit "objects"], .listSdkObjects⟩,
    ⟨some .get, bucketPath [.lit "objects", .rest], .getSdkObject⟩,
    ⟨some .put, bucketPath [.lit "objects", .rest], .putSdkObject⟩,
    ⟨some .delete, bucketPath [.lit "objects", .rest], .deleteSdkObject⟩,
    ⟨some .post, bucketPath [.lit "presign-upload"], .createPresignedUploadUrl⟩,
    ⟨some .post, bucketPath [.lit "presign-download"], .createPresignedDownloadUrl⟩,
    ⟨some .post, bucketPath [.lit "multipart", .lit "create"], .createMultipartUpload⟩,
    ⟨some .put, bucketPath [.lit "multipart", .param, .lit "parts", .param],
      .uploadMultipartPart⟩,
    ⟨some .post, bucketPath [.lit "multipart", .lit "complete"], .completeMultipartUpload⟩,
    ⟨some .post, bucketPath [.lit "multipart", .lit "abort"], .abortMultipartUpload⟩]

/-- The routes of `build_protected_routes` whose paths the SDK serves as well. -/
def sharedProtectedRoutes : List (Route Unit) :=
  [⟨some .post, tablePath [], ()⟩,
    ⟨some .patch, tablePath [.param], ()⟩,
    ⟨some .delete, tablePath [.param], ()⟩]

/-- Where a request on a path of the data plane goes. -/
inductive Destination where
  | authPublic (handler : PublicHandler)
  | sdk (handler : SdkHandler)
  | protectedGroup
deriving DecidableEq

/-- What a group answers where it has the path and not the method.  `layer` wraps
    this answer as it wraps the handlers of the group. -/
def Destination.fallback : Destination → Destination
  | .authPublic _ => .authPublic .methodNotAllowed
  | .sdk _ => .sdk .methodNotAllowed
  | .protectedGroup => .protectedGroup

/-- The groups in the order in which `build_app` nests them.  Of two patterns that fit
    a path, the one with the text comes first. -/
def dataPlaneRoutes : List (Route Destination) :=
  authPublicRoutes.map (fun r => ⟨r.method, r.pattern, .authPublic r.handler⟩) ++
    sdkRoutes.map (fun r => ⟨r.method, r.pattern, .sdk r.handler⟩) ++
    sharedProtectedRoutes.map (fun r => ⟨r.method, r.pattern, .protectedGroup⟩)

/-- The handler among the routes of one path: the one of the method, or else the answer
    of the group that was nested last. -/
def handlerOf (routes : List (Route Destination)) (method : HttpMethod) : Option Destination :=
  match routes.find? fun route => route.accepts method with
  | some route => some route.handler
  | none => routes.getLast?.map fun route => route.handler.fallback

/-- The pattern and the handler of a request: the path decides on the pattern, and then
    the method on the handler. -/
def routeOf (r : HttpRequest) : Option (List PathPart × Destination) :=
  match r.path with
  | "api" :: path => do
      let first ← dataPlaneRoutes.find? fun route => matchesPattern route.pattern path
      let handler ← handlerOf
        (dataPlaneRoutes.filter fun route => route.pattern == first.pattern) r.method
      return (first.pattern, handler)
  | _ => none

example : (routeOf { method := .get, path := ["api", "apps", "a", "auth", "login"] }).map (·.2) =
    some (.sdk .methodNotAllowed) := by
  decide +kernel

example : (routeOf { method := .put, path := ["api", "apps", "a", "data", "tables"] }).map (·.2) =
    some .protectedGroup := by
  decide +kernel

/-- The parameters of a path, not decoded. -/
def captured : List PathPart → List String → List String
  | .lit _ :: pattern, _ :: segments => captured pattern segments
  | .param :: pattern, segment :: segments => segment :: captured pattern segments
  | .rest :: _, segments => ["/".intercalate segments]
  | _, _ => []

/-- The app as the path writes it. -/
def HttpRequest.appSegment (r : HttpRequest) : String := (r.path.drop 2).headD ""

theorem dataPlaneRoutes_underApp :
    ∀ route ∈ dataPlaneRoutes, route.pattern.take 2 = [.lit "apps", .param] := by
  decide

theorem appSegment_of_route {r : HttpRequest} {route : List PathPart × Destination}
    (h : routeOf r = some route) :
    r.appSegment ≠ "" ∧ ∃ rest, r.path = "api" :: "apps" :: r.appSegment :: rest := by
  obtain ⟨first, path, hfirst, hmatches, hpath⟩ : ∃ first path, first ∈ dataPlaneRoutes ∧
      matchesPattern first.pattern path = true ∧ r.path = "api" :: path := by
    unfold routeOf at h
    split at h
    · rename_i path hpath
      obtain ⟨first, hfind, -⟩ := Option.bind_eq_some_iff.mp h
      have hmatches := List.find?_some hfind
      exact ⟨first, path, List.mem_of_find?_eq_some hfind, hmatches, hpath⟩
    · cases h
  have hpattern : first.pattern = .lit "apps" :: .param :: first.pattern.drop 2 := by
    rw [← List.take_append_drop 2 first.pattern, dataPlaneRoutes_underApp first hfirst]
    rfl
  rw [hpattern] at hmatches
  match path with
  | [] => cases hmatches
  | [segment] =>
    rw [matchesPattern] at hmatches
    simp [matchesPattern] at hmatches
  | segment :: appId :: rest =>
    simp only [matchesPattern, Bool.and_eq_true, beq_iff_eq, bne_iff_ne] at hmatches
    obtain ⟨rfl, hne, -⟩ := hmatches
    have hsegment : r.appSegment = appId := by rw [HttpRequest.appSegment, hpath]; rfl
    rw [hsegment]
    exact ⟨hne, rest, hpath⟩

theorem appIdFromSdkPath_of_route {r : HttpRequest} {route : List PathPart × Destination}
    (h : routeOf r = some route) : appIdFromSdkPath (r.path.drop 1) = some r.appSegment := by
  obtain ⟨hne, rest, hpath⟩ := appSegment_of_route h
  rw [hpath]
  simp [appIdFromSdkPath, hne]

/-! ### Handlers -/

/-- What the process is configured with, and the code of other crates it calls. -/
structure ServerConfig where
  policy : AuthPolicy := {}
  platform : Platform
  cipher : SecretCipher
  exchange : CodeExchange
  digests : Digests
  signer : Signer

structure ServerState where
  state : StorageState
  limits : RateLimits := {}

/-- An answer of the public routes. -/
inductive PublicBody where
  | config (body : AuthPublicConfigResponse)
  | location (url : String)
  | login (body : LoginResponse)
  | message (body : MessageResponse)
  | metadata (body : StorageObjectMetadata)
  | object (body : StoredObject)

/-- The body of an answer: none, one of the public routes, or one of the code that
    is not modelled here. -/
inductive ServerBody (β : Type) where
  | empty
  | authPublic (body : PublicBody)
  | other (body : β)

/-- A request whose parameters cannot be read. -/
def rejection (message : String) : ApiError :=
  { status := .badRequest, code := "", error := message }

/-- An answer with its body in the sum of the bodies. -/
def answerAs {α : Type} (make : α → PublicBody) (answer : Except ApiError (Reply α)) :
    Except ApiError (Reply PublicBody) :=
  answer.map fun reply => { status := reply.status, body := make reply.body }

/-- The statements a callback has before it at most. -/
def OAuthStage.remaining : OAuthStage → Nat
  | .received => 10
  | .matched .. => 9
  | .exchanged .. => 8
  | .unknownIdentity .. => 7
  | .newcomer .. => 6
  | .counted .. => 5
  | .found .. => 4
  | .linked .. => 3
  | .spent .. => 2
  | .issued .. => 1
  | .completed .. => 0
  | .refused .. => 0

theorem OAuthCallbackCall.remaining_step (pf : Platform) (cipher : SecretCipher)
    (exchange : CodeExchange) (env : Env) (db : Db) (c : OAuthCallbackCall) :
    (c.step pf cipher exchange env db).2.stage.remaining ≤ c.stage.remaining - 1 := by
  obtain ⟨appId, provider, code, state, stage⟩ := c
  cases stage <;> simp only [step] <;> repeat' split
  all_goals simp [OAuthStage.remaining, fail]

theorem OAuthCallbackCall.reply_alone (pf : Platform) (cipher : SecretCipher)
    (exchange : CodeExchange) (env : Env) (n : Nat) (db : Db) (c : OAuthCallbackCall)
    (hn : c.stage.remaining ≤ n) :
    (alone (OAuthCallbackCall.step pf cipher exchange) env n db c).2.reply.isSome = true := by
  induction n generalizing db c with
  | zero =>
    obtain ⟨appId, provider, code, state, stage⟩ := c
    rw [Nat.le_zero] at hn
    cases stage with
    | completed stateHash response => rfl
    | refused error => rfl
    | _ => cases hn
  | succ n ih =>
    rw [alone_succ]
    apply ih
    have hstep := remaining_step pf cipher exchange env db c
    omega

/-- `oauth_callback`, to its end. -/
def completeOAuthCallback (cfg : ServerConfig) (env : Env) (db : Db) (c : OAuthCallbackCall)
    (hstart : c.stage = .received) : Db × Except ApiError (Reply LoginResponse) :=
  let after := alone (OAuthCallbackCall.step cfg.platform cfg.cipher cfg.exchange) env 10 db c
  (after.1, after.2.reply.get (OAuthCallbackCall.reply_alone _ _ _ env 10 db c
    (hstart ▸ Nat.le_refl 10)))

theorem ConfirmEmailCall.reply_alone (pf : Platform) (env : Env) (db : Db)
    (appId rawToken : String) :
    (alone (ConfirmEmailCall.step pf) env 3 db ⟨appId, rawToken, .received⟩).2.reply.isSome =
      true := by
  cases hchecks : confirmEmailChecks pf env db appId rawToken with
  | error e => simp [alone, step, hchecks, reply]
  | ok stored => simp [alone, step, hchecks, reply]

/-- `confirm_email_verification`, to its end. -/
def completeEmailConfirmation (cfg : ServerConfig) (env : Env) (db : Db)
    (appId rawToken : String) : Db × Except ApiError (Reply MessageResponse) :=
  let after := alone (ConfirmEmailCall.step cfg.platform) env 3 db ⟨appId, rawToken, .received⟩
  (after.1, after.2.reply.get (ConfirmEmailCall.reply_alone cfg.platform env db appId rawToken))

def missingField (name : String) : ApiError :=
  rejection ("Failed to deserialize query string: missing field `" ++ name ++ "`")

/-- The header as the parser hands it on, without surrounding white space. -/
def headerText (value : String) : HeaderText := ⟨trim value, trim_trim value⟩

/-- The answer of the router itself, which has no body. -/
def methodNotAllowed : ApiError := { status := .methodNotAllowed, code := "", error := "" }

/-- A public route with its parameters, decoded. -/
def publicHandle (cfg : ServerConfig) (env : Env) (os : Os) (s : StorageState) (r : HttpRequest) :
    PublicHandler → List String → StorageState × Except ApiError (Reply PublicBody)
  | .getAuthPublicConfig, [appId] =>
      (s, answerAs .config (getAuthPublicConfig s.db appId))
  | .oauthStart, [appId, provider] =>
      let after := oauthStart cfg.platform cfg.cipher env s.db appId provider
        (r.queryValue "redirect_to")
      ({ s with db := after.1 }, answerAs .location after.2)
  | .oauthCallback, [appId, provider] =>
      Outcome.proceed s (Outcome.require (r.queryValue "code") (missingField "code")) fun code =>
      Outcome.proceed s (Outcome.require (r.queryValue "state") (missingField "state")) fun state =>
      let after := completeOAuthCallback cfg env s.db ⟨appId, provider, code, state, .received⟩ rfl
      ({ s with db := after.1 }, answerAs .login after.2)
  | .confirmEmailVerification, [appId] =>
      Outcome.proceed s (Outcome.require (r.queryValue "token") (missingField "token")) fun token =>
      let after := completeEmailConfirmation cfg env s.db appId token
      ({ s with db := after.1 }, answerAs .message after.2)
  | .putPresignedObject, [appId, bucket, key] =>
      Outcome.proceed s
        (Outcome.require (r.queryValue "presign_token") (missingField "presign_token")) fun token =>
      let after := putPresignedObject cfg.digests cfg.signer s os appId bucket key token
        (r.contentType.map headerText) r.body
      (after.1, answerAs .metadata after.2)
  | .getPresignedObject, [appId, bucket, key] =>
      Outcome.proceed s
        (Outcome.require (r.queryValue "presign_token") (missingField "presign_token")) fun token =>
      (s, answerAs .object (getPresignedObject cfg.signer s os appId bucket key token))
  | .methodNotAllowed, _ => (s, .error methodNotAllowed)
  | _, _ => (s, .error (rejection "Invalid URL: wrong number of path arguments"))

/-! ### The server -/

/-- An error of the code that is not modelled here: the codes of a suspension belong to
    `sdk_suspension_response` alone. -/
abbrev HandlerError := { e : ApiError // ¬ e.IsSuspension }

/-- The code of the server outside this model: what stands behind the suspension check
    of the SDK (the authentication, the quota of requests and the handlers), and what
    answers on the other paths and in the protected group. -/
structure Backends (β : Type) where
  sdk : SdkHandler → HttpRequest → List String → Env → Os → ServerState →
    ServerState × Except HandlerError (Reply β)
  elsewhere : HttpRequest → Env → Os → ServerState → ServerState × Except HandlerError (Reply β)

/-- `sdk_auth_middleware` in front of it. -/
def sdkRoute {β : Type} (backends : Backends β) (env : Env) (os : Os) (s : ServerState)
    (r : HttpRequest) (handler : SdkHandler) (params : List String) :
    ServerState × Except ApiError (Reply β) :=
  Outcome.proceed s (Outcome.require (appIdFromSdkPath (r.path.drop 1))
      (jsonError .badRequest "app_id is required")) fun appId =>
    match sdkSuspensionResponse s.state.db appId with
    | some response => (s, .error response)
    | none =>
        let after := backends.sdk handler r params env os s
        (after.1, after.2.mapError (·.val))

/-- The parameters of a handler, decoded; the answer of the router reads none. -/
def decodedParams (handler : PublicHandler) (params : List String) :
    Except ApiError (List String) :=
  if handler = .methodNotAllowed then .ok []
  else Outcome.require (params.mapM percentDecode)
    (rejection "Invalid URL: Invalid UTF-8 in path")

/-- The layers of the public routes, and the handler behind them. -/
def publicRoute (cfg : ServerConfig) (env : Env) (os : Os) (s : ServerState) (r : HttpRequest)
    (handler : PublicHandler) (params : List String) :
    ServerState × Except ApiError (Reply PublicBody) :=
  Outcome.proceed s (authClientPolicy cfg.policy r) fun () =>
    let counted := authRateLimit s.limits r
    let s : ServerState := { s with limits := counted.1 }
    Outcome.proceed s counted.2 fun () =>
    Outcome.proceed s (decodedParams handler params) fun params =>
      let after := publicHandle cfg env os s.state r handler params
      ({ s with state := after.1 }, after.2)

/-- What is routed neither to the public routes nor to the SDK. -/
def elsewhereRoute {β : Type} (backends : Backends β) (env : Env) (os : Os) (s : ServerState)
    (r : HttpRequest) : ServerState × Except ApiError (Reply β) :=
  let after := backends.elsewhere r env os s
  (after.1, after.2.mapError (·.val))

/-- The answer of one part of the server as an answer of the server. -/
def withBody {α β : Type} (make : α → ServerBody β)
    (after : ServerState × Except ApiError (Reply α)) :
    ServerState × Except ApiError (Reply (ServerBody β)) :=
  (after.1, after.2.map fun reply => { status := reply.status, body := make reply.body })

/-- The routes behind the layers of the whole server. -/
def dispatch {β : Type} (cfg : ServerConfig) (backends : Backends β) (env : Env) (os : Os)
    (s : ServerState) (r : HttpRequest) :
    ServerState × Except ApiError (Reply (ServerBody β)) :=
  match routeOf r with
  | some (pattern, .authPublic handler) =>
      withBody .authPublic
        (publicRoute cfg env os s r handler (captured pattern (r.path.drop 1)))
  | some (pattern, .sdk handler) =>
      withBody .other (sdkRoute backends env os s r handler (captured pattern (r.path.drop 1)))
  | some (_, .protectedGroup) => withBody .other (elsewhereRoute backends env os s r)
  | none => withBody .other (elsewhereRoute backends env os s r)

/-- `build_app`.  The outermost layer is the one of CORS: it answers every `OPTIONS`
    itself, and nothing behind it sees the request.  The next one counts the requests of
    the address. -/
def serve {β : Type} (cfg : ServerConfig) (backends : Backends β) (env : Env) (os : Os)
    (s : ServerState) (r : HttpRequest) :
    ServerState × Except ApiError (Reply (ServerBody β)) :=
  if r.method = .options then (s, .ok { status := .ok, body := .empty })
  else
    let counted := rateLimit s.limits r
    let s : ServerState := { s with limits := counted.1 }
    Outcome.proceed s counted.2 fun () => dispatch cfg backends env os s r

end Peanut
