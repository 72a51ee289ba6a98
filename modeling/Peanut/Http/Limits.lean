import Peanut.Common
import Peanut.Library.Outcome

/-!
# The layers in front of the handlers

`middleware/rate_limit.rs` and `middleware/auth_client_policy.rs`: how many requests
an address may send, and which origins and clients may use the public routes of the
authentication.  Instants are in milliseconds.
-/

namespace Peanut

/-! ### A request -/

/-- The methods the routes name; `other` is any other, `TRACE` or an extension. -/
inductive HttpMethod where
  | get
  | head
  | post
  | put
  | patch
  | delete
  | options
  | other (name : String)
deriving DecidableEq, Repr

/-- A request as it arrives: `path` is the path between its slashes, not decoded;
    the query is decoded. -/
structure HttpRequest where
  method : HttpMethod
  path : List String
  query : List (String × String) := []
  clientIp : String := ""
  instant : Nat := 0
  origin : Option String := none
  clientId : Option String := none
  contentType : Option String := none
  apiKey : Option String := none
  authorization : Option String := none
  body : List UInt8 := []

def HttpRequest.queryValue (r : HttpRequest) (name : String) : Option String :=
  (r.query.find? fun pair => pair.1 == name).map (·.2)

/-! ### Counters -/

/-- The counters of the addresses: requests and the start of their minute, and the
    attempts at the public routes of the last minute. -/
structure RateLimits where
  global : String → Option (Nat × Nat) := fun _ => none
  auth : String → List Nat := fun _ => []

def AUTH_RATE_LIMIT_WINDOW : Nat := 60000

def AUTH_RATE_LIMIT_MAX_REQUESTS : Nat := 10

/-- The counter of an address after a request at this instant; `none` when it is full. -/
def countRequest (counter : Option (Nat × Nat)) (now : Nat) : Option (Nat × Nat) :=
  let (count, lastReset) := counter.getD (0, now)
  if 60000 < now - lastReset then some (1, now)
  else if 100 ≤ count then none
  else some (count + 1, lastReset)

def rateLimit (limits : RateLimits) (r : HttpRequest) : RateLimits × Except ApiError Unit :=
  match countRequest (limits.global r.clientIp) r.instant with
  | none =>
      (limits, .error
        (jsonError .tooManyRequests "Too many requests. Please try again later."))
  | some counter =>
      ({ limits with global := Function.update limits.global r.clientIp (some counter) }, .ok ())

/-- `record_auth_attempt`: the attempts that still count, and whether there is room
    for one more. -/
def recordAuthAttempt (attempts : List Nat) (now : Nat) : List Nat × Bool :=
  let attempts := attempts.dropWhile fun attempt => decide (AUTH_RATE_LIMIT_WINDOW < now - attempt)
  if AUTH_RATE_LIMIT_MAX_REQUESTS ≤ attempts.length then (attempts, false)
  else (attempts ++ [now], true)

def authRateLimit (limits : RateLimits) (r : HttpRequest) : RateLimits × Except ApiError Unit :=
  let (attempts, admitted) := recordAuthAttempt (limits.auth r.clientIp) r.instant
  ({ limits with auth := Function.update limits.auth r.clientIp attempts },
    Outcome.ensure admitted (jsonError .tooManyRequests
      "Too many authentication requests. Please try again later."))

/-! ### Clients -/

/-- The settings of the server that the layers read. -/
structure AuthPolicy where
  allowedOrigins : List String := []
  allowedClientIds : List String := []

/-- A header must hold one of the allowed values, if there are any. -/
def requireAllowed (allowed : List String) (value : Option String) (other missing : String) :
    Except ApiError Unit :=
  if allowed.isEmpty then .ok ()
  else
    match value with
    | some value => Outcome.ensure (allowed.contains value) (jsonError .forbidden other)
    | none => .error (jsonError .forbidden missing)

def requireAllowedOrigin (policy : AuthPolicy) (r : HttpRequest) : Except ApiError Unit :=
  requireAllowed policy.allowedOrigins r.origin "origin is not allowed for auth routes"
    "origin header is required for auth routes"

def requireAllowedClientId (policy : AuthPolicy) (r : HttpRequest) : Except ApiError Unit :=
  requireAllowed policy.allowedClientIds r.clientId "client id is not allowed for auth routes"
    "x-peanut-client-id header is required for auth routes"

def authClientPolicy (policy : AuthPolicy) (r : HttpRequest) : Except ApiError Unit := do
  requireAllowedOrigin policy r
  requireAllowedClientId policy r

end Peanut
