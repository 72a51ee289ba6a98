import Peanut.Auth.OneTimeTokens
import Peanut.Http.Suspension
import Peanut.Storage.Requests
import Mathlib.Data.List.Sort

/-!
# The routes without credentials

`build_auth_public_routes` of `app.rs`: what an app tells its sign-in page, the two
ends of a login through a provider, the confirmation of an address and the objects
behind presigned URLs.  None of the handlers looks at a suspension.
-/

namespace Peanut

open Relational Interleaving

/-! ### What a sign-in page needs to know -/

structure AuthPublicProviderConfig where
  provider : String
  clientId : Option String
  redirectUri : Option String
  config : Value
deriving DecidableEq, Repr

structure AuthPublicConfigResponse where
  appId : String
  providers : List AuthPublicProviderConfig
deriving DecidableEq, Repr

/-- The enabled providers of an app, by name. -/
def fetchEnabledProviderRows (db : Db) (appId : String) : List AuthProviderConfig :=
  (db.authProviderConfigs.select fun row => row.appId == appId && row.enabled).insertionSort
    fun a b => strLt b.provider a.provider = false

def getAuthPublicConfig (db : Db) (appId : String) :
    Except ApiError (Reply AuthPublicConfigResponse) := do
  Outcome.ensure (appExists db appId) (jsonError .notFound "app not found")
  return { status := .ok
           body := { appId := appId
                     providers := (fetchEnabledProviderRows db appId).map fun row =>
                       { provider := row.provider, clientId := row.clientId
                         redirectUri := row.redirectUri, config := row.config } } }

/-! ### The start of a login -/

def stringArray (config : Value) (key : String) : List String :=
  let values := ((config.member key).bind Value.asArray).getD []
  ((values.filterMap Value.asStr).map trim).filter (· != "")

def trimEndSlashes (s : String) : String :=
  String.ofList (s.toList.reverse.dropWhile (· == '/')).reverse

/-- The scheme and what follows `://`. -/
def splitScheme : List Char → List Char → Option (List Char × List Char)
  | scheme, ':' :: '/' :: '/' :: rest => some (scheme.reverse, rest)
  | scheme, c :: rest => splitScheme (c :: scheme) rest
  | _, [] => none

def redirectOrigin (url : String) : Option String := do
  let (scheme, rest) ← splitScheme [] url.toList
  let scheme := String.ofList scheme
  if scheme != "http" && scheme != "https" then none
  else
    let authority := trim (String.ofList (rest.takeWhile (· != '/')))
    if authority == "" then none else some (scheme ++ "://" ++ trimEndSlashes authority)

def redirectToAllowed (config : Value) (redirectTo : String) : Bool :=
  let redirectTo := trim redirectTo
  if redirectTo == "" then false
  else if (stringArray config "allowed_redirect_urls").contains redirectTo then true
  else
    match redirectOrigin redirectTo with
    | none => false
    | some origin =>
        (stringArray config "allowed_redirect_origins").any fun allowed =>
          trimEndSlashes allowed == origin

def hexUpper (n : Nat) : Char := Char.ofNat (if n < 10 then 48 + n else 55 + n)

def urlEncodeByte (byte : UInt8) : List Char :=
  let c := Char.ofNat byte.toNat
  if isAsciiUppercase c || isAsciiLowercase c || isAsciiDigit c || c == '-' || c == '_' ||
      c == '.' || c == '~' then [c]
  else ['%', hexUpper (byte.toNat / 16), hexUpper (byte.toNat % 16)]

def urlEncode (value : String) : String := String.ofList ((asBytes value).flatMap urlEncodeByte)

/-- `HeaderValue::from_str`: visible ASCII and tabs. -/
def isHeaderValue (s : String) : Bool :=
  charsAll (fun c => decide (32 ≤ c.toNat ∧ c.toNat < 127) || c == '\t') s

/-- The provider, its configuration and the target of the redirect. -/
def oauthStartChecks (cipher : SecretCipher) (db : Db) (appId provider : String)
    (redirectTo : Option String) : Except ApiError (String × OidcProviderRuntimeConfig) := do
  let provider ← (normalizeProvider provider).mapError (jsonError .badRequest)
  let row ← Outcome.require (fetchProviderRow db appId provider)
    (jsonError .notFound "auth provider not found")
  Outcome.ensure row.enabled (jsonError .conflict "auth provider is disabled")
  let config ← (oidcRuntimeConfig cipher row).mapError (jsonError .badRequest)
  Outcome.ensure (redirectTo.all (redirectToAllowed row.config))
    (jsonError .badRequest "redirect_to is not allowed")
  return (provider, config)

def oauthRedirectUrl (config : OidcProviderRuntimeConfig) (oauthState : String) : String :=
  config.authorizationEndpoint ++ "?response_type=code&client_id=" ++ urlEncode config.clientId ++
    "&redirect_uri=" ++ urlEncode config.redirectUri ++ "&scope=" ++
    urlEncode (" ".intercalate config.scopes) ++ "&state=" ++ urlEncode oauthState

/-- `INSERT INTO oauth_states`. -/
def Db.insertOAuthState (db : Db) (s : OAuthState) : Option Db :=
  if db.apps.hasKey s.appId then
    (db.oauthStates.insert? s).map fun states => { db with oauthStates := states }
  else none

def oauthStart (pf : Platform) (cipher : SecretCipher) (env : Env) (db : Db)
    (appId provider : String) (redirectTo : Option String) :
    Db × Except ApiError (Reply String) :=
  Outcome.proceed db (oauthStartChecks cipher db appId provider redirectTo)
    fun (provider, config) =>
      match db.insertOAuthState
          { stateHash := hashOpaqueToken pf (env.token 0), appId := appId, provider := provider
            redirectTo := redirectTo, expiresAt := env.secondsAgo (-600) } with
      | none => (db, .error (jsonError .internalServerError "failed to create oauth state"))
      | some db =>
          let url := oauthRedirectUrl config (env.token 0)
          (db, do
            Outcome.ensure (isHeaderValue url)
              (jsonError .internalServerError "invalid oauth redirect url")
            return { status := .found, body := url })

/-! ### Presigned downloads -/

/-- `get_object`. -/
def LocalStorage.getObject (st : LocalStorage) (os : Os) (bucket : Namespace) (key : String) :
    Except IoError StoredObject := do
  let path ← resolveObjectPath bucket key
  LocalStorage.refusal os.readError
  Outcome.require (st.objects.find? path)
    { kind := .notFound, message := "No such file or directory (os error 2)" }

def presignedDownloadChecks (sg : Signer) (os : Os) (appId bucket key token : String) :
    Except ApiError Unit := do
  let claims ← (verifyPresignToken sg os token appId bucket key "download").mapError
    (jsonError .unauthorized)
  Outcome.ensure (claims.operation == "download")
    (jsonError .forbidden "presigned token is not valid for download")

def getPresignedObject (sg : Signer) (s : StorageState) (os : Os)
    (appId bucket key token : String) : Except ApiError (Reply StoredObject) := do
  presignedDownloadChecks sg os appId bucket key token
  let object ← (s.storage.getObject os ⟨appId, bucket⟩ key).mapError
    (ioResponse (some "object not found") [.invalidInput] "failed to read object")
  return { status := .ok, body := object }

end Peanut
