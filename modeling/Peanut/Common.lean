import Peanut.Json

/-!
# Requests, replies and the platform

What every handler shares: the claims of the authenticated caller, the error
envelope of `api/common.rs`, and the functions the server takes from the
standard library or from third-party crates.  The latter are the fields of
`Platform`, so that every theorem holds for whatever they compute; a theorem
that relies on one of their documented laws says so.
-/

namespace Peanut

def DEFAULT_APP_ID : String := "default"

/-- The body of a bearer token. -/
structure Claims where
  sub : String
  appId : String
  exp : Int
  isAdmin : Bool
deriving DecidableEq, Repr

inductive StatusCode where
  | ok
  | created
  | accepted
  | noContent
  | found
  | badRequest
  | unauthorized
  | forbidden
  | notFound
  | methodNotAllowed
  | conflict
  | payloadTooLarge
  | tooManyRequests
  | badGateway
  | serviceUnavailable
  | internalServerError
deriving DecidableEq, Repr

def statusErrorCode : StatusCode → String
  | .badRequest => "bad_request"
  | .unauthorized => "unauthorized"
  | .forbidden => "forbidden"
  | .notFound => "not_found"
  | .conflict => "conflict"
  | .serviceUnavailable => "service_unavailable"
  | .internalServerError => "internal_server_error"
  | _ => "unknown_error"

/-- The error envelope; its `request_id` is drawn per request and never read.
    `details` holds the further members some errors carry. -/
structure ApiError where
  status : StatusCode
  code : String
  error : String
  details : List (String × Value) := []
deriving DecidableEq, Repr

def jsonErrorWithCode (status : StatusCode) (code message : String) : ApiError :=
  { status := status, code := code, error := message }

def jsonError (status : StatusCode) (message : String) : ApiError :=
  jsonErrorWithCode status (statusErrorCode status) message

/-- A successful answer. -/
structure Reply (α : Type) where
  status : StatusCode
  body : α
deriving DecidableEq, Repr

structure MessageResponse where
  message : String
deriving DecidableEq, Repr

def jsonMessage (status : StatusCode) (message : String) : Reply MessageResponse :=
  { status := status, body := { message := message } }

/-- The alphabet of stored names. -/
def isNameChar (c : Char) : Bool :=
  isAsciiLowercase c || isAsciiDigit c || c == '_' || c == '-'

theorem isWhitespace_of_isNameChar {c : Char} (h : isNameChar c = true) :
    isWhitespace c = false := by
  have hcode : 97 ≤ c.toNat ∧ c.toNat ≤ 122 ∨ 48 ≤ c.toNat ∧ c.toNat ≤ 57 ∨ c.toNat = 95 ∨
      c.toNat = 45 := by
    simp only [isNameChar, isAsciiLowercase, isAsciiDigit, Bool.or_eq_true, Bool.and_eq_true,
      decide_eq_true_eq, beq_iff_eq] at h
    rcases h with ((h | h) | rfl) | rfl
    · exact .inl h
    · exact .inr (.inl h)
    · exact .inr (.inr (.inl rfl))
    · exact .inr (.inr (.inr rfl))
  simp only [isWhitespace, Bool.or_eq_false_iff, Bool.and_eq_false_iff, decide_eq_false_iff_not,
    beq_eq_false_iff_ne]
  omega

/-- Functions of the standard library and of third-party crates that the
    modelled code calls.

    * `toLowercase`    `str::to_lowercase` (full Unicode tables), which leaves
                       lowercase ASCII text alone;
    * `parseRfc3339`   does `chrono::DateTime::parse_from_rfc3339` accept the text;
    * `parseF64`       `str::parse::<f64>`, the result given by its bits;
    * `exportChecksum` the hexadecimal SHA-256 of a serialised export payload;
    * `sha256Hex`      the hexadecimal SHA-256 of a text;
    * `hashPassword`   Argon2 of a password under a random salt, which may fail;
    * `verifyPassword` does a password match a stored hash;
    * `createJwt`      a signed token for the claims. -/
structure Platform where
  toLowercase : String → String
  toLowercase_name : ∀ s, charsAll isNameChar s = true → toLowercase s = s
  parseRfc3339 : String → Bool
  parseF64 : String → Option UInt64
  exportChecksum : Value → String
  sha256Hex : String → String
  hashPassword : String → String → Option String
  verifyPassword : String → String → Bool
  createJwt : Claims → String

def asciiToLower (c : Char) : Char := if isAsciiUppercase c then Char.ofNat (c.toNat + 32) else c

/-- `str::to_ascii_lowercase`. -/
def asciiLowercase (s : String) : String := String.ofList (s.toList.map asciiToLower)

theorem asciiToLower_of_isNameChar {c : Char} (h : isNameChar c = true) : asciiToLower c = c := by
  have hlower : isAsciiUppercase c = false := by
    simp only [isNameChar, isAsciiLowercase, isAsciiDigit, Bool.or_eq_true, Bool.and_eq_true,
      decide_eq_true_eq, beq_iff_eq] at h
    rcases h with ((h | h) | rfl) | rfl
    · simp only [isAsciiUppercase, Bool.and_eq_false_iff, decide_eq_false_iff_not]
      have : 'Z'.toNat = 90 := rfl
      have : 'a'.toNat = 97 := rfl
      omega
    · simp only [isAsciiUppercase, Bool.and_eq_false_iff, decide_eq_false_iff_not]
      have : 'A'.toNat = 65 := rfl
      have : '9'.toNat = 57 := rfl
      omega
    · rfl
    · rfl
  rw [asciiToLower, hlower]
  rfl

/-- The platform functions on ASCII text, with transparent stand-ins for the
    cryptographic ones: a hash that keeps its input readable, and no failures. -/
def asciiPlatform : Platform where
  toLowercase s := String.ofList (s.toList.map asciiToLower)
  toLowercase_name := by
    intro s h
    have hmap : s.toList.map asciiToLower = s.toList.map id :=
      List.map_congr_left fun c hc => asciiToLower_of_isNameChar (List.all_eq_true.mp h c hc)
    rw [hmap, List.map_id, String.ofList_toList]
  parseRfc3339 _ := false
  parseF64 _ := none
  exportChecksum _ := ""
  sha256Hex s := "#" ++ s
  hashPassword password _ := some ("$" ++ password)
  verifyPassword password hash := hash == "$" ++ password
  createJwt claims := claims.appId ++ "/" ++ claims.sub

/-- What one request draws from outside.

    * `now`               the value of `CURRENT_TIMESTAMP`;
    * `monthStart`, `nextMonthStart`  the current and the next month as
                          `usage_period_start` and `usage_reset_at` format them;
    * `uuid`              the successive results of `Uuid::new_v4`;
    * `token`             the successive results of `generate_opaque_token`;
    * `salt`              the salt of a password hash;
    * `accessExpiresAt`   now plus the lifetime of an access token, in seconds;
    * `refreshExpiresAt`  now plus the lifetime of a refresh token, as text;
    * `daysFromNow`       now plus some days, as text;
    * `secondsAgo`        now minus some seconds, as `datetime` writes it;
    * `nonce`             the successive nonces of `encrypt_secret`. -/
structure Env where
  now : String
  monthStart : String
  nextMonthStart : String
  uuid : Nat → String
  token : Nat → String
  salt : String
  accessExpiresAt : Int
  refreshExpiresAt : String
  daysFromNow : Int → String
  secondsAgo : Int → String
  nonce : Nat → String

/-- A fixed clock, and identifiers that start with the given text. -/
def sampleEnv (start : String) : Env :=
  { now := "2026-01-01 00:00:00", monthStart := "2026-01-01", nextMonthStart := "2026-02-01"
    uuid := fun n => start ++ toString n, token := fun n => start ++ "t" ++ toString n
    salt := "", accessExpiresAt := 0, refreshExpiresAt := "2026-01-31 00:00:00"
    daysFromNow := fun _ => "2026-12-31 00:00:00", secondsAgo := fun _ => "2025-12-31 23:59:00"
    nonce := fun n => toString n }

end Peanut
