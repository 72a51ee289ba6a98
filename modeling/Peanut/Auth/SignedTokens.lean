import Peanut.Storage.Requests

/-!
# Tokens signed with one secret

The bearer tokens of `auth/jwt.rs` and the presigned URLs of `api/storage/presign.rs`
carry an HMAC under the same secret.  What is signed differs: the header and the
payload of a bearer token with a dot between them, the claims of a URL without one.
-/

namespace Peanut

open Relational

/-- What the server signs with, and the formats of its tokens.

    * `mac`           HMAC-SHA-256 under the secret;
    * `hexEncode`     `hex::encode`;
    * `base64Encode`, `base64Decode`  the URL-safe Base64 of bytes;
    * `encodeClaims`, `decodeClaims`  the URL-safe Base64 of the JSON of presign claims;
    * `encodeJwtClaims`, `decodeJwtClaims`  the same of the claims of a bearer token;
    * `jwtHeader`     the Base64 of `Header::default()`, and `headerAlgorithm` what a header
                      names as its algorithm. -/
structure TokenKey where
  mac : String → List UInt8
  hexEncode : List UInt8 → String
  base64Encode : List UInt8 → String
  base64Decode : String → Option (List UInt8)
  encodeClaims : PresignClaims → String
  decodeClaims : String → Option PresignClaims
  encodeJwtClaims : Claims → String
  decodeJwtClaims : String → Option Claims
  jwtHeader : String
  headerAlgorithm : String → Option String

namespace TokenKey

/-- `sign_payload` and the encodings of presigned URLs. -/
def signer (k : TokenKey) : Signer where
  signPayload payload := k.hexEncode (k.mac payload)
  encodeClaims := k.encodeClaims
  decodeClaims := k.decodeClaims

/-- What the MAC of a bearer token is taken over. -/
def jwtMessage (k : TokenKey) (claims : Claims) : String :=
  k.jwtHeader ++ "." ++ k.encodeJwtClaims claims

/-- `create_app_jwt`. -/
def createAppJwt (k : TokenKey) (claims : Claims) : String :=
  k.jwtMessage claims ++ "." ++ k.base64Encode (k.mac (k.jwtMessage claims))

end TokenKey

inductive JwtError where
  | invalidToken
  | invalidAlgorithm
  | invalidSignature
  | invalidPayload
  | expiredSignature
deriving DecidableEq, Repr

/-- The leeway of `Validation::default()`, in seconds. -/
def JWT_LEEWAY : Int := 60

/-- `verify_jwt`, as `jsonwebtoken::decode` takes a token apart: from its end. -/
def verifyJwt (k : TokenKey) (timestamp : Int) (token : String) : Except JwtError Claims := do
  let (message, signature) ← Outcome.require (rsplitOnce '.' token) .invalidToken
  let (header, payload) ← Outcome.require (rsplitOnce '.' message) .invalidToken
  let algorithm ← Outcome.require (k.headerAlgorithm header) .invalidToken
  Outcome.ensure (algorithm == "HS256") .invalidAlgorithm
  Outcome.ensure (k.base64Decode signature == some (k.mac message)) .invalidSignature
  let claims ← Outcome.require (k.decodeJwtClaims payload) .invalidPayload
  Outcome.ensure (decide (timestamp - JWT_LEEWAY ≤ claims.exp)) .expiredSignature
  return claims

/-! ### Runs -/

/-- A token the server issues. -/
inductive Issue where
  | jwt (claims : Claims)
  | url (os : Os) (appId bucket key operation : String)
deriving DecidableEq

/-- The claims of a presigned URL. -/
def presignClaims (os : Os) (appId bucket key operation : String) : PresignClaims :=
  { appId := appId, bucket := bucket, key := key, operation := operation
    exp := os.timestamp + 60 * PRESIGN_TOKEN_TTL_MINUTES }

namespace Issue

def token (k : TokenKey) : Issue → String
  | .jwt claims => k.createAppJwt claims
  | .url os appId bucket key operation =>
      (issuePresignedUrl k.signer os appId bucket key operation).token

/-- What the server takes the MAC of. -/
def message (k : TokenKey) : Issue → String
  | .jwt claims => k.jwtMessage claims
  | .url os appId bucket key operation =>
      k.encodeClaims (presignClaims os appId bucket key operation)

end Issue

/-- What a token says it is, by its place in the run: only the server can compute a MAC,
    so text that comes with its MAC has been signed. -/
def Unforged (k : TokenKey) (issues : List Issue) (token : String) : Prop :=
  ∀ message, token = message ++ "." ++ k.hexEncode (k.mac message) →
    message ∈ issues.map (Issue.message k)

/-- The encodings: what is issued reads back, and none of them uses a dot. -/
structure TokenKey.Faithful (k : TokenKey) (issues : List Issue) : Prop where
  decode : ∀ os appId bucket key operation, .url os appId bucket key operation ∈ issues →
    k.decodeClaims (k.encodeClaims (presignClaims os appId bucket key operation)) =
      some (presignClaims os appId bucket key operation)
  claims : ∀ claims, '.' ∉ (k.encodeClaims claims).toList
  hex : ∀ bytes, '.' ∉ (k.hexEncode bytes).toList
  header : '.' ∉ k.jwtHeader.toList

section Tokens

variable {k : TokenKey} {issues : List Issue}

theorem presignToken_eq (os : Os) (appId bucket key operation : String) :
    (issuePresignedUrl k.signer os appId bucket key operation).token =
      k.encodeClaims (presignClaims os appId bucket key operation) ++ "." ++
        k.hexEncode (k.mac (k.encodeClaims (presignClaims os appId bucket key operation))) := rfl

/-- What is checked of a presigned token that is accepted. -/
structure PresignAccepted (k : TokenKey) (os : Os) (token appId bucket key operation : String)
    (encoded : String) (claims : PresignClaims) : Prop where
  signed : token = encoded ++ "." ++ k.hexEncode (k.mac encoded)
  dotless : '.' ∉ encoded.toList
  decoded : k.decodeClaims encoded = some claims
  request : claims.appId = appId ∧ claims.bucket = bucket ∧ claims.key = key ∧
    claims.operation = operation
  unexpired : os.timestamp ≤ claims.exp

theorem verifyPresignToken_eq_ok {os : Os} {token appId bucket key operation : String}
    {claims : PresignClaims}
    (h : verifyPresignToken k.signer os token appId bucket key operation = .ok claims) :
    ∃ encoded, PresignAccepted k os token appId bucket key operation encoded claims := by
  obtain ⟨⟨encoded, signature⟩, hsplit, h⟩ := Outcome.bind_eq_ok.mp h
  obtain ⟨⟨⟩, hsignature, h⟩ := Outcome.bind_eq_ok.mp h
  obtain ⟨claims', hdecode, h⟩ := Outcome.bind_eq_ok.mp h
  obtain ⟨⟨⟩, hmatch, h⟩ := Outcome.bind_eq_ok.mp h
  obtain ⟨⟨⟩, hoperation, h⟩ := Outcome.bind_eq_ok.mp h
  obtain ⟨⟨⟩, hexp, h⟩ := Outcome.bind_eq_ok.mp h
  obtain rfl := Except.ok.inj h
  obtain ⟨htoken, hdot⟩ := splitOnce_eq_some (Outcome.require_eq_ok.mp hsplit)
  have hsigned := eq_of_beq (Outcome.ensure_eq_ok.mp hsignature)
  have hfields := Outcome.ensure_eq_ok.mp hmatch
  simp only [Bool.and_eq_true, beq_iff_eq] at hfields
  obtain ⟨⟨happ, hbucket⟩, hkey⟩ := hfields
  refine ⟨encoded, ?_, hdot, Outcome.require_eq_ok.mp hdecode,
    ⟨happ, hbucket, hkey, eq_of_beq (Outcome.ensure_eq_ok.mp hoperation)⟩,
    of_decide_eq_true (Outcome.ensure_eq_ok.mp hexp)⟩
  rw [htoken]
  exact congrArg _ hsigned.symm

theorem dot_mem_jwtMessage (claims : Claims) : '.' ∈ (k.jwtMessage claims).toList := by
  rw [TokenKey.jwtMessage]
  simp

theorem accepted_was_issued (hk : k.Faithful issues) {os : Os}
    {token appId bucket key operation : String} {claims : PresignClaims}
    (htoken : Unforged k issues token)
    (h : verifyPresignToken k.signer os token appId bucket key operation = .ok claims) :
    ∃ issued, .url issued appId bucket key operation ∈ issues ∧
      token = (issuePresignedUrl k.signer issued appId bucket key operation).token ∧
      claims = presignClaims issued appId bucket key operation ∧ os.timestamp ≤ claims.exp := by
  obtain ⟨encoded, haccepted⟩ := verifyPresignToken_eq_ok h
  obtain ⟨issue, hissue, hmessage⟩ := List.mem_map.mp (htoken encoded haccepted.signed)
  cases issue with
  | jwt claims' =>
    have hdot := dot_mem_jwtMessage (k := k) claims'
    rw [Issue.message] at hmessage
    rw [hmessage] at hdot
    exact absurd hdot haccepted.dotless
  | url issued appId' bucket' key' operation' =>
    rw [Issue.message] at hmessage
    have hdecoded := haccepted.decoded
    rw [← hmessage, hk.decode issued appId' bucket' key' operation' hissue, Option.some.injEq]
      at hdecoded
    obtain ⟨happ, hbucket, hkey, hoperation⟩ := haccepted.request
    rw [← hdecoded] at happ hbucket hkey hoperation
    dsimp only [presignClaims] at happ hbucket hkey hoperation
    subst happ hbucket hkey hoperation
    refine ⟨issued, hissue, ?_, hdecoded.symm, haccepted.unexpired⟩
    rw [haccepted.signed, presignToken_eq, hmessage]

theorem issued_accepted (hk : k.Faithful issues) {issued used : Os}
    {appId bucket key operation : String}
    (hissue : .url issued appId bucket key operation ∈ issues)
    (hexp : used.timestamp ≤ (presignClaims issued appId bucket key operation).exp) :
    verifyPresignToken k.signer used
        (issuePresignedUrl k.signer issued appId bucket key operation).token appId bucket key
        operation = .ok (presignClaims issued appId bucket key operation) := by
  have hverified := @verifyPresignToken_signed k.signer
    (presignClaims issued appId bucket key operation)
    (hk.decode issued appId bucket key operation hissue) (hk.claims _) used hexp
  exact hverified

theorem presignToken_not_jwt (hk : k.Faithful issues) (issued : Os)
    (appId bucket key operation : String) (timestamp : Int) (claims : Claims) :
    verifyJwt k timestamp (issuePresignedUrl k.signer issued appId bucket key operation).token ≠
      .ok claims := by
  have hlast := rsplitOnce_append
    (hk.hex (k.mac (k.encodeClaims (presignClaims issued appId bucket key operation))))
    (k.encodeClaims (presignClaims issued appId bucket key operation))
  have hnone := rsplitOnce_eq_none (hk.claims (presignClaims issued appId bucket key operation))
  intro h
  obtain ⟨⟨message, signature⟩, hsplit, h⟩ := Outcome.bind_eq_ok.mp h
  obtain ⟨⟨header, payload⟩, hsplit', -⟩ := Outcome.bind_eq_ok.mp h
  rw [Outcome.require_eq_ok, presignToken_eq] at hsplit
  rw [Outcome.require_eq_ok] at hsplit'
  obtain ⟨rfl, -⟩ := Prod.mk.inj (Option.some.inj (hlast.symm.trans hsplit))
  rw [hnone] at hsplit'
  cases hsplit'

theorem jwt_not_presignToken (hk : k.Faithful issues) (claims : Claims) (os : Os)
    (appId bucket key operation : String) (accepted : PresignClaims) :
    verifyPresignToken k.signer os (k.createAppJwt claims) appId bucket key operation ≠
      .ok accepted := by
  intro h
  obtain ⟨encoded, haccepted⟩ := verifyPresignToken_eq_ok h
  have hfirst : splitOnce '.' (k.createAppJwt claims) = some (k.jwtHeader,
      k.encodeJwtClaims claims ++ "." ++ k.base64Encode (k.mac (k.jwtMessage claims))) := by
    have hsplit := splitOnce_append hk.header
      (k.encodeJwtClaims claims ++ "." ++ k.base64Encode (k.mac (k.jwtMessage claims)))
    rw [← hsplit, TokenKey.createAppJwt, TokenKey.jwtMessage]
    simp only [String.append_assoc]
  have hsecond := splitOnce_append haccepted.dotless (k.hexEncode (k.mac encoded))
  rw [haccepted.signed] at hfirst
  obtain ⟨-, hrest⟩ := Prod.mk.inj (Option.some.inj (hfirst.symm.trans hsecond))
  have hdot := hk.hex (k.mac encoded)
  rw [← hrest] at hdot
  exact hdot (by simp)

end Tokens

/-- **Signed tokens are not confused.**  After any tokens of both kinds have been issued, a
    presigned token is accepted for a request only if it was issued for it and has not
    expired; until then it is accepted; and no token of one kind passes for the other. -/
theorem signed_tokens_not_confused (k : TokenKey) (issues : List Issue) (hk : k.Faithful issues) :
    (∀ os token appId bucket key operation claims, Unforged k issues token →
      verifyPresignToken k.signer os token appId bucket key operation = .ok claims →
      ∃ issued, .url issued appId bucket key operation ∈ issues ∧
        token = (issuePresignedUrl k.signer issued appId bucket key operation).token ∧
        claims = presignClaims issued appId bucket key operation ∧ os.timestamp ≤ claims.exp) ∧
    (∀ issued appId bucket key operation, .url issued appId bucket key operation ∈ issues →
      ∀ os, os.timestamp ≤ (presignClaims issued appId bucket key operation).exp →
        verifyPresignToken k.signer os
          (issuePresignedUrl k.signer issued appId bucket key operation).token appId bucket key
          operation = .ok (presignClaims issued appId bucket key operation)) ∧
    ∀ issue ∈ issues, match issue with
      | .jwt claims => ∀ os appId bucket key operation accepted,
          verifyPresignToken k.signer os (k.createAppJwt claims) appId bucket key operation ≠
            .ok accepted
      | .url issued appId bucket key operation => ∀ timestamp claims,
          verifyJwt k timestamp
            (issuePresignedUrl k.signer issued appId bucket key operation).token ≠ .ok claims := by
  refine ⟨?_, ?_, ?_⟩
  · intro os token appId bucket key operation claims htoken h
    exact accepted_was_issued hk htoken h
  · intro issued appId bucket key operation hissue os hexp
    exact issued_accepted hk hissue hexp
  · intro issue _
    cases issue with
    | jwt claims => exact jwt_not_presignToken hk claims
    | url issued appId bucket key operation =>
      exact presignToken_not_jwt hk issued appId bucket key operation

/-! ### One presigned upload -/

def newYearOs : Os := { now := "2026-01-01T00:00:00+00:00", timestamp := 1767225600 }

def photoUpload : Issue := .url newYearOs "default" "avatars" "photo.png" "upload"

def photoPayload : String :=
  "eyJhcHBfaWQiOiJkZWZhdWx0IiwiYnVja2V0IjoiYXZhdGFycyIsImtleSI6InBob3RvLnBuZyIsIm" ++
    "9wZXJhdGlvbiI6InVwbG9hZCIsImV4cCI6MTc2NzIyNjUwMH0"

def photoSignature : String := "a557c5bc0f4e9912ab1d850ae44efcb76dc95351a40f1e59a8b1224dd17e981d"

/-- A key with the secret `secret`, on the claims of this upload. -/
def photoKey : TokenKey where
  mac _ := [0xa5, 0x57, 0xc5, 0xbc, 0x0f, 0x4e, 0x99, 0x12, 0xab, 0x1d, 0x85, 0x0a, 0xe4, 0x4e,
    0xfc,
    0xb7, 0x6d, 0xc9, 0x53, 0x51, 0xa4, 0x0f, 0x1e, 0x59, 0xa8, 0xb1, 0x22, 0x4d, 0xd1, 0x7e, 0x98,
    0x1d]
  hexEncode _ := photoSignature
  base64Encode _ := "pVfFvA9OmRKrHYUK5E78t23JU1GkDx5ZqLEiTdF-mB0"
  base64Decode _ := none
  encodeClaims _ := photoPayload
  decodeClaims _ := some (presignClaims newYearOs "default" "avatars" "photo.png" "upload")
  encodeJwtClaims _ := ""
  decodeJwtClaims _ := none
  jwtHeader := "eyJ0eXAiOiJKV1QiLCJhbGciOiJIUzI1NiJ9"
  headerAlgorithm _ := some "HS256"

theorem photoKey_faithful : photoKey.Faithful [photoUpload] := by
  refine ⟨?_, ?_, ?_, by decide +kernel⟩
  · intro os appId bucket key operation hissue
    rw [List.mem_singleton, photoUpload, Issue.url.injEq] at hissue
    obtain ⟨rfl, rfl, rfl, rfl, rfl⟩ := hissue
    rfl
  · have hpayload : '.' ∉ photoPayload.toList := by
      have htext : photoPayload.toList = _ := String.toList_append
      rw [htext, List.mem_append]
      exact not_or.mpr ⟨not_mem_literal rfl, not_mem_literal rfl⟩
    exact fun _ => hpayload
  · have hsignature : '.' ∉ photoSignature.toList := not_mem_literal rfl
    exact fun _ => hsignature

/-- The token of the upload is accepted for it, and for no download. -/
theorem photo_token_only_uploads :
    (∃ claims, verifyPresignToken photoKey.signer newYearOs (photoUpload.token photoKey) "default"
      "avatars" "photo.png" "upload" = .ok claims) ∧
    ∀ claims, verifyPresignToken photoKey.signer newYearOs (photoUpload.token photoKey) "default"
      "avatars" "photo.png" "download" ≠ .ok claims := by
  obtain ⟨haccepted, hissued, -⟩ :=
    signed_tokens_not_confused photoKey [photoUpload] photoKey_faithful
  have hunforged : Unforged photoKey [photoUpload] (photoUpload.token photoKey) := by
    intro message hmessage
    rw [List.map_singleton, List.mem_singleton]
    have hsame : photoUpload.token photoKey = photoUpload.message photoKey ++ "." ++
        photoKey.hexEncode (photoKey.mac message) := rfl
    rw [hsame, String.append_left_inj, String.append_left_inj] at hmessage
    exact hmessage.symm
  refine ⟨⟨_, hissued newYearOs "default" "avatars" "photo.png" "upload" (List.mem_singleton_self _)
    newYearOs (by decide)⟩, ?_⟩
  intro claims hclaims
  obtain ⟨issued, hmem, -⟩ :=
    haccepted newYearOs _ "default" "avatars" "photo.png" "download" claims
    hunforged hclaims
  rw [List.mem_singleton, photoUpload, Issue.url.injEq] at hmem
  simp at hmem

end Peanut
