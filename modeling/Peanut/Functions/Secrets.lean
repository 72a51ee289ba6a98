import Peanut.Common
import Peanut.Library.Outcome

/-!
# Function secrets

`secrets.rs`: a secret is stored as `v1:<nonce>:<ciphertext>:<tag>`, each part in
URL-safe base64.  AES-GCM and base64 come from crates; what the code relies on is
that opening undoes sealing and that base64 has no colon.
-/

namespace Peanut

/-- AES-256-GCM under a key derived from the master key, on base64 texts.

    * `encodeNonce`  the encoding of twelve random bytes;
    * `encrypt`      ciphertext and tag of a plaintext;
    * `decodes`      is the text valid base64;
    * `decrypt`      the plaintext, or the reason why there is none. -/
structure SecretCipher where
  masterKey : String
  encodeNonce : String → String
  encrypt : String → String → String → String × String
  decodes : String → Bool
  decrypt : String → String → String → String → Except String String
  decrypt_encrypt : ∀ key nonce plaintext,
    decrypt key nonce (encrypt key nonce plaintext).1 (encrypt key nonce plaintext).2 =
      .ok plaintext
  encodeNonce_base64 : ∀ nonce, decodes (encodeNonce nonce) = true
  encrypt_base64 : ∀ key nonce plaintext, decodes (encrypt key nonce plaintext).1 = true ∧
    decodes (encrypt key nonce plaintext).2 = true
  base64_no_colon : ∀ text, decodes text = true → ':' ∉ text.toList

def SECRET_CIPHERTEXT_PREFIX : String := "v1"

def SECRET_ENCRYPTION_VERSION : Int := 1

/-- `format!("{}:{}:{}:{}", …)`. -/
def joinColons (parts : List String) : String :=
  String.ofList ([':'].intercalate (parts.map String.toList))

theorem splitAt_joinColons {parts : List String} (h : ∀ p ∈ parts, ':' ∉ p.toList)
    (hne : parts ≠ []) : splitAt ':' (joinColons parts) = parts := by
  have hjoin : joinColons parts = (String.ofList [':']).intercalate parts := by
    apply String.toList_inj.mp
    rw [joinColons, String.toList_ofList, String.toList_intercalate, String.toList_ofList]
  rw [hjoin]
  exact splitAt_intercalate h hne

def encryptSecret (cipher : SecretCipher) (nonce plaintext : String) : String :=
  let sealed := cipher.encrypt cipher.masterKey (cipher.encodeNonce nonce) plaintext
  joinColons [SECRET_CIPHERTEXT_PREFIX, cipher.encodeNonce nonce, sealed.1, sealed.2]

def decodeComponent (cipher : SecretCipher) (value : Option String) (label : String) :
    Except String String := do
  let raw ← Outcome.require value s!"encrypted secret is missing {label}"
  Outcome.ensure (cipher.decodes raw) s!"encrypted secret has an invalid {label}"
  return raw

def decryptSecret (cipher : SecretCipher) (ciphertext : String) : Except String String := do
  let parts := splitAt ':' ciphertext
  let version ← Outcome.require parts[0]? "encrypted secret is missing version"
  Outcome.ensure (version == SECRET_CIPHERTEXT_PREFIX)
    "encrypted secret uses an unsupported version"
  let nonce ← decodeComponent cipher parts[1]? "nonce"
  let body ← decodeComponent cipher parts[2]? "ciphertext"
  let tag ← decodeComponent cipher parts[3]? "tag"
  Outcome.ensure parts[4]?.isNone "encrypted secret has an invalid format"
  cipher.decrypt cipher.masterKey nonce body tag

/-- **Round trip.**  Decrypting under the same master key gives the plaintext back. -/
theorem decryptSecret_encryptSecret (cipher : SecretCipher) (nonce plaintext : String) :
    decryptSecret cipher (encryptSecret cipher nonce plaintext) = .ok plaintext := by
  have hnonce := cipher.encodeNonce_base64 nonce
  obtain ⟨hbody, htag⟩ :=
    cipher.encrypt_base64 cipher.masterKey (cipher.encodeNonce nonce) plaintext
  have hsplit : splitAt ':' (encryptSecret cipher nonce plaintext) =
      [SECRET_CIPHERTEXT_PREFIX, cipher.encodeNonce nonce,
        (cipher.encrypt cipher.masterKey (cipher.encodeNonce nonce) plaintext).1,
        (cipher.encrypt cipher.masterKey (cipher.encodeNonce nonce) plaintext).2] := by
    apply splitAt_joinColons
    · intro p hp
      simp only [List.mem_cons, List.not_mem_nil, or_false] at hp
      rcases hp with rfl | rfl | rfl | rfl
      · decide
      · exact cipher.base64_no_colon _ hnonce
      · exact cipher.base64_no_colon _ hbody
      · exact cipher.base64_no_colon _ htag
    · simp
  simp [decryptSecret, hsplit, decodeComponent, hnonce, hbody, htag, cipher.decrypt_encrypt, pure,
    Except.pure]

/-! ### A cipher for examples

It leaves the plaintext readable and only escapes the colon. -/

def escapeColons : List Char → List Char
  | [] => []
  | c :: rest =>
      (if c = ':' then ['%', 'c'] else if c = '%' then ['%', '%'] else [c]) ++ escapeColons rest

def unescapeColons : List Char → List Char
  | '%' :: 'c' :: rest => ':' :: unescapeColons rest
  | '%' :: '%' :: rest => '%' :: unescapeColons rest
  | c :: rest => c :: unescapeColons rest
  | [] => []

theorem unescapeColons_escapeColons (cs : List Char) : unescapeColons (escapeColons cs) = cs := by
  induction cs with
  | nil => rfl
  | cons c rest ih =>
    rw [escapeColons]
    split
    · rename_i hc
      simp [unescapeColons, ih, hc]
    · split
      · rename_i hc
        simp [unescapeColons, ih, hc]
      · rename_i hpercent
        simp [unescapeColons, ih, hpercent]

theorem colon_not_mem_escapeColons (cs : List Char) : ':' ∉ escapeColons cs := by
  induction cs with
  | nil => simp [escapeColons]
  | cons c rest ih =>
    rw [escapeColons, List.mem_append]
    rintro (h | h)
    · split at h
      · simp at h
      · rename_i hcolon
        split at h
        · simp at h
        · simp only [List.mem_singleton] at h
          exact hcolon h.symm
    · exact ih h

def readableCipher : SecretCipher where
  masterKey := "master"
  encodeNonce _ := "nonce"
  encrypt _ _ plaintext := (String.ofList (escapeColons plaintext.toList), "tag")
  decodes text := decide (':' ∉ text.toList)
  decrypt _ _ body _ := .ok (String.ofList (unescapeColons body.toList))
  decrypt_encrypt := by
    intro key nonce plaintext
    simp [unescapeColons_escapeColons]
  encodeNonce_base64 := by
    intro nonce
    decide
  encrypt_base64 := by
    intro key nonce plaintext
    refine ⟨?_, ?_⟩
    · simpa using colon_not_mem_escapeColons plaintext.toList
    · show decide (':' ∉ "tag".toList) = true
      decide
  base64_no_colon := by
    intro text h
    simpa using h

end Peanut
