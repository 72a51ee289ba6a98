import Peanut.Http.PercentEncoding
import Peanut.Http.Public

/-!
# The redirect to a provider

What the provider reads from the URL that `oauth_start` sends a browser to: the query is
cut at each `&`, each piece at its first `=`, and both halves are percent-decoded.  No
character that `url_encode` leaves as it is separates anything.
-/

namespace Peanut

/-! ### The encoder -/

/-- The characters that `url_encode` leaves as they are. -/
def isUnreserved (c : Char) : Bool :=
  isAsciiUppercase c || isAsciiLowercase c || isAsciiDigit c || c == '-' || c == '_' || c == '.' ||
    c == '~'

theorem hexUpper_eq (n : Nat) : hexUpper n = upperHexDigit n := by
  rw [hexUpper, upperHexDigit]
  split
  · rfl
  · rfl

theorem urlEncodeByte_eq (byte : UInt8) : urlEncodeByte byte =
    if isUnreserved (Char.ofNat byte.toNat) then [Char.ofNat byte.toNat] else percentByte byte := by
  rw [urlEncodeByte, percentByte, hexUpper_eq, hexUpper_eq]
  rfl

theorem lt_of_isUnreserved {c : Char} (h : isUnreserved c = true) : c.toNat < 128 := by
  have hZ : 'Z'.toNat = 90 := rfl
  have hz : 'z'.toNat = 122 := rfl
  have h9 : '9'.toNat = 57 := rfl
  simp only [isUnreserved, isAsciiUppercase, isAsciiLowercase, isAsciiDigit, Bool.or_eq_true,
    Bool.and_eq_true, decide_eq_true_eq, beq_iff_eq] at h
  rcases h with (((((h | h) | h) | rfl) | rfl) | rfl) | rfl
  · omega
  · omega
  · omega
  · decide
  · decide
  · decide
  · decide

theorem utf8EncodeChar_byte {byte : UInt8} (h : byte.toNat < 128) :
    String.utf8EncodeChar (Char.ofNat byte.toNat) = [byte] := by
  have hall : ∀ n < 128, String.utf8EncodeChar (Char.ofNat n) = [UInt8.ofNat n] := by decide
  rw [hall _ h, UInt8.ofNat_toNat]

theorem percentBytes_urlEncodeByte (byte : UInt8) (rest : List Char) :
    percentBytes (urlEncodeByte byte ++ rest) = byte :: percentBytes rest := by
  have hsize := byte.toNat_lt
  have hchar : (Char.ofNat byte.toNat).toNat = byte.toNat := by
    have hvalid : byte.toNat.isValidChar := .inl (by omega)
    rw [Char.ofNat, dif_pos hvalid]
    rfl
  rw [urlEncodeByte_eq]
  split
  · next hkeep =>
    have hascii := lt_of_isUnreserved hkeep
    have hne : Char.ofNat byte.toNat ≠ '%' := by
      intro heq
      rw [heq] at hkeep
      exact absurd hkeep (by decide)
    rw [hchar] at hascii
    rw [List.singleton_append, percentBytes_cons hne, utf8EncodeChar_byte hascii,
      List.singleton_append]
  · exact percentBytes_percentByte byte rest

/-- **`url_encode` is undone.** -/
theorem percentDecode_urlEncode (text : String) : percentDecode (urlEncode text) = some text := by
  rw [percentDecode_eq_some, urlEncode, String.toList_ofList]
  generalize asBytes text = bytes
  induction bytes with
  | nil => rfl
  | cons byte bytes ih => rw [List.flatMap_cons, percentBytes_urlEncodeByte, ih]

/-- A character that is neither kept nor part of an escape is not in an encoded text. -/
theorem not_mem_urlEncode {d : Char} (hescape : isEscapeChar d = false)
    (hreserved : isUnreserved d = false) (text : String) : d ∉ (urlEncode text).toList := by
  rw [urlEncode, String.toList_ofList, List.mem_flatMap]
  rintro ⟨byte, -, hd⟩
  rw [urlEncodeByte_eq] at hd
  split at hd
  · next hkeep =>
    rw [← List.mem_singleton.mp hd, hreserved] at hkeep
    cases hkeep
  · rw [isEscapeChar_of_mem_percentByte hd] at hescape
    cases hescape

/-! ### The query -/

/-- A piece of a query, cut at its first `=`. -/
def readParameter (item : String) : Option (String × String) := do
  let (name, value) ← splitOnce '=' item
  let name ← percentDecode name
  let value ← percentDecode value
  return (name, value)

def readParameters (query : String) : Option (List (String × String)) :=
  (splitAt '&' query).mapM readParameter

/-- A parameter with its value encoded. -/
def parameterText (parameter : String × String) : String :=
  parameter.1 ++ "=" ++ urlEncode parameter.2

/-- What `oauth_start` puts into the query. -/
def oauthParameters (config : OidcProviderRuntimeConfig) (oauthState : String) :
    List (String × String) :=
  [("response_type", "code"), ("client_id", config.clientId), ("redirect_uri", config.redirectUri),
    ("scope", " ".intercalate config.scopes), ("state", oauthState)]

/-- A name in which nothing separates or is encoded. -/
def IsParameterName (name : String) : Prop :=
  '=' ∉ name.toList ∧ '&' ∉ name.toList ∧ percentDecode name = some name

instance (name : String) : Decidable (IsParameterName name) :=
  inferInstanceAs (Decidable (_ ∧ _ ∧ _))

theorem readParameter_parameterText {parameter : String × String}
    (hname : IsParameterName parameter.1) :
    readParameter (parameterText parameter) = some parameter := by
  obtain ⟨hequals, -, hdecode⟩ := hname
  have hsplit : splitOnce '=' (parameterText parameter) =
      some (parameter.1, urlEncode parameter.2) := splitOnce_append hequals _
  rw [readParameter, hsplit]
  simp [hdecode, percentDecode_urlEncode]

theorem amp_not_mem_parameterText {parameter : String × String}
    (hname : IsParameterName parameter.1) : '&' ∉ (parameterText parameter).toList := by
  rw [parameterText, String.toList_append, String.toList_append, List.mem_append, List.mem_append,
    not_or, not_or]
  exact ⟨⟨hname.2.1, by decide⟩, not_mem_urlEncode (by decide) (by decide) parameter.2⟩

/-- **A query is read as its parameters**, each once and in order. -/
theorem readParameters_intercalate {parameters : List (String × String)} (hne : parameters ≠ [])
    (hnames : ∀ parameter ∈ parameters, IsParameterName parameter.1) :
    readParameters ((String.ofList ['&']).intercalate (parameters.map parameterText)) =
      some parameters := by
  rw [readParameters, splitAt_intercalate]
  · clear hne
    induction parameters with
    | nil => rfl
    | cons parameter parameters ih =>
      rw [List.forall_mem_cons] at hnames
      rw [List.map_cons, List.mapM_cons, readParameter_parameterText hnames.1, ih hnames.2]
      rfl
  · intro item hitem
    obtain ⟨parameter, hmem, rfl⟩ := List.mem_map.mp hitem
    exact amp_not_mem_parameterText (hnames parameter hmem)
  · rwa [Ne, List.map_eq_nil_iff]

theorem oauthParameters_names (config : OidcProviderRuntimeConfig) (oauthState : String) :
    ∀ parameter ∈ oauthParameters config oauthState, IsParameterName parameter.1 := by
  simp only [oauthParameters, List.forall_mem_cons]
  exact ⟨by decide +kernel, by decide +kernel, by decide +kernel, by decide +kernel,
    by decide +kernel, List.forall_mem_nil _⟩

theorem oauthRedirectUrl_eq (config : OidcProviderRuntimeConfig) (oauthState : String) :
    oauthRedirectUrl config oauthState = config.authorizationEndpoint ++ String.ofList ['?'] ++
      (String.ofList ['&']).intercalate
        ((oauthParameters config oauthState).map parameterText) := by
  have hcode : urlEncode "code" = "code" := by decide +kernel
  apply String.ext
  simp [oauthRedirectUrl, oauthParameters, parameterText, hcode]

/-- What `oauth_start` answers with is the URL for its configuration and the state drawn. -/
theorem oauthStart_url {pf : Platform} {cipher : SecretCipher} {env : Env} {db : Db}
    {appId provider : String} {redirectTo : Option String} {reply : Reply String}
    (h : (oauthStart pf cipher env db appId provider redirectTo).2 = .ok reply) :
    ∃ provider' config, oauthStartChecks cipher db appId provider redirectTo =
        .ok (provider', config) ∧ reply.body = oauthRedirectUrl config (env.token 0) := by
  rw [oauthStart] at h
  obtain ⟨⟨provider', config⟩, hchecks, h⟩ := Outcome.proceed_eq_ok.mp h
  refine ⟨provider', config, hchecks, ?_⟩
  simp only at h
  split at h
  · cases h
  · obtain ⟨_, -, hreply⟩ := Outcome.bind_eq_ok.mp h
    rw [← Except.ok.inj hreply]

/-- **The parameters survive encoding.** -/
theorem oauth_redirect_parameters :
    (∀ text, percentDecode (urlEncode text) = some text) ∧
    (∀ (config : OidcProviderRuntimeConfig) (oauthState : String),
      '?' ∉ config.authorizationEndpoint.toList →
        ∃ query, splitOnce '?' (oauthRedirectUrl config oauthState) =
            some (config.authorizationEndpoint, query) ∧
          readParameters query = some [("response_type", "code"), ("client_id", config.clientId),
            ("redirect_uri", config.redirectUri), ("scope", " ".intercalate config.scopes),
            ("state", oauthState)]) ∧
    ∀ (pf : Platform) (cipher : SecretCipher) (env : Env) (db : Db) (appId provider : String)
      (redirectTo : Option String) (reply : Reply String),
      (oauthStart pf cipher env db appId provider redirectTo).2 = .ok reply →
        ∃ provider' config, oauthStartChecks cipher db appId provider redirectTo =
            .ok (provider', config) ∧ reply.body = oauthRedirectUrl config (env.token 0) := by
  refine ⟨percentDecode_urlEncode, ?_, fun _ _ _ _ _ _ _ _ h => oauthStart_url h⟩
  intro config oauthState hendpoint
  refine ⟨_, ?_, readParameters_intercalate (List.cons_ne_nil _ _)
    (oauthParameters_names config oauthState)⟩
  rw [oauthRedirectUrl_eq]
  exact splitOnce_append hendpoint _

/-- A configuration with signs of a query in its texts. -/
def signsConfig : OidcProviderRuntimeConfig where
  authorizationEndpoint := "https://issuer.test/auth"
  tokenEndpoint := "https://issuer.test/token"
  userinfoEndpoint := "https://issuer.test/userinfo"
  clientId := "a&state=b"
  clientSecret := none
  redirectUri := "https://peanut.test/callback?x=1#y"
  scopes := ["openid", "e+mail"]

theorem oauth_redirect_parameters_signs :
    percentDecode (urlEncode "100% + é") = some "100% + é" ∧
    (∃ query, splitOnce '?' (oauthRedirectUrl signsConfig "s=&t") =
        some ("https://issuer.test/auth", query) ∧
      readParameters query = some [("response_type", "code"), ("client_id", "a&state=b"),
        ("redirect_uri", "https://peanut.test/callback?x=1#y"), ("scope", "openid e+mail"),
        ("state", "s=&t")]) ∧
    ∃ provider' config, oauthStartChecks readableCipher danaAsked "default" " Google " none =
        .ok (provider', config) ∧
      "https://accounts.google.com/o/oauth2/v2/auth?response_type=code&client_id=client" ++
        "&redirect_uri=https%3A%2F%2Fexample.com%2Fcallback&scope=openid%20email%20profile&state=ht0"
          = oauthRedirectUrl config "ht0" := by
  obtain ⟨hdecode, hread, hstart⟩ := oauth_redirect_parameters
  refine ⟨hdecode _, ?_, ?_⟩
  · exact hread signsConfig "s=&t" (by decide)
  · exact hstart asciiPlatform readableCipher (sampleEnv "h") danaAsked "default" " Google " none
      ⟨.found, _⟩ (by decide +kernel)

end Peanut
