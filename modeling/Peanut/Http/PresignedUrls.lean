import Peanut.Auth.SignedTokens
import Peanut.Http.Suspension
import Peanut.Storage.Listing

/-!
# Presigned URLs and their readers

`issue_presigned_url` puts the key into the URL as it is.  The router takes the URL
apart again: a fragment is cut off at `#`, the query at the first `?`, and what is
left is matched against the route and percent-decoded.  The key comes back exactly
when none of this finds anything in it.
-/

namespace Peanut

/-! ### Reading a URL -/

/-- The path of a URL, and the query if there is one. -/
def splitTarget (url : String) : String × Option String :=
  let target := String.ofList (url.toList.takeWhile (· != '#'))
  match splitOnce '?' target with
  | some (path, query) => (path, some query)
  | none => (target, none)

/-- A part of a route: a text, a parameter or a wildcard for the rest. -/
inductive RoutePart where
  | text (segment : String)
  | param
  | wildcard
deriving DecidableEq, Repr

/-- The parameters of a path between its slashes, when the route matches it.  Neither a
    parameter nor a wildcard matches the empty text. -/
def matchRoute : List RoutePart → List String → Option (List String)
  | [], [] => some []
  | .text expected :: route, segment :: path =>
      if segment == expected then matchRoute route path else none
  | .param :: route, segment :: path =>
      if segment == "" then none else (matchRoute route path).map (segment :: ·)
  | [.wildcard], path =>
      let rest := "/".intercalate path
      if rest == "" then none else some [rest]
  | _, _ => none

/-- `/api/apps/:app_id/storage/buckets/:bucket/presigned-objects/*key`. -/
def presignedObjectRoute : List RoutePart :=
  [.text "", .text "api", .text "apps", .param, .text "storage", .text "buckets", .param,
    .text "presigned-objects", .wildcard]

/-- A name or a value of a query, where `+` stands for a space. -/
def formDecode (text : String) : Option String :=
  percentDecode (text.map fun c => if c == '+' then ' ' else c)

/-- The field of a query, which must not be given twice. -/
def queryField (name query : String) : Option String :=
  let pairs := (splitAt '&' query).map fun pair => (splitOnce '=' pair).getD (pair, "")
  match pairs.filter fun pair => formDecode pair.1 == some name with
  | [pair] => formDecode pair.2
  | _ => none

/-- What the handlers of presigned objects are called with. -/
structure PresignedRequest where
  appId : String
  bucket : String
  key : String
  presignToken : String
deriving DecidableEq, Repr

def readPresignedUrl (url : String) : Option PresignedRequest := do
  let params ← matchRoute presignedObjectRoute (splitAt '/' (splitTarget url).1)
  let decoded ← params.mapM percentDecode
  let query ← (splitTarget url).2
  let token ← queryField "presign_token" query
  match decoded with
  | [appId, bucket, key] => some ⟨appId, bucket, key, token⟩
  | _ => none

/-! ### What percent decoding leaves alone -/

/-- A percent sign with two hexadecimal digits behind it. -/
def HasEscape (text : List Char) : Prop :=
  ∃ high low, ['%', high, low] <:+: text ∧ (hexDigit high).isSome ∧ (hexDigit low).isSome

theorem hasEscape_cons_iff {c : Char} {text : List Char} (h : c ≠ '%') :
    HasEscape (c :: text) ↔ HasEscape text := by
  refine exists₂_congr fun high low => and_congr_left fun _ => ?_
  rw [List.infix_cons_iff, or_iff_right]
  intro hstart
  exact h (List.cons_prefix_cons.mp hstart).1.symm

theorem hasEscape_percent_iff {high low : Char} {text : List Char} :
    HasEscape ('%' :: high :: low :: text) ↔
      ((hexDigit high).isSome ∧ (hexDigit low).isSome) ∨ HasEscape (high :: low :: text) := by
  constructor
  · rintro ⟨h, l, hinside, hhex⟩
    rw [List.infix_cons_iff] at hinside
    rcases hinside with hstart | hinside
    · simp only [List.cons_prefix_cons, List.nil_prefix, true_and, and_true] at hstart
      obtain ⟨rfl, rfl⟩ := hstart
      exact .inl hhex
    · exact .inr ⟨h, l, hinside, hhex⟩
  · rintro (hhex | ⟨h, l, hinside, hhex⟩)
    · exact ⟨high, low, (List.prefix_append ['%', high, low] text).isInfix, hhex⟩
    · exact ⟨h, l, List.infix_cons hinside, hhex⟩

theorem not_hasEscape_short {text : List Char} (h : text.length < 3) : ¬ HasEscape text := by
  rintro ⟨high, low, hinside, -⟩
  exact absurd hinside.length_le (Nat.not_le_of_lt h)

theorem not_hasEscape_of_percent_not_mem {text : List Char} (h : '%' ∉ text) :
    ¬ HasEscape text := by
  rintro ⟨high, low, hinside, -⟩
  exact h (hinside.subset List.mem_cons_self)

theorem percentBytes_cases (text : List Char) :
    (¬ HasEscape text ∧ percentBytes text = text.flatMap String.utf8EncodeChar) ∨
      (HasEscape text ∧
        (percentBytes text).length < (text.flatMap String.utf8EncodeChar).length) := by
  have hsign : String.utf8EncodeChar '%' = [37] := by decide
  have hpos : ∀ c, 0 < (String.utf8EncodeChar c).length := by
    intro c
    rw [String.length_utf8EncodeChar]
    exact Char.utf8Size_pos c
  fun_induction percentBytes text with
  | case1 high low rest h l hhigh hlow ih =>
    have hescape : HasEscape ('%' :: high :: low :: rest) := by
      rw [hasEscape_percent_iff, hhigh, hlow]
      exact .inl ⟨rfl, rfl⟩
    have hle : (percentBytes rest).length ≤ (rest.flatMap String.utf8EncodeChar).length := by
      rcases ih with ⟨-, heq⟩ | ⟨-, hlt⟩
      · rw [heq]
      · exact hlt.le
    have hhigh' := hpos high
    refine .inr ⟨hescape, ?_⟩
    simp only [List.flatMap_cons, List.length_append, List.length_cons, hsign, List.length_nil]
    omega
  | case2 high low rest hnot ih =>
    have hhex : ¬ ((hexDigit high).isSome ∧ (hexDigit low).isSome) := by
      rintro ⟨hhigh, hlow⟩
      obtain ⟨h, hhigh⟩ := Option.isSome_iff_exists.mp hhigh
      obtain ⟨l, hlow⟩ := Option.isSome_iff_exists.mp hlow
      exact hnot h l hhigh hlow
    rw [hasEscape_percent_iff, or_iff_right hhex, List.flatMap_cons, hsign]
    rcases ih with ⟨hplain, heq⟩ | ⟨hescape, hlt⟩
    · exact .inl ⟨hplain, by rw [heq]; rfl⟩
    · exact .inr ⟨hescape, by simpa using hlt⟩
  | case3 c rest hnot ih =>
    have hescape : HasEscape (c :: rest) ↔ HasEscape rest := by
      by_cases hc : c = '%'
      · have hshort : rest.length < 2 := by
          rcases rest with _ | ⟨high, _ | ⟨low, rest⟩⟩
          · exact Nat.zero_lt_two
          · exact Nat.one_lt_two
          · exact (hnot high low rest hc rfl).elim
        rw [iff_false_right (not_hasEscape_short (Nat.lt_succ_of_lt hshort))]
        exact not_hasEscape_short (Nat.succ_lt_succ hshort)
      · exact hasEscape_cons_iff hc
    rw [hescape, List.flatMap_cons]
    rcases ih with ⟨hplain, heq⟩ | ⟨hrest, hlt⟩
    · exact .inl ⟨hplain, by rw [heq]⟩
    · exact .inr ⟨hrest, by simpa using hlt⟩
  | case4 => exact .inl ⟨not_hasEscape_short (by decide), rfl⟩

theorem percentBytes_length_le (text : List Char) :
    (percentBytes text).length ≤ (text.flatMap String.utf8EncodeChar).length := by
  rcases percentBytes_cases text with ⟨-, heq⟩ | ⟨-, hlt⟩
  · rw [heq]
  · exact hlt.le

theorem percentDecode_eq_some {segment text : String} :
    percentDecode segment = some text ↔ percentBytes segment.toList = asBytes text := by
  unfold percentDecode String.fromUTF8?
  constructor
  · intro h
    split at h
    · rename_i hvalid
      have htext : (String.fromUTF8 ⟨(percentBytes segment.toList).toArray⟩ hvalid).toByteArray =
          text.toByteArray := congrArg String.toByteArray (Option.some.inj h)
      rw [toByteArray_eq text] at htext
      have hdata : (percentBytes segment.toList).toArray = (asBytes text).toArray :=
        congrArg ByteArray.data htext
      simpa using hdata
    · cases h
  · intro h
    rw [h, ← toByteArray_eq, dif_pos text.isValidUTF8]
    rfl

theorem length_asBytes_cons (c : Char) (text : List Char) :
    (text.flatMap String.utf8EncodeChar).length <
      ((c :: text).flatMap String.utf8EncodeChar).length := by
  have hpos := Char.utf8Size_pos c
  rw [List.flatMap_cons, List.length_append, String.length_utf8EncodeChar]
  omega

/-- A text that begins another decodes to it only where the two are the same and have
    no escapes. -/
theorem percentDecode_of_isPrefix {segment text : String}
    (hstart : segment.toList <+: text.toList) :
    percentDecode segment = some text ↔ segment = text ∧ ¬ HasEscape text.toList := by
  rw [percentDecode_eq_some, asBytes]
  constructor
  · intro hbytes
    obtain ⟨rest, hrest⟩ := hstart
    have hle := percentBytes_length_le segment.toList
    rw [hbytes, ← hrest, List.flatMap_append, List.length_append] at hle
    obtain rfl : rest = [] := by
      cases rest with
      | nil => rfl
      | cons c rest =>
        have hlt := length_asBytes_cons c rest
        omega
    rw [List.append_nil] at hrest
    refine ⟨String.ext hrest, ?_⟩
    rcases percentBytes_cases segment.toList with ⟨hplain, -⟩ | ⟨-, hlt⟩
    · rwa [← hrest]
    · rw [hbytes, ← hrest] at hlt
      exact absurd hlt (lt_irrefl _)
  · rintro ⟨rfl, hplain⟩
    rcases percentBytes_cases segment.toList with ⟨-, heq⟩ | ⟨hescape, -⟩
    · exact heq
    · exact absurd hescape hplain

theorem percentDecode_self_iff {text : String} :
    percentDecode text = some text ↔ ¬ HasEscape text.toList := by
  rw [percentDecode_of_isPrefix List.prefix_rfl, and_iff_right rfl]

theorem percentDecode_of_percent_not_mem {text : String} (h : '%' ∉ text.toList) :
    percentDecode text = some text :=
  percentDecode_self_iff.mpr (not_hasEscape_of_percent_not_mem h)

/-! ### The URL that is issued -/

/-- What a URL has in its path: neither sign that ends it. -/
def isPathChar (c : Char) : Bool := c != '?' && c != '#'

theorem splitTarget_fst (url : String) :
    (splitTarget url).1 = String.ofList (url.toList.takeWhile isPathChar) := by
  have hboth : (url.toList.takeWhile (· != '#')).takeWhile (· != '?') =
      url.toList.takeWhile isPathChar := by
    rw [List.takeWhile_takeWhile]
    congr 1
    funext c
    rw [isPathChar, Bool.decide_and, Bool.decide_coe, Bool.decide_coe]
  rw [← hboth]
  unfold splitTarget splitOnce
  dsimp only
  rw [String.toList_ofList]
  split
  · rename_i path query hsplit
    split at hsplit
    · cases hsplit
      rfl
    · cases hsplit
  · rename_i hsplit
    split at hsplit
    · cases hsplit
    · rename_i hnone
      rw [List.contains_iff_mem] at hnone
      have hall : ∀ c ∈ url.toList.takeWhile (· != '#'), (c != '?') = true := by
        intro c hc
        rw [bne_iff_ne]
        rintro rfl
        exact hnone hc
      rw [List.takeWhile_eq_self_iff.mpr hall]

theorem splitAt_append_cons {c : Char} {a : String} (h : c ∉ a.toList) (b : String) :
    splitAt c (a ++ String.ofList [c] ++ b) = a :: splitAt c b := by
  have htext : (a ++ String.ofList [c] ++ b).toList = a.toList ++ c :: b.toList := by
    simp
  rw [splitAt, htext, List.splitOn_append_cons_self_of_not_mem h, List.map_cons,
    String.ofList_toList]
  rfl

/-- The path of a presigned object, up to its key. -/
def presignedObjectsPath (appId bucket : String) : String :=
  "/api/apps/" ++ appId ++ "/storage/buckets/" ++ bucket ++ "/presigned-objects/"

theorem splitAt_presignedObjectsPath {appId bucket : String} (happ : '/' ∉ appId.toList)
    (hbucket : '/' ∉ bucket.toList) (key : String) :
    splitAt '/' (presignedObjectsPath appId bucket ++ key) =
      ["", "api", "apps", appId, "storage", "buckets", bucket, "presigned-objects"] ++
        splitAt '/' key := by
  let slash := String.ofList ['/']
  have htext : presignedObjectsPath appId bucket ++ key =
      "" ++ slash ++ ("api" ++ slash ++ ("apps" ++ slash ++ (appId ++ slash ++ ("storage" ++
        slash ++ ("buckets" ++ slash ++ (bucket ++ slash ++ ("presigned-objects" ++ slash ++
          key))))))) := by
    apply String.ext
    simp [presignedObjectsPath, slash]
  rw [htext, splitAt_append_cons (by decide), splitAt_append_cons (by decide),
    splitAt_append_cons (by decide), splitAt_append_cons happ, splitAt_append_cons (by decide),
    splitAt_append_cons (by decide), splitAt_append_cons hbucket, splitAt_append_cons (by decide)]
  rfl

theorem intercalate_splitAt (text : String) : "/".intercalate (splitAt '/' text) = text := by
  have hparts : (splitAt '/' text).map String.toList = text.toList.splitOn '/' := by
    rw [splitAt, List.map_map]
    exact List.map_id'' (fun _ => String.toList_ofList) _
  apply String.ext
  rw [String.toList_intercalate, hparts]
  exact List.intercalate_splitOn '/'

theorem matchRoute_presignedObject {appId bucket : String} (happ : IsName appId)
    (hbucket : IsName bucket) (key : String) :
    matchRoute presignedObjectRoute (splitAt '/' (presignedObjectsPath appId bucket ++ key)) =
      if key = "" then none else some [appId, bucket, key] := by
  rw [splitAt_presignedObjectsPath happ.no_slash hbucket.no_slash]
  by_cases hkey : key = ""
  · simp [presignedObjectRoute, matchRoute, happ.ne_empty, hbucket.ne_empty, intercalate_splitAt,
      hkey]
  · simp [presignedObjectRoute, matchRoute, happ.ne_empty, hbucket.ne_empty, intercalate_splitAt,
      hkey]

/-! ### Which keys come back -/

/-- Nothing in the key means anything in a URL. -/
structure UrlPlain (key : String) : Prop where
  no_query : '?' ∉ key.toList
  no_fragment : '#' ∉ key.toList
  no_escape : ¬ HasEscape key.toList

/-- What the encodings of a token are documented to do: the claims can be read again,
    and all of its text is URL-safe Base64 and hexadecimal digits. -/
structure Signer.Documented (sg : Signer) (claims : PresignClaims) : Prop where
  decodes : sg.decodeClaims (sg.encodeClaims claims) = some claims
  payload : ∀ c ∈ (sg.encodeClaims claims).toList, (isNameChar c || isAsciiUppercase c) = true
  signature : ∀ c ∈ (sg.signPayload (sg.encodeClaims claims)).toList,
    (isNameChar c || isAsciiUppercase c) = true

/-- The URL is read as the request it was issued for, with a token that is accepted
    until it expires. -/
def PresignedUrlWorks (sg : Signer) (issued : Os) (b : Namespace) (key operation : String) : Prop :=
  ∃ token, readPresignedUrl (issuePresignedUrl sg issued b.appId b.bucket key operation).url =
      some ⟨b.appId, b.bucket, key, token⟩ ∧
    ∀ used : Os, used.timestamp ≤ issued.timestamp + 60 * PRESIGN_TOKEN_TTL_MINUTES →
      ∃ claims, verifyPresignToken sg used token b.appId b.bucket key operation = .ok claims

section Issued

variable {sg : Signer} {issued : Os} {b : BucketNamespace} {key operation : String}

/-- The part of the key that stays in the path. -/
def keyInPath (key : String) : String := String.ofList (key.toList.takeWhile isPathChar)

theorem keyInPath_isPrefix (key : String) : (keyInPath key).toList <+: key.toList := by
  rw [keyInPath, String.toList_ofList]
  exact List.takeWhile_prefix _

theorem keyInPath_eq_iff : keyInPath key = key ↔ '?' ∉ key.toList ∧ '#' ∉ key.toList := by
  have hself : keyInPath key = key ↔ ∀ c ∈ key.toList, isPathChar c = true := by
    rw [← List.takeWhile_eq_self_iff, keyInPath, String.ext_iff, String.toList_ofList]
  rw [hself]
  simp only [isPathChar, Bool.and_eq_true, bne_iff_ne]
  constructor
  · intro h
    exact ⟨fun hmem => (h _ hmem).1 rfl, fun hmem => (h _ hmem).2 rfl⟩
  · rintro ⟨hquery, hfragment⟩ c hc
    refine ⟨?_, ?_⟩ <;> rintro rfl
    · exact hquery hc
    · exact hfragment hc

theorem isPathChar_of_plain {c : Char} (h : (isNameChar c || isAsciiUppercase c) = true) :
    isPathChar c = true ∧ c ≠ '%' ∧ c ≠ '&' ∧ c ≠ '+' := by
  rw [isPathChar, Bool.and_eq_true, bne_iff_ne, bne_iff_ne]
  refine ⟨⟨?_, ?_⟩, ?_, ?_, ?_⟩ <;> rintro rfl <;> exact absurd h (by decide)

/-- The token of the URL. -/
def presignToken (sg : Signer) (issued : Os) (b : Namespace) (key operation : String) : String :=
  (issuePresignedUrl sg issued b.appId b.bucket key operation).token

theorem presignToken_chars
    (hsg : sg.Documented (presignClaims issued b.appId b.bucket key operation)) :
    ∀ c ∈ (presignToken sg issued b.toNamespace key operation).toList,
      isPathChar c = true ∧ c ≠ '%' ∧ c ≠ '&' ∧ c ≠ '+' := by
  intro c hc
  have htext : presignToken sg issued b.toNamespace key operation =
      signPresignToken sg (presignClaims issued b.appId b.bucket key operation) := rfl
  rw [htext, signPresignToken, String.toList_append, String.toList_append, List.mem_append,
    List.mem_append] at hc
  rcases hc with (hpayload | hdot) | hsignature
  · exact isPathChar_of_plain (hsg.payload c hpayload)
  · obtain rfl := List.mem_singleton.mp hdot
    decide
  · exact isPathChar_of_plain (hsg.signature c hsignature)

theorem url_issued :
    (issuePresignedUrl sg issued b.appId b.bucket key operation).url =
      (presignedObjectsPath b.appId b.bucket ++ key) ++ String.ofList ['?'] ++
        ("presign_token=" ++ presignToken sg issued b.toNamespace key operation) := by
  have hquery : "?presign_token=" = String.ofList ['?'] ++ "presign_token=" := by decide
  have hurl : (issuePresignedUrl sg issued b.appId b.bucket key operation).url =
      presignedObjectsPath b.appId b.bucket ++ key ++ "?presign_token=" ++
        presignToken sg issued b.toNamespace key operation := rfl
  rw [hurl, hquery]
  simp only [String.append_assoc]

theorem presignedObjectsPath_chars :
    ∀ c ∈ (presignedObjectsPath b.appId b.bucket).toList, isPathChar c = true := by
  have happ : b.appId.toList.all isPathChar = true := List.all_eq_true.mpr fun c hc =>
    (isPathChar_of_plain (b.served.app_plain.plain c hc)).1
  have hbucket : b.bucket.toList.all isPathChar = true := List.all_eq_true.mpr fun c hc =>
    (isPathChar_of_plain (b.served.bucket_plain.plain c hc)).1
  rw [← List.all_eq_true, presignedObjectsPath]
  simp only [String.toList_append, List.all_append, happ, hbucket]
  decide

theorem path_issued :
    (splitTarget (issuePresignedUrl sg issued b.appId b.bucket key operation).url).1 =
      presignedObjectsPath b.appId b.bucket ++ keyInPath key := by
  have hstop : ∀ rest, (key.toList ++ '?' :: rest).takeWhile isPathChar =
      key.toList.takeWhile isPathChar := by
    intro rest
    have hsign : ('?' :: rest).takeWhile isPathChar = [] := rfl
    rw [List.takeWhile_append, hsign]
    split
    · rename_i hall
      rw [List.append_nil]
      exact ((List.takeWhile_prefix isPathChar).eq_of_length hall).symm
    · rfl
  apply String.ext
  rw [splitTarget_fst, url_issued]
  simp only [String.toList_append, String.toList_ofList, List.append_assoc, List.cons_append,
    List.nil_append]
  rw [List.takeWhile_append_of_pos presignedObjectsPath_chars, hstop, keyInPath,
    String.toList_ofList]

theorem splitTarget_of_path {path query : String} (hpath : ∀ c ∈ path.toList, isPathChar c = true)
    (hquery : '#' ∉ query.toList) :
    splitTarget (path ++ String.ofList ['?'] ++ query) = (path, some query) := by
  have hfragment : ∀ c ∈ (path ++ String.ofList ['?'] ++ query).toList, (c != '#') = true := by
    intro c hc
    rw [bne_iff_ne]
    rintro rfl
    simp only [String.toList_append, String.toList_ofList, List.mem_append,
      List.mem_singleton] at hc
    rcases hc with (hmem | hmem) | hmem
    · exact absurd (hpath _ hmem) (by decide)
    · exact absurd hmem (by decide)
    · exact hquery hmem
  have hquestion : '?' ∉ path.toList := fun hmem => absurd (hpath _ hmem) (by decide)
  rw [splitTarget, List.takeWhile_eq_self_iff.mpr hfragment, String.ofList_toList,
    splitOnce_append hquestion]

theorem query_issued (hsg : sg.Documented (presignClaims issued b.appId b.bucket key operation))
    (hkey : keyInPath key = key) :
    (splitTarget (issuePresignedUrl sg issued b.appId b.bucket key operation).url).2 =
      some ("presign_token=" ++ presignToken sg issued b.toNamespace key operation) := by
  rw [url_issued, splitTarget_of_path]
  · intro c hc
    rw [String.toList_append, List.mem_append] at hc
    rcases hc with hc | hc
    · exact presignedObjectsPath_chars c hc
    · rw [keyInPath, String.ext_iff, String.toList_ofList, List.takeWhile_eq_self_iff] at hkey
      exact hkey c hc
  · intro hmem
    rw [String.toList_append, List.mem_append] at hmem
    rcases hmem with hmem | hmem
    · exact absurd hmem (by decide)
    · exact absurd (presignToken_chars hsg _ hmem).1 (by decide)

theorem formDecode_of_not_mem {text : String} (hpercent : '%' ∉ text.toList)
    (hplus : '+' ∉ text.toList) : formDecode text = some text := by
  have hsame : (text.map fun c => if c == '+' then ' ' else c) = text := by
    apply String.ext
    rw [String.toList_map]
    refine (List.map_congr_left ?_).trans (List.map_id _)
    intro c hc
    rw [if_neg, id]
    rw [beq_iff_eq]
    rintro rfl
    exact hplus hc
  rw [formDecode, hsame]
  exact percentDecode_of_percent_not_mem hpercent

theorem queryField_token
    (hsg : sg.Documented (presignClaims issued b.appId b.bucket key operation)) :
    queryField "presign_token"
        ("presign_token=" ++ presignToken sg issued b.toNamespace key operation) =
      some (presignToken sg issued b.toNamespace key operation) := by
  have hchars := presignToken_chars hsg
  generalize presignToken sg issued b.toNamespace key operation = token at hchars ⊢
  have hone : splitAt '&' ("presign_token=" ++ token) = ["presign_token=" ++ token] := by
    have hnone : ∀ part ∈ ["presign_token=" ++ token], '&' ∉ part.toList := by
      intro part hpart hmem
      rw [List.mem_singleton.mp hpart, String.toList_append, List.mem_append] at hmem
      rcases hmem with hmem | hmem
      · exact absurd hmem (by decide)
      · exact (hchars _ hmem).2.2.1 rfl
    have hsplit := splitAt_intercalate hnone (List.cons_ne_nil _ _)
    rwa [String.intercalate_singleton] at hsplit
  have hpair : splitOnce '=' ("presign_token=" ++ token) = some ("presign_token", token) := by
    have htext : "presign_token=" = "presign_token" ++ String.ofList ['='] := by decide
    rw [htext]
    exact splitOnce_append (by decide) token
  have hname : formDecode "presign_token" = some "presign_token" :=
    formDecode_of_not_mem (by decide) (by decide)
  have htoken : formDecode token = some token :=
    formDecode_of_not_mem (fun hmem => (hchars _ hmem).2.1 rfl)
      fun hmem => (hchars _ hmem).2.2.2 rfl
  rw [queryField, hone]
  simp only [List.map_singleton, hpair, Option.getD_some, List.filter_cons, List.filter_nil, hname,
    beq_self_eq_true, if_true, htoken]

theorem readPresignedUrl_issued :
    readPresignedUrl (issuePresignedUrl sg issued b.appId b.bucket key operation).url =
      if keyInPath key = "" then none
      else (percentDecode (keyInPath key)).bind fun decoded =>
        (splitTarget (issuePresignedUrl sg issued b.appId b.bucket key operation).url).2.bind
          fun query => (queryField "presign_token" query).map fun token =>
            ⟨b.appId, b.bucket, decoded, token⟩ := by
  have happ : percentDecode b.appId = some b.appId := percentDecode_of_percent_not_mem fun hmem =>
    (isPathChar_of_plain (b.served.app_plain.plain _ hmem)).2.1 rfl
  have hbucket : percentDecode b.bucket = some b.bucket :=
    percentDecode_of_percent_not_mem fun hmem =>
      (isPathChar_of_plain (b.served.bucket_plain.plain _ hmem)).2.1 rfl
  rw [readPresignedUrl, path_issued, matchRoute_presignedObject b.served.app_plain.isName
    b.served.bucket_plain.isName]
  split
  · rfl
  · simp only [Option.bind_eq_bind, Option.bind_some, List.mapM_cons, List.mapM_nil, happ, hbucket]
    cases percentDecode (keyInPath key) with
    | none => rfl
    | some decoded =>
      cases (splitTarget (issuePresignedUrl sg issued b.appId b.bucket key operation).url).2 with
      | none => rfl
      | some query =>
        simp only [Option.bind_some, pure]
        cases queryField "presign_token" query <;> rfl

theorem urlPlain_of_read {token : String}
    (h : readPresignedUrl (issuePresignedUrl sg issued b.appId b.bucket key operation).url =
      some ⟨b.appId, b.bucket, key, token⟩) : UrlPlain key := by
  rw [readPresignedUrl_issued] at h
  split at h
  · cases h
  · obtain ⟨decoded, hdecoded, h⟩ := Option.bind_eq_some_iff.mp h
    obtain ⟨query, -, h⟩ := Option.bind_eq_some_iff.mp h
    obtain ⟨token', -, h⟩ := Option.map_eq_some_iff.mp h
    rw [PresignedRequest.mk.injEq] at h
    obtain ⟨-, -, rfl, -⟩ := h
    obtain ⟨hsame, hescape⟩ := (percentDecode_of_isPrefix (keyInPath_isPrefix _)).mp hdecoded
    obtain ⟨hquery, hfragment⟩ := keyInPath_eq_iff.mp hsame
    exact ⟨hquery, hfragment, hescape⟩

theorem read_of_urlPlain (hsg : sg.Documented (presignClaims issued b.appId b.bucket key operation))
    (hblank : isBlank key = false) (h : UrlPlain key) :
    readPresignedUrl (issuePresignedUrl sg issued b.appId b.bucket key operation).url =
      some ⟨b.appId, b.bucket, key, presignToken sg issued b.toNamespace key operation⟩ := by
  have hpath : keyInPath key = key := keyInPath_eq_iff.mpr ⟨h.no_query, h.no_fragment⟩
  have hne : key ≠ "" := by
    rintro rfl
    exact absurd hblank (by decide)
  rw [readPresignedUrl_issued, query_issued hsg hpath, hpath, if_neg hne,
    percentDecode_self_iff.mpr h.no_escape]
  simp only [Option.bind_some, queryField_token hsg, Option.map_some]

/-- **A presigned URL works exactly for keys that mean nothing in a URL**: no `?`, no
    `#` and no percent sign with two hexadecimal digits behind it. -/
theorem presigned_url_works_iff
    (hsg : sg.Documented (presignClaims issued b.appId b.bucket key operation))
    (hblank : isBlank key = false) :
    PresignedUrlWorks sg issued b.toNamespace key operation ↔ UrlPlain key := by
  constructor
  · rintro ⟨token, hread, -⟩
    exact urlPlain_of_read hread
  · intro hplain
    refine ⟨_, read_of_urlPlain hsg hblank hplain, fun used hused => ?_⟩
    have hdot : '.' ∉ (sg.encodeClaims
        (presignClaims issued b.appId b.bucket key operation)).toList :=
      fun hmem => absurd (hsg.payload _ hmem) (by decide)
    exact ⟨_, verifyPresignToken_signed hsg.decodes hdot hused⟩

end Issued

/-! ### Two keys -/

/-- The claims of an upload of `50%25.png`, signed with the secret `secret`. -/
def escapedSigner : Signer where
  signPayload _ := "eaf2e9749f682aa594566e55be4e23514947eb5714aa8eb0f900bb1599ab143d"
  encodeClaims _ :=
    "eyJhcHBfaWQiOiJkZWZhdWx0IiwiYnVja2V0IjoiYXZhdGFycyIsImtleSI6IjUwJTI1LnBuZyIsIm" ++
      "9wZXJhdGlvbiI6InVwbG9hZCIsImV4cCI6MTc2NzIyNjUwMH0"
  decodeClaims _ := some (presignClaims newYearOs "default" "avatars" "50%25.png" "upload")

theorem escapedSigner_documented :
    escapedSigner.Documented
      (presignClaims newYearOs "default" "avatars" "50%25.png" "upload") where
  decodes := rfl
  payload := by
    have htext : (escapedSigner.encodeClaims
        (presignClaims newYearOs "default" "avatars" "50%25.png" "upload")).toList = _ :=
      String.toList_append
    rw [htext]
    exact List.forall_mem_append.mpr ⟨forall_mem_literal rfl, forall_mem_literal rfl⟩
  signature := forall_mem_literal rfl

/-- The key `50%25.png` is accepted, and its URL is read as one for `50%.png`. -/
theorem escaped_key_misread :
    isBlank "50%25.png" = false ∧ normalizeObjectKey "50%25.png" = .ok ["50%25.png"] ∧
      escapedSigner.Documented (presignClaims newYearOs "default" "avatars" "50%25.png" "upload") ∧
      ¬ PresignedUrlWorks escapedSigner newYearOs avatarsNamespace.toNamespace "50%25.png"
        "upload" := by
  refine ⟨by decide, by decide +kernel, escapedSigner_documented, ?_⟩
  rintro ⟨token, hread, -⟩
  have hplain : UrlPlain "50%25.png" := @urlPlain_of_read _ _ avatarsNamespace _ _ _ hread
  exact hplain.no_escape ⟨'2', '5', ⟨['5', '0'], ['.', 'p', 'n', 'g'], rfl⟩, rfl, rfl⟩

theorem photoPayload_chars :
    ∀ c ∈ photoPayload.toList, (isNameChar c || isAsciiUppercase c) = true := by
  have htext : photoPayload.toList = _ := String.toList_append
  rw [htext]
  exact List.forall_mem_append.mpr ⟨forall_mem_literal rfl, forall_mem_literal rfl⟩

theorem photoSignature_chars :
    ∀ c ∈ photoSignature.toList, (isNameChar c || isAsciiUppercase c) = true :=
  forall_mem_literal rfl

theorem photoKey_documented :
    photoKey.signer.Documented
      (presignClaims newYearOs "default" "avatars" "photo.png" "upload") where
  decodes := rfl
  payload := photoPayload_chars
  signature := photoSignature_chars

theorem photo_url_works :
    PresignedUrlWorks photoKey.signer newYearOs avatarsNamespace.toNamespace "photo.png"
      "upload" := by
  have hplain : UrlPlain "photo.png" :=
    ⟨by decide, by decide, not_hasEscape_of_percent_not_mem (by decide)⟩
  exact (@presigned_url_works_iff _ _ avatarsNamespace _ _ photoKey_documented (by decide)).mpr
    hplain

end Peanut
