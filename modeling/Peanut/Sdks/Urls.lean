import Peanut.Http.PercentEncoding
import Peanut.Sdks.Retry

/-!
# The URLs that the SDKs build

The functions of the four SDKs that put a segment, an object key or parameters into a
URL, and the reading they are meant for: a path is split at `/`, a query at `&` and the
first `=`, and the pieces are percent-decoded.
-/

namespace Peanut

namespace Sdks

/-! ### Encoders of the languages -/

def isAsciiAlphanumeric (c : Char) : Bool :=
  isAsciiLowercase c || isAsciiUppercase c || isAsciiDigit c

/-- `encodeURIComponent` of JavaScript and `Uri.encodeComponent` of Dart. -/
def isComponentChar (c : Char) : Bool := isAsciiAlphanumeric c || "-_.!~*'()".toList.contains c

/-- `URLSearchParams` of JavaScript; Java's `URLEncoder` keeps the same. -/
def isFormChar (c : Char) : Bool := isAsciiAlphanumeric c || "*-._".toList.contains c

/-- `Uri.encodeQueryComponent` of Dart. -/
def isUnreservedChar (c : Char) : Bool := isAsciiAlphanumeric c || "-._~".toList.contains c

/-- `CharacterSet.urlPathAllowed` of Swift. -/
def isPathAllowedChar (c : Char) : Bool :=
  isAsciiAlphanumeric c || "!$&'()*+,-./:=@_~".toList.contains c

/-! ### Parameters -/

/-- The parameters of a query; one without a value is left out. -/
structure QueryParams where
  entries : List (String × Option String)
  nodup : (entries.map Prod.fst).Nodup

def QueryParams.given (params : QueryParams) : List (String × String) :=
  params.entries.filterMap fun entry => entry.2.map fun value => (entry.1, value)

def queryItem (encode : String → String) (param : String × String) : String :=
  encode param.1 ++ "=" ++ encode param.2

def withQuestionMark (query : String) : String := if query = "" then "" else "?" ++ query

/-- Each part encoded, with the slashes between them as they are. -/
def encodedParts (encode : String → String) (parts : List String) : String :=
  "/".intercalate (parts.map encode)

/-! ### JavaScript -/

def encodePath (value : String) : String := percentEncode isComponentChar value

def encodeKey (value : String) : String := encodedParts encodePath (splitAt '/' value)

/-- `URLSearchParams.set` -/
def searchSet (search : List (String × String)) (key value : String) : List (String × String) :=
  if search.any fun param => param.1 == key then
    search.map fun param => if param.1 == key then (key, value) else param
  else search ++ [(key, value)]

def searchParams (params : QueryParams) : List (String × String) :=
  params.entries.foldl (fun search entry =>
    match entry.2 with
    | some value => searchSet search entry.1 value
    | none => search) []

def toQuery (params : QueryParams) : String :=
  withQuestionMark ("&".intercalate ((searchParams params).map (queryItem (formEncode isFormChar))))

/-! ### Dart -/

def dartSegment (value : String) : String := percentEncode isComponentChar value

def dartKey (value : String) : String :=
  encodedParts (percentEncode isComponentChar) (splitAt '/' value)

def dartQuery (params : QueryParams) : String :=
  withQuestionMark ("&".intercalate
    (params.given.map (queryItem (formEncode isUnreservedChar))))

/-! ### Java -/

/-- `URLEncoder.encode(value, UTF_8).replace("+", "%20")` -/
def javaSegment (value : String) : String :=
  String.ofList ((formEncode isFormChar value).toList.flatMap fun c =>
    if c = '+' then ['%', '2', '0'] else [c])

def javaKeyPath (value : String) : String := encodedParts javaSegment (splitAt '/' value)

def javaQuery (params : QueryParams) : String :=
  withQuestionMark ("&".intercalate (params.given.map (queryItem javaSegment)))

/-! ### Swift -/

/-- What is used of `String.split`, which does not see a slash that is part of a longer
    character, and of `sorted`. -/
structure SwiftStrings where
  split : String → List String
  sorted : List String → List String
  split_joined : ∀ value, "/".intercalate (split value) = value
  sorted_perm : ∀ items, (sorted items).Perm items

def swiftSegment (value : String) : String := percentEncode isPathAllowedChar value

def swiftKeyPath (swift : SwiftStrings) (value : String) : String :=
  encodedParts swiftSegment (swift.split value)

def swiftQuery (swift : SwiftStrings) (params : QueryParams) : String :=
  withQuestionMark ("&".intercalate (swift.sorted (params.given.map (queryItem swiftSegment))))

/-! ### The four SDKs -/

structure UrlBuilder where
  segment : String → String
  keyPath : String → String
  query : QueryParams → String

def Sdk.urls (swift : SwiftStrings) : Sdk → UrlBuilder
  | .js => ⟨encodePath, encodeKey, toQuery⟩
  | .dart => ⟨dartSegment, dartKey, dartQuery⟩
  | .java => ⟨javaSegment, javaKeyPath, javaQuery⟩
  | .swift => ⟨swiftSegment, swiftKeyPath swift, swiftQuery swift⟩

/-! ### Reading -/

def readPath (path : String) : Option (List String) := (splitAt '/' path).mapM percentDecode

def readPair (item : String) : Option (String × String) := do
  let parts := (splitOnce '=' item).getD (item, "")
  let key ← formDecode parts.1
  let value ← formDecode parts.2
  return (key, value)

/-- A query with its question mark. -/
def readQuery (query : String) : Option (List (String × String)) :=
  match query.toList with
  | [] => some []
  | _ :: rest => (splitAt '&' (String.ofList rest)).mapM readPair

/-- **The URLs can be read.** -/
structure Reversible (urls : UrlBuilder) (segment key : String) (params : QueryParams) : Prop where
  segment : readPath (urls.segment segment) = some [segment]
  key : readPath (urls.keyPath key) = some (splitAt '/' key)
  query : ∃ read, readQuery (urls.query params) = some read ∧ read.Perm params.given

/-! ### Lists of pieces -/

theorem mapM_map_eq {α β γ : Type} {f : β → Option γ} {enc : α → β} {g : α → γ} {l : List α}
    (h : ∀ a ∈ l, f (enc a) = some (g a)) : (l.map enc).mapM f = some (l.map g) := by
  induction l with
  | nil => rfl
  | cons a l ih =>
    rw [List.forall_mem_cons] at h
    rw [List.map_cons, List.mapM_cons, h.1, ih h.2]
    rfl

theorem length_of_mapM {α β : Type} {f : α → Option β} {l : List α} {r : List β}
    (h : l.mapM f = some r) : r.length = l.length := by
  induction l generalizing r with
  | nil =>
    cases h
    rfl
  | cons a l ih =>
    rw [List.mapM_cons] at h
    obtain ⟨b, -, h⟩ := Option.bind_eq_some_iff.mp h
    obtain ⟨bs, hbs, h⟩ := Option.bind_eq_some_iff.mp h
    cases h
    rw [List.length_cons, List.length_cons, ih hbs]

theorem length_splitAt (c : Char) (text : String) :
    (splitAt c text).length = text.toList.count c + 1 := by
  rw [splitAt, List.length_map]
  induction text.toList with
  | nil => rfl
  | cons d l ih =>
    rw [List.splitOn_cons_eq_if_modifyHead, List.count_cons]
    split
    · rw [List.length_cons, ih]
    · rw [List.length_modifyHead, ih]

theorem splitAt_of_not_mem {c : Char} {text : String} (h : c ∉ text.toList) :
    splitAt c text = [text] := by
  rw [splitAt, List.splitOn_eq_singleton h, List.map_singleton, String.ofList_toList]

theorem not_mem_of_mem_splitAt {c : Char} {text part : String} (h : part ∈ splitAt c text) :
    c ∉ part.toList := by
  obtain ⟨w, hw, rfl⟩ := List.mem_map.mp h
  rw [String.toList_ofList]
  clear h
  generalize text.toList = l at hw
  induction l generalizing w with
  | nil =>
    rw [List.splitOn_nil, List.mem_singleton] at hw
    rw [hw]
    exact List.not_mem_nil
  | cons d l ih =>
    rw [List.splitOn_cons_eq_if_modifyHead] at hw
    split at hw
    · rcases List.mem_cons.mp hw with rfl | hrest
      · exact List.not_mem_nil
      · exact ih w hrest
    · next hd =>
      obtain ⟨first, others, hpieces⟩ := List.exists_cons_of_ne_nil (List.splitOn_ne_nil c l)
      rw [hpieces, List.modifyHead_cons, List.mem_cons] at hw
      rw [hpieces] at ih
      rcases hw with rfl | hrest
      · rw [List.mem_cons, not_or]
        exact ⟨fun heq => hd (beq_iff_eq.mpr heq.symm), ih first List.mem_cons_self⟩
      · exact ih w (List.mem_cons_of_mem first hrest)

/-! ### Paths -/

theorem readPath_segment_iff {keep : Char → Bool} (hpercent : keep '%' = false) (value : String) :
    readPath (percentEncode keep value) = some [value] ↔
      ¬ ('/' ∈ value.toList ∧ keep '/' = true) := by
  rw [← mem_percentEncode (by decide), readPath]
  refine ⟨fun h hmem => ?_, fun hnot => ?_⟩
  · have hlength := length_of_mapM h
    rw [length_splitAt, List.length_singleton] at hlength
    have := List.count_pos_iff.mpr hmem
    omega
  · rw [splitAt_of_not_mem hnot, List.mapM_cons, percentDecode_percentEncode hpercent]
    rfl

theorem readPath_key {keep : Char → Bool} (hpercent : keep '%' = false) (value : String) :
    readPath (encodedParts (percentEncode keep) (splitAt '/' value)) =
      some (splitAt '/' value) := by
  have hparts : ∀ part ∈ (splitAt '/' value).map (percentEncode keep), '/' ∉ part.toList := by
    intro part hpart hmem
    obtain ⟨w, hw, rfl⟩ := List.mem_map.mp hpart
    exact not_mem_of_mem_splitAt hw ((mem_percentEncode (by decide) w).mp hmem).1
  have hne : (splitAt '/' value).map (percentEncode keep) ≠ [] := by
    rw [Ne, List.map_eq_nil_iff, ← List.length_eq_zero_iff, length_splitAt]
    exact Nat.succ_ne_zero _
  have hread := @mapM_map_eq _ _ _ percentDecode (percentEncode keep) id (splitAt '/' value)
    fun part _ => percentDecode_percentEncode hpercent part
  rw [readPath, encodedParts, show "/" = String.ofList ['/'] from rfl,
    splitAt_intercalate hparts hne, hread, List.map_id]

theorem flatMap_intercalate {f : Char → List Char} {c : Char} (h : f c = [c])
    (parts : List (List Char)) : (List.intercalate [c] parts).flatMap f =
      List.intercalate [c] (parts.map fun part => part.flatMap f) := by
  induction parts with
  | nil => rfl
  | cons part parts ih =>
    cases parts with
    | nil => simp
    | cons next parts =>
      rw [List.intercalate_cons_cons, List.flatMap_append, List.flatMap_append, ih]
      simp [h]

theorem encodedParts_eq {keep : Char → Bool} (hslash : keep '/' = true) (parts : List String) :
    encodedParts (percentEncode keep) parts = percentEncode keep ("/".intercalate parts) := by
  have hone : percentEncodeChar keep '/' = ['/'] := by rw [percentEncodeChar, if_pos hslash]
  apply String.ext
  rw [encodedParts, percentEncode, String.toList_ofList, String.toList_intercalate,
    String.toList_intercalate, show "/".toList = ['/'] from rfl, flatMap_intercalate hone,
    List.map_map, List.map_map]
  congr 2
  funext part
  rw [Function.comp_apply, Function.comp_apply, percentEncode, String.toList_ofList]

theorem javaSegment_eq (value : String) : javaSegment value = percentEncode isFormChar value := by
  have hkept : ∀ l : List Char, '+' ∉ l →
      (l.flatMap fun c => if c = '+' then ['%', '2', '0'] else [c]) = l := by
    intro l hl
    refine (List.flatMap_congr fun c hc => ?_).trans (List.flatMap_singleton' l)
    rw [if_neg]
    rintro rfl
    exact hl hc
  have hplus : ∀ c, '+' ∉ percentEncodeChar isFormChar c := by
    intro c hmem
    exact absurd ((mem_percentEncodeChar (by decide)).mp hmem).2
      (by rw [← ((mem_percentEncodeChar (by decide)).mp hmem).1]; decide)
  rw [javaSegment, formEncode, percentEncode, String.toList_ofList]
  apply congrArg String.ofList
  rw [List.flatMap_assoc]
  congr 1
  funext c
  rw [formEncodeChar]
  split
  · next hspace =>
    subst hspace
    decide +kernel
  · exact hkept _ (hplus c)

/-! ### Queries -/

theorem searchParams_eq (params : QueryParams) : searchParams params = params.given := by
  have hfold : ∀ (entries : List (String × Option String)) (search : List (String × String)),
      (entries.map Prod.fst).Nodup →
      (∀ param ∈ search, param.1 ∉ entries.map Prod.fst) →
      entries.foldl (fun search entry =>
        match entry.2 with
        | some value => searchSet search entry.1 value
        | none => search) search =
      search ++ entries.filterMap fun entry => entry.2.map fun value => (entry.1, value) := by
    intro entries
    induction entries with
    | nil => intro search _ _; exact (List.append_nil search).symm
    | cons entry entries ih =>
      intro search hnodup hsearch
      rw [List.map_cons, List.nodup_cons] at hnodup
      have hrest : ∀ param ∈ search, param.1 ∉ entries.map Prod.fst := fun param hparam hmem =>
        hsearch param hparam (List.mem_cons_of_mem _ hmem)
      rw [List.foldl_cons]
      cases hvalue : entry.2 with
      | none =>
        rw [List.filterMap_cons_none (by rw [hvalue]; rfl)]
        exact ih search hnodup.2 hrest
      | some value =>
        have hset : searchSet search entry.1 value = search ++ [(entry.1, value)] := by
          rw [searchSet, if_neg]
          rw [List.any_eq_true]
          rintro ⟨param, hparam, hsame⟩
          rw [beq_iff_eq] at hsame
          exact hsearch param hparam (hsame ▸ List.mem_cons_self)
        rw [List.filterMap_cons_some (b := (entry.1, value)) (by rw [hvalue]; rfl)]
        simp only [hset]
        rw [ih _ hnodup.2, List.append_assoc, List.singleton_append]
        intro param hparam
        rcases List.mem_append.mp hparam with hold | hnew
        · exact hrest param hold
        · rw [List.mem_singleton.mp hnew]
          exact hnodup.1
  have h := hfold params.entries [] params.nodup (fun _ h => by cases h)
  rwa [List.nil_append] at h

theorem readQuery_items {items : List String} (hitems : ∀ item ∈ items, '=' ∈ item.toList)
    (hne : items ≠ []) : readQuery (withQuestionMark ("&".intercalate items)) =
      (splitAt '&' ("&".intercalate items)).mapM readPair := by
  have hnonempty : "&".intercalate items ≠ "" := by
    intro hempty
    have hlist := congrArg String.toList hempty
    rw [String.toList_intercalate, show "&".toList = ['&'] from rfl] at hlist
    obtain ⟨item, rest, rfl⟩ := List.exists_cons_of_ne_nil hne
    have hmem := @mem_intercalate_of_mem '&' '=' ((item :: rest).map String.toList) item.toList
      (List.mem_map_of_mem List.mem_cons_self) (hitems item List.mem_cons_self)
    rw [hlist] at hmem
    cases hmem
  rw [withQuestionMark, if_neg hnonempty, readQuery, String.toList_append]
  show (splitAt '&' (String.ofList ("&".intercalate items).toList)).mapM readPair = _
  rw [String.ofList_toList]

theorem queryItem_eq (encode : String → String) (param : String × String) :
    queryItem encode param =
      encode param.1 ++ String.ofList ['='] ++ encode param.2 := rfl

theorem readQuery_encoded {encode : String → String}
    (hdecode : ∀ text, formDecode (encode text) = some text)
    (hamp : ∀ text, '&' ∉ (encode text).toList) (hequals : ∀ text, '=' ∉ (encode text).toList)
    (params : List (String × String)) :
    readQuery (withQuestionMark ("&".intercalate (params.map (queryItem encode)))) =
      some params := by
  by_cases hnil : params = []
  · subst hnil
    rfl
  · have hitems : ∀ item ∈ params.map (queryItem encode), '=' ∈ item.toList := by
      intro item hitem
      obtain ⟨param, -, rfl⟩ := List.mem_map.mp hitem
      simp [queryItem]
    have hseparate : ∀ item ∈ params.map (queryItem encode), '&' ∉ item.toList := by
      intro item hitem
      obtain ⟨param, -, rfl⟩ := List.mem_map.mp hitem
      simp [queryItem, hamp]
    have hne : params.map (queryItem encode) ≠ [] := by simpa using hnil
    rw [readQuery_items hitems hne, show "&" = String.ofList ['&'] from rfl,
      splitAt_intercalate hseparate hne]
    refine (mapM_map_eq (g := id) fun param _ => ?_).trans (congrArg some (List.map_id _))
    rw [queryItem_eq, readPair, splitOnce_append (hequals param.1)]
    simp [hdecode]

/-! ### Queries of the Swift SDK -/

/-- No sign of a parameter means anything in a query. -/
def IsPlainParam (param : String × String) : Prop :=
  '&' ∉ param.1.toList ∧ '&' ∉ param.2.toList ∧ '+' ∉ param.1.toList ∧ '+' ∉ param.2.toList ∧
    '=' ∉ param.1.toList

def plusesToSpaces (text : String) : String := text.map plusToSpace

theorem formDecode_swiftSegment (text : String) :
    formDecode (swiftSegment text) = some (plusesToSpaces text) := by
  rw [swiftSegment, formDecode_percentEncode (by decide), plusesToSpaces]
  congr 2
  funext c
  split
  · rfl
  · next hkeep =>
    rw [plusToSpace, if_neg]
    rw [beq_iff_eq]
    rintro rfl
    exact hkeep (by decide)

theorem queryItem_swiftSegment (param : String × String) :
    queryItem swiftSegment param = swiftSegment (param.1 ++ "=" ++ param.2) := by
  have hequals : swiftSegment "=" = "=" := by decide +kernel
  apply String.ext
  simp only [queryItem, swiftSegment, percentEncode, String.toList_append, String.toList_ofList,
    List.flatMap_append]
  have hone := congrArg String.toList hequals
  rw [swiftSegment, percentEncode, String.toList_ofList] at hone
  rw [hone]

theorem readPair_swift (param : String × String) : ∃ key value,
    param.1 ++ "=" ++ param.2 = key ++ "=" ++ value ∧ '=' ∉ key.toList ∧
      readPair (queryItem swiftSegment param) =
        some (plusesToSpaces key, plusesToSpaces value) := by
  have hmem : (param.1 ++ "=" ++ param.2).toList.contains '=' = true := by
    rw [List.contains_iff_mem]
    simp
  obtain ⟨cut, hcut⟩ : ∃ cut, splitOnce '=' (param.1 ++ "=" ++ param.2) = some cut := by
    rw [splitOnce, if_pos hmem]
    exact ⟨_, rfl⟩
  obtain ⟨hjoined, hkey⟩ := splitOnce_eq_some (a := cut.1) (b := cut.2) hcut
  refine ⟨cut.1, cut.2, hjoined, hkey, ?_⟩
  have hitem : queryItem swiftSegment param =
      swiftSegment cut.1 ++ String.ofList ['='] ++ swiftSegment cut.2 := by
    rw [queryItem_swiftSegment, hjoined]
    exact (queryItem_swiftSegment (cut.1, cut.2)).symm
  have hfirst : '=' ∉ (swiftSegment cut.1).toList := fun h =>
    hkey ((mem_percentEncode (by decide) cut.1).mp h).1
  rw [hitem, readPair, splitOnce_append hfirst]
  simp [formDecode_swiftSegment]

/-- The key that is read is no longer than the key, and as long only where that has no
    equals sign. -/
theorem length_le_of_cut {k v key value : String} (h : k ++ "=" ++ v = key ++ "=" ++ value)
    (hkey : '=' ∉ key.toList) :
    key.length ≤ k.length ∧ (key.length = k.length → key = k ∧ value = v) := by
  have hlist : k.toList ++ '=' :: v.toList = key.toList ++ '=' :: value.toList := by
    simpa using congrArg String.toList h
  have hle : key.toList.length ≤ k.toList.length := by
    by_contra hlong
    have hwhole : k.toList ++ ['='] <+: k.toList ++ '=' :: v.toList := ⟨v.toList, by simp⟩
    have hread : key.toList <+: k.toList ++ '=' :: v.toList := hlist ▸ List.prefix_append _ _
    have hstart : k.toList ++ ['='] <+: key.toList := by
      refine List.prefix_of_prefix_length_le hwhole hread ?_
      rw [List.length_append, List.length_singleton]
      omega
    exact hkey (hstart.subset (by simp))
  rw [String.length_toList, String.length_toList] at hle
  refine ⟨hle, fun hlength => ?_⟩
  obtain ⟨hk, hv⟩ := List.append_inj hlist (by
    rw [String.length_toList, String.length_toList, hlength])
  exact ⟨(String.ext hk).symm, (String.ext (List.cons.inj hv).2).symm⟩

theorem count_intercalate {items : List String} (h : items ≠ []) :
    ("&".intercalate items).toList.count '&' + 1 =
      (items.map fun item => item.toList.count '&').sum + items.length := by
  rw [String.toList_intercalate, show "&".toList = ['&'] from rfl]
  induction items with
  | nil => exact absurd rfl h
  | cons item items ih =>
    cases items with
    | nil => simp
    | cons next items =>
      rw [List.map_cons, List.map_cons, List.intercalate_cons_cons, List.count_append,
        List.count_append, List.map_cons, List.sum_cons, List.length_cons]
      have := ih (List.cons_ne_nil _ _)
      rw [List.map_cons] at this
      simp only [List.count_singleton_self]
      omega

theorem eq_of_sum_eq {α : Type} {f g : α → Nat} {l : List α} (hle : ∀ a ∈ l, f a ≤ g a)
    (hsum : (l.map f).sum = (l.map g).sum) : ∀ a ∈ l, f a = g a := by
  induction l with
  | nil => intro a ha; cases ha
  | cons a l ih =>
    rw [List.forall_mem_cons] at hle ⊢
    rw [List.map_cons, List.map_cons, List.sum_cons, List.sum_cons] at hsum
    have hrest : (l.map f).sum ≤ (l.map g).sum := List.sum_le_sum hle.2
    have hfirst := hle.1
    exact ⟨by omega, ih hle.2 (by omega)⟩

section SwiftQuery

variable {swift : SwiftStrings} {params : QueryParams}

/-- What an item is read as. -/
def readItem (item : String) : String × String := (readPair item).getD ("", "")

theorem sorted_item {item : String}
    (h : item ∈ swift.sorted (params.given.map (queryItem swiftSegment))) :
    ∃ param ∈ params.given, queryItem swiftSegment param = item ∧
      readPair item = some (readItem item) := by
  obtain ⟨param, hparam, rfl⟩ := List.mem_map.mp ((swift.sorted_perm _).mem_iff.mp h)
  obtain ⟨key, value, -, -, hread⟩ := readPair_swift param
  exact ⟨param, hparam, rfl, by rw [readItem, hread]; rfl⟩

theorem sorted_ne_nil (hne : params.given ≠ []) :
    swift.sorted (params.given.map (queryItem swiftSegment)) ≠ [] := by
  intro hnil
  have hlength := (swift.sorted_perm (params.given.map (queryItem swiftSegment))).length_eq
  rw [hnil, List.length_map] at hlength
  exact hne (List.length_eq_zero_iff.mp hlength.symm)

theorem readQuery_swift (hne : params.given ≠ []) :
    readQuery (swiftQuery swift params) = (splitAt '&' ("&".intercalate
      (swift.sorted (params.given.map (queryItem swiftSegment))))).mapM readPair := by
  refine readQuery_items (fun item hitem => ?_) (sorted_ne_nil hne)
  obtain ⟨param, -, rfl, -⟩ := sorted_item hitem
  simp [queryItem]

theorem mapM_items (hne : params.given ≠ []) (hamp : ∀ param ∈ params.given,
    '&' ∉ (queryItem swiftSegment param).toList) :
    ∃ read, readQuery (swiftQuery swift params) = some read ∧
      read.Perm (params.given.map fun param => readItem (queryItem swiftSegment param)) := by
  have hseparate : ∀ item ∈ swift.sorted (params.given.map (queryItem swiftSegment)),
      '&' ∉ item.toList := by
    intro item hitem
    obtain ⟨param, hparam, rfl, -⟩ := sorted_item hitem
    exact hamp param hparam
  have hread := @mapM_map_eq _ _ _ readPair id readItem
    (swift.sorted (params.given.map (queryItem swiftSegment)))
    fun item hitem => (sorted_item hitem).choose_spec.2.2
  rw [List.map_id] at hread
  refine ⟨_, ?_, ((swift.sorted_perm _).map readItem).trans (List.Perm.of_eq (List.map_map ..))⟩
  rw [readQuery_swift hne, show "&" = String.ofList ['&'] from rfl,
    splitAt_intercalate hseparate (sorted_ne_nil hne), hread]

theorem not_mem_item {read : List (String × String)} (hne : params.given ≠ [])
    (hread : readQuery (swiftQuery swift params) = some read)
    (hlength : read.length = params.given.length) :
    ∀ param ∈ params.given, '&' ∉ (queryItem swiftSegment param).toList := by
  rw [readQuery_swift hne] at hread
  have hpieces := length_of_mapM hread
  have hcount := count_intercalate (@sorted_ne_nil swift params hne)
  have hperm := swift.sorted_perm (params.given.map (queryItem swiftSegment))
  rw [length_splitAt] at hpieces
  rw [hperm.length_eq, List.length_map] at hcount
  have hsum : ((swift.sorted (params.given.map (queryItem swiftSegment))).map
      fun item => item.toList.count '&').sum = 0 := by omega
  intro param hparam
  have hitem := hperm.mem_iff.mpr (List.mem_map_of_mem hparam)
  rw [List.sum_eq_zero_iff] at hsum
  exact List.count_eq_zero.mp (hsum _ (List.mem_map_of_mem hitem))

theorem not_mem_plusesToSpaces (text : String) : '+' ∉ (plusesToSpaces text).toList := by
  rw [plusesToSpaces, String.toList_map, List.mem_map]
  rintro ⟨c, -, hc⟩
  rw [plusToSpace] at hc
  split at hc
  · cases hc
  · next hne => exact hne (beq_iff_eq.mpr hc)

theorem plusesToSpaces_of_not_mem {text : String} (h : '+' ∉ text.toList) :
    plusesToSpaces text = text := by
  apply String.ext
  rw [plusesToSpaces, String.toList_map]
  refine (List.map_congr_left fun c hc => ?_).trans (List.map_id _)
  rw [plusToSpace, if_neg, id]
  rw [beq_iff_eq]
  rintro rfl
  exact h hc

theorem readItem_swift (param : String × String) : ∃ key value,
    readItem (queryItem swiftSegment param) = (plusesToSpaces key, plusesToSpaces value) ∧
      key.length ≤ param.1.length ∧
      (key.length = param.1.length ↔ '=' ∉ param.1.toList) ∧
      ('=' ∉ param.1.toList → key = param.1 ∧ value = param.2) := by
  obtain ⟨key, value, hjoined, hkey, hread⟩ := readPair_swift param
  obtain ⟨hle, hsame⟩ := length_le_of_cut hjoined hkey
  have hwhole : '=' ∉ param.1.toList → key.length = param.1.length := fun hnot =>
    Nat.le_antisymm hle (length_le_of_cut hjoined.symm hnot).1
  refine ⟨key, value, by rw [readItem, hread]; rfl, hle, ⟨fun heq => ?_, hwhole⟩,
    fun hnot => hsame (hwhole hnot)⟩
  rw [← (hsame heq).1]
  exact hkey

/-- **When the query of the Swift SDK is read as its parameters.** -/
theorem swiftQuery_iff : (∃ read, readQuery (swiftQuery swift params) = some read ∧
    read.Perm params.given) ↔ ∀ param ∈ params.given, IsPlainParam param := by
  by_cases hne : params.given = []
  · have hnone : swift.sorted (params.given.map (queryItem swiftSegment)) = [] := by
      have hperm := swift.sorted_perm (params.given.map (queryItem swiftSegment))
      rw [hne] at hperm ⊢
      exact hperm.eq_nil
    refine iff_of_true ⟨[], ?_, by rw [hne]⟩ fun param hparam => ?_
    · rw [swiftQuery, hnone]
      rfl
    · rw [hne] at hparam
      cases hparam
  · refine ⟨?_, fun hplain => ?_⟩
    · rintro ⟨read, hread, hperm⟩
      have hamp := not_mem_item hne hread hperm.length_eq
      obtain ⟨read', hread', hperm'⟩ := mapM_items hne hamp
      rw [hread] at hread'
      cases hread'
      have hsame := hperm'.symm.trans hperm
      have hkeys : ∀ param ∈ params.given,
          (readItem (queryItem swiftSegment param)).1.length = param.1.length := by
        refine eq_of_sum_eq (fun param _ => ?_) ?_
        · obtain ⟨key, value, hitem, hle, -, -⟩ := readItem_swift param
          rw [hitem, plusesToSpaces, String.length_map]
          exact hle
        · have hsum := (hsame.map fun param => param.1.length).sum_eq
          rwa [List.map_map] at hsum
      intro param hparam
      have hitem := hamp param hparam
      rw [queryItem_swiftSegment, swiftSegment, mem_percentEncode (by decide)] at hitem
      have hequals : '=' ∉ param.1.toList := by
        obtain ⟨key, value, hread, -, hiff, -⟩ := readItem_swift param
        have hlength := hkeys param hparam
        rw [hread, plusesToSpaces, String.length_map] at hlength
        exact hiff.mp hlength
      obtain ⟨other, -, hother⟩ := List.mem_map.mp (hsame.mem_iff.mpr hparam)
      obtain ⟨key, value, hread, -, -, -⟩ := readItem_swift other
      rw [hread] at hother
      subst hother
      refine ⟨fun h => hitem ⟨?_, by decide⟩, fun h => hitem ⟨?_, by decide⟩,
        not_mem_plusesToSpaces key, not_mem_plusesToSpaces value, hequals⟩
      · simp [h]
      · simp [h]
    · have hamp : ∀ param ∈ params.given, '&' ∉ (queryItem swiftSegment param).toList := by
        intro param hparam
        obtain ⟨hkey, hvalue, -, -, -⟩ := hplain param hparam
        rw [queryItem_swiftSegment, swiftSegment, mem_percentEncode (by decide)]
        simp [hkey, hvalue]
      obtain ⟨read, hread, hperm⟩ := mapM_items hne hamp
      refine ⟨read, hread, hperm.trans (List.Perm.of_eq ?_)⟩
      refine (List.map_congr_left fun param hparam => ?_).trans (List.map_id _)
      obtain ⟨-, -, hplus, hplus', hequals⟩ := hplain param hparam
      obtain ⟨key, value, hitem, -, -, hwhole⟩ := readItem_swift param
      obtain ⟨rfl, rfl⟩ := hwhole hequals
      rw [hitem, plusesToSpaces_of_not_mem hplus, plusesToSpaces_of_not_mem hplus']
      rfl

end SwiftQuery

/-! ### All four -/

theorem readQuery_percentEncode {keep : Char → Bool} (hpercent : keep '%' = false)
    (hplus : keep '+' = false) (hamp : keep '&' = false) (hequals : keep '=' = false)
    (params : List (String × String)) :
    readQuery (withQuestionMark ("&".intercalate (params.map (queryItem (percentEncode keep))))) =
      some params := by
  refine readQuery_encoded (fun text => ?_) (fun text hmem => ?_) (fun text hmem => ?_) params
  · rw [formDecode_percentEncode hpercent]
    refine congrArg some ((congrArg (text.map ·) (funext fun c => ?_)).trans String.map_id)
    split
    · next hc =>
      rw [plusToSpace, if_neg, id]
      rw [beq_iff_eq]
      rintro rfl
      rw [hplus] at hc
      cases hc
    · rfl
  · rw [mem_percentEncode (by decide), hamp] at hmem
    cases hmem.2
  · rw [mem_percentEncode (by decide), hequals] at hmem
    cases hmem.2

theorem readQuery_formEncode {keep : Char → Bool} (hpercent : keep '%' = false)
    (hplus : keep '+' = false) (hamp : keep '&' = false) (hequals : keep '=' = false)
    (params : List (String × String)) :
    readQuery (withQuestionMark ("&".intercalate (params.map (queryItem (formEncode keep))))) =
      some params := by
  refine readQuery_encoded (formDecode_formEncode hpercent hplus) (fun text hmem => ?_)
    (fun text hmem => ?_) params
  · rw [mem_formEncode (by decide) (by decide) text hmem] at hamp
    cases hamp
  · rw [mem_formEncode (by decide) (by decide) text hmem] at hequals
    cases hequals

theorem readPath_swiftSegment_iff (segment : String) :
    readPath (swiftSegment segment) = some [segment] ↔ '/' ∉ segment.toList := by
  rw [swiftSegment, readPath_segment_iff (by decide)]
  exact not_congr (and_iff_left (by decide))

theorem readQuery_toQuery (params : QueryParams) :
    readQuery (toQuery params) = some params.given := by
  rw [toQuery, searchParams_eq]
  exact readQuery_formEncode (by decide) (by decide) (by decide) (by decide) params.given

theorem readQuery_dartQuery (params : QueryParams) :
    readQuery (dartQuery params) = some params.given :=
  readQuery_formEncode (by decide) (by decide) (by decide) (by decide) params.given

theorem javaSegment_eq_percentEncode : javaSegment = percentEncode isFormChar :=
  funext javaSegment_eq

theorem readQuery_javaQuery (params : QueryParams) :
    readQuery (javaQuery params) = some params.given := by
  rw [javaQuery, javaSegment_eq_percentEncode]
  exact readQuery_percentEncode (by decide) (by decide) (by decide) (by decide) params.given

theorem readPath_segment {keep : Char → Bool} (hpercent : keep '%' = false)
    (hslash : keep '/' = false) (value : String) :
    readPath (percentEncode keep value) = some [value] := by
  rw [readPath_segment_iff hpercent, hslash]
  exact fun h => Bool.noConfusion h.2

/-- **Which URLs can be read.** -/
theorem urls_reversible_iff (swift : SwiftStrings) (sdk : Sdk) (segment key : String)
    (params : QueryParams) : Reversible (sdk.urls swift) segment key params ↔
      (sdk = .swift → '/' ∉ segment.toList ∧ ∀ param ∈ params.given, IsPlainParam param) := by
  cases sdk with
  | js =>
    refine iff_of_true ⟨readPath_segment (by decide) (by decide) segment, ?_, ?_⟩ nofun
    · exact readPath_key (by decide) key
    · exact ⟨params.given, readQuery_toQuery params, .refl _⟩
  | dart =>
    refine iff_of_true ⟨readPath_segment (by decide) (by decide) segment, ?_, ?_⟩ nofun
    · exact readPath_key (by decide) key
    · exact ⟨params.given, readQuery_dartQuery params, .refl _⟩
  | java =>
    have hsegment : readPath (javaSegment segment) = some [segment] := by
      rw [javaSegment_eq_percentEncode]
      exact readPath_segment (by decide) (by decide) segment
    have hkey : readPath (javaKeyPath key) = some (splitAt '/' key) := by
      rw [javaKeyPath, javaSegment_eq_percentEncode]
      exact readPath_key (by decide) key
    refine iff_of_true ⟨hsegment, hkey, ?_⟩ nofun
    exact ⟨params.given, readQuery_javaQuery params, .refl _⟩
  | swift =>
    have hkey : readPath (swiftKeyPath swift key) = some (splitAt '/' key) := by
      have hsame : swiftKeyPath swift key =
          encodedParts (percentEncode isPathAllowedChar) (splitAt '/' key) := by
        rw [encodedParts_eq (by decide), intercalate_splitAt, ← swift.split_joined key,
          ← encodedParts_eq (by decide), swift.split_joined]
        rfl
      rw [hsame, readPath_key (by decide)]
    rw [← readPath_swiftSegment_iff, ← @swiftQuery_iff swift params]
    exact ⟨fun h _ => ⟨h.segment, h.query⟩, fun h => ⟨(h rfl).1, hkey, (h rfl).2⟩⟩

/-! ### A slash in a segment -/

/-- Splitting at every slash, and no order among the items. -/
def plainSwift : SwiftStrings where
  split := splitAt '/'
  sorted := id
  split_joined := intercalate_splitAt
  sorted_perm _ := .refl _

theorem Reversible.slash_not_mem {swift : SwiftStrings} {segment key : String}
    {params : QueryParams}
    (h : Reversible (Sdk.swift.urls swift) segment key params) : '/' ∉ segment.toList :=
  (readPath_swiftSegment_iff segment).mp h.segment

theorem swift_slash_is_kept : swiftSegment "a/b" = "a/b" ∧
    ¬ ∀ segment key params, Reversible (Sdk.swift.urls plainSwift) segment key params := by
  refine ⟨?_, fun h => ?_⟩
  · decide +kernel
  · exact (h "a/b" "" ⟨[], List.nodup_nil⟩).slash_not_mem (by decide)

end Sdks

end Peanut
