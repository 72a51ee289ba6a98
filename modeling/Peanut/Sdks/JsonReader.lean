import Mathlib.Data.List.Chain
import Peanut.Library.EscapePairs

/-!
# The JSON reader of the Java SDK

`Json.extractString` finds a field with a regular expression and undoes the escapes of
its text by eight replacements in a row.  Java strings are lists of UTF-16 units.

An object text is given by what its encoder wrote: the tokens of the key and of the
value, each with the unit it stands for (`JsonToken`).
-/

namespace Peanut

namespace Sdks

open Masking EscapePairs

abbrev JavaString := List UInt16

abbrev quotationMark : UInt16 := 0x22
abbrev backslash : UInt16 := 0x5C
abbrev colon : UInt16 := 0x3A

/-- `\s` -/
def isRegexSpace (c : UInt16) : Bool := c == 0x20 || (0x09 ≤ c && c ≤ 0x0D)

/-- What `.` does not match. -/
def isLineTerminator (c : UInt16) : Bool :=
  c == 0x0A || c == 0x0D || c == 0x85 || c == 0x2028 || c == 0x2029

/-! ### The code -/

/-- `((?:\\.|[^"])*)"`: the alternatives in the order in which they are tried, each given up
    when nothing that follows matches.  The result is the group. -/
def matchBody : JavaString → Option JavaString
  | [] => none
  | [c] => if c = quotationMark then some [] else none
  | c :: d :: rest =>
      (if c = backslash ∧ isLineTerminator d = false then (matchBody rest).map (c :: d :: ·)
        else none) <|>
      (if c = quotationMark then some [] else (matchBody (d :: rest)).map (c :: ·))

/-- The regular expression at one place.  No white space is a colon or a quotation mark, so
    that `\s*` takes all there is. -/
def matchAt (field text : JavaString) : Option JavaString :=
  let literal := quotationMark :: field ++ [quotationMark]
  if literal.isPrefixOf text then
    match (text.drop literal.length).dropWhile isRegexSpace with
    | [] => none
    | c :: rest =>
        if c = colon then
          match rest.dropWhile isRegexSpace with
          | [] => none
          | d :: rest => if d = quotationMark then matchBody rest else none
        else none
  else none

/-- `Matcher.find` -/
def find (field : JavaString) : JavaString → Option JavaString
  | [] => matchAt field []
  | c :: text => matchAt field (c :: text) <|> find field text

/-- `/`, `b`, `f`, `n`, `r` and `t`, with what they stand for behind a backslash. -/
def controlLetters : List (UInt16 × UInt16) :=
  [(0x2F, 0x2F), (0x62, 0x08), (0x66, 0x0C), (0x6E, 0x0A), (0x72, 0x0D), (0x74, 0x09)]

/-- The letters behind a backslash, as `unescape` goes through them. -/
def replacements : List (UInt16 × UInt16) :=
  (quotationMark, quotationMark) :: (backslash, backslash) :: controlLetters

def unescape (value : JavaString) : JavaString := replaceChain backslash replacements value

def extractString (json field : JavaString) : Option JavaString := (find field json).map unescape

/-- A hexadecimal digit in either case. -/
structure HexDigit where
  value : Fin 16
  upper : Bool
deriving DecidableEq

def HexDigit.unit (d : HexDigit) : UInt16 :=
  if d.value < 10 then UInt16.ofNat (0x30 + d.value)
  else if d.upper then UInt16.ofNat (0x37 + d.value)
  else UInt16.ofNat (0x57 + d.value)

/-- The last digit of a number as `%04x` writes it. -/
def lowerDigit (n : Nat) : HexDigit := ⟨Fin.ofNat 16 n, false⟩

def quoteUnit (c : UInt16) : JavaString :=
  if c = quotationMark then [backslash, quotationMark]
  else if c = backslash then [backslash, backslash]
  else if c = 0x08 then [backslash, 0x62]
  else if c = 0x0C then [backslash, 0x66]
  else if c = 0x0A then [backslash, 0x6E]
  else if c = 0x0D then [backslash, 0x72]
  else if c = 0x09 then [backslash, 0x74]
  else if c < 0x20 then
    [backslash, 0x75, (lowerDigit (c.toNat / 4096)).unit, (lowerDigit (c.toNat / 256)).unit,
      (lowerDigit (c.toNat / 16)).unit, (lowerDigit c.toNat).unit]
  else [c]

def quote (value : JavaString) : JavaString :=
  quotationMark :: value.flatMap quoteUnit ++ [quotationMark]

/-- The members of `object`, each as `StringJoiner` adds it. -/
def objectMembers (pairs : List (JavaString × JavaString)) : JavaString :=
  [0x2C].intercalate (pairs.map fun pair => quote pair.1 ++ colon :: quote pair.2)

def object (pairs : List (JavaString × JavaString)) : JavaString :=
  0x7B :: objectMembers pairs ++ [0x7D]

/-! ### Encoded strings -/

/-- What an encoder writes for one unit of a string: the unit itself, a backslash and a
    letter, or the unit in four hexadecimal digits. -/
inductive JsonToken where
  | plain (c : UInt16) (h : c ≠ quotationMark ∧ c ≠ backslash ∧ 0x20 ≤ c)
  | short (r : UInt16 × UInt16) (h : r ∈ replacements)
  | unicode (a b c d : HexDigit)

namespace JsonToken

def text : JsonToken → JavaString
  | plain c _ => [c]
  | short r _ => [backslash, r.1]
  | unicode a b c d => [backslash, 0x75, a.unit, b.unit, c.unit, d.unit]

def value : JsonToken → UInt16
  | plain c _ => c
  | short r _ => r.2
  | unicode a b c d => UInt16.ofNat (((a.value * 16 + b.value) * 16 + c.value) * 16 + d.value)

def isPlain : JsonToken → Bool
  | plain _ _ => true
  | _ => false

def isUnicode : JsonToken → Bool
  | unicode _ _ _ _ => true
  | _ => false

/-- An escaped backslash before a control letter that stands for itself. -/
def exposes : JsonToken → JsonToken → Bool
  | short r _, plain c _ => r.1 == backslash && (controlLetters.lookup c).isSome
  | _, _ => false

end JsonToken

/-- A member of an object with a string as its value, in the text that an encoder wrote. -/
structure JsonMember where
  before : JavaString
  key : List JsonToken
  beforeColon : JavaString
  afterColon : JavaString
  value : List JsonToken
  after : JavaString
  beforeColon_space : ∀ c ∈ beforeColon, isRegexSpace c = true
  afterColon_space : ∀ c ∈ afterColon, isRegexSpace c = true

namespace JsonMember

variable (m : JsonMember)

def name : JavaString := m.key.map JsonToken.value

def content : JavaString := m.value.map JsonToken.value

/-- The text from the member on. -/
def rest : JavaString :=
  quotationMark :: m.key.flatMap JsonToken.text ++ quotationMark :: (m.beforeColon ++ colon ::
    (m.afterColon ++ quotationMark :: (m.value.flatMap JsonToken.text ++ quotationMark :: m.after)))

def text : JavaString := m.before ++ m.rest

/-- The name stands between quotation marks nowhere else in the text. -/
def OccursOnce : Prop :=
  ∀ i < m.text.length, (quotationMark :: m.name ++ [quotationMark]).isPrefixOf (m.text.drop i) →
    i = m.before.length

instance : Decidable m.OccursOnce :=
  inferInstanceAs (Decidable (∀ i < m.text.length, _ → _))

/-- The name is written as it is, and the value has no `\u` escape and no escaped backslash
    before a control letter. -/
def Readable : Prop :=
  (∀ t ∈ m.key, t.isPlain = true) ∧ (∀ t ∈ m.value, t.isUnicode = false) ∧
    m.value.IsChain (fun t t' => t.exposes t' = false)

instance : Decidable m.Readable :=
  inferInstanceAs (Decidable (_ ∧ _))

end JsonMember

/-! ### The group -/

theorem matchBody_plain {c : UInt16} (hquote : c ≠ quotationMark) (hback : c ≠ backslash)
    (l : JavaString) : matchBody (c :: l) = (matchBody l).map (c :: ·) := by
  cases l with
  | nil => simp [matchBody, hquote]
  | cons d l => rw [matchBody, if_neg fun h => hback h.1, if_neg hquote]; rfl

theorem matchBody_pair {d : UInt16} (hd : isLineTerminator d = false) {l group : JavaString}
    (h : matchBody l = some group) :
    matchBody (backslash :: d :: l) = some (backslash :: d :: group) := by
  rw [matchBody, if_pos ⟨rfl, hd⟩, h]
  rfl

theorem matchBody_quote (l : JavaString) : matchBody (quotationMark :: l) = some [] := by
  cases l with
  | nil => rfl
  | cons d l => rw [matchBody, if_neg fun h => absurd h.1 (by decide), if_pos rfl]; rfl

theorem HexDigit.unit_plain (d : HexDigit) : d.unit ≠ quotationMark ∧ d.unit ≠ backslash := by
  obtain ⟨value, upper⟩ := d
  revert value upper
  decide

theorem letter_not_terminator : ∀ r ∈ replacements, isLineTerminator r.1 = false := by
  simp only [replacements, controlLetters, List.forall_mem_cons, List.not_mem_nil, false_implies,
    implies_true, and_true]
  decide

theorem matchBody_text (tokens : List JsonToken) (after : JavaString) :
    matchBody (tokens.flatMap JsonToken.text ++ quotationMark :: after) =
      some (tokens.flatMap JsonToken.text) := by
  induction tokens with
  | nil => exact matchBody_quote after
  | cons t tokens ih =>
    rw [List.flatMap_cons, List.append_assoc]
    cases t with
    | plain c h =>
      rw [JsonToken.text, List.singleton_append, matchBody_plain h.1 h.2.1, ih]
      rfl
    | short r h => exact matchBody_pair (letter_not_terminator r h) ih
    | unicode a b c d =>
      refine matchBody_pair (by decide) ?_
      simp only [List.append_eq, List.cons_append, List.nil_append]
      rw [matchBody_plain a.unit_plain.1 a.unit_plain.2,
        matchBody_plain b.unit_plain.1 b.unit_plain.2,
        matchBody_plain c.unit_plain.1 c.unit_plain.2,
        matchBody_plain d.unit_plain.1 d.unit_plain.2, ih]
      rfl

/-! ### The search -/

theorem matchAt_isPrefix {field text group : JavaString} (h : matchAt field text = some group) :
    quotationMark :: field ++ [quotationMark] <+: text := by
  by_contra hnot
  rw [matchAt, if_neg fun hp => hnot (List.isPrefixOf_iff_prefix.mp hp)] at h
  cases h

theorem find_eq_none {field text : JavaString}
    (h : ∀ before rest, text = before ++ rest → matchAt field rest = none) :
    find field text = none := by
  induction text with
  | nil => exact h [] [] rfl
  | cons c text ih =>
    have hrest : find field text = none := by
      refine ih fun before rest htext => h (c :: before) rest ?_
      rw [htext, List.cons_append]
    rw [find, h [] _ rfl, hrest]
    rfl

/-- Where the expression can match at one place only, the search tells what it matches there. -/
theorem find_eq_matchAt {field before rest : JavaString}
    (h : ∀ p s, before ++ rest = p ++ s → p ≠ before → matchAt field s = none) :
    find field (before ++ rest) = matchAt field rest := by
  induction before with
  | nil =>
    cases rest with
    | nil => rfl
    | cons c rest =>
      rw [List.nil_append, find, find_eq_none fun p s htext => h (c :: p) s
        (by rw [List.nil_append, htext, List.cons_append]) (List.cons_ne_nil c p)]
      cases matchAt field (c :: rest) <;> rfl
  | cons c before ih =>
    have hfirst : matchAt field (c :: (before ++ rest)) = none :=
      h [] _ rfl (List.cons_ne_nil c before).symm
    rw [List.cons_append, find, hfirst, ih]
    · rfl
    · intro p s htext hp
      refine h (c :: p) s ?_ fun heq => hp (List.cons.inj heq).2
      rw [List.cons_append, htext, List.cons_append]

/-! ### The name -/

/-- The units in front of the first quotation mark. -/
def unquoted (text : JavaString) : JavaString := text.takeWhile (· != quotationMark)

theorem unquoted_quote (text : JavaString) : unquoted (quotationMark :: text) = [] := rfl

theorem unquoted_of_ne {c : UInt16} (h : c ≠ quotationMark) (text : JavaString) :
    unquoted (c :: text) = c :: unquoted text :=
  List.takeWhile_cons_of_pos (bne_iff_ne.mpr h)

theorem letter_ne_quote : ∀ r ∈ replacements, r.2 ≠ quotationMark → r.1 ≠ quotationMark := by
  simp only [replacements, controlLetters, List.forall_mem_cons, List.not_mem_nil, false_implies,
    implies_true, and_true]
  decide

theorem unquoted_escape {t : JsonToken} (ht : t.isPlain = false) {l l' : JavaString}
    (h : (unquoted l).length ≤ (unquoted l').length) :
    (unquoted (t.value :: l)).length < (unquoted (t.text ++ l')).length := by
  have hback : backslash ≠ quotationMark := by decide
  cases t with
  | plain c hc => cases ht
  | short r hr =>
    rw [JsonToken.value, JsonToken.text, List.cons_append, unquoted_of_ne hback]
    by_cases hquote : r.2 = quotationMark
    · rw [hquote, unquoted_quote]
      exact Nat.succ_pos _
    · rw [unquoted_of_ne hquote, List.singleton_append,
        unquoted_of_ne (letter_ne_quote r hr hquote)]
      simp only [List.length_cons]
      omega
  | unicode a b c d =>
    generalize (JsonToken.unicode a b c d).value = value
    simp only [JsonToken.text, List.cons_append, List.nil_append]
    have hletter : (0x75 : UInt16) ≠ quotationMark := by decide
    rw [unquoted_of_ne hback, unquoted_of_ne hletter, unquoted_of_ne a.unit_plain.1,
      unquoted_of_ne b.unit_plain.1, unquoted_of_ne c.unit_plain.1, unquoted_of_ne d.unit_plain.1]
    simp only [List.length_cons]
    by_cases hquote : value = quotationMark
    · rw [hquote, unquoted_quote]
      exact Nat.succ_pos _
    · rw [unquoted_of_ne hquote, List.length_cons]
      omega

theorem unquoted_length_le (tokens : List JsonToken) (after after' : JavaString) :
    (unquoted (tokens.map JsonToken.value ++ quotationMark :: after)).length +
        (if tokens.all JsonToken.isPlain = true then 0 else 1) ≤
      (unquoted (tokens.flatMap JsonToken.text ++ quotationMark :: after')).length := by
  induction tokens with
  | nil => exact Nat.zero_le _
  | cons t tokens ih =>
    rw [List.map_cons, List.cons_append, List.flatMap_cons, List.append_assoc, List.all_cons]
    cases ht : t.isPlain with
    | true =>
      cases t with
      | plain c h =>
        rw [JsonToken.value, JsonToken.text, List.singleton_append, unquoted_of_ne h.1,
          unquoted_of_ne h.1, List.length_cons, List.length_cons, Bool.true_and]
        omega
      | short r h => cases ht
      | unicode a b c d => cases ht
    | false =>
      rw [Bool.false_and, if_neg Bool.false_ne_true]
      exact unquoted_escape ht (le_trans (Nat.le_add_right _ _) ih)

theorem text_of_plain {tokens : List JsonToken} (h : ∀ t ∈ tokens, t.isPlain = true) :
    tokens.flatMap JsonToken.text = tokens.map JsonToken.value := by
  induction tokens with
  | nil => rfl
  | cons t tokens ih =>
    rw [List.forall_mem_cons] at h
    rw [List.flatMap_cons, List.map_cons, ih h.2]
    cases t with
    | plain c hc => rfl
    | short r hr => cases h.1
    | unicode a b c d => cases h.1

theorem name_isPrefix_iff (m : JsonMember) :
    quotationMark :: m.name ++ [quotationMark] <+: m.rest ↔
      ∀ t ∈ m.key, t.isPlain = true := by
  rw [JsonMember.rest, JsonMember.name, List.cons_append, List.cons_append, List.cons_prefix_cons]
  refine ⟨?_, ?_⟩
  · rintro ⟨-, more, hmore⟩
    have hle := unquoted_length_le m.key more (m.beforeColon ++ colon ::
      (m.afterColon ++ quotationMark :: (m.value.flatMap JsonToken.text ++
        quotationMark :: m.after)))
    rw [← hmore, List.append_assoc, List.singleton_append] at hle
    by_contra hnot
    rw [if_neg fun hall => hnot (List.all_eq_true.mp hall)] at hle
    omega
  · intro hplain
    refine ⟨rfl, ?_⟩
    rw [text_of_plain hplain, List.prefix_append_right_inj]
    exact List.prefix_append [quotationMark] _

theorem matchAt_rest (m : JsonMember) : matchAt m.name m.rest =
    if ∀ t ∈ m.key, t.isPlain = true then some (m.value.flatMap JsonToken.text) else none := by
  have hspace : ∀ {space : JavaString} {c : UInt16} {rest : JavaString},
      (∀ c ∈ space, isRegexSpace c = true) → isRegexSpace c = false →
        (space ++ c :: rest).dropWhile isRegexSpace = c :: rest := by
    intro space c rest h hc
    rw [List.dropWhile_append_of_pos h, List.dropWhile_cons_of_neg (by simp [hc])]
  by_cases hplain : ∀ t ∈ m.key, t.isPlain = true
  · rw [if_pos hplain, matchAt,
      if_pos (List.isPrefixOf_iff_prefix.mpr ((name_isPrefix_iff m).mpr hplain))]
    have hrest : m.rest = (quotationMark :: m.name ++ [quotationMark]) ++ (m.beforeColon ++ colon ::
        (m.afterColon ++ quotationMark ::
          (m.value.flatMap JsonToken.text ++ quotationMark :: m.after))) := by
      rw [JsonMember.rest, text_of_plain hplain, JsonMember.name, List.append_assoc]
      rfl
    rw [hrest, List.drop_left, hspace m.beforeColon_space (by decide)]
    simp only [if_true]
    rw [hspace m.afterColon_space (by decide)]
    simp only [if_true]
    exact matchBody_text m.value m.after
  · rw [if_neg hplain, matchAt, if_neg fun h => hplain ((name_isPrefix_iff m).mp
      (List.isPrefixOf_iff_prefix.mp h))]

theorem find_text {m : JsonMember} (h : m.OccursOnce) : find m.name m.text =
    if ∀ t ∈ m.key, t.isPlain = true then some (m.value.flatMap JsonToken.text) else none := by
  rw [← matchAt_rest]
  refine find_eq_matchAt fun p s htext hp => ?_
  cases hmatch : matchAt m.name s with
  | none => rfl
  | some group =>
    have hstart := matchAt_isPrefix hmatch
    have hlength : p.length < m.text.length := by
      have := hstart.length_le
      rw [JsonMember.text, htext, List.length_append]
      simp only [List.length_append, List.length_cons] at this
      omega
    have hwhere : p.length = m.before.length := by
      refine h p.length hlength ?_
      rw [JsonMember.text, htext, List.drop_left]
      exact List.isPrefixOf_iff_prefix.mpr hstart
    exact absurd (List.append_inj_left htext hwhere.symm).symm hp

/-! ### The replacements -/

theorem controlLetters_ordered : Ordered backslash controlLetters := by decide

theorem letter_quote : ∀ r ∈ replacements, r.1 = quotationMark → r.2 = quotationMark := by
  simp only [replacements, controlLetters, List.forall_mem_cons, List.not_mem_nil, false_implies,
    implies_true, and_true]
  decide

theorem letter_backslash : ∀ r ∈ replacements, r.1 = backslash → r.2 = backslash := by
  simp only [replacements, controlLetters, List.forall_mem_cons, List.not_mem_nil, false_implies,
    implies_true, and_true]
  decide

theorem lookup_controlLetters :
    ∀ r ∈ controlLetters, controlLetters.lookup r.1 = some r.2 := by
  refine fun r hr => ?_
  simp only [controlLetters, List.mem_cons, List.not_mem_nil, or_false] at hr
  rcases hr with rfl | rfl | rfl | rfl | rfl | rfl <;> rfl

theorem letter_control : ∀ r ∈ replacements, r.1 ≠ quotationMark → r.1 ≠ backslash →
    controlLetters.lookup r.1 = some r.2 :=
  List.forall_mem_cons.mpr ⟨fun h => absurd rfl h,
    List.forall_mem_cons.mpr ⟨fun _ h => absurd rfl h,
      fun r hr _ _ => lookup_controlLetters r hr⟩⟩

/-- A token after the replacement of quotation marks. -/
def JsonToken.quotesRead : JsonToken → JavaString
  | plain c _ => [c]
  | short r _ => if r.1 = quotationMark then [quotationMark] else [backslash, r.1]
  | unicode a b c d => (unicode a b c d).text

/-- A token after the replacement of backslashes, too. -/
def JsonToken.backslashesRead : JsonToken → JavaString
  | plain c _ => [c]
  | short r _ =>
      if r.1 = quotationMark then [quotationMark]
      else if r.1 = backslash then [backslash] else [backslash, r.1]
  | unicode a b c d => (unicode a b c d).text

theorem head?_text (tokens : List JsonToken) :
    (tokens.flatMap JsonToken.text).head? ≠ some quotationMark := by
  cases tokens with
  | nil =>
    intro heq
    cases heq
  | cons t tokens =>
    cases t with
    | plain c h => exact fun heq => h.1 (Option.some.inj heq)
    | short r h => exact fun heq => absurd (Option.some.inj heq) (by decide)
    | unicode a b c d => exact fun heq => absurd (Option.some.inj heq) (by decide)

theorem replaceAll_unicode {x y : UInt16} (hx : x ≠ 0x75) (a b c d : HexDigit) (l : JavaString) :
    replaceAll id [y] [backslash, x] ((JsonToken.unicode a b c d).text ++ l) =
      (JsonToken.unicode a b c d).text ++ replaceAll id [y] [backslash, x] l := by
  have hletter : (0x75 : UInt16) ≠ backslash := by decide
  simp only [JsonToken.text, List.cons_append, List.nil_append]
  rw [replaceAll_pair_differs hx.symm, replaceAll_pair_of_ne hletter,
    replaceAll_pair_of_ne a.unit_plain.2, replaceAll_pair_of_ne b.unit_plain.2,
    replaceAll_pair_of_ne c.unit_plain.2, replaceAll_pair_of_ne d.unit_plain.2]

theorem replaceAll_quotes (tokens : List JsonToken) :
    replaceAll id [quotationMark] [backslash, quotationMark] (tokens.flatMap JsonToken.text) =
      tokens.flatMap JsonToken.quotesRead := by
  induction tokens with
  | nil => rfl
  | cons t tokens ih =>
    rw [List.flatMap_cons, List.flatMap_cons]
    cases t with
    | plain c h =>
      rw [JsonToken.text, JsonToken.quotesRead, List.singleton_append, List.singleton_append,
        replaceAll_pair_of_ne h.2.1, ih]
    | short r h =>
      rw [JsonToken.text, JsonToken.quotesRead, List.cons_append, List.singleton_append]
      by_cases hquote : r.1 = quotationMark
      · rw [if_pos hquote, hquote, replaceAll_pair_found, ih, List.singleton_append]
      · rw [if_neg hquote, replaceAll_pair_differs hquote]
        by_cases hback : r.1 = backslash
        · rw [hback, replaceAll_pair_skip (head?_text tokens), ih]
          rfl
        · rw [replaceAll_pair_of_ne hback, ih]
          rfl
    | unicode a b c d => rw [replaceAll_unicode (by decide), ih]; rfl

theorem replaceAll_backslashes (tokens : List JsonToken) :
    replaceAll id [backslash] [backslash, backslash] (tokens.flatMap JsonToken.quotesRead) =
      tokens.flatMap JsonToken.backslashesRead := by
  induction tokens with
  | nil => rfl
  | cons t tokens ih =>
    rw [List.flatMap_cons, List.flatMap_cons]
    cases t with
    | plain c h =>
      rw [JsonToken.quotesRead, JsonToken.backslashesRead, List.singleton_append,
        List.singleton_append, replaceAll_pair_of_ne h.2.1, ih]
    | short r h =>
      rw [JsonToken.quotesRead, JsonToken.backslashesRead]
      by_cases hquote : r.1 = quotationMark
      · rw [if_pos hquote, if_pos hquote, List.singleton_append, List.singleton_append,
          replaceAll_pair_of_ne (by decide), ih]
      · rw [if_neg hquote, if_neg hquote, List.cons_append, List.singleton_append]
        by_cases hback : r.1 = backslash
        · rw [if_pos hback, hback, replaceAll_pair_found, ih, List.singleton_append]
        · rw [if_neg hback, replaceAll_pair_differs hback,
            replaceAll_pair_of_ne hback, ih]
          rfl
    | unicode a b c d =>
      rw [JsonToken.quotesRead, replaceAll_unicode (by decide), ih]
      rfl

/-- The replacements that remain are one pass. -/
def readControls : JavaString → JavaString := unpair backslash (controlLetters.lookup ·)

theorem unescape_text (tokens : List JsonToken) : unescape (tokens.flatMap JsonToken.text) =
    readControls (tokens.flatMap JsonToken.backslashesRead) := by
  rw [unescape, replacements, replaceChain, List.foldl_cons, List.foldl_cons, replaceAll_quotes,
    replaceAll_backslashes]
  exact replaceChain_eq controlLetters_ordered _

/-! ### What is read -/

/-- The text that a token is read as, when it exposes nothing. -/
def JsonToken.reading : JsonToken → JavaString
  | unicode a b c d => (unicode a b c d).text
  | t => [t.value]

theorem head_backslashesRead {r : UInt16 × UInt16} {hr : r ∈ replacements} (hback : r.1 = backslash)
    {t : JsonToken} (h : (JsonToken.short r hr).exposes t = false) :
    ∃ d l, t.backslashesRead = d :: l ∧ controlLetters.lookup d = none := by
  cases t with
  | plain c hc =>
    refine ⟨c, [], rfl, ?_⟩
    rwa [JsonToken.exposes, hback, beq_self_eq_true, Bool.true_and, Option.isSome_eq_false_iff,
      Option.isNone_iff_eq_none] at h
  | short r' hr' =>
    rw [JsonToken.backslashesRead]
    split
    · exact ⟨quotationMark, [], rfl, by decide⟩
    · split
      · exact ⟨backslash, [], rfl, by decide⟩
      · exact ⟨backslash, [r'.1], rfl, by decide⟩
  | unicode a b c d => exact ⟨backslash, _, rfl, by decide⟩

theorem readControls_cons {t : JsonToken} {tokens : List JsonToken}
    (h : ∀ t' ∈ tokens.head?, t.exposes t' = false) :
    readControls ((t :: tokens).flatMap JsonToken.backslashesRead) =
      t.reading ++ readControls (tokens.flatMap JsonToken.backslashesRead) := by
  rw [List.flatMap_cons, readControls]
  cases t with
  | plain c hc => exact unpair_of_ne hc.2.1 _
  | short r hr =>
    rw [show (JsonToken.short r hr).reading = [r.2] from rfl, JsonToken.backslashesRead]
    by_cases hquote : r.1 = quotationMark
    · rw [if_pos hquote, letter_quote r hr hquote]
      exact unpair_of_ne (by decide) _
    · rw [if_neg hquote]
      by_cases hback : r.1 = backslash
      · rw [if_pos hback, letter_backslash r hr hback]
        cases tokens with
        | nil => rfl
        | cons t' tokens =>
          obtain ⟨d, l, hd, hnone⟩ := head_backslashesRead hback (h t' rfl)
          rw [List.flatMap_cons, hd]
          exact unpair_skip hnone _
      · rw [if_neg hback]
        exact unpair_found (letter_control r hr hquote hback) _
  | unicode a b c d =>
    have hletter : (0x75 : UInt16) ≠ backslash := by decide
    simp only [JsonToken.backslashesRead, JsonToken.reading, JsonToken.text, List.cons_append,
      List.nil_append]
    rw [unpair_skip (by decide), unpair_of_ne hletter, unpair_of_ne a.unit_plain.2,
      unpair_of_ne b.unit_plain.2, unpair_of_ne c.unit_plain.2, unpair_of_ne d.unit_plain.2]

theorem controlLetters_ne_backslash {c e : UInt16} (h : controlLetters.lookup c = some e) :
    e ≠ backslash := by
  obtain ⟨before, after, hletters, -⟩ := List.lookup_eq_some_iff.mp h
  refine (controlLetters_ordered.2 (c, e) ?_).2
  rw [hletters]
  exact List.mem_append_right _ List.mem_cons_self

theorem readControls_exposed {r : UInt16 × UInt16} {hr : r ∈ replacements} (hback : r.1 = backslash)
    {c e : UInt16} {hc : c ≠ quotationMark ∧ c ≠ backslash ∧ 0x20 ≤ c}
    (he : controlLetters.lookup c = some e) (tokens : List JsonToken) :
    readControls ((.short r hr :: .plain c hc :: tokens).flatMap JsonToken.backslashesRead) =
      e :: readControls (tokens.flatMap JsonToken.backslashesRead) := by
  have hback2 : (JsonToken.short r hr).backslashesRead = [backslash] := by
    rw [JsonToken.backslashesRead, if_neg fun h => absurd (hback.symm.trans h) (by decide),
      if_pos hback]
  rw [List.flatMap_cons, List.flatMap_cons, hback2]
  exact unpair_found he _

theorem exposes_cases {t t' : JsonToken} (h : t.exposes t' = true) :
    ∃ r hr c hc e, t = .short r hr ∧ r.1 = backslash ∧ t' = .plain c hc ∧
      controlLetters.lookup c = some e := by
  cases t with
  | short r hr =>
    cases t' with
    | plain c hc =>
      rw [JsonToken.exposes, Bool.and_eq_true, beq_iff_eq, Option.isSome_iff_exists] at h
      obtain ⟨hback, e, he⟩ := h
      exact ⟨r, hr, c, hc, e, rfl, hback, rfl, he⟩
    | short r' hr' => cases h
    | unicode a b c d => cases h
  | plain c hc => cases h
  | unicode a b c d => cases h

/-- How many letters are exposed. -/
def exposed : List JsonToken → Nat
  | [] => 0
  | [_] => 0
  | t :: t' :: tokens => (if t.exposes t' then 1 else 0) + exposed (t' :: tokens)

theorem exposed_eq_zero_iff (tokens : List JsonToken) :
    exposed tokens = 0 ↔ tokens.IsChain (fun t t' => t.exposes t' = false) := by
  induction tokens using exposed.induct with
  | case1 => simp [exposed]
  | case2 t => simp [exposed]
  | case3 t t' tokens ih =>
    rw [exposed, List.isChain_cons_cons, Nat.add_eq_zero_iff, ih]
    cases t.exposes t' <;> simp

theorem reading_length (t : JsonToken) :
    t.reading.length = 1 + 5 * (if t.isUnicode then 1 else 0) := by
  cases t <;> rfl

theorem reading_count (t : JsonToken) :
    t.reading.count backslash ≤ [t.value].count backslash + (if t.isUnicode then 1 else 0) := by
  cases t with
  | plain c h => exact le_rfl
  | short r h => exact le_rfl
  | unicode a b c d =>
    have hone : (JsonToken.unicode a b c d).reading.count backslash = 1 := by
      rw [JsonToken.reading, JsonToken.text, List.count_cons_self,
        List.count_cons_of_ne (by decide),
        List.count_cons_of_ne a.unit_plain.2, List.count_cons_of_ne b.unit_plain.2,
        List.count_cons_of_ne c.unit_plain.2, List.count_cons_of_ne d.unit_plain.2, List.count_nil]
    rw [hone]
    exact Nat.le_add_left _ _

/-- Each exposed letter is one unit less, each `\u` escape five units more; the backslashes
    that are left tell how many of them there are. -/
theorem readControls_counts (tokens : List JsonToken) :
    (readControls (tokens.flatMap JsonToken.backslashesRead)).length + exposed tokens =
        tokens.length + 5 * tokens.countP JsonToken.isUnicode ∧
      (readControls (tokens.flatMap JsonToken.backslashesRead)).count backslash + exposed tokens ≤
        (tokens.map JsonToken.value).count backslash + tokens.countP JsonToken.isUnicode := by
  induction tokens using exposed.induct with
  | case1 => exact ⟨rfl, le_rfl⟩
  | case2 t =>
    have h := @readControls_cons t [] (fun _ ht => by cases ht)
    have hlength := reading_length t
    have hcount := reading_count t
    rw [h]
    simp only [List.flatMap_nil, readControls, unpair, List.append_nil, exposed,
      List.length_singleton,
      List.countP_singleton, List.map_cons, List.map_nil]
    omega
  | case3 t t' tokens ih =>
    have hvalues := @List.count_append UInt16 _ backslash [t.value]
      ((t' :: tokens).map JsonToken.value)
    rw [List.singleton_append] at hvalues
    rw [exposed, List.length_cons, List.countP_cons, List.map_cons, hvalues]
    by_cases hexposes : t.exposes t' = true
    · obtain ⟨r, hr, c, hc, e, rfl, hback, rfl, he⟩ := exposes_cases hexposes
      have hplain := @readControls_cons (.plain c hc) tokens (fun _ _ => rfl)
      rw [hplain, show (JsonToken.plain c hc).reading = [c] from rfl, List.singleton_append,
        List.length_cons, List.count_cons_of_ne hc.2.1] at ih
      rw [readControls_exposed hback he, List.length_cons,
        List.count_cons_of_ne (controlLetters_ne_backslash he), if_pos hexposes,
        show (JsonToken.short r hr).value = r.2 from rfl, letter_backslash r hr hback,
        show (JsonToken.short r hr).isUnicode = false from rfl]
      simp only [List.count_singleton_self, Bool.false_eq_true, if_false]
      omega
    · have h := @readControls_cons t (t' :: tokens) (fun t'' ht => by
        rw [← Option.some.inj ht]
        exact Bool.eq_false_iff.mpr hexposes)
      have hlength := reading_length t
      have hcount := reading_count t
      rw [h, List.length_append, List.count_append, if_neg hexposes]
      omega

theorem readControls_eq {tokens : List JsonToken} (hunicode : ∀ t ∈ tokens, t.isUnicode = false)
    (hchain : tokens.IsChain (fun t t' => t.exposes t' = false)) :
    readControls (tokens.flatMap JsonToken.backslashesRead) = tokens.map JsonToken.value := by
  induction tokens with
  | nil => rfl
  | cons t tokens ih =>
    rw [List.forall_mem_cons] at hunicode
    rw [List.isChain_cons] at hchain
    have hreading : t.reading = [t.value] := by
      cases t with
      | plain c h => rfl
      | short r h => rfl
      | unicode a b c d => cases hunicode.1
    rw [readControls_cons hchain.1, hreading, ih hunicode.2 hchain.2, List.map_cons,
      List.singleton_append]

/-- **When the replacements undo the escapes.** -/
theorem unescape_eq_iff (tokens : List JsonToken) :
    unescape (tokens.flatMap JsonToken.text) = tokens.map JsonToken.value ↔
      (∀ t ∈ tokens, t.isUnicode = false) ∧
        tokens.IsChain (fun t t' => t.exposes t' = false) := by
  rw [unescape_text]
  refine ⟨fun heq => ?_, fun h => readControls_eq h.1 h.2⟩
  obtain ⟨hlength, hcount⟩ := readControls_counts tokens
  rw [heq, List.length_map] at hlength
  rw [heq] at hcount
  have hnone : tokens.countP JsonToken.isUnicode = 0 := by omega
  rw [← exposed_eq_zero_iff]
  rw [List.countP_eq_zero] at hnone
  exact ⟨fun t ht => Bool.eq_false_iff.mpr (hnone t ht), by omega⟩

/-- **What `extractString` returns for a member.** -/
theorem extract_string_exact_iff (m : JsonMember) (h : m.OccursOnce) :
    extractString m.text m.name = some m.content ↔ m.Readable := by
  rw [extractString, find_text h, JsonMember.Readable, ← unescape_eq_iff]
  by_cases hplain : ∀ t ∈ m.key, t.isPlain = true
  · rw [if_pos hplain, Option.map_some, Option.some.injEq, JsonMember.content]
    exact ⟨fun heq => ⟨hplain, heq⟩, fun hm => hm.2⟩
  · rw [if_neg hplain, Option.map_none]
    refine ⟨?_, fun hm => absurd hm.1 hplain⟩
    intro heq
    cases heq

/-- `{"f" : "\""}` -/
def quoteMember : JsonMember where
  before := [0x7B]
  key := [.plain 0x66 (by decide)]
  beforeColon := [0x20]
  afterColon := [0x20]
  value := [.short (quotationMark, quotationMark) (by decide)]
  after := [0x7D]
  beforeColon_space := List.forall_mem_singleton.mpr (by decide)
  afterColon_space := List.forall_mem_singleton.mpr (by decide)

theorem extract_string_exact_iff_quote :
    extractString quoteMember.text [0x66] = some [quotationMark] :=
  (extract_string_exact_iff quoteMember (by decide)).mpr (by decide)

/-! ### The encoder of the SDK -/

theorem lowerDigits_value (c : UInt16) :
    (JsonToken.unicode (lowerDigit (c.toNat / 4096)) (lowerDigit (c.toNat / 256))
      (lowerDigit (c.toNat / 16)) (lowerDigit c.toNat)).value = c := by
  have hsize := c.toNat_lt
  have hdigits : ((c.toNat / 4096 % 16 * 16 + c.toNat / 256 % 16) * 16 + c.toNat / 16 % 16) * 16 +
      c.toNat % 16 = c.toNat := by omega
  exact (congrArg UInt16.ofNat hdigits).trans (UInt16.ofNat_toNat)

/-- Each unit that `quote` writes is a token. -/
theorem quoteUnit_token (c : UInt16) : ∃ t : JsonToken, t.text = quoteUnit c ∧ t.value = c := by
  have hletter : ∀ r ∈ replacements, r.2 = c → ∃ t : JsonToken, t.text = [backslash, r.1] ∧
      t.value = c := fun r hr hvalue => ⟨.short r hr, rfl, hvalue⟩
  rw [quoteUnit]
  split
  · next h => exact hletter (quotationMark, quotationMark) (by decide) h.symm
  split
  · next h => exact hletter (backslash, backslash) (by decide) h.symm
  split
  · next h => exact hletter (0x62, 0x08) (by decide) h.symm
  split
  · next h => exact hletter (0x66, 0x0C) (by decide) h.symm
  split
  · next h => exact hletter (0x6E, 0x0A) (by decide) h.symm
  split
  · next h => exact hletter (0x72, 0x0D) (by decide) h.symm
  split
  · next h => exact hletter (0x74, 0x09) (by decide) h.symm
  split
  · exact ⟨_, rfl, lowerDigits_value c⟩
  · next hquote hback _ _ _ _ _ hcontrol =>
    exact ⟨.plain c ⟨hquote, hback, UInt16.not_lt.mp hcontrol⟩, rfl, rfl⟩

/-! ### A value that is lost -/

/-- A backslash and an `n`, as `object` writes them. -/
def backslashN : JsonMember where
  before := [0x7B]
  key := [.plain 0x66 (by decide)]
  beforeColon := []
  afterColon := []
  value := [.short (backslash, backslash) (by decide), .plain 0x6E (by decide)]
  after := [0x7D]
  beforeColon_space := List.forall_mem_nil _
  afterColon_space := List.forall_mem_nil _

theorem backslash_n_is_lost :
    backslashN.text = object [([0x66], [backslash, 0x6E])] ∧ backslashN.OccursOnce ∧
      extractString (object [([0x66], [backslash, 0x6E])]) [0x66] = some [0x0A] ∧
      ¬ ∀ m : JsonMember, m.OccursOnce → extractString m.text m.name = some m.content :=
  ⟨by decide, by decide, by decide, fun h => absurd (h backslashN (by decide)) (by decide)⟩

end Sdks

end Peanut
