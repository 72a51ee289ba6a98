import Mathlib.Data.List.Nodup
import Peanut.Library.Utf16

/-!
# JSON texts

The grammar of JSON, with what a text stands for.  Each rule of the grammar is a
relation between a text, what its beginning stands for, and the text that is left.
Strings stand for UTF-16 units, for an escape can be half of a pair of surrogates.
-/

namespace JsonText

open Utf16

inductive Value where
  | null
  | bool (b : Bool)
  | number (text : List Char)
  | string (us : List UInt16)
  | array (items : List Value)
  | object (members : List (List UInt16 × Value))

/-! ### White space -/

def isWs (c : Char) : Bool := c == ' ' || c == '\t' || c == '\n' || c == '\r'

/-- `ws` -/
inductive Ws : List Char → List Char → Prop where
  | stop (s : List Char) : Ws s s
  | skip {c : Char} {s r : List Char} (hc : isWs c = true) (hrest : Ws s r) : Ws (c :: s) r

/-- `begin-object` and the other structural characters: one with white space around it. -/
inductive Structural (c : Char) : List Char → List Char → Prop where
  | intro {s t r : List Char} (hbefore : Ws s (c :: t)) (hafter : Ws t r) : Structural c s r

/-! ### Numbers -/

/-- `1*DIGIT` -/
def IsDigits (ds : List Char) : Prop := ds ≠ [] ∧ ∀ d ∈ ds, d.isDigit = true

inductive IsInt : List Char → Prop where
  | zero : IsInt ['0']
  | digits {d : Char} {ds : List Char} (hd : d.isDigit = true ∧ d ≠ '0')
      (hds : ∀ d ∈ ds, d.isDigit = true) : IsInt (d :: ds)

/-- `[ frac ]` -/
inductive IsFrac : List Char → Prop where
  | absent : IsFrac []
  | digits {ds : List Char} (hds : IsDigits ds) : IsFrac ('.' :: ds)

/-- `[ exp ]` -/
inductive IsExp : List Char → Prop where
  | absent : IsExp []
  | digits {e : Char} {sign ds : List Char} (he : e = 'e' ∨ e = 'E')
      (hsign : sign = [] ∨ sign = ['-'] ∨ sign = ['+']) (hds : IsDigits ds) :
      IsExp (e :: (sign ++ ds))

inductive IsNumber : List Char → Prop where
  | intro {minus int frac exp : List Char} (hminus : minus = [] ∨ minus = ['-']) (hint : IsInt int)
      (hfrac : IsFrac frac) (hexp : IsExp exp) : IsNumber (minus ++ (int ++ (frac ++ exp)))

/-! ### Strings -/

/-- The letters behind a backslash and the units they stand for. -/
def escapes : List (Char × UInt16) :=
  [('"', 0x22), ('\\', 0x5C), ('/', 0x2F), ('b', 0x08), ('f', 0x0C), ('n', 0x0A), ('r', 0x0D),
    ('t', 0x09)]

/-- `HEXDIG`, in either case. -/
def hexValue (c : Char) : Option Nat :=
  if '0' ≤ c ∧ c ≤ '9' then some (c.toNat - 48)
  else if 'a' ≤ c ∧ c ≤ 'f' then some (c.toNat - 87)
  else if 'A' ≤ c ∧ c ≤ 'F' then some (c.toNat - 55)
  else none

def isUnescaped (c : Char) : Bool := decide (0x20 ≤ c.toNat) && c != '"' && c != '\\'

/-- `char`, with the units it stands for. -/
inductive CharText : List Char → List UInt16 → List Char → Prop where
  | unescaped {c : Char} (hc : isUnescaped c = true) (r : List Char) : CharText (c :: r) (units c) r
  | short {c : Char} {u : UInt16} (hc : (c, u) ∈ escapes) (r : List Char) :
      CharText ('\\' :: c :: r) [u] r
  | hex {a b c d : Char} {i j k l : Nat} (ha : hexValue a = some i) (hb : hexValue b = some j)
      (hc : hexValue c = some k) (hd : hexValue d = some l) (r : List Char) :
      CharText ('\\' :: 'u' :: a :: b :: c :: d :: r)
        [UInt16.ofNat (((i * 16 + j) * 16 + k) * 16 + l)] r

/-- `*char quotation-mark` -/
inductive CharsText : List Char → List UInt16 → List Char → Prop where
  | close (r : List Char) : CharsText ('"' :: r) [] r
  | char {s t r : List Char} {us vs : List UInt16} (hchar : CharText s us t)
      (hrest : CharsText t vs r) : CharsText s (us ++ vs) r

inductive StringText : List Char → List UInt16 → List Char → Prop where
  | intro {s r : List Char} {us : List UInt16} (hchars : CharsText s us r) :
      StringText ('"' :: s) us r

/-! ### Values -/

mutual

inductive ValueText : List Char → Value → List Char → Prop where
  | litNull (r : List Char) : ValueText ('n' :: 'u' :: 'l' :: 'l' :: r) .null r
  | litTrue (r : List Char) : ValueText ('t' :: 'r' :: 'u' :: 'e' :: r) (.bool true) r
  | litFalse (r : List Char) : ValueText ('f' :: 'a' :: 'l' :: 's' :: 'e' :: r) (.bool false) r
  | number {n : List Char} (hn : IsNumber n) (r : List Char) : ValueText (n ++ r) (.number n) r
  | string {s r : List Char} {us : List UInt16} (hstring : StringText s us r) :
      ValueText s (.string us) r
  | emptyArray {s t r : List Char} (hopen : Structural '[' s t) (hclose : Structural ']' t r) :
      ValueText s (.array []) r
  | array {s t t' r : List Char} {items : List Value} (hopen : Structural '[' s t)
      (hitems : ItemsText t items t') (hclose : Structural ']' t' r) : ValueText s (.array items) r
  | emptyObject {s t r : List Char} (hopen : Structural '{' s t) (hclose : Structural '}' t r) :
      ValueText s (.object []) r
  | object {s t t' r : List Char} {members : List (List UInt16 × Value)}
      (hopen : Structural '{' s t) (hmembers : MembersText t members t')
      (hclose : Structural '}' t' r) : ValueText s (.object members) r

/-- `value *( value-separator value )` -/
inductive ItemsText : List Char → List Value → List Char → Prop where
  | last {s r : List Char} {v : Value} (hvalue : ValueText s v r) : ItemsText s [v] r
  | more {s t t' r : List Char} {v : Value} {items : List Value} (hvalue : ValueText s v t)
      (hseparator : Structural ',' t t') (hrest : ItemsText t' items r) : ItemsText s (v :: items) r

/-- `member *( value-separator member )` -/
inductive MembersText : List Char → List (List UInt16 × Value) → List Char → Prop where
  | last {s t t' r : List Char} {key : List UInt16} {v : Value} (hkey : StringText s key t)
      (hcolon : Structural ':' t t') (hvalue : ValueText t' v r) : MembersText s [(key, v)] r
  | more {s t t' u u' r : List Char} {key : List UInt16} {v : Value}
      {members : List (List UInt16 × Value)} (hkey : StringText s key t)
      (hcolon : Structural ':' t t') (hvalue : ValueText t' v u) (hseparator : Structural ',' u u')
      (hrest : MembersText u' members r) : MembersText s ((key, v) :: members) r

end

/-- `JSON-text` -/
inductive IsText : List Char → Value → Prop where
  | intro {s t r : List Char} {v : Value} (hbefore : Ws s t) (hvalue : ValueText t v r)
      (hafter : Ws r []) : IsText s v

/-! ### A text has one reading -/

variable {c : Char} {s r r' : List Char}

theorem Ws.eq_of_cons (hc : isWs c = false) (h : Ws (c :: s) r) :
    r = c :: s := by
  cases h with
  | stop => rfl
  | skip hws _ =>
    rw [hc] at hws
    cases hws

theorem Structural.intro_self (r : List Char) : Structural c (c :: r) r :=
  .intro (.stop (c :: r)) (.stop r)

/-- A text that begins with another character has no structural one there. -/
theorem Structural.cons_inv {c d : Char} (hd : isWs d = false)
    (h : Structural c (d :: s) r) : d = c ∧ Ws s r := by
  cases h with
  | intro hbefore hafter =>
    obtain ⟨rfl, rfl⟩ := List.cons.inj (hbefore.eq_of_cons hd)
    exact ⟨rfl, hafter⟩

theorem not_mem_escapes_u (u : UInt16) : ('u', u) ∉ escapes := by
  intro h
  have hletter : 'u' ∈ escapes.map Prod.fst := List.mem_map_of_mem h
  exact absurd hletter (by decide)

theorem escapes_unique {u v : UInt16} (hu : (c, u) ∈ escapes) (hv : (c, v) ∈ escapes) :
    u = v := by
  have hnodup : (escapes.map Prod.fst).Nodup := by decide
  exact congrArg Prod.snd (List.inj_on_of_nodup_map hnodup hu hv rfl)

variable {us us' : List UInt16}

theorem CharText.unique (h : CharText s us r) (h' : CharText s us' r') : us = us' ∧ r = r' := by
  cases h with
  | unescaped hc r =>
    cases h' with
    | unescaped _ _ => exact ⟨rfl, rfl⟩
    | short _ _ => cases hc
    | hex _ _ _ _ _ => cases hc
  | short hc r =>
    cases h' with
    | unescaped hc' _ => cases hc'
    | short hc' _ => exact ⟨by rw [escapes_unique hc hc'], rfl⟩
    | hex _ _ _ _ _ => exact absurd hc (not_mem_escapes_u _)
  | hex ha hb hc hd r =>
    cases h' with
    | unescaped hc' _ => cases hc'
    | short hc' _ => exact absurd hc' (not_mem_escapes_u _)
    | hex ha' hb' hc' hd' _ =>
      obtain rfl := Option.some.inj (ha.symm.trans ha')
      obtain rfl := Option.some.inj (hb.symm.trans hb')
      obtain rfl := Option.some.inj (hc.symm.trans hc')
      obtain rfl := Option.some.inj (hd.symm.trans hd')
      exact ⟨rfl, rfl⟩

/-- A quotation mark is not read as a character. -/
theorem CharText.not_quotation :
    ¬ CharText ('"' :: s) us r := by
  intro h
  cases h with
  | unescaped hc _ => cases hc

theorem CharsText.unique (h : CharsText s us r) (h' : CharsText s us' r') : us = us' ∧ r = r' := by
  induction h generalizing us' with
  | close r =>
    cases h' with
    | close _ => exact ⟨rfl, rfl⟩
    | char hchar _ => exact absurd hchar CharText.not_quotation
  | char hchar _ ih =>
    cases h' with
    | close _ => exact absurd hchar CharText.not_quotation
    | char hchar' hrest' =>
      obtain ⟨rfl, rfl⟩ := hchar.unique hchar'
      obtain ⟨rfl, rfl⟩ := ih hrest'
      exact ⟨rfl, rfl⟩

/-- **A string is read in one way.** -/
theorem StringText.unique (h : StringText s us r) (h' : StringText s us' r') :
    us = us' ∧ r = r' := by
  cases h with
  | intro hchars =>
    cases h' with
    | intro hchars' => exact hchars.unique hchars'

/-! ### Objects of strings -/

theorem StringText.head {s r : List Char} {us : List UInt16} (h : StringText s us r) :
    ∃ s', s = '"' :: s' := by
  cases h with
  | intro _ => exact ⟨_, rfl⟩

theorem IsNumber.head {n : List Char} (h : IsNumber n) :
    ∃ c n', n = c :: n' ∧ (c = '-' ∨ c.isDigit = true) := by
  cases h with
  | intro hminus hint _ _ =>
    rcases hminus with rfl | rfl
    · cases hint with
      | zero => exact ⟨_, _, rfl, .inr rfl⟩
      | digits hd _ => exact ⟨_, _, rfl, .inr hd.1⟩
    · exact ⟨_, _, rfl, .inl rfl⟩

/-- What begins with a quotation mark is a string. -/
theorem ValueText.string_inv {v : Value} (h : ValueText ('"' :: s) v r) :
    ∃ us, v = .string us ∧ StringText ('"' :: s) us r := by
  have hquote : isWs '"' = false := by decide
  generalize htext : '"' :: s = text at h
  cases h with
  | litNull _ => exact absurd (List.cons.inj htext).1 (by decide)
  | litTrue _ => exact absurd (List.cons.inj htext).1 (by decide)
  | litFalse _ => exact absurd (List.cons.inj htext).1 (by decide)
  | number hn _ =>
    obtain ⟨c, n', rfl, hc⟩ := hn.head
    obtain rfl := (List.cons.inj htext).1
    exact absurd hc (by decide)
  | string hstring => exact ⟨_, rfl, hstring⟩
  | emptyArray hopen _ =>
    subst htext
    exact absurd (hopen.cons_inv hquote).1 (by decide)
  | array hopen _ _ =>
    subst htext
    exact absurd (hopen.cons_inv hquote).1 (by decide)
  | emptyObject hopen _ =>
    subst htext
    exact absurd (hopen.cons_inv hquote).1 (by decide)
  | object hopen _ _ =>
    subst htext
    exact absurd (hopen.cons_inv hquote).1 (by decide)

/-- What begins with a brace is an object. -/
theorem ValueText.object_inv {v : Value} (h : ValueText ('{' :: s) v r) :
    ∃ t, Ws s t ∧ (v = .object [] ∧ Structural '}' t r ∨
      ∃ members t', v = .object members ∧ MembersText t members t' ∧ Structural '}' t' r) := by
  have hbrace : isWs '{' = false := by decide
  generalize htext : '{' :: s = text at h
  cases h with
  | litNull _ => exact absurd (List.cons.inj htext).1 (by decide)
  | litTrue _ => exact absurd (List.cons.inj htext).1 (by decide)
  | litFalse _ => exact absurd (List.cons.inj htext).1 (by decide)
  | number hn _ =>
    obtain ⟨c, n', rfl, hc⟩ := hn.head
    obtain rfl := (List.cons.inj htext).1
    exact absurd hc (by decide)
  | string hstring =>
    subst htext
    obtain ⟨_, hs⟩ := hstring.head
    exact absurd (List.cons.inj hs).1 (by decide)
  | emptyArray hopen _ =>
    subst htext
    exact absurd (hopen.cons_inv hbrace).1 (by decide)
  | array hopen _ _ =>
    subst htext
    exact absurd (hopen.cons_inv hbrace).1 (by decide)
  | emptyObject hopen hclose =>
    subst htext
    exact ⟨_, (hopen.cons_inv hbrace).2, .inl ⟨rfl, hclose⟩⟩
  | object hopen hmembers hclose =>
    subst htext
    exact ⟨_, (hopen.cons_inv hbrace).2, .inr ⟨_, _, rfl, hmembers, hclose⟩⟩

/-- A member that is written without white space and has a string for its value is the
    first of the members; there are more where a comma follows. -/
theorem MembersText.string_inv {s t u r : List Char} {key us : List UInt16}
    {members : List (List UInt16 × Value)} (hkey : StringText s key (':' :: t))
    (hvalue : StringText t us (c :: u)) (hc : isWs c = false) (h : MembersText s members r) :
    members = [(key, .string us)] ∧ r = c :: u ∨
      c = ',' ∧ ∃ u' rest, Ws u u' ∧ MembersText u' rest r ∧
        members = (key, .string us) :: rest := by
  obtain ⟨t', rfl⟩ := hvalue.head
  -- the key, the colon and the value can be read in no other way
  have hmember : ∀ {key' : List UInt16} {v : Value} {w w' w'' : List Char}, StringText s key' w →
      Structural ':' w w' → ValueText w' v w'' → key' = key ∧ v = .string us ∧ w'' = c :: u := by
    intro key' v w w' w'' hkey' hcolon hvalue'
    obtain ⟨rfl, rfl⟩ := hkey.unique hkey'
    obtain rfl := (hcolon.cons_inv (by decide)).2.eq_of_cons (by decide)
    obtain ⟨us', rfl, hstring⟩ := hvalue'.string_inv
    obtain ⟨rfl, rfl⟩ := hvalue.unique hstring
    exact ⟨rfl, rfl, rfl⟩
  cases h with
  | last hkey' hcolon hvalue' =>
    obtain ⟨rfl, rfl, rfl⟩ := hmember hkey' hcolon hvalue'
    exact .inl ⟨rfl, rfl⟩
  | more hkey' hcolon hvalue' hseparator hrest =>
    obtain ⟨rfl, rfl, rfl⟩ := hmember hkey' hcolon hvalue'
    obtain ⟨rfl, hws⟩ := hseparator.cons_inv hc
    exact .inr ⟨rfl, _, _, hws, hrest, rfl⟩

end JsonText
