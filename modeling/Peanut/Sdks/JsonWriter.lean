import Peanut.Library.JsonText
import Peanut.Sdks.JsonReader

/-!
# The JSON writer of the Java SDK

`object` writes a JSON object whose members are the pairs it was given, and no reading of
its text gives others.  The grammar is about characters and `quote` about UTF-16 units, so
the text is first written in characters (`objectText`).
-/

namespace Peanut

namespace Sdks

open JsonText Utf16

/-! ### Tokens and characters -/

/-- The character of a unit below U+0080. -/
def unitChar (u : UInt16) : Char := Char.ofNat u.toNat

theorem toNat_unitChar {u : UInt16} (h : u.toNat < 0x80) : (unitChar u).toNat = u.toNat := by
  have hvalid : u.toNat.isValidChar := .inl (by omega)
  rw [unitChar, Char.ofNat, dif_pos hvalid]
  rfl

theorem encode_map_unitChar {us : List UInt16} (h : ∀ u ∈ us, u.toNat < 0x80) :
    encode (us.map unitChar) = us := by
  induction us with
  | nil => rfl
  | cons u us ih =>
    rw [List.forall_mem_cons] at h
    have hchar := toNat_unitChar h.1
    rw [List.map_cons, encode_cons, ih h.2, units_of_lt (by omega), hchar, UInt16.ofNat_toNat,
      List.singleton_append]

theorem HexDigit.hexValue_unit (d : HexDigit) :
    d.unit.toNat < 0x80 ∧ hexValue (unitChar d.unit) = some d.value := by
  obtain ⟨value, upper⟩ := d
  revert value upper
  decide

theorem letter_escapes : ∀ r ∈ replacements, r.1.toNat < 0x80 ∧ (unitChar r.1, r.2) ∈ escapes := by
  intro r hr
  simp only [replacements, controlLetters, List.mem_cons, List.not_mem_nil, or_false] at hr
  rcases hr with rfl | rfl | rfl | rfl | rfl | rfl | rfl | rfl <;> decide

theorem JsonToken.text_lt {t : JsonToken} (ht : t.value.toNat < 0x80) :
    ∀ u ∈ t.text, u.toNat < 0x80 := by
  cases t with
  | plain c h => exact List.forall_mem_singleton.mpr ht
  | short r h =>
    simp only [text, List.forall_mem_cons]
    exact ⟨by decide, (letter_escapes r h).1, List.forall_mem_nil _⟩
  | unicode a b c d =>
    simp only [text, List.forall_mem_cons]
    exact ⟨by decide, by decide, a.hexValue_unit.1, b.hexValue_unit.1, c.hexValue_unit.1,
      d.hexValue_unit.1, List.forall_mem_nil _⟩

theorem JsonToken.charText {t : JsonToken} (ht : t.value.toNat < 0x80) (r : List Char) :
    CharText (t.text.map unitChar ++ r) [t.value] r := by
  cases t with
  | plain c h =>
    have hchar := toNat_unitChar (u := c) ht
    have hunits : units (unitChar c) = [c] := by
      rw [units_of_lt (by rw [hchar]; exact c.toNat_lt), hchar, UInt16.ofNat_toNat]
    have hother : ∀ d : Char, UInt16.ofNat d.toNat ≠ c → unitChar c ≠ d := by
      rintro _ hne rfl
      rw [hchar, UInt16.ofNat_toNat] at hne
      exact hne rfl
    have hplain : isUnescaped (unitChar c) = true := by
      have hcontrol := UInt16.le_iff_toNat_le.mp h.2.2
      simp only [isUnescaped, Bool.and_eq_true, decide_eq_true_eq, bne_iff_ne]
      exact ⟨⟨hchar ▸ hcontrol, hother '"' h.1.symm⟩, hother '\\' h.2.1.symm⟩
    have hread := CharText.unescaped hplain r
    rwa [hunits] at hread
  | short p h => exact .short (letter_escapes p h).2 r
  | unicode a b c d =>
    exact .hex a.hexValue_unit.2 b.hexValue_unit.2 c.hexValue_unit.2 d.hexValue_unit.2 r

theorem letter_unique {p p' : UInt16 × UInt16} (hp : p ∈ replacements) (hp' : p' ∈ replacements)
    (h : p.1 = p'.1) : p = p' := by
  have hnodup : (replacements.map Prod.fst).Nodup := by decide
  exact List.inj_on_of_nodup_map hnodup hp hp' h

theorem letter_ne_u : ∀ r ∈ replacements, r.1 ≠ 0x75 := by
  intro r hr
  have hletter : r.1 ∈ replacements.map Prod.fst := List.mem_map_of_mem hr
  rintro heq
  rw [heq] at hletter
  exact absurd hletter (by decide)

theorem HexDigit.unit_inj {d d' : HexDigit} (h : d.unit = d'.unit) : d.value = d'.value := by
  have hvalue := d.hexValue_unit.2
  rw [h, d'.hexValue_unit.2] at hvalue
  exact Fin.ext (Option.some.inj hvalue).symm

theorem JsonToken.text_append_inj {t t' : JsonToken} {l l' : JavaString}
    (h : t.text ++ l = t'.text ++ l') : t.value = t'.value ∧ l = l' := by
  cases t with
  | plain c hc =>
    cases t' with
    | plain c' _ =>
      obtain ⟨rfl, hrest⟩ := List.cons.inj h
      exact ⟨rfl, hrest⟩
    | short _ _ => exact absurd (List.cons.inj h).1 hc.2.1
    | unicode _ _ _ _ => exact absurd (List.cons.inj h).1 hc.2.1
  | short p hp =>
    cases t' with
    | plain c' hc' => exact absurd (List.cons.inj h).1.symm hc'.2.1
    | short p' hp' =>
      obtain ⟨hletter, hrest⟩ := List.cons.inj (List.cons.inj h).2
      exact ⟨congrArg Prod.snd (letter_unique hp hp' hletter), hrest⟩
    | unicode _ _ _ _ =>
      exact absurd (List.cons.inj (List.cons.inj h).2).1 (letter_ne_u p hp)
  | unicode a b c d =>
    cases t' with
    | plain c' hc' => exact absurd (List.cons.inj h).1.symm hc'.2.1
    | short p' hp' =>
      exact absurd (List.cons.inj (List.cons.inj h).2).1.symm (letter_ne_u p' hp')
    | unicode a' b' c' d' =>
      simp only [text, List.cons_append, List.nil_append, List.cons.injEq, true_and] at h
      obtain ⟨ha, hb, hc, hd, hrest⟩ := h
      rw [value, value, HexDigit.unit_inj ha, HexDigit.unit_inj hb, HexDigit.unit_inj hc,
        HexDigit.unit_inj hd]
      exact ⟨rfl, hrest⟩

theorem quoteUnit_append_inj {c d : UInt16} {l m : JavaString}
    (h : quoteUnit c ++ l = quoteUnit d ++ m) : c = d ∧ l = m := by
  obtain ⟨t, htext, rfl⟩ := quoteUnit_token c
  obtain ⟨t', htext', rfl⟩ := quoteUnit_token d
  rw [← htext, ← htext'] at h
  exact JsonToken.text_append_inj h

theorem quoteUnit_ne_nil (c : UInt16) : quoteUnit c ≠ [] := by
  obtain ⟨t, htext, -⟩ := quoteUnit_token c
  rw [← htext]
  cases t with
  | plain _ _ => exact List.cons_ne_nil _ _
  | short _ _ => exact List.cons_ne_nil _ _
  | unicode _ _ _ _ => exact List.cons_ne_nil _ _

theorem quote_injective : Function.Injective quote := by
  intro value value' h
  have hbody := List.append_cancel_right (List.cons.inj h).2
  exact flatMap_injective quoteUnit_ne_nil quoteUnit_append_inj hbody

/-! ### The text in characters -/

/-- What `quote` writes for a character. -/
def quoteChar (c : Char) : List Char :=
  if c.toNat < 0x80 then (quoteUnit (UInt16.ofNat c.toNat)).map unitChar else [c]

def quoteText (text : List Char) : List Char := '"' :: text.flatMap quoteChar ++ ['"']

def memberText (pair : List Char × List Char) : List Char :=
  quoteText pair.1 ++ ':' :: quoteText pair.2

/-- What `object` writes for pairs of texts. -/
def objectText (pairs : List (List Char × List Char)) : List Char :=
  '{' :: [','].intercalate (pairs.map memberText) ++ ['}']

def encodePair (pair : List Char × List Char) : JavaString × JavaString :=
  (encode pair.1, encode pair.2)

theorem quoteUnit_of_le {u : UInt16} (h : 0x80 ≤ u.toNat) : quoteUnit u = [u] := by
  have hne : ∀ v : UInt16, v.toNat < 0x80 → u ≠ v := by
    rintro v hv rfl
    omega
  have hcontrol : ¬ u < 0x20 := by
    intro hlt
    have hsmall : u.toNat < 0x20 := UInt16.lt_iff_toNat_lt.mp hlt
    omega
  rw [quoteUnit, if_neg (hne _ (by decide)), if_neg (hne _ (by decide)), if_neg (hne _ (by decide)),
    if_neg (hne _ (by decide)), if_neg (hne _ (by decide)), if_neg (hne _ (by decide)),
    if_neg (hne _ (by decide)), if_neg hcontrol]

theorem flatMap_quoteUnit_of_le {us : JavaString} (h : ∀ u ∈ us, 0x80 ≤ u.toNat) :
    us.flatMap quoteUnit = us := by
  induction us with
  | nil => rfl
  | cons u us ih =>
    rw [List.forall_mem_cons] at h
    rw [List.flatMap_cons, quoteUnit_of_le h.1, ih h.2, List.singleton_append]

theorem le_of_mem_units {c : Char} (h : 0x80 ≤ c.toNat) : ∀ u ∈ units c, 0x80 ≤ u.toNat := by
  have hc := toNat_bounds c
  have hunit : ∀ n : Nat, 0x80 ≤ n → n < 0x10000 → 0x80 ≤ (UInt16.ofNat n).toNat := by
    intro n hlow hhigh
    rwa [UInt16.toNat_ofNat_of_lt' hhigh]
  rw [units]
  split
  · exact List.forall_mem_singleton.mpr (hunit _ h ‹_›)
  · simp only [List.forall_mem_cons]
    exact ⟨hunit _ (by omega) (by omega), hunit _ (by omega) (by omega), List.forall_mem_nil _⟩

theorem quoteChar_token {c : Char} (h : c.toNat < 0x80) : ∃ t : JsonToken,
    quoteChar c = t.text.map unitChar ∧ units c = [t.value] ∧ t.value.toNat < 0x80 ∧
      t.text = quoteUnit t.value := by
  obtain ⟨t, htext, hvalue⟩ := quoteUnit_token (UInt16.ofNat c.toNat)
  refine ⟨t, ?_, ?_, ?_, ?_⟩
  · rw [quoteChar, if_pos h, htext]
  · rw [hvalue, units_of_lt (by omega)]
  · rwa [hvalue, UInt16.toNat_ofNat_of_lt' (Nat.lt_trans h (by decide))]
  · rw [htext, hvalue]

theorem encode_quoteChar (c : Char) : encode (quoteChar c) = (units c).flatMap quoteUnit := by
  by_cases h : c.toNat < 0x80
  · obtain ⟨t, hchar, hunits, hvalue, htext⟩ := quoteChar_token h
    rw [hchar, encode_map_unitChar (t.text_lt hvalue), hunits, htext, List.flatMap_singleton]
  · rw [quoteChar, if_neg h, flatMap_quoteUnit_of_le (le_of_mem_units (by omega)), encode_cons,
      encode_nil, List.append_nil]

theorem charText_quoteChar (c : Char) (r : List Char) :
    CharText (quoteChar c ++ r) (units c) r := by
  by_cases h : c.toNat < 0x80
  · obtain ⟨t, hchar, hunits, hvalue, -⟩ := quoteChar_token h
    rw [hchar, hunits]
    exact t.charText hvalue r
  · have hother : ∀ d : Char, d.toNat < 0x80 → c ≠ d := by
      rintro d hd rfl
      exact h hd
    have hplain : isUnescaped c = true := by
      simp only [isUnescaped, Bool.and_eq_true, decide_eq_true_eq, bne_iff_ne]
      exact ⟨⟨by omega, hother '"' (by decide)⟩, hother '\\' (by decide)⟩
    rw [quoteChar, if_neg h]
    exact .unescaped hplain r

theorem encode_quoteText (text : List Char) : encode (quoteText text) = quote (encode text) := by
  have hbody : encode (text.flatMap quoteChar) = (encode text).flatMap quoteUnit := by
    induction text with
    | nil => rfl
    | cons c text ih =>
      rw [List.flatMap_cons, encode_append, ih, encode_quoteChar, encode_cons, List.flatMap_append]
  rw [quoteText, encode_append, encode_cons, hbody]
  rfl

theorem encode_memberText (pair : List Char × List Char) : encode (memberText pair) =
    quote (encodePair pair).1 ++ colon :: quote (encodePair pair).2 := by
  rw [memberText, encode_append, encode_cons, encode_quoteText, encode_quoteText]
  rfl

theorem encode_intercalate (parts : List (List Char)) :
    encode ([','].intercalate parts) = [0x2C].intercalate (parts.map encode) := by
  induction parts with
  | nil => rfl
  | cons part parts ih =>
    cases parts with
    | nil => simp
    | cons next parts =>
      rw [List.intercalate_cons_cons, encode_append, encode_append, ih, List.map_cons,
        List.map_cons,
        List.map_cons, List.intercalate_cons_cons]
      rfl

theorem encode_objectText (pairs : List (List Char × List Char)) :
    encode (objectText pairs) = object (pairs.map encodePair) := by
  have hmembers : encode ([','].intercalate (pairs.map memberText)) =
      objectMembers (pairs.map encodePair) := by
    rw [encode_intercalate, objectMembers, List.map_map, List.map_map]
    exact congrArg _ (List.map_congr_left fun pair _ => encode_memberText pair)
  rw [objectText, encode_append, encode_cons, hmembers]
  rfl

/-! ### What the text is read as -/

/-- The member of a pair. -/
def stringMember (pair : JavaString × JavaString) : JavaString × JsonText.Value :=
  (pair.1, .string pair.2)

theorem charsText_quote (text r : List Char) :
    CharsText (text.flatMap quoteChar ++ '"' :: r) (encode text) r := by
  induction text with
  | nil => exact .close r
  | cons c text ih =>
    rw [List.flatMap_cons, List.append_assoc, encode_cons]
    exact .char (charText_quoteChar c _) ih

theorem stringText_quote (text r : List Char) :
    StringText (quoteText text ++ r) (encode text) r := by
  rw [quoteText, List.cons_append, List.cons_append, List.append_assoc]
  exact .intro (charsText_quote text r)

theorem memberText_append (pair : List Char × List Char) (r : List Char) :
    memberText pair ++ r = quoteText pair.1 ++ ':' :: (quoteText pair.2 ++ r) := by
  rw [memberText, List.append_assoc, List.cons_append]

theorem members_cons (pair next : List Char × List Char) (pairs : List (List Char × List Char))
    (r : List Char) : [','].intercalate ((pair :: next :: pairs).map memberText) ++ r =
      quoteText pair.1 ++ ':' :: (quoteText pair.2 ++
        ',' :: ([','].intercalate ((next :: pairs).map memberText) ++ r)) := by
  rw [List.map_cons, List.map_cons, List.intercalate_cons_cons, List.append_assoc,
    List.append_assoc,
    memberText_append, List.singleton_append]

theorem members_singleton (pair : List Char × List Char) (r : List Char) :
    [','].intercalate ([pair].map memberText) ++ r =
      quoteText pair.1 ++ ':' :: (quoteText pair.2 ++ r) := by
  rw [List.map_singleton, List.intercalate_singleton, memberText_append]

theorem membersText_members (pair : List Char × List Char) (pairs : List (List Char × List Char))
    (r : List Char) :
    MembersText ([','].intercalate ((pair :: pairs).map memberText) ++ r)
      ((pair :: pairs).map (stringMember ∘ encodePair)) r := by
  induction pairs generalizing pair with
  | nil =>
    rw [members_singleton]
    exact .last (stringText_quote _ _) (.intro_self _) (.string (stringText_quote _ _))
  | cons next pairs ih =>
    rw [members_cons]
    exact .more (stringText_quote _ _) (.intro_self _) (.string (stringText_quote _ _))
      (.intro_self _) (ih next)

theorem members_head (pair : List Char × List Char) (pairs : List (List Char × List Char))
    (r : List Char) :
    ∃ s, [','].intercalate ((pair :: pairs).map memberText) ++ r = '"' :: s := by
  cases pairs with
  | nil =>
    rw [members_singleton]
    exact ⟨_, rfl⟩
  | cons next pairs =>
    rw [members_cons]
    exact ⟨_, rfl⟩

/-- **No others are read**, where the object ends behind the members. -/
theorem members_unique {pair : List Char × List Char} {pairs : List (List Char × List Char)}
    {r r' r'' : List Char} {members : List (JavaString × JsonText.Value)}
    (h : MembersText ([','].intercalate ((pair :: pairs).map memberText) ++ '}' :: r) members r')
    (hclose : Structural '}' r' r'') :
    members = (pair :: pairs).map (stringMember ∘ encodePair) := by
  induction pairs generalizing pair members with
  | nil =>
    rw [members_singleton] at h
    rcases h.string_inv (stringText_quote _ _) (stringText_quote _ _) (by decide) with
      ⟨hmembers, -⟩ | ⟨hcomma, -⟩
    · exact hmembers
    · exact absurd hcomma (by decide)
  | cons next pairs ih =>
    rw [members_cons] at h
    rcases h.string_inv (stringText_quote _ _) (stringText_quote _ _) (by decide) with
      ⟨-, rfl⟩ | ⟨-, u, rest, hws, hrest, rfl⟩
    · -- a comma does not end an object
      exact absurd (hclose.cons_inv (by decide)).1 (by decide)
    · obtain ⟨s, hs⟩ := members_head next pairs ('}' :: r)
      rw [hs] at hws
      obtain rfl := hws.eq_of_cons (by decide)
      rw [← hs] at hrest
      rw [ih hrest]
      rfl

/-- The text of `object` has one reading. -/
theorem isText_objectText_iff (pairs : List (List Char × List Char)) (v : JsonText.Value) :
    IsText (objectText pairs) v ↔ v = .object ((pairs.map encodePair).map stringMember) := by
  have htext : objectText pairs = '{' :: ([','].intercalate (pairs.map memberText) ++ ['}']) := rfl
  rw [htext, List.map_map]
  constructor
  · rintro ⟨hbefore, hvalue, -⟩
    obtain rfl := hbefore.eq_of_cons (by decide)
    obtain ⟨t, hws, hobject⟩ := hvalue.object_inv
    cases pairs with
    | nil =>
      obtain rfl := hws.eq_of_cons (by decide)
      rcases hobject with ⟨rfl, -⟩ | ⟨members, t', rfl, hmembers, -⟩
      · rfl
      · -- a member begins with a quotation mark
        have hkey : ∃ key u, StringText ['}'] key u := by
          cases hmembers with
          | last hkey _ _ => exact ⟨_, _, hkey⟩
          | more hkey _ _ _ _ => exact ⟨_, _, hkey⟩
        obtain ⟨key, u, hkey⟩ := hkey
        obtain ⟨s, hs⟩ := hkey.head
        exact absurd (List.cons.inj hs).1 (by decide)
    | cons pair pairs =>
      obtain ⟨s, hs⟩ := members_head pair pairs ['}']
      rw [hs] at hws
      obtain rfl := hws.eq_of_cons (by decide)
      rw [← hs] at hobject
      rcases hobject with ⟨rfl, hclose⟩ | ⟨members, t', rfl, hmembers, hclose⟩
      · rw [hs] at hclose
        exact absurd (hclose.cons_inv (by decide)).1 (by decide)
      · rw [members_unique hmembers hclose]
  · rintro rfl
    refine .intro (.stop _) ?_ (.stop [])
    cases pairs with
    | nil => exact .emptyObject (.intro_self _) (.intro_self _)
    | cons pair pairs =>
      exact .object (.intro_self _) (membersText_members pair pairs ['}']) (.intro_self [])

/-- **What `object` writes.** -/
theorem object_is_json (pairs : List (JavaString × JavaString))
    (h : ∀ pair ∈ pairs, WellFormed pair.1 ∧ WellFormed pair.2) :
    (∃ text, encode text = object pairs ∧
      ∀ v, IsText text v ↔ v = .object (pairs.map stringMember)) ∧ Function.Injective quote := by
  refine ⟨?_, quote_injective⟩
  have htexts : ∃ texts : List (List Char × List Char), texts.map encodePair = pairs := by
    induction pairs with
    | nil => exact ⟨[], rfl⟩
    | cons pair pairs ih =>
      rw [List.forall_mem_cons] at h
      obtain ⟨⟨key, hkey⟩, value, hvalue⟩ := h.1
      obtain ⟨texts, htexts⟩ := ih h.2
      exact ⟨(key, value) :: texts, by rw [List.map_cons, htexts, encodePair, hkey, hvalue]⟩
  obtain ⟨texts, rfl⟩ := htexts
  exact ⟨objectText texts, encode_objectText texts, isText_objectText_iff texts⟩

/-- A value that looks like the end of its member, and has a pair of surrogates. -/
def injectedPairs : List (JavaString × JavaString) :=
  [(encode ['k'], encode ['"', ',', '"', 'x', '"', ':', '"', '\\', '\n', '😀'])]

theorem object_is_json_injected :
    (∃ text, encode text = object injectedPairs ∧
      ∀ v, IsText text v ↔ v = .object (injectedPairs.map stringMember)) ∧
      Function.Injective quote :=
  object_is_json injectedPairs (List.forall_mem_singleton.mpr ⟨⟨_, rfl⟩, _, rfl⟩)

end Sdks

end Peanut
