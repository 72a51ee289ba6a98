import Peanut.Http.PresignedUrls

/-!
# Percent-encoded texts

Encoders that write some characters as they are and the UTF-8 bytes of the others as
`%XX`, and what the server's decoders make of them.  A form encoder writes `+` for a
space.
-/

namespace Peanut

/-! ### Encoding -/

/-- A digit in upper case. -/
def upperHexDigit (n : Nat) : Char := if n < 10 then Char.ofNat (48 + n) else Char.ofNat (55 + n)

def percentByte (b : UInt8) : List Char :=
  ['%', upperHexDigit (b.toNat / 16), upperHexDigit (b.toNat % 16)]

def escapeChar (c : Char) : List Char := (String.utf8EncodeChar c).flatMap percentByte

def percentEncodeChar (keep : Char → Bool) (c : Char) : List Char :=
  if keep c then [c] else escapeChar c

def percentEncode (keep : Char → Bool) (text : String) : String :=
  String.ofList (text.toList.flatMap (percentEncodeChar keep))

def formEncodeChar (keep : Char → Bool) (c : Char) : List Char :=
  if c = ' ' then ['+'] else percentEncodeChar keep c

def formEncode (keep : Char → Bool) (text : String) : String :=
  String.ofList (text.toList.flatMap (formEncodeChar keep))

/-! ### What an encoded text has in it -/

theorem upperHexDigit_spec : ∀ n < 16, hexDigit (upperHexDigit n) = some n := by decide

/-- What an escape is made of. -/
def isEscapeChar (c : Char) : Bool := c == '%' || (hexDigit c).isSome

variable {d c : Char}

theorem isEscapeChar_of_mem_percentByte {b : UInt8} (h : d ∈ percentByte b) :
    isEscapeChar d = true := by
  have hsize := b.toNat_lt
  simp only [percentByte, List.mem_cons, List.not_mem_nil, or_false] at h
  rcases h with rfl | rfl | rfl
  · rfl
  · rw [isEscapeChar, upperHexDigit_spec _ (by omega)]
    simp
  · rw [isEscapeChar, upperHexDigit_spec _ (by omega)]
    simp

theorem isEscapeChar_of_mem (h : d ∈ escapeChar c) : isEscapeChar d = true := by
  obtain ⟨b, -, hd⟩ := List.mem_flatMap.mp h
  exact isEscapeChar_of_mem_percentByte hd

variable {keep : Char → Bool}

theorem mem_percentEncodeChar (hd : isEscapeChar d = false) :
    d ∈ percentEncodeChar keep c ↔ d = c ∧ keep c = true := by
  rw [percentEncodeChar]
  split
  · next hkeep => simp [hkeep]
  · next hkeep =>
    refine iff_of_false (fun hmem => ?_) fun h => hkeep h.2
    rw [isEscapeChar_of_mem hmem] at hd
    cases hd

theorem mem_percentEncode (hd : isEscapeChar d = false)
    (text : String) : d ∈ (percentEncode keep text).toList ↔ d ∈ text.toList ∧ keep d = true := by
  rw [percentEncode, String.toList_ofList, List.mem_flatMap]
  simp only [mem_percentEncodeChar hd]
  refine ⟨?_, fun h => ⟨d, h.1, rfl, h.2⟩⟩
  rintro ⟨c, hc, rfl, hkeep⟩
  exact ⟨hc, hkeep⟩

theorem mem_formEncode (hd : isEscapeChar d = false)
    (hplus : d ≠ '+') (text : String) (h : d ∈ (formEncode keep text).toList) : keep d = true := by
  rw [formEncode, String.toList_ofList, List.mem_flatMap] at h
  obtain ⟨c, -, hmem⟩ := h
  rw [formEncodeChar] at hmem
  split at hmem
  · exact absurd (List.mem_singleton.mp hmem) hplus
  · obtain ⟨rfl, hkeep⟩ := (mem_percentEncodeChar hd).mp hmem
    exact hkeep

/-! ### Decoding -/

theorem percentBytes_cons (h : c ≠ '%') (rest : List Char) :
    percentBytes (c :: rest) = String.utf8EncodeChar c ++ percentBytes rest := by
  rw [percentBytes.eq_def]
  split
  · next heq => exact absurd (List.cons.inj heq).1 h
  · next heq =>
    cases heq
    rfl
  · next heq => cases heq

theorem percentBytes_percentByte (b : UInt8) (rest : List Char) :
    percentBytes (percentByte b ++ rest) = b :: percentBytes rest := by
  have hsize := b.toNat_lt
  rw [percentByte, List.cons_append, List.cons_append, List.cons_append, List.nil_append,
    percentBytes, upperHexDigit_spec _ (by omega), upperHexDigit_spec _ (by omega)]
  simp only
  rw [Nat.div_add_mod]
  simp

theorem percentBytes_escapeChar (c : Char) (rest : List Char) :
    percentBytes (escapeChar c ++ rest) = String.utf8EncodeChar c ++ percentBytes rest := by
  rw [escapeChar]
  generalize String.utf8EncodeChar c = bytes
  induction bytes with
  | nil => rfl
  | cons b bytes ih =>
    rw [List.flatMap_cons, List.append_assoc, percentBytes_percentByte, ih, List.cons_append]

theorem percentBytes_percentEncode (hkeep : keep '%' = false)
    (text : List Char) : percentBytes (text.flatMap (percentEncodeChar keep)) =
      text.flatMap String.utf8EncodeChar := by
  induction text with
  | nil => rfl
  | cons c text ih =>
    rw [List.flatMap_cons, List.flatMap_cons, percentEncodeChar]
    split
    · next hc =>
      have hne : c ≠ '%' := by
        rintro rfl
        rw [hkeep] at hc
        cases hc
      rw [List.singleton_append, percentBytes_cons hne, ih]
    · rw [percentBytes_escapeChar, ih]

/-- **Percent encoding is undone.** -/
theorem percentDecode_percentEncode (hkeep : keep '%' = false)
    (text : String) : percentDecode (percentEncode keep text) = some text := by
  rw [percentDecode_eq_some, percentEncode, String.toList_ofList, percentBytes_percentEncode hkeep]
  rfl

/-- How a query is read. -/
def plusToSpace (c : Char) : Char := if c == '+' then ' ' else c

theorem map_plusToSpace_escapeChar (c : Char) : (escapeChar c).map plusToSpace = escapeChar c := by
  refine (List.map_congr_left fun d hd => ?_).trans (List.map_id _)
  have hescape := isEscapeChar_of_mem hd
  rw [plusToSpace, if_neg, id]
  rw [beq_iff_eq]
  rintro rfl
  exact absurd hescape (by decide)

theorem formDecode_flatMap {f : Char → List Char} {g : Char → Char}
    (h : ∀ c rest, percentBytes ((f c).map plusToSpace ++ rest) =
      String.utf8EncodeChar (g c) ++ percentBytes rest) (text : String) :
    formDecode (String.ofList (text.toList.flatMap f)) = some (text.map g) := by
  rw [formDecode, percentDecode_eq_some, String.toList_map, String.toList_ofList, asBytes,
    String.toList_map]
  show percentBytes ((text.toList.flatMap f).map plusToSpace) = _
  induction text.toList with
  | nil => rfl
  | cons c text ih =>
    rw [List.flatMap_cons, List.map_append, h, ih, List.map_cons, List.flatMap_cons]

theorem formDecode_percentEncode (hpercent : keep '%' = false)
    (text : String) : formDecode (percentEncode keep text) =
      some (text.map fun c => if keep c then plusToSpace c else c) := by
  refine formDecode_flatMap (fun c rest => ?_) text
  rw [percentEncodeChar]
  split
  · next hc =>
    have hne : plusToSpace c ≠ '%' := by
      rw [plusToSpace]
      split
      · decide
      · rintro rfl
        rw [hpercent] at hc
        cases hc
    exact percentBytes_cons hne rest
  · rw [map_plusToSpace_escapeChar, percentBytes_escapeChar]

/-- **Form encoding is undone.** -/
theorem formDecode_formEncode (hpercent : keep '%' = false)
    (hplus : keep '+' = false) (text : String) : formDecode (formEncode keep text) = some text := by
  have hread := @formDecode_flatMap (formEncodeChar keep) id (fun c rest => ?_) text
  · rwa [String.map_id] at hread
  · rw [formEncodeChar]
    split
    · next hspace =>
      subst hspace
      exact percentBytes_cons (by decide) rest
    · rw [percentEncodeChar]
      split
      · next hc =>
        have hne : c ≠ '%' ∧ c ≠ '+' := by
          refine ⟨?_, ?_⟩ <;> rintro rfl
          · rw [hpercent] at hc
            cases hc
          · rw [hplus] at hc
            cases hc
        rw [List.map_singleton, plusToSpace, if_neg (by rw [beq_iff_eq]; exact hne.2),
          List.singleton_append, percentBytes_cons hne.1]
        rfl
      · rw [map_plusToSpace_escapeChar, percentBytes_escapeChar]
        rfl

end Peanut
