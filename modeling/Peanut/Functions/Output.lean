import Peanut.Text

/-!
# The output of a function

What a function writes to stderr is decoded by `String::from_utf8_lossy` and cut by
`truncate_output` of `functions/runtime.rs`.  The cut counts bytes, and
`String::truncate` panics inside a character.
-/

namespace Peanut

/-! ### Decoding -/

/-- How many bytes follow a first byte, and the range of the first of them. -/
def followers (first : UInt8) : Nat × UInt8 × UInt8 :=
  if 0xC2 ≤ first ∧ first ≤ 0xDF then (1, 0x80, 0xBF)
  else if first = 0xE0 then (2, 0xA0, 0xBF)
  else if first = 0xED then (2, 0x80, 0x9F)
  else if 0xE1 ≤ first ∧ first ≤ 0xEF then (2, 0x80, 0xBF)
  else if first = 0xF0 then (3, 0x90, 0xBF)
  else if 0xF1 ≤ first ∧ first ≤ 0xF3 then (3, 0x80, 0xBF)
  else if first = 0xF4 then (3, 0x80, 0x8F)
  else (0, 0x80, 0xBF)

/-- How many of the expected bytes are there. -/
def continued : Nat × UInt8 × UInt8 → List UInt8 → Nat
  | (count + 1, low, high), byte :: rest =>
      if low ≤ byte ∧ byte ≤ high then continued (count, 0x80, 0xBF) rest + 1 else 0
  | _, _ => 0

/-- `String::from_utf8_lossy`: what is no character is replaced as far as it could begin
    one.  `skip` bytes of the last one are still to be passed over. -/
def lossyChars : Nat → List UInt8 → List Char
  | _, [] => []
  | skip + 1, _ :: rest => lossyChars skip rest
  | 0, first :: rest =>
      match ByteArray.utf8DecodeChar? ⟨(first :: rest).toArray⟩ 0 with
      | some c => c :: lossyChars (c.utf8Size - 1) rest
      | none => '\uFFFD' :: lossyChars (continued (followers first) rest) rest

def fromUtf8Lossy (bytes : List UInt8) : String := String.ofList (lossyChars 0 bytes)

theorem lossyChars_skip : ∀ (skipped rest : List UInt8),
    lossyChars skipped.length (skipped ++ rest) = lossyChars 0 rest
  | [], rest => rfl
  | _ :: skipped, rest => by
      rw [List.length_cons, List.cons_append, lossyChars, lossyChars_skip skipped rest]

/-! ### Cutting -/

/-- The characters that make up so many bytes. -/
def takeBytes : List Char → Nat → Option (List Char)
  | _, 0 => some []
  | [], _ + 1 => none
  | c :: rest, n + 1 =>
      if c.utf8Size ≤ n + 1 then (takeBytes rest (n + 1 - c.utf8Size)).map (c :: ·) else none

/-- `String::truncate`; no result is a panic. -/
def truncate (text : String) (newLen : Nat) : Option String :=
  if newLen ≤ len text then (takeBytes text.toList newLen).map String.ofList else some text

def truncateOutput (value : String) (maxOutputBytes : Nat) : Option String :=
  if maxOutputBytes < len value then truncate value maxOutputBytes else some value

/-- The end of a character, or the beginning of the text. -/
def IsCharBoundary (text : String) (n : Nat) : Prop :=
  ∃ start : List Char, start <+: text.toList ∧ len (String.ofList start) = n

theorem len_ofList_cons (c : Char) (l : List Char) :
    len (String.ofList (c :: l)) = c.utf8Size + len (String.ofList l) := by
  rw [String.ofList_cons, len, String.utf8ByteSize_append, String.utf8ByteSize_singleton, len]

theorem takeBytes_eq_some {l start : List Char} {n : Nat} :
    takeBytes l n = some start ↔ start <+: l ∧ len (String.ofList start) = n := by
  induction l generalizing n start with
  | nil =>
    rw [List.prefix_nil]
    cases n with
    | zero =>
      rw [takeBytes, Option.some.injEq]
      constructor
      · rintro rfl
        exact ⟨rfl, rfl⟩
      · rintro ⟨rfl, -⟩
        rfl
    | succ n =>
      refine iff_of_false (by rw [takeBytes]; exact Option.some_ne_none _ ∘ Eq.symm) ?_
      rintro ⟨rfl, hlen⟩
      cases hlen
  | cons c rest ih =>
    have hpos := Char.utf8Size_pos c
    cases n with
    | zero =>
      rw [takeBytes, Option.some.injEq]
      constructor
      · rintro rfl
        exact ⟨List.nil_prefix, rfl⟩
      · rintro ⟨-, hlen⟩
        cases start with
        | nil => rfl
        | cons d start =>
          have := Char.utf8Size_pos d
          rw [len_ofList_cons] at hlen
          omega
    | succ n =>
      rw [takeBytes]
      split
      · rename_i hfits
        rw [Option.map_eq_some_iff]
        simp only [ih]
        constructor
        · rintro ⟨tail, ⟨hstart, hlen⟩, rfl⟩
          refine ⟨List.cons_prefix_cons.mpr ⟨rfl, hstart⟩, ?_⟩
          rw [len_ofList_cons]
          omega
        · rintro ⟨hstart, hlen⟩
          cases start with
          | nil => cases hlen
          | cons d tail =>
            obtain ⟨rfl, htail⟩ := List.cons_prefix_cons.mp hstart
            rw [len_ofList_cons] at hlen
            exact ⟨tail, ⟨htail, by omega⟩, rfl⟩
      · rename_i hlong
        refine iff_of_false (Option.some_ne_none _ ∘ Eq.symm) ?_
        rintro ⟨hstart, hlen⟩
        cases start with
        | nil => cases hlen
        | cons d tail =>
          obtain ⟨rfl, -⟩ := List.cons_prefix_cons.mp hstart
          rw [len_ofList_cons] at hlen
          omega

/-- **Output is truncated exactly when** it is short enough or the limit does not fall
    inside a character. -/
theorem truncate_output_total_iff (bytes : List UInt8) (maxOutputBytes : Nat) :
    (∃ output, truncateOutput (fromUtf8Lossy bytes) maxOutputBytes = some output ∧
      output.toList <+: (fromUtf8Lossy bytes).toList ∧ len output ≤ maxOutputBytes) ↔
      (maxOutputBytes < len (fromUtf8Lossy bytes) →
        IsCharBoundary (fromUtf8Lossy bytes) maxOutputBytes) := by
  generalize fromUtf8Lossy bytes = text
  unfold truncateOutput
  split
  · rename_i hlong
    rw [truncate, if_pos (Nat.le_of_lt hlong), forall_prop_of_true hlong]
    constructor
    · rintro ⟨output, hcut, -, -⟩
      obtain ⟨start, hstart, -⟩ := Option.map_eq_some_iff.mp hcut
      exact ⟨start, takeBytes_eq_some.mp hstart⟩
    · rintro ⟨start, hstart, hlen⟩
      refine ⟨String.ofList start, ?_, ?_, Nat.le_of_eq hlen⟩
      · rw [takeBytes_eq_some.mpr ⟨hstart, hlen⟩, Option.map_some]
      · rwa [String.toList_ofList]
  · rename_i hshort
    refine iff_of_true ⟨text, rfl, List.prefix_rfl, Nat.not_lt.mp hshort⟩ ?_
    intro hlong
    exact absurd hlong hshort

/-- The two bytes of `é` and a limit of one. -/
theorem character_cut_panics :
    ¬ ∃ output, truncateOutput (fromUtf8Lossy [0xC3, 0xA9]) 1 = some output ∧
      output.toList <+: (fromUtf8Lossy [0xC3, 0xA9]).toList ∧ len output ≤ 1 := by
  rintro ⟨output, hcut, -⟩
  have hpanic : truncateOutput (fromUtf8Lossy [0xC3, 0xA9]) 1 = none := by decide +kernel
  rw [hpanic] at hcut
  cases hcut

/-- What could begin a character is replaced once, a byte that could not by itself. -/
example : fromUtf8Lossy [0xE2, 0x82, 0x41, 0xC0, 0x80] = "\uFFFDA\uFFFD\uFFFD" := by decide +kernel

end Peanut
