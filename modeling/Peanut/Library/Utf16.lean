import Mathlib.Data.Set.Operations

/-!
# UTF-16

The code units of a text.  A character above the basic plane is a pair of surrogates,
which stand for nothing else, so that the units tell the text.
-/

namespace Utf16

/-- The code units of a character. -/
def units (c : Char) : List UInt16 :=
  if c.toNat < 0x10000 then [UInt16.ofNat c.toNat]
  else [UInt16.ofNat (0xD800 + (c.toNat - 0x10000) / 0x400),
    UInt16.ofNat (0xDC00 + (c.toNat - 0x10000) % 0x400)]

def encode (text : List Char) : List UInt16 := text.flatMap units

/-- Units in which every surrogate has its partner. -/
def WellFormed (us : List UInt16) : Prop := us ∈ Set.range encode

theorem toNat_bounds (c : Char) :
    c.toNat < 0xD800 ∨ 0xDFFF < c.toNat ∧ c.toNat < 0x110000 := c.valid

theorem units_of_lt {c : Char} (h : c.toNat < 0x10000) : units c = [UInt16.ofNat c.toNat] :=
  if_pos h

/-- A text written letter by letter is told by what is written, when each letter is told by
    what stands in front. -/
theorem flatMap_injective {α β : Type*} {f : α → List β} (hne : ∀ a, f a ≠ [])
    (hfront : ∀ {a b : α} {l m : List β}, f a ++ l = f b ++ m → a = b ∧ l = m) :
    Function.Injective (List.flatMap f) := by
  intro text
  induction text with
  | nil =>
    intro text' h
    cases text' with
    | nil => rfl
    | cons b text' => exact absurd (List.append_eq_nil_iff.mp h.symm).1 (hne b)
  | cons a text ih =>
    intro text' h
    cases text' with
    | nil => exact absurd (List.append_eq_nil_iff.mp h).1 (hne a)
    | cons b text' =>
      obtain ⟨rfl, hrest⟩ := hfront h
      rw [ih hrest]

@[simp] theorem encode_nil : encode [] = [] := rfl

@[simp] theorem encode_cons (c : Char) (text : List Char) :
    encode (c :: text) = units c ++ encode text := rfl

@[simp] theorem encode_append (text text' : List Char) :
    encode (text ++ text') = encode text ++ encode text' := List.flatMap_append

end Utf16
