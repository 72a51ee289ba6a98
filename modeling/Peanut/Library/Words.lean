import Mathlib.Algebra.Group.Int.Defs
import Mathlib.Data.Int.Order.Basic

/-!
# 64-bit words

Signed and unsigned integers of 64 bits, as numbers.  `checked` is arithmetic that
panics when the result does not fit, `saturated` stops at the ends of the range, and
`toI64` and `toU64` are the casts, which keep the lower 64 bits.
-/

namespace Words

def FitsI64 (n : Int) : Prop := -2 ^ 63 ≤ n ∧ n < 2 ^ 63

instance (n : Int) : Decidable (FitsI64 n) := inferInstanceAs (Decidable (_ ∧ _))

/-- The result, unless it overflows. -/
def checked (n : Int) : Option Int := if FitsI64 n then some n else none

def saturated (n : Int) : Int := max (-2 ^ 63) (min n (2 ^ 63 - 1))

def toU64 (n : Int) : Nat := (n % 2 ^ 64).toNat

def toI64 (n : Int) : Int := (n + 2 ^ 63) % 2 ^ 64 - 2 ^ 63

/-- `n << k`, which panics when the word has no such bit. -/
def shiftLeft (n k : Int) : Option Int :=
  if 0 ≤ k ∧ k < 64 then some (toI64 (n * 2 ^ k.toNat)) else none

/-- `n % m` of unsigned words, which panics at zero. -/
def remainder (n m : Nat) : Option Nat := if m = 0 then none else some (n % m)

variable {n k : Int}

@[simp] theorem checked_of_fits (h : FitsI64 n) : checked n = some n := if_pos h

theorem saturated_of_fits (h : FitsI64 n) : saturated n = n := by
  obtain ⟨hlow, hhigh⟩ := h
  rw [saturated, Int.min_eq_left (Int.le_sub_one_of_lt hhigh), Int.max_eq_right hlow]

theorem toI64_of_fits (h : FitsI64 n) : toI64 n = n := by
  obtain ⟨hlow, hhigh⟩ := h
  rw [toI64, Int.emod_eq_of_lt (by omega) (by omega)]
  omega

theorem toU64_of_nonneg (hlow : 0 ≤ n) (hhigh : n < 2 ^ 64) : toU64 n = n.toNat := by
  rw [toU64, Int.emod_eq_of_lt hlow hhigh]

theorem toU64_natCast (m : Nat) : toU64 m = m % 18446744073709551616 := by
  rw [toU64, show (2 : Int) ^ 64 = (18446744073709551616 : Nat) from rfl, ← Int.natCast_emod,
    Int.toNat_natCast]

theorem shiftLeft_one (hlow : 0 ≤ k) (hhigh : k ≤ 62) : shiftLeft 1 k = some (2 ^ k.toNat) := by
  have hpow : (2 : Int) ^ k.toNat ≤ 2 ^ 62 := by
    have hnat := Nat.pow_le_pow_right (n := 2) (by decide) (show k.toNat ≤ 62 by omega)
    exact_mod_cast hnat
  have hpos : (0 : Int) < 2 ^ k.toNat := Int.pow_pos (by decide)
  rw [shiftLeft, if_pos ⟨hlow, by omega⟩, Int.one_mul, toI64_of_fits]
  constructor
  · omega
  · omega

theorem remainder_of_pos {n m : Nat} (h : 0 < m) : remainder n m = some (n % m) :=
  if_neg (Nat.pos_iff_ne_zero.mp h)

end Words
