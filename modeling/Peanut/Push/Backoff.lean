import Mathlib.Algebra.Order.Group.Abs
import Mathlib.Algebra.Order.Group.Int
import Peanut.Library.Words
import Peanut.Push.Worker

/-!
# The delay before a retry

`retry_backoff_seconds` of `push/worker.rs` with the 64-bit operations it is made of.
None of them overflows, and the delay stays within a fifth of the doubled base delay.
-/

namespace Peanut

open Words

def retryBackoffScheduleSeconds : List Int := [30, 120]

/-- `retry_backoff_seconds`; no result is a panic. -/
def retryBackoffSeconds64 (nextRetryCount itemId : Int) : Option Int := do
  let baseDelay := retryBackoffScheduleSeconds.head?.getD 30
  let maxDelay := retryBackoffScheduleSeconds.getLast?.getD 120
  let factor ← shiftLeft 1 (min (saturated (nextRetryCount - 1)) 10)
  let exponential := min (saturated (baseDelay * factor)) maxDelay
  let jitterWindow := max (exponential / 5) 1
  let seed := toU64 (toU64 (itemId.natAbs * 1103515245) + toU64 (toU64 nextRetryCount * 12345))
  let doubled ← checked (jitterWindow * 2)
  let jitterSpan ← checked (doubled + 1)
  let rest ← remainder seed (toU64 jitterSpan)
  let offset := toI64 rest
  let earliest ← checked (exponential - jitterWindow)
  let delay ← checked (earliest + offset)
  return max (min delay maxDelay) 1

/-- The delay without jitter: doubled with every retry up to two minutes. -/
def exponentialDelay (retryCount : Nat) : Int := min (30 * 2 ^ (retryCount - 1)) 120

theorem exponentialDelay_cases {n : Nat} (h : 1 ≤ n) :
    n = 1 ∧ exponentialDelay n = 30 ∨ n = 2 ∧ exponentialDelay n = 60 ∨
      3 ≤ n ∧ exponentialDelay n = 120 := by
  by_cases hone : n = 1
  · subst hone
    exact .inl ⟨rfl, by decide⟩
  · by_cases htwo : n = 2
    · subst htwo
      exact .inr (.inl ⟨rfl, by decide⟩)
    · have hge : 3 ≤ n := by omega
      have hpow : (2 : Int) ^ 2 ≤ 2 ^ (n - 1) := by
        have hnat := Nat.pow_le_pow_right (n := 2) (by decide) (show 2 ≤ n - 1 by omega)
        exact_mod_cast hnat
      refine .inr (.inr ⟨hge, ?_⟩)
      rw [exponentialDelay]
      omega

theorem exponential_eq {n : Int} (h : 1 ≤ n) :
    min (30 * 2 ^ (min (n - 1) 10).toNat) 120 = exponentialDelay n.toNat := by
  have hcapped := exponentialDelay_cases (n := (min (n - 1) 10).toNat + 1) (by omega)
  have hfull := exponentialDelay_cases (n := n.toNat) (by omega)
  rw [exponentialDelay, Nat.add_sub_cancel] at hcapped
  omega

section Backoff

variable {n : Int}

theorem exponential_saturated (hn : 1 ≤ n) :
    min (saturated (30 * 2 ^ (min (n - 1) 10).toNat)) 120 = exponentialDelay n.toNat := by
  have hpow : (2 : Int) ^ (min (n - 1) 10).toNat ≤ 2 ^ 10 := by
    have hnat := Nat.pow_le_pow_right (n := 2) (by decide)
      (show (min (n - 1) 10).toNat ≤ 10 by omega)
    exact_mod_cast hnat
  have hpos : (0 : Int) < 2 ^ (min (n - 1) 10).toNat := Int.pow_pos (by decide)
  have hfits : FitsI64 (30 * 2 ^ (min (n - 1) 10).toNat) := by
    constructor
    · omega
    · omega
  rw [saturated_of_fits hfits, exponential_eq hn]

/-- The delay with a jitter drawn by the seed. -/
def jittered (exponential : Int) (seed : Nat) : Int :=
  max (min (exponential - exponential / 5 +
    (seed % (exponential / 5 * 2 + 1).toNat : Nat)) 120) 1

def backoffSeed (n itemId : Int) : Nat :=
  toU64 (toU64 (itemId.natAbs * 1103515245) + toU64 (toU64 n * 12345))

theorem exponentialDelay_range (hn : 1 ≤ n) :
    30 ≤ exponentialDelay n.toNat ∧ exponentialDelay n.toNat ≤ 120 := by
  rcases exponentialDelay_cases (n := n.toNat) (by omega) with ⟨-, h⟩ | ⟨-, h⟩ | ⟨-, h⟩ <;> omega

theorem retryBackoffSeconds64_eq_some (hn : 1 ≤ n) (hmax : FitsI64 n) (itemId : Int) :
    retryBackoffSeconds64 n itemId =
      some (jittered (exponentialDelay n.toNat) (backoffSeed n itemId)) := by
  have hshift : shiftLeft 1 (min (saturated (n - 1)) 10) = some (2 ^ (min (n - 1) 10).toNat) := by
    rw [saturated_of_fits ⟨by omega, by have := hmax.2; omega⟩]
    exact shiftLeft_one (by omega) (by omega)
  have hexponential := exponential_saturated hn
  have hdelay := exponentialDelay_range hn
  unfold retryBackoffSeconds64 jittered backoffSeed
  generalize exponentialDelay n.toNat = e at hexponential hdelay ⊢
  generalize toU64 (toU64 (itemId.natAbs * 1103515245) + toU64 (toU64 n * 12345)) = seed
  have hwindow : max (e / 5) 1 = e / 5 := by omega
  have hdoubled : checked (e / 5 * 2) = some (e / 5 * 2) :=
    checked_of_fits ⟨by omega, by omega⟩
  have hspan : checked (e / 5 * 2 + 1) = some (e / 5 * 2 + 1) :=
    checked_of_fits ⟨by omega, by omega⟩
  have hremainder : remainder seed (toU64 (e / 5 * 2 + 1)) =
      some (seed % (e / 5 * 2 + 1).toNat) := by
    rw [toU64_of_nonneg (by omega) (by omega), remainder_of_pos (by omega)]
  have hearliest : checked (e - e / 5) = some (e - e / 5) := checked_of_fits ⟨by omega, by omega⟩
  have hrest := Nat.mod_lt seed (show 0 < (e / 5 * 2 + 1).toNat by omega)
  have hoffset : toI64 (seed % (e / 5 * 2 + 1).toNat : Nat) =
      (seed % (e / 5 * 2 + 1).toNat : Nat) := toI64_of_fits ⟨by omega, by omega⟩
  generalize seed % (e / 5 * 2 + 1).toNat = offset at hrest hremainder hoffset ⊢
  have hsum : checked (e - e / 5 + (offset : Int)) = some (e - e / 5 + (offset : Int)) :=
    checked_of_fits ⟨by omega, by omega⟩
  simp only [retryBackoffScheduleSeconds, List.head?_cons, List.getLast?_cons_cons,
    List.getLast?_singleton, Option.getD_some, hshift, hexponential, hwindow, hdoubled, hspan,
    hremainder, hoffset, hearliest, hsum, Option.bind_eq_bind, Option.bind_some]
  rfl

theorem retryBackoffSeconds64_worker (hn : 1 ≤ n) (hmax : FitsI64 n) (itemId : Nat) :
    retryBackoffSeconds64 n itemId = some (retryBackoffSeconds n itemId) := by
  have hpow : ((1 <<< (min (n - 1) 10).toNat : Nat) : Int) = 2 ^ (min (n - 1) 10).toNat := by
    rw [Nat.one_shiftLeft]
    exact_mod_cast rfl
  have hwindow : max (exponentialDelay n.toNat / 5) 1 = exponentialDelay n.toNat / 5 := by
    have := exponentialDelay_range hn
    omega
  have hseed : backoffSeed n itemId =
      (itemId * 1103515245 + n.toNat * 12345) % 18446744073709551616 := by
    have hcount := @toU64_of_nonneg n (by omega) (by have := hmax.2; omega)
    have hitem : ((itemId : Int).natAbs * 1103515245 : Int) = (itemId * 1103515245 : Nat) := by
      rw [Int.natAbs_natCast, Int.natCast_mul]
      rfl
    have hretries : ((n.toNat : Int) * 12345) = (n.toNat * 12345 : Nat) := by
      rw [Int.natCast_mul]
      rfl
    rw [backoffSeed, hcount, hitem, hretries, toU64_natCast, toU64_natCast, ← Int.natCast_add,
      toU64_natCast, ← Nat.add_mod]
  rw [retryBackoffSeconds64_eq_some hn hmax, jittered, hseed]
  simp only [retryBackoffSeconds, Nat.cast_ofNat, hpow, exponential_eq hn, hwindow]

/-- **The backoff stays in range.**  No operation overflows, and the delay is between a
    second and two minutes and within a fifth of the doubled base delay. -/
theorem retry_backoff_in_range (hn : 1 ≤ n) (hmax : FitsI64 n) (itemId : Int) :
    ∃ d, retryBackoffSeconds64 n itemId = some d ∧ 1 ≤ d ∧ d ≤ 120 ∧
      |d - exponentialDelay n.toNat| ≤ exponentialDelay n.toNat / 5 := by
  have hdelay := exponentialDelay_range hn
  refine ⟨_, retryBackoffSeconds64_eq_some hn hmax itemId, ?_⟩
  rw [jittered]
  generalize exponentialDelay n.toNat = e at hdelay ⊢
  have hrest := Nat.mod_lt (backoffSeed n itemId) (show 0 < (e / 5 * 2 + 1).toNat by omega)
  refine ⟨by omega, by omega, ?_⟩
  rw [abs_le]
  constructor
  · omega
  · omega

end Backoff

/-- The extreme ids and counts, and the ids of the worker's own test. -/
theorem retry_backoff_extremes :
    (∃ d, retryBackoffSeconds64 (2 ^ 63 - 1) (-2 ^ 63) = some d ∧ 1 ≤ d ∧ d ≤ 120 ∧
      |d - exponentialDelay (2 ^ 63 - 1 : Int).toNat| ≤
        exponentialDelay (2 ^ 63 - 1 : Int).toNat / 5) ∧
    retryBackoffSeconds64 1 42 = some 35 ∧ retryBackoffSeconds64 2 42 = some 53 :=
  ⟨retry_backoff_in_range (by decide) (by decide) (-2 ^ 63), by decide +kernel, by decide +kernel⟩

end Peanut
