import Mathlib.Order.Basic

/-!
# Loops that count

A loop `for i in first..=last` whose body goes on with a new state or leaves with a
result.  The run says how many rounds were begun and what came out.
-/

namespace CountedLoop

universe u v

variable {σ : Type u} {β : Type v}

/-- What a round of a loop does. -/
inductive Round (σ : Type u) (β : Type v) where
  | again (state : σ)
  | leave (result : β)

/-- The loop from round `i` on: the rounds begun, and the result. -/
def loop (last : Nat) (body : Nat → σ → Round σ β) (after : σ → β) (i : Nat) (state : σ) :
    Nat × β :=
  if i ≤ last then
    match body i state with
    | .again state' => loop last body after (i + 1) state'
    | .leave result => (i + 1, result)
  else (i, after state)
termination_by last + 1 - i

variable {last : Nat} {body : Nat → σ → Round σ β} {after : σ → β}

theorem loop_again {i : Nat} {state state' : σ} (hle : i ≤ last)
    (h : body i state = .again state') :
    loop last body after i state = loop last body after (i + 1) state' := by
  rw [loop, if_pos hle, h]

theorem loop_leave {i : Nat} {state : σ} {result : β} (hle : i ≤ last)
    (h : body i state = .leave result) : loop last body after i state = (i + 1, result) := by
  rw [loop, if_pos hle, h]

/-- **Leaving rule.**  A loop whose body goes on in every round before `k` and leaves in
    round `k` begins `k + 1` rounds, whatever the state. -/
theorem loop_eq {k : Nat} {result : β} (hk : k ≤ last)
    (hleave : ∀ state, body k state = .leave result)
    (hagain : ∀ j, j < k → ∀ state, ∃ state', body j state = .again state') (state : σ) :
    loop last body after 0 state = (k + 1, result) := by
  have hfrom : ∀ (n i : Nat) (state : σ), i + n = k →
      loop last body after i state = (k + 1, result) := by
    intro n
    induction n with
    | zero =>
      intro i state hi
      rw [Nat.add_zero] at hi
      subst hi
      exact loop_leave hk (hleave state)
    | succ n ih =>
      intro i state hi
      obtain ⟨state', hstate'⟩ := hagain i (by omega) state
      rw [loop_again (by omega) hstate']
      exact ih (i + 1) state' (by omega)
  exact hfrom k 0 state (Nat.zero_add k)

end CountedLoop
