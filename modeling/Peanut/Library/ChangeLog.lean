import Mathlib.Logic.Function.Basic

/-!
# Logs of changes to a map

A map from keys to values and a log of the changes made to it.  Replaying the
log from the empty map gives the map back as long as every change was logged;
what a gap in the log costs is said by `replayFrom_puts_eq_iff`.
-/

namespace ChangeLog

universe u v

inductive Change (κ : Type u) (ν : Type v) where
  | put (key : κ) (value : ν)
  | remove (key : κ)

variable {κ : Type u} {ν : Type v}

/-- The log entries that put a list of pairs. -/
def puts (entries : List (κ × ν)) : List (Change κ ν) := entries.map fun e => .put e.1 e.2

@[simp] theorem puts_cons (e : κ × ν) (entries : List (κ × ν)) :
    puts (e :: entries) = .put e.1 e.2 :: puts entries := rfl

variable [DecidableEq κ]

def apply (m : κ → Option ν) : Change κ ν → κ → Option ν
  | .put key value => Function.update m key (some value)
  | .remove key => Function.update m key none

/-- The map after a list of changes. -/
def replayFrom (m : κ → Option ν) (changes : List (Change κ ν)) : κ → Option ν :=
  changes.foldl apply m

/-- The map a log describes. -/
def replay (changes : List (Change κ ν)) : κ → Option ν := replayFrom (fun _ => none) changes

@[simp] theorem replayFrom_nil (m : κ → Option ν) : replayFrom m [] = m := rfl

@[simp] theorem replayFrom_cons (m : κ → Option ν) (c : Change κ ν) (cs : List (Change κ ν)) :
    replayFrom m (c :: cs) = replayFrom (apply m c) cs := rfl

theorem replay_append (xs ys : List (Change κ ν)) :
    replay (xs ++ ys) = replayFrom (replay xs) ys :=
  List.foldl_append

/-- After a list of puts two maps agree where they agreed before and at every
    key that was put. -/
theorem replayFrom_puts_congr {entries : List (κ × ν)} {k : κ} :
    ∀ {m m' : κ → Option ν}, k ∈ entries.map Prod.fst ∨ m k = m' k →
      replayFrom m (puts entries) k = replayFrom m' (puts entries) k := by
  induction entries with
  | nil =>
    intro m m' h
    rcases h with h | h
    · cases h
    · exact h
  | cons e rest ih =>
    intro m m' h
    rw [puts_cons, replayFrom_cons, replayFrom_cons]
    apply ih
    by_cases hk : k = e.1
    · exact .inr (by simp [apply, hk])
    · rcases h with h | h
      · rcases List.mem_cons.mp h with h | h
        · exact absurd h hk
        · exact .inl h
      · exact .inr (by simpa [apply, hk] using h)

theorem replayFrom_puts_of_not_mem {entries : List (κ × ν)} {k : κ}
    (h : k ∉ entries.map Prod.fst) : ∀ m : κ → Option ν, replayFrom m (puts entries) k = m k := by
  induction entries with
  | nil => intro m; rfl
  | cons e rest ih =>
    intro m
    rw [List.map_cons, List.mem_cons, not_or] at h
    rw [puts_cons, replayFrom_cons, ih h.2]
    exact Function.update_of_ne h.1 _ _

/-- **A cleared map.**  Puts lead from `m` and from the empty map to the same
    result exactly when they overwrite every key of `m`. -/
theorem replayFrom_puts_eq_iff {m : κ → Option ν} {entries : List (κ × ν)} :
    replayFrom m (puts entries) = replayFrom (fun _ => none) (puts entries) ↔
      ∀ k, m k ≠ none → k ∈ entries.map Prod.fst := by
  constructor
  · intro h k hk
    by_contra hout
    have hat := congrFun h k
    rw [replayFrom_puts_of_not_mem hout, replayFrom_puts_of_not_mem hout] at hat
    exact hk hat
  · intro h
    funext k
    apply replayFrom_puts_congr
    by_cases hk : m k = none
    · exact .inr hk
    · exact .inl (h k hk)

end ChangeLog
