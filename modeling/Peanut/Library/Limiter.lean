import Mathlib.Data.List.Basic
import Mathlib.Data.List.Induction

/-!
# Limiters

A limiter is asked at one instant after the other and accepts or refuses.  What it
keeps is its own affair: two limiters that answer alike, whatever they keep, are
compared by `answers_congr`.

`slide` is the sliding window that forgets nothing: it accepts while fewer than
`limit` of the instants it accepted lie within the window before.  `fixed` counts
from a reset on, and resets when the last reset is more than a period ago.
-/

universe u v

namespace Limiter

variable {σ : Type u} {τ : Type v} {step : σ → Nat → σ × Bool} {step' : τ → Nat → τ × Bool}

/-! ### Runs -/

/-- What is kept after the limiter was asked at these instants. -/
def after (step : σ → Nat → σ × Bool) : σ → List Nat → σ := List.foldl fun s t => (step s t).1

def answers (step : σ → Nat → σ × Bool) : σ → List Nat → List Bool
  | _, [] => []
  | s, t :: times => (step s t).2 :: answers step (step s t).1 times

/-- The instants of `times` at which it accepts. -/
def accepted (step : σ → Nat → σ × Bool) : σ → List Nat → List Nat
  | _, [] => []
  | s, t :: times =>
      if (step s t).2 then t :: accepted step (step s t).1 times
      else accepted step (step s t).1 times

/-- Whether it accepts at `t` after it was asked at `before`. -/
def accepts (step : σ → Nat → σ × Bool) (s : σ) (before : List Nat) (t : Nat) : Bool :=
  (step (after step s before) t).2

variable {s : σ}

@[simp] theorem after_nil : after step s [] = s := rfl

variable {t : Nat} {times before mid kept : List Nat}

@[simp] theorem after_cons :
    after step s (t :: times) = after step (step s t).1 times := rfl

theorem after_append (before later : List Nat) :
    after step s (before ++ later) = after step (after step s before) later := List.foldl_append

theorem answers_append (before later : List Nat) :
    answers step s (before ++ later) =
      answers step s before ++ answers step (after step s before) later := by
  induction before generalizing s with
  | nil => rfl
  | cons t before ih => rw [List.cons_append, answers, ih]; rfl

theorem length_answers (times : List Nat) : (answers step s times).length =
    times.length := by
  induction times generalizing s with
  | nil => rfl
  | cons t times ih => rw [answers, List.length_cons, ih, List.length_cons]

theorem accepted_append (before later : List Nat) :
    accepted step s (before ++ later) =
      accepted step s before ++ accepted step (after step s before) later := by
  induction before generalizing s with
  | nil => rfl
  | cons t before ih =>
    rw [List.cons_append, accepted, accepted, ih, after_cons]
    split <;> rfl

theorem accepted_concat (before : List Nat) (t : Nat) :
    accepted step s (before ++ [t]) =
      accepted step s before ++ if accepts step s before t then [t] else [] := by
  rw [accepted_append]
  rfl

theorem accepted_sublist (times : List Nat) :
    (accepted step s times).Sublist times := by
  induction times generalizing s with
  | nil => exact .slnil
  | cons t times ih =>
    rw [accepted]
    split
    · exact ih.cons_cons t
    · exact ih.cons t

/-- Two limiters answer alike when what they keep stays related.  The relation may
    speak of the instant of the last question. -/
theorem answers_congr (R : Nat → σ → τ → Prop)
    (hstep : ∀ last s s' t, last ≤ t → R last s s' →
      (step s t).2 = (step' s' t).2 ∧ R t (step s t).1 (step' s' t).1) :
    ∀ {times : List Nat} {last : Nat} {s : σ} {s' : τ}, times.Pairwise (· ≤ ·) →
      (∀ t ∈ times, last ≤ t) → R last s s' → answers step s times = answers step' s' times
  | [], _, _, _, _, _, _ => rfl
  | t :: times, last, s, s', hsorted, hlast, hrel => by
      obtain ⟨hanswer, hnext⟩ := hstep last s s' t (hlast t List.mem_cons_self) hrel
      obtain ⟨hfirst, hsorted⟩ := List.pairwise_cons.mp hsorted
      rw [answers, answers, hanswer, answers_congr R hstep hsorted hfirst hnext]

/-- Where the answers are alike, so are the accepted instants. -/
theorem accepted_of_answers {s' : τ} (h : answers step s times = answers step' s' times) :
    accepted step s times = accepted step' s' times := by
  induction times generalizing s s' with
  | nil => rfl
  | cons t times ih =>
    rw [answers, answers] at h
    obtain ⟨hanswer, hrest⟩ := List.cons.inj h
    rw [accepted, accepted, hanswer, ih hrest]

theorem accepts_of_answers {s' : τ}
    (h : answers step s (before ++ [t]) = answers step' s' (before ++ [t])) :
    accepts step s before t = accepts step' s' before t := by
  rw [answers_append, answers_append] at h
  have hlast := (List.append_inj h (by rw [length_answers, length_answers])).2
  exact (List.cons.inj hlast).1

/-- A limiter seen through `f`, which shows all that its answers depend on. -/
theorem after_map {f : σ → τ} (h : ∀ s t, step' (f s) t = (f (step s t).1, (step s t).2))
    (s : σ) (times : List Nat) : f (after step s times) = after step' (f s) times := by
  induction times generalizing s with
  | nil => rfl
  | cons t times ih => rw [after_cons, after_cons, ih, h]

theorem answers_map {f : σ → τ} (h : ∀ s t, step' (f s) t = (f (step s t).1, (step s t).2))
    (s : σ) (times : List Nat) : answers step s times = answers step' (f s) times := by
  induction times generalizing s with
  | nil => rfl
  | cons t times ih => rw [answers, answers, ih, h]

/-! ### The sliding window -/

/-- How many of the instants lie in the window that ends at `t`. -/
def within (window t : Nat) (kept : List Nat) : Nat :=
  kept.countP fun a => decide (t ≤ a + window ∧ a ≤ t)

def slide (limit window : Nat) (kept : List Nat) (t : Nat) : List Nat × Bool :=
  if within window t kept < limit then (kept ++ [t], true) else (kept, false)

variable {limit window : Nat}

/-- It keeps what it accepts. -/
theorem after_slide (kept times : List Nat) :
    after (slide limit window) kept times = kept ++ accepted (slide limit window) kept times := by
  induction times generalizing kept with
  | nil => rw [after_nil, accepted, List.append_nil]
  | cons t times ih =>
    rw [after_cons, ih, accepted, slide]
    split
    · rw [if_pos rfl, List.append_assoc, List.singleton_append]
    · rfl

theorem accepts_slide_iff :
    accepts (slide limit window) [] before t = true ↔
      within window t (accepted (slide limit window) [] before) < limit := by
  rw [accepts, after_slide, List.nil_append, slide]
  split <;> simp_all

/-- **No interval of the window's length holds more than the limit.** -/
theorem slide_interval_le (hsorted : times.Pairwise (· ≤ ·)) (start : Nat) :
    (accepted (slide limit window) [] times).countP
      (fun a => decide (start ≤ a ∧ a ≤ start + window)) ≤ limit := by
  induction times using List.reverseRecOn with
  | nil => exact Nat.zero_le _
  | append_singleton before t ih =>
    obtain ⟨hbefore, -, hlast⟩ := List.pairwise_append.mp hsorted
    rw [accepted_concat]
    split
    next haccepts =>
      rw [List.countP_append]
      by_cases hin : start ≤ t ∧ t ≤ start + window
      · -- what lies in the interval with `t` lies in the window before `t`
        have hle : (accepted (slide limit window) [] before).countP
            (fun a => decide (start ≤ a ∧ a ≤ start + window)) ≤
              within window t (accepted (slide limit window) [] before) := by
          refine List.countP_mono_left fun a ha h => ?_
          have hat := hlast a ((accepted_sublist before).mem ha) t List.mem_cons_self
          rw [decide_eq_true_eq] at h ⊢
          omega
        have hroom := accepts_slide_iff.mp haccepts
        have hone := List.countP_le_length (p := fun a => decide (start ≤ a ∧ a ≤ start + window))
          (l := [t])
        rw [List.length_singleton] at hone
        omega
      · have hnone : [t].countP (fun a => decide (start ≤ a ∧ a ≤ start + window)) = 0 := by
          rw [List.countP_eq_zero]
          intro a ha
          rw [List.mem_singleton.mp ha, decide_eq_true_eq]
          exact hin
        rw [hnone]
        exact ih hbefore
    next =>
      rw [List.append_nil]
      exact ih hbefore

/-- A refused question has no effect. -/
theorem answers_slide_refused {kept before later : List Nat}
    (h : accepts (slide limit window) kept before t = false) :
    answers (slide limit window) kept (before ++ t :: later) =
      answers (slide limit window) kept before ++ false ::
        (answers (slide limit window) kept (before ++ later)).drop before.length := by
  have hkept : (slide limit window (after (slide limit window) kept before) t).1 =
      after (slide limit window) kept before := by
    rw [accepts, slide] at h
    rw [slide]
    split at h
    · cases h
    · rw [if_neg ‹_›]
  rw [answers_append, answers, answers_append, List.drop_left' (length_answers before), hkept]
  congr 2

/-! ### The window that starts anew -/

/-- The counter, if there is one yet: how many were accepted since the reset, and
    when that was. -/
def fixed (limit period : Nat) (counter : Option (Nat × Nat)) (t : Nat) :
    Option (Nat × Nat) × Bool :=
  let (count, reset) := counter.getD (0, t)
  if period < t - reset then (some (1, t), true)
  else if limit ≤ count then (some (count, reset), false)
  else (some (count + 1, reset), true)

/-- A question at `t` makes the counter start anew. -/
def restarts (period : Nat) (counter : Option (Nat × Nat)) (t : Nat) : Bool :=
  match counter with
  | none => true
  | some (_, reset) => decide (period < t - reset)

variable {period : Nat}

theorem fixed_restart (hlimit : 0 < limit) {counter : Option (Nat × Nat)}
    (h : restarts period counter t = true) :
    fixed limit period counter t = (some (1, t), true) := by
  cases counter with
  | none =>
    simp only [fixed, Option.getD_none, Nat.sub_self, Nat.not_lt_zero, if_false, Nat.zero_add]
    rw [if_neg (by omega)]
  | some counter =>
    simp only [fixed, Option.getD_some]
    rw [if_pos (of_decide_eq_true h)]

theorem fixed_count {count reset t : Nat} (h : restarts period (some (count, reset)) t = false) :
    fixed limit period (some (count, reset)) t =
      if limit ≤ count then (some (count, reset), false) else (some (count + 1, reset), true) := by
  simp only [fixed, Option.getD_some]
  rw [if_neg (of_decide_eq_false h)]

/-- The counter starts anew at `t`, asked before at `before`, and not again at `mid`. -/
def OneWindow (limit period : Nat) (before : List Nat) (t : Nat) (mid : List Nat) : Prop :=
  restarts period (after (fixed limit period) none before) t = true ∧
    ∀ mid₁ u mid₂, mid = mid₁ ++ u :: mid₂ →
      restarts period (after (fixed limit period) none (before ++ t :: mid₁)) u = false

/-- While it does not start anew, it keeps the reset and counts what it accepts. -/
theorem after_fixed_within {count reset : Nat} (hcount : count ≤ limit)
    (hmid : ∀ mid₁ u mid₂, mid = mid₁ ++ u :: mid₂ →
      restarts period (after (fixed limit period) (some (count, reset)) mid₁) u = false) :
    after (fixed limit period) (some (count, reset)) mid =
        some (count + (accepted (fixed limit period) (some (count, reset)) mid).length, reset) ∧
      count + (accepted (fixed limit period) (some (count, reset)) mid).length ≤ limit := by
  induction mid generalizing count with
  | nil => exact ⟨rfl, hcount⟩
  | cons u mid ih =>
    have hstep : fixed limit period (some (count, reset)) u = _ := fixed_count (hmid [] u mid rfl)
    have hrest := fun mid₁ v mid₂ (h : mid = mid₁ ++ v :: mid₂) =>
      hmid (u :: mid₁) v mid₂ (by rw [h, List.cons_append])
    simp only [after_cons, accepted, hstep] at hrest ⊢
    by_cases hfull : limit ≤ count
    · simp only [if_pos hfull, Bool.false_eq_true, if_false] at hrest ⊢
      exact ih hcount hrest
    · simp only [if_neg hfull, if_true, List.length_cons] at hrest ⊢
      obtain ⟨hafter, hle⟩ := ih (by omega) hrest
      exact ⟨by rw [hafter, Nat.add_assoc, Nat.add_comm 1], by omega⟩

theorem OneWindow.after_eq (hlimit : 0 < limit) (h : OneWindow limit period before t mid) :
    ∃ count, after (fixed limit period) none (before ++ t :: mid) = some (count, t) ∧
      (accepted (fixed limit period) (after (fixed limit period) none before) (t :: mid)).length ≤
        limit := by
  obtain ⟨hstart, hmid⟩ := h
  have hstep := fixed_restart hlimit hstart
  have hnone : ∀ mid₁ u mid₂, mid = mid₁ ++ u :: mid₂ →
      restarts period (after (fixed limit period) (some (1, t)) mid₁) u = false := by
    intro mid₁ u mid₂ hsplit
    have hu := hmid mid₁ u mid₂ hsplit
    rwa [after_append, after_cons, hstep] at hu
  obtain ⟨hafter, hle⟩ := after_fixed_within hlimit hnone
  refine ⟨_, by rw [after_append, after_cons, hstep]; exact hafter, ?_⟩
  rw [accepted, hstep, if_pos rfl, List.length_cons, Nat.add_comm]
  exact hle

/-- A period after the last reset it accepts. -/
theorem OneWindow.accepts_later (hlimit : 0 < limit) {r t : Nat}
    (h : OneWindow limit period before r mid) (ht : r + period < t) :
    accepts (fixed limit period) none (before ++ r :: mid) t = true := by
  obtain ⟨count, hafter, -⟩ := h.after_eq hlimit
  have hrestart : restarts period (some (count, r)) t = true := decide_eq_true (by omega)
  rw [accepts, hafter, fixed_restart hlimit hrestart]

/-- What the counter knows of the accepted instants. -/
structure Windows (limit period : Nat) (kept : List Nat) (count reset : Nat) : Prop where
  covered : ∀ a ∈ kept, a ≤ reset + period
  current : kept.countP (fun a => decide (reset ≤ a)) = count
  room : count ≤ limit
  previous : kept.countP (fun a => decide (reset ≤ a + period ∧ a < reset)) ≤ limit
  interval : ∀ start, kept.countP (fun a => decide (start ≤ a ∧ a ≤ start + period)) ≤ 2 * limit

theorem countP_le_add {p q r : Nat → Bool} (h : ∀ a ∈ kept, p a = true → q a = true ∨ r a = true) :
    kept.countP p ≤ kept.countP q + kept.countP r := by
  induction kept with
  | nil => exact Nat.zero_le _
  | cons a kept ih =>
    have hrest := ih fun b hb => h b (List.mem_cons_of_mem a hb)
    have hhead : (if p a then 1 else 0) ≤ (if q a then 1 else 0) + if r a then 1 else 0 := by
      by_cases hp : p a = true
      · apply (h a List.mem_cons_self hp).elim <;> intro ha <;> simp [hp, ha]
      · simp [hp]
    rw [List.countP_cons, List.countP_cons, List.countP_cons]
    omega

/-- An interval that reaches the current window meets at most the one before. -/
theorem interval_le {reset start : Nat}
    (hcurrent : kept.countP (fun a => decide (reset ≤ a)) ≤ limit)
    (hprevious : kept.countP (fun a => decide (reset ≤ a + period ∧ a < reset)) ≤ limit)
    (hreach : reset ≤ start + period) :
    kept.countP (fun a => decide (start ≤ a ∧ a ≤ start + period)) ≤ 2 * limit := by
  have hsplit : kept.countP (fun a => decide (start ≤ a ∧ a ≤ start + period)) ≤
      kept.countP (fun a => decide (reset ≤ a)) +
        kept.countP (fun a => decide (reset ≤ a + period ∧ a < reset)) := by
    refine countP_le_add fun a _ ha => ?_
    rw [decide_eq_true_eq] at ha
    rw [decide_eq_true_eq, decide_eq_true_eq]
    omega
  omega

/-- Outside an interval, one more is no more. -/
theorem interval_concat {start t bound : Nat}
    (h : kept.countP (fun a => decide (start ≤ a ∧ a ≤ start + period)) ≤ bound)
    (ht : ¬(start ≤ t ∧ t ≤ start + period)) :
    (kept ++ [t]).countP (fun a => decide (start ≤ a ∧ a ≤ start + period)) ≤ bound := by
  rw [List.countP_append, List.countP_singleton, decide_eq_false ht, if_neg Bool.false_ne_true]
  exact h

theorem Windows.first (hlimit : 0 < limit) (t : Nat) : Windows limit period [t] 1 t where
  covered a ha := by rw [List.mem_singleton.mp ha]; exact Nat.le_add_right t period
  current := by rw [List.countP_singleton, if_pos (decide_eq_true (Nat.le_refl t))]
  room := hlimit
  previous := by
    rw [List.countP_singleton, if_neg (by simp)]
    exact Nat.zero_le limit
  interval start := by
    refine Nat.le_trans List.countP_le_length ?_
    rw [List.length_singleton]
    omega

/-- A reset after the period: the current window becomes the one before. -/
theorem Windows.restart (hlimit : 0 < limit) {count reset t : Nat}
    (h : Windows limit period kept count reset) (ht : reset + period < t) :
    Windows limit period (kept ++ [t]) 1 t := by
  have hearlier : ∀ a ∈ kept, a < t := fun a ha => Nat.lt_of_le_of_lt (h.covered a ha) ht
  have hcurrent : (kept ++ [t]).countP (fun a => decide (t ≤ a)) = 1 := by
    have hnone : kept.countP (fun a => decide (t ≤ a)) = 0 := by
      rw [List.countP_eq_zero]
      intro a ha
      rw [decide_eq_true_eq, Nat.not_le]
      exact hearlier a ha
    rw [List.countP_append, hnone, List.countP_singleton, if_pos (decide_eq_true (Nat.le_refl t))]
  have hprevious :
      (kept ++ [t]).countP (fun a => decide (t ≤ a + period ∧ a < t)) ≤ limit := by
    rw [List.countP_append, List.countP_singleton, if_neg (by simp), Nat.add_zero]
    refine Nat.le_trans (List.countP_mono_left fun a _ ha => ?_) (h.current ▸ h.room)
    rw [decide_eq_true_eq] at ha ⊢
    omega
  refine ⟨?_, hcurrent, hlimit, hprevious, fun start => ?_⟩
  · intro a ha
    apply (List.mem_append.mp ha).elim
    · intro ha
      exact Nat.le_of_lt (Nat.lt_of_lt_of_le (hearlier a ha) (Nat.le_add_right t period))
    · intro ha
      rw [List.mem_singleton.mp ha]
      exact Nat.le_add_right t period
  · by_cases hin : start ≤ t ∧ t ≤ start + period
    · exact interval_le (by rw [hcurrent]; exact hlimit) hprevious hin.2
    · exact interval_concat (h.interval start) hin

/-- One more in the current window. -/
theorem Windows.count {count reset t : Nat}
    (h : Windows limit period kept count reset) (hreset : reset ≤ t) (ht : t ≤ reset + period)
    (hroom : count < limit) : Windows limit period (kept ++ [t]) (count + 1) reset := by
  have hcurrent : (kept ++ [t]).countP (fun a => decide (reset ≤ a)) = count + 1 := by
    rw [List.countP_append, h.current, List.countP_singleton, if_pos (decide_eq_true hreset)]
  have hprevious :
      (kept ++ [t]).countP (fun a => decide (reset ≤ a + period ∧ a < reset)) ≤ limit := by
    rw [List.countP_append, List.countP_singleton,
      if_neg (by rw [decide_eq_true_eq]; omega), Nat.add_zero]
    exact h.previous
  refine ⟨?_, hcurrent, hroom, hprevious, fun start => ?_⟩
  · intro a ha
    apply (List.mem_append.mp ha).elim
    · exact h.covered a
    · intro ha
      rw [List.mem_singleton.mp ha]
      exact ht
  · by_cases hin : start ≤ t ∧ t ≤ start + period
    · exact interval_le (by rw [hcurrent]; exact hroom) hprevious (by omega)
    · exact interval_concat (h.interval start) hin

/-- The counter and the accepted instants, after any questions in order. -/
theorem windows_of_run (period : Nat) (hlimit : 0 < limit) (hsorted : times.Pairwise (· ≤ ·)) :
    times = [] ∨ ∃ count reset, after (fixed limit period) none times = some (count, reset) ∧
      reset ∈ times ∧ Windows limit period (accepted (fixed limit period) none times) count
        reset := by
  induction times using List.reverseRecOn with
  | nil => exact .inl rfl
  | append_singleton before t ih =>
    right
    obtain ⟨hbefore, -, hlast⟩ := List.pairwise_append.mp hsorted
    rw [accepted_concat, after_append, after_cons, after_nil, accepts]
    obtain rfl | ⟨count, reset, hafter, hreset, hwindows⟩ := ih hbefore
    · rw [after_nil, fixed_restart hlimit rfl]
      exact ⟨1, t, rfl, List.mem_singleton_self t, .first hlimit t⟩
    · rw [hafter]
      cases hrestart : restarts period (some (count, reset)) t with
      | true =>
        rw [fixed_restart hlimit hrestart]
        refine ⟨1, t, rfl, by simp, hwindows.restart hlimit ?_⟩
        have := of_decide_eq_true hrestart
        omega
      | false =>
        have ht := of_decide_eq_false hrestart
        have hle := hlast reset hreset t List.mem_cons_self
        rw [fixed_count hrestart]
        by_cases hfull : limit ≤ count
        · rw [if_pos hfull, if_neg Bool.false_ne_true, List.append_nil]
          exact ⟨count, reset, rfl, List.mem_append_left _ hreset, hwindows⟩
        · rw [if_neg hfull, if_pos rfl]
          exact ⟨count + 1, reset, rfl, List.mem_append_left _ hreset,
            hwindows.count hle (by omega) (by omega)⟩

/-- **No interval of a period holds more than twice the limit.** -/
theorem fixed_interval_le (hlimit : 0 < limit) (hsorted : times.Pairwise (· ≤ ·)) (start : Nat) :
    (accepted (fixed limit period) none times).countP
      (fun a => decide (start ≤ a ∧ a ≤ start + period)) ≤ 2 * limit := by
  obtain rfl | ⟨count, reset, -, -, hwindows⟩ := windows_of_run period hlimit hsorted
  · exact Nat.zero_le _
  · exact hwindows.interval start

end Limiter
