import Mathlib.Logic.Function.Basic
import Mathlib.Data.List.Basic
import Mathlib.Data.List.Induction
import Peanut.Library.Outcome
import Peanut.Library.Transition

/-!
# Interleavings of requests over a shared store

Requests that are served at the same time share a store and nothing else.  Each
is a machine that executes one atomic statement per tick; what it has read so
far is its own state.  A schedule is a list of ticks, so a request that is never
ticked again is one that stopped between two statements.

The rules below derive a property of every reachable pool from what a single
tick does:

  * `answers_resume`  the outcome of a request on its own;
  * `run_rule`        an invariant under a condition on the ticks;
  * `run_traced`      an invariant that mentions the ticks so far;
  * `run_iff`, `always_iff`  the exact condition on the ticks for a property to
                      hold in every state;
  * `admissible_of_lasting`  the condition from the outcome alone;
  * `assertions_tick`, `assertions_tick_apart`  an assertion about each request
                      that no other request invalidates;
  * `SingleUse.tick`  a ticket that at most one request gets hold of.
-/

namespace Interleaving

universe u v w x y z

variable {ι : Type u} {ε : Type v} {σ : Type w} {ρ : Type x}

/-- The shared store and where each request stands. -/
structure Pool (ι : Type u) (σ : Type w) (ρ : Type x) where
  store : σ
  request : ι → ρ

section Ticks

variable [DecidableEq ι] (step : ε → σ → ρ → σ × ρ)

/-- Request `t.1` executes its next statement; `t.2` is what it draws from
    outside while doing so. -/
def tick (p : Pool ι σ ρ) (t : ι × ε) : Pool ι σ ρ :=
  { store := (step t.2 p.store (p.request t.1)).1
    request := Function.update p.request t.1 (step t.2 p.store (p.request t.1)).2 }

/-- The pool after a schedule. -/
def run (p : Pool ι σ ρ) (ticks : List (ι × ε)) : Pool ι σ ρ := Transition.run (tick step) p ticks

theorem run_append (p : Pool ι σ ρ) (xs ys : List (ι × ε)) :
    run step p (xs ++ ys) = run step (run step p xs) ys :=
  Transition.run_append (tick step) p xs ys

/-- Every tick of the schedule meets the condition in the state it starts from. -/
def Admissible (Adm : Pool ι σ ρ → ι × ε → Prop) (p : Pool ι σ ρ) (ticks : List (ι × ε)) : Prop :=
  ∀ pre t post, ticks = pre ++ t :: post → Adm (run step p pre) t

/-- The property holds in every state the schedule goes through. -/
def Always (P : Pool ι σ ρ → Prop) (p : Pool ι σ ρ) (ticks : List (ι × ε)) : Prop :=
  ∀ pre post, ticks = pre ++ post → P (run step p pre)

variable {step}

@[simp] theorem tick_store (p : Pool ι σ ρ) (t : ι × ε) :
    (tick step p t).store = (step t.2 p.store (p.request t.1)).1 := rfl

@[simp] theorem tick_request_self (p : Pool ι σ ρ) (t : ι × ε) :
    (tick step p t).request t.1 = (step t.2 p.store (p.request t.1)).2 := by
  simp [tick]

theorem tick_request_of_ne (p : Pool ι σ ρ) (t : ι × ε) {i : ι} (h : i ≠ t.1) :
    (tick step p t).request i = p.request i := by
  simp [tick, Function.update_of_ne h]

/-- What is true of a pool after a tick is true of the request that moved and of
    the others. -/
theorem forall_request_tick {P : ι → ρ → Prop} (p : Pool ι σ ρ) (t : ι × ε) :
    (∀ i, P i ((tick step p t).request i)) ↔
      P t.1 (step t.2 p.store (p.request t.1)).2 ∧ ∀ i, i ≠ t.1 → P i (p.request i) := by
  constructor
  · intro h
    refine ⟨by simpa using h t.1, ?_⟩
    intro i hi
    simpa [tick_request_of_ne p t hi] using h i
  · rintro ⟨hself, hothers⟩ i
    by_cases hi : i = t.1
    · subst hi
      simpa using hself
    · rw [tick_request_of_ne p t hi]
      exact hothers i hi

/-! ### A request on its own -/

/-- The store and the request after `n` statements without interference, all
    with the same draws. -/
def alone (step : ε → σ → ρ → σ × ρ) (e : ε) : Nat → σ → ρ → σ × ρ
  | 0, s, r => (s, r)
  | n + 1, s, r => alone step e n (step e s r).1 (step e s r).2

theorem alone_succ (step : ε → σ → ρ → σ × ρ) (e : ε) (n : Nat) (s : σ) (r : ρ) :
    alone step e (n + 1) s r = alone step e n (step e s r).1 (step e s r).2 := rfl

theorem alone_of_step {e : ε} {s s' : σ} {r r' : ρ} (h : step e s r = (s', r')) {n : Nat} :
    alone step e (n + 1) s r = alone step e n s' r' := by
  rw [alone_succ, h]

/-- **Invariant rule for a request on its own.** -/
theorem alone_rule {P : σ → ρ → Prop} {e : ε}
    (hstep : ∀ s r, P s r → P (step e s r).1 (step e s r).2) :
    ∀ (n : Nat) (s : σ) (r : ρ), P s r → P (alone step e n s r).1 (alone step e n s r).2 := by
  intro n
  induction n with
  | zero => intro s r h; exact h
  | succ n ih =>
    intro s r h
    rw [alone_succ]
    exact ih _ _ (hstep s r h)

section Answers

variable {E : Type y} {α β : Type z} {e : ε} {s : σ} {r : ρ}

/-- Without interference the request comes to an answer: the store is then as in `a`, and
    this is what it answers. -/
def Answers (step : ε → σ → ρ → σ × ρ) (e : ε) (reply : ρ → Option α) (p : σ × ρ) (a : σ × α) :
    Prop :=
  ∃ n, (alone step e n p.1 p.2).1 = a.1 ∧ reply (alone step e n p.1 p.2).2 = some a.2

theorem Answers.done {reply : ρ → Option α} {x : α} (h : reply r = some x) :
    Answers step e reply (s, r) (s, x) :=
  ⟨0, rfl, h⟩

theorem Answers.next {reply : ρ → Option α} {a : σ × α} (h : Answers step e reply (step e s r) a) :
    Answers step e reply (s, r) a := by
  obtain ⟨n, hstore, hreply⟩ := h
  exact ⟨n + 1, hstore, hreply⟩

/-- Statements that stop together and go on to the same outcome have the same outcome. -/
theorem answers_resume {reply : ρ → Option (Except E α)} {x : Except E β}
    {stop : E → ρ} (hstop : ∀ e, reply (stop e) = some (.error e)) {next : β → σ × ρ}
    {next' : β → σ × Except E α} (h : ∀ b, x = .ok b → Answers step e reply (next b) (next' b)) :
    Answers step e reply (Outcome.resume x (fun e => (s, stop e)) next)
      (Outcome.proceed s x next') := by
  cases x with
  | error e => exact .done (hstop e)
  | ok b => exact h b rfl

end Answers

/-- A schedule that ticks one request only is a request on its own. -/
theorem run_replicate (p : Pool ι σ ρ) (i : ι) (e : ε) (n : Nat) :
    (run step p (List.replicate n (i, e))).store = (alone step e n p.store (p.request i)).1 ∧
      (run step p (List.replicate n (i, e))).request i =
        (alone step e n p.store (p.request i)).2 := by
  induction n generalizing p with
  | zero => exact ⟨rfl, rfl⟩
  | succ n ih =>
    have hnext := ih (tick step p (i, e))
    rw [tick_store, tick_request_self p (i, e)] at hnext
    exact hnext

/-! ### Invariants of every interleaving -/

variable {Inv : Pool ι σ ρ → Prop} {Adm : Pool ι σ ρ → ι × ε → Prop}

variable {p : Pool ι σ ρ}

theorem Admissible.of_append {xs ys : List (ι × ε)}
    (h : Admissible step Adm p (xs ++ ys)) : Admissible step Adm p xs := by
  intro pre t post hsplit
  apply h pre t (post ++ ys)
  rw [hsplit, List.append_assoc, List.cons_append]

variable {ticks : List (ι × ε)}

theorem Admissible.imp {Adm' : Pool ι σ ρ → ι × ε → Prop}
    (h : Admissible step Adm p ticks) (himp : ∀ q t, Adm q t → Adm' q t) :
    Admissible step Adm' p ticks := by
  intro pre t post hsplit
  exact himp _ t (h pre t post hsplit)

theorem admissible_nil (p : Pool ι σ ρ) : Admissible step Adm p [] := by
  intro pre t post hsplit
  simp at hsplit

theorem admissible_cons (p : Pool ι σ ρ) (t : ι × ε) (ticks : List (ι × ε)) :
    Admissible step Adm p (t :: ticks) ↔ Adm p t ∧ Admissible step Adm (tick step p t) ticks := by
  constructor
  · intro h
    refine ⟨h [] t ticks rfl, ?_⟩
    rintro pre u post rfl
    exact h (t :: pre) u post rfl
  · rintro ⟨hfirst, hrest⟩ pre u post hsplit
    cases pre with
    | nil =>
      obtain ⟨rfl, rfl⟩ := List.cons.inj hsplit
      exact hfirst
    | cons v pre =>
      obtain ⟨rfl, rfl⟩ := List.cons.inj hsplit
      exact hrest pre u post rfl

theorem admissible_and {Adm' : Pool ι σ ρ → ι × ε → Prop} :
    Admissible step (fun q t => Adm q t ∧ Adm' q t) p ticks ↔
      Admissible step Adm p ticks ∧ Admissible step Adm' p ticks := by
  simp only [Admissible, forall_and]

theorem always_and {P Q : Pool ι σ ρ → Prop} :
    Always step (fun q => P q ∧ Q q) p ticks ↔ Always step P p ticks ∧ Always step Q p ticks := by
  simp only [Always, forall_and]

/-- A condition that can be evaluated can be evaluated along a schedule. -/
instance decidableAdmissible [∀ p t, Decidable (Adm p t)] :
    ∀ (p : Pool ι σ ρ) (ticks : List (ι × ε)), Decidable (Admissible step Adm p ticks)
  | p, [] => isTrue (admissible_nil p)
  | p, t :: ticks =>
      have := decidableAdmissible (tick step p t) ticks
      decidable_of_iff _ (admissible_cons p t ticks).symm

/-- **Invariant rule.**  What holds at the start and survives every admissible
    tick holds in every state of every admissible schedule. -/
theorem run_rule (hstep : ∀ p t, Inv p → Adm p t → Inv (tick step p t))
    (h : Inv p) (hadm : Admissible step Adm p ticks) :
    Always step Inv p ticks := by
  rintro pre post rfl
  exact Transition.run_invariant hstep h pre hadm.of_append

/-- The invariant rule when every tick is admissible. -/
theorem run_always (hstep : ∀ p t, Inv p → Inv (tick step p t)) (h : Inv p)
    (ticks : List (ι × ε)) : Always step Inv p ticks := by
  intro pre post _
  exact Transition.run_preserves hstep h pre

/-- **Invariant rule with a history.**  The invariant may mention the ticks so far. -/
theorem run_traced {Traced : List (ι × ε) → Pool ι σ ρ → Prop} (h : Traced [] p)
    (hstep : ∀ pre t post, ticks = pre ++ t :: post → ∀ q, Traced pre q →
      Traced (pre ++ [t]) (tick step q t)) :
    ∀ pre post, ticks = pre ++ post → Traced pre (run step p pre) := by
  intro pre
  induction pre using List.reverseRecOn with
  | nil => intro post _; exact h
  | append_singleton pre t ih =>
    intro post hsplit
    have hcons : ticks = pre ++ t :: post := by
      rw [hsplit, List.append_assoc, List.singleton_append]
    rw [run_append]
    exact hstep pre t post hcons _ (ih (t :: post) hcons)

/-- **Exactness rule.**  When a background invariant always holds and a tick from
    a good state leads to a good state exactly if it meets the condition, then
    all states are good exactly if the first one is and every tick meets it. -/
theorem run_iff {Good : Pool ι σ ρ → Prop} (hinv : ∀ p t, Inv p → Inv (tick step p t))
    (hstep : ∀ p t, Inv p → Good p → (Good (tick step p t) ↔ Adm p t))
    (h : Inv p) (ticks : List (ι × ε)) :
    Always step Good p ticks ↔ Good p ∧ Admissible step Adm p ticks := by
  have hbackground := run_always hinv h ticks
  constructor
  · intro hgood
    refine ⟨hgood [] ticks rfl, ?_⟩
    rintro pre t post rfl
    have hnext := hgood (pre ++ [t]) post (by simp)
    rw [run_append] at hnext
    exact (hstep _ t (hbackground pre _ rfl) (hgood pre _ rfl)).mp hnext
  · rintro ⟨hstart, hadm⟩ pre post hsplit
    have hkeep : ∀ q t, Inv q ∧ Good q → Adm q t → Inv (tick step q t) ∧ Good (tick step q t) := by
      rintro q t ⟨hq, hgood⟩ ht
      exact ⟨hinv q t hq, (hstep q t hq hgood).mpr ht⟩
    have hboth : Inv p ∧ Good p := ⟨h, hstart⟩
    exact (run_rule hkeep hboth hadm pre post hsplit).2

/-- The exactness rule without a background invariant. -/
theorem always_iff {Good : Pool ι σ ρ → Prop}
    (hstep : ∀ p t, Good p → (Good (tick step p t) ↔ Adm p t)) (p : Pool ι σ ρ)
    (ticks : List (ι × ε)) :
    Always step Good p ticks ↔ Good p ∧ Admissible step Adm p ticks := by
  have htrue : ∀ (q : Pool ι σ ρ) (_ : ι × ε), True → True := fun _ _ => id
  exact run_iff htrue (fun q t _ hq => hstep q t hq) trivial ticks

/-- **Converse rule.**  When a tick that misses the condition does damage, and
    damage lasts, a schedule that ends without damage meets the condition. -/
theorem admissible_of_lasting {Damage : Pool ι σ ρ → Prop}
    (hinv : ∀ p t, Inv p → Inv (tick step p t))
    (hdamage : ∀ p t, Inv p → ¬ Adm p t → Damage (tick step p t))
    (hlasts : ∀ p t, Inv p → Damage p → Damage (tick step p t)) (h : Inv p)
    (hend : ¬ Damage (run step p ticks)) :
    Admissible step Adm p ticks := by
  induction ticks generalizing p with
  | nil => exact admissible_nil p
  | cons t ticks ih =>
    rw [admissible_cons]
    refine ⟨?_, ih (hinv p t h) hend⟩
    by_contra hmiss
    have hboth : Inv (tick step p t) ∧ Damage (tick step p t) :=
      ⟨hinv p t h, hdamage p t h hmiss⟩
    have hkeep : ∀ q u, Inv q ∧ Damage q → Inv (tick step q u) ∧ Damage (tick step q u) := by
      rintro q u ⟨hq, hbad⟩
      exact ⟨hinv q u hq, hlasts q u hq hbad⟩
    exact hend (run_always hkeep hboth ticks ticks [] (List.append_nil ticks).symm).2

/-- **Assertion rule.**  An assertion about the store and one request holds of
    every request after a tick if the request that moved keeps its own and
    invalidates the assertion of no other request of the pool. -/
theorem assertions_tick_apart {A : σ → ρ → Prop} {t : ι × ε} (hown : A p.store (p.request t.1) →
      A (step t.2 p.store (p.request t.1)).1 (step t.2 p.store (p.request t.1)).2)
    (hothers : ∀ i, i ≠ t.1 → A p.store (p.request i) →
      A (step t.2 p.store (p.request t.1)).1 (p.request i))
    (h : ∀ i, A p.store (p.request i)) :
    ∀ i, A (tick step p t).store ((tick step p t).request i) := by
  rw [forall_request_tick (P := fun _ r => A (tick step p t).store r)]
  exact ⟨hown (h t.1), fun i hi => hothers i hi (h i)⟩

/-- The assertion rule when no assertion at all is invalidated. -/
theorem assertions_tick {A : σ → ρ → Prop} {t : ι × ε} (hown : A p.store (p.request t.1) →
      A (step t.2 p.store (p.request t.1)).1 (step t.2 p.store (p.request t.1)).2)
    (hothers : ∀ q, A p.store q → A (step t.2 p.store (p.request t.1)).1 q)
    (h : ∀ i, A p.store (p.request i)) :
    ∀ i, A (tick step p t).store ((tick step p t).request i) :=
  assertions_tick_apart hown (fun i _ => hothers (p.request i)) h

/-! ### Tickets -/

/-- At most one request gets hold of a ticket.

    * `mark`   the store says that the ticket has been used;
    * `uses`   the request has taken the ticket, and may be past using it;
    * `holds`  the request has taken the ticket and has not marked it yet. -/
structure SingleUse {κ : Type y} (mark : σ → κ → Prop) (uses holds : ρ → κ → Prop)
    (p : Pool ι σ ρ) : Prop where
  covered : ∀ i k, uses (p.request i) k → holds (p.request i) k ∨ mark p.store k
  unique : ∀ i j k, uses (p.request i) k → uses (p.request j) k → i = j

/-- **Ticket rule.**  Marks are permanent, a ticket is taken only unmarked and
    while nobody holds it, and a request that lets go of a ticket has marked it. -/
theorem SingleUse.tick {κ : Type y} {mark : σ → κ → Prop} {uses holds : ρ → κ → Prop}
    (h : SingleUse mark uses holds p) {t : ι × ε}
    (hmark : ∀ k, mark p.store k → mark (step t.2 p.store (p.request t.1)).1 k)
    (htake : ∀ k, uses (step t.2 p.store (p.request t.1)).2 k →
      uses (p.request t.1) k ∨
        (¬ mark p.store k ∧ ∀ j, j ≠ t.1 → ¬ holds (p.request j) k))
    (hrelease : ∀ k, uses (step t.2 p.store (p.request t.1)).2 k →
      (uses (p.request t.1) k → holds (p.request t.1) k ∨ mark p.store k) →
      holds (step t.2 p.store (p.request t.1)).2 k ∨
        mark (step t.2 p.store (p.request t.1)).1 k) :
    SingleUse mark uses holds (Interleaving.tick step p t) := by
  -- nobody else has used a ticket that the moving request has after the tick
  have hself : ∀ j k, uses (step t.2 p.store (p.request t.1)).2 k → j ≠ t.1 →
      ¬ uses (p.request j) k := by
    intro j k hk hj hjk
    rcases htake k hk with hbefore | ⟨hunmarked, hfree⟩
    · exact hj (h.unique j t.1 k hjk hbefore)
    · rcases h.covered j k hjk with hholds | hmarked
      · exact hfree j hj hholds
      · exact hunmarked hmarked
  refine ⟨?_, ?_⟩
  · rw [forall_request_tick (P := fun _ r => ∀ k, uses r k → holds r k ∨ mark _ k)]
    refine ⟨fun k hk => hrelease k hk (h.covered t.1 k), ?_⟩
    intro i _ k hk
    exact (h.covered i k hk).imp_right (hmark k)
  · intro i j k hi hj
    by_cases hit : i = t.1
    · by_cases hjt : j = t.1
      · rw [hit, hjt]
      · rw [tick_request_of_ne p t hjt] at hj
        subst hit
        rw [tick_request_self] at hi
        exact absurd hj (hself j k hi hjt)
    · rw [tick_request_of_ne p t hit] at hi
      by_cases hjt : j = t.1
      · subst hjt
        rw [tick_request_self] at hj
        exact absurd hi (hself i k hj hit)
      · rw [tick_request_of_ne p t hjt] at hj
        exact h.unique i j k hi hj

end Ticks

end Interleaving
