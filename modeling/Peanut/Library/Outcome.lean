import Mathlib.Logic.Basic

/-!
# Fallible computations

Handlers are written as sequences of checks in `Except`.  The lemmas here take
such a sequence apart one step at a time, so that a proof about a handler reads
its checks in source order and never unfolds the monad.
-/

namespace Outcome

universe u v w

variable {ε : Type u} {α β : Type v}

variable {x : Except ε α} {f : α → Except ε β}

/-- A sequence succeeds exactly when each part does. -/
theorem bind_eq_ok {b : β} :
    (x >>= f) = .ok b ↔ ∃ a, x = .ok a ∧ f a = .ok b := by
  cases x with
  | error e =>
    constructor
    · intro h; cases h
    · rintro ⟨a, ha, -⟩; cases ha
  | ok a =>
    constructor
    · intro h; exact ⟨a, rfl, h⟩
    · rintro ⟨a', ha, h⟩; cases ha; exact h

@[simp] theorem ok_bind (a : α) (f : α → Except ε β) : (Except.ok a >>= f) = f a := rfl

@[simp] theorem error_bind (e : ε) (f : α → Except ε β) :
    ((Except.error e : Except ε α) >>= f) = .error e := rfl

/-- What is computed from a result fails exactly when the result does. -/
theorem bind_pure_eq_error {f : α → β} {e : ε} :
    (x >>= fun a => pure (f a)) = .error e ↔ x = .error e := by
  cases x with
  | error e' =>
    rw [error_bind, Except.error.injEq, Except.error.injEq]
  | ok a =>
    constructor
    · intro h; cases h
    · intro h; cases h

/-- Stop with `e` unless the condition holds. -/
def ensure (c : Bool) (e : ε) : Except ε Unit := if c then .ok () else .error e

@[simp] theorem ensure_eq_ok {c : Bool} {e : ε} {u : Unit} : ensure c e = .ok u ↔ c = true := by
  cases c <;> simp [ensure]

@[simp] theorem ensure_true (e : ε) : ensure true e = .ok () := rfl

@[simp] theorem ensure_false (e : ε) : ensure false e = .error e := rfl

/-- Turn a missing value into an error. -/
def require (x : Option α) (e : ε) : Except ε α :=
  match x with
  | some a => .ok a
  | none => .error e

@[simp] theorem require_eq_ok {x : Option α} {e : ε} {a : α} :
    require x e = .ok a ↔ x = some a := by
  cases x <;> simp [require]

@[simp] theorem require_some (a : α) (e : ε) : require (some a) e = .ok a := rfl

@[simp] theorem require_none (e : ε) : require (none : Option α) e = .error e := rfl

variable {δ : Type w}

@[simp] theorem mapError_ok (f : ε → δ) (a : α) : (Except.ok a).mapError f = .ok a := rfl

@[simp] theorem mapError_error (f : ε → δ) (e : ε) :
    (Except.error e : Except ε α).mapError f = .error (f e) := rfl

@[simp] theorem mapError_eq_ok {f : ε → δ} {a : α} :
    x.mapError f = .ok a ↔ x = .ok a := by
  cases x <;> simp

/-- Did the computation succeed? -/
def succeeded (x : Except ε α) : Bool :=
  match x with
  | .ok _ => true
  | .error _ => false

@[simp] theorem succeeded_ok (a : α) : succeeded (.ok a : Except ε α) = true := rfl

@[simp] theorem succeeded_error (e : ε) : succeeded (.error e : Except ε α) = false := rfl

theorem succeeded_iff : succeeded x = true ↔ ∃ a, x = .ok a := by
  cases x <;> simp

theorem succeeded_unit_iff {x : Except ε Unit} : succeeded x = true ↔ x = .ok () := by
  cases x with
  | ok a => exact iff_of_true rfl rfl
  | error e => exact iff_of_false Bool.false_ne_true nofun

theorem map_eq_ok {f : α → β} {b : β} :
    x.map f = .ok b ↔ ∃ a, x = .ok a ∧ f a = b := by
  cases x with
  | ok a => simp [Except.map]
  | error e => simp [Except.map]

/-- Go on with the value, or stop in the state `s` with the error. -/
def proceed {σ : Type w} (s : σ) (x : Except ε α) (next : α → σ × Except ε β) : σ × Except ε β :=
  match x with
  | .ok a => next a
  | .error e => (s, .error e)

variable {σ γ : Type w}

@[simp] theorem proceed_ok (s : σ) (a : α) (next : α → σ × Except ε β) :
    proceed s (.ok a) next = next a := rfl

@[simp] theorem proceed_error (s : σ) (e : ε) (next : α → σ × Except ε β) :
    proceed s (.error e) next = (s, .error e) := rfl

/-- Two checks in a row are one. -/
theorem proceed_bind {γ : Type v} (s : σ) (x : Except ε α) (f : α → Except ε γ)
    (next : γ → σ × Except ε β) :
    proceed s (x >>= f) next = proceed s x fun a => proceed s (f a) next := by
  cases x with
  | ok a => rfl
  | error e => rfl

theorem map_proceed {γ : Type v} (g : β → γ) (s : σ) (x : Except ε α)
    (next : α → σ × Except ε β) :
    (proceed s x next).map id (Except.map g) =
      proceed s x fun a => (next a).map id (Except.map g) := by
  cases x with
  | ok a => rfl
  | error e => rfl

theorem proceed_congr {s : σ} {next next' : α → σ × Except ε β}
    (h : ∀ a, x = .ok a → next a = next' a) : proceed s x next = proceed s x next' := by
  cases x with
  | ok a => exact h a rfl
  | error e => rfl

/-- **Invariant rule for `proceed`.**  What holds of the state where a check
    stops, and of every continuation, holds of the whole. -/
theorem proceed_rule {s : σ} {next : α → σ × Except ε β}
    {P : σ → Prop} (hstop : P s) (hnext : ∀ a, x = .ok a → P (next a).1) :
    P (proceed s x next).1 := by
  cases x with
  | ok a => exact hnext a rfl
  | error e => exact hstop

/-- The whole succeeds exactly when the check and the continuation do. -/
theorem proceed_eq_ok {s : σ} {next : α → σ × Except ε β} {b : β} :
    (proceed s x next).2 = .ok b ↔ ∃ a, x = .ok a ∧ (next a).2 = .ok b := by
  cases x with
  | ok a => simp
  | error e => simp

/-- Go on with the value, or stop as the error says. -/
def resume {γ : Type w} (x : Except ε α) (stop : ε → γ) (next : α → γ) : γ :=
  match x with
  | .ok a => next a
  | .error e => stop e

@[simp] theorem resume_ok (a : α) (stop : ε → γ) (next : α → γ) :
    resume (.ok a) stop next = next a := rfl

@[simp] theorem resume_error (e : ε) (stop : ε → γ) (next : α → γ) :
    resume (.error e : Except ε α) stop next = stop e := rfl

theorem resume_bind {δ : Type v} (x : Except ε α) (f : α → Except ε δ) (stop : ε → γ)
    (next : δ → γ) :
    resume (x >>= f) stop next = resume x stop fun a => resume (f a) stop next := by
  cases x with
  | ok a => rfl
  | error e => rfl

theorem proceed_fst (s : σ) (x : Except ε α) (next : α → σ × Except ε β) :
    (proceed s x next).1 = resume x (fun _ => s) fun a => (next a).1 := by
  cases x with
  | ok a => rfl
  | error e => rfl

/-- **Rule for `resume`.**  What holds of both ways to go on holds of the whole. -/
theorem resume_rule {stop : ε → γ} {next : α → γ} {P : γ → Prop}
    (hstop : ∀ e, x = .error e → P (stop e)) (hnext : ∀ a, x = .ok a → P (next a)) :
    P (resume x stop next) := by
  cases x with
  | ok a => exact hnext a rfl
  | error e => exact hstop e rfl

/-- Keep of a result only whether there is one. -/
def discard {σ : Type w} {α : Type u} (r : σ × Except ε α) : σ × Except ε Unit :=
  match r with
  | (s, .ok _) => (s, .ok ())
  | (s, .error e) => (s, .error e)

theorem discard_fst {α : Type u} (r : σ × Except ε α) : (discard r).1 = r.1 := by
  obtain ⟨s, x⟩ := r
  cases x with
  | ok a => rfl
  | error e => rfl

theorem discard_eq_ok {α : Type u} {r : σ × Except ε α} {s : σ} :
    discard r = (s, .ok ()) ↔ ∃ a, r = (s, .ok a) := by
  obtain ⟨s', x⟩ := r
  cases x with
  | ok a => simp [discard]
  | error e => simp [discard]

/-- Run a check on every element, stopping at the first error. -/
def checkAll (f : α → Except ε Unit) : List α → Except ε Unit
  | [] => .ok ()
  | a :: rest => do
      f a
      checkAll f rest

variable {l : List α}

theorem checkAll_eq_ok {f : α → Except ε Unit} :
    checkAll f l = .ok () ↔ ∀ a ∈ l, f a = .ok () := by
  induction l with
  | nil => simp [checkAll]
  | cons a rest ih =>
    simp only [checkAll, bind_eq_ok, List.forall_mem_cons, ih]
    constructor
    · rintro ⟨u, ha, hrest⟩; exact ⟨ha, hrest⟩
    · rintro ⟨ha, hrest⟩; exact ⟨(), ha, hrest⟩

/-- Each result of a successful `mapM` comes from an element. -/
theorem exists_of_mem_mapM :
    ∀ {r : List β}, l.mapM f = .ok r → ∀ b ∈ r, ∃ a ∈ l, f a = .ok b := by
  induction l with
  | nil =>
    intro r h
    cases h
    simp
  | cons a rest ih =>
    intro r h
    simp only [List.mapM_cons, bind_eq_ok] at h
    obtain ⟨b, hb, bs, hbs, heq⟩ := h
    cases heq
    intro c hc
    rcases List.mem_cons.mp hc with rfl | hc
    · exact ⟨a, by simp, hb⟩
    · obtain ⟨a', ha', hc⟩ := ih hbs c hc
      exact ⟨a', List.mem_cons_of_mem _ ha', hc⟩

/-- `mapM` succeeds when every element does, and no result is lost. -/
theorem mapM_of_forall (h : ∀ a ∈ l, ∃ b, f a = .ok b) :
    ∃ r, l.mapM f = .ok r ∧ ∀ a ∈ l, ∀ b, f a = .ok b → b ∈ r := by
  induction l with
  | nil => exact ⟨[], rfl, by simp⟩
  | cons a rest ih =>
    obtain ⟨b, hb⟩ := h a (by simp)
    obtain ⟨bs, hbs, hmem⟩ := ih fun a' ha' => h a' (List.mem_cons_of_mem _ ha')
    refine ⟨b :: bs, by simp [List.mapM_cons, hb, hbs, pure, Except.pure], ?_⟩
    intro a' ha' c hc
    rcases List.mem_cons.mp ha' with rfl | ha'
    · rw [hb] at hc
      cases hc
      simp
    · exact List.mem_cons_of_mem _ (hmem a' ha' c hc)

/-- What a successful step keeps of an element, `mapM` keeps of the list. -/
theorem map_mapM {γ : Type*} {g : β → γ} {h : α → γ} (hkeep : ∀ a b, f a = .ok b → g b = h a) :
    ∀ {r : List β}, l.mapM f = .ok r → r.map g = l.map h := by
  induction l with
  | nil =>
    intro r hr
    cases hr
    rfl
  | cons a rest ih =>
    intro r hr
    simp only [List.mapM_cons, bind_eq_ok] at hr
    obtain ⟨b, hb, bs, hbs, heq⟩ := hr
    cases heq
    rw [List.map_cons, List.map_cons, hkeep a b hb, ih hbs]

/-- A successful `mapM` succeeded on every element. -/
theorem isOk_of_mapM :
    ∀ {r : List β}, l.mapM f = .ok r → ∀ a ∈ l, ∃ b, f a = .ok b := by
  induction l with
  | nil =>
    intro r _ a ha
    cases ha
  | cons a rest ih =>
    intro r hr
    simp only [List.mapM_cons, bind_eq_ok] at hr
    obtain ⟨b, hb, bs, hbs, -⟩ := hr
    intro a' ha'
    rcases List.mem_cons.mp ha' with rfl | ha'
    · exact ⟨b, hb⟩
    · exact ih hbs a' ha'

theorem mapM_congr {f g : α → Except ε β} (h : ∀ a ∈ l, f a = g a) :
    l.mapM f = l.mapM g := by
  induction l with
  | nil => rfl
  | cons a rest ih =>
    rw [List.forall_mem_cons] at h
    rw [List.mapM_cons, List.mapM_cons, h.1, ih h.2]

/-- `mapM` of a step that undoes `g` succeeds on what `g` made. -/
theorem mapM_eq_ok_iff {g : β → α} (h : ∀ a b, f a = .ok b ↔ a = g b) {r : List β} :
    l.mapM f = .ok r ↔ l = r.map g := by
  induction l generalizing r with
  | nil =>
    rw [List.mapM_nil, eq_comm (a := [])]
    constructor
    · intro hr
      cases hr
      rfl
    · intro hr
      rw [List.map_eq_nil_iff.mp hr]
      rfl
  | cons a rest ih =>
    simp only [List.mapM_cons, bind_eq_ok]
    constructor
    · rintro ⟨b, hb, bs, hbs, heq⟩
      cases heq
      rw [List.map_cons, ← (h a b).mp hb, ← ih.mp hbs]
    · intro hr
      obtain ⟨b, bs, rfl, hb, hbs⟩ := List.map_eq_cons_iff.mp hr.symm
      exact ⟨b, (h a b).mpr hb.symm, bs, ih.mpr hbs.symm, rfl⟩

/-- `mapM` of what never fails. -/
theorem mapM_eq_map {g : α → β} (h : ∀ a ∈ l, f a = .ok (g a)) : l.mapM f = .ok (l.map g) := by
  induction l with
  | nil => rfl
  | cons a rest ih =>
    rw [List.forall_mem_cons] at h
    rw [List.mapM_cons, h.1, ih h.2]
    rfl

end Outcome
