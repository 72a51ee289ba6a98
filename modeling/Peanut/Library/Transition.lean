import Mathlib.Logic.Basic

/-!
# Runs of a deterministic transition system

A server handles requests one after the other; what is nondeterministic about
a request (the clock, a random identifier) travels with the request.  A run is
a fold of the step function over the list of requests.
-/

namespace Transition

universe u v

variable {σ : Type u} {ι : Type v}

/-- The state after a list of requests. -/
def run (step : σ → ι → σ) (s : σ) : List ι → σ
  | [] => s
  | r :: rest => run step (step s r) rest

theorem run_append (step : σ → ι → σ) (s : σ) (xs ys : List ι) :
    run step s (xs ++ ys) = run step (run step s xs) ys := by
  induction xs generalizing s with
  | nil => rfl
  | cons r rest ih => exact ih (step s r)

/-- **Invariant rule.**  What holds at the start and survives every admissible
    request holds after every run of admissible requests. -/
theorem run_invariant {step : σ → ι → σ} {Inv : σ → Prop} {Adm : σ → ι → Prop}
    (hstep : ∀ s r, Inv s → Adm s r → Inv (step s r)) {s : σ} (hs : Inv s) :
    ∀ rs : List ι,
      (∀ (pre : List ι) (r : ι) (post : List ι), rs = pre ++ r :: post → Adm (run step s pre) r) →
      Inv (run step s rs) := by
  intro rs
  induction rs generalizing s with
  | nil => intro _; exact hs
  | cons r rest ih =>
    intro hadm
    refine ih (hstep s r hs (hadm [] r rest rfl)) ?_
    intro pre r' post hsplit
    exact hadm (r :: pre) r' post (by rw [hsplit]; rfl)

/-- The invariant rule when every request is admissible. -/
theorem run_preserves {step : σ → ι → σ} {Inv : σ → Prop}
    (hstep : ∀ s r, Inv s → Inv (step s r)) {s : σ} (hs : Inv s) (rs : List ι) :
    Inv (run step s rs) := by
  have hall : ∀ s r, Inv s → (fun (_ : σ) (_ : ι) => True) s r → Inv (step s r) :=
    fun s r hs _ => hstep s r hs
  exact run_invariant hall hs rs (fun _ _ _ _ => trivial)

/-- **Exactness rule.**  Let `Inv` survive every allowed request and let an
    allowed request lead from a good state to a good one exactly if it is
    admissible.  Then among the runs of allowed requests those that stay in good
    states are exactly the runs of admissible ones. -/
theorem good_iff_admissible_of_allowed {step : σ → ι → σ} {Inv Good : σ → Prop}
    {Allowed Adm : σ → ι → Prop} (hinv : ∀ s r, Inv s → Allowed s r → Inv (step s r))
    (hstep : ∀ s r, Inv s → Allowed s r → Good s → (Good (step s r) ↔ Adm s r)) {s : σ}
    (hs : Inv s) (hgood : Good s) {rs : List ι}
    (hallowed : ∀ (pre : List ι) (r : ι) (post : List ι), rs = pre ++ r :: post →
      Allowed (run step s pre) r) :
    (∀ pre post : List ι, rs = pre ++ post → Good (run step s pre)) ↔
      ∀ (pre : List ι) (r : ι) (post : List ι), rs = pre ++ r :: post → Adm (run step s pre) r := by
  have hreach : ∀ pre post, rs = pre ++ post → Inv (run step s pre) := by
    intro pre post hsplit
    refine run_invariant hinv hs pre ?_
    intro pre' r post' hsplit'
    exact hallowed pre' r (post' ++ post) (by rw [hsplit, hsplit']; simp)
  constructor
  · intro hall pre r post hsplit
    have hbefore : Good (run step s pre) := hall pre (r :: post) hsplit
    have hafter : Good (run step s (pre ++ [r])) := hall (pre ++ [r]) post (by simp [hsplit])
    rw [run_append] at hafter
    exact (hstep _ r (hreach _ _ hsplit) (hallowed pre r post hsplit) hbefore).mp hafter
  · intro hadm pre post hsplit
    have hboth : ∀ s r, Inv s ∧ Good s → Allowed s r ∧ Adm s r →
        Inv (step s r) ∧ Good (step s r) := by
      rintro s r ⟨hi, hg⟩ ⟨ha, hr⟩
      exact ⟨hinv s r hi ha, (hstep s r hi ha hg).mpr hr⟩
    refine (run_invariant hboth ⟨hs, hgood⟩ pre ?_).2
    intro pre' r post' hsplit'
    have hrs : rs = pre' ++ r :: (post' ++ post) := by rw [hsplit, hsplit']; simp
    exact ⟨hallowed pre' r _ hrs, hadm pre' r _ hrs⟩

/-- The exactness rule when every request is allowed. -/
theorem good_iff_admissible {step : σ → ι → σ} {Good : σ → Prop} {Adm : σ → ι → Prop}
    (hstep : ∀ s r, Good s → (Good (step s r) ↔ Adm s r)) {s : σ} (hs : Good s) (rs : List ι) :
    (∀ pre post : List ι, rs = pre ++ post → Good (run step s pre)) ↔
      ∀ (pre : List ι) (r : ι) (post : List ι), rs = pre ++ r :: post →
        Adm (run step s pre) r := by
  have hinv : ∀ s r, (fun _ : σ => True) s → (fun (_ : σ) (_ : ι) => True) s r →
      (fun _ : σ => True) (step s r) := fun _ _ _ _ => trivial
  exact good_iff_admissible_of_allowed hinv (fun s r _ _ => hstep s r) trivial hs
    (fun _ _ _ _ => trivial)

/-- What holds of each request of a run holds of the first and of each of the rest. -/
theorem each_cons {step : σ → ι → σ} {Q : σ → ι → Prop} {s : σ} {first : ι} {rest : List ι} :
    (∀ (pre : List ι) (r : ι) (post : List ι), first :: rest = pre ++ r :: post →
      Q (run step s pre) r) ↔
      Q s first ∧ ∀ (pre : List ι) (r : ι) (post : List ι), rest = pre ++ r :: post →
        Q (run step (step s first) pre) r := by
  constructor
  · intro hall
    refine ⟨hall [] first rest rfl, ?_⟩
    intro pre r post hsplit
    exact hall (first :: pre) r post (by rw [hsplit]; rfl)
  · rintro ⟨hfirst, hrest⟩ pre r post hsplit
    cases pre with
    | nil =>
      obtain ⟨rfl, -⟩ := List.cons.inj hsplit
      exact hfirst
    | cons p pre =>
      obtain ⟨rfl, htail⟩ := List.cons.inj hsplit
      exact hrest pre r post htail

/-- **Stepwise rule.**  Let what is to hold of a request in a state of the invariant
    hold exactly of the admissible requests, which keep the invariant.  Then it
    holds of every request of a run exactly if all of them are admissible. -/
theorem each_iff_admissible {step : σ → ι → σ} {Inv : σ → Prop} {P Adm : σ → ι → Prop}
    (hiff : ∀ s r, Inv s → (P s r ↔ Adm s r)) (hinv : ∀ s r, Inv s → Adm s r → Inv (step s r))
    {s : σ} (hs : Inv s) (rs : List ι) :
    (∀ (pre : List ι) (r : ι) (post : List ι), rs = pre ++ r :: post → P (run step s pre) r) ↔
      ∀ (pre : List ι) (r : ι) (post : List ι), rs = pre ++ r :: post →
        Adm (run step s pre) r := by
  induction rs generalizing s with
  | nil => simp
  | cons first rest ih =>
    rw [each_cons, each_cons, hiff s first hs]
    exact and_congr_right fun hfirst => ih (hinv s first hs hfirst)

end Transition
