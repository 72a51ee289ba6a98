import Peanut.Library.KeyedTable

/-!
# Tables that change in one part

Many owners share a table.  `ChangesOnly P` says that the rows outside of `P` are what they
were and in the order in which they were, and `AddsOnly P` that rows of `P` are added at
the end and no row goes.  A selection outside of `P` does not see such a change.  A `Unique`
column is one in which no two rows agree.
-/

namespace Relational

namespace KeyedTable

universe u v

variable {α : Type u} {κ : Type v} {key : α → κ} {P : α → Prop} {t t' t'' : KeyedTable α key}

/-- No row goes, and the new rows are in `P`. -/
def AddsOnly (P : α → Prop) (t t' : KeyedTable α key) : Prop :=
  ∃ added, t'.rows = t.rows ++ added ∧ ∀ r ∈ added, P r

theorem AddsOnly.refl (P : α → Prop) (t : KeyedTable α key) : t.AddsOnly P t :=
  ⟨[], (List.append_nil _).symm, by simp⟩

theorem AddsOnly.trans (h : t.AddsOnly P t') (h' : t'.AddsOnly P t'') : t.AddsOnly P t'' := by
  obtain ⟨added, hrows, hadded⟩ := h
  obtain ⟨more, hrows', hmore⟩ := h'
  refine ⟨added ++ more, by rw [hrows', hrows, List.append_assoc], ?_⟩
  intro r hr
  rcases List.mem_append.mp hr with hr | hr
  · exact hadded r hr
  · exact hmore r hr

theorem addsOnly_insert? [DecidableEq κ] {r : α} (h : t.insert? r = some t') (hr : P r) :
    t.AddsOnly P t' := by
  refine ⟨[r], (insert?_eq_some.mp h).2, ?_⟩
  intro s hs
  rwa [List.mem_singleton.mp hs]

section Changes

variable [DecidablePred P]

/-- The rows outside of `P` are the same. -/
def ChangesOnly (P : α → Prop) [DecidablePred P] (t t' : KeyedTable α key) : Prop :=
  (t'.rows.filter fun r => !decide (P r)) = t.rows.filter fun r => !decide (P r)

theorem ChangesOnly.refl (P : α → Prop) [DecidablePred P] (t : KeyedTable α key) :
    t.ChangesOnly P t := rfl

theorem ChangesOnly.trans (h : t.ChangesOnly P t') (h' : t'.ChangesOnly P t'') :
    t.ChangesOnly P t'' :=
  Eq.trans h' h

/-- Added rows change nothing outside of `P`. -/
theorem AddsOnly.changesOnly (h : t.AddsOnly P t') : t.ChangesOnly P t' := by
  obtain ⟨added, hrows, hadded⟩ := h
  have hnone : (added.filter fun r => !decide (P r)) = [] := by
    rw [List.filter_eq_nil_iff]
    intro r hr
    simp [hadded r hr]
  rw [ChangesOnly, hrows, List.filter_append, hnone, List.append_nil]

theorem changesOnly_updateWhere {p : α → Bool} {f : α → α}
    (hold : ∀ r ∈ t, p r = true → P r) (hnew : ∀ r ∈ t, p r = true → P (f r))
    (hf : ∀ r, key (f r) = key r) : t.ChangesOnly P (t.updateWhere p f hf) := by
  have hrows : ∀ rows : List α, (∀ r ∈ rows, p r = true → P r ∧ P (f r)) →
      ((rows.map fun r => if p r then f r else r).filter fun r => !decide (P r)) =
        rows.filter fun r => !decide (P r) := by
    intro rows
    induction rows with
    | nil => intro _; rfl
    | cons r rows ih =>
      intro hmatch
      rw [List.map_cons, List.filter_cons, List.filter_cons,
        ih fun s hs => hmatch s (List.mem_cons_of_mem _ hs)]
      by_cases hp : p r = true
      · obtain ⟨hP, hP'⟩ := hmatch r List.mem_cons_self hp
        simp [hp, hP, hP']
      · rw [if_neg hp]
  exact hrows t.rows fun r hr hp => ⟨hold r hr hp, hnew r hr hp⟩

theorem changesOnly_deleteWhere {p : α → Bool} (h : ∀ r ∈ t, p r = true → P r) :
    t.ChangesOnly P (t.deleteWhere p) := by
  have hrows : (t.deleteWhere p).rows = t.rows.filter fun r => !p r := rfl
  rw [ChangesOnly, hrows, List.filter_filter]
  refine List.filter_congr fun r hr => ?_
  by_cases hp : p r = true
  · simp [h r hr hp]
  · simp [hp]

/-- **What is selected outside of `P`** is the same, in the same order. -/
theorem ChangesOnly.select_eq (h : t.ChangesOnly P t') {p : α → Bool}
    (hp : ∀ r ∈ t, p r = true → ¬ P r) (hp' : ∀ r ∈ t', p r = true → ¬ P r) :
    t'.select p = t.select p := by
  have houtside : ∀ s : KeyedTable α key, (∀ r ∈ s, p r = true → ¬ P r) →
      s.select p = (s.rows.filter fun r => !decide (P r)).filter p := by
    intro s hs
    rw [List.filter_filter]
    refine List.filter_congr fun r hr => ?_
    by_cases hmatch : p r = true
    · simp [hmatch, hs r hr hmatch]
    · simp [hmatch]
  rw [houtside t' hp', houtside t hp, h]

theorem ChangesOnly.mem_iff (h : t.ChangesOnly P t') {r : α} (hr : ¬ P r) : r ∈ t' ↔ r ∈ t := by
  have hmem : ∀ s : KeyedTable α key, r ∈ s ↔ r ∈ s.rows.filter fun r => !decide (P r) := by
    intro s
    rw [List.mem_filter, mem_def]
    simp [hr]
  rw [hmem t', hmem t, h]

end Changes

/-! ### Unique columns -/

section Columns

variable {β : Type*} {g : α → β}

/-- No two rows agree in the column. -/
def Unique (t : KeyedTable α key) (g : α → β) : Prop := ∀ r ∈ t, ∀ s ∈ t, g r = g s → r = s

theorem unique_empty (g : α → β) : (empty : KeyedTable α key).Unique g := by
  intro r hr
  simp [empty, mem_def] at hr

theorem Unique.insert? [DecidableEq κ] (h : t.Unique g) {r : α} (hr : t.insert? r = some t')
    (hfree : ∀ s ∈ t, g s ≠ g r) : t'.Unique g := by
  intro s₁ hs₁ s₂ hs₂ heq
  rcases (mem_insert? hr).mp hs₁ with hs₁ | rfl <;> rcases (mem_insert? hr).mp hs₂ with hs₂ | rfl
  · exact h s₁ hs₁ s₂ hs₂ heq
  · exact absurd heq (hfree s₁ hs₁)
  · exact absurd heq.symm (hfree s₂ hs₂)
  · rfl

/-- An update of other columns. -/
theorem Unique.updateWhere (h : t.Unique g) {p : α → Bool} {f : α → α} (hg : ∀ r, g (f r) = g r)
    (hf : ∀ r, key (f r) = key r) : (t.updateWhere p f hf).Unique g := by
  have hsame : ∀ r, g (if p r then f r else r) = g r := by
    intro r
    split
    · exact hg r
    · rfl
  intro s₁ hs₁ s₂ hs₂ heq
  obtain ⟨r₁, hr₁, rfl⟩ := (mem_updateWhere hf).mp hs₁
  obtain ⟨r₂, hr₂, rfl⟩ := (mem_updateWhere hf).mp hs₂
  rw [hsame, hsame] at heq
  rw [h r₁ hr₁ r₂ hr₂ heq]

theorem Unique.deleteWhere (h : t.Unique g) (p : α → Bool) : (t.deleteWhere p).Unique g := by
  intro r hr s hs heq
  exact h r (mem_deleteWhere.mp hr).1 s (mem_deleteWhere.mp hs).1 heq

end Columns

end KeyedTable

end Relational
