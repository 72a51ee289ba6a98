import Mathlib.Logic.Basic
import Mathlib.Data.List.Basic

/-!
# Entries that stand

What is granted and taken back again is written into a journal, one entry after the other.
An entry stands as long as no later one ends it.  Whether it stands is a question about the
whole journal, and `standing_concat` answers it one entry at a time.
-/

namespace Journal

universe u

variable {α : Type u} {ends : α → α → Prop} {entries : List α} {a b : α}

/-- The entry is in the journal, and none after it ends it. -/
def Standing (ends : α → α → Prop) (entries : List α) (a : α) : Prop :=
  ∃ pre post, entries = pre ++ a :: post ∧ ∀ b ∈ post, ¬ ends b a

theorem not_standing_nil (ends : α → α → Prop) (a : α) : ¬ Standing ends [] a := by
  rintro ⟨pre, post, hsplit, -⟩
  simp at hsplit

theorem Standing.mem (h : Standing ends entries a) : a ∈ entries := by
  obtain ⟨pre, post, rfl, -⟩ := h
  simp

/-- The last entry stands. -/
theorem standing_last (ends : α → α → Prop) (entries : List α) (a : α) :
    Standing ends (entries ++ [a]) a :=
  ⟨entries, [], rfl, by simp⟩

/-- An entry that is not ended goes on standing. -/
theorem Standing.concat (h : Standing ends entries a) (hends : ¬ ends b a) :
    Standing ends (entries ++ [b]) a := by
  obtain ⟨pre, post, rfl, hpost⟩ := h
  refine ⟨pre, post ++ [b], by simp, ?_⟩
  intro c hc
  rcases List.mem_append.mp hc with hc | hc
  · exact hpost c hc
  · rwa [List.mem_singleton.mp hc]

/-- **One more entry.**  It stands, and the others stand that it does not end. -/
theorem standing_concat :
    Standing ends (entries ++ [b]) a ↔ a = b ∨ (Standing ends entries a ∧ ¬ ends b a) := by
  constructor
  · rintro ⟨pre, post, hsplit, hpost⟩
    rcases List.eq_nil_or_concat post with rfl | ⟨post, c, rfl⟩
    · obtain ⟨-, hlast⟩ := List.append_inj' hsplit rfl
      obtain rfl : b = a := by simpa using hlast
      exact .inl rfl
    · rw [List.concat_eq_append, ← List.cons_append, ← List.append_assoc] at hsplit
      obtain ⟨rfl, hlast⟩ := List.append_inj' hsplit rfl
      obtain rfl : b = c := by simpa using hlast
      refine .inr ⟨⟨pre, post, rfl, fun d hd => hpost d (by simp [hd])⟩, ?_⟩
      exact hpost b (by simp)
  · rintro (rfl | ⟨h, hends⟩)
    · exact standing_last ends entries a
    · exact h.concat hends

end Journal
