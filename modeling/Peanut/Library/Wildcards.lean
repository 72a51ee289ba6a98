import Mathlib.Algebra.GroupWithZero.Nat
import Mathlib.Computability.Language

/-!
# Patterns with wildcards

A pattern is a list of pieces: a literal letter, which stands for every letter
that folds to the same, a wildcard for one letter, and one for any run of
letters.  Its language is the product of the languages of its pieces, and
`accepts` decides it.

A literal pattern stands for its own text up to folding, so with a run at one
end or at both it finds prefixes, suffixes and substrings.  A wildcard in such a
text makes the pattern accept the text with the wildcard filled in, which the
text itself does not occur in.
-/

namespace Wildcards

universe u v

variable {α : Type u} {β : Type v}

/-- A letter taken up to folding, any one letter, any run of letters. -/
inductive Piece (α : Type u) where
  | letter (a : α)
  | one
  | many
deriving DecidableEq

variable (fold : α → β)

def Piece.language : Piece α → Language α
  | .letter a => {s | ∃ b, s = [b] ∧ fold b = fold a}
  | .one => {s | ∃ b, s = [b]}
  | .many => Set.univ

/-- The words a pattern stands for. -/
def language (p : List (Piece α)) : Language α := (p.map (Piece.language fold)).prod

def accepts [DecidableEq β] : List (Piece α) → List α → Bool
  | [], s => s.isEmpty
  | .letter _ :: _, [] => false
  | .letter a :: p, b :: s => (fold b == fold a) && accepts p s
  | .one :: _, [] => false
  | .one :: p, _ :: s => accepts p s
  | .many :: p, s => s.tails.any (accepts p)

/-! ### The language, piece by piece -/

variable {fold} {p q : List (Piece α)} {s t : List α}

@[simp] theorem mem_language_nil : s ∈ language fold [] ↔ s = [] := Language.mem_one s

theorem mem_language_append :
    s ∈ language fold (p ++ q) ↔ ∃ t ∈ language fold p, ∃ u ∈ language fold q, t ++ u = s := by
  rw [language, List.map_append, List.prod_append]
  exact Language.mem_mul

theorem mem_language_cons {piece : Piece α} :
    s ∈ language fold (piece :: p) ↔
      ∃ t ∈ piece.language fold, ∃ u ∈ language fold p, t ++ u = s := by
  rw [language, List.map_cons, List.prod_cons]
  exact Language.mem_mul

theorem mem_language_letter {a : α} :
    s ∈ language fold (.letter a :: p) ↔ ∃ b t, s = b :: t ∧ fold b = fold a ∧
      t ∈ language fold p := by
  rw [mem_language_cons]
  constructor
  · rintro ⟨_, ⟨b, rfl, hb⟩, t, ht, rfl⟩
    exact ⟨b, t, rfl, hb, ht⟩
  · rintro ⟨b, t, rfl, hb, ht⟩
    exact ⟨[b], ⟨b, rfl, hb⟩, t, ht, rfl⟩

theorem mem_language_one :
    s ∈ language fold (.one :: p) ↔ ∃ b t, s = b :: t ∧ t ∈ language fold p := by
  rw [mem_language_cons]
  constructor
  · rintro ⟨_, ⟨b, rfl⟩, t, ht, rfl⟩
    exact ⟨b, t, rfl, ht⟩
  · rintro ⟨b, t, rfl, ht⟩
    exact ⟨[b], ⟨b, rfl⟩, t, ht, rfl⟩

/-- A run in front leaves a suffix for the rest. -/
theorem mem_language_many :
    s ∈ language fold (.many :: p) ↔ ∃ t, t <:+ s ∧ t ∈ language fold p := by
  rw [mem_language_cons]
  constructor
  · rintro ⟨u, -, t, ht, rfl⟩
    exact ⟨t, List.suffix_append u t, ht⟩
  · rintro ⟨t, ⟨u, rfl⟩, ht⟩
    exact ⟨u, Set.mem_univ u, t, ht, rfl⟩

/-- A run at the end leaves a prefix for the rest. -/
theorem mem_language_append_many :
    s ∈ language fold (p ++ [.many]) ↔ ∃ t, t <+: s ∧ t ∈ language fold p := by
  rw [mem_language_append]
  constructor
  · rintro ⟨t, ht, u, -, rfl⟩
    exact ⟨t, List.prefix_append t u, ht⟩
  · rintro ⟨t, ⟨u, rfl⟩, ht⟩
    exact ⟨t, ht, u, mem_language_many.mpr ⟨[], List.nil_suffix, mem_language_nil.mpr rfl⟩, rfl⟩

/-- The matcher decides the language. -/
theorem accepts_iff [DecidableEq β] : accepts fold p s = true ↔ s ∈ language fold p := by
  induction p generalizing s with
  | nil => rw [accepts, List.isEmpty_iff, mem_language_nil]
  | cons piece p ih =>
    cases piece with
    | letter a =>
      cases s with
      | nil => simp [accepts, mem_language_letter]
      | cons b s => simp [accepts, mem_language_letter, ih]
    | one =>
      cases s with
      | nil => simp [accepts, mem_language_one]
      | cons b s => simp [accepts, mem_language_one, ih]
    | many =>
      rw [accepts, List.any_eq_true, mem_language_many]
      simp only [List.mem_tails, ih]

/-! ### Literal texts -/

/-- A text that is all letters. -/
def literal (w : List α) : List (Piece α) := w.map .letter

variable {w : List α}

theorem mem_language_literal :
    s ∈ language fold (literal w) ↔ s.map fold = w.map fold := by
  induction w generalizing s with
  | nil => simp [literal]
  | cons a w ih =>
    rw [literal, List.map_cons, mem_language_letter, List.map_cons]
    constructor
    · rintro ⟨b, t, rfl, hb, ht⟩
      rw [List.map_cons, hb, ih.mp ht]
    · intro h
      obtain ⟨b, t, rfl, hb, ht⟩ := List.map_eq_cons_iff.mp h
      exact ⟨b, t, rfl, hb, ih.mpr ht⟩

theorem mem_language_literal_many :
    s ∈ language fold (literal w ++ [.many]) ↔ w.map fold <+: s.map fold := by
  simp only [mem_language_append_many, mem_language_literal]
  constructor
  · rintro ⟨t, ht, heq⟩
    rw [← heq]
    exact ht.map fold
  · intro h
    refine ⟨s.take w.length, List.take_prefix w.length s, ?_⟩
    rw [List.map_take, ← List.length_map (f := fold), ← List.prefix_iff_eq_take.mp h]

theorem mem_language_many_literal :
    s ∈ language fold (.many :: literal w) ↔ w.map fold <:+ s.map fold := by
  simp only [mem_language_many, mem_language_literal]
  constructor
  · rintro ⟨t, ht, heq⟩
    rw [← heq]
    exact ht.map fold
  · intro h
    refine ⟨s.drop (s.length - w.length), List.drop_suffix _ s, ?_⟩
    have hdrop := List.suffix_iff_eq_drop.mp h
    rw [List.length_map, List.length_map] at hdrop
    rw [List.map_drop, ← hdrop]

theorem mem_language_many_literal_many :
    s ∈ language fold (.many :: (literal w ++ [.many])) ↔ w.map fold <:+: s.map fold := by
  simp only [mem_language_many, mem_language_literal_many]
  constructor
  · rintro ⟨t, ht, hw⟩
    exact hw.isInfix.trans (ht.map fold).isInfix
  · rintro ⟨u, v, heq⟩
    refine ⟨s.drop u.length, List.drop_suffix _ s, v, ?_⟩
    rw [List.map_drop, ← heq, List.append_assoc, List.drop_left]

/-! ### Where a text is looked for -/

/-- Anywhere, at the start or at the end. -/
inductive Place where
  | inside
  | front
  | back
deriving DecidableEq

/-- Runs on the sides that are left open. -/
def Place.pattern (p : List (Piece α)) : Place → List (Piece α)
  | .inside => .many :: (p ++ [.many])
  | .front => p ++ [.many]
  | .back => .many :: p

/-- The text stands at this place of the other. -/
def Place.occurs (w s : List β) : Place → Prop
  | .inside => w <:+: s
  | .front => w <+: s
  | .back => w <:+ s

theorem Place.occurs_isInfix {place : Place} {w s : List β} (h : place.occurs w s) : w <:+: s := by
  cases place with
  | inside => exact h
  | front => exact List.IsPrefix.isInfix h
  | back => exact List.IsSuffix.isInfix h

/-- A literal text is found where it occurs up to folding. -/
theorem mem_language_place_literal {place : Place} :
    s ∈ language fold (place.pattern (literal w)) ↔ place.occurs (w.map fold) (s.map fold) := by
  cases place with
  | inside => exact mem_language_many_literal_many
  | front => exact mem_language_literal_many
  | back => exact mem_language_many_literal

theorem language_place_mono {place : Place}
    (h : ∀ t, t ∈ language fold p → t ∈ language fold q)
    (hs : s ∈ language fold (place.pattern p)) :
    s ∈ language fold (place.pattern q) := by
  have hopen : ∀ t, t ∈ language fold (p ++ [.many]) → t ∈ language fold (q ++ [.many]) := by
    intro t ht
    obtain ⟨u, hu, hp⟩ := mem_language_append_many.mp ht
    exact mem_language_append_many.mpr ⟨u, hu, h u hp⟩
  cases place with
  | inside =>
    obtain ⟨t, ht, hp⟩ := mem_language_many.mp hs
    exact mem_language_many.mpr ⟨t, ht, hopen t hp⟩
  | front => exact hopen s hs
  | back =>
    obtain ⟨t, ht, hp⟩ := mem_language_many.mp hs
    exact mem_language_many.mpr ⟨t, ht, h t hp⟩

/-! ### Texts with a wildcard -/

variable (fill : α)

/-- The shortest way to follow a pattern: runs are empty and `fill` stands for
    one letter. -/
def filled : List (Piece α) → List α
  | [] => []
  | .letter a :: p => a :: filled p
  | .one :: p => fill :: filled p
  | .many :: p => filled p

variable {fill}

@[simp] theorem filled_append : filled fill (p ++ q) = filled fill p ++ filled fill q := by
  induction p with
  | nil => rfl
  | cons piece p ih => cases piece <;> simp [filled, ih]

theorem filled_mem_language : filled fill p ∈ language fold p := by
  induction p with
  | nil => exact mem_language_nil.mpr rfl
  | cons piece p ih =>
    cases piece with
    | letter a => exact mem_language_letter.mpr ⟨a, filled fill p, rfl, rfl, ih⟩
    | one => exact mem_language_one.mpr ⟨fill, filled fill p, rfl, ih⟩
    | many => exact mem_language_many.mpr ⟨filled fill p, List.suffix_rfl, ih⟩

/-- No accepted word is smaller, in any measure that folding keeps and in which
    no letter is smaller than `fill`. -/
theorem size_filled_le {size : α → Nat} (hfold : ∀ a b, fold a = fold b → size a = size b)
    (hfill : ∀ a, size fill ≤ size a) (h : s ∈ language fold p) :
    ((filled fill p).map size).sum ≤ (s.map size).sum := by
  induction p generalizing s with
  | nil => exact Nat.zero_le _
  | cons piece p ih =>
    cases piece with
    | letter a =>
      obtain ⟨b, t, rfl, hb, ht⟩ := mem_language_letter.mp h
      have hrest := ih ht
      have hsame := hfold b a hb
      simp only [filled, List.map_cons, List.sum_cons]
      omega
    | one =>
      obtain ⟨b, t, rfl, ht⟩ := mem_language_one.mp h
      have hrest := ih ht
      have hleast := hfill b
      simp only [filled, List.map_cons, List.sum_cons]
      omega
    | many =>
      obtain ⟨t, ⟨u, rfl⟩, hp⟩ := mem_language_many.mp h
      rw [List.map_append, List.sum_append]
      exact Nat.le_trans (ih hp) (Nat.le_add_left _ _)

@[simp] theorem filled_place (place : Place) : filled fill (place.pattern p) = filled fill p := by
  cases place <;> simp [Place.pattern, filled]

/-- How the letters of a text are read: each as itself or as a wildcard. -/
structure Reading (fold : α → β) (fill : α) (read : α → Piece α) : Prop where
  letter : ∀ a b, read a = .letter b → b = a
  one : ∀ a, read a = .one → fold a ≠ fold fill

variable {read : α → Piece α}

/-- Read with its wildcards a text still accepts itself. -/
theorem Reading.mem_language (hread : Reading fold fill read)
    (h : s ∈ language fold (literal w)) : s ∈ language fold (w.map read) := by
  induction w generalizing s with
  | nil => exact h
  | cons a w ih =>
    obtain ⟨b, t, rfl, hb, ht⟩ := mem_language_letter.mp h
    rw [List.map_cons]
    cases hpiece : read a with
    | letter c =>
      rw [hread.letter a c hpiece]
      exact mem_language_letter.mpr ⟨b, t, rfl, hb, ih ht⟩
    | one => exact mem_language_one.mpr ⟨b, t, rfl, ih ht⟩
    | many => exact mem_language_many.mpr ⟨t, List.suffix_cons b t, ih ht⟩

theorem length_filled_le (fill : α) (read : α → Piece α) (w : List α) :
    (filled fill (w.map read)).length ≤ w.length := by
  induction w with
  | nil => exact Nat.le_refl 0
  | cons a w ih =>
    rw [List.map_cons]
    cases read a with
    | letter b => exact Nat.succ_le_succ ih
    | one => exact Nat.succ_le_succ ih
    | many => exact Nat.le_succ_of_le ih

/-- A text that folds like its filled form has no wildcard. -/
theorem Reading.eq_literal (hread : Reading fold fill read)
    (h : w.map fold = (filled fill (w.map read)).map fold) : w.map read = literal w := by
  induction w with
  | nil => rfl
  | cons a w ih =>
    rw [List.map_cons, List.map_cons] at h
    rw [literal, List.map_cons, List.map_cons]
    cases hpiece : read a with
    | letter b =>
      rw [hpiece, filled, List.map_cons] at h
      rw [hread.letter a b hpiece, ih (List.cons.inj h).2]
      rfl
    | one =>
      rw [hpiece, filled, List.map_cons] at h
      exact absurd (List.cons.inj h).1 (hread.one a hpiece)
    | many =>
      have hlen := congrArg List.length h
      have hle := length_filled_le fill read w
      rw [hpiece, filled, List.length_cons, List.length_map, List.length_map] at hlen
      omega

/-- A text occurs in its filled form only when it has no wildcard. -/
theorem Reading.eq_literal_of_infix (hread : Reading fold fill read)
    (h : w.map fold <:+: (filled fill (w.map read)).map fold) :
    w.map read = literal w := by
  have hle := length_filled_le fill read w
  have hge := h.length_le
  rw [List.length_map, List.length_map] at hge
  refine hread.eq_literal (h.eq_of_length ?_)
  rw [List.length_map, List.length_map]
  omega

end Wildcards
