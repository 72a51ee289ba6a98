import Mathlib.Data.List.Basic

/-!
# Texts with placeholders

A prepared statement is a text in which every `?` stands for a value; the values
are handed over in a list of their own and given out from left to right.
`bindAll` does so and keeps what came of it: the characters of the text, with a
value where a placeholder was.  It is strict.  It has no result when a value is
missing or left over, when a quoted literal does not end, and when a `?` stands
inside a literal, where a database would not take it for a placeholder.

The rules are compositional: a text put together from parts binds as its parts
do, each with values of its own.
-/

namespace Placeholders

universe u

variable {β : Type u}

/-- A character of the text, or the value in the place of a `?`. -/
inductive Token (β : Type u) where
  | char (c : Char)
  | value (v : β)
deriving DecidableEq

/-- A text without values. -/
def lit (s : List Char) : List (Token β) := s.map .char

@[simp] theorem lit_nil : (lit [] : List (Token β)) = [] := rfl

@[simp] theorem lit_append (s t : List Char) : (lit (s ++ t) : List (Token β)) = lit s ++ lit t :=
  List.map_append

/-- The quote that opens and closes a literal. -/
def quoteMark : Char := Char.ofNat 39

/-- The value a placeholder takes, and the values left for the rest. -/
def nextValue (quoted : Bool) : List β → Option (β × List β)
  | [] => none
  | v :: rest => if quoted then none else some (v, rest)

variable {quoted : Bool}

theorem nextValue_eq_some {values rest : List β} {v : β} :
    nextValue quoted values = some (v, rest) ↔ quoted = false ∧ values = v :: rest := by
  cases values with
  | nil => simp [nextValue]
  | cons v' rest' => cases quoted <;> simp [nextValue]

/-- Give the placeholders their values.  `quoted` says whether the text starts
    inside a literal. -/
def bindAll (quoted : Bool) : List Char → List β → Option (List (Token β))
  | [], values => if quoted || !values.isEmpty then none else some []
  | c :: text, values =>
      if c = quoteMark then (bindAll (!quoted) text values).map (.char c :: ·)
      else if c = '?' then
        (nextValue quoted values).bind fun e => (bindAll false text e.2).map (.value e.1 :: ·)
      else (bindAll quoted text values).map (.char c :: ·)

variable {r : List (Token β)}

theorem bindAll_nil_eq_some {values : List β} :
    bindAll quoted [] values = some r ↔ quoted = false ∧ values = [] ∧ r = [] := by
  cases quoted <;> cases values <;> simp [bindAll, eq_comm]

/-- The three ways a text goes on. -/
theorem bindAll_cons_eq_some {c : Char} {text : List Char} {values : List β} :
    bindAll quoted (c :: text) values = some r ↔
      (c = quoteMark ∧ ∃ r', bindAll (!quoted) text values = some r' ∧ r = .char c :: r') ∨
        (c = '?' ∧ quoted = false ∧ ∃ v rest r', values = v :: rest ∧
          bindAll false text rest = some r' ∧ r = .value v :: r') ∨
        (c ≠ quoteMark ∧ c ≠ '?' ∧
          ∃ r', bindAll quoted text values = some r' ∧ r = .char c :: r') := by
  have hapart : ('?' : Char) ≠ quoteMark := by decide
  rw [bindAll]
  by_cases hquote : c = quoteMark
  · have hne : c ≠ '?' := fun heq => hapart (heq.symm.trans hquote)
    rw [if_pos hquote, Option.map_eq_some_iff]
    simp only [hquote, true_and, ne_eq, not_true_eq_false, false_and, or_false, eq_comm]
    rw [hquote] at hne
    simp [hne]
  · rw [if_neg hquote]
    by_cases hmark : c = '?'
    · rw [if_pos hmark, Option.bind_eq_some_iff]
      simp only [hmark, hapart, false_and, false_or, true_and, ne_eq, not_true_eq_false,
        and_false, or_false, Prod.exists, nextValue_eq_some, Option.map_eq_some_iff]
      constructor
      · rintro ⟨v, rest, ⟨hq, hvalues⟩, r', hr', heq⟩
        exact ⟨hq, v, rest, r', hvalues, hr', heq.symm⟩
      · rintro ⟨hq, v, rest, r', hvalues, hr', heq⟩
        exact ⟨v, rest, ⟨hq, hvalues⟩, r', hr', heq.symm⟩
    · rw [if_neg hmark, Option.map_eq_some_iff]
      simp [hquote, hmark, eq_comm]

/-- Neither a placeholder nor a quote. -/
def Plain (s : List Char) : Prop := ∀ c ∈ s, c ≠ '?' ∧ c ≠ quoteMark

-- named, since some libraries also decide a statement about every character there is
instance (s : List Char) : Decidable (Plain s) :=
  List.decidableBAll (fun c => c ≠ '?' ∧ c ≠ quoteMark) s

variable {s t : List Char}

theorem Plain.append (hs : Plain s) (ht : Plain t) : Plain (s ++ t) := by
  intro c hc
  rcases List.mem_append.mp hc with hc | hc
  · exact hs c hc
  · exact ht c hc

/-! ### Texts put together from parts -/

/-- **Parts bind on their own.**  The values of the first part go to the first
    part. -/
theorem bindAll_append {xs ys : List β} {r r' : List (Token β)}
    (hs : bindAll quoted s xs = some r) (ht : bindAll false t ys = some r') :
    bindAll quoted (s ++ t) (xs ++ ys) = some (r ++ r') := by
  induction s generalizing quoted xs r with
  | nil =>
    obtain ⟨rfl, rfl, rfl⟩ := bindAll_nil_eq_some.mp hs
    exact ht
  | cons c s ih =>
    rw [List.cons_append, bindAll_cons_eq_some]
    rcases bindAll_cons_eq_some.mp hs with ⟨hquote, r₀, hr₀, rfl⟩ |
      ⟨hmark, rfl, v, rest, r₀, rfl, hr₀, rfl⟩ | ⟨hquote, hmark, r₀, hr₀, rfl⟩
    · exact .inl ⟨hquote, r₀ ++ r', ih hr₀, rfl⟩
    · exact .inr (.inl ⟨hmark, rfl, v, rest ++ ys, r₀ ++ r', rfl, ih hr₀, rfl⟩)
    · exact .inr (.inr ⟨hquote, hmark, r₀ ++ r', ih hr₀, rfl⟩)

/-- A text that takes no value and stands for itself. -/
def Inert (s : List Char) : Prop := ∀ β : Type u, bindAll false s ([] : List β) = some (lit s)

theorem Inert.append (hs : Inert.{u} s) (ht : Inert.{u} t) :
    Inert.{u} (s ++ t) := by
  intro β
  rw [lit_append]
  exact bindAll_append (hs β) (ht β)

/-- An inert text in front of another one. -/
theorem Inert.bindAll_append {xs : List β} (hs : Inert.{u} s) (ht : bindAll false t xs = some r) :
    bindAll false (s ++ t) xs = some (lit s ++ r) :=
  Placeholders.bindAll_append (hs β) ht

/-- A plain text takes no value, in a literal or outside of one. -/
theorem bindAll_plain_append {quoted : Bool} {s t : List Char} {xs : List β} (hs : Plain s) :
    bindAll quoted (s ++ t) xs = (bindAll quoted t xs).map (lit s ++ ·) := by
  induction s with
  | nil => simp
  | cons c s ih =>
    obtain ⟨hmark, hquote⟩ := hs c List.mem_cons_self
    rw [List.cons_append, bindAll, if_neg hquote, if_neg hmark,
      ih fun d hd => hs d (List.mem_cons_of_mem _ hd), Option.map_map]
    rfl

theorem Plain.inert (hs : Plain s) : Inert.{u} s := by
  intro β
  have h := @bindAll_plain_append β false s [] [] hs
  simpa [bindAll] using h

/-- A literal is inert. -/
theorem inert_literal (hs : Plain s) :
    Inert.{u} (quoteMark :: (s ++ [quoteMark])) := by
  intro β
  have hclose : bindAll true [quoteMark] ([] : List β) = some (lit [quoteMark]) := rfl
  rw [bindAll, if_pos rfl, Bool.not_false, bindAll_plain_append hs, hclose, Option.map_some,
    Option.map_some, ← lit_append]
  rfl

/-- One placeholder takes one value. -/
@[simp] theorem bindAll_mark (v : β) : bindAll false ['?'] [v] = some [.value v] := rfl

/-- Parts with a plain separator between them. -/
theorem bindAll_intercalate {sep : List Char} (hsep : Plain sep)
    {parts : List (List Char × List β × List (Token β))}
    (h : ∀ p ∈ parts, bindAll false p.1 p.2.1 = some p.2.2) :
    bindAll false (sep.intercalate (parts.map (·.1))) (parts.flatMap (·.2.1)) =
      some ((lit sep).intercalate (parts.map (·.2.2))) := by
  induction parts with
  | nil => rfl
  | cons p rest ih =>
    rw [List.forall_mem_cons] at h
    cases rest with
    | nil => simpa using h.1
    | cons q rest =>
      have htail := hsep.inert.bindAll_append (ih h.2)
      have hall := bindAll_append h.1 htail
      simpa only [List.map_cons, List.flatMap_cons, List.intercalate_cons_cons,
        List.append_assoc] using hall

/-! ### What a result says -/

/-- A `?` where a value stands. -/
def Token.toChar : Token β → Char
  | .char c => c
  | .value _ => '?'

def Token.value? : Token β → Option β
  | .char _ => none
  | .value v => some v

/-- **Nothing is lost.**  The result has the characters of the text in order, the
    values in order, and a value for every `?`. -/
theorem bindAll_sound {xs : List β} (h : bindAll quoted s xs = some r) :
    r.map Token.toChar = s ∧ r.filterMap Token.value? = xs ∧ s.count '?' = xs.length := by
  induction s generalizing quoted xs r with
  | nil =>
    obtain ⟨-, rfl, rfl⟩ := bindAll_nil_eq_some.mp h
    exact ⟨rfl, rfl, rfl⟩
  | cons c s ih =>
    -- a character that stands for itself
    have hself : ∀ {q r₀}, c ≠ '?' → bindAll q s xs = some r₀ →
        (Token.char c :: r₀).map Token.toChar = c :: s ∧
          (Token.char c :: r₀).filterMap Token.value? = xs ∧ (c :: s).count '?' = xs.length := by
      intro q r₀ hne hr₀
      obtain ⟨htext, hvalues, hcount⟩ := ih hr₀
      refine ⟨?_, hvalues, ?_⟩
      · rw [List.map_cons, htext]
        rfl
      · rw [List.count_cons_of_ne hne, hcount]
    rcases bindAll_cons_eq_some.mp h with ⟨hquote, r₀, hr₀, rfl⟩ |
      ⟨rfl, -, v, rest, r₀, rfl, hr₀, rfl⟩ | ⟨-, hmark, r₀, hr₀, rfl⟩
    · refine hself ?_ hr₀
      rw [hquote]
      decide
    · obtain ⟨htext, hvalues, hcount⟩ := ih hr₀
      refine ⟨?_, ?_, ?_⟩
      · rw [List.map_cons, htext]
        rfl
      · rw [List.filterMap_cons, Token.value?, hvalues]
      · rw [List.count_cons_self, hcount, List.length_cons]
    · exact hself hmark hr₀

end Placeholders
