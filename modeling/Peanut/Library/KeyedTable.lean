import Mathlib.Algebra.BigOperators.Group.List.Basic
import Mathlib.Algebra.Ring.Int.Defs
import Mathlib.Data.List.Nodup
import Mathlib.Data.List.Perm.Basic

/-!
# Tables with a primary key

A relational table is a list of rows together with the column (or tuple of
columns) that identifies a row.  The primary key is carried as a field: no two
rows of a `KeyedTable` share a key, so a lookup by key has at most one answer
and a proof never has to restore uniqueness by hand.

The operations are the four statements a storage engine offers on one table:

  * `insert?`      one new row, refused when its key is taken;
  * `updateWhere`  rewrite the rows that match, leaving keys alone;
  * `deleteWhere`  drop the rows that match;
  * `find?` / `select`  read by key or by predicate.

Row order is the insertion order.  Statements about "the same table" are about
membership (`Same`), since a relation has no order.
-/

namespace Relational

universe u v

/-- A list of rows in which `key` identifies the row. -/
structure KeyedTable (α : Type u) {κ : Type v} (key : α → κ) where
  rows : List α
  nodup : (rows.map key).Nodup

namespace KeyedTable

variable {α : Type u} {κ : Type v} {key : α → κ}

instance : Membership α (KeyedTable α key) := ⟨fun t r => r ∈ t.rows⟩

variable {t : KeyedTable α key} {r : α}

theorem mem_def : r ∈ t ↔ r ∈ t.rows := Iff.rfl

@[ext] theorem ext {s t : KeyedTable α key} (h : s.rows = t.rows) : s = t := by
  cases s; cases t; cases h; rfl

/-- The table without rows. -/
def empty : KeyedTable α key := ⟨[], by simp⟩

instance : Inhabited (KeyedTable α key) := ⟨empty⟩

@[simp] theorem rows_empty : (empty : KeyedTable α key).rows = [] := rfl

@[simp] theorem not_mem_empty (r : α) : r ∉ (empty : KeyedTable α key) := by
  simp [mem_def]

/-- Two rows of one table with the same key are the same row. -/
theorem eq_of_key_eq (t : KeyedTable α key) {r s : α} (hr : r ∈ t) (hs : s ∈ t)
    (h : key r = key s) : r = s :=
  List.inj_on_of_nodup_map t.nodup hr hs h

/-- Two tables that store the same rows, in whatever order. -/
def Same (s t : KeyedTable α key) : Prop := ∀ r, r ∈ s ↔ r ∈ t

theorem Same.refl (t : KeyedTable α key) : t.Same t := fun _ => Iff.rfl

/-! ### Reading -/

/-- The rows that match a predicate, in table order. -/
def select (t : KeyedTable α key) (p : α → Bool) : List α := t.rows.filter p

variable {p q : α → Bool}

@[simp] theorem mem_select :
    r ∈ t.select p ↔ r ∈ t ∧ p r = true := by
  simp [select, mem_def]

/-- The first row that matches a predicate. -/
def selectOne (t : KeyedTable α key) (p : α → Bool) : Option α := t.rows.find? p

theorem selectOne_some (h : t.selectOne p = some r) : r ∈ t ∧ p r = true :=
  ⟨List.mem_of_find?_eq_some h, List.find?_some h⟩

theorem selectOne_none :
    t.selectOne p = none ↔ ∀ r ∈ t, p r = false := by
  simp [selectOne, mem_def]

/-- When at most one row can match, reading one row is reading that row. -/
theorem selectOne_eq_some (hr : r ∈ t)
    (hp : p r = true) (huniq : ∀ s ∈ t, p s = true → s = r) : t.selectOne p = some r := by
  rcases hfind : t.selectOne p with _ | s
  · exact absurd hp (by simp [selectOne_none.mp hfind r hr])
  · obtain ⟨hs, hps⟩ := selectOne_some hfind
    rw [huniq s hs hps]

section Keys

variable [DecidableEq κ]

/-- Look a row up by its key. -/
def find? (t : KeyedTable α key) (k : κ) : Option α := t.selectOne fun r => decide (key r = k)

variable {t t' : KeyedTable α key} {r : α}

theorem find?_eq_some {k : κ} :
    t.find? k = some r ↔ r ∈ t ∧ key r = k := by
  constructor
  · intro h
    obtain ⟨hr, hk⟩ := selectOne_some h
    exact ⟨hr, by simpa using hk⟩
  · rintro ⟨hr, rfl⟩
    refine selectOne_eq_some hr (by simp) ?_
    intro s hs hk
    exact t.eq_of_key_eq hs hr (by simpa using hk)

/-- Is there a row with this key? -/
def hasKey (t : KeyedTable α key) (k : κ) : Bool := (t.find? k).isSome

theorem hasKey_iff {k : κ} :
    t.hasKey k = true ↔ ∃ r ∈ t, key r = k := by
  rw [hasKey, Option.isSome_iff_exists]
  simp only [find?_eq_some]

theorem hasKey_of_mem (h : r ∈ t) : t.hasKey (key r) = true :=
  hasKey_iff.mpr ⟨r, h, rfl⟩

/-! ### Inserting -/

/-- Add a row; `none` when its primary key is taken. -/
def insert? (t : KeyedTable α key) (r : α) : Option (KeyedTable α key) :=
  if h : key r ∈ t.rows.map key then none
  else some ⟨t.rows ++ [r], by
    rw [List.map_append, List.nodup_append]
    refine ⟨t.nodup, by simp, ?_⟩
    intro a ha b hb heq
    simp only [List.map_cons, List.map_nil, List.mem_singleton] at hb
    exact h (hb ▸ heq ▸ ha)⟩

theorem insert?_eq_some :
    t.insert? r = some t' ↔ t.hasKey (key r) = false ∧ t'.rows = t.rows ++ [r] := by
  have hkey : t.hasKey (key r) = false ↔ key r ∉ t.rows.map key := by
    rw [← Bool.not_eq_true, hasKey_iff]
    simp [mem_def]
  rw [hkey, insert?]
  split
  · rename_i h
    constructor
    · intro hnone; cases hnone
    · intro hno; exact absurd h hno.1
  · rename_i h
    constructor
    · intro hsome
      cases hsome
      exact ⟨h, rfl⟩
    · intro hrows
      exact congrArg some (ext hrows.2.symm)

theorem insert?_eq_none :
    t.insert? r = none ↔ t.hasKey (key r) = true := by
  rw [hasKey_iff, insert?]
  split
  · rename_i h
    simpa [mem_def] using h
  · rename_i h
    simpa [mem_def] using h

/-- A row with a free key can be inserted. -/
theorem exists_insert? (h : t.hasKey (key r) = false) :
    ∃ t', t.insert? r = some t' := by
  rw [← Option.ne_none_iff_exists', ne_eq, insert?_eq_none, h]
  exact Bool.false_ne_true

theorem mem_insert? {r s : α} (h : t.insert? r = some t') :
    s ∈ t' ↔ s ∈ t ∨ s = r := by
  rw [mem_def, (insert?_eq_some.mp h).2]
  simp [mem_def]

theorem find?_insert? (h : t.insert? r = some t') (k : κ) :
    t'.find? k = if key r = k then some r else t.find? k := by
  rw [Option.ext_iff]
  intro s
  rw [find?_eq_some, mem_insert? h]
  by_cases hk : key r = k
  · have hfree : ∀ s ∈ t, key s ≠ k := by
      intro s hs hsk
      have hfalse := (insert?_eq_some.mp h).1
      rw [hk, ← hsk, hasKey_of_mem hs] at hfalse
      cases hfalse
    simp only [hk, if_true, Option.some.injEq]
    constructor
    · rintro ⟨hs | rfl, hsk⟩
      · exact absurd hsk (hfree s hs)
      · rfl
    · rintro rfl
      exact ⟨.inr rfl, hk⟩
  · simp only [hk, if_false, find?_eq_some]
    constructor
    · rintro ⟨hs | rfl, hsk⟩
      · exact ⟨hs, hsk⟩
      · exact absurd hsk hk
    · rintro ⟨hs, hsk⟩
      exact ⟨.inl hs, hsk⟩

end Keys

/-! ### Deleting and updating -/

/-- Drop the rows that match. -/
def deleteWhere (t : KeyedTable α key) (p : α → Bool) : KeyedTable α key :=
  ⟨t.rows.filter fun r => !p r, t.nodup.sublist (List.filter_sublist.map key)⟩

@[simp] theorem mem_deleteWhere :
    r ∈ t.deleteWhere p ↔ r ∈ t ∧ p r = false := by
  simp [deleteWhere, mem_def]

/-- Rewrite the rows that match; the rewrite may not touch the key. -/
def updateWhere (t : KeyedTable α key) (p : α → Bool) (f : α → α)
    (hf : ∀ r, key (f r) = key r) : KeyedTable α key :=
  ⟨t.rows.map fun r => if p r then f r else r, by
    have hmap : (t.rows.map fun r => if p r then f r else r).map key = t.rows.map key := by
      rw [List.map_map]
      refine List.map_congr_left fun r _ => ?_
      show key (if p r then f r else r) = key r
      split
      · exact hf r
      · rfl
    rw [hmap]
    exact t.nodup⟩

variable {f : α → α}

theorem mem_updateWhere (hf : ∀ r, key (f r) = key r) {s : α} :
    s ∈ t.updateWhere p f hf ↔ ∃ r ∈ t, s = if p r then f r else r := by
  simp only [updateWhere, mem_def, List.mem_map, eq_comm]

/-- An update keeps exactly the keys that were there. -/
theorem hasKey_updateWhere [DecidableEq κ] (hf : ∀ r, key (f r) = key r) (k : κ) :
    (t.updateWhere p f hf).hasKey k = t.hasKey k := by
  rw [Bool.eq_iff_iff, hasKey_iff, hasKey_iff]
  constructor
  · rintro ⟨s, hs, rfl⟩
    obtain ⟨r, hr, rfl⟩ := (mem_updateWhere hf).mp hs
    refine ⟨r, hr, ?_⟩
    split
    · exact (hf r).symm
    · rfl
  · rintro ⟨r, hr, rfl⟩
    refine ⟨_, (mem_updateWhere hf).mpr ⟨r, hr, rfl⟩, ?_⟩
    split
    · exact hf r
    · rfl

theorem find?_updateWhere [DecidableEq κ] (hf : ∀ r, key (f r) = key r) (k : κ) :
    (t.updateWhere p f hf).find? k = (t.find? k).map fun r => if p r then f r else r := by
  have hkey : ∀ r, key (if p r then f r else r) = key r := by
    intro r
    split
    · exact hf r
    · rfl
  rw [Option.ext_iff]
  intro s
  rw [find?_eq_some, mem_updateWhere, Option.map_eq_some_iff]
  constructor
  · rintro ⟨⟨r, hr, rfl⟩, hk⟩
    exact ⟨r, find?_eq_some.mpr ⟨hr, (hkey r).symm.trans hk⟩, rfl⟩
  · rintro ⟨r, hr, rfl⟩
    obtain ⟨hmem, hk⟩ := find?_eq_some.mp hr
    exact ⟨⟨r, hmem, rfl⟩, (hkey r).trans hk⟩

/-- Reading one row after an update that the question does not depend on. -/
theorem selectOne_updateWhere (hf : ∀ r, key (f r) = key r) (hq : ∀ r, q (f r) = q r) :
    (t.updateWhere p f hf).selectOne q = (t.selectOne q).map fun r => if p r then f r else r := by
  have hsame : (q ∘ fun r => if p r then f r else r) = q := by
    funext r
    show q (if p r then f r else r) = q r
    split
    · exact hq r
    · rfl
  rw [selectOne, selectOne, updateWhere, List.find?_map, hsame]

/-! ### Counting -/

theorem select_insert? [DecidableEq κ] {t t' : KeyedTable α key}
    (h : t.insert? r = some t') (p : α → Bool) :
    t'.select p = t.select p ++ if p r then [r] else [] := by
  rw [select, (insert?_eq_some.mp h).2, List.filter_append, select]
  cases hr : p r <;> simp [hr]

theorem length_select_insert? [DecidableEq κ] {t t' : KeyedTable α key}
    (h : t.insert? r = some t') (p : α → Bool) :
    (t'.select p).length = (t.select p).length + if p r then 1 else 0 := by
  rw [select_insert? h, List.length_append]
  split
  · rfl
  · rfl

theorem length_select_le
    (h : ∀ r ∈ t, p r = true → q r = true) : (t.select p).length ≤ (t.select q).length := by
  rw [select, select, ← List.countP_eq_length_filter, ← List.countP_eq_length_filter]
  exact List.countP_mono_left h

/-- Deleting rows that a selection has none of. -/
theorem select_deleteWhere
    (h : ∀ r ∈ t, q r = true → p r = false) : (t.deleteWhere p).select q = t.select q := by
  rw [select, select, deleteWhere, List.filter_filter]
  apply List.filter_congr
  intro r hr
  cases hq : q r with
  | false => simp
  | true => simp [h r hr hq]

theorem length_select_deleteWhere_le (t : KeyedTable α key) (p q : α → Bool) :
    ((t.deleteWhere q).select p).length ≤ (t.select p).length :=
  (List.filter_sublist.filter p).length_le

/-- An update that the question does not depend on keeps the count. -/
theorem length_select_updateWhere (hf : ∀ r, key (f r) = key r) (hp : ∀ r, p (f r) = p r) :
    ((t.updateWhere q f hf).select p).length = (t.select p).length := by
  have hsame : (p ∘ fun r => if q r then f r else r) = p := by
    funext r
    show p (if q r then f r else r) = p r
    split
    · exact hp r
    · rfl
  rw [select, select, updateWhere, List.filter_map, List.length_map, hsame]

/-! ### Replacing -/

section Keys

variable [DecidableEq κ]

/-- Rows that are dropped for their keys. -/
theorem find?_deleteWhere_key (t : KeyedTable α key) (gone : κ → Bool) (k : κ) :
    (t.deleteWhere fun r => gone (key r)).find? k = if gone k then none else t.find? k := by
  rw [Option.ext_iff]
  intro r
  rw [find?_eq_some, mem_deleteWhere]
  cases hk : gone k with
  | true =>
    simp only [if_true]
    constructor
    · rintro ⟨⟨-, hstays⟩, rfl⟩
      rw [hk] at hstays
      cases hstays
    · intro hnone
      cases hnone
  | false =>
    simp only [Bool.false_eq_true, if_false, find?_eq_some]
    constructor
    · rintro ⟨⟨hr, -⟩, rfl⟩
      exact ⟨hr, rfl⟩
    · rintro ⟨hr, rfl⟩
      exact ⟨⟨hr, hk⟩, rfl⟩

/-- Drop the row with this key, if there is one. -/
def erase (t : KeyedTable α key) (k : κ) : KeyedTable α key :=
  t.deleteWhere fun r => decide (key r = k)

variable {t : KeyedTable α key}

theorem mem_erase {k : κ} {r : α} : r ∈ t.erase k ↔ r ∈ t ∧ key r ≠ k := by
  simp [erase]

theorem find?_erase (t : KeyedTable α key) (k k' : κ) :
    (t.erase k).find? k' = if k = k' then none else t.find? k' := by
  rw [erase, find?_deleteWhere_key t (fun k' => decide (k' = k))]
  simp [eq_comm]

/-- Dropping an absent key changes nothing. -/
theorem erase_of_find?_none {k : κ} (h : t.find? k = none) :
    t.erase k = t := by
  apply ext
  have hall := selectOne_none.mp h
  simp only [erase, deleteWhere, List.filter_eq_self]
  intro r hr
  rw [hall r hr]
  rfl

/-- Write a row in the place of the one with its key, if there is one. -/
def upsert (t : KeyedTable α key) (r : α) : KeyedTable α key :=
  ⟨(t.erase (key r)).rows ++ [r], by
    rw [List.map_append, List.nodup_append]
    refine ⟨(t.erase (key r)).nodup, by simp, ?_⟩
    intro a ha b hb heq
    obtain ⟨s, hs, rfl⟩ := List.mem_map.mp ha
    simp only [List.map_cons, List.map_nil, List.mem_singleton] at hb
    exact (mem_erase.mp (mem_def.mpr hs)).2 (heq.trans hb)⟩

/-- A row with a new key goes to the end. -/
theorem rows_upsert_of_find?_none {r : α} (h : t.find? (key r) = none) :
    (t.upsert r).rows = t.rows ++ [r] := by
  change (t.erase (key r)).rows ++ [r] = t.rows ++ [r]
  rw [erase_of_find?_none h]

theorem mem_upsert {r s : α} :
    s ∈ t.upsert r ↔ (s ∈ t ∧ key s ≠ key r) ∨ s = r := by
  rw [mem_def, upsert, List.mem_append, List.mem_singleton, ← mem_def, mem_erase]

theorem find?_upsert (t : KeyedTable α key) (r : α) (k : κ) :
    (t.upsert r).find? k = if key r = k then some r else t.find? k := by
  rw [Option.ext_iff]
  intro s
  rw [find?_eq_some, mem_upsert]
  by_cases hk : key r = k
  · simp only [hk, if_true, Option.some.injEq]
    constructor
    · rintro ⟨⟨-, hne⟩ | rfl, heq⟩
      · exact absurd heq hne
      · rfl
    · rintro rfl
      exact ⟨.inr rfl, hk⟩
  · simp only [hk, if_false, find?_eq_some]
    constructor
    · rintro ⟨⟨hs, -⟩ | rfl, heq⟩
      · exact ⟨hs, heq⟩
      · exact absurd heq hk
    · rintro ⟨hs, rfl⟩
      exact ⟨.inl ⟨hs, Ne.symm hk⟩, rfl⟩

/-- A second write with the same key takes the place of the first. -/
theorem upsert_upsert (t : KeyedTable α key) {r s : α} (h : key r = key s) :
    (t.upsert r).upsert s = t.upsert s := by
  apply ext
  simp [upsert, erase, deleteWhere, h, List.filter_append, List.filter_filter]

end Keys

/-! ### Totals -/

/-- The sum of a quantity over the rows. -/
def total (t : KeyedTable α key) (weight : α → Int) : Int := (t.rows.map weight).sum

@[simp] theorem total_empty (weight : α → Int) : (empty : KeyedTable α key).total weight = 0 := rfl

section Keys

variable [DecidableEq κ]

/-- What the row with this key contributes to a total. -/
def weightAt (t : KeyedTable α key) (weight : α → Int) (k : κ) : Int :=
  ((t.find? k).map weight).getD 0

/-- Taking one key out of a list with distinct keys takes out what it weighs. -/
theorem sum_filter_key (weight : α → Int) (k : κ) :
    ∀ rows : List α, (rows.map key).Nodup →
      ((rows.filter fun r => !decide (key r = k)).map weight).sum =
        (rows.map weight).sum -
          ((rows.find? fun r => decide (key r = k)).map weight).getD 0 := by
  intro rows
  induction rows with
  | nil => intro _; rfl
  | cons r rows ih =>
    intro hnodup
    rw [List.map_cons, List.nodup_cons] at hnodup
    by_cases hkey : key r = k
    · -- the key does not occur again
      have hrest : rows.filter (fun s => !decide (key s = k)) = rows := by
        rw [List.filter_eq_self]
        intro s hs
        have hne : key s ≠ k := fun h => hnodup.1 (List.mem_map.mpr ⟨s, hs, h.trans hkey.symm⟩)
        simp [hne]
      simp [hkey, hrest]
    · have := ih hnodup.2
      simp only [List.filter_cons, hkey, decide_false, Bool.not_false, if_true, List.map_cons,
        List.sum_cons, List.find?_cons]
      omega

theorem total_erase (t : KeyedTable α key) (weight : α → Int) (k : κ) :
    (t.erase k).total weight = t.total weight - t.weightAt weight k :=
  sum_filter_key weight k t.rows t.nodup

theorem total_upsert (t : KeyedTable α key) (weight : α → Int) (r : α) :
    (t.upsert r).total weight = t.total weight - t.weightAt weight (key r) + weight r := by
  rw [← total_erase]
  simp [total, upsert]

end Keys

end KeyedTable

end Relational
