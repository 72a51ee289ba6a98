import Peanut.Library.Outcome

/-!
# Rows of a query

A query returns the columns its `SELECT` list names; a record is read from such a
row by taking its fields out one column at a time.  Reading a column the query did
not select fails, whatever the table holds.
-/

namespace Relational

universe u

/-- Why a record could not be read. -/
inductive RowError (κ : Type u) where
  | rowNotFound
  | columnNotFound (column : κ)
  | columnDecode (column : κ)
deriving DecidableEq

/-- The columns of one row of a query's result, in the order of the `SELECT` list. -/
structure ResultRow (κ : Type u) (ν : Type u) where
  cells : List (κ × ν)

namespace ResultRow

variable {κ ν β : Type u} [DecidableEq κ]

/-- `SELECT columns` of a stored row whose columns hold `cell`. -/
def select (columns : List κ) (cell : κ → ν) : ResultRow κ ν :=
  ⟨columns.map fun k => (k, cell k)⟩

/-- Read a column as a value of the field's type. -/
def tryGet (row : ResultRow κ ν) (decode : ν → Option β) (k : κ) : Except (RowError κ) β := do
  let cell ← Outcome.require (row.cells.lookup k) (.columnNotFound k)
  Outcome.require (decode cell) (.columnDecode k)

theorem lookup_select (columns : List κ) (cell : κ → ν) (k : κ) :
    (select columns cell).cells.lookup k = if k ∈ columns then some (cell k) else none := by
  induction columns with
  | nil => rfl
  | cons c rest ih =>
    rw [select, List.map_cons, List.lookup_cons]
    by_cases hk : k = c
    · simp [hk]
    · have hbeq : (k == c) = false := by simpa using hk
      rw [hbeq]
      simpa [hk, select] using ih

/-- A column can be read exactly when it was selected and holds what the field is. -/
theorem tryGet_select_eq_ok {columns : List κ} {cell : κ → ν} {decode : ν → Option β} {k : κ}
    {b : β} : (select columns cell).tryGet decode k = .ok b ↔ k ∈ columns ∧
      decode (cell k) = some b := by
  simp only [tryGet, lookup_select, Outcome.bind_eq_ok, Outcome.require_eq_ok]
  by_cases hk : k ∈ columns
  · simp [hk]
  · simp [hk]

end ResultRow

end Relational
