import Mathlib.Data.Prod.Lex
import Peanut.Library.KeysetPaging
import Peanut.Storage.Grouping

/-!
# The newest first

`ORDER BY created_at DESC, id DESC`, in which the lists of the console are sorted.
-/

namespace Peanut

/-- A row has a time and an id. -/
abbrev RowStamp := String × String

def newestFirst (a b : RowStamp) : Bool := strLt b.1 a.1 || (b.1 == a.1 && !strLt a.2 b.2)

theorem newestFirst_eq (a b : RowStamp) : newestFirst a b = decide (toLex b ≤ toLex a) := by
  rw [Bool.eq_iff_iff, decide_eq_true_eq, Prod.Lex.toLex_le_toLex, newestFirst, Bool.or_eq_true,
    Bool.and_eq_true, strLt_iff_lt, beq_iff_eq, Bool.not_eq_true', strLt_eq_false_iff]

theorem mergeSort_newestFirst {α : Type*} (stamp : α → RowStamp) (rows : List α) :
    (rows.mergeSort fun a b => newestFirst (stamp a) (stamp b)) =
      KeysetPaging.descending (fun a => toLex (stamp a)) rows := by
  rw [KeysetPaging.descending]
  congr 1
  funext a b
  exact newestFirst_eq (stamp a) (stamp b)

theorem keyed_of_nodup {α : Type*} (stamp : α → RowStamp) {rows : List α}
    (h : (rows.map fun a => (stamp a).2).Nodup) :
    KeysetPaging.Keyed (fun a => toLex (stamp a)) rows := by
  rw [List.Nodup, List.pairwise_map] at h
  exact h.imp fun hne heq => hne (congrArg Prod.snd (toLex.injective heq))

end Peanut
