import Mathlib.Data.List.Basic
import Mathlib.Order.Nat

/-!
# Receivers of a broadcast

Values are sent to whoever listens.  A receiver hears what is sent after it was opened, in
the order of sending, and takes one value at a time.  The channel keeps the latest values
only: a receiver that is further behind is set forward and misses what lies between.  What
it has taken is then a part, in order, of what was sent since, and the whole of it when it
has missed nothing (`Heard`, `Heard.all`).
-/

namespace Broadcast

universe u

variable {α : Type u}

/-- How the channel sets a receiver forward that is at `next` when `sent` values have been
    sent: to a place behind, and only if more than `capacity` values wait for it. -/
structure Lag (capacity : Nat) where
  resume : Nat → Nat → Nat
  le_resume : ∀ sent next, next ≤ resume sent next
  resume_le : ∀ {sent next}, next ≤ sent → resume sent next ≤ sent
  resume_kept : ∀ {sent next}, sent ≤ next + capacity → resume sent next = next

/-- To the oldest value that is kept. -/
def Lag.oldest (capacity : Nat) : Lag capacity where
  resume sent next := max next (sent - capacity)
  le_resume _ _ := Nat.le_max_left ..
  resume_le h := Nat.max_le.mpr ⟨h, Nat.sub_le ..⟩
  resume_kept h := Nat.max_eq_left (Nat.sub_le_of_le_add h)

structure Receiver (α : Type u) where
  /-- So many values were sent before. -/
  opened : Nat
  next : Nat
  missed : Nat
  taken : List α

namespace Receiver

/-- `subscribe`. -/
def subscribe (sent : List α) : Receiver α :=
  { opened := sent.length, next := sent.length, missed := 0, taken := [] }

/-- The next item: the report that the receiver lags, or a value if there is one. -/
def poll {capacity : Nat} (lag : Lag capacity) (sent : List α) (r : Receiver α) : Receiver α :=
  let resumed := lag.resume sent.length r.next
  if r.next < resumed then
    { r with next := resumed, missed := r.missed + (resumed - r.next) }
  else
    match sent[r.next]? with
    | some a => { r with next := r.next + 1, taken := r.taken ++ [a] }
    | none => r

/-- More than the channel keeps is waiting. -/
def Behind (capacity : Nat) (sent : List α) (r : Receiver α) : Prop :=
  r.next + capacity < sent.length

end Receiver

/-- **What the receiver has heard** of what was sent. -/
structure Heard (sent : List α) (r : Receiver α) : Prop where
  opened_le : r.opened ≤ r.next
  next_le : r.next ≤ sent.length
  sublist : r.taken.Sublist ((sent.drop r.opened).take (r.next - r.opened))
  counted : r.taken.length + r.missed = r.next - r.opened

variable {capacity : Nat} {lag : Lag capacity} {sent : List α} {r : Receiver α}

theorem heard_subscribe (sent : List α) : Heard sent (Receiver.subscribe sent) where
  opened_le := Nat.le_refl _
  next_le := Nat.le_refl _
  sublist := List.nil_sublist _
  counted := by simp [Receiver.subscribe]

/-- What is sent later does not change what has been heard. -/
theorem Heard.send (h : Heard sent r) (more : List α) : Heard (sent ++ more) r where
  opened_le := h.opened_le
  next_le := by
    rw [List.length_append]
    exact h.next_le.trans (Nat.le_add_right ..)
  sublist := by
    have hopened := h.opened_le.trans h.next_le
    have hlength : r.next - r.opened ≤ (sent.drop r.opened).length := by
      rw [List.length_drop]
      exact Nat.sub_le_sub_right h.next_le _
    rw [List.drop_append_of_le_length hopened, List.take_append_of_le_length hlength]
    exact h.sublist
  counted := h.counted

theorem take_drop_succ {n m : Nat} (hle : n ≤ m) {a : α} (h : sent[m]? = some a) :
    (sent.drop n).take (m + 1 - n) = (sent.drop n).take (m - n) ++ [a] := by
  have hget : (sent.drop n)[m - n]? = some a := by
    rw [List.getElem?_drop, Nat.add_sub_cancel' hle, h]
  rw [Nat.sub_add_comm hle, List.take_add_one, hget]
  rfl

theorem Heard.poll (h : Heard sent r) (lag : Lag capacity) : Heard sent (r.poll lag sent) := by
  unfold Receiver.poll
  dsimp only
  split
  · rename_i hlags
    have hresumed := lag.resume_le h.next_le
    refine ⟨h.opened_le.trans hlags.le, hresumed, ?_, ?_⟩
    · refine h.sublist.trans (List.take_sublist_take_left ?_)
      exact Nat.sub_le_sub_right hlags.le _
    · have hopened := h.opened_le
      have hcounted := h.counted
      dsimp only
      omega
  · split
    · rename_i a ha
      obtain ⟨hlt, -⟩ := List.getElem?_eq_some_iff.mp ha
      refine ⟨h.opened_le.trans (Nat.le_succ _), hlt, ?_, ?_⟩
      · dsimp only
        rw [take_drop_succ h.opened_le ha]
        exact h.sublist.append (List.Sublist.refl _)
      · have hopened := h.opened_le
        have hcounted := h.counted
        simp only [List.length_append, List.length_singleton]
        omega
    · exact h

@[simp] theorem Receiver.opened_poll (lag : Lag capacity) (sent : List α) (r : Receiver α) :
    (r.poll lag sent).opened = r.opened := by
  unfold Receiver.poll
  dsimp only
  split
  · rfl
  · split
    · rfl
    · rfl

/-- Only a receiver that is behind misses anything. -/
theorem missed_poll (hbehind : ¬ r.Behind capacity sent) :
    (r.poll lag sent).missed = r.missed := by
  have hkept := lag.resume_kept (Nat.not_lt.mp hbehind)
  unfold Receiver.poll
  dsimp only
  rw [hkept, if_neg (lt_irrefl _)]
  split
  · rfl
  · rfl

/-- **Who has missed nothing** has taken everything up to where it is. -/
theorem Heard.all (h : Heard sent r) (hmissed : r.missed = 0) :
    r.taken = (sent.drop r.opened).take (r.next - r.opened) := by
  refine h.sublist.eq_of_length_le ?_
  have hcounted := h.counted
  rw [hmissed] at hcounted
  rw [List.length_take]
  omega

theorem Heard.taken_eq (h : Heard sent r) (hmissed : r.missed = 0) (hnext : r.next = sent.length) :
    r.taken = sent.drop r.opened := by
  rw [h.all hmissed, hnext, ← List.length_drop, List.take_length]

end Broadcast
