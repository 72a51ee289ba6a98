import Peanut.Push.Worker
import Peanut.Timestamps

/-!
# When a scheduled message is due

`enqueue_push` stores the client's `scheduled_at` as it is, and the worker compares
it as a text with `CURRENT_TIMESTAMP`.  The comparison is right when the date as it
is written decides, and hardly ever on the day itself.
-/

namespace Peanut

open Relational

/-! ### The first ten -/

/-- In a sorted list an element with fewer than `k` smaller ones is one of the first `k`. -/
theorem mem_take_of_countP_lt {l : List Nat} (hsorted : l.Pairwise (· ≤ ·)) {x k : Nat}
    (hx : x ∈ l) (hfew : l.countP (· < x) < k) : x ∈ l.take k := by
  induction l generalizing k with
  | nil => cases hx
  | cons a l ih =>
    obtain ⟨k, rfl⟩ := Nat.exists_eq_succ_of_ne_zero (Nat.ne_of_gt (Nat.zero_lt_of_lt hfew))
    rw [List.take_succ_cons]
    rcases List.mem_cons.mp hx with rfl | hmem
    · exact List.mem_cons_self
    · rw [List.pairwise_cons] at hsorted
      rcases Nat.lt_or_eq_of_le (hsorted.1 x hmem) with hlt | rfl
      · rw [List.countP_cons_of_pos (by simpa using hlt)] at hfew
        exact List.mem_cons_of_mem _ (ih hsorted.2 hmem (by omega))
      · exact List.mem_cons_self

/-- A message the worker would select if it were due: it is pending, no retry is,
    and fewer than ten older ones are due. -/
structure AwaitsTurn (db : Db) (env : Env) (m : PushMessage) : Prop where
  mem : m ∈ db.pushQueue
  pending : m.status = "pending"
  noRetry : m.nextRetryAt = none
  turn : (db.pushQueue.select fun n => n.isDue env && decide (n.id < m.id)).length < 10

theorem AwaitsTurn.mem_pendingIds_iff {db : Db} {env : Env} {m : PushMessage}
    (h : AwaitsTurn db env m) : m.id ∈ pendingIds db env ↔ m.isDue env = true := by
  have hmem : ∀ x, x ∈ ((db.pushQueue.select (·.isDue env)).map (·.id)).insertionSort (· ≤ ·) ↔
      ∃ n ∈ db.pushQueue, n.isDue env = true ∧ n.id = x := by
    intro x
    rw [List.mem_insertionSort, List.mem_map]
    simp only [KeyedTable.mem_select, and_assoc]
  rw [pendingIds]
  constructor
  · intro hid
    obtain ⟨n, hn, hdue, heq⟩ := (hmem m.id).mp (List.mem_of_mem_take hid)
    rw [← db.pushQueue.eq_of_key_eq hn h.mem heq]
    exact hdue
  · intro hdue
    apply mem_take_of_countP_lt
    · exact List.pairwise_insertionSort _ _
    · exact (hmem m.id).mpr ⟨m, h.mem, hdue, rfl⟩
    · rw [(List.perm_insertionSort _ _).countP_eq, List.countP_map, List.countP_eq_length_filter]
      have hturn := h.turn
      rw [KeyedTable.select] at hturn ⊢
      rw [List.filter_filter]
      refine Nat.lt_of_le_of_lt (Nat.le_of_eq ?_) hturn
      apply congrArg List.length
      apply List.filter_congr
      intro n _
      exact Bool.and_comm _ _

/-! ### The instant and the text -/

/-- How far the written time of day, taken with its offset, is ahead of the clock's. -/
def Rfc3339.lead (s : Rfc3339) (now : UtcTime) : ℚ :=
  s.time.seconds + Rfc3339.fractionValue s.fraction - s.offset.seconds - now.time.seconds

/-- The date as it is written and the separator say the same as the instant does. -/
structure TextDecides (s : Rfc3339) (now : UtcTime) : Prop where
  earlier : s.date.before now.date →
    s.lead now ≤ 86400 * (now.date.dayNumber - s.date.dayNumber : ℚ)
  later : now.date.before s.date →
    -86400 * (s.date.dayNumber - now.date.dayNumber : ℚ) < s.lead now
  same : s.date = now.date →
    (s.separator = .space ∧ s.time.before now.time ↔ s.lead now ≤ 0)

theorem Rfc3339.instant_le_iff (s : Rfc3339) (now : UtcTime) : s.instant ≤ now.instant ↔
    s.lead now ≤ 86400 * (now.date.dayNumber - s.date.dayNumber : ℚ) := by
  rw [instant, UtcTime.instant, lead]
  constructor
  · intro h
    linarith
  · intro h
    linarith

theorem isDue_of_scheduled {m : PushMessage} {env : Env} {s : Rfc3339} {now : UtcTime}
    (hpending : m.status = "pending") (hretry : m.nextRetryAt = none)
    (hscheduled : m.scheduledAt = some s.text) (hnow : env.now = now.text) :
    m.isDue env = true ↔ s.date.before now.date ∨
      s.date = now.date ∧ s.separator = .space ∧ s.time.before now.time := by
  have hdue : m.isDue env = !strLt now.text s.text := by
    simp [PushMessage.isDue, notAfter, hpending, hretry, hscheduled, hnow]
  rw [hdue, Bool.not_eq_true', ← Bool.not_eq_true, s.strLt_text now, not_not]

/-- **A scheduled message is selected at its instant** exactly if the text decides. -/
theorem scheduled_selected_iff {db : Db} {env sent : Env} {input : EnqueuePushInput}
    {m : PushMessage} {s : Rfc3339} {now : UtcTime} (hinput : input.scheduledAt = some s.text)
    (hrow : m.scheduledAt = (input.message sent).scheduledAt) (hturn : AwaitsTurn db env m)
    (hnow : env.now = now.text) :
    (m.id ∈ pendingIds db env ↔ s.instant ≤ now.instant) ↔ TextDecides s now := by
  rw [hturn.mem_pendingIds_iff,
    isDue_of_scheduled hturn.pending hturn.noRetry (hrow.trans hinput) hnow, s.instant_le_iff]
  constructor
  · intro hsame
    refine ⟨?_, ?_, ?_⟩
    · intro hbefore
      exact hsame.mp (.inl hbefore)
    · intro hafter
      have hnot : ¬ (s.date.before now.date ∨
          s.date = now.date ∧ s.separator = .space ∧ s.time.before now.time) := by
        rintro (hbefore | ⟨heq, -⟩)
        · exact CivilDate.before_asymm hafter hbefore
        · rw [heq] at hafter
          exact CivilDate.before_irrefl _ hafter
      have hlt := lt_of_not_ge (fun hle => hnot (hsame.mpr hle))
      linarith
    · intro heq
      rw [heq] at hsame
      simpa [CivilDate.before_irrefl] using hsame
  · intro hdecides
    rcases CivilDate.before_trichotomy s.date now.date with hlt | heq | hgt
    · exact iff_of_true (.inl hlt) (hdecides.earlier hlt)
    · have hsame := hdecides.same heq
      rw [heq]
      simpa [CivilDate.before_irrefl] using hsame
    · apply iff_of_false
      · rintro (hbefore | ⟨heq, -⟩)
        · exact CivilDate.before_asymm hgt hbefore
        · rw [heq] at hgt
          exact CivilDate.before_irrefl _ hgt
      · have hlt := hdecides.later hgt
        intro hle
        linarith

/-- A text in UTC, with the letter between its parts, is wrong on its own day from its
    instant on, and right otherwise. -/
theorem textDecides_utc_iff {s : Rfc3339} {now : UtcTime} {upper : Bool}
    (hoffset : s.offset = .zulu upper) (hletter : s.separator ≠ .space)
    (hleap : s.time.second < 60) :
    TextDecides s now ↔ (s.date = now.date → now.instant < s.instant) := by
  have hlead : s.lead now =
      s.time.seconds + Rfc3339.fractionValue s.fraction - now.time.seconds := by
    rw [Rfc3339.lead, hoffset]
    simp [TimeOffset.seconds]
  have hday : ∀ t : TimeOfDay, t.second < 60 → (t.seconds : ℚ) ≤ 86399 := by
    intro t ht
    have hle : t.seconds ≤ 86399 := by
      have hhour := t.hour_lt
      have hminute := t.minute_lt
      unfold TimeOfDay.seconds
      omega
    exact_mod_cast hle
  have hdistance : ∀ a b : CivilDate, a.before b → (1 : ℚ) ≤ b.dayNumber - a.dayNumber := by
    intro a b hbefore
    have hlt : ((a.dayNumber + 1 : Nat) : ℚ) ≤ b.dayNumber :=
      Nat.cast_le.mpr (CivilDate.dayNumber_lt hbefore)
    rw [Nat.cast_add, Nat.cast_one] at hlt
    linarith
  obtain ⟨hnonneg, hone⟩ := Rfc3339.fractionValue_range s.fraction
  have htime := hday s.time hleap
  have hclock := hday now.time now.no_leap
  have hfirst : (0 : ℚ) ≤ s.time.seconds := Nat.cast_nonneg _
  have hfirst' : (0 : ℚ) ≤ now.time.seconds := Nat.cast_nonneg _
  have hinstant : s.date = now.date → (now.instant < s.instant ↔ ¬ s.lead now ≤ 0) := by
    intro heq
    rw [← not_le, s.instant_le_iff, heq, sub_self, mul_zero]
  constructor
  · intro hdecides heq
    rw [hinstant heq]
    intro hle
    exact hletter ((hdecides.same heq).mpr hle).1
  · intro hfuture
    refine ⟨?_, ?_, ?_⟩
    · intro hbefore
      have hdays := hdistance _ _ hbefore
      rw [hlead]
      linarith
    · intro hafter
      have hdays := hdistance _ _ hafter
      rw [hlead]
      linarith
    · intro heq
      exact iff_of_false (fun hspace => hletter hspace.1) ((hinstant heq).mp (hfuture heq))

/-! ### Noon -/

def juneDay (day : Nat) (h : 1 ≤ day ∧ day ≤ 30) : CivilDate :=
  { year := 2026, month := 6, day := day, year_lt := by decide, month_range := by decide
    day_range := h }

/-- `2026-06-19T12:00:00Z`. -/
def juneNoon : Rfc3339 :=
  { date := juneDay 19 (by decide), separator := .upper
    time := ⟨12, 0, 0, by decide, by decide, by decide⟩, fraction := [], offset := .zulu true }

def noonInput : EnqueuePushInput :=
  { appId := "shop", claims := { sub := "ada", appId := "shop", exp := 0, isAdmin := true }
    title := "Hello", body := "World", scheduledAt := some juneNoon.text }

def noonMessage : PushMessage := { noonInput.message (sampleEnv "n") with id := 1 }

def noonDb : Db := { pushQueue := ⟨[noonMessage], by simp⟩, pushQueueSeq := 1 }

/-- An hour later, and the midnight after that. -/
def juneAfternoon : UtcTime :=
  ⟨juneDay 19 (by decide), ⟨13, 0, 0, by decide, by decide, by decide⟩, by decide⟩

def juneMidnight : UtcTime :=
  ⟨juneDay 20 (by decide), ⟨0, 0, 0, by decide, by decide, by decide⟩, by decide⟩

def envAt (now : UtcTime) : Env := { sampleEnv "w" with now := now.text }

theorem noonMessage_awaitsTurn (now : UtcTime) : AwaitsTurn noonDb (envAt now) noonMessage := by
  refine ⟨List.mem_singleton_self _, rfl, rfl, ?_⟩
  exact Nat.lt_of_le_of_lt (List.length_filter_le _ _) (by decide)

theorem noon_selected_at_midnight :
    noonMessage.id ∈ pendingIds noonDb (envAt juneMidnight) ↔
      juneNoon.instant ≤ juneMidnight.instant := by
  refine (@scheduled_selected_iff noonDb (envAt juneMidnight) (sampleEnv "n") noonInput noonMessage
    juneNoon juneMidnight rfl rfl (noonMessage_awaitsTurn _) rfl).mpr ?_
  apply (@textDecides_utc_iff juneNoon juneMidnight true rfl (by decide) (by decide)).mpr
  intro heq
  exact absurd heq (by decide)

/-- At one o'clock the message of noon is not selected. -/
theorem noon_not_selected_in_afternoon :
    AwaitsTurn noonDb (envAt juneAfternoon) noonMessage ∧
      noonMessage.scheduledAt = some "2026-06-19T12:00:00Z" ∧
      (envAt juneAfternoon).now = "2026-06-19 13:00:00" ∧
      ¬ (noonMessage.id ∈ pendingIds noonDb (envAt juneAfternoon) ↔
        juneNoon.instant ≤ juneAfternoon.instant) := by
  refine ⟨noonMessage_awaitsTurn _, by decide +kernel, by decide +kernel, ?_⟩
  have hnot : noonMessage.id ∉ pendingIds noonDb (envAt juneAfternoon) := by decide +kernel
  have hdue : juneNoon.instant ≤ juneAfternoon.instant := by decide +kernel
  intro hsame
  exact hnot (hsame.mpr hdue)

end Peanut
