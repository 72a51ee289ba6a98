import Peanut.Library.Limiter
import Peanut.Auth.AppKeys
import Peanut.Http.Limits

/-!
# What the limiters let through

`record_auth_attempt` keeps a queue that it trims from the front only; fed in the
order of time, it is a sliding window.  The counters of the addresses and of the app
keys are written apart and are one machine, a window that starts anew.  Instants
count whatever unit the clock has; `minute` is how many of them 60 seconds are.
-/

namespace Peanut

open Limiter

/-! ### The attempts at the public routes -/

/-- `record_auth_attempt`: the attempts that still count, the oldest first, and
    whether there was room for one more. -/
def recordAttempt (maxRequests window : Nat) (attempts : List Nat) (now : Nat) :
    List Nat × Bool :=
  let attempts := attempts.dropWhile fun attempt => decide (window < now - attempt)
  if maxRequests ≤ attempts.length then (attempts, false) else (attempts ++ [now], true)

theorem recordAuthAttempt_eq (attempts : List Nat) (now : Nat) :
    recordAuthAttempt attempts now =
      recordAttempt AUTH_RATE_LIMIT_MAX_REQUESTS AUTH_RATE_LIMIT_WINDOW attempts now := rfl

section Queue

variable {maxRequests window last t : Nat} {queue kept : List Nat}

/-- The queue holds the end of the accepted attempts; what was dropped left the
    window before the last attempt. -/
structure QueueHolds (window last : Nat) (queue kept : List Nat) : Prop where
  dropped : ∃ old, kept = old ++ queue ∧ ∀ a ∈ old, a + window < last
  sorted : kept.Pairwise (· ≤ ·)
  past : ∀ a ∈ kept, a ≤ last

theorem counts_of_mem_dropWhile {a : Nat} (hsorted : queue.Pairwise (· ≤ ·))
    (ha : a ∈ queue.dropWhile fun attempt => decide (window < t - attempt)) : t ≤ a + window := by
  induction queue with
  | nil => cases ha
  | cons b queue ih =>
    obtain ⟨hfirst, hrest⟩ := List.pairwise_cons.mp hsorted
    rw [List.dropWhile_cons] at ha
    split at ha
    · exact ih hrest ha
    next hcounts =>
      rw [decide_eq_true_eq] at hcounts
      apply (List.mem_cons.mp ha).elim
      · rintro rfl
        omega
      · intro ha
        have := hfirst a ha
        omega

theorem not_counts_of_mem_takeWhile {a : Nat}
    (ha : a ∈ queue.takeWhile fun attempt => decide (window < t - attempt)) : a + window < t := by
  have hdropped := List.mem_takeWhile_imp ha
  rw [decide_eq_true_eq] at hdropped
  omega

theorem QueueHolds.trimmed (h : QueueHolds window last queue kept) (ht : last ≤ t) :
    QueueHolds window t (queue.dropWhile fun attempt => decide (window < t - attempt)) kept ∧
      within window t kept =
        (queue.dropWhile fun attempt => decide (window < t - attempt)).length := by
  obtain ⟨⟨old, rfl, hold⟩, hsorted, hpast⟩ := h
  obtain ⟨-, hqueue, -⟩ := List.pairwise_append.mp hsorted
  have hgone : ∀ a ∈ old ++ queue.takeWhile fun attempt => decide (window < t - attempt),
      a + window < t := by
    intro a ha
    apply (List.mem_append.mp ha).elim
    · exact fun ha => Nat.lt_of_lt_of_le (hold a ha) ht
    · exact not_counts_of_mem_takeWhile
  have hsplit : old ++ queue =
      (old ++ queue.takeWhile fun attempt => decide (window < t - attempt)) ++
        queue.dropWhile fun attempt => decide (window < t - attempt) := by
    rw [List.append_assoc, List.takeWhile_append_dropWhile]
  refine ⟨⟨⟨_, hsplit, hgone⟩, hsorted, fun a ha => Nat.le_trans (hpast a ha) ht⟩, ?_⟩
  have hnone : within window t
      (old ++ queue.takeWhile fun attempt => decide (window < t - attempt)) = 0 := by
    rw [within, List.countP_eq_zero]
    intro a ha
    have := hgone a ha
    rw [decide_eq_true_eq]
    omega
  have hall : within window t (queue.dropWhile fun attempt => decide (window < t - attempt)) =
      (queue.dropWhile fun attempt => decide (window < t - attempt)).length := by
    rw [within, List.countP_eq_length]
    intro a ha
    have hmem := List.mem_append_right old ((List.dropWhile_suffix _).subset ha)
    exact decide_eq_true ⟨counts_of_mem_dropWhile hqueue ha, Nat.le_trans (hpast a hmem) ht⟩
  rw [hsplit, within, List.countP_append]
  exact (congrArg₂ (· + ·) hnone hall).trans (Nat.zero_add _)

theorem QueueHolds.step (h : QueueHolds window last queue kept) (ht : last ≤ t) :
    (recordAttempt maxRequests window queue t).2 = (slide maxRequests window kept t).2 ∧
      QueueHolds window t (recordAttempt maxRequests window queue t).1
        (slide maxRequests window kept t).1 := by
  obtain ⟨htrimmed, hcount⟩ := h.trimmed ht
  rw [recordAttempt, slide, hcount]
  by_cases hfull : maxRequests ≤
      (queue.dropWhile fun attempt => decide (window < t - attempt)).length
  · simp only [if_pos hfull, if_neg (Nat.not_lt.mpr hfull)]
    exact ⟨trivial, htrimmed⟩
  · simp only [if_neg hfull, if_pos (Nat.not_le.mp hfull)]
    refine ⟨trivial, ?_, ?_, ?_⟩
    · obtain ⟨old, hsplit, hold⟩ := htrimmed.dropped
      exact ⟨old, by rw [← List.append_assoc, ← hsplit], hold⟩
    · refine List.pairwise_append.mpr ⟨h.sorted, List.pairwise_singleton _ _, ?_⟩
      intro a ha b hb
      rw [List.mem_singleton.mp hb]
      exact htrimmed.past a ha
    · intro a ha
      apply (List.mem_append.mp ha).elim
      · exact htrimmed.past a
      · intro ha
        rw [List.mem_singleton.mp ha]

end Queue

/-- In the order of time, the queue and the window that forgets nothing answer alike. -/
theorem answers_recordAttempt (maxRequests window : Nat) {times : List Nat}
    (hsorted : times.Pairwise (· ≤ ·)) :
    answers (recordAttempt maxRequests window) [] times =
      answers (slide maxRequests window) [] times :=
  answers_congr (QueueHolds window) (fun _ _ _ _ ht h => h.step ht) hsorted
    (fun t _ => Nat.zero_le t) ⟨⟨[], rfl, fun _ h => absurd h List.not_mem_nil⟩, .nil,
      fun _ h => absurd h List.not_mem_nil⟩

/-- The attempts at `times` meet an exact sliding window. -/
structure SlidingWindow (maxRequests window : Nat) (times : List Nat) : Prop where
  accepted_iff : ∀ before t later, times = before ++ t :: later →
    (accepts (recordAttempt maxRequests window) [] before t = true ↔
      (accepted (recordAttempt maxRequests window) [] before).countP
        (fun a => decide (t ≤ a + window ∧ a ≤ t)) < maxRequests)
  interval_le : ∀ start, (accepted (recordAttempt maxRequests window) [] times).countP
    (fun a => decide (start ≤ a ∧ a ≤ start + window)) ≤ maxRequests
  refused_without_effect : ∀ before t later, times = before ++ t :: later →
    accepts (recordAttempt maxRequests window) [] before t = false →
    answers (recordAttempt maxRequests window) [] times =
      answers (recordAttempt maxRequests window) [] before ++ false ::
        (answers (recordAttempt maxRequests window) [] (before ++ later)).drop before.length

/-- **The limiter of the authentication is an exact sliding window.** -/
theorem recordAttempt_slidingWindow (maxRequests window : Nat) (times : List Nat)
    (hsorted : times.Pairwise (· ≤ ·)) : SlidingWindow maxRequests window times := by
  have hbefore : ∀ {before t later}, times = before ++ t :: later →
      (before ++ [t]).Pairwise (· ≤ ·) ∧ before.Pairwise (· ≤ ·) ∧
        (before ++ later).Pairwise (· ≤ ·) := by
    rintro before t later rfl
    refine ⟨hsorted.sublist ?_, hsorted.sublist ?_, hsorted.sublist ?_⟩
    · exact (List.Sublist.refl before).append ((List.nil_sublist later).cons_cons t)
    · exact List.sublist_append_left before _
    · exact (List.Sublist.refl before).append (List.sublist_cons_self t later)
  refine ⟨?_, ?_, ?_⟩
  · intro before t later htimes
    obtain ⟨hasked, hsorted, -⟩ := hbefore htimes
    rw [accepts_of_answers (answers_recordAttempt maxRequests window hasked),
      accepted_of_answers (answers_recordAttempt maxRequests window hsorted)]
    exact accepts_slide_iff
  · intro start
    rw [accepted_of_answers (answers_recordAttempt maxRequests window hsorted)]
    exact slide_interval_le hsorted start
  · intro before t later htimes hrefused
    obtain ⟨hasked, hsorted', hwithout⟩ := hbefore htimes
    rw [accepts_of_answers (answers_recordAttempt maxRequests window hasked)] at hrefused
    rw [answers_recordAttempt maxRequests window hsorted,
      answers_recordAttempt maxRequests window hsorted',
      answers_recordAttempt maxRequests window hwithout, htimes]
    exact answers_slide_refused hrefused

/-- Two attempts a minute: of five, the third and the fifth are refused. -/
theorem attempts_slidingWindow : SlidingWindow 2 60 [0, 10, 20, 61, 62] :=
  recordAttempt_slidingWindow 2 60 [0, 10, 20, 61, 62] (by decide)

example : answers (recordAttempt 2 60) [] [0, 10, 20, 61, 62] =
    [true, true, false, true, false] := by
  decide

/-! ### The counters -/

/-- `rate_limit_middleware`, up to the handler: the counters of the addresses, for a
    clock with `minute` instants in 60 seconds. -/
def rateLimitWithin (minute : Nat) (counters : String → Option (Nat × Nat))
    (clientIp : String) (now : Nat) :
    (String → Option (Nat × Nat)) × Except ApiError Unit :=
  let (count, lastReset) := (counters clientIp).getD (0, now)
  if minute < now - lastReset then
    (Function.update counters clientIp (some (1, now)), .ok ())
  else if 100 ≤ count then
    (Function.update counters clientIp (some (count, lastReset)),
      .error (jsonError .tooManyRequests "Too many requests. Please try again later."))
  else (Function.update counters clientIp (some (count + 1, lastReset)), .ok ())

/-- `enforce_app_key_rate_limit`: the counters of the app keys, for such a clock. -/
def enforceAppKeyRateLimitWithin (minute : Nat) (counters : String → Option (Nat × Nat))
    (keyId : String) (maxPerMinute now : Nat) :
    (String → Option (Nat × Nat)) × Except ApiError Unit :=
  let (count, lastReset) := (counters keyId).getD (0, now)
  if minute < now - lastReset then
    (Function.update counters keyId (some (1, now)), .ok ())
  else if maxPerMinute ≤ count then
    (Function.update counters keyId (some (count, lastReset)),
      .error (jsonError .tooManyRequests "app key rate limit exceeded"))
  else (Function.update counters keyId (some (count + 1, lastReset)), .ok ())

theorem rateLimitWithin_entry (minute : Nat) (clientIp : String)
    (counters : String → Option (Nat × Nat)) (now : Nat) :
    fixed 100 minute (counters clientIp) now =
      ((rateLimitWithin minute counters clientIp now).1 clientIp,
        Outcome.succeeded (rateLimitWithin minute counters clientIp now).2) := by
  simp only [rateLimitWithin, fixed]
  split
  · simp only [Function.update_self, Outcome.succeeded_ok]
  · split
    · simp only [Function.update_self, Outcome.succeeded_error]
    · simp only [Function.update_self, Outcome.succeeded_ok]

theorem enforceAppKeyRateLimitWithin_entry (minute maxPerMinute : Nat) (keyId : String)
    (counters : String → Option (Nat × Nat)) (now : Nat) :
    fixed maxPerMinute minute (counters keyId) now =
      ((enforceAppKeyRateLimitWithin minute counters keyId maxPerMinute now).1 keyId,
        Outcome.succeeded (enforceAppKeyRateLimitWithin minute counters keyId maxPerMinute
          now).2) := by
  simp only [enforceAppKeyRateLimitWithin, fixed]
  split
  · simp only [Function.update_self, Outcome.succeeded_ok]
  · split
    · simp only [Function.update_self, Outcome.succeeded_error]
    · simp only [Function.update_self, Outcome.succeeded_ok]

theorem rateLimit_eq (limits : RateLimits) (r : HttpRequest) :
    rateLimit limits r =
      ({ limits with
          global := (rateLimitWithin 60000 limits.global r.clientIp r.instant).1 },
        (rateLimitWithin 60000 limits.global r.clientIp r.instant).2) := by
  cases hentry : limits.global r.clientIp with
  | none => simp [rateLimit, countRequest, rateLimitWithin, hentry]
  | some counter =>
    obtain ⟨count, lastReset⟩ := counter
    simp only [rateLimit, countRequest, rateLimitWithin, hentry, Option.getD_some]
    by_cases hlate : 60000 < r.instant - lastReset
    · simp only [if_pos hlate]
    · by_cases hfull : 100 ≤ count
      · simp only [if_neg hlate, if_pos hfull]
        rw [← hentry, Function.update_eq_self]
      · simp only [if_neg hlate, if_neg hfull]

theorem enforceAppKeyRateLimit_eq (counters : AppKeyCounters) (keyId : String)
    (maxPerMinute now : Nat) :
    enforceAppKeyRateLimit counters keyId maxPerMinute now =
      enforceAppKeyRateLimitWithin 60000 counters keyId maxPerMinute now := rfl

/-- One address, asked at one instant after the other. -/
def addressLimiter (minute : Nat) (clientIp : String) (counters : String → Option (Nat × Nat))
    (now : Nat) : (String → Option (Nat × Nat)) × Bool :=
  let answer := rateLimitWithin minute counters clientIp now
  (answer.1, Outcome.succeeded answer.2)

/-- One app key, asked at one instant after the other. -/
def appKeyLimiter (minute maxPerMinute : Nat) (keyId : String)
    (counters : String → Option (Nat × Nat)) (now : Nat) :
    (String → Option (Nat × Nat)) × Bool :=
  let answer := enforceAppKeyRateLimitWithin minute counters keyId maxPerMinute now
  (answer.1, Outcome.succeeded answer.2)

def noCounters : String → Option (Nat × Nat) := fun _ => none

/-- The counter of an app key after requests at these instants. -/
def appKeyCounter (minute maxPerMinute : Nat) (keyId : String) (times : List Nat) :
    Option (Nat × Nat) :=
  after (appKeyLimiter minute maxPerMinute keyId) noCounters times keyId

theorem appKeyCounter_eq (minute maxPerMinute : Nat) (keyId : String) (times : List Nat) :
    appKeyCounter minute maxPerMinute keyId times =
      after (fixed maxPerMinute minute) none times :=
  after_map (f := fun counters => counters keyId)
    (enforceAppKeyRateLimitWithin_entry minute maxPerMinute keyId) noCounters times

theorem answers_appKey (minute maxPerMinute : Nat) (keyId : String)
    (counters : String → Option (Nat × Nat)) (times : List Nat) :
    answers (appKeyLimiter minute maxPerMinute keyId) counters times =
      answers (fixed maxPerMinute minute) (counters keyId) times :=
  answers_map (f := fun counters : String → Option (Nat × Nat) => counters keyId)
    (enforceAppKeyRateLimitWithin_entry minute maxPerMinute keyId) counters times

theorem answers_address (minute : Nat) (clientIp : String)
    (counters : String → Option (Nat × Nat)) (times : List Nat) :
    answers (addressLimiter minute clientIp) counters times =
      answers (fixed 100 minute) (counters clientIp) times :=
  answers_map (f := fun counters : String → Option (Nat × Nat) => counters clientIp)
    (rateLimitWithin_entry minute clientIp) counters times

/-- After the requests at `before`, the window of the key is reset at `t` and not again
    at `mid`. -/
def ResetAt (minute maxPerMinute : Nat) (keyId : String) (before : List Nat) (t : Nat)
    (mid : List Nat) : Prop :=
  restarts minute (appKeyCounter minute maxPerMinute keyId before) t = true ∧
    ∀ mid₁ u mid₂, mid = mid₁ ++ u :: mid₂ →
      restarts minute (appKeyCounter minute maxPerMinute keyId (before ++ t :: mid₁)) u = false

theorem ResetAt.oneWindow {minute maxPerMinute : Nat} {keyId : String} {before mid : List Nat}
    {t : Nat} (h : ResetAt minute maxPerMinute keyId before t mid) :
    OneWindow maxPerMinute minute before t mid := by
  obtain ⟨hreset, hmid⟩ := h
  rw [appKeyCounter_eq] at hreset
  refine ⟨hreset, ?_⟩
  intro mid₁ u mid₂ hsplit
  have hu := hmid mid₁ u mid₂ hsplit
  rwa [appKeyCounter_eq] at hu

/-- What an app key may do at `times`. -/
structure AppKeyWindows (minute maxPerMinute : Nat) (keyId : String) (times : List Nat) :
    Prop where
  window_le : ∀ before t mid later, times = before ++ t :: (mid ++ later) →
    ResetAt minute maxPerMinute keyId before t mid →
    (accepted (appKeyLimiter minute maxPerMinute keyId)
      (after (appKeyLimiter minute maxPerMinute keyId) noCounters before) (t :: mid)).length ≤
        maxPerMinute
  interval_le : ∀ start,
    (accepted (appKeyLimiter minute maxPerMinute keyId) noCounters times).countP
    (fun a => decide (start ≤ a ∧ a ≤ start + minute)) ≤ 2 * maxPerMinute
  accepted_later : ∀ before r mid t later, times = before ++ r :: (mid ++ t :: later) →
    ResetAt minute maxPerMinute keyId before r mid → r + minute < t →
    accepts (appKeyLimiter minute maxPerMinute keyId) noCounters (before ++ r :: mid) t = true

theorem appKeyWindows (minute : Nat) {maxPerMinute : Nat} (hmax : 0 < maxPerMinute)
    (keyId : String) {times : List Nat} (hsorted : times.Pairwise (· ≤ ·)) :
    AppKeyWindows minute maxPerMinute keyId times where
  window_le before t mid later _ hreset := by
    obtain ⟨count, -, hle⟩ := hreset.oneWindow.after_eq hmax
    rw [accepted_of_answers (answers_appKey minute maxPerMinute keyId _ (t :: mid))]
    rw [← appKeyCounter_eq minute maxPerMinute keyId] at hle
    exact hle
  interval_le start := by
    rw [accepted_of_answers (answers_appKey minute maxPerMinute keyId noCounters times)]
    exact fixed_interval_le hmax hsorted start
  accepted_later before r mid t later _ hreset ht := by
    rw [accepts_of_answers (answers_appKey minute maxPerMinute keyId noCounters _)]
    exact hreset.oneWindow.accepts_later hmax ht

/-- **The limiters that count from a reset agree and are bounded.** -/
theorem reset_limiters_agree_and_bounded (minute : Nat) (clientIp keyId : String)
    (times : List Nat) (hsorted : times.Pairwise (· ≤ ·)) :
    answers (appKeyLimiter minute 100 keyId) noCounters times =
        answers (addressLimiter minute clientIp) noCounters times ∧
      accepted (appKeyLimiter minute 100 keyId) noCounters times =
        accepted (addressLimiter minute clientIp) noCounters times ∧
      ∀ maxPerMinute, 1 ≤ maxPerMinute → AppKeyWindows minute maxPerMinute keyId times := by
  have hanswers : answers (appKeyLimiter minute 100 keyId) noCounters times =
      answers (addressLimiter minute clientIp) noCounters times := by
    rw [answers_appKey, answers_address]
    rfl
  exact ⟨hanswers, accepted_of_answers hanswers, fun _ hmax =>
    appKeyWindows minute hmax keyId hsorted⟩

theorem three_requests_agree_and_bounded :
    answers (appKeyLimiter 60 100 "k") noCounters [0, 30, 61] =
        answers (addressLimiter 60 "10.0.0.1") noCounters [0, 30, 61] ∧
      accepted (appKeyLimiter 60 100 "k") noCounters [0, 30, 61] =
        accepted (addressLimiter 60 "10.0.0.1") noCounters [0, 30, 61] ∧
      ∀ maxPerMinute, 1 ≤ maxPerMinute → AppKeyWindows 60 maxPerMinute "k" [0, 30, 61] :=
  reset_limiters_agree_and_bounded 60 "10.0.0.1" "k" [0, 30, 61] (by decide)

/-- Around a reset, twice the limit is met. -/
example : accepted (appKeyLimiter 60 2 "k") noCounters [0, 60, 60, 61, 61, 61] =
    [0, 60, 61, 61] := by decide

end Peanut
