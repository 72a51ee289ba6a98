import Peanut.Push.Worker
import Mathlib.Data.Fintype.Basic

/-!
# Several push workers

Any number of calls of `process_queue_with_deliveries` over one queue.  A claim is
guarded by the status of the message, but the update that ends a round is not: a
message that is taken back from a call that still works on it is claimed by a
second one, and both write an outcome.  As long as only abandoned messages are
taken back, at most one call holds a message, and what is sent or failed stays so.
-/

namespace Peanut

open Relational Interleaving

/-! ### What one statement does to the queue -/

/-- The status of a message. -/
def pushStatus (db : Db) (id : Nat) : Option String := (db.pushQueue.find? id).map (·.status)

def isTerminalStatus (status : String) : Prop := status = "sent" ∨ status = "failed"

namespace PushRun

variable {e : WorkerEnv} {db : Db} {r : PushRun}

theorem held_moveDelivery (round : PushRound) (rest : List Nat) :
    (r.moveDelivery e round rest).stage.held = some round.item.id := by
  unfold moveDelivery
  dsimp only
  split
  · rfl
  · split
    · rfl
    · rfl

/-- **What one tick can do** to the queue and to the message a call holds. -/
theorem step_cases (e : WorkerEnv) (db : Db) (r : PushRun) :
    (r.stage = .reclaiming ∧ r.stage.held = none ∧ (step e db r).2.stage.held = none ∧
      (step e db r).1.pushQueue = (reclaimStaleProcessingItems db e.env).pushQueue) ∨
    (∃ id, r.stage.held = none ∧ (step e db r).2.stage.held = some id ∧
      (∃ m ∈ db.pushQueue, m.id = id ∧ m.status = "pending") ∧
      claimPushItem db e.env id = some (step e db r).1) ∨
    (∃ item mark, r.stage.held = some item.id ∧ (step e db r).2.stage.held = none ∧
      (step e db r).1 = markPushItem db e.env item mark) ∨
    ((step e db r).1.pushQueue = db.pushQueue ∧
      ((step e db r).2.stage.held = r.stage.held ∨ (step e db r).2.stage.held = none)) := by
  unfold step
  by_cases hstops : e.stops = true
  · rw [if_pos hstops]
    exact .inr (.inr (.inr ⟨rfl, .inr rfl⟩))
  · rw [if_neg hstops]
    obtain ⟨stage, effects⟩ := r
    cases stage with
    | reclaiming => exact .inl ⟨rfl, rfl, rfl, rfl⟩
    | selecting => exact .inr (.inr (.inr ⟨rfl, .inl rfl⟩))
    | claiming ids =>
      cases ids with
      | nil => exact .inr (.inr (.inr ⟨rfl, .inl rfl⟩))
      | cons id rest =>
        cases hclaim : claimPushItem db e.env id with
        | none => exact .inr (.inr (.inr (by simp [advance, hclaim, WorkerStage.held])))
        | some db' =>
          refine .inr (.inl ⟨id, rfl, by simp [advance, hclaim, WorkerStage.held], ?_,
            by simp [advance, hclaim]⟩)
          unfold claimPushItem at hclaim
          split at hclaim
          · rename_i hany
            rw [List.any_eq_true] at hany
            obtain ⟨m, hm, hpending⟩ := hany
            rw [Bool.and_eq_true, beq_iff_eq, beq_iff_eq] at hpending
            exact ⟨m, hm, hpending⟩
          · cases hclaim
    | loading id rest =>
      cases hfind : db.pushQueue.find? id with
      | none => exact .inr (.inr (.inr (by simp [advance, hfind, WorkerStage.held])))
      | some m =>
        have hid := (KeyedTable.find?_eq_some.mp hfind).2
        exact .inr (.inr (.inr (by simp [advance, hfind, WorkerStage.held, PushMessage.item, hid])))
    | matching item rest =>
      refine .inr (.inr (.inr ?_))
      unfold advance
      dsimp only
      split
      · exact ⟨rfl, .inl rfl⟩
      · exact ⟨rfl, .inl rfl⟩
    | delivering round rest =>
      exact .inr (.inr (.inr ⟨rfl, .inl (held_moveDelivery round rest)⟩))
    | pruning round dead rest =>
      refine .inr (.inr (.inr ?_))
      cases dead with
      | nil => exact ⟨rfl, .inl rfl⟩
      | cons endpoint dead =>
        unfold advance
        dsimp only
        split
        · exact ⟨rfl, .inl rfl⟩
        · exact ⟨rfl, .inl rfl⟩
    | marking item mark rest =>
      refine .inr (.inr (.inl ⟨item, mark, rfl, ?_, rfl⟩))
      simp only [advance]
      split <;> rfl
    | notifying item status error rest => exact .inr (.inr (.inr ⟨rfl, .inl rfl⟩))
    | finished => exact .inr (.inr (.inr ⟨rfl, .inl rfl⟩))
    | failed => exact .inr (.inr (.inr ⟨rfl, .inl rfl⟩))

theorem holds_of_started {item : PushQueueItem} {s : PushSubscription}
    (h : (step e db r).2.effects = r.effects ++ [.started item s]) : r.holds item.id := by
  have hsame : ∀ stage, ({ r with stage := stage } : PushRun).effects ≠
      r.effects ++ [.started item s] := by
    intro stage heq
    have hlen := congrArg List.length heq
    simp at hlen
  have hother : ∀ effect, r.effects ++ [effect] = r.effects ++ [.started item s] →
      effect = .started item s := by
    intro effect heq
    simpa using heq
  unfold step at h
  by_cases hstops : e.stops = true
  · rw [if_pos hstops] at h
    exact absurd h (hsame _)
  · rw [if_neg hstops] at h
    obtain ⟨stage, effects⟩ := r
    cases stage with
    | reclaiming => exact absurd h (hsame .selecting)
    | selecting => exact absurd h (hsame .selecting)
    | claiming ids =>
      cases ids with
      | nil => exact absurd h (hsame .finished)
      | cons id rest =>
        unfold advance at h
        dsimp only at h
        split at h
        · exact absurd h (hsame .finished)
        · cases hother _ h
    | loading id rest =>
      unfold advance at h
      dsimp only at h
      split at h
      · exact absurd h (hsame .failed)
      · exact absurd h (hsame .failed)
    | matching item' rest =>
      unfold advance at h
      dsimp only at h
      split at h
      · exact absurd h (hsame .failed)
      · cases hother _ h
    | delivering round rest =>
      simp only [advance, moveDelivery] at h
      split at h
      · cases hother _ h
        rfl
      · split at h
        · cases hother _ h
        · exact absurd h (hsame .failed)
    | pruning round dead rest =>
      cases dead with
      | nil => exact absurd h (hsame .failed)
      | cons endpoint dead =>
        unfold advance at h
        dsimp only at h
        split at h
        · exact absurd h (hsame .failed)
        · exact absurd h (hsame .failed)
    | marking item' mark rest => cases hother _ h
    | notifying item' status error rest => cases hother _ h
    | finished => exact absurd h (hsame .failed)
    | failed => exact absurd h (hsame .failed)

end PushRun

/-! ### The status of a message after a statement -/

theorem pushStatus_reclaim (db : Db) (env : Env) (id : Nat) :
    pushStatus (reclaimStaleProcessingItems db env) id =
      (db.pushQueue.find? id).map fun m => if m.isStale env then "pending" else m.status := by
  rw [pushStatus, reclaimStaleProcessingItems, KeyedTable.find?_updateWhere, Option.map_map]
  apply congrArg (Option.map · _)
  funext m
  show (if m.isStale env then m.reclaimed else m).status = _
  split <;> rfl

theorem pushStatus_claim {db db' : Db} {env : Env} {id : Nat}
    (h : claimPushItem db env id = some db') (id' : Nat) :
    pushStatus db' id' = (db.pushQueue.find? id').map fun m =>
      if m.id == id && m.status == "pending" then "processing" else m.status := by
  unfold claimPushItem at h
  split at h
  · cases h
    rw [pushStatus, KeyedTable.find?_updateWhere, Option.map_map]
    apply congrArg (Option.map · _)
    funext m
    show (if m.id == id && m.status == "pending" then m.claimed env else m).status = _
    split <;> rfl
  · cases h

theorem status_marked (env : Env) (itemId : Nat) (retryCount : Int) (mark : PushMark)
    (m : PushMessage) : (m.marked env itemId retryCount mark).status = mark.status retryCount := by
  cases mark <;> rfl

theorem pushStatus_mark (db : Db) (env : Env) (item : PushQueueItem) (mark : PushMark) (id : Nat) :
    pushStatus (markPushItem db env item mark) id = (db.pushQueue.find? id).map fun m =>
      if m.id == item.id then mark.status item.retryCount else m.status := by
  rw [pushStatus, markPushItem, KeyedTable.find?_updateWhere, Option.map_map]
  apply congrArg (Option.map · _)
  funext m
  show (if m.id == item.id then m.marked env item.id item.retryCount mark else m).status = _
  split
  · exact status_marked env item.id item.retryCount mark m
  · rfl

theorem pushStatus_eq_some {db : Db} {id : Nat} {status : String} :
    pushStatus db id = some status ↔ ∃ m ∈ db.pushQueue, m.id = id ∧ m.status = status := by
  rw [pushStatus, Option.map_eq_some_iff]
  constructor
  · rintro ⟨m, hm, rfl⟩
    obtain ⟨hmem, hid⟩ := KeyedTable.find?_eq_some.mp hm
    exact ⟨m, hmem, hid, rfl⟩
  · rintro ⟨m, hmem, hid, rfl⟩
    exact ⟨m, KeyedTable.find?_eq_some.mpr ⟨hmem, hid⟩, rfl⟩

theorem pushStatus_congr {db db' : Db} (h : db'.pushQueue = db.pushQueue) (id : Nat) :
    pushStatus db' id = pushStatus db id := by
  rw [pushStatus, pushStatus, h]

/-! ### Claims are exclusive -/

variable {ι : Type} [DecidableEq ι]

/-- The call takes back no message that a call still works on. -/
def ReclaimsAbandoned (p : Pool ι Db PushRun) (t : ι × WorkerEnv) : Prop :=
  (p.request t.1).stage = .reclaiming → t.2.stops = false →
    ∀ m ∈ p.store.pushQueue.rows, m.isStale t.2.env = true → ∀ i, ¬ (p.request i).holds m.id

instance [Fintype ι] (p : Pool ι Db PushRun) (t : ι × WorkerEnv) :
    Decidable (ReclaimsAbandoned p t) :=
  inferInstanceAs (Decidable ((p.request t.1).stage = .reclaiming → t.2.stops = false →
    ∀ m ∈ p.store.pushQueue.rows, m.isStale t.2.env = true → ∀ i, ¬ (p.request i).holds m.id))

/-- At most one call that has claimed the message will write its outcome. -/
def Exclusive (p : Pool ι Db PushRun) : Prop :=
  ∀ i j id, (p.request i).holds id → (p.request j).holds id → i = j

/-- And while it does, the message is in process. -/
structure ClaimsHeld (p : Pool ι Db PushRun) : Prop where
  processing : ∀ i id, (p.request i).holds id → pushStatus p.store id = some "processing"
  exclusive : Exclusive p

/-- Where a tick changes no message that another call holds and gives the moving
    call at most what it held, claims stay exclusive. -/
theorem ClaimsHeld.tick_of_kept {p : Pool ι Db PushRun} (h : ClaimsHeld p) {t : ι × WorkerEnv}
    (hown : ∀ id, (PushRun.step t.2 p.store (p.request t.1)).2.holds id →
      pushStatus (PushRun.step t.2 p.store (p.request t.1)).1 id = some "processing" ∧
        ∀ j, j ≠ t.1 → ¬ (p.request j).holds id)
    (hothers : ∀ j id, j ≠ t.1 → (p.request j).holds id →
      pushStatus (PushRun.step t.2 p.store (p.request t.1)).1 id = some "processing") :
    ClaimsHeld (Interleaving.tick PushRun.step p t) := by
  refine ⟨?_, ?_⟩
  · rw [forall_request_tick (P := fun _ (r : PushRun) => ∀ id, r.holds id →
      pushStatus (Interleaving.tick PushRun.step p t).store id = some "processing")]
    exact ⟨fun id hid => (hown id hid).1, fun j hj id hid => hothers j id hj hid⟩
  · intro i j id hi hj
    by_cases hit : i = t.1
    · by_cases hjt : j = t.1
      · rw [hit, hjt]
      · rw [tick_request_of_ne p t hjt] at hj
        subst hit
        rw [tick_request_self] at hi
        exact absurd hj ((hown id hi).2 j hjt)
    · rw [tick_request_of_ne p t hit] at hi
      by_cases hjt : j = t.1
      · subst hjt
        rw [tick_request_self] at hj
        exact absurd hi ((hown id hj).2 i hit)
      · rw [tick_request_of_ne p t hjt] at hj
        exact h.exclusive i j id hi hj

/-- **One tick** that takes back abandoned messages only. -/
theorem ClaimsHeld.tick {p : Pool ι Db PushRun} (h : ClaimsHeld p) {t : ι × WorkerEnv}
    (hadm : ReclaimsAbandoned p t) : ClaimsHeld (Interleaving.tick PushRun.step p t) := by
  rcases PushRun.step_cases t.2 p.store (p.request t.1) with
    ⟨hstage, -, hafter, hqueue⟩ | ⟨id, hbefore, hafter, ⟨m, hm, hid, hpending⟩, hclaim⟩ |
      ⟨item, mark, hbefore, hafter, hmark⟩ | ⟨hqueue, hheld⟩
  · -- a reclaim
    apply h.tick_of_kept
    · intro id hid
      rw [PushRun.holds, hafter] at hid
      cases hid
    · intro j id hj hjd
      obtain ⟨m, hm, rfl, hstatus⟩ := pushStatus_eq_some.mp (h.processing j id hjd)
      by_cases hstops : t.2.stops = true
      · rw [PushRun.step, if_pos hstops]
        exact h.processing j _ hjd
      · have hfresh : m.isStale t.2.env = false := by
          by_contra hstale
          exact hadm hstage (by simpa using hstops) m hm (by simpa using hstale) j hjd
        rw [pushStatus_congr hqueue, pushStatus_reclaim,
          KeyedTable.find?_eq_some.mpr ⟨hm, rfl⟩, Option.map_some, hfresh, hstatus]
        rfl
  · -- a claim: nobody holds a message that is pending
    have hnobody : ∀ j, ¬ (p.request j).holds id := by
      intro j hj
      obtain ⟨m', hm', hid', hstatus⟩ := pushStatus_eq_some.mp (h.processing j id hj)
      have hsame := p.store.pushQueue.eq_of_key_eq hm hm' (hid.trans hid'.symm)
      rw [← hsame, hpending] at hstatus
      exact absurd hstatus (by decide)
    apply h.tick_of_kept
    · intro id' hid'
      rw [PushRun.holds, hafter, Option.some.injEq] at hid'
      subst hid'
      refine ⟨?_, fun j _ => hnobody j⟩
      rw [pushStatus_claim hclaim, KeyedTable.find?_eq_some.mpr ⟨hm, hid⟩, Option.map_some]
      simp [hid, hpending]
    · intro j id' _ hj
      obtain ⟨m', hm', hid', hstatus⟩ := pushStatus_eq_some.mp (h.processing j id' hj)
      rw [pushStatus_claim hclaim, KeyedTable.find?_eq_some.mpr ⟨hm', hid'⟩, Option.map_some,
        hstatus]
      simp
  · -- a mark: nobody else holds the message
    apply h.tick_of_kept
    · intro id hid
      rw [PushRun.holds, hafter] at hid
      cases hid
    · intro j id hj hjd
      obtain ⟨m, hm, rfl, hstatus⟩ := pushStatus_eq_some.mp (h.processing j id hjd)
      have hne : m.id ≠ item.id := by
        intro heq
        exact hj (h.exclusive j t.1 m.id hjd (by rw [PushRun.holds, hbefore, heq]))
      rw [hmark, pushStatus_mark, KeyedTable.find?_eq_some.mpr ⟨hm, rfl⟩, Option.map_some,
        if_neg (by simpa using hne), hstatus]
  · -- the queue is not touched
    apply h.tick_of_kept
    · intro id hid
      have hmine : (p.request t.1).holds id := by
        rcases hheld with hsame | hnone
        · rw [PushRun.holds, ← hsame]
          exact hid
        · rw [PushRun.holds, hnone] at hid
          cases hid
      refine ⟨?_, fun j hj hjd => hj (h.exclusive j t.1 id hjd hmine)⟩
      rw [pushStatus_congr hqueue]
      exact h.processing t.1 id hmine
    · intro j id _ hjd
      rw [pushStatus_congr hqueue]
      exact h.processing j id hjd

/-- **What is sent or failed stays so.** -/
theorem ClaimsHeld.terminal_tick {p : Pool ι Db PushRun} (h : ClaimsHeld p) (t : ι × WorkerEnv)
    {id : Nat} {status : String} (hterminal : isTerminalStatus status)
    (hstatus : pushStatus p.store id = some status) :
    pushStatus (Interleaving.tick PushRun.step p t).store id = some status := by
  obtain ⟨m, hm, rfl, rfl⟩ := pushStatus_eq_some.mp hstatus
  have hfind : p.store.pushQueue.find? m.id = some m := KeyedTable.find?_eq_some.mpr ⟨hm, rfl⟩
  have hrunning : m.status ≠ "processing" ∧ m.status ≠ "pending" := by
    rcases hterminal with heq | heq
    · rw [heq]
      decide
    · rw [heq]
      decide
  rw [tick_store]
  rcases PushRun.step_cases t.2 p.store (p.request t.1) with
    ⟨-, -, -, hqueue⟩ | ⟨id, -, -, -, hclaim⟩ | ⟨item, mark, hbefore, -, hmark⟩ | ⟨hqueue, -⟩
  · rw [pushStatus_congr hqueue, pushStatus_reclaim, hfind, Option.map_some, if_neg]
    simp [PushMessage.isStale, hrunning.1]
  · rw [pushStatus_claim hclaim, hfind, Option.map_some, if_neg]
    simp [hrunning.2]
  · rw [hmark, pushStatus_mark, hfind, Option.map_some, if_neg]
    intro heq
    have hheld := h.processing t.1 item.id hbefore
    rw [← beq_iff_eq.mp heq, hstatus, Option.some.injEq] at hheld
    exact hrunning.1 hheld
  · rw [pushStatus_congr hqueue]
    exact hstatus

/-- What a schedule of calls must not do to a message. -/
structure QueueSafe (p : Pool ι Db PushRun) (ticks : List (ι × WorkerEnv)) : Prop where
  terminal : ∀ pre mid post, ticks = pre ++ mid ++ post → ∀ id status, isTerminalStatus status →
    pushStatus (run PushRun.step p pre).store id = some status →
    pushStatus (run PushRun.step p (pre ++ mid)).store id = some status
  delivery : ∀ pre mid t post, ticks = pre ++ mid ++ t :: post → ∀ item s,
    pushStatus (run PushRun.step p pre).store item.id = some "sent" →
    ((run PushRun.step p (pre ++ mid ++ [t])).request t.1).effects ≠
      ((run PushRun.step p (pre ++ mid)).request t.1).effects ++ [.started item s]
  outcome : Always PushRun.step Exclusive p ticks

/-- **Push queue safety** for every interleaving of calls in which only abandoned
    messages are taken back. -/
theorem push_queue_safe {p : Pool ι Db PushRun} (hstart : ∀ i id, ¬ (p.request i).holds id)
    {ticks : List (ι × WorkerEnv)} (hadm : Admissible PushRun.step ReclaimsAbandoned p ticks) :
    QueueSafe p ticks := by
  have hheld : Always PushRun.step ClaimsHeld p ticks := by
    have hfirst : ClaimsHeld p :=
      ⟨fun i id hid => absurd hid (hstart i id), fun i j id hid _ => absurd hid (hstart i id)⟩
    exact run_rule (fun q t hq ht => hq.tick ht) hfirst hadm
  have hterminal : ∀ pre mid post, ticks = pre ++ mid ++ post → ∀ id status,
      isTerminalStatus status → pushStatus (run PushRun.step p pre).store id = some status →
      pushStatus (run PushRun.step p (pre ++ mid)).store id = some status := by
    intro pre mid
    induction mid using List.reverseRecOn with
    | nil =>
      intro post _ id status _ hstatus
      rw [List.append_nil]
      exact hstatus
    | append_singleton mid t ih =>
      intro post hsplit id status hterm hstatus
      have hbefore := ih (t :: post) (by simp [hsplit]) id status hterm hstatus
      rw [← List.append_assoc, run_append]
      exact (hheld (pre ++ mid) (t :: post) (by simp [hsplit])).terminal_tick t hterm hbefore
  refine ⟨hterminal, ?_, ?_⟩
  · intro pre mid t post hsplit item s hsent hstarted
    have hstill := hterminal pre mid (t :: post) hsplit item.id "sent" (.inl rfl) hsent
    rw [run_append PushRun.step p (pre ++ mid) [t]] at hstarted
    have hholds : ((run PushRun.step p (pre ++ mid)).request t.1).holds item.id := by
      apply PushRun.holds_of_started (e := t.2) (s := s)
      rw [← hstarted]
      exact congrArg PushRun.effects (tick_request_self _ t).symm
    have hprocessing := (hheld (pre ++ mid) (t :: post) hsplit).processing t.1 item.id hholds
    rw [hstill, Option.some.injEq] at hprocessing
    exact absurd hprocessing (by decide)
  · intro pre post hsplit
    exact (hheld pre post hsplit).exclusive

/-! ### Two workers and a message -/

/-- One pending message and the one subscription it goes to. -/
def helloDb : Db :=
  { pushQueue := ⟨[{ id := 1, appId := "shop", userId := "ada", title := "Hello", body := "World",
                     status := "pending", retryCount := 0, payload := none, scheduledAt := none,
                     idempotencyKey := none, broadcastTag := none,
                     createdAt := "2026-01-01 00:00:00" }], by decide⟩
    pushQueueSeq := 1
    pushSubscriptions := ⟨[{ id := 1, appId := "shop", userId := "ada", endpoint := "alerts",
                             createdAt := "2026-01-01 00:00:00" }], by decide⟩ }

/-- Two calls that have not begun. -/
def twoWorkers : Pool Bool Db PushRun :=
  { store := helloDb, request := fun _ => { stage := .reclaiming } }

def firstMinute : WorkerEnv := { env := sampleEnv "w" }

/-- Five minutes later. -/
def fiveMinutesOn : WorkerEnv :=
  { env := { sampleEnv "w" with now := "2026-01-01 00:05:00"
                                secondsAgo := fun _ => "2026-01-01 00:03:00" } }

/-- The first call up to its delivery, and from there to its outcome. -/
def helloStarted : List (Bool × WorkerEnv) := List.replicate 6 (true, firstMinute)

def helloDelivered : List (Bool × WorkerEnv) := List.replicate 4 (true, fiveMinutesOn)

/-- The second call, whose delivery fails. -/
def helloTakenOver : List (Bool × WorkerEnv) := List.replicate 6 (false, fiveMinutesOn)

def helloFailed : List (Bool × WorkerEnv) :=
  List.replicate 4
    (false, { fiveMinutesOn with result := some { cause := .other, message := "timeout" } })

theorem workers_in_turn_safe :
    QueueSafe twoWorkers (helloStarted ++ helloDelivered ++ helloTakenOver) ∧
      pushStatus (run PushRun.step twoWorkers
        (helloStarted ++ helloDelivered ++ helloTakenOver)).store 1 = some "sent" := by
  refine ⟨push_queue_safe ?_ (by decide +kernel), by decide +kernel⟩
  intro i id hid
  cases hid

/-- The second call takes the message over while the first delivers it: the first
    marks it sent, and the second puts it back into the queue. -/
theorem reclaimed_message_unsafe :
    ¬ QueueSafe twoWorkers (helloStarted ++ helloTakenOver ++ helloDelivered ++ helloFailed) := by
  intro hsafe
  have hsent : pushStatus (run PushRun.step twoWorkers
      (helloStarted ++ helloTakenOver ++ helloDelivered)).store 1 = some "sent" := by
    decide +kernel
  have hstays := hsafe.terminal _ helloFailed [] (by simp) 1 "sent" (.inl rfl) hsent
  exact absurd hstays (by decide +kernel)

end Peanut
