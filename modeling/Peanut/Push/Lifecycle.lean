import Peanut.Push.Workers
import Mathlib.Data.List.Chain

/-!
# The life of a push message

One worker that calls `process_queue_with_deliveries` again and again, while
messages are queued, subscriptions come and go, and `cleanup_old_items` removes
old messages between two calls.  All statements succeed.
-/

namespace Peanut

open Relational

/-! ### What the worker does next -/

namespace PushRun

/-- The transitions of the worker, with what each of them knows and does. -/
inductive Moves (e : WorkerEnv) (db : Db) (effects : List PushEffect) :
    WorkerStage → Db → PushRun → Prop where
  | reclaim : Moves e db effects .reclaiming (reclaimStaleProcessingItems db e.env)
      ⟨.selecting, effects⟩
  | select : Moves e db effects .selecting db ⟨.claiming (pendingIds db e.env), effects⟩
  | done : Moves e db effects (.claiming []) db ⟨.finished, effects⟩
  | skip (id : Nat) (rest : List Nat) :
      Moves e db effects (.claiming (id :: rest)) db ⟨.claiming rest, effects⟩
  | claim (id : Nat) (rest : List Nat) {db' : Db} (h : claimPushItem db e.env id = some db') :
      Moves e db effects (.claiming (id :: rest)) db' ⟨.loading id rest, effects ++ [.claimed id]⟩
  | lost (id : Nat) (rest : List Nat) (h : db.pushQueue.find? id = none) :
      Moves e db effects (.loading id rest) db ⟨.failed, effects⟩
  | load {id : Nat} (rest : List Nat) {m : PushMessage} (h : db.pushQueue.find? id = some m) :
      Moves e db effects (.loading id rest) db ⟨.matching m.item rest, effects⟩
  | unmatched (item : PushQueueItem) (rest : List Nat) :
      Moves e db effects (.matching item rest) db
        ⟨.marking item (.terminal noSubscriptions) rest, effects⟩
  | matched (item : PushQueueItem) (rest : List Nat) {found : List PushSubscription}
      (h : db.pushSubscriptions.select (matchesItem item) = found) :
      Moves e db effects (.matching item rest) db
        ⟨.delivering ⟨item, found, found, [], []⟩ rest, effects ++ [.round item.id]⟩
  | start (round : PushRound) (rest : List Nat) {k : Nat} {s : PushSubscription}
      (h : round.waiting[k]? = some s) :
      Moves e db effects (.delivering round rest) db
        ⟨.delivering { round with waiting := round.waiting.eraseIdx k
                                  inFlight := round.inFlight ++ [s] } rest,
          effects ++ [.started round.item s]⟩
  | finish (round : PushRound) (rest : List Nat) {k : Nat} {s : PushSubscription}
      (h : round.inFlight[k]? = some s) :
      Moves e db effects (.delivering round rest) db
        ⟨.delivering { round with inFlight := round.inFlight.eraseIdx k
                                  results := round.results ++ [⟨s, e.result⟩] } rest,
          effects ++ [.returned round.item ⟨s, e.result⟩]⟩
  | join (round : PushRound) (rest : List Nat) (hwaiting : round.waiting = [])
      (hflight : round.inFlight = []) :
      Moves e db effects (.delivering round rest) db
        ⟨.pruning round (deadSubscriptionEndpoints round.results) rest, effects⟩
  | prune (round : PushRound) (endpoint : String) (dead : List String) (rest : List Nat) {db' : Db}
      (hqueue : db'.pushQueue = db.pushQueue) (hseq : db'.pushQueueSeq = db.pushQueueSeq) :
      Moves e db effects (.pruning round (endpoint :: dead) rest) db'
        ⟨.pruning round dead rest, effects⟩
  | pruned (round : PushRound) (rest : List Nat) :
      Moves e db effects (.pruning round [] rest) db
        ⟨.marking round.item (roundMark round.results) rest, effects⟩
  | retry (item : PushQueueItem) (mark : PushMark) (rest : List Nat)
      (h : mark.status item.retryCount = "pending") :
      Moves e db effects (.marking item mark rest) (markPushItem db e.env item mark)
        ⟨.claiming rest, effects ++ [.marked item.id "pending"]⟩
  | settle (item : PushQueueItem) (mark : PushMark) (rest : List Nat)
      (h : isTerminalStatus (mark.status item.retryCount)) :
      Moves e db effects (.marking item mark rest) (markPushItem db e.env item mark)
        ⟨.notifying item (mark.status item.retryCount) mark.error rest,
          effects ++ [.marked item.id (mark.status item.retryCount)]⟩
  | notify (item : PushQueueItem) (status : String) (error : Option String) (rest : List Nat) :
      Moves e db effects (.notifying item status error rest) db
        ⟨.claiming rest, effects ++
          [.webhook item.id status (pushWebhook db item.appId item.id status error)]⟩
  | finished : Moves e db effects .finished db ⟨.finished, effects⟩
  | failed : Moves e db effects .failed db ⟨.failed, effects⟩

theorem status_cases (mark : PushMark) (retryCount : Int) :
    mark.status retryCount = "pending" ∨ isTerminalStatus (mark.status retryCount) := by
  cases mark with
  | sent note failed => exact .inr (.inl rfl)
  | terminal error => exact .inr (.inr rfl)
  | failed error failed =>
    rw [PushMark.status]
    split
    · exact .inr (.inr rfl)
    · exact .inl rfl

theorem moveDelivery_moves (e : WorkerEnv) (db : Db) (r : PushRun) (round : PushRound)
    (rest : List Nat) :
    Moves e db r.effects (.delivering round rest) db (r.moveDelivery e round rest) := by
  unfold moveDelivery
  dsimp only
  split
  · rename_i s hs
    exact .start round rest hs
  · rename_i hwaiting
    split
    · rename_i s hs
      exact .finish round rest hs
    · rename_i hflight
      rw [List.getElem?_eq_none_iff] at hwaiting hflight
      -- a position below the number of deliveries is one of a delivery
      have hnone : round.waiting.length + round.inFlight.length = 0 := by
        by_contra hsome
        have hlt := Nat.mod_lt e.choice (Nat.pos_of_ne_zero hsome)
        omega
      apply Moves.join
      · rw [← List.length_eq_zero_iff]
        omega
      · rw [← List.length_eq_zero_iff]
        omega

theorem advance_moves (e : WorkerEnv) (db : Db) (r : PushRun) :
    Moves e db r.effects r.stage (r.advance e db).1 (r.advance e db).2 := by
  obtain ⟨stage, effects⟩ := r
  cases stage with
  | reclaiming => exact .reclaim
  | selecting => exact .select
  | claiming ids =>
    cases ids with
    | nil => exact .done
    | cons id rest =>
      cases hclaim : claimPushItem db e.env id with
      | none =>
        simp only [advance, hclaim]
        exact .skip id rest
      | some db' =>
        simp only [advance, hclaim]
        exact .claim id rest hclaim
  | loading id rest =>
    cases hfind : db.pushQueue.find? id with
    | none =>
      simp only [advance, hfind]
      exact .lost id rest hfind
    | some m =>
      simp only [advance, hfind]
      exact .load rest hfind
  | matching item rest =>
    cases hfound : db.pushSubscriptions.select (matchesItem item) with
    | nil =>
      simp only [advance, hfound]
      exact .unmatched item rest
    | cons first others =>
      simp only [advance, hfound]
      exact .matched item rest hfound
  | delivering round rest =>
    exact moveDelivery_moves e db ⟨.delivering round rest, effects⟩ round rest
  | pruning round dead rest =>
    cases dead with
    | nil => exact .pruned round rest
    | cons endpoint dead =>
      cases howner : endpointOwner round.subscriptions endpoint with
      | none =>
        simp only [advance, howner]
        exact .prune round endpoint dead rest rfl rfl
      | some userId =>
        simp only [advance, howner]
        exact .prune round endpoint dead rest rfl rfl
  | marking item mark rest =>
    rcases status_cases mark item.retryCount with hpending | hterminal
    · simp only [advance, hpending, beq_self_eq_true, if_true]
      exact .retry item mark rest hpending
    · have hne : (mark.status item.retryCount == "pending") = false := by
        rcases hterminal with heq | heq
        · rw [heq]
          decide
        · rw [heq]
          decide
      simp only [advance, hne, Bool.false_eq_true, if_false]
      exact .settle item mark rest hterminal
  | notifying item status error rest => exact .notify item status error rest
  | finished => exact .finished
  | failed => exact .failed

end PushRun

/-! ### A queue and its worker -/

structure PushSystem where
  db : Db
  worker : PushRun

/-- `tick` is the next statement of the worker, `call` its next call once the last
    one is over.  Queueing a message takes one statement at a time; all other
    requests, which leave the queue alone, are `elsewhere`. -/
inductive PushEvent where
  | tick (e : WorkerEnv)
  | call
  | cleanup (env : Env)
  | enqueue (env : Env) (c : EnqueuePushCall)
  | elsewhere (db : Db)

namespace PushSystem

/-- No message is queued and nothing has been done. -/
def start (db : Db) : PushSystem :=
  { db := { db with pushQueue := .empty }, worker := { stage := .finished } }

def step (s : PushSystem) : PushEvent → PushSystem
  | .tick e => { db := (s.worker.advance e s.db).1, worker := (s.worker.advance e s.db).2 }
  | .call =>
      if s.worker.stage = .finished ∨ s.worker.stage = .failed then
        { s with worker := { s.worker with stage := .reclaiming } }
      else s
  | .cleanup env => { s with db := cleanupOldItems s.db env }
  | .enqueue env c => { s with db := (c.step env s.db).1 }
  | .elsewhere db =>
      let queue := s.db.pushQueue
      let seq := s.db.pushQueueSeq
      { s with db := { db with pushQueue := queue, pushQueueSeq := seq } }

end PushSystem

/-! ### What the worker has done with a message -/

/-- The message an effect is about. -/
def PushEffect.id : PushEffect → Nat
  | .claimed id => id
  | .round id => id
  | .started item _ => item.id
  | .returned item _ => item.id
  | .marked id _ => id
  | .webhook id _ _ => id

instance (status : String) : Decidable (isTerminalStatus status) :=
  inferInstanceAs (Decidable (status = "sent" ∨ status = "failed"))

/-- The transitions of a message into a status that is final. -/
def terminalMarks (id : Nat) (effects : List PushEffect) : List String :=
  effects.filterMap fun
    | .marked i status => if i = id ∧ isTerminalStatus status then some status else none
    | _ => none

/-- The statuses the webhook of a message has been called with. -/
def webhooks (id : Nat) (effects : List PushEffect) : List String :=
  effects.filterMap fun
    | .webhook i status _ => if i = id then some status else none
    | _ => none

/-- How often the message has been delivered to its subscriptions. -/
def deliveryRounds (id : Nat) (effects : List PushEffect) : Nat := effects.count (.round id)

section Effects

variable {id : Nat} {effects : List PushEffect} {f : PushEffect}

theorem terminalMarks_append (id : Nat) (effects rest : List PushEffect) :
    terminalMarks id (effects ++ rest) = terminalMarks id effects ++ terminalMarks id rest :=
  List.filterMap_append

theorem webhooks_append (id : Nat) (effects rest : List PushEffect) :
    webhooks id (effects ++ rest) = webhooks id effects ++ webhooks id rest :=
  List.filterMap_append

theorem deliveryRounds_append (id : Nat) (effects rest : List PushEffect) :
    deliveryRounds id (effects ++ rest) = deliveryRounds id effects + deliveryRounds id rest :=
  List.count_append

theorem mem_terminalMarks {status : String} :
    status ∈ terminalMarks id effects ↔ .marked id status ∈ effects ∧ isTerminalStatus status := by
  rw [terminalMarks, List.mem_filterMap]
  constructor
  · rintro ⟨f, hf, heq⟩
    cases f with
    | marked i status' =>
      dsimp only at heq
      split at heq
      · rename_i hid
        cases heq
        rw [← hid.1]
        exact ⟨hf, hid.2⟩
      · cases heq
    | _ => cases heq
  · rintro ⟨hf, hterminal⟩
    exact ⟨_, hf, by simp [hterminal]⟩

theorem terminalMarks_other (h : f.id ≠ id) : terminalMarks id [f] = [] := by
  cases f with
  | marked i status =>
    have hne : i ≠ id := h
    simp [terminalMarks, hne]
  | _ => rfl

theorem deliveryRounds_other (h : f.id ≠ id) : deliveryRounds id [f] = 0 := by
  rw [deliveryRounds, List.count_eq_zero, List.mem_singleton]
  rintro rfl
  exact h rfl

end Effects

/-! ### The invariant -/

namespace WorkerStage

/-- The item of the message that is held, once it is loaded. -/
def item? : WorkerStage → Option PushQueueItem
  | .matching item _ => some item
  | .delivering round _ => some round.item
  | .pruning round _ _ => some round.item
  | .marking item _ _ => some item
  | _ => none

/-- The rounds of the message that is held and not counted in its row yet. -/
def uncounted : WorkerStage → Nat
  | .delivering _ _ => 1
  | .pruning _ _ _ => 1
  | .marking _ _ _ => 1
  | _ => 0

/-- The status that is written and not announced yet. -/
def unannounced (id : Nat) : WorkerStage → List String
  | .notifying item status _ _ => if item.id = id then [status] else []
  | _ => []

/-- A delivery that succeeded is one the outcome of the round will be made of. -/
def Succeeds (id : Nat) (result : DeliveryResult) : WorkerStage → Prop
  | .delivering round _ => round.item.id = id ∧ result ∈ round.results
  | .pruning round _ _ => round.item.id = id ∧ result ∈ round.results
  | .marking item mark _ => item.id = id ∧ ∃ note failed, mark = .sent note failed
  | _ => False

/-- No status waits to be announced. -/
def Quiet (stage : WorkerStage) : Prop :=
  ∀ item status error rest, stage ≠ .notifying item status error rest

variable {stage : WorkerStage}

theorem Quiet.of (h : match stage with
      | .notifying _ _ _ _ => False
      | _ => True) : stage.Quiet := by
  rintro item status error rest rfl
  exact h

theorem Quiet.unannounced (h : stage.Quiet) (id : Nat) :
    stage.unannounced id = [] := by
  cases stage with
  | notifying item status error rest => exact absurd rfl (h item status error rest)
  | _ => rfl

/-- No subscription occurs twice in a round. -/
def RoundDistinct : WorkerStage → Prop
  | .delivering round _ =>
      ((round.waiting ++ round.inFlight ++ round.results.map (·.subscription)).map (·.id)).Nodup
  | _ => True

theorem perm_move {α : Type} {l : List α} {k : Nat} {a : α} (h : l[k]? = some a)
    (l' : List α) : (l.eraseIdx k ++ (l' ++ [a])).Perm (l ++ l') := by
  obtain ⟨hk, rfl⟩ := List.getElem?_eq_some_iff.mp h
  calc
    l.eraseIdx k ++ (l' ++ [l[k]]) = l.eraseIdx k ++ l' ++ [l[k]] :=
      (List.append_assoc _ _ _).symm
    List.Perm _ ([l[k]] ++ (l.eraseIdx k ++ l')) := List.perm_append_comm
    List.Perm _ (l ++ l') := (List.getElem_cons_eraseIdx_perm hk).append_right l'

theorem RoundDistinct.start {round : PushRound} {rest : List Nat} {k : Nat} {s : PushSubscription}
    (h : (delivering round rest).RoundDistinct) (hs : round.waiting[k]? = some s) :
    (delivering { round with waiting := round.waiting.eraseIdx k
                             inFlight := round.inFlight ++ [s] } rest).RoundDistinct := by
  have hperm := (perm_move hs round.inFlight).append_right
    (round.results.map (·.subscription))
  exact ((hperm.map PushSubscription.id).nodup_iff).mpr h

theorem RoundDistinct.finish {round : PushRound} {rest : List Nat} {k : Nat}
    {s : PushSubscription} (h : (delivering round rest).RoundDistinct)
    (hs : round.inFlight[k]? = some s) (error : Option DeliveryError) :
    (delivering { round with inFlight := round.inFlight.eraseIdx k
                             results := round.results ++ [⟨s, error⟩] } rest).RoundDistinct := by
  have hperm := (perm_move hs (round.results.map (·.subscription))).append_left round.waiting
  have hnodup := ((hperm.map PushSubscription.id).nodup_iff).mpr
    (by rw [← List.append_assoc]; exact h)
  rw [← List.append_assoc] at hnodup
  simpa [RoundDistinct] using hnodup

theorem of_free (h : stage.held = none) :
    stage.uncounted = 0 ∧ stage.RoundDistinct ∧ ∀ id result, ¬ stage.Succeeds id result := by
  cases stage with
  | loading id rest => cases h
  | matching item rest => cases h
  | delivering round rest => cases h
  | pruning round dead rest => cases h
  | marking item mark rest => cases h
  | _ => exact ⟨rfl, trivial, fun _ _ hno => hno⟩

end WorkerStage

/-- A message waits for the worker, is held by it, or has its final status. -/
inductive RowState (w : PushRun) (m : PushMessage) : Prop where
  | waiting (hstatus : m.status = "pending") (hheld : w.stage.held ≠ some m.id)
      (hcount : 0 ≤ m.retryCount ∧ m.retryCount ≤ 2) (hmarks : terminalMarks m.id w.effects = [])
      (hrounds : deliveryRounds m.id w.effects ≤ m.retryCount)
  | working (hstatus : m.status = "processing") (hheld : w.stage.held = some m.id)
      (hcount : 0 ≤ m.retryCount ∧ m.retryCount ≤ 2) (hmarks : terminalMarks m.id w.effects = [])
      (hrounds : deliveryRounds m.id w.effects ≤ m.retryCount + w.stage.uncounted)
  | settled (hheld : w.stage.held ≠ some m.id)
      (hcount : m.status = "sent" ∧ m.retryCount ≤ 2 ∨ m.status = "failed" ∧ m.retryCount = 3)
      (hmarks : terminalMarks m.id w.effects = [m.status])

/-- An effect that may follow another one, at whatever distance: a message that has
    its final status is only announced, and a subscription that was delivered a
    message does not get it again. -/
def MayFollow (a b : PushEffect) : Prop :=
  (∀ id status, a = .marked id status → isTerminalStatus status → b.id = id →
    ∃ status post, b = .webhook id status post) ∧
  (∀ item result item' s, a = .returned item result → result.error = none →
    b = .started item' s → item'.id = item.id → s.id ≠ result.subscription.id)

/-- An effect that may follow another one at once: a final status is announced next,
    and nothing else is. -/
def MayFollowAtOnce (a b : PushEffect) : Prop :=
  (∀ id status, a = .marked id status → isTerminalStatus status →
    ∃ post, b = .webhook id status post) ∧
  (∀ id status post, b = .webhook id status post → a = .marked id status)

/-- What the worker has done so far fits the place where it stands. -/
structure Recorded (w : PushRun) : Prop where
  distinct : w.stage.RoundDistinct
  rounds : ∀ id, deliveryRounds id w.effects ≤ 3
  marks : ∀ id, (terminalMarks id w.effects).length ≤ 1
  announced : ∀ id, terminalMarks id w.effects = webhooks id w.effects ++ w.stage.unannounced id
  delivered : ∀ item result, .returned item result ∈ w.effects → result.error = none →
    terminalMarks item.id w.effects ≠ [] ∨ w.stage.Succeeds item.id result
  notified : ∀ item status error rest, w.stage = .notifying item status error rest →
    w.effects.getLast? = some (.marked item.id status)
  last : ∀ id status, w.effects.getLast? = some (.marked id status) → isTerminalStatus status →
    ∃ item error rest, item.id = id ∧ w.stage = .notifying item status error rest
  order : w.effects.Pairwise MayFollow
  adjacent : w.effects.IsChain MayFollowAtOnce

structure PushInvariant (s : PushSystem) : Prop where
  numbered : ∀ m ∈ s.db.pushQueue, m.id ≤ s.db.pushQueueSeq
  known : ∀ f ∈ s.worker.effects, f.id ≤ s.db.pushQueueSeq
  row : ∀ m ∈ s.db.pushQueue, RowState s.worker m
  held : ∀ id, s.worker.stage.held = some id → ∃ m ∈ s.db.pushQueue, m.id = id ∧
    ∀ item, s.worker.stage.item? = some item → m.item = item
  recorded : Recorded s.worker

/-! ### One step of the record -/

section Record

variable {stage stage' : WorkerStage} {effects : List PushEffect} {f : PushEffect}

theorem Recorded.move (h : Recorded ⟨stage, effects⟩) (hquiet : stage.Quiet)
    (hquiet' : stage'.Quiet) (hdistinct : stage'.RoundDistinct)
    (hdelivered : ∀ id result, result.error = none → stage.Succeeds id result →
      stage'.Succeeds id result) :
    Recorded ⟨stage', effects⟩ where
  distinct := hdistinct
  rounds := h.rounds
  marks := h.marks
  announced := by
    intro id
    have hbefore := h.announced id
    rw [hquiet.unannounced] at hbefore
    rw [hquiet'.unannounced]
    exact hbefore
  delivered := by
    intro item result hmem hok
    rcases h.delivered item result hmem hok with hmarked | hsucceeds
    · exact .inl hmarked
    · exact .inr (hdelivered item.id result hok hsucceeds)
  notified := by
    intro item status error rest heq
    exact absurd heq (hquiet' item status error rest)
  last := by
    intro id status hlast hterminal
    obtain ⟨item, error, rest, -, heq⟩ := h.last id status hlast hterminal
    exact absurd heq (hquiet item status error rest)
  order := h.order
  adjacent := h.adjacent

theorem Recorded.append (h : Recorded ⟨stage, effects⟩) (hquiet : stage.Quiet)
    (hwork : ∀ id status post, f ≠ .webhook id status post)
    (hopen : terminalMarks f.id effects = [])
    (hrounds : deliveryRounds f.id (effects ++ [f]) ≤ 3)
    (hdistinct : stage'.RoundDistinct)
    (hannounced : ∀ id, terminalMarks id [f] = stage'.unannounced id)
    (hnotified : ∀ item status error rest, stage' = .notifying item status error rest →
      f = .marked item.id status)
    (hlast : ∀ id status, f = .marked id status → isTerminalStatus status →
      ∃ item error rest, item.id = id ∧ stage' = .notifying item status error rest)
    (hdelivered : ∀ id result, result.error = none →
      (stage.Succeeds id result ∨ ∃ item, item.id = id ∧ f = .returned item result) →
      terminalMarks id [f] ≠ [] ∨ stage'.Succeeds id result)
    (hsent : ∀ item s, f = .started item s → ∀ item' result, .returned item' result ∈ effects →
      result.error = none → item'.id = item.id → s.id ≠ result.subscription.id) :
    Recorded ⟨stage', effects ++ [f]⟩ where
  distinct := hdistinct
  rounds := by
    intro id
    by_cases hid : f.id = id
    · rw [← hid]
      exact hrounds
    · rw [deliveryRounds_append, deliveryRounds_other hid]
      exact h.rounds id
  marks := by
    intro id
    rw [terminalMarks_append]
    by_cases hid : f.id = id
    · rw [← hid, hopen, List.nil_append]
      exact List.length_filterMap_le _ _
    · rw [terminalMarks_other hid, List.append_nil]
      exact h.marks id
  announced := by
    intro id
    have hbefore := h.announced id
    have hnone : webhooks id [f] = [] := by
      cases f with
      | webhook i status post => exact absurd rfl (hwork i status post)
      | _ => rfl
    rw [hquiet.unannounced, List.append_nil] at hbefore
    rw [terminalMarks_append, webhooks_append, hnone, List.append_nil, hbefore, hannounced id]
  delivered := by
    intro item result hmem hok
    rw [terminalMarks_append]
    have hnew : terminalMarks item.id [f] ≠ [] ∨ stage'.Succeeds item.id result →
        terminalMarks item.id effects ++ terminalMarks item.id [f] ≠ [] ∨
          stage'.Succeeds item.id result := by
      rintro (hmarked | hsucceeds)
      · exact .inl (List.append_ne_nil_of_right_ne_nil _ hmarked)
      · exact .inr hsucceeds
    rcases List.mem_append.mp hmem with hold | hf
    · rcases h.delivered item result hold hok with hmarked | hsucceeds
      · exact .inl (List.append_ne_nil_of_left_ne_nil hmarked _)
      · exact hnew (hdelivered item.id result hok (.inl hsucceeds))
    · rw [List.mem_singleton] at hf
      exact hnew (hdelivered item.id result hok (.inr ⟨item, rfl, hf.symm⟩))
  notified := by
    intro item status error rest heq
    rw [List.getLast?_concat, hnotified item status error rest heq]
  last := by
    intro id status hmarked hterminal
    rw [List.getLast?_concat, Option.some.injEq] at hmarked
    exact hlast id status hmarked hterminal
  order := by
    rw [List.pairwise_append]
    refine ⟨h.order, List.pairwise_singleton _ _, ?_⟩
    intro a ha b hb
    rw [List.mem_singleton] at hb
    subst hb
    constructor
    · -- a final status would be among the marks of the message
      rintro id status rfl hterminal hid
      have hmem : status ∈ terminalMarks id effects := mem_terminalMarks.mpr ⟨ha, hterminal⟩
      rw [← hid, hopen] at hmem
      cases hmem
    · rintro item result item' s rfl hok hf hid
      exact hsent item' s hf item result ha hok hid.symm
  adjacent := by
    rw [List.isChain_append]
    refine ⟨h.adjacent, List.isChain_singleton _, ?_⟩
    intro a ha b hb
    rw [List.head?_cons, Option.mem_some_iff] at hb
    subst hb
    constructor
    · rintro id status rfl hterminal
      obtain ⟨item, error, rest, -, heq⟩ := h.last id status ha hterminal
      exact absurd heq (hquiet item status error rest)
    · intro id status post heq
      exact absurd heq (hwork id status post)

theorem Recorded.notify {item : PushQueueItem} {status : String} {error : Option String}
    {rest : List Nat} (h : Recorded ⟨.notifying item status error rest, effects⟩)
    (post : Option WebhookPost) :
    Recorded ⟨.claiming rest, effects ++ [.webhook item.id status post]⟩ where
  distinct := trivial
  rounds := by
    intro id
    rw [deliveryRounds_append]
    exact h.rounds id
  marks := by
    intro id
    rw [terminalMarks_append]
    exact (List.append_nil (terminalMarks id effects)).symm ▸ h.marks id
  announced := by
    intro id
    have hbefore := h.announced id
    have hnew : webhooks id [.webhook item.id status post] =
        (WorkerStage.notifying item status error rest).unannounced id := by
      by_cases hid : item.id = id
      · simp [webhooks, WorkerStage.unannounced, hid]
      · simp [webhooks, WorkerStage.unannounced, hid]
    rw [terminalMarks_append, webhooks_append, hnew, ← hbefore]
    rfl
  delivered := by
    intro item' result hmem hok
    rw [terminalMarks_append]
    rcases List.mem_append.mp hmem with hold | hf
    · rcases h.delivered item' result hold hok with hmarked | hsucceeds
      · exact .inl (List.append_ne_nil_of_left_ne_nil hmarked _)
      · exact hsucceeds.elim
    · rw [List.mem_singleton] at hf
      cases hf
  notified := by
    intro item' status' error' rest' heq
    cases heq
  last := by
    intro id status' hmarked
    rw [List.getLast?_concat] at hmarked
    cases hmarked
  order := by
    rw [List.pairwise_append]
    refine ⟨h.order, List.pairwise_singleton _ _, ?_⟩
    intro a _ b hb
    rw [List.mem_singleton] at hb
    subst hb
    constructor
    · rintro id status' - - rfl
      exact ⟨status, post, rfl⟩
    · intro item' result item'' s _ _ heq
      cases heq
  adjacent := by
    rw [List.isChain_append]
    refine ⟨h.adjacent, List.isChain_singleton _, ?_⟩
    intro a ha b hb
    rw [List.head?_cons, Option.mem_some_iff] at hb
    subst hb
    have hmark : a = .marked item.id status :=
      Option.some.inj (ha.symm.trans (h.notified item status error rest rfl))
    subst hmark
    constructor
    · rintro id status' heq -
      cases heq
      exact ⟨post, rfl⟩
    · rintro id status' post' heq
      cases heq
      rfl

end Record

/-! ### One step of a message -/

variable {m : PushMessage}

/-- What happens to other messages, and what is done with this one before its
    outcome, leaves its state as it is. -/
theorem RowState.carry {w w' : PushRun} (h : RowState w m)
    (hheld : w'.stage.held = some m.id ↔ w.stage.held = some m.id)
    (hmarks : terminalMarks m.id w'.effects = terminalMarks m.id w.effects)
    (hrounds : w.stage.held ≠ some m.id →
      deliveryRounds m.id w'.effects = deliveryRounds m.id w.effects)
    (hcount : w.stage.held = some m.id → deliveryRounds m.id w'.effects + w.stage.uncounted ≤
      deliveryRounds m.id w.effects + w'.stage.uncounted) : RowState w' m := by
  rcases h with ⟨hstatus, hnot, hretry, hnone, hle⟩ | ⟨hstatus, hholds, hretry, hnone, hle⟩ |
    ⟨hnot, hretry, hone⟩
  · refine .waiting hstatus (fun hyes => hnot (hheld.mp hyes)) hretry (hmarks.trans hnone) ?_
    rw [hrounds hnot]
    exact hle
  · refine .working hstatus (hheld.mpr hholds) hretry (hmarks.trans hnone) ?_
    have hmore := hcount hholds
    omega
  · exact .settled (fun hyes => hnot (hheld.mp hyes)) hretry (hmarks.trans hone)

theorem RowState.of_held {w : PushRun} (h : RowState w m) (hheld : w.stage.held = some m.id) :
    m.status = "processing" ∧ (0 ≤ m.retryCount ∧ m.retryCount ≤ 2) ∧
      terminalMarks m.id w.effects = [] ∧
      deliveryRounds m.id w.effects ≤ m.retryCount + w.stage.uncounted := by
  rcases h with ⟨-, hnot, -⟩ | ⟨hstatus, -, hretry, hnone, hle⟩ | ⟨hnot, -⟩
  · exact absurd hheld hnot
  · exact ⟨hstatus, hretry, hnone, hle⟩
  · exact absurd hheld hnot

theorem RowState.of_pending {w : PushRun} (h : RowState w m) (hstatus : m.status = "pending") :
    (0 ≤ m.retryCount ∧ m.retryCount ≤ 2) ∧ terminalMarks m.id w.effects = [] ∧
      deliveryRounds m.id w.effects ≤ m.retryCount := by
  rcases h with ⟨-, -, hretry, hnone, hle⟩ | ⟨hprocessing, -⟩ | ⟨-, hretry, -⟩
  · exact ⟨hretry, hnone, hle⟩
  · rw [hstatus] at hprocessing
    exact absurd hprocessing (by decide)
  · rw [hstatus] at hretry
    exact absurd hretry (by simp)

theorem RowState.processing_iff {w : PushRun} (h : RowState w m) :
    m.status = "processing" ↔ w.stage.held = some m.id := by
  rcases h with ⟨hstatus, hnot, -⟩ | ⟨hstatus, hheld, -⟩ | ⟨hnot, hcount, -⟩
  · simp [hstatus, hnot]
  · simp [hstatus, hheld]
  · rcases hcount with ⟨hstatus, -⟩ | ⟨hstatus, -⟩
    · simp [hstatus, hnot]
    · simp [hstatus, hnot]

theorem RowState.marked {w w' : PushRun} {mark : PushMark} (h : RowState w m)
    (hheld : w.stage.held = some m.id) (hone : w.stage.uncounted = 1) (hfree : w'.stage.held = none)
    (heffects : w'.effects = w.effects ++ [.marked m.id (mark.status m.retryCount)]) (env : Env) :
    RowState w' (m.marked env m.id m.retryCount mark) := by
  obtain ⟨-, hretry, hnone, hle⟩ := h.of_held hheld
  have hrounds : deliveryRounds m.id w'.effects = deliveryRounds m.id w.effects := by
    rw [heffects, deliveryRounds_append]
    rfl
  have hnot : w'.stage.held ≠ some m.id := by
    rw [hfree]
    intro hsome
    cases hsome
  have hmarks : ∀ status, mark.status m.retryCount = status →
      terminalMarks m.id w'.effects = if isTerminalStatus status then [status] else [] := by
    rintro status rfl
    rw [heffects, terminalMarks_append, hnone, List.nil_append]
    by_cases hterminal : isTerminalStatus (mark.status m.retryCount)
    · simp [terminalMarks, hterminal]
    · simp [terminalMarks, hterminal]
  cases mark with
  | sent note failed => exact .settled hnot (.inl ⟨rfl, hretry.2⟩) (hmarks "sent" rfl)
  | terminal error => exact .settled hnot (.inr ⟨rfl, rfl⟩) (hmarks "failed" rfl)
  | failed error failed =>
    by_cases hlast : maxRetries ≤ m.retryCount + 1
    · have hstatus : (PushMark.failed error failed).status m.retryCount = "failed" := if_pos hlast
      have hthree : m.retryCount + 1 = 3 := by
        unfold maxRetries at hlast
        omega
      refine .settled hnot (.inr ⟨hstatus, hthree⟩) ?_
      exact (hmarks "failed" hstatus).trans (congrArg (fun status => [status]) hstatus.symm)
    · have hstatus : (PushMark.failed error failed).status m.retryCount = "pending" := if_neg hlast
      refine .waiting hstatus hnot ?_ (hmarks "pending" hstatus) ?_
      · show 0 ≤ m.retryCount + 1 ∧ m.retryCount + 1 ≤ 2
        unfold maxRetries at hlast
        omega
      · show (deliveryRounds m.id w'.effects : Int) ≤ m.retryCount + 1
        rw [hrounds]
        omega

/-! ### One step of the worker -/

namespace PushInvariant

variable {db db' : Db} {stage stage' : WorkerStage} {effects : List PushEffect} {f : PushEffect}

theorem of_held (h : PushInvariant ⟨db, ⟨stage, effects⟩⟩) {id : Nat}
    (hheld : stage.held = some id) :
    id ≤ db.pushQueueSeq ∧ terminalMarks id effects = [] ∧
      deliveryRounds id effects ≤ 2 + stage.uncounted := by
  obtain ⟨m, hm, rfl, -⟩ := h.held id hheld
  obtain ⟨-, hretry, hnone, hle⟩ := (h.row m hm).of_held hheld
  refine ⟨h.numbered m hm, hnone, ?_⟩
  dsimp only at hle
  omega

theorem silent (h : PushInvariant ⟨db, ⟨stage, effects⟩⟩)
    (hqueue : db'.pushQueue = db.pushQueue) (hseq : db'.pushQueueSeq = db.pushQueueSeq)
    (hheld : stage'.held = stage.held) (hcount : stage.uncounted ≤ stage'.uncounted)
    (hitem : ∀ m ∈ db.pushQueue, stage.held = some m.id →
      (∀ item, stage.item? = some item → m.item = item) →
      ∀ item, stage'.item? = some item → m.item = item)
    (hrecorded : Recorded ⟨stage', effects⟩) : PushInvariant ⟨db', ⟨stage', effects⟩⟩ where
  numbered := by
    rw [hqueue, hseq]
    exact h.numbered
  known := by
    rw [hseq]
    exact h.known
  row := by
    rw [hqueue]
    intro m hm
    apply (h.row m hm).carry
    · rw [hheld]
    · rfl
    · intro _
      rfl
    · intro _
      exact Nat.add_le_add_left hcount _
  held := by
    rw [hqueue]
    intro id hid
    have hbefore : stage.held = some id := hheld.symm.trans hid
    obtain ⟨m, hm, rfl, hbound⟩ := h.held id hbefore
    exact ⟨m, hm, rfl, hitem m hm hbefore hbound⟩
  recorded := hrecorded

theorem work (h : PushInvariant ⟨db, ⟨stage, effects⟩⟩) (hholds : stage.held = some f.id)
    (hheld : stage'.held = stage.held) (hitem : stage'.item? = stage.item?)
    (hmarks : terminalMarks f.id [f] = [])
    (hcount : deliveryRounds f.id [f] + stage.uncounted ≤ stage'.uncounted)
    (hrecorded : Recorded ⟨stage', effects ++ [f]⟩) :
    PushInvariant ⟨db, ⟨stage', effects ++ [f]⟩⟩ where
  numbered := h.numbered
  known := by
    intro g hg
    rcases List.mem_append.mp hg with hold | hnew
    · exact h.known g hold
    · rw [List.mem_singleton] at hnew
      rw [hnew]
      exact (h.of_held hholds).1
  row := by
    intro m hm
    by_cases hid : f.id = m.id
    · apply (h.row m hm).carry
      · rw [hheld]
      · show terminalMarks m.id (effects ++ [f]) = _
        rw [terminalMarks_append, ← hid, hmarks, List.append_nil]
      · intro hnot
        exact absurd (hid ▸ hholds) hnot
      · intro _
        show deliveryRounds m.id (effects ++ [f]) + stage.uncounted ≤
          deliveryRounds m.id effects + stage'.uncounted
        rw [deliveryRounds_append, ← hid]
        omega
    · apply (h.row m hm).carry
      · rw [hheld]
      · show terminalMarks m.id (effects ++ [f]) = _
        rw [terminalMarks_append, terminalMarks_other hid, List.append_nil]
      · intro _
        show deliveryRounds m.id (effects ++ [f]) = _
        rw [deliveryRounds_append, deliveryRounds_other hid]
        rfl
      · intro hyes
        exact absurd (Option.some.inj (hholds.symm.trans hyes)) hid
  held := by
    intro id hid
    obtain ⟨m, hm, hmid, hbound⟩ := h.held id (hheld.symm.trans hid)
    exact ⟨m, hm, hmid, fun item heq => hbound item (hitem.symm.trans heq)⟩
  recorded := hrecorded

variable {rest : List Nat}

theorem claim (h : PushInvariant ⟨db, ⟨stage, effects⟩⟩) (hfree : stage.held = none)
    (hquiet : stage.Quiet) {env : Env} {id : Nat} (hclaim : claimPushItem db env id = some db') :
    PushInvariant ⟨db', ⟨.loading id rest, effects ++ [.claimed id]⟩⟩ := by
  unfold claimPushItem at hclaim
  split at hclaim
  · rename_i hany
    cases hclaim
    rw [List.any_eq_true] at hany
    obtain ⟨m, hm, hpending⟩ := hany
    rw [Bool.and_eq_true, beq_iff_eq, beq_iff_eq] at hpending
    obtain ⟨rfl, hpending⟩ := hpending
    obtain ⟨hretry, hnone, hle⟩ := (h.row m hm).of_pending hpending
    have hmarks : ∀ id, terminalMarks id (effects ++ [.claimed m.id]) =
        terminalMarks id effects := by
      intro id
      rw [terminalMarks_append]
      exact List.append_nil _
    have hrounds : ∀ id, deliveryRounds id (effects ++ [.claimed m.id]) =
        deliveryRounds id effects := by
      intro id
      rw [deliveryRounds_append]
      rfl
    refine ⟨?_, ?_, ?_, ?_, ?_⟩
    · intro n hn
      obtain ⟨r, hr, rfl⟩ := (KeyedTable.mem_updateWhere (PushMessage.id_claimed env)).mp hn
      split
      · exact h.numbered r hr
      · exact h.numbered r hr
    · intro g hg
      rcases List.mem_append.mp hg with hold | hnew
      · exact h.known g hold
      · rw [List.mem_singleton] at hnew
        rw [hnew]
        exact h.numbered m hm
    · intro n hn
      obtain ⟨r, hr, rfl⟩ := (KeyedTable.mem_updateWhere (PushMessage.id_claimed env)).mp hn
      by_cases hid : r.id = m.id
      · have hsame : r = m := db.pushQueue.eq_of_key_eq hr hm hid
        subst hsame
        rw [if_pos (by simp [hpending])]
        refine .working rfl rfl hretry ((hmarks _).trans hnone) ?_
        show (deliveryRounds r.id (effects ++ [.claimed r.id]) : Int) ≤ r.retryCount + 0
        rw [hrounds, Int.add_zero]
        exact hle
      · rw [if_neg (by simp [hid])]
        apply (h.row r hr).carry
        · constructor
          · intro heq
            exact absurd (Option.some.inj heq).symm hid
          · intro heq
            exact absurd (hfree.symm.trans heq) (by simp)
        · exact hmarks r.id
        · intro _
          exact hrounds r.id
        · intro heq
          exact absurd (hfree.symm.trans heq) (by simp)
    · intro id heq
      cases heq
      have hclaimed : m.claimed env =
          if m.id == m.id && m.status == "pending" then m.claimed env else m := by
        rw [if_pos (by simp [hpending])]
      refine ⟨m.claimed env,
        (KeyedTable.mem_updateWhere (PushMessage.id_claimed env)).mpr ⟨m, hm, hclaimed⟩, rfl, ?_⟩
      intro item heq
      cases heq
    · apply h.recorded.append hquiet
      · intro id status post heq
        cases heq
      · exact hnone
      · rw [hrounds]
        exact h.recorded.rounds m.id
      · trivial
      · intro id
        rfl
      · intro item status error rest heq
        cases heq
      · intro id status heq
        cases heq
      · rintro id result - (hyes | ⟨item, -, heq⟩)
        · exact absurd hyes ((WorkerStage.of_free hfree).2.2 id result)
        · cases heq
      · intro item s heq
        cases heq
  · cases hclaim

variable {item : PushQueueItem}

theorem mark {mark : PushMark}
    (h : PushInvariant ⟨db, ⟨.marking item mark rest, effects⟩⟩) (env : Env)
    (hfree : stage'.held = none)
    (hrecorded : Recorded ⟨stage', effects ++ [.marked item.id (mark.status item.retryCount)]⟩) :
    PushInvariant ⟨markPushItem db env item mark,
      ⟨stage', effects ++ [.marked item.id (mark.status item.retryCount)]⟩⟩ := by
  obtain ⟨m, hm, hid, hbound⟩ := h.held item.id rfl
  have hitem : m.item = item := hbound item rfl
  subst hitem
  have hkey := PushMessage.id_marked env m.item.id m.item.retryCount mark
  refine ⟨?_, ?_, ?_, ?_, hrecorded⟩
  · intro n hn
    obtain ⟨r, hr, rfl⟩ := (KeyedTable.mem_updateWhere hkey).mp hn
    split
    · rw [PushMessage.id_marked]
      exact h.numbered r hr
    · exact h.numbered r hr
  · intro g hg
    rcases List.mem_append.mp hg with hold | hnew
    · exact h.known g hold
    · rw [List.mem_singleton] at hnew
      rw [hnew]
      exact h.numbered m hm
  · intro n hn
    obtain ⟨r, hr, rfl⟩ := (KeyedTable.mem_updateWhere hkey).mp hn
    by_cases hid : r.id = m.id
    · have hsame : r = m := db.pushQueue.eq_of_key_eq hr hm hid
      subst hsame
      have hyes : (r.id == r.item.id) = true := beq_self_eq_true r.id
      rw [if_pos hyes]
      exact (h.row r hr).marked rfl rfl hfree rfl env
    · have hno : ¬ (r.id == m.item.id) = true := fun heq => hid (beq_iff_eq.mp heq)
      rw [if_neg hno]
      have hother : PushEffect.id (.marked m.item.id (mark.status m.item.retryCount)) ≠ r.id :=
        Ne.symm hid
      have hnot : some m.item.id ≠ some r.id := by
        intro heq
        exact hid (Option.some.inj heq).symm
      apply (h.row r hr).carry
      · constructor
        · intro heq
          exact absurd (hfree.symm.trans heq) (by simp)
        · intro heq
          exact absurd heq hnot
      · show terminalMarks r.id (effects ++ _) = _
        rw [terminalMarks_append, terminalMarks_other hother, List.append_nil]
      · intro _
        show deliveryRounds r.id (effects ++ _) = _
        rw [deliveryRounds_append, deliveryRounds_other hother]
        rfl
      · intro heq
        exact absurd heq hnot
  · intro id heq
    exact absurd (hfree.symm.trans heq) (by simp)

theorem idle (h : PushInvariant ⟨db, ⟨stage, effects⟩⟩)
    (hqueue : db'.pushQueue = db.pushQueue) (hseq : db'.pushQueueSeq = db.pushQueueSeq)
    (hfree : stage.held = none) (hfree' : stage'.held = none) (hquiet : stage.Quiet)
    (hquiet' : stage'.Quiet) : PushInvariant ⟨db', ⟨stage', effects⟩⟩ := by
  obtain ⟨hzero, -, hsucceeds⟩ := WorkerStage.of_free hfree
  apply h.silent hqueue hseq (hfree'.trans hfree.symm) (hzero.symm ▸ Nat.zero_le _)
  · intro m _ hheld
    exact absurd (hfree.symm.trans hheld) (by simp)
  · apply h.recorded.move hquiet hquiet' (WorkerStage.of_free hfree').2.1
    intro id result _ hyes
    exact absurd hyes (hsucceeds id result)

theorem reclaim_queue (h : PushInvariant ⟨db, ⟨stage, effects⟩⟩) (hfree : stage.held = none)
    (env : Env) : (reclaimStaleProcessingItems db env).pushQueue = db.pushQueue := by
  apply KeyedTable.ext
  show (db.pushQueue.rows.map fun m => if m.isStale env then m.reclaimed else m) = _
  rw [List.map_congr_left (g := id), List.map_id]
  intro m hm
  have hfresh : m.status ≠ "processing" := by
    rw [ne_eq, (h.row m hm).processing_iff]
    intro hheld
    exact absurd (hfree.symm.trans hheld) (by simp)
  have hno : ¬ m.isStale env = true := by simp [PushMessage.isStale, hfresh]
  exact if_neg hno

variable {round : PushRound} {s : PushSubscription}

theorem unserved (h : PushInvariant ⟨db, ⟨.delivering round rest, effects⟩⟩)
    (hs : s ∈ round.waiting) {result : DeliveryResult}
    (hmem : .returned item result ∈ effects) (hok : result.error = none)
    (hid : item.id = round.item.id) : s.id ≠ result.subscription.id := by
  rcases h.recorded.delivered item result hmem hok with hmarked | ⟨-, hresult⟩
  · rw [hid] at hmarked
    exact absurd (h.of_held rfl).2.1 hmarked
  · have hdistinct : ((round.waiting ++ round.inFlight ++
        round.results.map (·.subscription)).map (·.id)).Nodup := h.recorded.distinct
    rw [List.append_assoc, List.map_append, List.nodup_append] at hdistinct
    apply hdistinct.2.2 _ (List.mem_map_of_mem hs)
    apply List.mem_map_of_mem
    exact List.mem_append_right _ (List.mem_map_of_mem hresult)

theorem notify {status : String} {error : Option String}
    (h : PushInvariant ⟨db, ⟨.notifying item status error rest, effects⟩⟩)
    (post : Option WebhookPost) :
    PushInvariant ⟨db, ⟨.claiming rest, effects ++ [.webhook item.id status post]⟩⟩ where
  numbered := h.numbered
  known := by
    have hlast := h.recorded.notified item status error rest rfl
    have hid : item.id ≤ db.pushQueueSeq :=
      h.known (.marked item.id status) (List.mem_of_getLast? hlast)
    intro g hg
    rcases List.mem_append.mp hg with hold | hnew
    · exact h.known g hold
    · rw [List.mem_singleton] at hnew
      rw [hnew]
      exact hid
  row := by
    intro m hm
    apply (h.row m hm).carry
    · exact Iff.rfl
    · show terminalMarks m.id (effects ++ _) = _
      rw [terminalMarks_append]
      exact List.append_nil _
    · intro _
      show deliveryRounds m.id (effects ++ _) = _
      rw [deliveryRounds_append]
      rfl
    · nofun
  held := by
    intro id hid
    cases hid
  recorded := h.recorded.notify post

theorem load {id : Nat} (h : PushInvariant ⟨db, ⟨.loading id rest, effects⟩⟩)
    {m : PushMessage} (hfound : db.pushQueue.find? id = some m) :
    PushInvariant ⟨db, ⟨.matching m.item rest, effects⟩⟩ := by
  obtain ⟨hmem, hid⟩ := KeyedTable.find?_eq_some.mp hfound
  apply h.silent rfl rfl
  · exact congrArg some hid
  · exact Nat.le_refl 0
  · intro n hn hheld _ item heq
    have hsame := db.pushQueue.eq_of_key_eq hn hmem ((Option.some.inj hheld).symm.trans hid.symm)
    cases heq
    rw [hsame]
  · exact h.recorded.move (.of trivial) (.of trivial) trivial (fun _ _ _ hno => hno)

theorem matched
    (h : PushInvariant ⟨db, ⟨.matching item rest, effects⟩⟩) {found : List PushSubscription}
    (hfound : db.pushSubscriptions.select (matchesItem item) = found) :
    PushInvariant ⟨db, ⟨.delivering ⟨item, found, found, [], []⟩ rest,
      effects ++ [.round item.id]⟩⟩ := by
  obtain ⟨-, hopen, htwo⟩ := h.of_held rfl
  refine h.work rfl rfl rfl rfl ?_ ?_
  · simp [deliveryRounds, WorkerStage.uncounted, PushEffect.id]
  · refine h.recorded.append (.of trivial) (by rintro _ _ _ ⟨⟩) hopen ?_ ?_ (fun _ => rfl)
      (by rintro _ _ _ _ ⟨⟩) (by rintro _ _ ⟨⟩) ?_ (by rintro _ _ ⟨⟩)
    · rw [deliveryRounds_append]
      have hone : deliveryRounds item.id [.round item.id] = 1 := by simp [deliveryRounds]
      exact (congrArg (_ + ·) hone).trans_le (Nat.add_le_add_right htwo 1)
    · rw [← hfound]
      show ((_ ++ [] ++ [].map _).map _).Nodup
      rw [List.map_nil, List.append_nil, List.append_nil]
      exact db.pushSubscriptions.nodup.sublist (List.filter_sublist.map _)
    · rintro id result - (hno | ⟨item, -, heq⟩)
      · exact hno.elim
      · cases heq

theorem startDelivery (h : PushInvariant ⟨db, ⟨.delivering round rest, effects⟩⟩) {k : Nat}
    (hs : round.waiting[k]? = some s) :
    PushInvariant ⟨db, ⟨.delivering { round with waiting := round.waiting.eraseIdx k
                                                 inFlight := round.inFlight ++ [s] } rest,
      effects ++ [.started round.item s]⟩⟩ := by
  obtain ⟨-, hopen, hthree⟩ := h.of_held rfl
  refine h.work rfl rfl rfl rfl (Nat.le_refl 1) ?_
  refine h.recorded.append (.of trivial) (by rintro _ _ _ ⟨⟩) hopen ?_
    (h.recorded.distinct.start hs) (fun _ => rfl) (by rintro _ _ _ _ ⟨⟩) (by rintro _ _ ⟨⟩) ?_ ?_
  · rw [deliveryRounds_append]
    exact hthree
  · rintro id result - (hyes | ⟨item, -, heq⟩)
    · exact .inr hyes
    · cases heq
  · intro item s heq item' result hmem hok hid
    cases heq
    exact h.unserved (List.mem_of_getElem? hs) hmem hok hid

theorem finishDelivery (h : PushInvariant ⟨db, ⟨.delivering round rest, effects⟩⟩) {k : Nat}
    (hs : round.inFlight[k]? = some s) (error : Option DeliveryError) :
    PushInvariant ⟨db, ⟨.delivering { round with inFlight := round.inFlight.eraseIdx k
                                                 results := round.results ++ [⟨s, error⟩] } rest,
      effects ++ [.returned round.item ⟨s, error⟩]⟩⟩ := by
  obtain ⟨-, hopen, hthree⟩ := h.of_held rfl
  refine h.work rfl rfl rfl rfl (Nat.le_refl 1) ?_
  refine h.recorded.append (.of trivial) (by rintro _ _ _ ⟨⟩) hopen ?_
    (h.recorded.distinct.finish hs error) (fun _ => rfl) (by rintro _ _ _ _ ⟨⟩)
    (by rintro _ _ ⟨⟩) ?_ (by rintro _ _ ⟨⟩)
  · rw [deliveryRounds_append]
    exact hthree
  · rintro id result - (⟨hid, hyes⟩ | ⟨item, hid, heq⟩)
    · exact .inr ⟨hid, List.mem_append_left _ hyes⟩
    · cases heq
      exact .inr ⟨hid, List.mem_append_right _ (List.mem_singleton_self _)⟩

theorem pruned (h : PushInvariant ⟨db, ⟨.pruning round [] rest, effects⟩⟩) :
    PushInvariant ⟨db, ⟨.marking round.item (roundMark round.results) rest, effects⟩⟩ := by
  refine h.silent rfl rfl rfl (Nat.le_refl 1) (fun _ _ _ hbound => hbound) ?_
  refine h.recorded.move (.of trivial) (.of trivial) trivial ?_
  rintro id result hok ⟨hid, hresult⟩
  have hany : round.results.any (fun r => r.error.isNone) = true :=
    List.any_eq_true.mpr ⟨result, hresult, by simp [hok]⟩
  exact ⟨hid, _, _, by rw [roundMark, if_pos hany]⟩

theorem retry {mark : PushMark}
    (h : PushInvariant ⟨db, ⟨.marking item mark rest, effects⟩⟩) (env : Env)
    (hpending : mark.status item.retryCount = "pending") :
    PushInvariant ⟨markPushItem db env item mark,
      ⟨.claiming rest, effects ++ [.marked item.id "pending"]⟩⟩ := by
  obtain ⟨-, hopen, hthree⟩ := h.of_held rfl
  rw [← hpending]
  refine h.mark env rfl ?_
  rw [hpending]
  have hnone : ∀ id, terminalMarks id [.marked item.id "pending"] = [] := by
    intro id
    simp [terminalMarks, isTerminalStatus]
  refine h.recorded.append (.of trivial) (by rintro _ _ _ ⟨⟩) hopen ?_ trivial hnone
    (by rintro _ _ _ _ ⟨⟩) ?_ ?_ (by rintro _ _ ⟨⟩)
  · rw [deliveryRounds_append]
    exact hthree
  · intro id status heq hterminal
    cases heq
    exact absurd hterminal (by decide)
  · -- a round with a success does not end so
    rintro id result - (⟨-, note, failed, rfl⟩ | ⟨item, -, heq⟩)
    · exact absurd hpending (by simp [PushMark.status])
    · cases heq

theorem settle {mark : PushMark}
    (h : PushInvariant ⟨db, ⟨.marking item mark rest, effects⟩⟩) (env : Env)
    (hterminal : isTerminalStatus (mark.status item.retryCount)) :
    PushInvariant ⟨markPushItem db env item mark,
      ⟨.notifying item (mark.status item.retryCount) mark.error rest,
        effects ++ [.marked item.id (mark.status item.retryCount)]⟩⟩ := by
  obtain ⟨-, hopen, hthree⟩ := h.of_held rfl
  refine h.mark env rfl ?_
  have hone : ∀ id, terminalMarks id [.marked item.id (mark.status item.retryCount)] =
      if item.id = id then [mark.status item.retryCount] else [] := by
    intro id
    by_cases hid : item.id = id
    · simp [terminalMarks, hid, hterminal]
    · simp [terminalMarks, hid]
  refine h.recorded.append (.of trivial) (by rintro _ _ _ ⟨⟩) hopen ?_ trivial hone ?_ ?_ ?_
    (by rintro _ _ ⟨⟩)
  · rw [deliveryRounds_append]
    exact hthree
  · intro item' status error rest' heq
    cases heq
    rfl
  · intro id status heq _
    cases heq
    exact ⟨item, mark.error, rest, rfl, rfl⟩
  · rintro id result - (⟨hid, -⟩ | ⟨item', -, heq⟩)
    · left
      rw [hone, if_pos hid]
      exact List.cons_ne_nil _ _
    · cases heq

/-- **One tick.** -/
theorem tick {e : WorkerEnv} {w' : PushRun} (h : PushInvariant ⟨db, ⟨stage, effects⟩⟩)
    (hmove : PushRun.Moves e db effects stage db' w') : PushInvariant ⟨db', w'⟩ := by
  cases hmove with
  | reclaim => exact h.idle (h.reclaim_queue rfl e.env) rfl rfl rfl (.of trivial) (.of trivial)
  | select => exact h.idle rfl rfl rfl rfl (.of trivial) (.of trivial)
  | done => exact h.idle rfl rfl rfl rfl (.of trivial) (.of trivial)
  | skip id rest => exact h.idle rfl rfl rfl rfl (.of trivial) (.of trivial)
  | claim id rest hclaim => exact h.claim rfl (.of trivial) hclaim
  | lost id rest hnone =>
    -- what is held is in the queue
    obtain ⟨m, hm, hid, -⟩ := h.held id rfl
    rw [KeyedTable.find?_eq_some.mpr ⟨hm, hid⟩] at hnone
    cases hnone
  | load rest hfound => exact h.load hfound
  | unmatched item rest =>
    refine h.silent rfl rfl rfl (Nat.zero_le 1) (fun _ _ _ hbound => hbound) ?_
    exact h.recorded.move (.of trivial) (.of trivial) trivial (fun _ _ _ hno => hno.elim)
  | matched item rest hfound => exact h.matched hfound
  | start round rest hs => exact h.startDelivery hs
  | finish round rest hs => exact h.finishDelivery hs e.result
  | join round rest hwaiting hflight =>
    refine h.silent rfl rfl rfl (Nat.le_refl 1) (fun _ _ _ hbound => hbound) ?_
    exact h.recorded.move (.of trivial) (.of trivial) trivial (fun _ _ _ hyes => hyes)
  | prune round endpoint dead rest hqueue hseq =>
    refine h.silent hqueue hseq rfl (Nat.le_refl 1) (fun _ _ _ hbound => hbound) ?_
    exact h.recorded.move (.of trivial) (.of trivial) trivial (fun _ _ _ hyes => hyes)
  | pruned round rest => exact h.pruned
  | retry item mark rest hpending => exact h.retry e.env hpending
  | settle item mark rest hterminal => exact h.settle e.env hterminal
  | notify item status error rest => exact h.notify _
  | finished => exact h
  | failed => exact h

end PushInvariant

/-! ### One event -/

theorem EnqueuePushInput.audit_frame (input : EnqueuePushInput) (db : Db) (env : Env) :
    ∃ logs, input.audit db env = { db with auditLogs := logs } :=
  Db.recordAuditLog_frame db env _ _ _ _ _ _ _

/-- What a statement of `enqueue_push` can do to the queue. -/
theorem EnqueuePushCall.step_queue (env : Env) (db : Db) (c : EnqueuePushCall) :
    ((c.step env db).1.pushQueue = db.pushQueue ∧
      (c.step env db).1.pushQueueSeq = db.pushQueueSeq) ∨
    (db.pushQueue.insert? { c.input.message env with id := db.pushQueueSeq + 1 } =
        some (c.step env db).1.pushQueue ∧
      (c.step env db).1.pushQueueSeq = db.pushQueueSeq + 1) := by
  obtain ⟨input, stage⟩ := c
  cases stage with
  | received =>
    simp only [step]
    split
    · exact .inl ⟨rfl, rfl⟩
    · exact .inl ⟨rfl, rfl⟩
  | targetFound =>
    simp only [step]
    split
    · exact .inl ⟨rfl, rfl⟩
    · exact .inl ⟨rfl, rfl⟩
  | unqueued =>
    simp only [step]
    split
    · exact .inl ⟨rfl, rfl⟩
    · exact .inl ⟨rfl, rfl⟩
  | workspaceFound workspaceId => exact .inl ⟨rfl, rfl⟩
  | counted workspaceId used =>
    simp only [step]
    split
    · exact .inl ⟨rfl, rfl⟩
    · exact .inl ⟨rfl, rfl⟩
  | checked workspaceId =>
    simp only [step]
    cases hinsert : db.insertPushMessage (input.message env) with
    | none => exact .inl ⟨rfl, rfl⟩
    | some inserted =>
      unfold Db.insertPushMessage at hinsert
      dsimp only at hinsert
      split at hinsert
      · obtain ⟨queue, hqueue, rfl⟩ := Option.map_eq_some_iff.mp hinsert
        exact .inr ⟨hqueue, rfl⟩
      · cases hinsert
  | inserted workspaceId id =>
    obtain ⟨counters, hframe⟩ := recordUsage_frame db env workspaceId .pushSendsMonth 1
    have hstep : (step env db ⟨input, .inserted workspaceId id⟩).1 =
        { db with usageCounters := counters } := hframe
    rw [hstep]
    exact .inl ⟨rfl, rfl⟩
  | usageRecorded id =>
    obtain ⟨logs, hframe⟩ := input.audit_frame db env
    have hstep : (step env db ⟨input, .usageRecorded id⟩).1 =
        { db with auditLogs := logs } := hframe
    rw [hstep]
    exact .inl ⟨rfl, rfl⟩
  | completed id => exact .inl ⟨rfl, rfl⟩
  | refused error => exact .inl ⟨rfl, rfl⟩

namespace PushInvariant

theorem enqueued {db db' : Db} {w : PushRun} (h : PushInvariant ⟨db, w⟩) {m : PushMessage}
    (hinsert : db.pushQueue.insert? { m with id := db.pushQueueSeq + 1 } = some db'.pushQueue)
    (hseq : db'.pushQueueSeq = db.pushQueueSeq + 1) (hstatus : m.status = "pending")
    (hretry : m.retryCount = 0) : PushInvariant ⟨db', w⟩ := by
  -- nothing has been done with the next number
  have hfresh : ∀ f ∈ w.effects, f.id ≠ db.pushQueueSeq + 1 := by
    intro f hf heq
    have hle := h.known f hf
    rw [heq] at hle
    exact absurd hle (Nat.not_succ_le_self _)
  have hheld : w.stage.held ≠ some (db.pushQueueSeq + 1) := by
    intro hid
    exact absurd (h.of_held hid).1 (Nat.not_succ_le_self _)
  have hmarks : terminalMarks (db.pushQueueSeq + 1) w.effects = [] := by
    rw [List.eq_nil_iff_forall_not_mem]
    intro status hmem
    exact hfresh _ (mem_terminalMarks.mp hmem).1 rfl
  have hrounds : deliveryRounds (db.pushQueueSeq + 1) w.effects = 0 := by
    rw [deliveryRounds, List.count_eq_zero]
    intro hmem
    exact hfresh _ hmem rfl
  refine ⟨?_, ?_, ?_, ?_, h.recorded⟩
  · intro n hn
    show n.id ≤ db'.pushQueueSeq
    rw [hseq]
    rcases (KeyedTable.mem_insert? hinsert).mp hn with hold | rfl
    · exact Nat.le_succ_of_le (h.numbered n hold)
    · exact Nat.le_refl _
  · intro f hf
    show f.id ≤ db'.pushQueueSeq
    rw [hseq]
    exact Nat.le_succ_of_le (h.known f hf)
  · intro n hn
    rcases (KeyedTable.mem_insert? hinsert).mp hn with hold | rfl
    · exact h.row n hold
    · refine .waiting hstatus hheld ?_ hmarks ?_
      · rw [hretry]
        decide
      · show (deliveryRounds (db.pushQueueSeq + 1) w.effects : Int) ≤ m.retryCount
        rw [hrounds, hretry]
        rfl
  · intro id hid
    obtain ⟨n, hn, hbound⟩ := h.held id hid
    exact ⟨n, (KeyedTable.mem_insert? hinsert).mpr (.inl hn), hbound⟩

theorem cleanup {db : Db} {w : PushRun} (h : PushInvariant ⟨db, w⟩) (env : Env) :
    PushInvariant ⟨cleanupOldItems db env, w⟩ := by
  refine ⟨?_, h.known, ?_, ?_, h.recorded⟩
  · intro m hm
    exact h.numbered m (KeyedTable.mem_deleteWhere.mp hm).1
  · intro m hm
    exact h.row m (KeyedTable.mem_deleteWhere.mp hm).1
  · intro id hid
    obtain ⟨m, hm, rfl, hbound⟩ := h.held id hid
    refine ⟨m, KeyedTable.mem_deleteWhere.mpr ⟨hm, ?_⟩, rfl, hbound⟩
    simp [((h.row m hm).of_held hid).1]

/-- **One event.** -/
theorem step {s : PushSystem} (h : PushInvariant s) (event : PushEvent) :
    PushInvariant (s.step event) := by
  obtain ⟨db, w⟩ := s
  -- nothing changes that the worker looks at
  have hsame : ∀ db' : Db, db'.pushQueue = db.pushQueue → db'.pushQueueSeq = db.pushQueueSeq →
      PushInvariant ⟨db', w⟩ := by
    intro db' hqueue hseq
    exact h.silent hqueue hseq rfl (Nat.le_refl _) (fun _ _ _ hbound => hbound) h.recorded
  cases event with
  | tick e => exact h.tick (PushRun.advance_moves e db w)
  | call =>
    unfold PushSystem.step
    dsimp only
    split
    · rename_i hover
      have hquiet : w.stage.Quiet := by
        rcases hover with heq | heq
        · rw [heq]
          nofun
        · rw [heq]
          nofun
      have hfree : w.stage.held = none := by
        rcases hover with heq | heq
        · rw [heq]
          rfl
        · rw [heq]
          rfl
      exact h.idle rfl rfl hfree rfl hquiet (.of trivial)
    · exact h
  | cleanup env => exact h.cleanup env
  | enqueue env c =>
    rcases c.step_queue env db with ⟨hqueue, hseq⟩ | ⟨hinsert, hseq⟩
    · exact hsame _ hqueue hseq
    · exact h.enqueued hinsert hseq rfl rfl
  | elsewhere db' => exact hsame _ rfl rfl

end PushInvariant

theorem PushInvariant.start (db : Db) : PushInvariant (.start db) where
  numbered := by
    intro m hm
    cases hm
  known := by
    intro f hf
    cases hf
  row := by
    intro m hm
    cases hm
  held := by
    intro id hid
    cases hid
  recorded :=
    { distinct := trivial, rounds := fun _ => Nat.zero_le 3, marks := fun _ => Nat.zero_le 1
      announced := fun _ => rfl, delivered := nofun, notified := nofun, last := nofun
      order := .nil, adjacent := .nil }

/-! ### The life of a message -/

/-- What holds of the messages of a queue and of what the worker has done with them. -/
structure PushLifecycle (s : PushSystem) : Prop where
  /-- A message that is not final has an attempt left. -/
  running : ∀ m ∈ s.db.pushQueue, m.status = "pending" ∨ m.status = "processing" →
    m.retryCount ≤ 2
  failed : ∀ m ∈ s.db.pushQueue, m.status = "failed" ↔ m.retryCount = 3
  sent : ∀ m ∈ s.db.pushQueue, m.status = "sent" → m.retryCount ≤ 2
  rounds : ∀ id, deliveryRounds id s.worker.effects ≤ 3
  /-- A final status is the one transition of its message into one. -/
  marks : ∀ m ∈ s.db.pushQueue, terminalMarks m.id s.worker.effects =
    if isTerminalStatus m.status then [m.status] else []
  once : ∀ id, (terminalMarks id s.worker.effects).length ≤ 1
  /-- After it the message is not claimed, and it is never sent again to one that got it. -/
  order : s.worker.effects.Pairwise MayFollow
  /-- The webhook is called for each such transition, at once and with its status. -/
  announced : ∀ id, terminalMarks id s.worker.effects =
    webhooks id s.worker.effects ++ s.worker.stage.unannounced id
  adjacent : s.worker.effects.IsChain MayFollowAtOnce

theorem PushInvariant.lifecycle {s : PushSystem} (h : PushInvariant s) : PushLifecycle s := by
  refine ⟨?_, ?_, ?_, h.recorded.rounds, ?_, h.recorded.marks, h.recorded.order,
    h.recorded.announced, h.recorded.adjacent⟩
  · intro m hm hstatus
    rcases h.row m hm with ⟨-, -, hcount, -⟩ | ⟨-, -, hcount, -⟩ | ⟨-, hcount, -⟩
    · exact hcount.2
    · exact hcount.2
    · rcases hcount with ⟨hsent, hcount⟩ | ⟨hfailed, -⟩
      · exact hcount
      · rw [hfailed] at hstatus
        exact absurd hstatus (by decide)
  · intro m hm
    rcases h.row m hm with ⟨hstatus, -, hcount, -⟩ | ⟨hstatus, -, hcount, -⟩ | ⟨-, hcount, -⟩
    · rw [hstatus]
      exact iff_of_false (by decide) (by omega)
    · rw [hstatus]
      exact iff_of_false (by decide) (by omega)
    · rcases hcount with ⟨hstatus, hcount⟩ | ⟨hstatus, hcount⟩
      · rw [hstatus]
        exact iff_of_false (by decide) (by omega)
      · exact iff_of_true hstatus hcount
  · intro m hm hsent
    rcases h.row m hm with ⟨-, -, hcount, -⟩ | ⟨-, -, hcount, -⟩ | ⟨-, hcount, -⟩
    · exact hcount.2
    · exact hcount.2
    · rcases hcount with ⟨-, hcount⟩ | ⟨hfailed, -⟩
      · exact hcount
      · rw [hfailed] at hsent
        exact absurd hsent (by decide)
  · intro m hm
    rcases h.row m hm with ⟨hstatus, -, -, hmarks, -⟩ | ⟨hstatus, -, -, hmarks, -⟩ |
      ⟨-, hcount, hmarks⟩
    · rw [hmarks, if_neg (by rw [hstatus]; decide)]
    · rw [hmarks, if_neg (by rw [hstatus]; decide)]
    · rcases hcount with ⟨hstatus, -⟩ | ⟨hstatus, -⟩
      · rw [hmarks, if_pos (.inl hstatus)]
      · rw [hmarks, if_pos (.inr hstatus)]

theorem PushInvariant.run (db : Db) (events : List PushEvent) :
    PushInvariant (Transition.run PushSystem.step (.start db) events) :=
  Transition.run_preserves (fun _ event hs => hs.step event) (PushInvariant.start db) events

end Peanut
