import Peanut.Push.Lifecycle

/-!
# Whom a push message reaches

A message is queued for a user or for the ntfy subscriptions of a topic.  The
queue keeps both in one table, whose user column refers to a user: a message for a
topic has none, so its row is refused.  What does get into the queue is delivered
to exactly the subscriptions it is for.
-/

namespace Peanut

open Relational

/-! ### The states of a queue -/

/-- The states of a database as far as the queue goes: messages are queued, worked
    on and deleted, and anything may happen to the other relations. -/
inductive QueueReachable : Db → Prop where
  | start {db : Db} (hempty : db.pushQueue = .empty) : QueueReachable db
  | enqueue {db : Db} (h : QueueReachable db) (env : Env) (c : EnqueuePushCall) :
      QueueReachable (c.step env db).1
  | work {db : Db} (h : QueueReachable db) (e : WorkerEnv) (r : PushRun) :
      QueueReachable (r.step e db).1
  | delete {db : Db} (h : QueueReachable db) (p : PushMessage → Bool) :
      QueueReachable { db with pushQueue := db.pushQueue.deleteWhere p }
  | elsewhere {db db' : Db} (h : QueueReachable db) (hqueue : db'.pushQueue = db.pushQueue)
      (hseq : db'.pushQueueSeq = db.pushQueueSeq) : QueueReachable db'

/-- No message has a number that is still to come. -/
def QueueNumbered (db : Db) : Prop := ∀ m ∈ db.pushQueue, m.id ≤ db.pushQueueSeq

theorem QueueNumbered.updateWhere {db : Db} (h : QueueNumbered db) {p : PushMessage → Bool}
    {g : PushMessage → PushMessage} (hg : ∀ m, (g m).id = m.id) :
    ∀ m ∈ db.pushQueue.updateWhere p g hg, m.id ≤ db.pushQueueSeq := by
  intro n hn
  obtain ⟨m, hm, rfl⟩ := (KeyedTable.mem_updateWhere hg).mp hn
  split
  · rw [hg]
    exact h m hm
  · exact h m hm

theorem QueueNumbered.advance {db db' : Db} {e : WorkerEnv} {effects : List PushEffect}
    {stage : WorkerStage} {r : PushRun} (h : QueueNumbered db)
    (hmove : PushRun.Moves e db effects stage db' r) : QueueNumbered db' := by
  cases hmove with
  | reclaim => exact h.updateWhere PushMessage.id_reclaimed
  | claim id rest hclaim =>
    unfold claimPushItem at hclaim
    split at hclaim
    · cases hclaim
      exact h.updateWhere (PushMessage.id_claimed e.env)
    · cases hclaim
  | prune round endpoint dead rest hqueue hseq =>
    unfold QueueNumbered
    rw [hqueue, hseq]
    exact h
  | retry item mark rest hpending =>
    exact h.updateWhere (PushMessage.id_marked e.env item.id item.retryCount mark)
  | settle item mark rest hterminal =>
    exact h.updateWhere (PushMessage.id_marked e.env item.id item.retryCount mark)
  | _ => exact h

theorem QueueReachable.numbered {db : Db} (h : QueueReachable db) : QueueNumbered db := by
  induction h with
  | start hempty =>
    intro m hm
    rw [hempty] at hm
    cases hm
  | enqueue _ env c ih =>
    rename_i db _
    unfold QueueNumbered
    rcases c.step_queue env db with ⟨hqueue, hseq⟩ | ⟨hinsert, hseq⟩
    · rw [hqueue, hseq]
      exact ih
    · rw [hseq]
      intro m hm
      rcases (KeyedTable.mem_insert? hinsert).mp hm with hold | rfl
      · exact Nat.le_succ_of_le (ih m hold)
      · exact Nat.le_refl _
  | work _ e r ih =>
    unfold PushRun.step
    split
    · exact ih
    · exact ih.advance (PushRun.advance_moves e _ r)
  | delete _ p ih =>
    intro m hm
    exact ih m (KeyedTable.mem_deleteWhere.mp hm).1
  | elsewhere _ hqueue hseq ih =>
    unfold QueueNumbered
    rw [hqueue, hseq]
    exact ih

/-! ### What is asked of a message -/

/-- A subscription without keys is one to an ntfy topic. -/
def PushSubscription.isNtfy (s : PushSubscription) : Bool := s.p256dh == "" && s.auth == ""

/-- The subscriptions of the app that a message is for. -/
def audience (db : Db) (input : EnqueuePushInput) : List PushSubscription :=
  db.pushSubscriptions.select fun s =>
    s.appId == input.appId &&
      match input.broadcastTag with
      | some tag => s.isNtfy && s.endpoint == tag
      | none => s.userId == input.targetUserId

/-- The subscriptions to which a worker has started to deliver a message. -/
def attempted (id : Nat) (effects : List PushEffect) : List PushSubscription :=
  effects.filterMap fun
    | .started item s => if item.id = id then some s else none
    | _ => none

/-- A worker that takes the message up, after some ticks. -/
def processed (db : Db) (id : Nat) (ticks : List WorkerEnv) : PushSystem :=
  Transition.run PushSystem.step ⟨db, ⟨.claiming [id], []⟩⟩ (ticks.map .tick)

/-- The input passes the checks of `enqueue_push`, in the order in which they are
    made: a message that is queued already is answered before the quota is looked at. -/
structure PassesChecks (db : Db) (env : Env) (input : EnqueuePushInput) : Prop where
  target : input.requireTarget db = .ok ()
  unqueued : input.queued db = none
  quota : ∃ workspaceId,
    requireAppResourceAvailable db env input.appId .pushSendsMonth 1 = .ok workspaceId

/-- One pending row is queued under the number that is answered, and whenever it is
    processed, delivery is attempted to the audience: to no one else at any time, to
    no one twice, and to all of it after so many ticks. -/
structure ReachesAudience (db : Db) (env : Env) (input : EnqueuePushInput) (m : PushMessage) :
    Prop where
  answer : (enqueuePush db env input).2 = .ok { id := m.id, status := "pending" }
  row : (enqueuePush db env input).1.pushQueue.rows = db.pushQueue.rows ++ [m]
  pending : m.status = "pending"
  only : ∀ later : Db, m ∈ later.pushQueue → ∀ ticks,
    (attempted m.id (processed later m.id ticks).worker.effects).Subperm (audience later input)
  all : ∀ later : Db, m ∈ later.pushQueue → ∀ ticks,
    3 + 2 * (audience later input).length ≤ ticks.length →
    (attempted m.id (processed later m.id ticks).worker.effects).Perm (audience later input)

/-! ### A round -/

section Round

variable {id : Nat} {subs : List PushSubscription} {n : Nat}

theorem attempted_append (id : Nat) (effects rest : List PushEffect) :
    attempted id (effects ++ rest) = attempted id effects ++ attempted id rest :=
  List.filterMap_append

/-- Delivery is under way for `n` ticks, or it has been attempted to everyone. -/
def Served (id : Nat) (subs : List PushSubscription) (n : Nat) (w : PushRun) : Prop :=
  match w.stage with
  | .delivering round rest => rest = [] ∧ round.item.id = id ∧
      (attempted id w.effects ++ round.waiting).Perm subs ∧
      n + 2 * round.waiting.length + round.inFlight.length = 2 * subs.length
  | .pruning _ _ rest => rest = [] ∧ (attempted id w.effects).Perm subs
  | .marking _ _ rest => rest = [] ∧ (attempted id w.effects).Perm subs
  | .notifying _ _ _ rest => rest = [] ∧ (attempted id w.effects).Perm subs
  | .claiming ids => ids = [] ∧ (attempted id w.effects).Perm subs
  | .finished => (attempted id w.effects).Perm subs
  | _ => False

/-- **One tick** of a round: a subscription waits, or it has been attempted. -/
theorem Served.tick {e : WorkerEnv} {db db' : Db} {stage : WorkerStage}
    {effects : List PushEffect} {w : PushRun} (h : Served id subs n ⟨stage, effects⟩)
    (hmove : PushRun.Moves e db effects stage db' w) : Served id subs (n + 1) w := by
  have hquiet : ∀ f : PushEffect, attempted id [f] = [] →
      (attempted id effects).Perm subs → (attempted id (effects ++ [f])).Perm subs := by
    intro f hf hperm
    rw [attempted_append, hf, List.append_nil]
    exact hperm
  cases hmove with
  | reclaim => exact h.elim
  | select => exact h.elim
  | done => exact h.2
  | skip id rest => exact absurd h.1 (List.cons_ne_nil _ _)
  | claim id rest hclaim => exact absurd h.1 (List.cons_ne_nil _ _)
  | lost id rest hnone => exact h.elim
  | load rest hfound => exact h.elim
  | unmatched item rest => exact h.elim
  | matched item rest hfound => exact h.elim
  | start round rest hs =>
    obtain ⟨hrest, hid, hperm, hcount⟩ := h
    rename_i k s
    obtain ⟨hk, hget⟩ := List.getElem?_eq_some_iff.mp hs
    refine ⟨hrest, hid, ?_, ?_⟩
    · have hnew : attempted id [.started round.item s] = [s] := by simp [attempted, hid]
      have hmoved : ([s] ++ round.waiting.eraseIdx k).Perm round.waiting := by
        rw [← hget]
        exact List.getElem_cons_eraseIdx_perm hk
      rw [attempted_append, hnew, List.append_assoc]
      exact (hmoved.append_left (attempted id effects)).trans hperm
    · show n + 1 + 2 * (round.waiting.eraseIdx k).length + (round.inFlight ++ [s]).length = _
      rw [List.length_eraseIdx_of_lt hk, List.length_append, List.length_singleton]
      omega
  | finish round rest hs =>
    obtain ⟨hrest, hid, hperm, hcount⟩ := h
    rename_i k s
    obtain ⟨hk, -⟩ := List.getElem?_eq_some_iff.mp hs
    refine ⟨hrest, hid, ?_, ?_⟩
    · rw [attempted_append]
      exact (List.append_nil (attempted id effects)).symm ▸ hperm
    · show n + 1 + 2 * round.waiting.length + (round.inFlight.eraseIdx k).length = _
      rw [List.length_eraseIdx_of_lt hk]
      omega
  | join round rest hwaiting hflight =>
    obtain ⟨hrest, hid, hperm, hcount⟩ := h
    rw [hwaiting, List.append_nil] at hperm
    exact ⟨hrest, hperm⟩
  | prune round endpoint dead rest hqueue hseq => exact h
  | pruned round rest => exact h
  | retry item mark rest hpending => exact ⟨h.1, hquiet _ rfl h.2⟩
  | settle item mark rest hterminal => exact ⟨h.1, hquiet _ rfl h.2⟩
  | notify item status error rest => exact ⟨h.1, hquiet _ rfl h.2⟩
  | finished => exact h
  | failed => exact h

theorem Served.run {s : PushSystem} (h : Served id subs n s.worker) (ticks : List WorkerEnv) :
    Served id subs (n + ticks.length)
      (Transition.run PushSystem.step s (ticks.map .tick)).worker := by
  induction ticks generalizing s n with
  | nil => exact h
  | cons e ticks ih =>
    have hnext := ih (h.tick (PushRun.advance_moves e s.db s.worker) :
      Served id subs (n + 1) (s.step (.tick e)).worker)
    rw [List.length_cons, Nat.add_comm ticks.length, ← Nat.add_assoc]
    exact hnext

theorem Served.subperm {w : PushRun} (h : Served id subs n w) :
    (attempted id w.effects).Subperm subs := by
  obtain ⟨stage, effects⟩ := w
  cases stage with
  | delivering round rest =>
    obtain ⟨-, -, hperm, -⟩ := h
    exact (List.sublist_append_left _ _).subperm.trans hperm.subperm
  | pruning round dead rest => exact h.2.subperm
  | marking item mark rest => exact h.2.subperm
  | notifying item status error rest => exact h.2.subperm
  | claiming ids => exact h.2.subperm
  | finished => exact List.Perm.subperm h
  | _ => exact h.elim

theorem Served.perm {w : PushRun} (h : Served id subs n w) (hlong : 2 * subs.length ≤ n) :
    (attempted id w.effects).Perm subs := by
  obtain ⟨stage, effects⟩ := w
  cases stage with
  | delivering round rest =>
    obtain ⟨-, -, hperm, hcount⟩ := h
    have hwaiting : round.waiting = [] := by
      rw [← List.length_eq_zero_iff]
      omega
    rw [hwaiting, List.append_nil] at hperm
    exact hperm
  | pruning round dead rest => exact h.2
  | marking item mark rest => exact h.2
  | notifying item status error rest => exact h.2
  | claiming ids => exact h.2
  | finished => exact h
  | _ => exact h.elim

end Round

/-! ### A message that is taken up -/

/-- The row is a message with the target of the input. -/
structure TargetOf (input : EnqueuePushInput) (m : PushMessage) : Prop where
  appId : m.appId = input.appId
  userId : m.userId = input.targetUserId
  broadcastTag : m.broadcastTag = input.broadcastTag

section Taken

variable {input : EnqueuePushInput} {m : PushMessage} {db : Db}

theorem TargetOf.select (h : TargetOf input m) (db : Db) :
    db.pushSubscriptions.select (matchesItem m.item) = audience db input := by
  apply congrArg db.pushSubscriptions.select
  funext s
  cases htag : input.broadcastTag with
  | some tag =>
    simp only [matchesItem, PushMessage.item, h.broadcastTag, htag, h.appId,
      PushSubscription.isNtfy]
    cases s.appId == input.appId <;> cases s.endpoint == tag <;> simp
  | none => simp only [matchesItem, PushMessage.item, h.broadcastTag, htag, h.appId, h.userId]

theorem claimPushItem_of_pending (hm : m ∈ db.pushQueue) (hpending : m.status = "pending")
    (env : Env) :
    ∃ db', claimPushItem db env m.id = some db' ∧ db'.pushSubscriptions = db.pushSubscriptions ∧
      db'.pushQueue.find? m.id = some (m.claimed env) := by
  have hany : (db.pushQueue.rows.any fun n => n.id == m.id && n.status == "pending") = true :=
    List.any_eq_true.mpr ⟨m, hm, by simp [hpending]⟩
  refine ⟨_, if_pos hany, rfl, ?_⟩
  show (db.pushQueue.updateWhere _ (PushMessage.claimed env) (PushMessage.id_claimed env)).find?
    m.id = _
  rw [KeyedTable.find?_updateWhere, KeyedTable.find?_eq_some.mpr ⟨hm, rfl⟩, Option.map_some]
  simp [hpending]

theorem processed_loaded (hm : m ∈ db.pushQueue) (hpending : m.status = "pending")
    (e₁ e₂ : WorkerEnv) :
    (processed db m.id [e₁]).worker.effects = [.claimed m.id] ∧
      ∃ db' : Db, db'.pushSubscriptions = db.pushSubscriptions ∧
        processed db m.id [e₁, e₂] = ⟨db', ⟨.matching m.item [], [.claimed m.id]⟩⟩ := by
  obtain ⟨db', hclaim, hsubs, hfind⟩ := claimPushItem_of_pending hm hpending e₁.env
  have hone : processed db m.id [e₁] = ⟨db', ⟨.loading m.id [], [.claimed m.id]⟩⟩ := by
    show PushSystem.step ⟨db, ⟨.claiming [m.id], []⟩⟩ (.tick e₁) = _
    simp only [PushSystem.step, PushRun.advance, hclaim]
    rfl
  refine ⟨by rw [hone], db', hsubs, ?_⟩
  have htwo : processed db m.id [e₁, e₂] = (processed db m.id [e₁]).step (.tick e₂) := rfl
  rw [htwo, hone]
  simp only [PushSystem.step, PushRun.advance, hfind]
  rfl

theorem served_of_pending (h : TargetOf input m) (hm : m ∈ db.pushQueue)
    (hpending : m.status = "pending") (e₁ e₂ e₃ : WorkerEnv) :
    Served m.id (audience db input) 0 (processed db m.id [e₁, e₂, e₃]).worker := by
  obtain ⟨-, db', hsubs, htwo⟩ := processed_loaded hm hpending e₁ e₂
  have hthree : processed db m.id [e₁, e₂, e₃] =
      (processed db m.id [e₁, e₂]).step (.tick e₃) := rfl
  have hselect : db'.pushSubscriptions.select (matchesItem m.item) = audience db input := by
    rw [hsubs]
    exact h.select db
  rw [hthree, htwo]
  cases haudience : audience db input with
  | nil =>
    rw [haudience] at hselect
    simp only [PushSystem.step, PushRun.advance, hselect]
    exact ⟨rfl, .nil⟩
  | cons first others =>
    rw [haudience] at hselect
    simp only [PushSystem.step, PushRun.advance, hselect]
    exact ⟨rfl, rfl, .refl _, Nat.zero_add _⟩

theorem served_of_ticks (h : TargetOf input m) (hm : m ∈ db.pushQueue)
    (hpending : m.status = "pending") (e₁ e₂ e₃ : WorkerEnv) (ticks : List WorkerEnv) :
    Served m.id (audience db input) (0 + ticks.length)
      (processed db m.id (e₁ :: e₂ :: e₃ :: ticks)).worker := by
  have hrest : processed db m.id (e₁ :: e₂ :: e₃ :: ticks) = Transition.run PushSystem.step
      (processed db m.id [e₁, e₂, e₃]) (ticks.map .tick) := rfl
  rw [hrest]
  exact (served_of_pending h hm hpending e₁ e₂ e₃).run ticks

theorem attempted_subperm (h : TargetOf input m) (hm : m ∈ db.pushQueue)
    (hpending : m.status = "pending") (ticks : List WorkerEnv) :
    (attempted m.id (processed db m.id ticks).worker.effects).Subperm (audience db input) := by
  match ticks with
  | [] => exact List.nil_subperm
  | [e₁] =>
    rw [(processed_loaded hm hpending e₁ e₁).1]
    exact List.nil_subperm
  | [e₁, e₂] =>
    obtain ⟨-, db', -, htwo⟩ := processed_loaded hm hpending e₁ e₂
    rw [htwo]
    exact List.nil_subperm
  | e₁ :: e₂ :: e₃ :: ticks => exact (served_of_ticks h hm hpending e₁ e₂ e₃ ticks).subperm

theorem attempted_perm (h : TargetOf input m) (hm : m ∈ db.pushQueue)
    (hpending : m.status = "pending") {ticks : List WorkerEnv}
    (hlong : 3 + 2 * (audience db input).length ≤ ticks.length) :
    (attempted m.id (processed db m.id ticks).worker.effects).Perm (audience db input) := by
  match ticks with
  | [] => simp at hlong
  | [_] => simp at hlong; omega
  | [_, _] => simp at hlong; omega
  | e₁ :: e₂ :: e₃ :: ticks =>
    apply (served_of_ticks h hm hpending e₁ e₂ e₃ ticks).perm
    simp only [List.length_cons] at hlong
    omega

end Taken

/-! ### What gets into the queue -/

theorem insertPushMessage_eq {db : Db} (hnumbered : QueueNumbered db) {m : PushMessage}
    (huser : db.users.hasKey m.userId = true)
    (hfree : ∀ n ∈ db.pushQueue, n.appId = m.appId → n.idempotencyKey.isSome = true →
      n.idempotencyKey ≠ m.idempotencyKey) :
    ∃ db', db.insertPushMessage m = some (db.pushQueueSeq + 1, db') ∧
      db'.pushQueue.rows = db.pushQueue.rows ++ [{ m with id := db.pushQueueSeq + 1 }] := by
  have htaken : (db.pushQueue.rows.any fun n => n.appId == m.appId &&
      n.idempotencyKey.isSome && n.idempotencyKey == m.idempotencyKey) = false := by
    rw [List.any_eq_false]
    intro n hn
    rw [Bool.and_eq_true, Bool.and_eq_true, beq_iff_eq, beq_iff_eq]
    rintro ⟨⟨happ, hsome⟩, hkey⟩
    exact hfree n hn happ hsome hkey
  have hnew : db.pushQueue.hasKey (db.pushQueueSeq + 1) = false := by
    rw [← Bool.not_eq_true, KeyedTable.hasKey_iff]
    rintro ⟨n, hn, hid⟩
    have hle := hnumbered n hn
    omega
  obtain ⟨queue, hqueue⟩ := KeyedTable.exists_insert?
    (r := { m with id := db.pushQueueSeq + 1 }) hnew
  refine ⟨{ db with pushQueue := queue, pushQueueSeq := db.pushQueueSeq + 1 }, ?_,
    (KeyedTable.insert?_eq_some.mp hqueue).2⟩
  unfold Db.insertPushMessage
  dsimp only
  rw [huser, htaken, hqueue]
  rfl

theorem insertPushMessage_eq_none {db : Db} {m : PushMessage}
    (huser : db.users.hasKey m.userId = false) : db.insertPushMessage m = none := by
  unfold Db.insertPushMessage
  dsimp only
  rw [huser]
  rfl

namespace PassesChecks

variable {db : Db} {env : Env} {input : EnqueuePushInput}

theorem enqueuePush_eq (h : PassesChecks db env input) : ∃ workspaceId,
    (db.insertPushMessage (input.message env) = none → enqueuePush db env input =
      (db, .error (jsonError .internalServerError "failed to queue push message"))) ∧
    ∀ id db', db.insertPushMessage (input.message env) = some (id, db') →
      enqueuePush db env input =
        (input.audit (recordUsage db' env workspaceId .pushSendsMonth 1) env,
          .ok { id := id, status := "pending" }) := by
  obtain ⟨workspaceId, hquota⟩ := h.quota
  refine ⟨workspaceId, ?_, ?_⟩
  · intro hinsert
    simp only [enqueuePush, h.target, Outcome.proceed_ok, h.unqueued, hquota, hinsert]
  · intro id db' hinsert
    simp only [enqueuePush, h.target, Outcome.proceed_ok, h.unqueued, hquota, hinsert]

theorem user_of_target (h : PassesChecks db env input) (htag : input.broadcastTag = none) :
    db.users.hasKey input.targetUserId = true := by
  have htarget := h.target
  simp only [EnqueuePushInput.requireTarget, Outcome.bind_eq_ok, Outcome.ensure_eq_ok, htag,
    Option.isSome_none, Bool.false_or] at htarget
  obtain ⟨-, -, -, -, -, -, hsome⟩ := htarget
  obtain ⟨u, hu⟩ := Option.isSome_iff_exists.mp hsome
  obtain ⟨hmem, hmatch⟩ := KeyedTable.selectOne_some hu
  rw [Bool.and_eq_true, beq_iff_eq, beq_iff_eq] at hmatch
  exact KeyedTable.hasKey_iff.mpr ⟨u, hmem, hmatch.2⟩

theorem key_free (h : PassesChecks db env input) : ∀ n ∈ db.pushQueue,
    n.appId = (input.message env).appId → n.idempotencyKey.isSome = true →
      n.idempotencyKey ≠ (input.message env).idempotencyKey := by
  intro n hn happ hsome hkey
  have hqueued := h.unqueued
  unfold EnqueuePushInput.queued at hqueued
  obtain ⟨key, hnkey⟩ := Option.isSome_iff_exists.mp hsome
  have hinput : input.idempotencyKey = some key := hkey.symm.trans hnkey
  rw [hinput, Option.bind_some, Option.map_eq_none_iff, KeyedTable.selectOne_none] at hqueued
  have hno := hqueued n hn
  rw [hnkey, Bool.and_eq_false_iff] at hno
  rcases hno with hother | hother
  · exact absurd happ (beq_eq_false_iff_ne.mp hother)
  · exact absurd rfl (beq_eq_false_iff_ne.mp hother)

end PassesChecks

/-- **A message reaches its audience** exactly if the user column of its row can be
    filled: it is for a user, or there is a user without a name. -/
theorem push_reaches_audience_iff {db : Db} {env : Env} {input : EnqueuePushInput}
    (hreach : QueueReachable db) (hpasses : PassesChecks db env input) :
    (∃ m, ReachesAudience db env input m) ↔
      input.broadcastTag = none ∨ db.users.hasKey "" = true := by
  obtain ⟨workspaceId, hrefused, hqueued⟩ := hpasses.enqueuePush_eq
  have htarget : input.broadcastTag ≠ none → input.targetUserId = "" := by
    intro htag
    exact if_pos (Option.isSome_iff_ne_none.mpr htag)
  constructor
  · rintro ⟨m, hreaches⟩
    by_contra hno
    rw [not_or] at hno
    -- the row refers to a user that does not exist
    have hinsert : db.insertPushMessage (input.message env) = none := by
      apply insertPushMessage_eq_none
      show db.users.hasKey input.targetUserId = false
      rw [htarget hno.1]
      exact Bool.eq_false_iff.mpr hno.2
    have hanswer := hreaches.answer
    rw [hrefused hinsert] at hanswer
    cases hanswer
  · intro hfilled
    have huser : db.users.hasKey input.targetUserId = true := by
      rcases hfilled with htag | hnameless
      · exact hpasses.user_of_target htag
      · by_cases htag : input.broadcastTag = none
        · exact hpasses.user_of_target htag
        · rw [htarget htag]
          exact hnameless
    obtain ⟨db', hinsert, hrows⟩ := insertPushMessage_eq hreach.numbered
      (m := input.message env) huser hpasses.key_free
    have henqueue := hqueued _ _ hinsert
    have hqueue : (enqueuePush db env input).1.pushQueue = db'.pushQueue := by
      obtain ⟨counters, husage⟩ := recordUsage_frame db' env workspaceId .pushSendsMonth 1
      obtain ⟨logs, haudit⟩ := input.audit_frame
        (recordUsage db' env workspaceId .pushSendsMonth 1) env
      rw [henqueue, haudit, husage]
    have htargetOf : TargetOf input { input.message env with id := db.pushQueueSeq + 1 } :=
      ⟨rfl, rfl, rfl⟩
    refine ⟨{ input.message env with id := db.pushQueueSeq + 1 }, ?_, ?_, rfl, ?_, ?_⟩
    · rw [henqueue]
    · rw [hqueue]
      exact hrows
    · intro later hm ticks
      exact attempted_subperm htargetOf hm rfl ticks
    · intro later hm ticks hlong
      exact attempted_perm htargetOf hm rfl hlong

/-! ### A topic and a user -/

/-- An app with one user, who has subscribed to a topic. -/
def newsDb : Db :=
  { users := ⟨[{ id := "ada", appId := "shop", email := "ada@example.com", passwordHash := "$ada"
                 isActive := true, isAdmin := true, adminRole := .owner
                 createdAt := "2026-01-01 00:00:00" }], by decide⟩
    workspaces := ⟨[{
      id := "shop", name := "shop", displayName := "Shop", createdBy := some "ada"
      createdAt := "2026-01-01 00:00:00", updatedAt := "2026-01-01 00:00:00" }], by decide⟩
    apps := ⟨[{
      id := "shop", name := "shop", displayName := "Shop", workspaceId := "shop"
      createdBy := some "ada", createdAt := "2026-01-01 00:00:00"
      updatedAt := "2026-01-01 00:00:00", deletedAt := none }], by decide⟩
    pushSubscriptions := ⟨[{ id := 1, appId := "shop", userId := "ada", endpoint := "alerts",
                             createdAt := "2026-01-01 00:00:00" }],
      helloDb.pushSubscriptions.nodup⟩ }

def newsInput : EnqueuePushInput :=
  { appId := "shop", claims := { sub := "ada", appId := "shop", exp := 0, isAdmin := true }
    title := "Hello", body := "World" }

theorem newsInput_passes : PassesChecks newsDb (sampleEnv "n") newsInput :=
  ⟨rfl, rfl, "shop", rfl⟩

theorem user_message_reaches_audience :
    ∃ m, ReachesAudience newsDb (sampleEnv "n") newsInput m :=
  (push_reaches_audience_iff (.start rfl) newsInput_passes).mpr (.inl rfl)

/-- The same message, to everyone who has subscribed to the topic. -/
def broadcastInput : EnqueuePushInput := { newsInput with broadcastTag := some "alerts" }

theorem broadcast_reaches_nobody :
    QueueReachable newsDb ∧ PassesChecks newsDb (sampleEnv "n") broadcastInput ∧
      ¬ ∃ m, ReachesAudience newsDb (sampleEnv "n") broadcastInput m := by
  have hpasses : PassesChecks newsDb (sampleEnv "n") broadcastInput := ⟨rfl, rfl, "shop", rfl⟩
  refine ⟨.start rfl, hpasses, ?_⟩
  rintro ⟨m, hreaches⟩
  obtain ⟨workspaceId, hrefused, -⟩ := hpasses.enqueuePush_eq
  have hanswer := hreaches.answer
  rw [hrefused (insertPushMessage_eq_none rfl)] at hanswer
  cases hanswer

end Peanut
