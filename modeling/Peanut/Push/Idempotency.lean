import Peanut.Push.Broadcast

/-!
# Queueing under an idempotency key

Clients send a message again when they do not know whether it has been queued, and
name it with a key.  `enqueue_push` looks the key up, and inserts the row some
statements later; a unique index keeps the key from being used twice.  A call that
loses the race against another one is refused by the index and answers an error
instead of the row of the other call.
-/

namespace Peanut

open Relational Interleaving

/-! ### Where a call stands -/

namespace EnqueuePushStage

/-- The key has not been looked up yet. -/
def early : EnqueuePushStage → Bool
  | .received => true
  | .targetFound => true
  | _ => false

/-- The key has been looked up in vain, and the row is not inserted yet. -/
def awaits : EnqueuePushStage → Bool
  | .unqueued => true
  | .workspaceFound _ => true
  | .counted .. => true
  | .checked _ => true
  | _ => false

/-- The workspace the call has found. -/
def workspace : EnqueuePushStage → Option String
  | .workspaceFound workspaceId => some workspaceId
  | .counted workspaceId _ => some workspaceId
  | .checked workspaceId => some workspaceId
  | .inserted workspaceId _ => some workspaceId
  | _ => none

end EnqueuePushStage

namespace EnqueuePushCall

/-- The next statement is none of the validation and the quota, or what it reads is
    as it should be. -/
def PassesCheck (env : Env) (db : Db) (c : EnqueuePushCall) : Prop :=
  match c.stage with
  | .received => c.input.requireTarget db = .ok ()
  | .unqueued => (appWorkspaceId db c.input.appId).isSome = true
  | .counted workspaceId used =>
      requireWithinLimit db env workspaceId .pushSendsMonth used 1 = .ok ()
  | _ => True

/-- What a statement of a call does, by the stage before and the stage after. -/
inductive Moves (env : Env) (db : Db) (input : EnqueuePushInput) :
    EnqueuePushStage → Db → EnqueuePushStage → Prop where
  | refuse (stage : EnqueuePushStage) (e : ApiError)
      (hfails : ¬ PassesCheck env db ⟨input, stage⟩) :
      Moves env db input stage db (.refused e)
  | target : Moves env db input .received db .targetFound
  | hit (id : Nat) (hqueued : input.queued db = some id) :
      Moves env db input .targetFound db (.completed id)
  | miss (hqueued : input.queued db = none) : Moves env db input .targetFound db .unqueued
  | workspace (w : String) (hw : appWorkspaceId db input.appId = some w) :
      Moves env db input .unqueued db (.workspaceFound w)
  | count (w : String) (used : Int) : Moves env db input (.workspaceFound w) db (.counted w used)
  | within (w : String) (used : Int) : Moves env db input (.counted w used) db (.checked w)
  | conflict (w : String) (e : ApiError)
      (hinsert : db.insertPushMessage (input.message env) = none) :
      Moves env db input (.checked w) db (.refused e)
  | insert (w : String) (id : Nat) (db' : Db)
      (hinsert : db.insertPushMessage (input.message env) = some (id, db')) :
      Moves env db input (.checked w) db' (.inserted w id)
  | charge (w : String) (id : Nat) :
      Moves env db input (.inserted w id) (recordUsage db env w .pushSendsMonth 1)
        (.usageRecorded id)
  | log (id : Nat) (logs : KeyedTable AuditLog (·.id)) :
      Moves env db input (.usageRecorded id) { db with auditLogs := logs } (.completed id)
  | completed (id : Nat) : Moves env db input (.completed id) db (.completed id)
  | refused (e : ApiError) : Moves env db input (.refused e) db (.refused e)

theorem step_input (env : Env) (db : Db) (c : EnqueuePushCall) :
    (c.step env db).2.input = c.input := by
  obtain ⟨input, stage⟩ := c
  cases stage with
  | received | targetFound | unqueued | counted w used | checked w =>
    simp only [step]
    split
    · rfl
    · rfl
  | workspaceFound w => rfl
  | inserted w id => rfl
  | usageRecorded id => rfl
  | completed id => rfl
  | refused e => rfl

theorem step_moves (env : Env) (db : Db) (c : EnqueuePushCall) :
    Moves env db c.input c.stage (c.step env db).1 (c.step env db).2.stage := by
  obtain ⟨input, stage⟩ := c
  cases stage with
  | received =>
    simp only [step]
    split
    · rename_i e herror
      refine .refuse _ e fun hpasses => ?_
      rw [PassesCheck, herror] at hpasses
      cases hpasses
    · exact .target
  | targetFound =>
    simp only [step]
    split
    · rename_i id hqueued
      exact .hit id hqueued
    · rename_i hqueued
      exact .miss hqueued
  | unqueued =>
    simp only [step]
    split
    · rename_i hnone
      refine .refuse _ _ fun hpasses => ?_
      rw [PassesCheck, hnone] at hpasses
      cases hpasses
    · rename_i w hw
      exact .workspace w hw
  | workspaceFound w => exact .count w _
  | counted w used =>
    simp only [step]
    split
    · rename_i e herror
      refine .refuse _ e fun hpasses => ?_
      have hok : requireWithinLimit db env w .pushSendsMonth used 1 = .ok () := hpasses
      rw [herror] at hok
      cases hok
    · exact .within w used
  | checked w =>
    simp only [step]
    split
    · rename_i hinsert
      exact .conflict w _ hinsert
    · rename_i id db' hinsert
      exact .insert w id db' hinsert
  | inserted w id => exact .charge w id
  | usageRecorded id =>
    obtain ⟨logs, hframe⟩ := input.audit_frame db env
    simp only [step]
    rw [hframe]
    exact .log id logs
  | completed id => exact .completed id
  | refused e => exact .refused e

end EnqueuePushCall

/-! ### The key in the queue -/

/-- The app has a message under the key. -/
def KeyTaken (db : Db) (app key : String) : Prop :=
  ∃ m ∈ db.pushQueue, m.appId = app ∧ m.idempotencyKey = some key

section Queue

variable {start db db' : Db} {app key : String}

theorem queued_eq_some {input : EnqueuePushInput} {id : Nat} (happ : input.appId = app)
    (hkey : input.idempotencyKey = some key) (h : input.queued db = some id) :
    ∃ m ∈ db.pushQueue, m.id = id ∧ m.appId = app ∧ m.idempotencyKey = some key := by
  unfold EnqueuePushInput.queued at h
  rw [hkey, Option.bind_some] at h
  obtain ⟨m, hm, rfl⟩ := Option.map_eq_some_iff.mp h
  obtain ⟨hmem, hmatch⟩ := KeyedTable.selectOne_some hm
  rw [Bool.and_eq_true, beq_iff_eq, beq_iff_eq] at hmatch
  exact ⟨m, hmem, rfl, hmatch.1.trans happ, hmatch.2⟩

theorem queued_eq_none {input : EnqueuePushInput} (happ : input.appId = app)
    (hkey : input.idempotencyKey = some key) :
    input.queued db = none ↔ ¬ KeyTaken db app key := by
  unfold EnqueuePushInput.queued
  rw [hkey, Option.bind_some, Option.map_eq_none_iff, KeyedTable.selectOne_none]
  constructor
  · rintro hnone ⟨m, hm, hmapp, hmkey⟩
    have hno := hnone m hm
    rw [hmapp, hmkey, happ, beq_self_eq_true, beq_self_eq_true] at hno
    cases hno
  · intro hfree m hm
    rw [Bool.eq_false_iff]
    intro hmatch
    rw [Bool.and_eq_true, beq_iff_eq, beq_iff_eq] at hmatch
    exact hfree ⟨m, hm, hmatch.1.trans happ, hmatch.2⟩

/-- What is inserted has a user and a key that is free, and goes to the end of the queue. -/
theorem insertPushMessage_eq_some {m : PushMessage} {id : Nat}
    (h : db.insertPushMessage m = some (id, db')) :
    db.users.hasKey m.userId = true ∧
      (∀ key, m.idempotencyKey = some key → ¬ KeyTaken db m.appId key) ∧
      db'.pushQueue.rows = db.pushQueue.rows ++ [{ m with id := id }] := by
  unfold Db.insertPushMessage at h
  dsimp only at h
  split at h
  · rename_i hallowed
    rw [Bool.and_eq_true, Bool.not_eq_true', List.any_eq_false] at hallowed
    obtain ⟨queue, hinsert, heq⟩ := Option.map_eq_some_iff.mp h
    obtain ⟨rfl, rfl⟩ := Prod.mk.inj heq
    refine ⟨hallowed.1, ?_, (KeyedTable.insert?_eq_some.mp hinsert).2⟩
    rintro key hkey ⟨n, hn, hnapp, hnkey⟩
    apply hallowed.2 n hn
    rw [hnapp, hnkey, hkey]
    simp
  · cases h

/-- The queue has grown by one message, which has the key. -/
structure RowAdded (app key : String) (start db : Db) (m : PushMessage) : Prop where
  rows : db.pushQueue.rows = start.pushQueue.rows ++ [m]
  app : m.appId = app
  key : m.idempotencyKey = some key

/-- One send has been recorded for the workspace, and nothing else. -/
def ChargedOnce (start db : Db) (workspaceId period : String) : Prop :=
  ∀ w k q, counterValue db w k q = counterValue start w k q +
    if (workspaceId, ResourceKey.pushSendsMonth, period) = (w, k, q) then 1 else 0

theorem RowAdded.queued {m : PushMessage} (h : RowAdded app key start db m)
    (hfree : ¬ KeyTaken start app key) {input : EnqueuePushInput} (happ : input.appId = app)
    (hkey : input.idempotencyKey = some key) : input.queued db = some m.id := by
  cases hqueued : input.queued db with
  | none =>
    refine absurd ⟨m, ?_, h.app, h.key⟩ ((queued_eq_none happ hkey).mp hqueued)
    rw [KeyedTable.mem_def, h.rows]
    exact List.mem_append_right _ (List.mem_singleton_self m)
  | some id =>
    obtain ⟨n, hn, rfl, hnapp, hnkey⟩ := queued_eq_some happ hkey hqueued
    rw [KeyedTable.mem_def, h.rows] at hn
    rcases List.mem_append.mp hn with hold | hnew
    · exact absurd ⟨n, hold, hnapp, hnkey⟩ hfree
    · rw [List.mem_singleton.mp hnew]

end Queue

/-! ### What a statement can do -/

namespace EnqueuePushCall.Moves

variable {env : Env} {db db' : Db} {input : EnqueuePushInput} {stage stage' : EnqueuePushStage}

theorem frame (h : Moves env db input stage db' stage') :
    db'.users = db.users ∧ db'.workspaces = db.workspaces ∧ db'.apps = db.apps := by
  cases h with
  | insert w id db' hinsert =>
    obtain ⟨queue, seq, rfl⟩ := Db.insertPushMessage_frame hinsert
    exact ⟨rfl, rfl, rfl⟩
  | charge w id =>
    obtain ⟨counters, hcounters⟩ := recordUsage_frame db env w .pushSendsMonth 1
    rw [hcounters]
    exact ⟨rfl, rfl, rfl⟩
  | _ => exact ⟨rfl, rfl, rfl⟩

theorem keyTaken (h : Moves env db input stage db' stage') {app key : String}
    (htaken : KeyTaken db app key) : KeyTaken db' app key := by
  cases h with
  | insert w id db' hinsert =>
    obtain ⟨m, hm, happ, hkey⟩ := htaken
    obtain ⟨-, -, hrows⟩ := insertPushMessage_eq_some hinsert
    refine ⟨m, ?_, happ, hkey⟩
    rw [KeyedTable.mem_def, hrows]
    exact List.mem_append_left _ hm
  | charge w id =>
    obtain ⟨counters, hcounters⟩ := recordUsage_frame db env w .pushSendsMonth 1
    rw [hcounters]
    exact htaken
  | _ => exact htaken

/-- A call that waits for its insert goes on waiting, is refused, or inserts its row:
    then the key was free and is taken now. -/
theorem of_awaits (h : Moves env db input stage db' stage') (hawaits : stage.awaits = true)
    {key : String} (hkey : input.idempotencyKey = some key) :
    (db' = db ∧ stage'.awaits = true) ∨ (∃ e, stage' = .refused e) ∨
      (db.users.hasKey input.targetUserId = true ∧ ¬ KeyTaken db input.appId key ∧
        KeyTaken db' input.appId key) := by
  cases h with
  | refuse _ e hfails => exact .inr (.inl ⟨e, rfl⟩)
  | workspace w hw => exact .inl ⟨rfl, rfl⟩
  | count w used => exact .inl ⟨rfl, rfl⟩
  | within w used => exact .inl ⟨rfl, rfl⟩
  | conflict w e hinsert => exact .inr (.inl ⟨e, rfl⟩)
  | insert w id db' hinsert =>
    obtain ⟨huser, hfree, hrows⟩ := insertPushMessage_eq_some hinsert
    refine .inr (.inr ⟨huser, hfree key hkey, { input.message env with id := id }, ?_, rfl, hkey⟩)
    rw [KeyedTable.mem_def, hrows]
    exact List.mem_append_right _ (List.mem_singleton_self _)
  | refused e => exact .inr (.inl ⟨e, rfl⟩)
  | _ => cases hawaits

theorem of_row (h : Moves env db input stage db' stage')
    (hpass : PassesCheck env db ⟨input, stage⟩) {start : Db} {m : PushMessage} {app key : String}
    (happ : input.appId = app) (hkey : input.idempotencyKey = some key)
    (hfree : ¬ KeyTaken start app key) (hrow : RowAdded app key start db m)
    (hstage : stage.early = true ∨ stage = .completed m.id) :
    db' = db ∧ (stage'.early = true ∨ stage' = .completed m.id) := by
  have hqueued := hrow.queued hfree happ hkey
  rcases hstage with hearly | rfl
  · cases h with
    | refuse _ e hfails => exact absurd hpass hfails
    | target => exact ⟨rfl, .inl rfl⟩
    | hit id hid =>
      rw [hqueued, Option.some.injEq] at hid
      exact ⟨rfl, .inr (hid ▸ rfl)⟩
    | miss hnone =>
      rw [hqueued] at hnone
      cases hnone
    | _ => cases hearly
  · cases h with
    | refuse _ e hfails => exact absurd hpass hfails
    | completed id => exact ⟨rfl, .inr rfl⟩

end EnqueuePushCall.Moves

/-! ### Calls with one key -/

section Pools

variable {ι : Type} [DecidableEq ι] {app key : String} {start : Db}
  {p : Pool ι Db EnqueuePushCall} {t : ι × Env}

/-- All calls are for the app and carry the key. -/
structure OneKey (app key : String) (p : Pool ι Db EnqueuePushCall) : Prop where
  app : ∀ i, (p.request i).input.appId = app
  key : ∀ i, (p.request i).input.idempotencyKey = some key

theorem tick_input (p : Pool ι Db EnqueuePushCall) (t : ι × Env) (i : ι) :
    ((tick EnqueuePushCall.step p t).request i).input = (p.request i).input := by
  by_cases hi : i = t.1
  · subst hi
    rw [tick_request_self, EnqueuePushCall.step_input]
  · rw [tick_request_of_ne p t hi]

theorem OneKey.tick (h : OneKey app key p) (t : ι × Env) :
    OneKey app key (tick EnqueuePushCall.step p t) := by
  constructor
  · intro i
    rw [tick_input]
    exact h.app i
  · intro i
    rw [tick_input]
    exact h.key i

/-- The tick executes a statement whose check passes. -/
def PassesChecksAt (p : Pool ι Db EnqueuePushCall) (t : ι × Env) : Prop :=
  (p.request t.1).PassesCheck t.2 p.store

/-- A call that looks the key up in vain is for a user, and no other call is between
    its lookup and its insert. -/
def MissesAlone (p : Pool ι Db EnqueuePushCall) (t : ι × Env) : Prop :=
  (p.request t.1).stage = .targetFound → (p.request t.1).input.queued p.store = none →
    p.store.users.hasKey (p.request t.1).input.targetUserId = true ∧
      ∀ j, j ≠ t.1 → (p.request j).stage.awaits = false

/-! ### Calls that are bound to fail -/

/-- The call waits for an insert that will be refused, or that will make another one
    be refused. -/
def Doomed (app key : String) (p : Pool ι Db EnqueuePushCall) (i : ι) : Prop :=
  (p.request i).stage.awaits = true ∧
    (KeyTaken p.store app key ∨
      p.store.users.hasKey (p.request i).input.targetUserId = false ∨
      ∃ j, j ≠ i ∧ (p.request j).stage.awaits = true)

/-- A call has been refused or will be. -/
def SomeFails (app key : String) (p : Pool ι Db EnqueuePushCall) : Prop :=
  ∃ i, (∃ e, (p.request i).stage = .refused e) ∨ Doomed app key p i

theorem SomeFails.of_miss (hmiss : ¬ MissesAlone p t) :
    SomeFails app key (tick EnqueuePushCall.step p t) := by
  unfold MissesAlone at hmiss
  push Not at hmiss
  obtain ⟨hstage, hqueued, hbad⟩ := hmiss
  have hstep : EnqueuePushCall.step t.2 p.store (p.request t.1) =
      (p.store, { p.request t.1 with stage := .unqueued }) := by
    unfold EnqueuePushCall.step
    rw [hstage]
    dsimp only
    rw [hqueued]
  refine ⟨t.1, .inr ⟨?_, ?_⟩⟩
  · rw [tick_request_self, hstep]
    rfl
  · rw [tick_request_self, tick_store, hstep]
    by_cases huser : p.store.users.hasKey (p.request t.1).input.targetUserId = true
    · obtain ⟨j, hj, hawaits⟩ := hbad huser
      refine .inr (.inr ⟨j, hj, ?_⟩)
      rw [tick_request_of_ne p t hj]
      rwa [ne_eq, Bool.not_eq_false] at hawaits
    · exact .inr (.inl (Bool.eq_false_iff.mpr huser))

theorem SomeFails.tick (h : OneKey app key p) (hfails : SomeFails app key p) (t : ι × Env) :
    SomeFails app key (tick EnqueuePushCall.step p t) := by
  have hmoves := EnqueuePushCall.step_moves t.2 p.store (p.request t.1)
  -- what becomes of the waiting call that moves
  have hwaiting : (p.request t.1).stage.awaits = true →
      (EnqueuePushCall.step t.2 p.store (p.request t.1)).1 = p.store ∧
          (EnqueuePushCall.step t.2 p.store (p.request t.1)).2.stage.awaits = true ∨
        SomeFails app key (Interleaving.tick EnqueuePushCall.step p t) ∨
        (p.store.users.hasKey (p.request t.1).input.targetUserId = true ∧
          ¬ KeyTaken p.store app key ∧
          KeyTaken (Interleaving.tick EnqueuePushCall.step p t).store app key) := by
    intro hawaits
    have hcases := hmoves.of_awaits hawaits (h.key t.1)
    rw [h.app t.1] at hcases
    rcases hcases with hsame | ⟨e, he⟩ | hinserted
    · exact .inl hsame
    · refine .inr (.inl ⟨t.1, .inl ⟨e, ?_⟩⟩)
      rw [tick_request_self]
      exact he
    · exact .inr (.inr hinserted)
  obtain ⟨i, ⟨e, he⟩ | ⟨hawaits, hcause⟩⟩ := hfails
  · -- a refused call has nothing left to do
    refine ⟨i, .inl ⟨e, ?_⟩⟩
    by_cases hi : i = t.1
    · subst hi
      rw [tick_request_self]
      unfold EnqueuePushCall.step
      rw [he]
      exact he
    · rw [tick_request_of_ne p t hi]
      exact he
  · by_cases hi : i = t.1
    · subst hi
      rcases hwaiting hawaits with ⟨hstore, hawaits'⟩ | hfails' | ⟨huser, hfree, htaken⟩
      · refine ⟨t.1, .inr ⟨?_, ?_⟩⟩
        · rw [tick_request_self]
          exact hawaits'
        · rw [tick_request_self, tick_store, hstore, EnqueuePushCall.step_input]
          refine hcause.imp_right (Or.imp_right ?_)
          rintro ⟨j, hj, hj'⟩
          refine ⟨j, hj, ?_⟩
          rw [tick_request_of_ne p t hj]
          exact hj'
      · exact hfails'
      · -- the call was doomed by another one, which has lost the race now
        rcases hcause with htaken' | huser' | ⟨j, hj, hj'⟩
        · exact absurd htaken' hfree
        · rw [huser] at huser'
          cases huser'
        · refine ⟨j, .inr ⟨?_, .inl htaken⟩⟩
          rw [tick_request_of_ne p t hj]
          exact hj'
    · have hawaits' : ((Interleaving.tick EnqueuePushCall.step p t).request i).stage.awaits =
          true := by
        rw [tick_request_of_ne p t hi]
        exact hawaits
      rcases hcause with htaken | huser | ⟨j, hj, hj'⟩
      · exact ⟨i, .inr ⟨hawaits', .inl (hmoves.keyTaken htaken)⟩⟩
      · refine ⟨i, .inr ⟨hawaits', .inr (.inl ?_)⟩⟩
        rw [tick_request_of_ne p t hi, tick_store, hmoves.frame.1]
        exact huser
      · by_cases hjt : j = t.1
        · subst hjt
          rcases hwaiting hj' with ⟨-, hj''⟩ | hfails' | ⟨-, -, htaken⟩
          · refine ⟨i, .inr ⟨hawaits', .inr (.inr ⟨t.1, hj, ?_⟩)⟩⟩
            rw [tick_request_self]
            exact hj''
          · exact hfails'
          · exact ⟨i, .inr ⟨hawaits', .inl htaken⟩⟩
        · refine ⟨i, .inr ⟨hawaits', .inr (.inr ⟨j, hj, ?_⟩)⟩⟩
          rw [tick_request_of_ne p t hjt]
          exact hj'

/-! ### Calls that do not overlap -/

/-- How far the calls have come: no row yet, a row that is not paid for, a row that is. -/
inductive Progress (app key : String) (start : Db) (p : Pool ι Db EnqueuePushCall) : Prop where
  | unqueued (hqueue : p.store.pushQueue = start.pushQueue)
      (hcounters : p.store.usageCounters = start.usageCounters)
      (hstage : ∀ i, (p.request i).stage.early = true ∨ (p.request i).stage.awaits = true)
      (hunique : ∀ i j, (p.request i).stage.awaits = true → (p.request j).stage.awaits = true →
        i = j)
  | queued (m : PushMessage) (hrow : RowAdded app key start p.store m)
      (hcounters : p.store.usageCounters = start.usageCounters) (i : ι) (w : String)
      (hholder : (p.request i).stage = .inserted w m.id)
      (hstage : ∀ j, j ≠ i → (p.request j).stage.early = true ∨
        (p.request j).stage = .completed m.id)
  | charged (m : PushMessage) (hrow : RowAdded app key start p.store m) (w period : String)
      (hw : appWorkspaceId start app = some w) (hcharged : ChargedOnce start p.store w period)
      (hstage : ∀ j, (p.request j).stage.early = true ∨
        (p.request j).stage = .usageRecorded m.id ∨ (p.request j).stage = .completed m.id)

structure Orderly (app key : String) (start : Db) (p : Pool ι Db EnqueuePushCall) : Prop where
  oneKey : OneKey app key p
  users : p.store.users = start.users
  workspaces : p.store.workspaces = start.workspaces
  apps : p.store.apps = start.apps
  reachable : QueueReachable p.store
  /-- A row that waits for its insert has a user. -/
  filled : ∀ i, (p.request i).stage.awaits = true →
    start.users.hasKey (p.request i).input.targetUserId = true
  found : ∀ i w, (p.request i).stage.workspace = some w → appWorkspaceId start app = some w
  progress : Progress app key start p

theorem forall_stage_tick {P : ι → EnqueuePushStage → Prop} (p : Pool ι Db EnqueuePushCall)
    (t : ι × Env) :
    (∀ i, P i ((tick EnqueuePushCall.step p t).request i).stage) ↔
      P t.1 (EnqueuePushCall.step t.2 p.store (p.request t.1)).2.stage ∧
        ∀ i, i ≠ t.1 → P i (p.request i).stage :=
  forall_request_tick (P := fun i (c : EnqueuePushCall) => P i c.stage) p t

namespace Orderly

theorem unqueued_stays (hqueue : p.store.pushQueue = start.pushQueue)
    (hcounters : p.store.usageCounters = start.usageCounters)
    (hstage : ∀ i, (p.request i).stage.early = true ∨ (p.request i).stage.awaits = true)
    (hunique : ∀ i j, (p.request i).stage.awaits = true → (p.request j).stage.awaits = true →
      i = j)
    (hstore : (EnqueuePushCall.step t.2 p.store (p.request t.1)).1 = p.store)
    (hnext : (EnqueuePushCall.step t.2 p.store (p.request t.1)).2.stage.early = true ∨
      (EnqueuePushCall.step t.2 p.store (p.request t.1)).2.stage.awaits = true)
    (hothers : (EnqueuePushCall.step t.2 p.store (p.request t.1)).2.stage.awaits = true →
      ∀ j, j ≠ t.1 → (p.request j).stage.awaits = false) :
    Progress app key start (tick EnqueuePushCall.step p t) := by
  refine .unqueued ?_ ?_ ?_ ?_
  · rw [tick_store, hstore]
    exact hqueue
  · rw [tick_store, hstore]
    exact hcounters
  · rw [forall_stage_tick (P := fun _ stage => stage.early = true ∨ stage.awaits = true)]
    exact ⟨hnext, fun i _ => hstage i⟩
  · intro i j
    by_cases hi : i = t.1
    · by_cases hj : j = t.1
      · intro _ _
        rw [hi, hj]
      · subst hi
        rw [tick_request_self, tick_request_of_ne p t hj]
        intro hself hother
        rw [hothers hself j hj] at hother
        cases hother
    · by_cases hj : j = t.1
      · subst hj
        rw [tick_request_self, tick_request_of_ne p t hi]
        intro hother hself
        rw [hothers hself i hi] at hother
        cases hother
      · rw [tick_request_of_ne p t hi, tick_request_of_ne p t hj]
        exact hunique i j

/-- As long as there is no row, calls look up the key, and one of them waits for its
    insert. -/
theorem unqueued_tick (h : Orderly app key start p) (hfree : ¬ KeyTaken start app key)
    (hpass : PassesChecksAt p t) (halone : MissesAlone p t)
    (hqueue : p.store.pushQueue = start.pushQueue)
    (hcounters : p.store.usageCounters = start.usageCounters)
    (hstage : ∀ i, (p.request i).stage.early = true ∨ (p.request i).stage.awaits = true)
    (hunique : ∀ i j, (p.request i).stage.awaits = true → (p.request j).stage.awaits = true →
      i = j) :
    Progress app key start (tick EnqueuePushCall.step p t) := by
  have hfree' : ¬ KeyTaken p.store app key := by
    rintro ⟨m, hm, hrest⟩
    rw [hqueue] at hm
    exact hfree ⟨m, hm, hrest⟩
  have hmoves := EnqueuePushCall.step_moves t.2 p.store (p.request t.1)
  have hpass' : EnqueuePushCall.PassesCheck t.2 p.store
      ⟨(p.request t.1).input, (p.request t.1).stage⟩ := hpass
  have hwaits : (p.request t.1).stage.awaits = true → ∀ j, j ≠ t.1 →
      (p.request j).stage.awaits = false := by
    intro hself j hj
    rw [Bool.eq_false_iff]
    exact fun hother => hj (hunique j t.1 hother hself)
  have hbefore := hstage t.1
  have hfilled := h.filled t.1
  have halone' := halone
  unfold MissesAlone at halone'
  have hstays := @unqueued_stays _ _ app key start p t hqueue hcounters hstage hunique
  generalize hself : (p.request t.1).stage = stage at *
  generalize hdb : (EnqueuePushCall.step t.2 p.store (p.request t.1)).1 = db' at *
  generalize hnext : (EnqueuePushCall.step t.2 p.store (p.request t.1)).2.stage = stage' at *
  cases hmoves with
  | refuse _ e hfails => exact absurd hpass' hfails
  | target => exact hstays rfl (.inl rfl) nofun
  | hit id hqueued =>
    rw [(queued_eq_none (h.oneKey.app t.1) (h.oneKey.key t.1)).mpr hfree'] at hqueued
    cases hqueued
  | miss hqueued => exact hstays rfl (.inr rfl) fun _ => (halone' rfl hqueued).2
  | workspace w hw => exact hstays rfl (.inr rfl) fun _ => hwaits rfl
  | count w used => exact hstays rfl (.inr rfl) fun _ => hwaits rfl
  | within w used => exact hstays rfl (.inr rfl) fun _ => hwaits rfl
  | conflict w e hinsert =>
    -- there is a user and no row with the key, so the insert succeeds
    have huser : p.store.users.hasKey ((p.request t.1).input.message t.2).userId = true := by
      rw [h.users]
      exact hfilled rfl
    obtain ⟨db', hsome, -⟩ := insertPushMessage_eq h.reachable.numbered huser (by
      intro n hn happ hset hkey
      refine hfree' ⟨n, hn, happ.trans (h.oneKey.app t.1), ?_⟩
      exact hkey.trans (h.oneKey.key t.1))
    rw [hsome] at hinsert
    cases hinsert
  | insert w id db' hinsert =>
    obtain ⟨-, -, hrows⟩ := insertPushMessage_eq_some hinsert
    obtain ⟨queue, seq, rfl⟩ := Db.insertPushMessage_frame hinsert
    refine .queued { (p.request t.1).input.message t.2 with id := id } ?_ ?_ t.1 w ?_ ?_
    · rw [tick_store, hdb]
      refine ⟨?_, h.oneKey.app t.1, h.oneKey.key t.1⟩
      rw [hrows, hqueue]
    · rw [tick_store, hdb]
      exact hcounters
    · rw [tick_request_self, hnext]
    · intro j hj
      rw [tick_request_of_ne p t hj]
      rcases hstage j with hearly | hawaits
      · exact .inl hearly
      · rw [hwaits rfl j hj] at hawaits
        cases hawaits
  | charge w id => cases hbefore <;> contradiction
  | log id logs => cases hbefore <;> contradiction
  | completed id => cases hbefore <;> contradiction
  | refused e => cases hbefore <;> contradiction

theorem queued_tick (h : Orderly app key start p) (hfree : ¬ KeyTaken start app key)
    (hworkspace : ∀ w, appWorkspaceId start app = some w → start.workspaces.hasKey w = true)
    (hpass : PassesChecksAt p t) {m : PushMessage} (hrow : RowAdded app key start p.store m)
    (hcounters : p.store.usageCounters = start.usageCounters) {i : ι} {w : String}
    (hholder : (p.request i).stage = .inserted w m.id)
    (hstage : ∀ j, j ≠ i → (p.request j).stage.early = true ∨
      (p.request j).stage = .completed m.id) :
    Progress app key start (tick EnqueuePushCall.step p t) := by
  by_cases hi : i = t.1
  · subst hi
    have hstep : EnqueuePushCall.step t.2 p.store (p.request t.1) =
        (recordUsage p.store t.2 w .pushSendsMonth 1,
          { p.request t.1 with stage := .usageRecorded m.id }) := by
      unfold EnqueuePushCall.step
      rw [hholder]
    have hw : appWorkspaceId start app = some w := by
      refine h.found t.1 w ?_
      rw [hholder]
      rfl
    have hexists : p.store.workspaces.hasKey w = true := by
      rw [h.workspaces]
      exact hworkspace w hw
    obtain ⟨counters, hframe⟩ := recordUsage_frame p.store t.2 w .pushSendsMonth 1
    refine .charged m ?_ w (usagePeriodStart t.2 .pushSendsMonth) hw ?_ ?_
    · rw [tick_store, hstep]
      dsimp only
      rw [hframe]
      exact ⟨hrow.rows, hrow.app, hrow.key⟩
    · intro w' k q
      have hsame : counterValue p.store w' k q = counterValue start w' k q := by
        rw [counterValue, hcounters]
        rfl
      rw [tick_store, hstep]
      dsimp only
      rw [counterValue_recordUsage, hsame, hexists]
      simp only [true_and]
    · rw [forall_stage_tick (P := fun _ stage => stage.early = true ∨
        stage = .usageRecorded m.id ∨ stage = .completed m.id), hstep]
      refine ⟨.inr (.inl rfl), ?_⟩
      intro j hj
      exact (hstage j hj).imp_right .inr
  · have hmoves := EnqueuePushCall.step_moves t.2 p.store (p.request t.1)
    obtain ⟨hstore, hnext⟩ := hmoves.of_row hpass (h.oneKey.app t.1) (h.oneKey.key t.1) hfree hrow
      (hstage t.1 (Ne.symm hi))
    refine .queued m ?_ ?_ i w ?_ ?_
    · rw [tick_store, hstore]
      exact hrow
    · rw [tick_store, hstore]
      exact hcounters
    · rw [tick_request_of_ne p t hi]
      exact hholder
    · rw [forall_stage_tick (P := fun j stage => j ≠ i → stage.early = true ∨
        stage = .completed m.id)]
      exact ⟨fun _ => hnext, fun j _ => hstage j⟩

/-- When the usage is recorded, calls find the row, and one of them has to log its own. -/
theorem charged_tick (h : Orderly app key start p) (hfree : ¬ KeyTaken start app key)
    (hpass : PassesChecksAt p t) {m : PushMessage} (hrow : RowAdded app key start p.store m)
    {w period : String} (hw : appWorkspaceId start app = some w)
    (hcharged : ChargedOnce start p.store w period)
    (hstage : ∀ j, (p.request j).stage.early = true ∨ (p.request j).stage = .usageRecorded m.id ∨
      (p.request j).stage = .completed m.id) :
    Progress app key start (tick EnqueuePushCall.step p t) := by
  have hmoves := EnqueuePushCall.step_moves t.2 p.store (p.request t.1)
  have hnow : (p.request t.1).stage = .usageRecorded m.id ∨
      (p.request t.1).stage.early = true ∨ (p.request t.1).stage = .completed m.id := by
    rcases hstage t.1 with hearly | hrecorded | hcompleted
    · exact .inr (.inl hearly)
    · exact .inl hrecorded
    · exact .inr (.inr hcompleted)
  rcases hnow with hrecorded | hsettled
  · obtain ⟨logs, hframe⟩ := (p.request t.1).input.audit_frame p.store t.2
    have hstep : EnqueuePushCall.step t.2 p.store (p.request t.1) =
        ({ p.store with auditLogs := logs },
          { p.request t.1 with stage := .completed m.id }) := by
      unfold EnqueuePushCall.step
      rw [hrecorded]
      dsimp only
      rw [hframe]
    refine .charged m ?_ w period hw ?_ ?_
    · rw [tick_store, hstep]
      exact ⟨hrow.rows, hrow.app, hrow.key⟩
    · rw [tick_store, hstep]
      exact hcharged
    · rw [forall_stage_tick (P := fun _ stage => stage.early = true ∨
        stage = .usageRecorded m.id ∨ stage = .completed m.id), hstep]
      exact ⟨.inr (.inr rfl), fun j _ => hstage j⟩
  · obtain ⟨hstore, hnext⟩ := hmoves.of_row hpass (h.oneKey.app t.1) (h.oneKey.key t.1) hfree hrow
      hsettled
    refine .charged m ?_ w period hw ?_ ?_
    · rw [tick_store, hstore]
      exact hrow
    · rw [tick_store, hstore]
      exact hcharged
    · rw [forall_stage_tick (P := fun _ stage => stage.early = true ∨
        stage = .usageRecorded m.id ∨ stage = .completed m.id)]
      exact ⟨hnext.imp_right .inr, fun j _ => hstage j⟩

/-- **One statement** of calls that do not overlap. -/
theorem tick (h : Orderly app key start p) (hfree : ¬ KeyTaken start app key)
    (hworkspace : ∀ w, appWorkspaceId start app = some w → start.workspaces.hasKey w = true)
    (hpass : PassesChecksAt p t) (halone : MissesAlone p t) :
    Orderly app key start (tick EnqueuePushCall.step p t) where
  oneKey := h.oneKey.tick t
  users := (EnqueuePushCall.step_moves t.2 p.store (p.request t.1)).frame.1.trans h.users
  workspaces :=
    (EnqueuePushCall.step_moves t.2 p.store (p.request t.1)).frame.2.1.trans h.workspaces
  apps := (EnqueuePushCall.step_moves t.2 p.store (p.request t.1)).frame.2.2.trans h.apps
  reachable := h.reachable.enqueue t.2 (p.request t.1)
  filled := by
    intro i
    rw [tick_input]
    by_cases hi : i = t.1
    · subst hi
      rw [tick_request_self]
      have hmoves := EnqueuePushCall.step_moves t.2 p.store (p.request t.1)
      have hfilled := h.filled t.1
      have halone' := halone
      unfold MissesAlone at halone'
      rw [h.users] at halone'
      generalize (p.request t.1).stage = stage at *
      generalize (EnqueuePushCall.step t.2 p.store (p.request t.1)).2.stage = stage' at *
      generalize (EnqueuePushCall.step t.2 p.store (p.request t.1)).1 = db' at *
      intro hawaits
      cases hmoves with
      | miss hqueued => exact (halone' rfl hqueued).1
      | workspace w hw => exact hfilled rfl
      | count w used => exact hfilled rfl
      | within w used => exact hfilled rfl
      | _ => cases hawaits
    · rw [tick_request_of_ne p t hi]
      exact h.filled i
  found := by
    intro i w
    by_cases hi : i = t.1
    · subst hi
      rw [tick_request_self]
      have hmoves := EnqueuePushCall.step_moves t.2 p.store (p.request t.1)
      have hfound := h.found t.1 w
      generalize (p.request t.1).stage = stage at *
      generalize (EnqueuePushCall.step t.2 p.store (p.request t.1)).2.stage = stage' at *
      generalize (EnqueuePushCall.step t.2 p.store (p.request t.1)).1 = db' at *
      intro hsome
      cases hmoves with
      | workspace w' hw =>
        cases hsome
        rw [h.oneKey.app t.1, appWorkspaceId, h.apps] at hw
        exact hw
      | count w' used => exact hfound hsome
      | within w' used => exact hfound hsome
      | insert w' id db' hinsert => exact hfound hsome
      | _ => cases hsome
    · rw [tick_request_of_ne p t hi]
      exact h.found i w
  progress := by
    cases h.progress with
    | unqueued hqueue hcounters hstage hunique =>
      exact h.unqueued_tick hfree hpass halone hqueue hcounters hstage hunique
    | queued m hrow hcounters i w hholder hstage =>
      exact h.queued_tick hfree hworkspace hpass hrow hcounters hholder hstage
    | charged m hrow w period hw hcharged hstage =>
      exact h.charged_tick hfree hpass hrow hw hcharged hstage

end Orderly

/-! ### One row for all calls -/

/-- One row has been queued and charged, and every call answers its number. -/
structure QueuedOnce (app key : String) (start : Db) (p : Pool ι Db EnqueuePushCall)
    (m : PushMessage) : Prop where
  row : RowAdded app key start p.store m
  charged : ∃ w period, appWorkspaceId start app = some w ∧ ChargedOnce start p.store w period
  answers : ∀ i, (p.request i).reply = some (.ok { id := m.id, status := "pending" })

omit [DecidableEq ι] in
theorem Orderly.queuedOnce [Nonempty ι] (h : Orderly app key start p)
    (hdone : ∀ i, (p.request i).reply.isSome = true) : ∃ m, QueuedOnce app key start p m := by
  have hanswered : ∀ i, (p.request i).stage.early = false ∧ (p.request i).stage.awaits = false ∧
      (∀ w id, (p.request i).stage ≠ .inserted w id) ∧
      ∀ id, (p.request i).stage ≠ .usageRecorded id := by
    intro i
    have hreply := hdone i
    unfold EnqueuePushCall.reply at hreply
    split at hreply
    · rename_i id hstage
      rw [hstage]
      exact ⟨rfl, rfl, nofun, nofun⟩
    · rename_i e hstage
      rw [hstage]
      exact ⟨rfl, rfl, nofun, nofun⟩
    · cases hreply
  cases h.progress with
  | unqueued hqueue hcounters hstage hunique =>
    obtain ⟨i⟩ := ‹Nonempty ι›
    rcases hstage i with hearly | hawaits
    · rw [(hanswered i).1] at hearly
      cases hearly
    · rw [(hanswered i).2.1] at hawaits
      cases hawaits
  | queued m hrow hcounters i w hholder hstage => exact absurd hholder ((hanswered i).2.2.1 w m.id)
  | charged m hrow w period hw hcharged hstage =>
    refine ⟨m, hrow, ⟨w, period, hw, hcharged⟩, ?_⟩
    intro i
    rcases hstage i with hearly | hrecorded | hcompleted
    · rw [(hanswered i).1] at hearly
      cases hearly
    · exact absurd hrecorded ((hanswered i).2.2.2 m.id)
    · rw [EnqueuePushCall.reply, hcompleted]

omit [DecidableEq ι] in
theorem Orderly.of_received {p : Pool ι Db EnqueuePushCall}
    (hstart : ∀ i, (p.request i).stage = .received) (hkey : OneKey app key p)
    (hreach : QueueReachable p.store) : Orderly app key p.store p where
  oneKey := hkey
  users := rfl
  workspaces := rfl
  apps := rfl
  reachable := hreach
  filled := by
    intro i hawaits
    rw [hstart i] at hawaits
    cases hawaits
  found := by
    intro i w hsome
    rw [hstart i] at hsome
    cases hsome
  progress := by
    refine .unqueued rfl rfl ?_ ?_
    · intro i
      rw [hstart i]
      exact .inl rfl
    · intro i j hawaits
      rw [hstart i] at hawaits
      cases hawaits

omit [DecidableEq ι] in
theorem QueuedOnce.not_someFails {before : Db} {p : Pool ι Db EnqueuePushCall} {m : PushMessage}
    (h : QueuedOnce app key before p m) : ¬ SomeFails app key p := by
  rintro ⟨i, ⟨e, he⟩ | ⟨hawaits, -⟩⟩
  · have hanswer := h.answers i
    rw [EnqueuePushCall.reply, he] at hanswer
    cases hanswer
  · have hanswer := h.answers i
    unfold EnqueuePushCall.reply at hanswer
    split at hanswer
    · rename_i id hstage
      rw [hstage] at hawaits
      cases hawaits
    · cases hanswer
    · cases hanswer

/-- **A message is queued once** under its key, however often it is sent, exactly if no
    call looks the key up in vain while another one is between its lookup and its insert,
    and the rows to insert have a user. -/
theorem idempotent_enqueue_iff [Nonempty ι] (p : Pool ι Db EnqueuePushCall)
    (ticks : List (ι × Env)) (hstart : ∀ i, (p.request i).stage = .received)
    (hkey : OneKey app key p) (hreach : QueueReachable p.store)
    (hfree : ¬ KeyTaken p.store app key)
    (hworkspace : ∀ w, appWorkspaceId p.store app = some w → p.store.workspaces.hasKey w = true)
    (hpass : Admissible EnqueuePushCall.step PassesChecksAt p ticks)
    (hdone : ∀ i, ((run EnqueuePushCall.step p ticks).request i).reply.isSome = true) :
    (∃ m, QueuedOnce app key p.store (run EnqueuePushCall.step p ticks) m) ↔
      Admissible EnqueuePushCall.step MissesAlone p ticks := by
  constructor
  · rintro ⟨m, honce⟩
    have hkeep : ∀ (q : Pool ι Db EnqueuePushCall) (t : ι × Env), OneKey app key q →
        OneKey app key (tick EnqueuePushCall.step q t) :=
      fun q t hq => hq.tick t
    have hdamage : ∀ (q : Pool ι Db EnqueuePushCall) (t : ι × Env), OneKey app key q →
        ¬ MissesAlone q t → SomeFails app key (tick EnqueuePushCall.step q t) :=
      fun q t _ hmiss => .of_miss hmiss
    have hlasts : ∀ (q : Pool ι Db EnqueuePushCall) (t : ι × Env), OneKey app key q →
        SomeFails app key q → SomeFails app key (tick EnqueuePushCall.step q t) :=
      fun q t hq hfails => hfails.tick hq t
    exact admissible_of_lasting hkeep hdamage hlasts hkey honce.not_someFails
  · intro halone
    have hboth : Admissible EnqueuePushCall.step
        (fun q t => PassesChecksAt q t ∧ MissesAlone q t) p ticks :=
      fun pre t post hsplit => ⟨hpass pre t post hsplit, halone pre t post hsplit⟩
    have hstep : ∀ (q : Pool ι Db EnqueuePushCall) (t : ι × Env), Orderly app key p.store q →
        PassesChecksAt q t ∧ MissesAlone q t →
        Orderly app key p.store (tick EnqueuePushCall.step q t) :=
      fun q t hq ht => hq.tick hfree hworkspace ht.1 ht.2
    have hbegin := Orderly.of_received hstart hkey hreach
    have hend := run_rule hstep hbegin hboth ticks [] (List.append_nil ticks).symm
    exact hend.queuedOnce hdone

end Pools

/-! ### A message that is sent twice -/

instance (stage : EnqueuePushStage) : Decidable (stage = .targetFound) :=
  match stage with
  | .targetFound => .isTrue rfl
  | .received | .unqueued | .workspaceFound _ | .counted .. | .checked _ | .inserted ..
  | .usageRecorded _ | .completed _ | .refused _ => .isFalse nofun

instance (env : Env) (db : Db) (c : EnqueuePushCall) : Decidable (c.PassesCheck env db) :=
  match c with
  | ⟨input, .received⟩ =>
      decidable_of_iff (Outcome.succeeded (input.requireTarget db) = true)
        Outcome.succeeded_unit_iff
  | ⟨input, .unqueued⟩ =>
      inferInstanceAs (Decidable ((appWorkspaceId db input.appId).isSome = true))
  | ⟨_, .counted workspaceId used⟩ =>
      decidable_of_iff
        (Outcome.succeeded (requireWithinLimit db env workspaceId .pushSendsMonth used 1) = true)
        Outcome.succeeded_unit_iff
  | ⟨_, .targetFound⟩ | ⟨_, .workspaceFound _⟩ | ⟨_, .checked _⟩ | ⟨_, .inserted ..⟩
  | ⟨_, .usageRecorded _⟩ | ⟨_, .completed _⟩ | ⟨_, .refused _⟩ => .isTrue trivial

instance (p : Pool Bool Db EnqueuePushCall) (t : Bool × Env) : Decidable (PassesChecksAt p t) :=
  inferInstanceAs (Decidable ((p.request t.1).PassesCheck t.2 p.store))

instance (p : Pool Bool Db EnqueuePushCall) (t : Bool × Env) : Decidable (MissesAlone p t) :=
  inferInstanceAs (Decidable ((p.request t.1).stage = .targetFound → _ → _ ∧ _))

/-- Ada's message, under a key, is sent again. -/
def newsTwice : Pool Bool Db EnqueuePushCall :=
  { store := newsDb
    request := fun _ => ⟨{ newsInput with idempotencyKey := some "k1" }, .received⟩ }

/-- The first call is answered before the second one starts. -/
def newsInOrder : List (Bool × Env) :=
  List.replicate 8 (false, sampleEnv "a") ++ List.replicate 2 (true, sampleEnv "b")

theorem news_in_order_queued_once :
    ∃ m, QueuedOnce "shop" "k1" newsDb (run EnqueuePushCall.step newsTwice newsInOrder) m := by
  refine (idempotent_enqueue_iff newsTwice newsInOrder (fun _ => rfl) ⟨fun _ => rfl, fun _ => rfl⟩
    (.start rfl) ?_ ?_ ?_ ?_).mpr ?_
  · rintro ⟨m, hm, -⟩
    cases hm
  · rintro w hw
    cases hw
    rfl
  · decide +kernel
  · decide +kernel
  · decide +kernel

/-- The two calls take turns. -/
def newsTakesTurns : List (Bool × Env) :=
  (List.replicate 8 [(false, sampleEnv "a"), (true, sampleEnv "b")]).flatten

/-- The second call answers an error. -/
theorem news_race_fails :
    OneKey "shop" "k1" newsTwice ∧
      Admissible EnqueuePushCall.step PassesChecksAt newsTwice newsTakesTurns ∧
      (∀ i, ((run EnqueuePushCall.step newsTwice newsTakesTurns).request i).reply.isSome = true) ∧
      ¬ ∃ m, QueuedOnce "shop" "k1" newsDb
        (run EnqueuePushCall.step newsTwice newsTakesTurns) m := by
  refine ⟨⟨fun _ => rfl, fun _ => rfl⟩, by decide +kernel, by decide +kernel, ?_⟩
  rintro ⟨m, honce⟩
  have hanswer := honce.answers true
  have hrefused : (((run EnqueuePushCall.step newsTwice newsTakesTurns).request true).reply.map
      Outcome.succeeded) = some false := by
    decide +kernel
  rw [hanswer] at hrefused
  cases hrefused

end Peanut
