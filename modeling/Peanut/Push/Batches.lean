import Peanut.Push.Idempotency
import Peanut.Workspaces.Quotas

/-!
# Batches of push messages

`enqueue_batch` queues its messages one after the other and stops at the first one that
is refused.  What was queued before stays, and its numbers are not in the answer.
-/

namespace Peanut

open Relational

/-! ### The code -/

structure EnqueuePushRequest where
  title : String
  body : String
  userId : Option String := none
  broadcastTag : Option String := none
  payload : Option PushPayload := none
  scheduledAt : Option String := none
  idempotencyKey : Option String := none

/-- What `enqueue_batch` passes on for a message. -/
def EnqueuePushRequest.input (claims : Claims) (message : EnqueuePushRequest) : EnqueuePushInput :=
  { appId := claims.appId, claims := claims, title := message.title, body := message.body
    userId := message.userId, broadcastTag := message.broadcastTag, payload := message.payload
    scheduledAt := message.scheduledAt, idempotencyKey := message.idempotencyKey }

/-- A message of a batch, and the moment at which it is its turn. -/
structure BatchItem where
  env : Env
  message : EnqueuePushRequest

/-- The loop; `results` are the answers so far. -/
def enqueueMessages (claims : Claims) :
    Db → List BatchItem → List EnqueuePushResponse → Db × Except ApiError (List EnqueuePushResponse)
  | db, [], results => (db, .ok results)
  | db, item :: items, results =>
      match enqueuePush db item.env (item.message.input claims) with
      | (db, .ok result) => enqueueMessages claims db items (results ++ [result])
      | (db, .error response) => (db, .error response)

def enqueueBatch (db : Db) (claims : Claims) (messages : List BatchItem) :
    Db × Except ApiError (List EnqueuePushResponse) :=
  if messages.isEmpty then (db, .error (jsonError .badRequest "messages must not be empty"))
  else if messages.length > 100 then
    (db, .error (jsonError .badRequest "messages must not exceed 100 items"))
  else enqueueMessages claims db messages []

/-! ### What is asked of a batch -/

section Spec

variable (start : Db) (claims : Claims)

/-- Neither queued at the start nor, under the same key, by an earlier message. -/
def isNewMessage (queued : List BatchItem) (item : BatchItem) : Bool :=
  ((item.message.input claims).queued start).isNone &&
    queued.all fun other => item.message.idempotencyKey.isNone ||
      other.message.idempotencyKey != item.message.idempotencyKey

/-- The messages that are new when it is their turn. -/
def newMessages : List BatchItem → List BatchItem → List BatchItem
  | queued, [] => queued
  | queued, item :: items =>
      newMessages (if isNewMessage start claims queued item then queued ++ [item] else queued) items

/-- The row that a message is queued as, but for its number. -/
def IsRowOf (item : BatchItem) (m : PushMessage) : Prop :=
  m = { (item.message.input claims).message item.env with id := m.id }

/-- Each message has one row, which only messages under the same key share, and the numbers
    are those of the rows. -/
structure EachQueued (items : List BatchItem) (db : Db) (results : List EnqueuePushResponse) :
    Prop where
  rows : ∃ added, db.pushQueue.rows = start.pushQueue.rows ++ added ∧
    List.Forall₂ (IsRowOf claims) (newMessages start claims [] items) added
  own : List.Forall₂ (fun item result => ∃ m ∈ db.pushQueue, m.id = result.id ∧
    m.appId = claims.appId ∧ m.idempotencyKey = item.message.idempotencyKey ∧
    (item.message.idempotencyKey = none → m ∉ start.pushQueue ∧ IsRowOf claims item m))
    items results
  one : ∀ m ∈ db.pushQueue, ∀ n ∈ db.pushQueue, m.appId = n.appId →
    m.idempotencyKey.isSome = true → m.idempotencyKey = n.idempotencyKey → m = n
  apart : (((items.zip results).filter fun answer =>
    answer.1.message.idempotencyKey.isNone).map fun answer => answer.2.id).Nodup

/-- **All or nothing.** -/
def AllOrNothing (items : List BatchItem) : Prop :=
  (∀ e, (enqueueBatch start claims items).2 = .error e →
    (enqueueBatch start claims items).1.pushQueue = start.pushQueue ∧
      (enqueueBatch start claims items).1.usageCounters = start.usageCounters) ∧
  ∀ results, (enqueueBatch start claims items).2 = .ok results →
    EachQueued start claims items (enqueueBatch start claims items).1 results

/-! ### When a message is accepted -/

/-- The messages that count as sends of a period. -/
def sendsIn (queued : List BatchItem) (period : String) : Nat :=
  queued.countP fun item => usagePeriodStart item.env .pushSendsMonth == period

/-- The quota has room for one more message, and the row may refer to its user. -/
def hasRoom (queued : List BatchItem) (item : BatchItem) : Bool :=
  start.users.hasKey (item.message.input claims).targetUserId &&
    match appWorkspaceId start claims.appId with
    | none => false
    | some workspaceId =>
        let limit := resourceLimitSummary start item.env workspaceId .pushSendsMonth
        let sends := if start.workspaces.hasKey workspaceId then sendsIn queued limit.periodStart
          else 0
        decide (limit.used + sends + 1 ≤ limit.limit)

/-- Is a message accepted when these have been queued since the start? -/
def isAccepted (queued : List BatchItem) (item : BatchItem) : Bool :=
  Outcome.succeeded ((item.message.input claims).requireTarget start) &&
    (!isNewMessage start claims queued item || hasRoom start claims queued item)

/-- No new message comes before the first one that is refused, if one is. -/
def refusedFirst : List BatchItem → List BatchItem → Bool
  | _, [] => true
  | queued, item :: items =>
      if isAccepted start claims queued item then
        refusedFirst (if isNewMessage start claims queued item then queued ++ [item] else queued)
          items
      else queued.isEmpty

end Spec

/-! ### Keys in a queue -/

/-- An app has one message under a key. -/
def QueueKeyed (db : Db) : Prop :=
  ∀ m ∈ db.pushQueue, ∀ n ∈ db.pushQueue, m.appId = n.appId → m.idempotencyKey.isSome = true →
    m.idempotencyKey = n.idempotencyKey → m = n

theorem QueueKeyed.updateWhere {db : Db} (h : QueueKeyed db) {p : PushMessage → Bool}
    {g : PushMessage → PushMessage} (hg : ∀ m, (g m).id = m.id) (happ : ∀ m, (g m).appId = m.appId)
    (hkey : ∀ m, (g m).idempotencyKey = m.idempotencyKey) :
    ∀ m ∈ db.pushQueue.updateWhere p g hg, ∀ n ∈ db.pushQueue.updateWhere p g hg,
      m.appId = n.appId → m.idempotencyKey.isSome = true → m.idempotencyKey = n.idempotencyKey →
        m = n := by
  have hsame : ∀ m, (if p m then g m else m).appId = m.appId ∧
      (if p m then g m else m).idempotencyKey = m.idempotencyKey := by
    intro m
    split
    · exact ⟨happ m, hkey m⟩
    · exact ⟨rfl, rfl⟩
  intro m' hm' n' hn' hmn hsome hkeys
  obtain ⟨m, hm, rfl⟩ := (KeyedTable.mem_updateWhere hg).mp hm'
  obtain ⟨n, hn, rfl⟩ := (KeyedTable.mem_updateWhere hg).mp hn'
  rw [(hsame m).1, (hsame n).1] at hmn
  rw [(hsame m).2] at hsome hkeys
  rw [(hsame n).2] at hkeys
  rw [h m hm n hn hmn hsome hkeys]

theorem QueueKeyed.advance {db db' : Db} {e : WorkerEnv} {effects : List PushEffect}
    {stage : WorkerStage} {r : PushRun} (h : QueueKeyed db)
    (hmove : PushRun.Moves e db effects stage db' r) : QueueKeyed db' := by
  have hmarked : ∀ (item : PushQueueItem) (mark : PushMark),
      QueueKeyed (markPushItem db e.env item mark) := fun item mark =>
    h.updateWhere (PushMessage.id_marked e.env item.id item.retryCount mark)
      (fun _ => by cases mark <;> rfl) (fun _ => by cases mark <;> rfl)
  cases hmove with
  | reclaim => exact h.updateWhere PushMessage.id_reclaimed (fun _ => rfl) (fun _ => rfl)
  | claim id rest hclaim =>
    unfold claimPushItem at hclaim
    split at hclaim
    · cases hclaim
      exact h.updateWhere (PushMessage.id_claimed e.env) (fun _ => rfl) (fun _ => rfl)
    · cases hclaim
  | prune round endpoint dead rest hqueue hseq =>
    unfold QueueKeyed
    rw [hqueue]
    exact h
  | retry item mark rest hpending => exact hmarked item mark
  | settle item mark rest hterminal => exact hmarked item mark
  | _ => exact h

theorem QueueKeyed.insert {db db' : Db} {m : PushMessage} {id : Nat} (h : QueueKeyed db)
    (hinsert : db.insertPushMessage m = some (id, db')) : QueueKeyed db' := by
  obtain ⟨-, hfree, hrows⟩ := insertPushMessage_eq_some hinsert
  have hnew : ∀ n ∈ db.pushQueue, n.appId = m.appId → n.idempotencyKey.isSome = true →
      n.idempotencyKey ≠ m.idempotencyKey := by
    intro n hn happ hsome hkeys
    obtain ⟨key, hkey⟩ := Option.isSome_iff_exists.mp hsome
    exact hfree key (hkeys.symm.trans hkey) ⟨n, hn, happ, hkey⟩
  intro a ha b hb happ hsome hkeys
  rw [KeyedTable.mem_def, hrows, List.mem_append, List.mem_singleton] at ha hb
  rcases ha with ha | rfl
  · rcases hb with hb | rfl
    · exact h a ha b hb happ hsome hkeys
    · exact absurd hkeys (hnew a ha happ hsome)
  · rcases hb with hb | rfl
    · exact absurd hkeys.symm (hnew b hb happ.symm (hkeys ▸ hsome))
    · rfl

theorem QueueReachable.keyed {db : Db} (h : QueueReachable db) : QueueKeyed db := by
  induction h with
  | start hempty =>
    intro m hm
    rw [hempty] at hm
    cases hm
  | enqueue _ env c ih =>
    rename_i db _
    have hmove := c.step_moves env db
    generalize (c.step env db).1 = db' at hmove
    generalize (c.step env db).2.stage = stage' at hmove
    generalize c.stage = stage at hmove
    cases hmove with
    | insert w id db' hinsert => exact ih.insert hinsert
    | charge w id =>
      obtain ⟨counters, hcounters⟩ := recordUsage_frame db env w .pushSendsMonth 1
      rw [hcounters]
      exact ih
    | _ => exact ih
  | work _ e r ih =>
    unfold PushRun.step
    split
    · exact ih
    · exact ih.advance (PushRun.advance_moves e _ r)
  | delete _ p ih =>
    intro m hm n hn
    exact ih m (KeyedTable.mem_deleteWhere.mp hm).1 n (KeyedTable.mem_deleteWhere.mp hn).1
  | elsewhere _ hqueue hseq ih =>
    unfold QueueKeyed
    rw [hqueue]
    exact ih

/-! ### One message -/

section Steps

variable {start db : Db} {claims : Claims} {queued : List BatchItem} {added : List PushMessage}
  {item : BatchItem}

/-- The state in which these messages have been queued since the start. -/
structure Since (start : Db) (claims : Claims) (queued : List BatchItem)
    (added : List PushMessage) (db : Db) : Prop where
  untouched : queued = [] → db = start
  users : db.users = start.users
  apps : db.apps = start.apps
  workspaces : db.workspaces = start.workspaces
  rows : db.pushQueue.rows = start.pushQueue.rows ++ added
  added_of : List.Forall₂ (IsRowOf claims) queued added
  limits : ∀ w, limitOf db w .pushSendsMonth = limitOf start w .pushSendsMonth
  counters : ∀ w, appWorkspaceId start claims.appId = some w → ∀ period,
    counterValue db w .pushSendsMonth period = counterValue start w .pushSendsMonth period +
      (if start.workspaces.hasKey w then sendsIn queued period else 0 : Nat)
  numbered : QueueNumbered db
  keyed : QueueKeyed db

theorem Since.refl (hnumbered : QueueNumbered start) (hkeyed : QueueKeyed start) :
    Since start claims [] [] start where
  untouched _ := rfl
  users := rfl
  apps := rfl
  workspaces := rfl
  rows := (List.append_nil _).symm
  added_of := .nil
  limits _ := rfl
  counters w _ period := by simp [sendsIn]
  numbered := hnumbered
  keyed := hkeyed

theorem IsRowOf.keys {m : PushMessage} (h : IsRowOf claims item m) :
    m.appId = claims.appId ∧ m.idempotencyKey = item.message.idempotencyKey := by
  rw [h]
  exact ⟨rfl, rfl⟩

theorem map_keys_of_rows (h : List.Forall₂ (IsRowOf claims) queued added) :
    added.map (fun m => (m.appId, m.idempotencyKey)) =
      queued.map fun other => (claims.appId, other.message.idempotencyKey) := by
  induction h with
  | nil => rfl
  | cons hrow hrows ih => rw [List.map_cons, List.map_cons, ih, hrow.keys.1, hrow.keys.2]

theorem Since.keyTaken_iff (h : Since start claims queued added db) (key : String) :
    KeyTaken db claims.appId key ↔ KeyTaken start claims.appId key ∨
      ∃ other ∈ queued, other.message.idempotencyKey = some key := by
  have hadded : (∃ m ∈ added, m.appId = claims.appId ∧ m.idempotencyKey = some key) ↔
      ∃ other ∈ queued, other.message.idempotencyKey = some key := by
    have hmem : (claims.appId, some key) ∈ added.map (fun m => (m.appId, m.idempotencyKey)) ↔
        (claims.appId, some key) ∈
          queued.map fun other => (claims.appId, other.message.idempotencyKey) := by
      rw [map_keys_of_rows h.added_of]
    simpa only [List.mem_map, Prod.mk.injEq, true_and] using hmem
  rw [← hadded]
  simp only [KeyTaken, KeyedTable.mem_def, h.rows, List.mem_append, or_and_right, exists_or]

theorem Since.isNewMessage_iff (h : Since start claims queued added db) :
    isNewMessage start claims queued item = true ↔
      (item.message.input claims).queued db = none := by
  rw [isNewMessage, Bool.and_eq_true, Option.isNone_iff_eq_none, List.all_eq_true]
  cases hkey : item.message.idempotencyKey with
  | none =>
    have hnone : ∀ db', (item.message.input claims).queued db' = none := fun db' => by
      rw [EnqueuePushInput.queued, show (item.message.input claims).idempotencyKey = none from hkey,
        Option.bind_none]
    simp [hnone]
  | some key =>
    have hinput : (item.message.input claims).idempotencyKey = some key := hkey
    have happ : (item.message.input claims).appId = claims.appId := rfl
    rw [queued_eq_none happ hinput, queued_eq_none happ hinput, h.keyTaken_iff, not_or]
    refine and_congr_right fun _ => ⟨?_, ?_⟩
    · rintro hall ⟨other, hother, hsame⟩
      have := hall other hother
      rw [hsame] at this
      simp at this
    · intro hnone other hother
      simp only [Option.isNone_some, Bool.false_or, bne_iff_ne]
      exact fun hsame => hnone ⟨other, hother, hsame⟩

theorem Since.requireTarget (h : Since start claims queued added db) (input : EnqueuePushInput) :
    input.requireTarget db = input.requireTarget start := by
  rw [EnqueuePushInput.requireTarget, EnqueuePushInput.requireTarget, h.users]

theorem Since.hasRoom_iff (h : Since start claims queued added db) :
    hasRoom start claims queued item = true ↔
      db.users.hasKey (item.message.input claims).targetUserId = true ∧
        ∃ w, requireAppResourceAvailable db item.env claims.appId .pushSendsMonth 1 = .ok w := by
  have hworkspace : appWorkspaceId db claims.appId = appWorkspaceId start claims.appId := by
    rw [appWorkspaceId, appWorkspaceId, h.apps]
  rw [hasRoom, Bool.and_eq_true, h.users, requireAppResourceAvailable, hworkspace]
  refine and_congr_right fun _ => ?_
  cases hw : appWorkspaceId start claims.appId with
  | none => simp
  | some w =>
    have hused : ∀ db', (resourceLimitSummary db' item.env w .pushSendsMonth).used =
        counterValue db' w .pushSendsMonth (usagePeriodStart item.env .pushSendsMonth) :=
      fun db' => @usedResource_eq_counterValue db' item.env w .pushSendsMonth rfl
    have hlimit : ∀ db', (resourceLimitSummary db' item.env w .pushSendsMonth).limit =
        limitOf db' w .pushSendsMonth := fun _ => rfl
    have hperiod : (resourceLimitSummary start item.env w .pushSendsMonth).periodStart =
        usagePeriodStart item.env .pushSendsMonth := rfl
    simp only [Outcome.require_some, Outcome.ok_bind, requireResourceLimitAvailable,
      decide_eq_true_eq, hused, hlimit, hperiod, h.limits, h.counters w hw]
    generalize (if start.workspaces.hasKey w = true then sendsIn queued
      (usagePeriodStart item.env .pushSendsMonth) else 0) = sends
    generalize counterValue start w .pushSendsMonth
      (usagePeriodStart item.env .pushSendsMonth) = used
    by_cases hover : used + (sends : Int) + 1 > limitOf start w .pushSendsMonth
    · rw [if_pos hover, Outcome.error_bind]
      refine iff_of_false (Int.not_le.mpr hover) ?_
      rintro ⟨w', hw'⟩
      cases hw'
    · rw [if_neg hover]
      exact iff_of_true (Int.not_lt.mp hover) ⟨w, rfl⟩

theorem Since.refuse (h : Since start claims queued added db)
    (hrefused : isAccepted start claims queued item = false) :
    ∃ e, enqueuePush db item.env (item.message.input claims) = (db, .error e) := by
  rw [enqueuePush, h.requireTarget]
  cases htarget : (item.message.input claims).requireTarget start with
  | error e => exact ⟨e, rfl⟩
  | ok u =>
    rw [isAccepted, htarget, Outcome.succeeded_ok, Bool.true_and, Bool.or_eq_false_iff,
      Bool.not_eq_false'] at hrefused
    rw [Outcome.proceed_ok, h.isNewMessage_iff.mp hrefused.1]
    simp only
    cases havailable : requireAppResourceAvailable db item.env
        (item.message.input claims).appId .pushSendsMonth 1 with
    | error e => exact ⟨e, rfl⟩
    | ok w =>
      have huser : db.users.hasKey (item.message.input claims).targetUserId = false := by
        rw [← Bool.not_eq_true]
        intro huser
        rw [h.hasRoom_iff.mpr ⟨huser, w, havailable⟩] at hrefused
        cases hrefused.2
      rw [Outcome.proceed_ok, insertPushMessage_eq_none huser]
      exact ⟨_, rfl⟩

theorem Since.replay (h : Since start claims queued added db)
    (haccepted : isAccepted start claims queued item = true)
    (hold : isNewMessage start claims queued item = false) :
    ∃ m ∈ db.pushQueue, m.appId = claims.appId ∧ m.idempotencyKey.isSome = true ∧
      m.idempotencyKey = item.message.idempotencyKey ∧
      enqueuePush db item.env (item.message.input claims) =
        (db, .ok { id := m.id, status := "pending" }) := by
  rw [isAccepted, Bool.and_eq_true, Outcome.succeeded_unit_iff] at haccepted
  cases hqueued : (item.message.input claims).queued db with
  | none =>
    rw [h.isNewMessage_iff.mpr hqueued] at hold
    cases hold
  | some id =>
    cases hkey : item.message.idempotencyKey with
    | none =>
      rw [EnqueuePushInput.queued, show (item.message.input claims).idempotencyKey = none from hkey]
        at hqueued
      cases hqueued
    | some key =>
      obtain ⟨m, hm, rfl, happ, hmkey⟩ := queued_eq_some
        (rfl : (item.message.input claims).appId = claims.appId) hkey hqueued
      refine ⟨m, hm, happ, by rw [hmkey]; rfl, hmkey, ?_⟩
      rw [enqueuePush, h.requireTarget, haccepted.1, Outcome.proceed_ok, hqueued]

theorem insertPushMessage_seq {db' : Db} {m : PushMessage} {id : Nat}
    (h : db.insertPushMessage m = some (id, db')) : db'.pushQueueSeq = id := by
  unfold Db.insertPushMessage at h
  dsimp only at h
  split at h
  · obtain ⟨queue, -, heq⟩ := Option.map_eq_some_iff.mp h
    obtain ⟨rfl, rfl⟩ := Prod.mk.inj heq
    rfl
  · cases h

theorem sendsIn_append (queued : List BatchItem) (item : BatchItem) (period : String) :
    sendsIn (queued ++ [item]) period = sendsIn queued period +
      if usagePeriodStart item.env .pushSendsMonth = period then 1 else 0 := by
  rw [sendsIn, sendsIn, List.countP_append, List.countP_singleton]
  simp only [beq_iff_eq]

theorem Since.extend {db' : Db} {m : PushMessage} (h : Since start claims queued added db)
    {w : String} (hw : appWorkspaceId start claims.appId = some w)
    (hinsert : db.insertPushMessage ((item.message.input claims).message item.env) =
      some (m.id, db')) (hid : m.id = db.pushQueueSeq + 1) (hrow : IsRowOf claims item m)
    (logs : KeyedTable AuditLog (·.id)) :
    Since start claims (queued ++ [item]) (added ++ [m])
      { recordUsage db' item.env w .pushSendsMonth 1 with auditLogs := logs } := by
  obtain ⟨-, -, hrows⟩ := insertPushMessage_eq_some hinsert
  have hseq := insertPushMessage_seq hinsert
  have hkeyed := h.keyed.insert hinsert
  obtain ⟨queue, seq, hframe⟩ := Db.insertPushMessage_frame hinsert
  obtain ⟨counters, hcounters⟩ := recordUsage_frame db' item.env w .pushSendsMonth 1
  have hvalue : ∀ w' period, counterValue db' w' .pushSendsMonth period =
      counterValue db w' .pushSendsMonth period := by
    intro w' period
    rw [hframe]
    rfl
  have hlimit : ∀ w', limitOf db' w' .pushSendsMonth = limitOf db w' .pushSendsMonth := by
    intro w'
    rw [hframe]
    rfl
  have hworkspaces : db'.workspaces = start.workspaces := by
    rw [hframe]
    exact h.workspaces
  have hmembers : ∀ {n : PushMessage}, n ∈ db'.pushQueue ↔ n ∈ db.pushQueue ∨ n = m := by
    intro n
    rw [KeyedTable.mem_def, hrows, List.mem_append, List.mem_singleton, ← hrow]
    rfl
  exact {
    untouched := fun hnil => absurd hnil (by simp)
    users := by rw [hcounters, hframe]; exact h.users
    apps := by rw [hcounters, hframe]; exact h.apps
    workspaces := by rw [hcounters]; exact hworkspaces
    rows := by
      rw [hcounters]
      show db'.pushQueue.rows = _
      rw [hrows, h.rows, List.append_assoc, ← hrow]
    added_of := List.rel_append h.added_of (.cons hrow .nil)
    limits := fun w' => (limitOf_recordUsage db' item.env w .pushSendsMonth 1 w'
      .pushSendsMonth).trans ((hlimit w').trans (h.limits w'))
    counters := by
      intro w' hw' period
      rw [hw] at hw'
      cases hw'
      refine (counterValue_recordUsage db' item.env w .pushSendsMonth 1 w .pushSendsMonth
        period).trans ?_
      rw [hvalue, h.counters w hw, hworkspaces, sendsIn_append]
      by_cases hworkspace : start.workspaces.hasKey w = true
      · by_cases hperiod : usagePeriodStart item.env .pushSendsMonth = period
        · simp [hworkspace, hperiod, Int.add_assoc]
        · simp [hworkspace, hperiod]
      · simp [hworkspace]
    numbered := by
      intro n hn
      rw [hcounters] at hn ⊢
      show n.id ≤ db'.pushQueueSeq
      rw [hseq]
      rcases hmembers.mp hn with hold | rfl
      · have := h.numbered n hold
        omega
      · exact le_rfl
    keyed := by
      rw [hcounters]
      exact hkeyed }

theorem Since.queue (h : Since start claims queued added db)
    (haccepted : isAccepted start claims queued item = true)
    (hnew : isNewMessage start claims queued item = true) :
    ∃ db' m, enqueuePush db item.env (item.message.input claims) =
        (db', .ok { id := m.id, status := "pending" }) ∧ IsRowOf claims item m ∧
      m.id = db.pushQueueSeq + 1 ∧ db'.pushQueueSeq = m.id ∧
      Since start claims (queued ++ [item]) (added ++ [m]) db' := by
  rw [isAccepted, Bool.and_eq_true, Outcome.succeeded_unit_iff, hnew, Bool.not_true,
    Bool.false_or, h.hasRoom_iff] at haccepted
  obtain ⟨htarget, huser, w, havailable⟩ := haccepted
  have hqueued := h.isNewMessage_iff.mp hnew
  have hfree : ∀ n ∈ db.pushQueue, n.appId = claims.appId → n.idempotencyKey.isSome = true →
      n.idempotencyKey ≠ item.message.idempotencyKey := by
    intro n hn happ hsome hsame
    obtain ⟨key, hkey⟩ := Option.isSome_iff_exists.mp hsome
    exact (queued_eq_none (rfl : (item.message.input claims).appId = claims.appId)
      (hsame.symm.trans hkey)).mp hqueued ⟨n, hn, happ, hkey⟩
  obtain ⟨db₁, hinsert, -⟩ := @insertPushMessage_eq db h.numbered
    ((item.message.input claims).message item.env) huser hfree
  have hw : appWorkspaceId start claims.appId = some w := by
    rw [appWorkspaceId, ← h.apps, ← appWorkspaceId]
    simp only [requireAppResourceAvailable, Outcome.bind_eq_ok] at havailable
    obtain ⟨w', hw', -, -, hsame⟩ := havailable
    rw [Outcome.require_eq_ok] at hw'
    rw [hw', ← Except.ok.inj hsame]
  obtain ⟨logs, hlogs⟩ := (item.message.input claims).audit_frame
    (recordUsage db₁ item.env w .pushSendsMonth 1) item.env
  obtain ⟨m, hm⟩ : ∃ m : PushMessage, m = { (item.message.input claims).message item.env with
    id := db.pushQueueSeq + 1 } := ⟨_, rfl⟩
  have hid : m.id = db.pushQueueSeq + 1 := by rw [hm]
  have hrow : IsRowOf claims item m := by rw [IsRowOf, hid, hm]
  rw [← hid] at hinsert
  have hseq : (recordUsage db₁ item.env w .pushSendsMonth 1).pushQueueSeq = m.id := by
    obtain ⟨counters, hcounters⟩ := recordUsage_frame db₁ item.env w .pushSendsMonth 1
    rw [hcounters]
    show db₁.pushQueueSeq = m.id
    exact insertPushMessage_seq hinsert
  refine ⟨{ recordUsage db₁ item.env w .pushSendsMonth 1 with auditLogs := logs }, m, ?_, hrow,
    hid, hseq, h.extend hw hinsert hid hrow logs⟩
  rw [enqueuePush, h.requireTarget, htarget, Outcome.proceed_ok, hqueued]
  simp only
  rw [show (item.message.input claims).appId = claims.appId from rfl, havailable,
    Outcome.proceed_ok, hinsert]
  simp only
  rw [hlogs]

/-! ### The whole batch -/

/-- The row of a message that has been answered. -/
def HasRow (claims : Claims) (added : List PushMessage) (db : Db) (item : BatchItem)
    (result : EnqueuePushResponse) : Prop :=
  ∃ m ∈ db.pushQueue, m.id = result.id ∧ m.appId = claims.appId ∧
    m.idempotencyKey = item.message.idempotencyKey ∧
    (item.message.idempotencyKey = none → m ∈ added ∧ IsRowOf claims item m)

/-- The numbers of the messages without a key. -/
def unkeyedIds (items : List BatchItem) (results : List EnqueuePushResponse) : List Nat :=
  ((items.zip results).filter fun answer => answer.1.message.idempotencyKey.isNone).map
    fun answer => answer.2.id

theorem unkeyedIds_keyed {items : List BatchItem} {results : List EnqueuePushResponse}
    {result : EnqueuePushResponse} (h : item.message.idempotencyKey.isSome = true) :
    unkeyedIds (item :: items) (result :: results) = unkeyedIds items results := by
  rw [unkeyedIds, List.zip_cons_cons, List.filter_cons_of_neg]
  · rfl
  · simp [Option.isSome_iff_ne_none.mp h]

theorem unkeyedIds_unkeyed {items : List BatchItem} {results : List EnqueuePushResponse}
    {result : EnqueuePushResponse} (h : item.message.idempotencyKey = none) :
    unkeyedIds (item :: items) (result :: results) = result.id :: unkeyedIds items results := by
  rw [unkeyedIds, List.zip_cons_cons, List.filter_cons_of_pos, List.map_cons]
  · rfl
  · simp [h]

theorem Since.run (h : Since start claims queued added db) (items : List BatchItem)
    (results : List EnqueuePushResponse) :
    (∃ db' answers added', enqueueMessages claims db items results =
        (db', .ok (results ++ answers)) ∧
      refusedFirst start claims queued items = true ∧
      Since start claims (newMessages start claims queued items) (added ++ added') db' ∧
      List.Forall₂ (HasRow claims (added ++ added') db') items answers ∧
      (unkeyedIds items answers).Nodup ∧ ∀ id ∈ unkeyedIds items answers, db.pushQueueSeq < id) ∨
    ∃ db' e queued' added', enqueueMessages claims db items results = (db', .error e) ∧
      Since start claims queued' added' db' ∧
      (refusedFirst start claims queued items = true ↔ queued' = []) := by
  induction items generalizing db queued added results with
  | nil =>
    refine .inl ⟨db, [], [], ?_, rfl, ?_, .nil, List.nodup_nil, fun id hid => by cases hid⟩
    · rw [enqueueMessages, List.append_nil]
    · rw [List.append_nil]
      exact h
  | cons item items ih =>
    rw [enqueueMessages, refusedFirst, newMessages]
    cases haccepted : isAccepted start claims queued item with
    | false =>
      obtain ⟨e, he⟩ := h.refuse haccepted
      refine .inr ⟨db, e, queued, added, by rw [he], h, ?_⟩
      rw [if_neg Bool.false_ne_true, List.isEmpty_iff]
    | true =>
      rw [if_pos rfl]
      cases hnew : isNewMessage start claims queued item with
      | false =>
        obtain ⟨m, hm, happ, hsome, hkey, hanswer⟩ := h.replay haccepted hnew
        rw [if_neg Bool.false_ne_true, hanswer]
        simp only
        apply (ih h (results ++ [⟨m.id, "pending"⟩])).imp
        · rintro ⟨db', answers, added', hrun, hfirst, hsince, hrows, hnodup, hlarge⟩
          refine ⟨db', ⟨m.id, "pending"⟩ :: answers, added', ?_, hfirst, hsince, .cons ?_ hrows,
            ?_, ?_⟩
          · rw [hrun, List.append_assoc]
            rfl
          · refine ⟨m, ?_, rfl, happ, hkey, fun hnone => ?_⟩
            · rw [KeyedTable.mem_def, h.rows, List.mem_append] at hm
              rw [KeyedTable.mem_def, hsince.rows, List.mem_append, List.mem_append]
              exact hm.imp id .inl
            · rw [hkey, hnone] at hsome
              cases hsome
          · rwa [unkeyedIds_keyed (hkey ▸ hsome)]
          · rwa [unkeyedIds_keyed (hkey ▸ hsome)]
        · exact id
      | true =>
        obtain ⟨db₁, m, hanswer, hrow, hid, hseq, hsince⟩ := h.queue haccepted hnew
        rw [if_pos rfl, hanswer]
        simp only
        apply (ih hsince (results ++ [⟨m.id, "pending"⟩])).imp
        · rintro ⟨db', answers, added', hrun, hfirst, hsince', hrows, hnodup, hlarge⟩
          rw [List.append_assoc] at hsince' hrows
          have hafter : ∀ id ∈ unkeyedIds items answers, m.id < id := by
            rwa [← hseq]
          refine ⟨db', ⟨m.id, "pending"⟩ :: answers, [m] ++ added', ?_, hfirst, hsince',
            .cons ?_ hrows, ?_, ?_⟩
          · rw [hrun, List.append_assoc]
            rfl
          · refine ⟨m, ?_, rfl, hrow.keys.1, hrow.keys.2, fun _ => ⟨by simp, hrow⟩⟩
            rw [KeyedTable.mem_def, hsince'.rows]
            simp
          · cases hkey : item.message.idempotencyKey with
            | none =>
              rw [unkeyedIds_unkeyed hkey, List.nodup_cons]
              exact ⟨fun hmem => Nat.lt_irrefl _ (hafter _ hmem), hnodup⟩
            | some key => rwa [unkeyedIds_keyed (by rw [hkey]; rfl)]
          · intro id hmem
            cases hkey : item.message.idempotencyKey with
            | none =>
              rw [unkeyedIds_unkeyed hkey, List.mem_cons] at hmem
              rcases hmem with rfl | hmem
              · show db.pushQueueSeq < m.id
                omega
              · have := hafter id hmem
                omega
            | some key =>
              rw [unkeyedIds_keyed (by rw [hkey]; rfl)] at hmem
              have := hafter id hmem
              omega
        · exact id

end Steps

theorem Since.not_mem_start {start db : Db} {claims : Claims} {queued : List BatchItem}
    {added : List PushMessage} (h : Since start claims queued added db) {m : PushMessage}
    (hm : m ∈ added) : m ∉ start.pushQueue := by
  intro hstart
  have hnodup := db.pushQueue.nodup.of_map
  rw [h.rows, List.nodup_append] at hnodup
  exact hnodup.2.2 m hstart m hm rfl

/-- **When a batch is all or nothing.** -/
theorem batch_all_or_nothing_iff {start : Db} (hstart : QueueReachable start) (claims : Claims)
    {items : List BatchItem} (hone : 1 ≤ items.length) (hmany : items.length ≤ 100) :
    AllOrNothing start claims items ↔ refusedFirst start claims [] items = true := by
  have hbatch : enqueueBatch start claims items = enqueueMessages claims start items [] := by
    rw [enqueueBatch, if_neg, if_neg (Nat.not_lt.mpr hmany)]
    rw [List.isEmpty_iff]
    rintro rfl
    cases hone
  rw [AllOrNothing, hbatch]
  rcases (Since.refl hstart.numbered hstart.keyed).run items [] with
    ⟨db, answers, added, hrun, hfirst, hsince, hrows, hnodup, -⟩ |
    ⟨db, e, queued, added, hrun, hsince, hfirst⟩
  · rw [hrun]
    refine iff_of_true ⟨nofun, fun results hresults => ?_⟩ hfirst
    cases hresults
    refine ⟨⟨added, hsince.rows, hsince.added_of⟩, ?_, hsince.keyed, hnodup⟩
    refine hrows.imp fun item result hrow => ?_
    obtain ⟨m, hm, hid, happ, hkey, hown⟩ := hrow
    exact ⟨m, hm, hid, happ, hkey, fun hnone =>
      ⟨hsince.not_mem_start (hown hnone).1, (hown hnone).2⟩⟩
  · rw [hrun, hfirst]
    refine ⟨fun hall => ?_, fun hnil => ⟨fun _ _ => ?_, nofun⟩⟩
    · have hsame := (hall.1 e rfl).1
      have hrows := hsince.rows
      rw [show db.pushQueue = start.pushQueue from hsame, List.self_eq_append_right] at hrows
      have hadded := hsince.added_of
      rw [hrows] at hadded
      cases hadded
      rfl
    · rw [hsince.untouched hnil]
      exact ⟨rfl, rfl⟩

/-! ### A batch that repeats a key, and one that is refused halfway -/

def newsRequest : EnqueuePushRequest := { title := "Hello", body := "World" }

/-- A message, and one without a title. -/
def halfBatch : List BatchItem :=
  [⟨sampleEnv "a", newsRequest⟩, ⟨sampleEnv "b", { newsRequest with title := "" }⟩]

/-- Three messages, of which the last repeats the idempotency key of the first. -/
def repeatingBatch : List BatchItem :=
  [⟨sampleEnv "a", { newsRequest with idempotencyKey := some "today" }⟩,
    ⟨sampleEnv "b", newsRequest⟩,
    ⟨sampleEnv "c", { newsRequest with idempotencyKey := some "today" }⟩]

/-- The batch is accepted, and queues two messages for its three items. -/
theorem repeating_batch_all_or_nothing :
    (∃ results, (enqueueBatch newsDb newsInput.claims repeatingBatch).2 = .ok results ∧
      results.length = 3) ∧
    (enqueueBatch newsDb newsInput.claims repeatingBatch).1.pushQueue.rows.length = 2 ∧
    AllOrNothing newsDb newsInput.claims repeatingBatch := by
  refine ⟨⟨_, rfl, by decide +kernel⟩, by decide +kernel, ?_⟩
  exact (batch_all_or_nothing_iff (.start rfl) newsInput.claims (by decide) (by decide)).mpr
    (by decide +kernel)

/-- The answer is an error, and one message has been queued. -/
theorem half_batch_is_queued :
    QueueReachable newsDb ∧
      (enqueueBatch newsDb newsInput.claims halfBatch).2 =
        .error (jsonError .badRequest "title is required") ∧
      (enqueueBatch newsDb newsInput.claims halfBatch).1.pushQueue.rows.length = 1 ∧
      ¬ AllOrNothing newsDb newsInput.claims halfBatch := by
  have herror : (enqueueBatch newsDb newsInput.claims halfBatch).2 =
      .error (jsonError .badRequest "title is required") := by decide +kernel
  have hrows : (enqueueBatch newsDb newsInput.claims halfBatch).1.pushQueue.rows.length = 1 := by
    decide +kernel
  refine ⟨.start rfl, herror, hrows, fun hall => ?_⟩
  rw [(hall.1 _ herror).1] at hrows
  cases hrows

end Peanut
