import Peanut.Library.Interleaving
import Peanut.Workspaces.Usage

/-!
# Queueing push messages

`enqueue_push` of `api/push/service.rs`: the target, the idempotency key, the
quota, the row of the queue, the usage counter and the audit entry.  The
statements are not in a transaction, so there is a machine that executes them one
by one besides the function.
-/

namespace Peanut

open Relational Interleaving

structure PushPayload where
  data : Option Value := none
  url : Option String := none
  icon : Option String := none
  badge : Option String := none
  priority : Option String := none

/-- `serde_json::to_string`, decoded again. -/
def PushPayload.toValue (p : PushPayload) : Value :=
  .object [("badge", optionToValue .string p.badge), ("data", p.data.getD .null),
    ("icon", optionToValue .string p.icon), ("priority", optionToValue .string p.priority),
    ("url", optionToValue .string p.url)]

structure EnqueuePushInput where
  appId : String
  claims : Claims
  title : String
  body : String
  userId : Option String := none
  broadcastTag : Option String := none
  payload : Option PushPayload := none
  scheduledAt : Option String := none
  idempotencyKey : Option String := none

structure EnqueuePushResponse where
  id : Nat
  status : String
deriving DecidableEq, Repr

/-- `INSERT INTO push_queue`: the key is the next of its sequence, the user exists
    and an idempotency key is used once per app. -/
def Db.insertPushMessage (db : Db) (m : PushMessage) : Option (Nat × Db) :=
  let m := { m with id := db.pushQueueSeq + 1 }
  let taken := db.pushQueue.rows.any fun n =>
    n.appId == m.appId && n.idempotencyKey.isSome && n.idempotencyKey == m.idempotencyKey
  if db.users.hasKey m.userId && !taken then
    (db.pushQueue.insert? m).map fun queue =>
      (m.id, { db with pushQueue := queue, pushQueueSeq := m.id })
  else none

theorem Db.insertPushMessage_frame {db db' : Db} {m : PushMessage} {id : Nat}
    (h : db.insertPushMessage m = some (id, db')) :
    ∃ queue seq, db' = { db with pushQueue := queue, pushQueueSeq := seq } := by
  unfold Db.insertPushMessage at h
  dsimp only at h
  split at h
  · obtain ⟨queue, -, heq⟩ := Option.map_eq_some_iff.mp h
    exact ⟨queue, _, (congrArg Prod.snd heq).symm⟩
  · cases h

namespace EnqueuePushInput

/-- Only an administrator chooses the user; a broadcast has none. -/
def targetUserId (input : EnqueuePushInput) : String :=
  if input.broadcastTag.isSome then ""
  else if input.claims.isAdmin then input.userId.getD input.claims.sub
  else input.claims.sub

def message (input : EnqueuePushInput) (env : Env) : PushMessage :=
  { id := 0, appId := input.appId, userId := input.targetUserId, title := trim input.title
    body := trim input.body, status := "pending", retryCount := 0
    payload := input.payload.map (·.toValue), scheduledAt := input.scheduledAt
    idempotencyKey := input.idempotencyKey, broadcastTag := input.broadcastTag
    createdAt := env.now }

/-- The checks before the queue is looked at; a broadcast skips the `SELECT` of
    the user. -/
def requireTarget (db : Db) (input : EnqueuePushInput) : Except ApiError Unit := do
  Outcome.ensure (!isBlank input.title) (jsonError .badRequest "title is required")
  Outcome.ensure (!isBlank input.body) (jsonError .badRequest "body is required")
  Outcome.ensure (!(input.broadcastTag.isSome && input.userId.isSome))
    (jsonError .badRequest "broadcast_tag and user_id are mutually exclusive")
  Outcome.ensure
    (input.broadcastTag.isSome ||
      (db.users.selectOne fun u => u.appId == input.appId && u.id == input.targetUserId).isSome)
    (jsonError .notFound "target user not found")

/-- The message queued under the same idempotency key. -/
def queued (db : Db) (input : EnqueuePushInput) : Option Nat :=
  input.idempotencyKey.bind fun key =>
    (db.pushQueue.selectOne fun m =>
      m.appId == input.appId && m.idempotencyKey == some key).map (·.id)

/-- The audit entry of a queued message. -/
def audit (input : EnqueuePushInput) (db : Db) (env : Env) : Db :=
  db.recordAuditLog env (env.uuid 0) (some input.appId) input.claims "push.message.enqueued"
    "push_message"
    (if input.targetUserId == "" then input.broadcastTag.getD "broadcast" else input.targetUserId)
    (.object [("broadcast_tag", optionToValue .string input.broadcastTag),
      ("scheduled_at", optionToValue .string input.scheduledAt),
      ("title", .string (trim input.title))])

end EnqueuePushInput

def enqueuePush (db : Db) (env : Env) (input : EnqueuePushInput) :
    Db × Except ApiError EnqueuePushResponse :=
  Outcome.proceed db (input.requireTarget db) fun () =>
    match input.queued db with
    | some id => (db, .ok { id := id, status := "pending" })
    | none =>
        Outcome.proceed db (requireAppResourceAvailable db env input.appId .pushSendsMonth 1)
          fun workspaceId =>
            match db.insertPushMessage (input.message env) with
            | none => (db, .error (jsonError .internalServerError "failed to queue push message"))
            | some (id, db) =>
                (input.audit (recordUsage db env workspaceId .pushSendsMonth 1) env,
                  .ok { id := id, status := "pending" })

/-! ### One statement at a time -/

inductive EnqueuePushStage where
  | received
  | targetFound
  | unqueued
  | workspaceFound (workspaceId : String)
  | counted (workspaceId : String) (used : Int)
  | checked (workspaceId : String)
  | inserted (workspaceId : String) (id : Nat)
  | usageRecorded (id : Nat)
  | completed (id : Nat)
  | refused (error : ApiError)

structure EnqueuePushCall where
  input : EnqueuePushInput
  stage : EnqueuePushStage

namespace EnqueuePushCall

def step (env : Env) (db : Db) (c : EnqueuePushCall) : Db × EnqueuePushCall :=
  match c.stage with
  | .received =>
      match c.input.requireTarget db with
      | .error e => (db, { c with stage := .refused e })
      | .ok () => (db, { c with stage := .targetFound })
  | .targetFound =>
      match c.input.queued db with
      | some id => (db, { c with stage := .completed id })
      | none => (db, { c with stage := .unqueued })
  | .unqueued =>
      match appWorkspaceId db c.input.appId with
      | none => (db, { c with stage := .refused (jsonError .notFound "app not found") })
      | some workspaceId => (db, { c with stage := .workspaceFound workspaceId })
  | .workspaceFound workspaceId =>
      let used := usedResource db env workspaceId .pushSendsMonth
      (db, { c with stage := .counted workspaceId used })
  | .counted workspaceId used =>
      match requireWithinLimit db env workspaceId .pushSendsMonth used 1 with
      | .error e => (db, { c with stage := .refused e })
      | .ok () => (db, { c with stage := .checked workspaceId })
  | .checked workspaceId =>
      match db.insertPushMessage (c.input.message env) with
      | none =>
          (db, { c with stage := .refused (jsonError .internalServerError
            "failed to queue push message") })
      | some (id, db) => (db, { c with stage := .inserted workspaceId id })
  | .inserted workspaceId id =>
      (recordUsage db env workspaceId .pushSendsMonth 1, { c with stage := .usageRecorded id })
  | .usageRecorded id => (c.input.audit db env, { c with stage := .completed id })
  | .completed _ => (db, c)
  | .refused _ => (db, c)

def reply (c : EnqueuePushCall) : Option (Except ApiError EnqueuePushResponse) :=
  match c.stage with
  | .completed id => some (.ok { id := id, status := "pending" })
  | .refused e => some (.error e)
  | _ => none

end EnqueuePushCall

/-- On its own, the machine computes `enqueuePush`. -/
theorem enqueuePush_alone (env : Env) (db : Db) (input : EnqueuePushInput) :
    (alone EnqueuePushCall.step env 8 db ⟨input, .received⟩).1 = (enqueuePush db env input).1 ∧
      (alone EnqueuePushCall.step env 8 db ⟨input, .received⟩).2.reply =
        some (enqueuePush db env input).2 := by
  unfold enqueuePush requireAppResourceAvailable
  cases htarget : input.requireTarget db with
  | error e => simp [alone, EnqueuePushCall.step, EnqueuePushCall.reply, htarget]
  | ok u =>
    cases hqueued : input.queued db with
    | some id => simp [alone, EnqueuePushCall.step, EnqueuePushCall.reply, htarget, hqueued]
    | none =>
      cases hws : appWorkspaceId db input.appId with
      | none =>
        simp [alone, EnqueuePushCall.step, EnqueuePushCall.reply, htarget, hqueued, hws]
      | some workspaceId =>
        rw [Outcome.proceed_ok]
        simp only [Outcome.require_some, Outcome.ok_bind]
        rw [← requireWithinLimit_usedResource]
        cases hlimit : requireWithinLimit db env workspaceId .pushSendsMonth
            (usedResource db env workspaceId .pushSendsMonth) 1 with
        | error e =>
          simp [alone, EnqueuePushCall.step, EnqueuePushCall.reply, htarget, hqueued, hws, hlimit]
        | ok u =>
          cases hinsert : db.insertPushMessage (input.message env) with
          | none =>
            simp [alone, EnqueuePushCall.step, EnqueuePushCall.reply, htarget, hqueued, hws,
              hlimit, hinsert, pure, Except.pure]
          | some inserted =>
            simp [alone, EnqueuePushCall.step, EnqueuePushCall.reply, htarget, hqueued, hws,
              hlimit, hinsert, pure, Except.pure]

end Peanut
