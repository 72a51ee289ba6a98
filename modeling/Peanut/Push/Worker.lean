import Peanut.Push.Enqueue
import Mathlib.Data.List.Sort

/-!
# The push worker

`process_queue_with_deliveries` of `push/worker.rs` as a machine that executes one
SQL statement, one start or one end of a delivery call, or one webhook per tick.
What the machine draws from outside while it does so is the clock, which of the
spawned deliveries moves, and how a delivery ends (`WorkerEnv`).  What it does to
the outside is kept in the order in which it happens (`PushEffect`).
-/

namespace Peanut

open Relational

def maxRetries : Int := 3

def claimTimeoutSeconds : Int := 120

/-! ### Deliveries -/

/-- What a delivery error is, as the downcasts of `classify_delivery_error` tell it. -/
inductive DeliveryCause where
  | endpointNotValid
  | endpointNotFound
  | terminalConfig
  | ntfyTerminalStatus (status : Nat)
  | ntfyRetryableStatus (status : Nat)
  | panicked
  | other
deriving DecidableEq, Repr

structure DeliveryError where
  cause : DeliveryCause
  message : String
deriving DecidableEq, Repr

inductive DeliveryOutcome where
  | subscriptionGone
  | terminalFailure
  | failure
deriving DecidableEq, Repr

def classifyDeliveryError (e : DeliveryError) : DeliveryOutcome :=
  match e.cause with
  | .endpointNotValid => .subscriptionGone
  | .endpointNotFound => .subscriptionGone
  | .terminalConfig => .terminalFailure
  | .ntfyTerminalStatus status =>
      if status = 404 ∨ status = 410 then .subscriptionGone else .terminalFailure
  | .ntfyRetryableStatus _ => .failure
  | .panicked => .failure
  | .other => .failure

/-- How a delivery ended: `none` when it was delivered. -/
structure DeliveryResult where
  subscription : PushSubscription
  error : Option DeliveryError
deriving DecidableEq, Repr

/-- The endpoint a result is reported under; that of a panicked task is lost. -/
def DeliveryResult.endpoint (r : DeliveryResult) : String :=
  match r.error with
  | some { cause := .panicked, .. } => "unknown"
  | _ => r.subscription.endpoint

def DeliveryResult.outcome (r : DeliveryResult) : Option DeliveryOutcome :=
  r.error.map classifyDeliveryError

/-- The columns of a queue row that the worker reads. -/
structure PushQueueItem where
  id : Nat
  appId : String
  userId : String
  title : String
  body : String
  retryCount : Int
  payload : Option Value
  broadcastTag : Option String
deriving DecidableEq, Repr

def PushMessage.item (m : PushMessage) : PushQueueItem :=
  { id := m.id, appId := m.appId, userId := m.userId, title := m.title, body := m.body
    retryCount := m.retryCount, payload := m.payload, broadcastTag := m.broadcastTag }

/-! ### Statements -/

/-- `column <= time` on text columns; `NULL` is not. -/
def notAfter (column : Option String) (time : String) : Bool :=
  column.any fun text => !strLt time text

def PushMessage.isStale (m : PushMessage) (env : Env) : Bool :=
  m.status == "processing" && notAfter m.claimedAt (env.secondsAgo claimTimeoutSeconds)

def PushMessage.isDue (m : PushMessage) (env : Env) : Bool :=
  m.status == "pending" && (m.scheduledAt.isNone || notAfter m.scheduledAt env.now) &&
    (m.nextRetryAt.isNone || notAfter m.nextRetryAt env.now)

def PushMessage.reclaimed (m : PushMessage) : PushMessage :=
  { m with status := "pending", claimedAt := none }

def PushMessage.claimed (env : Env) (m : PushMessage) : PushMessage :=
  { m with status := "processing", claimedAt := some env.now }

theorem PushMessage.id_reclaimed (m : PushMessage) : m.reclaimed.id = m.id := rfl

theorem PushMessage.id_claimed (env : Env) (m : PushMessage) : (m.claimed env).id = m.id := rfl

def reclaimStaleProcessingItems (db : Db) (env : Env) : Db :=
  let queue := db.pushQueue.updateWhere (·.isStale env) PushMessage.reclaimed
    PushMessage.id_reclaimed
  { db with pushQueue := queue }

/-- The ids of the first ten messages that are due. -/
def pendingIds (db : Db) (env : Env) : List Nat :=
  (((db.pushQueue.select (·.isDue env)).map (·.id)).insertionSort (· ≤ ·)).take 10

/-- The claim of a message, when it is pending. -/
def claimPushItem (db : Db) (env : Env) (id : Nat) : Option Db :=
  if db.pushQueue.rows.any fun m => m.id == id && m.status == "pending" then
    let queue := db.pushQueue.updateWhere (fun m => m.id == id && m.status == "pending")
      (PushMessage.claimed env) (PushMessage.id_claimed env)
    some { db with pushQueue := queue }
  else none

/-- The subscriptions a message goes to. -/
def matchesItem (item : PushQueueItem) (s : PushSubscription) : Bool :=
  match item.broadcastTag with
  | some tag => s.appId == item.appId && s.endpoint == tag && s.p256dh == "" && s.auth == ""
  | none => s.appId == item.appId && s.userId == item.userId

def deleteSubscriptionByEndpoint (db : Db) (userId endpoint : String) : Db :=
  { db with pushSubscriptions := db.pushSubscriptions.deleteWhere fun s =>
      s.userId == userId && s.endpoint == endpoint }

/-- The delay before the next attempt, in 64-bit arithmetic. -/
def retryBackoffSeconds (nextRetryCount : Int) (itemId : Nat) : Int :=
  let exponential := min (30 * (1 <<< (min (nextRetryCount - 1) 10).toNat : Nat) : Int) 120
  let jitterWindow := max (exponential / 5) 1
  let seed := (itemId * 1103515245 + nextRetryCount.toNat * 12345) % 18446744073709551616
  let offset : Int := (seed % (jitterWindow * 2 + 1).toNat : Nat)
  max (min (exponential - jitterWindow + offset) 120) 1

/-- How a message leaves the worker. -/
inductive PushMark where
  | sent (note : Option String) (failed : List FailedDestinationRecord)
  | terminal (error : String)
  | failed (error : String) (failed : List FailedDestinationRecord)
deriving DecidableEq, Repr

/-- `None` when there is nothing to record. -/
def failedDestinationsJson (failed : List FailedDestinationRecord) :
    Option (List FailedDestinationRecord) :=
  if failed.isEmpty then none else some failed

/-- The status a mark writes. -/
def PushMark.status (retryCount : Int) : PushMark → String
  | .sent .. => "sent"
  | .terminal _ => "failed"
  | .failed .. => if maxRetries ≤ retryCount + 1 then "failed" else "pending"

/-- The row after `mark_sent`, `mark_terminal_failure` or `mark_failed`. -/
def PushMessage.marked (env : Env) (itemId : Nat) (retryCount : Int) (mark : PushMark)
    (m : PushMessage) : PushMessage :=
  match mark with
  | .sent note failed =>
      { m with status := "sent", lastError := note, partialFailureCount := failed.length
               failedDestinations := failedDestinationsJson failed, nextRetryAt := none
               claimedAt := none, processedAt := some env.now }
  | .terminal error =>
      { m with status := "failed", retryCount := maxRetries, lastError := some error
               partialFailureCount := 0, failedDestinations := none, nextRetryAt := none
               claimedAt := none, processedAt := some env.now }
  | .failed error failed =>
      { m with status := mark.status retryCount, retryCount := retryCount + 1
               lastError := some error, partialFailureCount := failed.length
               failedDestinations := failedDestinationsJson failed
               nextRetryAt :=
                 if maxRetries ≤ retryCount + 1 then none
                 else some (env.secondsAgo (-retryBackoffSeconds (retryCount + 1) itemId))
               claimedAt := none, processedAt := some env.now }

theorem PushMessage.id_marked (env : Env) (itemId : Nat) (retryCount : Int) (mark : PushMark)
    (m : PushMessage) : (m.marked env itemId retryCount mark).id = m.id := by
  cases mark <;> rfl

/-- The three updates at the end of a round, none of which looks at the status. -/
def markPushItem (db : Db) (env : Env) (item : PushQueueItem) (mark : PushMark) : Db :=
  let queue := db.pushQueue.updateWhere (fun m => m.id == item.id)
    (PushMessage.marked env item.id item.retryCount mark)
    (PushMessage.id_marked env item.id item.retryCount mark)
  { db with pushQueue := queue }

def cleanupOldItems (db : Db) (env : Env) : Db :=
  { db with pushQueue := db.pushQueue.deleteWhere fun m =>
      (m.status == "sent" || m.status == "failed") &&
        notAfter m.processedAt (env.daysFromNow (-30)) }

/-! ### The outcome of a round -/

/-- `Vec::join`. -/
def joinErrors (results : List DeliveryResult) : String :=
  " | ".intercalate (results.filterMap fun r =>
    r.error.map fun e => r.endpoint ++ ": " ++ e.message)

def failedDestinations (results : List DeliveryResult) : List FailedDestinationRecord :=
  results.filterMap fun r => r.error.map fun e => { endpoint := r.endpoint, error := e.message }

def deadSubscriptionEndpoints (results : List DeliveryResult) : List String :=
  (results.filter fun r => r.outcome == some .subscriptionGone).map (·.endpoint)

/-- `endpoint_owners`: of subscriptions with one endpoint, the last. -/
def endpointOwner (subscriptions : List PushSubscription) (endpoint : String) : Option String :=
  (subscriptions.reverse.find? fun s => s.endpoint == endpoint).map (·.userId)

def noSubscriptions : String := "no subscriptions configured"

def roundMark (results : List DeliveryResult) : PushMark :=
  if results.any fun r => r.error.isNone then
    .sent (if (failedDestinations results).isEmpty then none
        else some ("partial delivery failures: " ++ joinErrors results))
      (failedDestinations results)
  else if (results.filterMap (·.outcome)).all fun o =>
      o == .subscriptionGone || o == .terminalFailure then
    .terminal (joinErrors results)
  else .failed (joinErrors results) (failedDestinations results)

/-! ### Webhooks -/

structure WebhookPost where
  url : String
  secret : Option String
  appId : String
  messageId : Nat
  status : String
  error : Option String
deriving DecidableEq, Repr

/-- `emit_push_webhook`: the request it spawns, if the app has a webhook. -/
def pushWebhook (db : Db) (appId : String) (messageId : Nat) (status : String)
    (error : Option String) : Option WebhookPost :=
  match db.apps.find? appId with
  | none => none
  | some app =>
      match app.pushWebhookUrl with
      | none => none
      | some url =>
          if isBlank url then none
          else some { url := url, secret := app.webhookSecret, appId := appId
                      messageId := messageId, status := status, error := error }

/-- The error a webhook reports. -/
def PushMark.error : PushMark → Option String
  | .sent note _ => note
  | .terminal error => some error
  | .failed error _ => some error

/-! ### The machine -/

/-- The clock, which of the deliveries moves, and how one that ends does.  A call
    that `stops` goes no further: a statement fails, or the process ends. -/
structure WorkerEnv where
  env : Env
  choice : Nat := 0
  result : Option DeliveryError := none
  stops : Bool := false

/-- The deliveries of one message: those not started, those under way and those
    that ended, in the order in which they did. -/
structure PushRound where
  item : PushQueueItem
  subscriptions : List PushSubscription
  waiting : List PushSubscription
  inFlight : List PushSubscription
  results : List DeliveryResult
deriving DecidableEq

inductive WorkerStage where
  | reclaiming
  | selecting
  | claiming (ids : List Nat)
  | loading (id : Nat) (rest : List Nat)
  | matching (item : PushQueueItem) (rest : List Nat)
  | delivering (round : PushRound) (rest : List Nat)
  | pruning (round : PushRound) (dead : List String) (rest : List Nat)
  | marking (item : PushQueueItem) (mark : PushMark) (rest : List Nat)
  | notifying (item : PushQueueItem) (status : String) (error : Option String) (rest : List Nat)
  | finished
  | failed
deriving DecidableEq

/-- The message that is claimed and whose outcome is not written yet. -/
def WorkerStage.held : WorkerStage → Option Nat
  | .loading id _ => some id
  | .matching item _ => some item.id
  | .delivering round _ => some round.item.id
  | .pruning round _ _ => some round.item.id
  | .marking item _ _ => some item.id
  | _ => none

/-- What a worker does, as seen from outside. -/
inductive PushEffect where
  | claimed (id : Nat)
  | round (id : Nat)
  | started (item : PushQueueItem) (subscription : PushSubscription)
  | returned (item : PushQueueItem) (result : DeliveryResult)
  | marked (id : Nat) (status : String)
  | webhook (id : Nat) (status : String) (post : Option WebhookPost)
deriving DecidableEq

/-- A call of `process_queue_with_deliveries`: where it stands, and what it has done. -/
structure PushRun where
  stage : WorkerStage
  effects : List PushEffect := []
deriving DecidableEq

namespace PushRun

/-- The delivery at this position moves: a waiting one starts, one under way ends. -/
def moveDelivery (e : WorkerEnv) (r : PushRun) (round : PushRound) (rest : List Nat) : PushRun :=
  let k := e.choice % (round.waiting.length + round.inFlight.length)
  match round.waiting[k]? with
  | some s =>
      { stage := .delivering
          { round with waiting := round.waiting.eraseIdx k, inFlight := round.inFlight ++ [s] } rest
        effects := r.effects ++ [.started round.item s] }
  | none =>
      match round.inFlight[k - round.waiting.length]? with
      | some s =>
          let result : DeliveryResult := { subscription := s, error := e.result }
          { stage := .delivering
              { round with inFlight := round.inFlight.eraseIdx (k - round.waiting.length)
                           results := round.results ++ [result] } rest
            effects := r.effects ++ [.returned round.item result] }
      | none =>
          -- `join_next` gives `None`
          { r with stage := .pruning round (deadSubscriptionEndpoints round.results) rest }

/-- The next statement, carried out. -/
def advance (r : PushRun) (e : WorkerEnv) (db : Db) : Db × PushRun :=
  match r.stage with
  | .reclaiming => (reclaimStaleProcessingItems db e.env, { r with stage := .selecting })
  | .selecting => (db, { r with stage := .claiming (pendingIds db e.env) })
  | .claiming [] => (db, { r with stage := .finished })
  | .claiming (id :: rest) =>
      match claimPushItem db e.env id with
      | none => (db, { r with stage := .claiming rest })
      | some db => (db, { stage := .loading id rest, effects := r.effects ++ [.claimed id] })
  | .loading id rest =>
      match db.pushQueue.find? id with
      | none => (db, { r with stage := .failed })
      | some m => (db, { r with stage := .matching m.item rest })
  | .matching item rest =>
      match db.pushSubscriptions.select (matchesItem item) with
      | [] => (db, { r with stage := .marking item (.terminal noSubscriptions) rest })
      | first :: others =>
          (db, { stage := .delivering
                   { item := item, subscriptions := first :: others, waiting := first :: others
                     inFlight := [], results := [] } rest
                 effects := r.effects ++ [.round item.id] })
  | .delivering round rest => (db, r.moveDelivery e round rest)
  | .pruning round [] rest =>
      (db, { r with stage := .marking round.item (roundMark round.results) rest })
  | .pruning round (endpoint :: dead) rest =>
      let r : PushRun := { r with stage := .pruning round dead rest }
      match endpointOwner round.subscriptions endpoint with
      | none => (db, r)
      | some userId => (deleteSubscriptionByEndpoint db userId endpoint, r)
  | .marking item mark rest =>
      let status := mark.status item.retryCount
      (markPushItem db e.env item mark,
        { stage := if status == "pending" then .claiming rest
            else .notifying item status mark.error rest
          effects := r.effects ++ [.marked item.id status] })
  | .notifying item status error rest =>
      (db, { stage := .claiming rest
             effects := r.effects ++
               [.webhook item.id status (pushWebhook db item.appId item.id status error)] })
  | .finished => (db, r)
  | .failed => (db, r)

def step (e : WorkerEnv) (db : Db) (r : PushRun) : Db × PushRun :=
  if e.stops then (db, { r with stage := .failed }) else r.advance e db

/-- The call has claimed the message and has not written its outcome yet. -/
def holds (r : PushRun) (id : Nat) : Prop := r.stage.held = some id

instance (r : PushRun) (id : Nat) : Decidable (r.holds id) :=
  inferInstanceAs (Decidable (r.stage.held = some id))

end PushRun

end Peanut
