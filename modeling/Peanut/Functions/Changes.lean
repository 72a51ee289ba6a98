import Peanut.Functions.Numbering
import Peanut.Library.Interleaving

/-!
# Changes of functions, one statement at a time

`create_function`, `update_function`, `rollback_function_version` and
`delete_function` as machines.  A tick is one statement or one whole transaction;
it may say that a statement in it fails, which undoes the transaction and ends the
request, except where the handler goes on without the result.
-/

namespace Peanut

open Relational Interleaving

inductive FunctionChange where
  | create (payload : UpsertFunctionRequest)
  | update (name : String) (payload : UpdateFunctionRequest)
  | rollback (name : String) (versionNumber : Int)
  | delete (name : String)

namespace FunctionChange

/-- The action in the audit log. -/
def action : FunctionChange → String
  | .create _ => "function.created"
  | .update _ _ => "function.updated"
  | .rollback _ _ => "function.rolled_back"
  | .delete _ => "function.deleted"

/-- The metadata in the audit log. -/
def metadata (f : FunctionDetail) : FunctionChange → Value
  | .create _ => .object [("endpoint_slug", .string f.endpointSlug)]
  | .update _ _ => .object [("active_version_number", .number (.ofInt f.activeVersionNumber))]
  | .rollback _ versionNumber => .object [("version_number", .number (.ofInt versionNumber))]
  | .delete _ => .object []

/-- Which of the drawn ids the row of the audit log gets. -/
def auditDraw : FunctionChange → Nat
  | .create _ => 2
  | .update _ _ => 1
  | .rollback _ _ => 0
  | .delete _ => 0

def status : FunctionChange → StatusCode
  | .create _ => .created
  | _ => .ok

/-- The answer when the function is gone before the reply is read. -/
def lostMessage : FunctionChange → String
  | .create _ => "created function could not be reloaded"
  | .update _ _ => "updated function could not be reloaded"
  | .rollback _ _ => "rolled back function could not be reloaded"
  | .delete _ => "function not found"

end FunctionChange

inductive FunctionReply where
  | function (reply : Reply FunctionDetail)
  | message (reply : Reply MessageResponse)

inductive FunctionStage where
  | received
  | creating (validated : ValidatedFunction)
  | found (function : FunctionDetail)
  | updating (existing : FunctionDetail) (validated : ValidatedFunction)
  | versionFound (function : FunctionDetail) (version : LoadedFunctionVersion)
  | activating (function : FunctionDetail) (version : LoadedFunctionVersion)
      (validated : ValidatedFunction)
  | committed (name : String)
  | reloaded (function : FunctionDetail)
  | deleted (function : FunctionDetail)
  | answered (reply : Except ApiError FunctionReply)

structure FunctionCall where
  claims : Claims
  change : FunctionChange
  stage : FunctionStage

/-- What a request draws at a tick, and the statement of the tick that fails. -/
structure FunctionTick where
  env : Env
  fault : Option Nat := none

namespace FunctionCall

/-- The answers to a failure, by the statement that fails.  A transaction begins,
    executes and commits.  Where no answer stands the handler ignores the failure. -/
def faults (c : FunctionCall) : List ApiError :=
  match c.stage, c.change with
  | .received, .create _ => []
  | .received, _ => [jsonError .internalServerError "failed to load function"]
  | .creating _, _ =>
      [jsonError .internalServerError "failed to start function transaction",
        jsonError .conflict "function name or endpoint already exists",
        jsonError .internalServerError "failed to persist function version",
        jsonError .internalServerError "failed to activate function version",
        jsonError .internalServerError "failed to commit function create"]
  | .found _, .update _ _ => [jsonError .internalServerError "failed to load function secrets"]
  | .found _, .rollback _ _ => [jsonError .internalServerError "failed to load function version"]
  | .found _, .delete _ => [jsonError .internalServerError "failed to delete function"]
  | .updating _ _, _ =>
      [jsonError .internalServerError "failed to start function transaction",
        jsonError .internalServerError "failed to persist function version",
        jsonError .conflict "function name or endpoint already exists",
        jsonError .internalServerError "failed to commit function update"]
  | .activating _ _ _, _ =>
      [jsonError .internalServerError "failed to start function transaction",
        jsonError .internalServerError "failed to activate function version",
        jsonError .internalServerError "failed to commit function rollback"]
  | .committed _, .create _ => [jsonError .internalServerError "failed to load created function"]
  | .committed _, .update _ _ => [jsonError .internalServerError "failed to load updated function"]
  | .committed _, .rollback _ _ =>
      [jsonError .internalServerError "failed to load rolled back function"]
  | _, _ => []

/-- The request goes on to a stage, or is answered. -/
def moved (c : FunctionCall) : Except ApiError FunctionStage → FunctionCall
  | .ok stage => { c with stage := stage }
  | .error e => { c with stage := .answered (.error e) }

/-- The request commits a transaction, or it is undone. -/
def commits (db : Db) (c : FunctionCall) (name : String) : Except ApiError Db → Db × FunctionCall
  | .ok db => (db, { c with stage := .committed name })
  | .error e => (db, { c with stage := .answered (.error e) })

/-- The first statement: the payload is checked or the function looked up. -/
def receive (pf : Platform) (db : Db) (c : FunctionCall) : Except ApiError FunctionStage := do
  requireAdmin c.claims
  match c.change with
  | .create payload => return .creating (← badRequest (validateCreatePayload pf payload))
  | .update name _ | .rollback name _ | .delete name =>
      return .found (← Outcome.require (loadFunctionByName db c.claims.appId name)
        (jsonError .notFound "function not found"))

/-- The secrets of an update are read and the payload is checked. -/
def checkUpdate (pf : Platform) (cipher : SecretCipher) (db : Db) (existing : FunctionDetail)
    (payload : UpdateFunctionRequest) : Except ApiError FunctionStage := do
  let secrets ← (loadFunctionSecrets cipher db existing.activeVersionId).mapError
    fun _ => jsonError .internalServerError "failed to load function secrets"
  return .updating existing (← badRequest (validateUpdatePayload pf existing secrets payload))

/-- The version of a rollback is read. -/
def findVersion (db : Db) (function : FunctionDetail) (versionNumber : Int) :
    Except ApiError FunctionStage := do
  return .versionFound function (← Outcome.require
    (loadFunctionVersionByNumber db function.id versionNumber)
    (jsonError .notFound "function version not found"))

/-- The `DELETE` statement. -/
def remove (db : Db) (c : FunctionCall) (existing : FunctionDetail) : Db × FunctionCall :=
  let p (f : FunctionDetail) : Bool := f.appId == c.claims.appId && f.id == existing.id
  if db.functions.rows.any p then (db.deleteFunctions p, { c with stage := .deleted existing })
  else (db, c.moved (.error (jsonError .notFound "function not found")))

/-- The row of the audit log; a failure is ignored. -/
def log (t : FunctionTick) (db : Db) (c : FunctionCall) (f : FunctionDetail) : Db :=
  if t.fault.isSome then db
  else db.recordAuditLog t.env (t.env.uuid c.change.auditDraw) (some c.claims.appId) c.claims
    c.change.action "function" f.name (c.change.metadata f)

/-- The next statement, when it does not fail. -/
def advance (pf : Platform) (cipher : SecretCipher) (t : FunctionTick) (db : Db)
    (c : FunctionCall) : Db × FunctionCall :=
  match c.stage with
  | .received => (db, c.moved (c.receive pf db))
  | .creating validated =>
      c.commits db validated.name (createFunctionTx cipher db t.env c.claims validated)
  | .found function =>
      match c.change with
      | .create _ => (db, c)
      | .update _ payload => (db, c.moved (checkUpdate pf cipher db function payload))
      | .rollback _ versionNumber => (db, c.moved (findVersion db function versionNumber))
      | .delete _ => c.remove db function
  | .updating existing validated =>
      c.commits db validated.name (updateFunctionTx cipher db t.env c.claims existing validated)
  | .versionFound function version =>
      let target := rollbackTarget cipher db function version
      -- secrets that cannot be read count as none
      let target := if t.fault.isSome then { target with secretValues := [] } else target
      (db, { c with stage := .activating function version target })
  | .activating function version validated =>
      c.commits db function.name (Outcome.require
        (activateFunctionVersion db t.env function.id validated version c.claims.sub)
        (jsonError .internalServerError "failed to activate function version"))
  | .committed name =>
      match loadFunctionByName db c.claims.appId name with
      | none => (db, c.moved (.error (jsonError .internalServerError c.change.lostMessage)))
      | some function => (db, { c with stage := .reloaded function })
  | .reloaded function =>
      (c.log t db function,
        { c with stage := .answered (.ok (.function
            { status := c.change.status, body := function })) })
  | .deleted function =>
      (c.log t db function,
        { c with stage := .answered (.ok (.message
            (jsonMessage .ok s!"deleted function {function.name}"))) })
  | .answered _ => (db, c)

def step (pf : Platform) (cipher : SecretCipher) (t : FunctionTick) (db : Db) (c : FunctionCall) :
    Db × FunctionCall :=
  match t.fault.bind fun n => c.faults[n]? with
  | some e => (db, c.moved (.error e))
  | none => c.advance pf cipher t db

end FunctionCall

/-- A change on its own, as the handlers compute it. -/
def handleFunctionChange (pf : Platform) (cipher : SecretCipher) (db : Db) (env : Env)
    (claims : Claims) : FunctionChange → Db × Except ApiError FunctionReply
  | .create payload =>
      (createFunction pf cipher db env claims payload).map id (Except.map .function)
  | .update name payload =>
      (updateFunction pf cipher db env claims name payload).map id (Except.map .function)
  | .rollback name versionNumber =>
      (rollbackFunctionVersion cipher db env claims name versionNumber).map id
        (Except.map .function)
  | .delete name => (deleteFunction db env claims name).map id (Except.map .message)

section Alone

variable (pf : Platform) (cipher : SecretCipher) (db : Db) (env : Env) (claims : Claims)

namespace FunctionCall

def reply (c : FunctionCall) : Option (Except ApiError FunctionReply) :=
  match c.stage with
  | .answered reply => some reply
  | _ => none

theorem reply_refused (c : FunctionCall) (e : ApiError) :
    reply { c with stage := .answered (.error e) } = some (.error e) := rfl

theorem moved_eq (c : FunctionCall) (x : Except ApiError FunctionStage) :
    (db, c.moved x) = Outcome.resume x (fun e => (db, { c with stage := .answered (.error e) }))
      fun stage => (db, { c with stage := stage }) := by
  cases x with
  | error e => rfl
  | ok stage => rfl

theorem commits_eq (c : FunctionCall) (name : String) (x : Except ApiError Db) :
    c.commits db name x = Outcome.resume x
      (fun e => (db, { c with stage := .answered (.error e) }))
      fun db => (db, { c with stage := .committed name }) := by
  cases x with
  | error e => rfl
  | ok db => rfl

/-- The end of a change that commits. -/
theorem answers_committed (change : FunctionChange) (name : String) :
    Answers (step pf cipher) { env := env } reply (db, ⟨claims, change, .committed name⟩)
      ((reloadFunction db env (env.uuid change.auditDraw) claims name change.action change.status
        change.metadata change.lostMessage).map id (Except.map .function)) := by
  refine .next ?_
  change Answers _ _ _ (advance pf cipher _ db _) _
  simp only [advance, reloadFunction]
  cases loadFunctionByName db claims.appId name with
  | none => exact .done rfl
  | some function => exact .next (.done rfl)

theorem create_answers (payload : UpsertFunctionRequest) :
    Answers (step pf cipher) { env := env } reply (db, ⟨claims, .create payload, .received⟩)
      ((createFunction pf cipher db env claims payload).map id (Except.map .function)) := by
  refine .next ?_
  change Answers _ _ _ (db, moved _ (receive pf db _)) _
  rw [moved_eq, receive, createFunction, Outcome.map_proceed, Outcome.resume_bind,
    Outcome.proceed_bind]
  refine answers_resume (reply_refused _) fun _ _ => ?_
  rw [Outcome.resume_bind]
  refine answers_resume (reply_refused _) fun validated _ => .next ?_
  change Answers _ _ _ (commits db _ _ (createFunctionTx cipher db env claims validated)) _
  rw [commits_eq, Outcome.map_proceed]
  exact answers_resume (reply_refused _) fun db' _ =>
    answers_committed pf cipher db' env claims (.create payload) validated.name

theorem update_answers (name : String) (payload : UpdateFunctionRequest) :
    Answers (step pf cipher) { env := env } reply (db, ⟨claims, .update name payload, .received⟩)
      ((updateFunction pf cipher db env claims name payload).map id (Except.map .function)) := by
  refine .next ?_
  change Answers _ _ _ (db, moved _ (receive pf db _)) _
  rw [moved_eq, receive, updateFunction, Outcome.map_proceed, updateFunctionChecks,
    Outcome.resume_bind, Outcome.proceed_bind]
  refine answers_resume (reply_refused _) fun _ _ => ?_
  rw [Outcome.resume_bind, Outcome.proceed_bind]
  refine answers_resume (reply_refused _) fun existing _ => .next ?_
  change Answers _ _ _ (db, moved _ (checkUpdate pf cipher db existing payload)) _
  rw [moved_eq, checkUpdate, Outcome.resume_bind, Outcome.proceed_bind]
  refine answers_resume (reply_refused _) fun secrets _ => ?_
  rw [Outcome.resume_bind, Outcome.proceed_bind]
  refine answers_resume (reply_refused _) fun validated _ => .next ?_
  change Answers _ _ _ (commits db _ _ (updateFunctionTx cipher db env claims existing validated)) _
  simp only [commits_eq, pure, Except.pure, Outcome.proceed_ok, Outcome.map_proceed]
  exact answers_resume (reply_refused ⟨claims, .update name payload, .received⟩) fun db' _ =>
    answers_committed pf cipher db' env claims (.update name payload) validated.name

theorem rollback_answers (name : String) (versionNumber : Int) :
    Answers (step pf cipher) { env := env } reply
      (db, ⟨claims, .rollback name versionNumber, .received⟩)
      ((rollbackFunctionVersion cipher db env claims name versionNumber).map id
        (Except.map .function)) := by
  refine .next ?_
  change Answers _ _ _ (db, moved _ (receive pf db _)) _
  rw [moved_eq, receive, rollbackFunctionVersion, Outcome.map_proceed, Outcome.resume_bind,
    Outcome.proceed_bind]
  refine answers_resume (reply_refused _) fun _ _ => ?_
  rw [Outcome.resume_bind, Outcome.proceed_bind]
  refine answers_resume (reply_refused _) fun function _ => .next ?_
  change Answers _ _ _ (db, moved _ (findVersion db function versionNumber)) _
  rw [moved_eq, findVersion, Outcome.resume_bind, Outcome.proceed_bind]
  refine answers_resume (reply_refused _) fun version _ => .next (.next ?_)
  change Answers _ _ _ (commits db _ _ (Outcome.require (activateFunctionVersion db env function.id
    (rollbackTarget cipher db function version) version claims.sub) _)) _
  simp only [commits_eq, pure, Except.pure, Outcome.proceed_ok, Outcome.map_proceed]
  exact answers_resume (reply_refused ⟨claims, .rollback name versionNumber, .received⟩)
    fun db' _ =>
    answers_committed pf cipher db' env claims (.rollback name versionNumber) function.name

theorem delete_answers (name : String) :
    Answers (step pf cipher) { env := env } reply (db, ⟨claims, .delete name, .received⟩)
      ((deleteFunction db env claims name).map id (Except.map .message)) := by
  refine .next ?_
  change Answers _ _ _ (db, moved _ (receive pf db _)) _
  rw [moved_eq, receive, deleteFunction, Outcome.map_proceed, Outcome.resume_bind,
    Outcome.proceed_bind]
  refine answers_resume (reply_refused _) fun _ _ => ?_
  rw [Outcome.resume_bind]
  refine answers_resume (reply_refused _) fun existing _ => .next ?_
  change Answers _ _ _ (remove db _ existing) _
  rw [remove]
  dsimp only
  split
  · exact .next (.done rfl)
  · exact .done rfl

end FunctionCall

/-- On its own, the machine computes the handlers. -/
theorem handleFunctionChange_alone (change : FunctionChange) :
    Answers (FunctionCall.step pf cipher) { env := env } FunctionCall.reply
      (db, ⟨claims, change, .received⟩) (handleFunctionChange pf cipher db env claims change) := by
  cases change with
  | create payload => exact FunctionCall.create_answers pf cipher db env claims payload
  | update name payload => exact FunctionCall.update_answers pf cipher db env claims name payload
  | rollback name number =>
    exact FunctionCall.rollback_answers pf cipher db env claims name number
  | delete name => exact FunctionCall.delete_answers pf cipher db env claims name

/-- Served without an interruption, a request does what its handler does. -/
theorem run_uninterrupted {ι : Type} [DecidableEq ι] (p : Pool ι Db FunctionCall) (i : ι)
    {change : FunctionChange} (h : p.request i = ⟨claims, change, .received⟩) :
    ∃ n, (run (FunctionCall.step pf cipher) p (List.replicate n (i, { env := env }))).store =
      (handleFunctionChange pf cipher p.store env claims change).1 := by
  obtain ⟨n, hstore, -⟩ := handleFunctionChange_alone pf cipher p.store env claims change
  refine ⟨n, ?_⟩
  rw [(run_replicate p i _ n).1, h, hstore]

end Alone

end Peanut
