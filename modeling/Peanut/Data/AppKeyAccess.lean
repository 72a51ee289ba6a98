import Peanut.Auth.AppKeys
import Peanut.Data.ReadPaths

/-!
# Data through an app key

The data handlers of `api/sdk.rs` check the scope of the key and then act for the user
of the request, or for the actor of the key if there is none.  That actor is the user
who created the key with that user's power, whatever the type of the key.
-/

namespace Peanut

open Relational

/-! ### Operations and their checks -/

def scopedActorClaims (auth : SdkAuthContext) (scope : String) : Except ApiError Claims := do
  Outcome.ensure (auth.principal.hasScope scope)
    (jsonError .forbidden (scope ++ " scope required"))
  return auth.user.getD auth.actor

/-- What a request asks of the policy of a table: to add a row, to see one in a list or
    in the stream of events, or to act on one; `owner` is the owner of the row. -/
inductive DataOperation where
  | createRow
  | listRow (owner : Option String)
  | streamEvent (owner : Option String)
  | onRow (action : RowAccessAction) (owner : Option String)
deriving DecidableEq, Repr

namespace DataOperation

def scope : DataOperation → String
  | .createRow => "data:write"
  | .listRow _ => "data:read"
  | .streamEvent _ => "data:read"
  | .onRow .read _ => "data:read"
  | .onRow .update _ => "data:write"
  | .onRow .delete _ => "data:write"

def permitted (claims : Claims) (policy : AccessPolicy) : DataOperation → Bool
  | .createRow => canWriteTable claims policy
  | .listRow owner => listShows claims policy owner
  | .streamEvent owner =>
      canReadTable claims policy && (claims.isAdmin || canAccessRow claims policy owner .read)
  | .onRow action owner => canAccessRow claims policy owner action

end DataOperation

/-- The same user without the power of an administrator. -/
def Claims.withoutAdmin (claims : Claims) : Claims := { claims with isAdmin := false }

def adminOnlyPolicy : AccessPolicy := { mode := .adminOnly, rules := none }

variable {claims : Claims}

/-- Whatever passes the check of the scope is open to a user who is no administrator. -/
structure KeyHasNoAdminPower (auth : SdkAuthContext) : Prop where
  permitted : ∀ (op : DataOperation) (policy : AccessPolicy) (claims : Claims),
    scopedActorClaims auth op.scope = .ok claims → op.permitted claims policy = true →
      op.permitted claims.withoutAdmin policy = true
  adminOnly : ∀ (op : DataOperation) (claims : Claims),
    scopedActorClaims auth op.scope = .ok claims → op.permitted claims adminOnlyPolicy = false

variable {auth : SdkAuthContext}

inductive SdkDataRequest where
  | createDataRow (tableName : String) (payload : CreateRowRequest)
  | listDataRows (tableName : String) (params : ListRowsParams)
  | getDataRow (tableName rowId : String) (params : GetRowParams)
  | updateDataRow (tableName rowId : String) (payload : CreateRowRequest)
  | deleteDataRow (tableName rowId : String)

namespace SdkDataRequest

def tableName : SdkDataRequest → String
  | .createDataRow tableName _ => tableName
  | .listDataRows tableName _ => tableName
  | .getDataRow tableName _ _ => tableName
  | .updateDataRow tableName _ _ => tableName
  | .deleteDataRow tableName _ => tableName

def scope : SdkDataRequest → String
  | .createDataRow .. => "data:write"
  | .listDataRows .. => "data:read"
  | .getDataRow .. => "data:read"
  | .updateDataRow .. => "data:write"
  | .deleteDataRow .. => "data:write"

/-- The handler behind the scope, and the status of its answer. -/
def handle (pf : Platform) (engine : Sqlite) (db : Db) (env : Env) (claims : Claims) :
    SdkDataRequest → Db × Except ApiError StatusCode
  | .createDataRow tableName payload =>
      Prod.map id (Except.map (·.status)) (createRow pf db env claims tableName payload)
  | .listDataRows tableName params =>
      (db, (listRows pf engine db claims tableName params).map (·.status))
  | .getDataRow tableName rowId params =>
      (db, (getRow pf db claims tableName rowId params).map (·.status))
  | .updateDataRow tableName rowId payload =>
      Prod.map id (Except.map (·.status)) (updateRow pf db env claims tableName rowId payload)
  | .deleteDataRow tableName rowId =>
      Prod.map id (Except.map (·.status)) (deleteRow pf db env claims tableName rowId)

def serve (pf : Platform) (engine : Sqlite) (db : Db) (env : Env) (auth : SdkAuthContext)
    (r : SdkDataRequest) : Db × Except ApiError StatusCode :=
  Outcome.proceed db (scopedActorClaims auth r.scope) (r.handle pf engine db env)

end SdkDataRequest

theorem requireRow_permitted {pf : Platform} {db : Db} {tableName rowId : String}
    {action : RowAccessAction} {found : LoadedTable × DataRow}
    (h : requireRow pf db claims tableName rowId action = .ok found) :
    loadTable pf db claims.appId tableName = some found.1 ∧
      (DataOperation.onRow action found.2.ownerUserId).permitted claims found.1.accessPolicy =
        true := by
  obtain ⟨table, record⟩ := found
  obtain ⟨htable, -, haccess⟩ := requireRow_eq_ok.mp h
  exact ⟨htable, haccess⟩

theorem SdkDataRequest.handle_permitted {pf : Platform} {engine : Sqlite} {db : Db} {env : Env}
    {r : SdkDataRequest} {status : StatusCode}
    (h : (r.handle pf engine db env claims).2 = .ok status) :
    ∃ table op, loadTable pf db claims.appId r.tableName = some table ∧ op.scope = r.scope ∧
      DataOperation.permitted claims table.accessPolicy op = true := by
  cases r with
  | createDataRow tableName payload =>
    obtain ⟨reply, hreply, -⟩ := Outcome.map_eq_ok.mp h
    obtain ⟨checked, hchecks, -⟩ := Outcome.proceed_eq_ok.mp hreply
    obtain ⟨table, htable, hchecks⟩ := Outcome.bind_eq_ok.mp hchecks
    obtain ⟨_, hwrite, -⟩ := Outcome.bind_eq_ok.mp hchecks
    exact ⟨table, .createRow, Outcome.require_eq_ok.mp htable, rfl, Outcome.ensure_eq_ok.mp hwrite⟩
  | listDataRows tableName params =>
    obtain ⟨reply, hreply, -⟩ := Outcome.map_eq_ok.mp h
    obtain ⟨table, htable, hlist⟩ := Outcome.bind_eq_ok.mp hreply
    obtain ⟨_, hread, -⟩ := Outcome.bind_eq_ok.mp hlist
    refine ⟨table, .listRow (some claims.sub), Outcome.require_eq_ok.mp htable, rfl, ?_⟩
    rw [DataOperation.permitted, listShows, Outcome.ensure_eq_ok.mp hread]
    unfold listOwnerFilter
    split <;> simp_all
  | getDataRow tableName rowId params =>
    obtain ⟨reply, hreply, -⟩ := Outcome.map_eq_ok.mp h
    obtain ⟨found, hrow, -⟩ := Outcome.bind_eq_ok.mp hreply
    obtain ⟨htable, hpermitted⟩ := requireRow_permitted hrow
    exact ⟨found.1, _, htable, rfl, hpermitted⟩
  | updateDataRow tableName rowId payload =>
    obtain ⟨reply, hreply, -⟩ := Outcome.map_eq_ok.mp h
    obtain ⟨checked, hchecks, -⟩ := Outcome.proceed_eq_ok.mp hreply
    obtain ⟨found, hrow, -⟩ := Outcome.bind_eq_ok.mp hchecks
    obtain ⟨htable, hpermitted⟩ := requireRow_permitted hrow
    exact ⟨found.1, _, htable, rfl, hpermitted⟩
  | deleteDataRow tableName rowId =>
    obtain ⟨reply, hreply, -⟩ := Outcome.map_eq_ok.mp h
    obtain ⟨found, hrow, -⟩ := Outcome.proceed_eq_ok.mp hreply
    obtain ⟨htable, hpermitted⟩ := requireRow_permitted hrow
    exact ⟨found.1, _, htable, rfl, hpermitted⟩

/-- A key without the power of an administrator gets nothing out of a table that is for
    administrators only. -/
theorem KeyHasNoAdminPower.refused (h : KeyHasNoAdminPower auth)
    {pf : Platform} {engine : Sqlite} {db : Db} {env : Env} {r : SdkDataRequest}
    (htable : ∀ t ∈ db.dataTables, t.name = pf.toLowercase (trim r.tableName) →
      t.accessPolicy = adminOnlyPolicy) :
    Outcome.succeeded (r.serve pf engine db env auth).2 = false := by
  rw [Bool.eq_false_iff]
  intro hok
  obtain ⟨status, hstatus⟩ := Outcome.succeeded_iff.mp hok
  obtain ⟨claims, hclaims, hhandled⟩ := Outcome.proceed_eq_ok.mp hstatus
  obtain ⟨table, op, hload, hscope, hpermitted⟩ := SdkDataRequest.handle_permitted hhandled
  obtain ⟨hmem, -, hname⟩ := loadTable_some hload
  rw [htable table hmem hname, h.adminOnly op claims (hscope.symm ▸ hclaims)] at hpermitted
  cases hpermitted

/-! ### When a key has no more power than a user -/

end Peanut
