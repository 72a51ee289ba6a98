import Peanut.Library.Transition
import Peanut.Auth.Users
import Peanut.Data.ImportExport

/-!
# Runs of the data plane

Requests that change tables, rows or users, executed one after the other, each
succeeding or failing.  The clock and the random identifiers of a request are
part of the request (`Env`).  Every request keeps the store well formed, so
every store a run reaches is.
-/

namespace Peanut

open Relational

inductive DataRequest where
  | createTable (env : Env) (claims : Claims) (payload : CreateTableRequest)
  | updateTable (env : Env) (claims : Claims) (table : String) (payload : UpdateTableRequest)
  | deleteTable (env : Env) (claims : Claims) (table : String)
  | createRow (env : Env) (claims : Claims) (table : String) (payload : CreateRowRequest)
  | updateRow (env : Env) (claims : Claims) (table rowId : String) (payload : CreateRowRequest)
  | deleteRow (env : Env) (claims : Claims) (table rowId : String)
  | importRows (env : Env) (claims : Claims) (table : String) (payload : TableImportRequest)
  | registerForApp (env : Env) (appId : String) (payload : Credentials)
  | createAdminUser (env : Env) (claims : Claims) (appId : String)
      (payload : CreateAdminUserRequest)
  | deleteAdminUser (env : Env) (claims : Claims) (appId userId : String)

/-- The database after a request. -/
def handleDataRequest (pf : Platform) (db : Db) : DataRequest → Db
  | .createTable env claims payload => (createTable pf db env claims payload).1
  | .updateTable env claims table payload => (updateTable pf db env claims table payload).1
  | .deleteTable env claims table => (deleteTable pf db env claims table).1
  | .createRow env claims table payload => (createRow pf db env claims table payload).1
  | .updateRow env claims table rowId payload =>
      (updateRow pf db env claims table rowId payload).1
  | .deleteRow env claims table rowId => (deleteRow pf db env claims table rowId).1
  | .importRows env claims table payload => (importRows pf db env claims table payload).1
  | .registerForApp env appId payload => (registerForApp pf db env appId payload).1
  | .createAdminUser env claims appId payload => (createAdminUser pf db env claims appId payload).1
  | .deleteAdminUser env claims appId userId => (deleteAdminUser db env claims appId userId).1

/-- A database whose data tables are empty; users and apps may be there already. -/
def Db.withoutData (db : Db) : Db :=
  { db with dataTables := .empty, dataRows := .empty, dataRowEvents := .empty }

/-- The database after a run that starts without data. -/
def runData (pf : Platform) (db : Db) (requests : List DataRequest) : Db :=
  Transition.run (handleDataRequest pf) db.withoutData requests

/-- **Refinement.**  A request handler does nothing to the data plane but a
    sequence of its steps. -/
theorem handleDataRequest_steps {pf : Platform} {db : Db} (hwf : WellFormed pf db.core)
    (request : DataRequest) : DataSteps pf db.core (handleDataRequest pf db request).core := by
  cases request with
  | createTable env claims payload => exact createTable_steps pf db env claims payload
  | updateTable env claims table payload => exact updateTable_steps pf db env claims table payload
  | deleteTable env claims table => exact deleteTable_steps pf db env claims table
  | createRow env claims table payload => exact createRow_steps hwf env claims table payload
  | updateRow env claims table rowId payload =>
    exact updateRow_steps hwf env claims table rowId payload
  | deleteRow env claims table rowId => exact deleteRow_steps pf db env claims table rowId
  | importRows env claims table payload => exact importRows_steps hwf env claims table payload
  | registerForApp env appId payload => exact registerForApp_steps pf db env appId payload
  | createAdminUser env claims appId payload =>
    exact createAdminUser_steps pf db env claims appId payload
  | deleteAdminUser env claims appId userId =>
    exact deleteAdminUser_steps pf db env claims appId userId

theorem wellFormed_withoutData (pf : Platform) (db : Db) : WellFormed pf db.withoutData.core :=
  wellFormed_of_empty (fun t => KeyedTable.not_mem_empty t) (fun r => KeyedTable.not_mem_empty r)

theorem wellFormed_runData (pf : Platform) (db : Db) (requests : List DataRequest) :
    WellFormed pf (runData pf db requests).core := by
  have hstep : ∀ s request, WellFormed pf s.core →
      WellFormed pf (handleDataRequest pf s request).core :=
    fun s request hwf => hwf.steps (handleDataRequest_steps hwf request)
  exact Transition.run_preserves hstep (wellFormed_withoutData pf db) requests

/-- **Schema conformity.**  After any run that starts without data, every stored
    row belongs to a stored table and is a JSON object that the table's current
    schema accepts in full. -/
theorem runData_rows_conform (pf : Platform) (db : Db) (requests : List DataRequest) :
    ∀ row ∈ (runData pf db requests).dataRows,
      ∃ table ∈ (runData pf db requests).dataTables, table.id = row.tableId ∧
        ∃ fields : JsonMap, row.data = .object fields ∧
          ∃ normalized, normalizeRowData pf table.schema row.data false = .ok normalized := by
  intro row hrow
  have hwf := wellFormed_runData pf db requests
  obtain ⟨table, htable, hid, -, hconf⟩ := hwf.row_table row hrow
  obtain ⟨fields, hfields⟩ := hconf.isObject
  exact ⟨table, htable, hid, fields, hfields, hconf⟩

/-! ### A table of notes -/

def root : Claims := { sub := "root", appId := "default", exp := 0, isAdmin := true }

def rootUser : User :=
  { id := "root", appId := "default", email := "root@example.com", passwordHash := "$root"
    isActive := true, isAdmin := true, adminRole := .owner, createdAt := "2026-01-01 00:00:00" }

/-- An app with one administrator. -/
def rootDb : Db := { users := ⟨[rootUser], by decide⟩ }

def noteSchema : DataTableSchema := { fields := ⟨[("title", { fieldType := .string })], by decide⟩ }

def note (title : String) : Value := .object [("title", .string title)]

/-- The administrator creates a table and imports one row into it. -/
def notesRun : List DataRequest :=
  [.createTable (sampleEnv "t") root
      { name := "notes", displayName := "Notes", schema := noteSchema,
        accessPolicy := { mode := .authenticatedSharedRw } },
    .importRows (sampleEnv "r") root "notes" { rows := [{ id := some "old", data := note "old" }] }]

/-- The imported row is there, and the schema of its table accepts it. -/
theorem imported_note_conforms :
    ∃ row ∈ (runData asciiPlatform rootDb notesRun).dataRows, row.id = "old" ∧
      ∃ table ∈ (runData asciiPlatform rootDb notesRun).dataTables, table.id = row.tableId ∧
        ∃ normalized, normalizeRowData asciiPlatform table.schema row.data false =
          .ok normalized := by
  have hstored : ∃ row ∈ (runData asciiPlatform rootDb notesRun).dataRows.rows, row.id = "old" := by
    decide +kernel
  obtain ⟨row, hrow, hid⟩ := hstored
  obtain ⟨table, htable, htid, -, -, hconf⟩ :=
    runData_rows_conform asciiPlatform rootDb notesRun row hrow
  exact ⟨row, hrow, hid, table, htable, htid, hconf⟩

end Peanut
