import Peanut.Data.Runs

/-!
# What a failed import leaves behind

The checks of an import see neither the ids nor the owners of the payload rows;
these are judged by the database when the row is inserted, after the old rows
have been cleared and the definition has been rewritten.  This module follows
an import to the first row the database rejects and says exactly when the store
is then what it was before.
-/

namespace Peanut

open Relational

/-! ### The insert loop -/

/-- The stored forms of the rows of a payload, from index `n` on. -/
def planRows (pf : Platform) (env : Env) (claims : Claims) (table : LoadedTable) :
    Nat → List ImportRowRequest → Except ApiError (List DataRow)
  | _, [] => .ok []
  | n, row :: rest => do
      let planned ← planRow pf env claims table n row
      let others ← planRows pf env claims table (n + 1) rest
      return planned :: others

/-- Does the database take the row?  `seen` holds the ids this import has used. -/
def rowAccepted (db : Db) (seen : List String) (row : DataRow) : Bool :=
  db.userOrNull row.ownerUserId && !db.dataRows.hasKey row.id && !seen.contains row.id

/-- The rows that are stored before the first one the database rejects. -/
def writtenRows (db : Db) : List String → List DataRow → List DataRow
  | _, [] => []
  | seen, row :: rest =>
      if rowAccepted db seen row then row :: writtenRows db (row.id :: seen) rest else []

theorem planRows_of_checks {pf : Platform} {table : LoadedTable} (env : Env) (claims : Claims)
    {rows : List ImportRowRequest} (h : ∀ row ∈ rows, checkImportRow pf table row = .ok ()) :
    ∀ n, ∃ planned, planRows pf env claims table n rows = .ok planned := by
  induction rows with
  | nil => intro n; exact ⟨[], rfl⟩
  | cons row rest ih =>
    intro n
    have hrow := h row (by simp)
    simp only [checkImportRow, Outcome.bind_eq_ok, badRequest_eq_ok] at hrow
    obtain ⟨data, hdata, owner, howner, -⟩ := hrow
    obtain ⟨others, hothers⟩ := ih (fun r hr => h r (List.mem_cons_of_mem _ hr)) (n + 1)
    have hplan : planRow pf env claims table n row =
        .ok (newRow env claims table (row.id.getD (env.uuid n)) owner data) := by
      simp only [planRow, hdata, howner, badRequest, Outcome.mapError_ok]
      rfl
    refine ⟨newRow env claims table (row.id.getD (env.uuid n)) owner data :: others, ?_⟩
    rw [planRows, hplan, hothers]
    rfl

/-- The state of the loop: the rows of `base` and the rows stored so far. -/
structure InsertedSoFar (base db : Db) (stored : List DataRow) : Prop where
  users : db.users = base.users
  tables : db.dataTables = base.dataTables
  rows : ∀ r, r ∈ db.dataRows ↔ r ∈ base.dataRows ∨ r ∈ stored

theorem InsertedSoFar.hasKey {base db : Db} {stored : List DataRow}
    (h : InsertedSoFar base db stored) (id : String) :
    db.dataRows.hasKey id = (base.dataRows.hasKey id || (stored.map DataRow.id).contains id) := by
  rw [Bool.eq_iff_iff, Bool.or_eq_true, KeyedTable.hasKey_iff, KeyedTable.hasKey_iff]
  simp only [h.rows, List.contains_iff_mem, List.mem_map]
  constructor
  · rintro ⟨r, hr | hr, rfl⟩
    · exact .inl ⟨r, hr, rfl⟩
    · exact .inr ⟨r, hr, rfl⟩
  · rintro (⟨r, hr, rfl⟩ | ⟨r, hr, rfl⟩)
    · exact ⟨r, .inl hr, rfl⟩
    · exact ⟨r, .inr hr, rfl⟩

theorem InsertedSoFar.insert {base db db' : Db} {stored : List DataRow} {row : DataRow} (env : Env)
    (appId tableId rowId actor action : String) (diff : Option Value)
    (h : InsertedSoFar base db stored) (hinsert : db.insertDataRow row = some db') :
    InsertedSoFar base (db'.logRowEvent env appId tableId rowId actor action diff)
      (row :: stored) := by
  obtain ⟨-, -, rows, hins, rfl⟩ := Db.insertDataRow_eq_some.mp hinsert
  have hcore := logRowEvent_core { db with dataRows := rows } env appId tableId rowId actor action
    diff
  refine ⟨?_, ?_, ?_⟩
  · exact (congrArg DataCore.users hcore).trans h.users
  · exact (congrArg DataCore.tables hcore).trans h.tables
  · intro r
    have hrows := congrArg DataCore.rows hcore
    rw [show (Db.logRowEvent _ env appId tableId rowId actor action diff).dataRows =
      rows from hrows,
      KeyedTable.mem_insert? hins, h.rows, List.mem_cons]
    constructor
    · rintro ((hr | hr) | rfl)
      · exact .inl hr
      · exact .inr (.inr hr)
      · exact .inr (.inl rfl)
    · rintro (hr | rfl | hr)
      · exact .inl (.inl hr)
      · exact .inr rfl
      · exact .inl (.inr hr)

/-- **The loop stores the accepted rows and stops at the first rejected one.**
    The induction is on the payload, with the rows stored so far in the
    invariant. -/
theorem insertStage_written {pf : Platform} {env : Env} {claims : Claims} {table : LoadedTable}
    {base : Db} (htable : base.dataTables.hasKey table.id = true)
    {rows : List ImportRowRequest} :
    ∀ {n : Nat} {db : Db} {stored planned : List DataRow}, InsertedSoFar base db stored →
      planRows pf env claims table n rows = .ok planned →
      (∃ stored', InsertedSoFar base (insertStage pf env claims table n rows db).1 stored' ∧
        ∀ r, r ∈ stored' ↔
          r ∈ stored ∨ r ∈ writtenRows base (stored.map DataRow.id) planned) ∧
      ((∃ count, (insertStage pf env claims table n rows db).2 = .ok count) ↔
        writtenRows base (stored.map DataRow.id) planned = planned) := by
  induction rows with
  | nil =>
    intro n db stored planned hsofar hplan
    cases hplan
    exact ⟨⟨stored, hsofar, by simp [writtenRows]⟩, by simp [insertStage, writtenRows]⟩
  | cons row rest ih =>
    intro n db stored planned hsofar hplan
    simp only [planRows, Outcome.bind_eq_ok] at hplan
    obtain ⟨first, hfirst, others, hothers, heq⟩ := hplan
    cases heq
    have haccepted : rowAccepted base (stored.map DataRow.id) first = true ↔
        ∃ db', db.insertDataRow first = some db' := by
      have hid : first.tableId = table.id := (planRow_ok hfirst).1
      rw [← Option.isSome_iff_exists, ← not_iff_not, Option.not_isSome_iff_eq_none,
        Db.insertDataRow_eq_none, not_iff_not, hsofar.hasKey, hsofar.tables, hid, htable]
      have husers : db.userOrNull first.ownerUserId = base.userOrNull first.ownerUserId := by
        unfold Db.userOrNull
        rw [hsofar.users]
      rw [husers, rowAccepted]
      simp [and_assoc]
    rw [insertStage, hfirst, Outcome.proceed_ok, writtenRows]
    cases hinsert : db.insertDataRow first with
    | none =>
      have hno : rowAccepted base (stored.map DataRow.id) first = false := by
        rw [← Bool.not_eq_true, haccepted, hinsert]
        simp
      rw [hno]
      exact ⟨⟨stored, hsofar, by simp⟩, by simp⟩
    | some db' =>
      have hyes : rowAccepted base (stored.map DataRow.id) first = true :=
        haccepted.mpr ⟨db', hinsert⟩
      have hnext := hsofar.insert env claims.appId table.id first.id claims.sub "insert"
        (some first.data) hinsert
      obtain ⟨⟨stored', hstored, hmem⟩, hok⟩ := ih hnext hothers
      rw [hyes]
      refine ⟨⟨stored', hstored, fun r => ?_⟩, ?_⟩
      · rw [hmem r]
        simp only [List.mem_cons, List.map_cons, if_true]
        constructor
        · rintro ((rfl | hr) | hr)
          · exact .inr (.inl rfl)
          · exact .inl hr
          · exact .inr (.inr hr)
        · rintro (hr | rfl | hr)
          · exact .inl (.inr hr)
          · exact .inl (.inl rfl)
          · exact .inr hr
      · rw [hok]
        simp only [List.map_cons, if_true, List.cons.injEq, true_and]

theorem writtenRows_fresh {db : Db} {rows : List DataRow} :
    ∀ {seen : List String}, ∀ r ∈ writtenRows db seen rows, db.dataRows.hasKey r.id = false := by
  induction rows with
  | nil => intro seen r hr; simp [writtenRows] at hr
  | cons row rest ih =>
    intro seen r hr
    rw [writtenRows] at hr
    split at hr
    · rename_i hacc
      rcases List.mem_cons.mp hr with rfl | hr
      · simp only [rowAccepted, Bool.and_eq_true, Bool.not_eq_true'] at hacc
        exact hacc.1.2
      · exact ih r hr
    · simp at hr

/-! ### The stages before the loop -/

/-- The database the loop starts from, when the restore goes through. -/
def restoredDb (db : Db) (plan : ImportPlan) : Db :=
  match plan.restore with
  | some spec =>
      db.redefineTable plan.table.id (trim spec.displayName) spec.schema spec.accessPolicy
  | none => db

/-- An `append` that wants to restore a schema some stored row does not fit is
    refused after the checks, before anything is written. -/
def RestoreRefused (pf : Platform) (db : Db) (plan : ImportPlan) : Prop :=
  plan.replace = false ∧ ∃ spec, plan.restore = some spec ∧
    ∃ r ∈ db.dataRows, r.tableId = plan.table.id ∧ ¬ Conforms pf spec.schema r.data

section Stages

variable {pf : Platform} {db : Db} {claims : Claims} {plan : ImportPlan}

theorem mem_clearStage (hwf : WellFormed pf db.core) (htable : plan.table ∈ db.dataTables)
    (happ : plan.table.appId = claims.appId) {r : DataRow} :
    r ∈ (clearStage db claims plan).dataRows ↔
      r ∈ db.dataRows ∧ ¬ (plan.replace = true ∧ r.tableId = plan.table.id) := by
  unfold clearStage
  split
  · rename_i hreplace
    rw [Db.deleteRows, KeyedTable.mem_deleteWhere]
    refine and_congr_right fun hr => ?_
    simp only [hreplace, true_and, importClears, Bool.and_eq_false_iff, beq_eq_false_iff_ne]
    constructor
    · rintro (hne | hne) hid
      · exact hne ((hwf.row_app hr htable hid.symm).trans happ)
      · exact hne hid
    · intro hne
      exact .inr hne
  · rename_i hreplace
    simp [hreplace]

theorem countTableRows_eq_zero {tableId : String} (h : ∀ r ∈ db.dataRows, r.tableId ≠ tableId) :
    countTableRows db tableId = 0 := by
  have hnil : (db.dataRows.select fun r => r.tableId == tableId) = [] := by
    rw [KeyedTable.select, List.filter_eq_nil_iff]
    intro r hr
    simpa using h r hr
  simp [countTableRows, hnil]

theorem countTableRows_clearStage (hwf : WellFormed pf db.core)
    (htable : plan.table ∈ db.dataTables) (happ : plan.table.appId = claims.appId) :
    countTableRows (clearStage db claims plan) plan.table.id =
      if plan.replace then 0 else countTableRows db plan.table.id := by
  split
  · rename_i hreplace
    refine countTableRows_eq_zero fun r hr hid => ?_
    exact ((mem_clearStage hwf htable happ).mp hr).2 ⟨hreplace, hid⟩
  · rename_i hreplace
    simp [clearStage, hreplace]

theorem loadTable_restored {db : Db} (hwf : WellFormed pf db.core) {table : LoadedTable}
    (htable : table ∈ db.dataTables) {spec : DataTableRestoreSpec}
    (hschema : validateSchema pf spec.schema = .ok ())
    (hpolicy : validateAccessPolicy spec.accessPolicy = .ok ())
    (hfits : ∀ r ∈ db.dataRows, r.tableId = table.id → Conforms pf spec.schema r.data) :
    loadTable pf (db.redefineTable table.id (trim spec.displayName) spec.schema spec.accessPolicy)
      table.appId table.name = some (table.restored spec) := by
  have hwfr : WellFormed pf (db.redefineTable table.id (trim spec.displayName) spec.schema
      spec.accessPolicy).core :=
    hwf.redefineTable hschema hpolicy hfits
  have hmem : table.restored spec ∈ (db.redefineTable table.id (trim spec.displayName) spec.schema
      spec.accessPolicy).dataTables :=
    (KeyedTable.mem_updateWhere (t := db.dataTables) (p := fun t => t.id == table.id)
      (f := fun t => t.redefine (trim spec.displayName) spec.schema spec.accessPolicy)
      (LoadedTable.id_redefine _ _ _)).mpr ⟨table, htable, by simp [LoadedTable.restored]⟩
  exact loadTable_stored hwfr hmem

/-- **The restore stage.**  It is refused without effect, or it hands the
    effective table on to the loop. -/
theorem restoreStage_outcome (hwf : WellFormed pf db.core) (htable : plan.table ∈ db.dataTables)
    (happ : plan.table.appId = claims.appId)
    (hspec : ∀ spec, plan.restore = some spec →
      validateRestoreTableSpec pf plan.table spec
        (if plan.replace then 0 else countTableRows db plan.table.id) = .ok ()) :
    (RestoreRefused pf db plan ∧
        ∃ e, restoreStage pf (clearStage db claims plan) claims plan = (db, .error e)) ∨
      (¬ RestoreRefused pf db plan ∧
        restoreStage pf (clearStage db claims plan) claims plan =
          (restoredDb (clearStage db claims plan) plan, .ok plan.effectiveTable)) := by
  cases hrestore : plan.restore with
  | none =>
    refine .inr ⟨?_, ?_⟩
    · rintro ⟨-, spec, hs, -⟩
      rw [hrestore] at hs
      cases hs
    · simp only [restoreStage, restoredDb, ImportPlan.effectiveTable, hrestore]
  | some spec =>
    have hvalid : validateRestoreTableSpec pf plan.table spec
        (countTableRows (clearStage db claims plan) plan.table.id) = .ok () := by
      rw [countTableRows_clearStage hwf htable happ]
      exact hspec spec hrestore
    obtain ⟨hschema, hpolicy⟩ := validateRestoreTableSpec_ok hvalid
    have hwfc : WellFormed pf (clearStage db claims plan).core :=
      hwf.steps (clearStage_steps pf db claims plan)
    have htablec : plan.table ∈ (clearStage db claims plan).dataTables := by
      unfold clearStage
      split <;> exact htable
    cases hrows : validateRowsAgainstSchema pf (clearStage db claims plan) plan.table.id
        spec.schema with
    | error message =>
      -- a misfit is left over, so nothing was cleared
      have hmisfit : ¬ ∀ r ∈ (clearStage db claims plan).dataRows, r.tableId = plan.table.id →
          Conforms pf spec.schema r.data := by
        rw [← validateRowsAgainstSchema_eq_ok, hrows]
        simp
      push Not at hmisfit
      obtain ⟨r, hr, hid, hbad⟩ := hmisfit
      obtain ⟨hr', hkept⟩ := (mem_clearStage hwf htable happ).mp hr
      have hreplace : plan.replace = false := by
        rw [← Bool.not_eq_true]
        exact fun h => hkept ⟨h, hid⟩
      have hclear : clearStage db claims plan = db := by simp [clearStage, hreplace]
      refine .inl ⟨⟨hreplace, spec, hrestore, r, hr', hid, hbad⟩, jsonError .badRequest message, ?_⟩
      rw [hclear] at hvalid hrows ⊢
      simp only [restoreStage, hrestore, restoreTableDefinition, hvalid, hrows, badRequest,
        Outcome.mapError_ok, Outcome.mapError_error]
      rfl
    | ok u =>
      have hfits := validateRowsAgainstSchema_eq_ok.mp hrows
      refine .inr ⟨?_, ?_⟩
      · rintro ⟨hreplace, spec', hs, r, hr, hid, hbad⟩
        rw [hrestore] at hs
        cases hs
        refine hbad (hfits r ?_ hid)
        refine (mem_clearStage hwf htable happ).mpr ⟨hr, fun h => ?_⟩
        rw [hreplace] at h
        exact Bool.noConfusion h.1
      · have hload := loadTable_restored hwfc htablec hschema hpolicy hfits
        rw [happ] at hload
        simp only [restoreStage, hrestore, restoreTableDefinition, hvalid, hrows, badRequest,
          Outcome.mapError_ok, restoredDb, ImportPlan.effectiveTable]
        show Outcome.proceed _ (Except.ok u) _ = _
        rw [Outcome.proceed_ok, hload]
        rfl

end Stages

/-! ### The whole import -/

/-- An import is all-or-nothing when an error leaves tables and rows alone. -/
def ImportAtomic (pf : Platform) (db : Db) (env : Env) (claims : Claims) (tableName : String)
    (payload : TableImportRequest) : Prop :=
  ∀ e, (importRows pf db env claims tableName payload).2 = .error e →
    (importRows pf db env claims tableName payload).1.dataTables.Same db.dataTables ∧
      (importRows pf db env claims tableName payload).1.dataRows.Same db.dataRows

/-- What an import that passed its checks, and is no dry run, must meet to leave
    nothing behind: the restore is refused, or every row is accepted, or the
    definition stays as it is and the rows stored before the first rejected one
    are exactly the rows that were cleared (in `append` mode: there are none). -/
def ImportPlan.LeavesNothing (pf : Platform) (db : Db) (claims : Claims) (plan : ImportPlan)
    (planned : List DataRow) : Prop :=
  RestoreRefused pf db plan ∨
    writtenRows (clearStage db claims plan) [] planned = planned ∨
    (plan.effectiveTable = plan.table ∧
      ∀ r, r ∈ writtenRows (clearStage db claims plan) [] planned ↔
        plan.replace = true ∧ r ∈ db.dataRows ∧ r.tableId = plan.table.id)

/-- The request stops in the checks, is a dry run, or leaves nothing behind. -/
def ImportLeavesNothing (pf : Platform) (db : Db) (env : Env) (claims : Claims)
    (tableName : String) (payload : TableImportRequest) : Prop :=
  ∀ plan planned, importChecks pf db claims tableName payload = .ok plan → plan.dryRun = false →
    planRows pf env claims plan.effectiveTable 0 payload.rows = .ok planned →
    plan.LeavesNothing pf db claims planned

section Whole

variable {pf : Platform} {db : Db} {claims : Claims} {plan : ImportPlan}

/-- Rewriting a definition leaves the tables as they were only if it is the
    definition they had. -/
theorem restoredDb_tables_same (htable : plan.table ∈ db.dataTables) (base : Db)
    (hbase : base.dataTables = db.dataTables) :
    (restoredDb base plan).dataTables.Same db.dataTables ↔ plan.effectiveTable = plan.table := by
  cases hrestore : plan.restore with
  | none => simp [restoredDb, ImportPlan.effectiveTable, hrestore, hbase, KeyedTable.Same]
  | some spec =>
    have hmem : ∀ s, s ∈ (restoredDb base plan).dataTables ↔ ∃ t ∈ db.dataTables,
        s = if t.id == plan.table.id then t.restored spec else t := by
      intro s
      rw [restoredDb, hrestore, ← hbase]
      exact KeyedTable.mem_updateWhere (t := base.dataTables)
        (p := fun t => t.id == plan.table.id)
        (f := fun t => t.restored spec) (fun _ => rfl)
    have heff : plan.effectiveTable = plan.table.restored spec := by
      simp [ImportPlan.effectiveTable, hrestore]
    rw [heff]
    constructor
    · intro hsame
      have hnew : plan.table.restored spec ∈ db.dataTables :=
        (hsame _).mp ((hmem _).mpr ⟨plan.table, htable, by simp⟩)
      exact db.dataTables.eq_of_key_eq hnew htable rfl
    · intro heq s
      have hkeep : ∀ t ∈ db.dataTables,
          (if t.id == plan.table.id then t.restored spec else t) = t := by
        intro t ht
        split
        · rename_i hid
          rw [db.dataTables.eq_of_key_eq ht htable (by simpa using hid), heq]
        · rfl
      rw [hmem s]
      constructor
      · rintro ⟨t, ht, rfl⟩
        rw [hkeep t ht]
        exact ht
      · intro hs
        exact ⟨s, hs, (hkeep s hs).symm⟩

theorem restoredDb_hasKey (base : Db) (tableId : String) :
    (restoredDb base plan).dataTables.hasKey tableId = base.dataTables.hasKey tableId := by
  unfold restoredDb
  split
  · rename_i spec _
    exact KeyedTable.hasKey_updateWhere (t := base.dataTables) (p := fun t => t.id == plan.table.id)
      (f := fun t => t.redefine (trim spec.displayName) spec.schema spec.accessPolicy)
      (fun _ => rfl) tableId
  · rfl

/-- Cleared rows and stored rows balance exactly when they are the same rows. -/
theorem rows_restored_iff (hwf : WellFormed pf db.core) (htable : plan.table ∈ db.dataTables)
    (happ : plan.table.appId = claims.appId) (planned : List DataRow) :
    (∀ r, (r ∈ (clearStage db claims plan).dataRows ∨
        r ∈ writtenRows (clearStage db claims plan) [] planned) ↔ r ∈ db.dataRows) ↔
      ∀ r, r ∈ writtenRows (clearStage db claims plan) [] planned ↔
        plan.replace = true ∧ r ∈ db.dataRows ∧ r.tableId = plan.table.id := by
  have hfresh : ∀ r ∈ writtenRows (clearStage db claims plan) [] planned,
      r ∉ (clearStage db claims plan).dataRows := by
    intro r hr hold
    have hkey := KeyedTable.hasKey_of_mem hold
    rw [writtenRows_fresh r hr] at hkey
    cases hkey
  constructor
  · intro h r
    constructor
    · intro hr
      have hmem : r ∈ db.dataRows := (h r).mp (.inr hr)
      have hgone := hfresh r hr
      rw [mem_clearStage hwf htable happ] at hgone
      by_contra hno
      exact hgone ⟨hmem, fun hc => hno ⟨hc.1, hmem, hc.2⟩⟩
    · rintro ⟨hreplace, hmem, hid⟩
      rcases (h r).mpr hmem with hkept | hr
      · exact absurd ⟨hreplace, hid⟩ ((mem_clearStage hwf htable happ).mp hkept).2
      · exact hr
  · intro h r
    rw [mem_clearStage hwf htable happ, h r]
    constructor
    · rintro (⟨hmem, -⟩ | ⟨-, hmem, -⟩)
      · exact hmem
      · exact hmem
    · intro hmem
      by_cases hc : plan.replace = true ∧ r.tableId = plan.table.id
      · exact .inr ⟨hc.1, hmem, hc.2⟩
      · exact .inl ⟨hmem, hc⟩

theorem writtenRows_restoredDb (base : Db) (rows : List DataRow) :
    ∀ seen, writtenRows (restoredDb base plan) seen rows = writtenRows base seen rows := by
  have hacc : ∀ seen row, rowAccepted (restoredDb base plan) seen row =
      rowAccepted base seen row := by
    intro seen row
    unfold restoredDb
    split <;> rfl
  induction rows with
  | nil => intro seen; rfl
  | cons row rest ih =>
    intro seen
    rw [writtenRows, writtenRows, hacc, ih]

/-- The loop of an import whose restore went through: what it leaves in the
    tables and rows, and when it gets to the end. -/
theorem insertStage_leaves {env : Env} {rows : List ImportRowRequest} {planned : List DataRow}
    (hwf : WellFormed pf db.core) (htable : plan.table ∈ db.dataTables)
    (happ : plan.table.appId = claims.appId)
    (hplan : planRows pf env claims plan.effectiveTable 0 rows = .ok planned) :
    let loop := insertStage pf env claims plan.effectiveTable 0 rows
      (restoredDb (clearStage db claims plan) plan)
    (loop.1.dataTables.Same db.dataTables ↔ plan.effectiveTable = plan.table) ∧
      (loop.1.dataRows.Same db.dataRows ↔
        ∀ r, r ∈ writtenRows (clearStage db claims plan) [] planned ↔
          plan.replace = true ∧ r ∈ db.dataRows ∧ r.tableId = plan.table.id) ∧
      ((∃ count, loop.2 = .ok count) ↔
        writtenRows (clearStage db claims plan) [] planned = planned) := by
  intro loop
  have hclear : (clearStage db claims plan).dataTables = db.dataTables := by
    unfold clearStage
    split <;> rfl
  have hid : plan.effectiveTable.id = plan.table.id := by
    unfold ImportPlan.effectiveTable
    split <;> rfl
  have hkey : (restoredDb (clearStage db claims plan) plan).dataTables.hasKey
      plan.effectiveTable.id = true := by
    rw [hid, restoredDb_hasKey, hclear]
    exact KeyedTable.hasKey_of_mem htable
  have hstart : InsertedSoFar (restoredDb (clearStage db claims plan) plan)
      (restoredDb (clearStage db claims plan) plan) [] := ⟨rfl, rfl, by simp⟩
  have hrestored : (restoredDb (clearStage db claims plan) plan).dataRows =
      (clearStage db claims plan).dataRows := by
    unfold restoredDb
    split <;> rfl
  obtain ⟨⟨stored, hloop, hmem⟩, hok⟩ := insertStage_written hkey hstart hplan
  simp only [List.map_nil, List.not_mem_nil, false_or, writtenRows_restoredDb] at hmem hok
  refine ⟨?_, ?_, hok⟩
  · rw [hloop.tables]
    exact restoredDb_tables_same htable _ hclear
  · rw [← rows_restored_iff hwf htable happ planned]
    refine forall_congr' fun r => ?_
    rw [hloop.rows, hmem, hrestored]

/-- An import is all-or-nothing exactly when it never meets a rejected row after
    having changed something. -/
theorem importAtomic_iff_of_wellFormed (env : Env) (tableName : String)
    (payload : TableImportRequest) (hwf : WellFormed pf db.core) :
    ImportAtomic pf db env claims tableName payload ↔
      ImportLeavesNothing pf db env claims tableName payload := by
  unfold ImportAtomic ImportLeavesNothing
  rw [importRows]
  cases hchecks : importChecks pf db claims tableName payload with
  | error e =>
    simp only [Outcome.proceed_error]
    exact ⟨fun _ plan planned h => (by cases h),
      fun _ _ _ => ⟨KeyedTable.Same.refl _, KeyedTable.Same.refl _⟩⟩
  | ok plan =>
    obtain ⟨hload, -, hspec, hrowchecks⟩ := importChecks_ok hchecks
    obtain ⟨htable, happ, -⟩ := loadTable_some hload
    rw [Outcome.proceed_ok]
    cases hdry : plan.dryRun with
    | true =>
      simp only [if_true]
      constructor
      · intro _ plan' planned h hno
        cases h
        rw [hdry] at hno
        cases hno
      · intro _ e h
        cases h
    | false =>
      obtain ⟨planned, hplanned⟩ := planRows_of_checks env claims hrowchecks 0
      have honly : (∀ plan' planned', Except.ok (ε := ApiError) plan = .ok plan' →
          plan'.dryRun = false →
          planRows pf env claims plan'.effectiveTable 0 payload.rows = .ok planned' →
          plan'.LeavesNothing pf db claims planned') ↔ plan.LeavesNothing pf db claims planned := by
        constructor
        · intro h
          exact h plan planned rfl hdry hplanned
        · intro h plan' planned' hplan' _ hplanned'
          cases hplan'
          rw [hplanned] at hplanned'
          cases hplanned'
          exact h
      rw [honly, ImportPlan.LeavesNothing]
      simp only [Bool.false_eq_true, if_false]
      rcases restoreStage_outcome hwf htable happ hspec with ⟨hrefused, e, hout⟩ | ⟨hgo, hout⟩
      · -- the restore stops before anything has been written
        rw [hout]
        exact ⟨fun _ => .inl hrefused,
          fun _ _ _ => ⟨KeyedTable.Same.refl _, KeyedTable.Same.refl _⟩⟩
      · rw [hout]
        simp only [Outcome.proceed_ok]
        obtain ⟨htables, hrows, hok⟩ := insertStage_leaves hwf htable happ hplanned
        rw [htables, hrows, ← hok]
        generalize (insertStage pf env claims plan.effectiveTable 0 payload.rows
          (restoredDb (clearStage db claims plan) plan)).2 = imported
        cases imported with
        | error e => simp [Except.map, hgo]
        | ok count => simp [Except.map]

end Whole

/-- **Imports in reachable states.**  In every store a run reaches, an import is
    all-or-nothing exactly when it leaves nothing behind. -/
theorem import_atomic_iff (pf : Platform) (db : Db) (requests : List DataRequest) (env : Env)
    (claims : Claims) (tableName : String) (payload : TableImportRequest) :
    ImportAtomic pf (runData pf db requests) env claims tableName payload ↔
      ImportLeavesNothing pf (runData pf db requests) env claims tableName payload :=
  importAtomic_iff_of_wellFormed env tableName payload (wellFormed_runData pf db requests)

/-! ### An import that fails half way -/

/-- A `replace` whose payload uses one id twice. -/
def twiceTheSameId : TableImportRequest :=
  { mode := some "replace"
    rows := [{ id := some "new", data := note "a" }, { id := some "new", data := note "b" }] }

/-- The import is answered with a conflict, the old row is gone and the first
    new row is stored. -/
theorem import_replace_not_atomic :
    ¬ ImportAtomic asciiPlatform (runData asciiPlatform rootDb notesRun) (sampleEnv "r") root
      "notes" twiceTheSameId := by
  intro h
  obtain ⟨-, hrows⟩ := h (jsonError .conflict "import row id already exists") (by decide +kernel)
  have hnew : ∃ r ∈ (importRows asciiPlatform (runData asciiPlatform rootDb notesRun)
      (sampleEnv "r") root "notes" twiceTheSameId).1.dataRows, r.id = "new" :=
    KeyedTable.hasKey_iff.mp (by decide +kernel)
  obtain ⟨r, hr, hid⟩ := hnew
  have hkey := KeyedTable.hasKey_of_mem ((hrows r).mp hr)
  rw [hid] at hkey
  revert hkey
  decide +kernel

end Peanut
