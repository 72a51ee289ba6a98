import Peanut.Data.ImportAtomicity

/-!
# What a dry run predicts

A dry run of an import stops after the validation pass and reports how many
rows it would insert.  The validation pass knows neither which ids are taken
nor which owners exist, and in `append` mode it does not check the stored rows
against a restored schema; the real run finds out at the database.
-/

namespace Peanut

open Relational

/-- The request with its `dry_run` flag set to `flag`. -/
def TableImportRequest.withDryRun (payload : TableImportRequest) (flag : Bool) :
    TableImportRequest :=
  { payload with dryRun := some flag }

theorem importChecks_withDryRun (pf : Platform) (db : Db) (claims : Claims) (tableName : String)
    (payload : TableImportRequest) (flag : Bool) :
    importChecks pf db claims tableName (payload.withDryRun flag) =
      (importChecks pf db claims tableName payload).map fun plan =>
        { plan with dryRun := flag } := by
  have hchecksum : ∀ table, verifyImportChecksum pf table (payload.withDryRun flag) =
      verifyImportChecksum pf table payload := fun _ => rfl
  have hrestore : ∀ table count, restoreRequest pf table (payload.withDryRun flag) count =
      restoreRequest pf table payload count := fun _ _ => rfl
  have hmode : (payload.withDryRun flag).mode = payload.mode := rfl
  have hrows : (payload.withDryRun flag).rows = payload.rows := rfl
  simp only [importChecks, hchecksum, hrestore, hmode, hrows]
  cases requireAdmin claims with
  | error e => rfl
  | ok _ =>
    cases requireTable pf db claims.appId tableName with
    | error e => rfl
    | ok table =>
      simp only [Outcome.ok_bind]
      cases Outcome.ensure (payload.mode.getD "append" == "append" ||
          payload.mode.getD "append" == "replace")
          (jsonError .badRequest "mode must be append or replace") with
      | error e => rfl
      | ok _ =>
        cases verifyImportChecksum pf table payload with
        | error e => rfl
        | ok _ =>
          simp only [Outcome.ok_bind]
          cases restoreRequest pf table payload
              (if payload.mode.getD "append" == "replace" then 0
                else countTableRows db table.id) with
          | error e => rfl
          | ok restore =>
            simp only [Outcome.ok_bind, ImportPlan.effectiveTable]
            cases Outcome.checkAll (checkImportRow pf _) payload.rows with
            | error e => rfl
            | ok _ => rfl

theorem insertStage_count {pf : Platform} {env : Env} {claims : Claims} {table : LoadedTable}
    {rows : List ImportRowRequest} :
    ∀ {n : Nat} {db : Db} {count : Nat},
      (insertStage pf env claims table n rows db).2 = .ok count → count = n + rows.length := by
  induction rows with
  | nil =>
    intro n db count h
    cases h
    rfl
  | cons row rest ih =>
    intro n db count h
    rw [insertStage, Outcome.proceed_eq_ok] at h
    obtain ⟨planned, -, h⟩ := h
    split at h
    · cases h
    · rw [ih h, List.length_cons]
      omega

/-- What the validation pass leaves to the database: the ids of the payload are
    distinct and free once the old rows are cleared, and every owner exists. -/
def RowsAccepted (db : Db) (planned : List DataRow) : Prop :=
  (planned.map DataRow.id).Nodup ∧
    ∀ r ∈ planned, db.userOrNull r.ownerUserId = true ∧ db.dataRows.hasKey r.id = false

/-- The loop gets to its end exactly when the database accepts every row.  The
    induction carries the ids used so far. -/
theorem writtenRows_eq_self_iff {db : Db} {planned : List DataRow} :
    ∀ {seen : List String}, writtenRows db seen planned = planned ↔
      RowsAccepted db planned ∧ ∀ r ∈ planned, r.id ∉ seen := by
  induction planned with
  | nil => intro seen; simp [writtenRows, RowsAccepted]
  | cons row rest ih =>
    intro seen
    rw [writtenRows]
    by_cases haccepted : rowAccepted db seen row = true
    · rw [if_pos haccepted, List.cons.injEq, ih]
      simp only [rowAccepted, Bool.and_eq_true, Bool.not_eq_true', List.contains_eq_mem,
        decide_eq_false_iff_not] at haccepted
      obtain ⟨⟨howner, hfree⟩, hunseen⟩ := haccepted
      constructor
      · rintro ⟨-, ⟨hnodup, hrows⟩, hseen⟩
        have hid : row.id ∉ rest.map DataRow.id := by
          intro hmem
          obtain ⟨r, hr, hrid⟩ := List.mem_map.mp hmem
          exact hseen r hr (by simp [hrid])
        refine ⟨⟨List.nodup_cons.mpr ⟨hid, hnodup⟩, ?_⟩, ?_⟩
        · rw [List.forall_mem_cons]
          exact ⟨⟨howner, hfree⟩, hrows⟩
        · rw [List.forall_mem_cons]
          exact ⟨hunseen, fun r hr h => hseen r hr (List.mem_cons_of_mem _ h)⟩
      · rintro ⟨⟨hnodup, hrows⟩, hseen⟩
        rw [List.map_cons, List.nodup_cons] at hnodup
        rw [List.forall_mem_cons] at hrows hseen
        refine ⟨rfl, ⟨hnodup.2, hrows.2⟩, ?_⟩
        intro r hr hmem
        rcases List.mem_cons.mp hmem with hid | hmem
        · exact hnodup.1 (List.mem_map.mpr ⟨r, hr, hid⟩)
        · exact hseen.2 r hr hmem
    · rw [if_neg haccepted]
      refine iff_of_false (by simp) ?_
      rintro ⟨⟨-, hrows⟩, hseen⟩
      rw [List.forall_mem_cons] at hrows hseen
      apply haccepted
      simp [rowAccepted, hrows.1.1, hrows.1.2, hseen.1]

/-! ### Both runs of a request -/

/-- The dry run answers `200` with `would_insert = n`. -/
def DryRunReports (pf : Platform) (db : Db) (env : Env) (claims : Claims) (tableName : String)
    (payload : TableImportRequest) (n : Nat) : Prop :=
  ∃ reply, (importRows pf db env claims tableName (payload.withDryRun true)).2 = .ok reply ∧
    reply.status = .ok ∧ reply.body.wouldInsert = n

/-- The real run succeeds with `imported_count = n`. -/
def RealRunImports (pf : Platform) (db : Db) (env : Env) (claims : Claims) (tableName : String)
    (payload : TableImportRequest) (n : Nat) : Prop :=
  ∃ reply, (importRows pf db env claims tableName (payload.withDryRun false)).2 = .ok reply ∧
    reply.body.importedCount = n

theorem dryRun_unchanged (pf : Platform) (db : Db) (env : Env) (claims : Claims)
    (tableName : String) (payload : TableImportRequest) :
    (importRows pf db env claims tableName (payload.withDryRun true)).1 = db := by
  rw [importRows, importChecks_withDryRun]
  cases importChecks pf db claims tableName payload with
  | error e => rfl
  | ok plan => rfl

theorem dryRunReports_iff {pf : Platform} {db : Db} {env : Env} {claims : Claims}
    {tableName : String} {payload : TableImportRequest} {n : Nat} :
    DryRunReports pf db env claims tableName payload n ↔
      (∃ plan, importChecks pf db claims tableName payload = .ok plan) ∧
        n = payload.rows.length := by
  rw [DryRunReports, importRows, importChecks_withDryRun]
  cases importChecks pf db claims tableName payload with
  | error e =>
    refine iff_of_false ?_ ?_
    · rintro ⟨reply, h, -⟩
      cases h
    · rintro ⟨⟨plan, h⟩, -⟩
      cases h
  | ok plan =>
    constructor
    · rintro ⟨reply, h, -, hn⟩
      cases h
      exact ⟨⟨plan, rfl⟩, hn.symm⟩
    · rintro ⟨-, rfl⟩
      exact ⟨_, rfl, rfl, rfl⟩

/-- A real run that passed its checks ends well exactly when the restore is not
    refused and the database accepts every row. -/
theorem realRunImports_iff {pf : Platform} {db : Db} {env : Env} {claims : Claims}
    {tableName : String} {payload : TableImportRequest} {plan : ImportPlan}
    {planned : List DataRow} {n : Nat} (hwf : WellFormed pf db.core)
    (hchecks : importChecks pf db claims tableName payload = .ok plan)
    (hplanned : planRows pf env claims plan.effectiveTable 0 payload.rows = .ok planned) :
    RealRunImports pf db env claims tableName payload n ↔
      ¬ RestoreRefused pf db plan ∧ RowsAccepted (clearStage db claims plan) planned ∧
        n = payload.rows.length := by
  obtain ⟨hload, -, hspec, -⟩ := importChecks_ok hchecks
  obtain ⟨htable, happ, -⟩ := loadTable_some hload
  have hreal : importChecks pf db claims tableName (payload.withDryRun false) =
      .ok { plan with dryRun := false } := by
    rw [importChecks_withDryRun, hchecks]
    rfl
  rw [RealRunImports, importRows, hreal, Outcome.proceed_ok]
  simp only [Bool.false_eq_true, if_false]
  rcases restoreStage_outcome hwf htable happ hspec with ⟨hrefused, e, hout⟩ | ⟨hgo, hout⟩
  · have hout' : restoreStage pf (clearStage db claims { plan with dryRun := false }) claims
        { plan with dryRun := false } = (db, .error e) := hout
    rw [hout']
    refine iff_of_false ?_ ?_
    · rintro ⟨reply, h, -⟩
      cases h
    · rintro ⟨hgo, -⟩
      exact hgo hrefused
  · have hout' : restoreStage pf (clearStage db claims { plan with dryRun := false }) claims
        { plan with dryRun := false } =
          (restoredDb (clearStage db claims plan) plan, .ok plan.effectiveTable) := hout
    rw [hout', Outcome.proceed_ok]
    obtain ⟨-, -, hok⟩ := insertStage_leaves hwf htable happ hplanned
    rw [writtenRows_eq_self_iff] at hok
    have hrows : (payload.withDryRun false).rows = payload.rows := rfl
    rw [hrows]
    dsimp only
    constructor
    · rintro ⟨reply, h, hn⟩
      cases hloop : (insertStage pf env claims plan.effectiveTable 0 payload.rows
          (restoredDb (clearStage db claims plan) plan)).2 with
      | error e =>
        rw [hloop] at h
        cases h
      | ok count =>
        rw [hloop] at h
        cases h
        refine ⟨hgo, (hok.mp ⟨count, hloop⟩).1, ?_⟩
        have hcount := insertStage_count hloop
        dsimp only at hn
        omega
    · rintro ⟨-, haccepted, rfl⟩
      obtain ⟨count, hloop⟩ := hok.mpr ⟨haccepted, by simp⟩
      have hcount := insertStage_count hloop
      rw [hloop]
      exact ⟨_, rfl, by simpa using hcount⟩

/-! ### The prediction -/

/-- The dry run changes nothing and announces exactly what the real run of the
    same request in the same state does. -/
def DryRunPredicts (pf : Platform) (db : Db) (env : Env) (claims : Claims) (tableName : String)
    (payload : TableImportRequest) : Prop :=
  (importRows pf db env claims tableName (payload.withDryRun true)).1 = db ∧
    ∀ n, DryRunReports pf db env claims tableName payload n ↔
      RealRunImports pf db env claims tableName payload n

/-- The validation pass refuses the request, or nothing is left for the database
    to refuse. -/
def NothingLeftToRefuse (pf : Platform) (db : Db) (env : Env) (claims : Claims)
    (tableName : String) (payload : TableImportRequest) : Prop :=
  ∀ plan planned, importChecks pf db claims tableName payload = .ok plan →
    planRows pf env claims plan.effectiveTable 0 payload.rows = .ok planned →
    ¬ RestoreRefused pf db plan ∧ RowsAccepted (clearStage db claims plan) planned

/-- **Dry runs in reachable states.**  In every store a run reaches, the dry run
    of an import predicts the import exactly when nothing is left for the
    database to refuse. -/
theorem dry_run_predicts_iff (pf : Platform) (db : Db) (requests : List DataRequest) (env : Env)
    (claims : Claims) (tableName : String) (payload : TableImportRequest) :
    DryRunPredicts pf (runData pf db requests) env claims tableName payload ↔
      NothingLeftToRefuse pf (runData pf db requests) env claims tableName payload := by
  have hwf := wellFormed_runData pf db requests
  generalize runData pf db requests = db at hwf
  rw [DryRunPredicts, and_iff_right (dryRun_unchanged pf db env claims tableName payload)]
  simp only [dryRunReports_iff]
  cases hchecks : importChecks pf db claims tableName payload with
  | error e =>
    refine iff_of_true ?_ ?_
    · intro n
      refine iff_of_false ?_ ?_
      · rintro ⟨⟨plan, h⟩, -⟩
        cases h
      · rintro ⟨reply, h, -⟩
        rw [importRows, importChecks_withDryRun, hchecks] at h
        cases h
    · intro plan planned h
      rw [hchecks] at h
      cases h
  | ok plan =>
    obtain ⟨-, -, -, hrowchecks⟩ := importChecks_ok hchecks
    obtain ⟨planned, hplanned⟩ := planRows_of_checks env claims hrowchecks 0
    simp only [realRunImports_iff hwf hchecks hplanned, NothingLeftToRefuse, hchecks]
    constructor
    · intro h plan' planned' hplan' hplanned'
      cases hplan'
      rw [hplanned] at hplanned'
      cases hplanned'
      obtain ⟨hgo, haccepted, -⟩ := (h payload.rows.length).mp ⟨⟨plan, rfl⟩, rfl⟩
      exact ⟨hgo, haccepted⟩
    · intro h n
      obtain ⟨hgo, haccepted⟩ := h plan planned rfl hplanned
      constructor
      · rintro ⟨-, hn⟩
        exact ⟨hgo, haccepted, hn⟩
      · rintro ⟨-, -, hn⟩
        exact ⟨⟨plan, rfl⟩, hn⟩

/-- The id of an imported note is taken: the dry run announces one row, and the
    real run of the same request is answered with a conflict. -/
theorem dry_run_misses_taken_id :
    ¬ DryRunPredicts asciiPlatform (runData asciiPlatform rootDb notesRun) (sampleEnv "s") root
      "notes" { rows := [{ id := some "old", data := note "again" }] } := by
  rintro ⟨-, h⟩
  have hchecks : Outcome.succeeded
      (importChecks asciiPlatform (runData asciiPlatform rootDb notesRun)
      root "notes" { rows := [{ id := some "old", data := note "again" }] }) = true := by
    decide +kernel
  have hreports : DryRunReports asciiPlatform (runData asciiPlatform rootDb notesRun)
      (sampleEnv "s")
      root "notes" { rows := [{ id := some "old", data := note "again" }] } 1 := by
    rw [dryRunReports_iff]
    exact ⟨Outcome.succeeded_iff.mp hchecks, rfl⟩
  obtain ⟨reply, hreply, -⟩ := (h 1).mp hreports
  have hreal : Outcome.succeeded (importRows asciiPlatform (runData asciiPlatform rootDb notesRun)
      (sampleEnv "s") root "notes" (TableImportRequest.withDryRun
        { rows := [{ id := some "old", data := note "again" }] } false)).2 = false := by
    decide +kernel
  rw [hreply] at hreal
  cases hreal

end Peanut
