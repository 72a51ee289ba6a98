import Mathlib.Data.Bool.Basic
import Peanut.Data.Runs
import Peanut.Data.Statements

/-!
# Two patches of one row

`update_row` reads the row, merges its patch in memory and writes the whole
document back.  What the write does to a field is `normalized_member`: the
patch's value, else the value read, else the default.  So a field another
request has written in between survives only if the value read was already the
same.
-/

namespace Peanut

open Relational Interleaving

/-! ### The document an update writes -/

/-- The value a patch gives to a field. -/
def Value.assigned (patch : Value) (field : String) : Option Value :=
  match patch with
  | .object m => m.reverse.lookup field
  | _ => none

/-- The document has every field value of the patch. -/
def Holds (data patch : Value) : Prop :=
  ∀ field v, patch.assigned field = some v → data.member field = some v

/-- The document has every field value of the patch, a missing field counting as
    its default. -/
def HoldsFilled (schema : DataTableSchema) (data patch : Value) : Prop :=
  ∀ field v, patch.assigned field = some v →
    (data.member field).or (schema.defaultOf field) = some v

theorem Holds.filled {data patch : Value} (h : Holds data patch) (schema : DataTableSchema) :
    HoldsFilled schema data patch := by
  intro field v hv
  rw [h field v hv]
  rfl

theorem get?_mergePatch (existing patch : JsonMap) (field : String) :
    (mergePatch existing patch).get? field =
      (patch.reverse.lookup field).or (existing.get? field) := by
  induction patch generalizing existing with
  | nil => rfl
  | cons e rest ih =>
    obtain ⟨k, v⟩ := e
    have hmerge : mergePatch existing ((k, v) :: rest) = mergePatch (existing.insert k v) rest :=
      rfl
    rw [hmerge, ih, get?_insert, List.reverse_cons, List.lookup_append, Option.or_assoc,
      OrderedMap.lookup_cons_eq]
    by_cases hk : field = k
    · simp [hk]
    · simp [hk]

/-- `normalized` is what an update of the row writes. -/
def MergedRow (pf : Platform) (table : LoadedTable) (existing : DataRow)
    (patch normalized : Value) :
    Prop :=
  ∃ fields changes : JsonMap, existing.data = .object fields ∧ patch = .object changes ∧
    normalizeRowData pf table.schema (.object (mergePatch fields changes)) false = .ok normalized

variable {pf : Platform} {table : LoadedTable} {existing : DataRow}

/-- **What an update writes**, field by field. -/
theorem normalized_member
    {patch normalized : Value} (h : MergedRow pf table existing patch normalized) (field : String) :
    normalized.member field =
      (patch.assigned field).or
        ((existing.data.member field).or (table.schema.defaultOf field)) := by
  obtain ⟨fields, changes, hdata, rfl, hnorm⟩ := h
  obtain ⟨m, out, hm, rfl, hlookup⟩ := normalizeRowData_lookup hnorm
  cases hm
  obtain ⟨m, hm, hdeclared, -⟩ := normalizeRowData_succeeds.mp ⟨_, hnorm⟩
  cases hm
  have hmerged := get?_mergePatch fields changes field
  rw [hdata]
  have hout := hlookup field
  unfold DataTableSchema.defaultOf
  cases hspec : table.schema.fields.get? field with
  | some spec =>
    rw [hspec, hmerged] at hout
    exact hout.trans Option.or_assoc
  | none =>
    -- an undeclared field is neither in the patch nor in the row
    have hnone : (mergePatch fields changes).get? field = none := by
      cases hget : (mergePatch fields changes).get? field with
      | none => rfl
      | some v =>
        obtain ⟨spec, hsome⟩ := hdeclared field v hget
        rw [hspec] at hsome
        cases hsome
    rw [hspec] at hout
    rw [hnone] at hmerged
    show out.get? field = _
    rw [hout]
    show none = (changes.reverse.lookup field).or ((fields.get? field).or none)
    rw [Option.or_none, ← hmerged]

theorem MergedRow.holds
    {patch normalized : Value} (h : MergedRow pf table existing patch normalized) :
    Holds normalized patch := by
  intro field v hv
  rw [normalized_member h, hv]
  rfl

/-- Another patch, of other fields, is in the document written exactly if it was
    in the one read. -/
theorem MergedRow.holds_iff
    {patch normalized other : Value} (h : MergedRow pf table existing patch normalized)
    (hdisjoint : ∀ field, patch.assigned field = none ∨ other.assigned field = none) :
    Holds normalized other ↔ HoldsFilled table.schema existing.data other := by
  refine forall_congr' fun field => forall_congr' fun v => imp_congr_right fun hv => ?_
  have hnone : patch.assigned field = none := by
    rcases hdisjoint field with hnone | hnone
    · exact hnone
    · rw [hnone] at hv
      cases hv
  rw [normalized_member h, hnone, Option.none_or]

/-! ### One statement of an update -/

/-- The table of an update that has read its row and not been answered. -/
def UpdateRowStage.located : UpdateRowStage → Option LoadedTable
  | .merged table _ _ => some table
  | .rewritten table _ => some table
  | .logged table => some table
  | .audited table => some table
  | _ => none

/-- The row has been written. -/
def UpdateRowStage.written : UpdateRowStage → Bool
  | .rewritten _ _ => true
  | .logged _ => true
  | .audited _ => true
  | .completed _ => true
  | _ => false

variable {db : Db} {rowId tableId : String}

theorem mergeRowChecks_ok {claims : Claims} {payload : CreateRowRequest} {normalized : Value}
    (h : mergeRowChecks pf db claims table rowId payload = .ok (existing, normalized)) :
    existing ∈ db.dataRows ∧ existing.id = rowId ∧ existing.tableId = table.id ∧
      MergedRow pf table existing payload.data normalized := by
  simp only [mergeRowChecks, Outcome.bind_eq_ok, Outcome.require_eq_ok, badRequest_eq_ok,
    Outcome.mapError_eq_ok, valueToObject_eq_ok] at h
  obtain ⟨row, hload, -, -, fields, hdata, changes, hpatch, data, hnorm, heq⟩ := h
  cases heq
  obtain ⟨hmem, htable, hid⟩ := loadRow_eq_some.mp hload
  exact ⟨hmem, hid, htable, fields, changes, hdata, hpatch, hnorm⟩

/-- What one statement of an update does: it reads the row, it writes it, or it
    leaves the rows alone. -/
inductive UpdateRowCall.Moves (pf : Platform) (env : Env) (db : Db) (c : UpdateRowCall) :
    Db → UpdateRowStage → Prop
  | read {table : LoadedTable} {existing : DataRow} {normalized : Value}
      (stage : c.stage = .tableLoaded table)
      (merge : mergeRowChecks pf db c.claims table c.rowId c.payload = .ok (existing, normalized)) :
      Moves pf env db c db (.merged table existing normalized)
  | write {table : LoadedTable} {existing : DataRow} {normalized : Value}
      (stage : c.stage = .merged table existing normalized) :
      Moves pf env db c (db.rewriteRow c.rowId table.id normalized env.now)
        (.rewritten table normalized)
  | other {db' : Db} {stage' : UpdateRowStage}
      (rows : db'.dataRows = db.dataRows)
      (pending : ∀ table existing normalized, c.stage ≠ .merged table existing normalized ∧
        stage' ≠ .merged table existing normalized)
      (located : stage'.located = none ∨ stage'.located = c.stage.located)
      (written : stage'.written = true → c.stage.written = true)
      (stays : c.stage.written = true → stage'.written = true ∨
        ∃ table, c.stage.located = some table ∧ loadRow db table.id c.rowId = none) :
      Moves pf env db c db' stage'

namespace UpdateRowCall

variable {pf : Platform}

theorem step_moves (env : Env) (db : Db) (c : UpdateRowCall) :
    Moves pf env db c (c.step pf env db).1 (c.step pf env db).2.stage := by
  obtain ⟨claims, tableName, rowId, payload, stage⟩ := c
  cases stage with
  | received =>
    simp only [step]
    split
    · exact .other rfl (by simp) (.inl rfl) (absurd · Bool.false_ne_true)
        (absurd · Bool.false_ne_true)
    · exact .other rfl (by simp) (.inl rfl) (absurd · Bool.false_ne_true)
        (absurd · Bool.false_ne_true)
  | tableLoaded table =>
    simp only [step]
    split
    · exact .other rfl (by simp) (.inl rfl) (absurd · Bool.false_ne_true)
        (absurd · Bool.false_ne_true)
    · rename_i existing normalized hmerge
      exact .read rfl hmerge
  | merged table existing normalized => exact .write rfl
  | rewritten table normalized =>
    refine .other ?_ (by simp [step]) (.inr rfl) (fun _ => rfl) (fun _ => .inl rfl)
    exact congrArg DataCore.rows (logRowEvent_core ..)
  | logged table =>
    refine .other ?_ (by simp [step]) (.inr rfl) (fun _ => rfl) (fun _ => .inl rfl)
    exact congrArg DataCore.rows (recordAuditLog_core ..)
  | audited table =>
    simp only [step]
    split
    · exact .other rfl (by simp) (.inl rfl) (fun _ => rfl) (fun _ => .inl rfl)
    · rename_i hload
      exact .other rfl (by simp) (.inl rfl) (absurd · Bool.false_ne_true)
        fun _ => .inr ⟨table, rfl, hload⟩
  | completed row => exact .other rfl (by simp [step]) (.inl rfl) id .inl
  | refused e => exact .other rfl (by simp [step]) (.inl rfl) id .inl

@[simp] theorem step_rowId (env : Env) (db : Db) (c : UpdateRowCall) :
    (c.step pf env db).2.rowId = c.rowId := by
  unfold step
  repeat' split
  all_goals rfl

@[simp] theorem step_payload (env : Env) (db : Db) (c : UpdateRowCall) :
    (c.step pf env db).2.payload = c.payload := by
  unfold step
  repeat' split
  all_goals rfl

/-- The request has been answered with success. -/
def succeeded (c : UpdateRowCall) : Bool := c.reply.any Outcome.succeeded

end UpdateRowCall

/-! ### The row under several updates -/

/-- The stored row, if it is there, has every field value of the patch. -/
def RowHolds (db : Db) (rowId : String) (patch : Value) : Prop :=
  ∀ r ∈ db.dataRows, r.id = rowId → Holds r.data patch

theorem mem_rewriteRow {rowId tableId now : String} {data : Value} {s : DataRow} :
    s ∈ (db.rewriteRow rowId tableId data now).dataRows ↔
      ∃ r ∈ db.dataRows, s = if r.id == rowId && r.tableId == tableId then
        { r with data := data, updatedAt := now } else r := by
  simp only [Db.rewriteRow, KeyedTable.mem_updateWhere]

/-- The row is in the table. -/
def RowIn (db : Db) (rowId tableId : String) : Prop :=
  ∃ r ∈ db.dataRows, r.id = rowId ∧ r.tableId = tableId

theorem RowIn.of_eq {db db' : Db} (h : RowIn db rowId tableId)
    (hrows : db'.dataRows = db.dataRows) : RowIn db' rowId tableId := by
  unfold RowIn
  rw [hrows]
  exact h

theorem RowIn.rewriteRow (h : RowIn db rowId tableId)
    (rowId' tableId' now : String) (data : Value) :
    RowIn (db.rewriteRow rowId' tableId' data now) rowId tableId := by
  obtain ⟨r, hr, hid, htable⟩ := h
  refine ⟨_, mem_rewriteRow.mpr ⟨r, hr, rfl⟩, ?_⟩
  split
  · exact ⟨hid, htable⟩
  · exact ⟨hid, htable⟩

theorem RowIn.loadRow_ne_none (h : RowIn db rowId tableId) :
    loadRow db tableId rowId ≠ none := by
  obtain ⟨r, hr, hid, htable⟩ := h
  rw [loadRow_eq_some.mpr ⟨hr, htable, hid⟩]
  exact Option.some_ne_none r

theorem rowHolds_rewriteRow (h : RowIn db rowId tableId) (data patch : Value) (now : String) :
    RowHolds (db.rewriteRow rowId tableId data now) rowId patch ↔ Holds data patch := by
  obtain ⟨r, hr, hid, htable⟩ := h
  constructor
  · intro hholds
    have hrow := hholds _ (mem_rewriteRow.mpr ⟨r, hr, rfl⟩)
    simpa [hid, htable] using hrow
  · intro hdata s hs hsid
    obtain ⟨r', hr', rfl⟩ := mem_rewriteRow.mp hs
    have hsame : r' = r := by
      apply db.dataRows.eq_of_key_eq hr' hr
      show r'.id = r.id
      rw [hid]
      split at hsid
      · exact hsid
      · exact hsid
    subst hsame
    simpa [hid, htable] using hdata

theorem rowHolds_congr {db db' : Db} (hrows : db'.dataRows = db.dataRows) (rowId : String)
    (patch : Value) : RowHolds db' rowId patch ↔ RowHolds db rowId patch := by
  unfold RowHolds
  rw [hrows]

namespace UpdateRowCall

variable {pf : Platform}

theorem step_rowIn {db : Db} {rowId tableId : String} (h : RowIn db rowId tableId) (env : Env)
    (c : UpdateRowCall) : RowIn (c.step pf env db).1 rowId tableId := by
  have hmoves := @step_moves pf env db c
  generalize (c.step pf env db).1 = db', (c.step pf env db).2.stage = stage' at hmoves ⊢
  cases hmoves with
  | read => exact h
  | write => exact h.rewriteRow ..
  | other rows => exact h.of_eq rows

/-- What an update knows about the row. -/
structure Sound (pf : Platform) (db : Db) (c : UpdateRowCall) : Prop where
  located : ∀ table, c.stage.located = some table → RowIn db c.rowId table.id
  merged : ∀ table existing normalized, c.stage = .merged table existing normalized →
    MergedRow pf table existing c.payload.data normalized
  present : c.stage.written = true → ∃ tableId, RowIn db c.rowId tableId

variable {c : UpdateRowCall}

theorem Sound.received {db : Db} (h : c.stage = .received) : Sound pf db c := by
  refine ⟨?_, ?_, ?_⟩
  · intro table htable
    rw [h] at htable
    cases htable
  · intro table existing normalized hstage
    rw [h] at hstage
    cases hstage
  · intro hwritten
    rw [h] at hwritten
    cases hwritten

theorem Sound.kept {db : Db} {c : UpdateRowCall} (h : Sound pf db c) (env : Env)
    (other : UpdateRowCall) : Sound pf (other.step pf env db).1 c := by
  refine ⟨fun table ht => step_rowIn (h.located table ht) env other, h.merged, ?_⟩
  intro hwritten
  obtain ⟨tableId, hin⟩ := h.present hwritten
  exact ⟨tableId, step_rowIn hin env other⟩

theorem Sound.step {db : Db} (h : Sound pf db c) (env : Env) :
    Sound pf (c.step pf env db).1 (c.step pf env db).2 := by
  have hkept := h.kept env c
  have hmoves := @step_moves pf env db c
  refine ⟨?_, ?_, ?_⟩
  · intro table htable
    rw [step_rowId]
    generalize (c.step pf env db).1 = db', (c.step pf env db).2.stage = stage' at *
    cases hmoves with
    | read _ hmerge =>
      cases htable
      obtain ⟨hmem, hid, htable, -⟩ := mergeRowChecks_ok hmerge
      exact ⟨_, hmem, hid, htable⟩
    | write hstage =>
      cases htable
      apply hkept.located
      rw [hstage]
      rfl
    | other rows _ located =>
      rcases located with hnone | hsame
      · rw [hnone] at htable
        cases htable
      · exact hkept.located table (hsame ▸ htable)
  · intro table existing normalized hstage'
    rw [step_payload]
    generalize (c.step pf env db).1 = db', (c.step pf env db).2.stage = stage' at *
    cases hmoves with
    | read _ hmerge =>
      cases hstage'
      exact (mergeRowChecks_ok hmerge).2.2.2
    | write => cases hstage'
    | other _ pending => exact absurd hstage' (pending table existing normalized).2
  · intro hwritten
    rw [step_rowId]
    generalize (c.step pf env db).1 = db', (c.step pf env db).2.stage = stage' at *
    cases hmoves with
    | read => cases hwritten
    | @write table _ _ hstage =>
      refine ⟨table.id, hkept.located table ?_⟩
      rw [hstage]
      rfl
    | other _ _ _ written => exact hkept.present (written hwritten)

theorem step_of_written {db : Db} (h : Sound pf db c)
    (hwritten : c.stage.written = true) (env : Env) :
    (c.step pf env db).2.stage.written = true ∧ (c.step pf env db).1.dataRows = db.dataRows := by
  have hmoves := @step_moves pf env db c
  generalize (c.step pf env db).1 = db', (c.step pf env db).2.stage = stage' at hmoves ⊢
  cases hmoves with
  | read hstage =>
    rw [hstage] at hwritten
    cases hwritten
  | write hstage =>
    rw [hstage] at hwritten
    cases hwritten
  | other rows _ _ _ stays =>
    refine ⟨?_, rows⟩
    rcases stays hwritten with hstays | ⟨table, hlocated, hmissing⟩
    · exact hstays
    · exact absurd hmissing (h.located table hlocated).loadRow_ne_none

end UpdateRowCall

/-! ### Every interleaving -/

section Pools

variable {ι : Type} [DecidableEq ι] {pf : Platform} {rowId : String} {patch : ι → Value}

/-- The requests patch one row, and what each knows about it is true. -/
structure Patching (pf : Platform) (rowId : String) (patch : ι → Value)
    (q : Pool ι Db UpdateRowCall) : Prop where
  rowId_eq : ∀ i, (q.request i).rowId = rowId
  patch_eq : ∀ i, (q.request i).payload.data = patch i
  sound : ∀ i, (q.request i).Sound pf q.store

theorem Patching.tick {q : Pool ι Db UpdateRowCall} (h : Patching pf rowId patch q)
    (t : ι × Env) : Patching pf rowId patch (tick (UpdateRowCall.step pf) q t) := by
  refine ⟨?_, ?_, ?_⟩
  · rw [forall_request_tick (P := fun _ (c : UpdateRowCall) => c.rowId = rowId)]
    exact ⟨by rw [UpdateRowCall.step_rowId, h.rowId_eq], fun i _ => h.rowId_eq i⟩
  · rw [forall_request_tick (P := fun i (c : UpdateRowCall) => c.payload.data = patch i)]
    exact ⟨by rw [UpdateRowCall.step_payload, h.patch_eq], fun i _ => h.patch_eq i⟩
  · exact assertions_tick (fun hown => hown.step t.2) (fun c hc => hc.kept t.2 _) h.sound

/-- Each patch written is in the row, and in the row that every update has read
    and not written back yet. -/
def NoneLost (rowId : String) (patch : ι → Value) (q : Pool ι Db UpdateRowCall) : Prop :=
  ∀ i, (q.request i).stage.written = true →
    RowHolds q.store rowId (patch i) ∧
      ∀ j, j ≠ i → ∀ table existing normalized,
        (q.request j).stage = .merged table existing normalized →
          HoldsFilled table.schema existing.data (patch i)

/-- The tick is an `UPDATE`, and a request that has read the row and not written
    it back read a value other than the one written here. -/
def WritesUnderRead (q : Pool ι Db UpdateRowCall) (t : ι × Env) : Prop :=
  (∃ table existing normalized, (q.request t.1).stage = .merged table existing normalized) ∧
    ∃ j, j ≠ t.1 ∧ ∃ table existing normalized,
      (q.request j).stage = .merged table existing normalized ∧
        ¬ HoldsFilled table.schema existing.data (q.request t.1).payload.data

theorem NoneLost.tick {q : Pool ι Db UpdateRowCall} (hinv : Patching pf rowId patch q)
    (hdisjoint : ∀ i j, i ≠ j → ∀ field,
      (patch i).assigned field = none ∨ (patch j).assigned field = none)
    (h : NoneLost rowId patch q) {t : ι × Env} (hfree : ¬ WritesUnderRead q t) :
    NoneLost rowId patch (tick (UpdateRowCall.step pf) q t) := by
  have hmoves := @UpdateRowCall.step_moves pf t.2 q.store (q.request t.1)
  have hstore : (Interleaving.tick (UpdateRowCall.step pf) q t).store =
      ((q.request t.1).step pf t.2 q.store).1 := tick_store q t
  have hself : ((Interleaving.tick (UpdateRowCall.step pf) q t).request t.1).stage =
      ((q.request t.1).step pf t.2 q.store).2.stage :=
    congrArg UpdateRowCall.stage (tick_request_self q t)
  generalize ((q.request t.1).step pf t.2 q.store).1 = db',
    ((q.request t.1).step pf t.2 q.store).2.stage = stage' at hmoves hstore hself
  intro i hi
  rw [hstore]
  cases hmoves with
  | read hstage hmerge =>
    obtain ⟨hmem, hid, -, -⟩ := mergeRowChecks_ok hmerge
    have hne : i ≠ t.1 := by
      rintro rfl
      rw [hself] at hi
      cases hi
    rw [tick_request_of_ne q t hne] at hi
    refine ⟨(h i hi).1, ?_⟩
    intro j hj table existing normalized hpending
    by_cases hjt : j = t.1
    · -- the row it has just read is the one stored
      subst hjt
      rw [hself] at hpending
      cases hpending
      exact ((h i hi).1 _ hmem (hid.trans (hinv.rowId_eq t.1))).filled _
    · rw [tick_request_of_ne q t hjt] at hpending
      exact (h i hi).2 j hj table existing normalized hpending
  | @write table existing normalized hstage =>
    have hmerged := (hinv.sound t.1).merged table existing normalized hstage
    have hin := (hinv.sound t.1).located table (by rw [hstage]; rfl)
    rw [hinv.patch_eq] at hmerged
    rw [hinv.rowId_eq] at hin ⊢
    refine ⟨(rowHolds_rewriteRow hin ..).mpr ?_, ?_⟩
    · by_cases hit : i = t.1
      · subst hit
        exact hmerged.holds
      · rw [tick_request_of_ne q t hit] at hi
        rw [hmerged.holds_iff (hdisjoint t.1 i (Ne.symm hit))]
        exact (h i hi).2 t.1 (Ne.symm hit) table existing normalized hstage
    · intro j hj table' existing' normalized' hpending
      have hjt : j ≠ t.1 := by
        rintro rfl
        rw [hself] at hpending
        cases hpending
      rw [tick_request_of_ne q t hjt] at hpending
      by_cases hit : i = t.1
      · subst hit
        by_contra hmissing
        apply hfree
        refine ⟨⟨table, existing, normalized, hstage⟩, j, hj, table', existing', normalized',
          hpending, ?_⟩
        rwa [hinv.patch_eq]
      · rw [tick_request_of_ne q t hit] at hi
        exact (h i hi).2 j hj table' existing' normalized' hpending
  | other rows pending _ written _ =>
    have hbefore : (q.request i).stage.written = true := by
      by_cases hit : i = t.1
      · subst hit
        rw [hself] at hi
        exact written hi
      · rwa [tick_request_of_ne q t hit] at hi
    refine ⟨(rowHolds_congr rows rowId _).mpr (h i hbefore).1, ?_⟩
    intro j hj table existing normalized hpending
    by_cases hjt : j = t.1
    · subst hjt
      rw [hself] at hpending
      exact absurd hpending (pending table existing normalized).2
    · rw [tick_request_of_ne q t hjt] at hpending
      exact (h i hbefore).2 j hj table existing normalized hpending

/-! ### Two requests -/

/-- One of two requests has written its patch, and the other will write back a
    row without it or has done so. -/
def Lost (rowId : String) (patch : Bool → Value) (q : Pool Bool Db UpdateRowCall) : Prop :=
  ∃ b, (q.request b).stage.written = true ∧
    ((∃ table existing normalized, (q.request !b).stage = .merged table existing normalized ∧
        ¬ HoldsFilled table.schema existing.data (patch b)) ∨
      ((q.request !b).stage.written = true ∧ ¬ RowHolds q.store rowId (patch b)))

theorem Lost.tick {patch : Bool → Value} {q : Pool Bool Db UpdateRowCall}
    (hinv : Patching pf rowId patch q)
    (hdisjoint : ∀ i j, i ≠ j → ∀ field,
      (patch i).assigned field = none ∨ (patch j).assigned field = none)
    (h : Lost rowId patch q) (t : Bool × Env) :
    Lost rowId patch (tick (UpdateRowCall.step pf) q t) := by
  obtain ⟨b, hb, hlost⟩ := h
  obtain ⟨m, env⟩ := t
  refine ⟨b, ?_⟩
  by_cases hm : m = b
  · -- the request that has written goes on
    subst hm
    obtain ⟨hstays, hrows⟩ := UpdateRowCall.step_of_written (hinv.sound m) hb env
    have hother : (!m) ≠ (m, env).1 := Bool.not_ne_self m
    rw [tick_request_self q (m, env), tick_request_of_ne q (m, env) hother, tick_store]
    refine ⟨hstays, hlost.imp_right ?_⟩
    rintro ⟨hwritten, hmissing⟩
    exact ⟨hwritten, mt (rowHolds_congr hrows rowId _).mp hmissing⟩
  · -- the other request
    obtain rfl : m = !b := by
      cases m <;> cases b <;> simp_all
    have hother : b ≠ ((!b), env).1 := Ne.symm (Bool.not_ne_self b)
    rw [tick_request_self q ((!b), env), tick_request_of_ne q ((!b), env) hother, tick_store]
    refine ⟨hb, .inr ?_⟩
    rcases hlost with ⟨table, existing, normalized, hstage, hmissing⟩ | ⟨hwritten, hmissing⟩
    · -- its `UPDATE` removes the value
      have hmerged := (hinv.sound !b).merged table existing normalized hstage
      have hin := (hinv.sound !b).located table (by rw [hstage]; rfl)
      rw [hinv.patch_eq] at hmerged
      rw [hinv.rowId_eq] at hin
      simp only [UpdateRowCall.step, hstage, hinv.rowId_eq]
      refine ⟨rfl, ?_⟩
      rw [rowHolds_rewriteRow hin, hmerged.holds_iff (hdisjoint _ b (Bool.not_ne_self b))]
      exact hmissing
    · obtain ⟨hstays, hrows⟩ := UpdateRowCall.step_of_written (hinv.sound !b) hwritten env
      exact ⟨hstays, mt (rowHolds_congr hrows rowId _).mp hmissing⟩

theorem WritesUnderRead.lost {patch : Bool → Value} {q : Pool Bool Db UpdateRowCall}
    {t : Bool × Env} (h : WritesUnderRead q t) (hinv : Patching pf rowId patch q) :
    Lost rowId patch (tick (UpdateRowCall.step pf) q t) := by
  obtain ⟨⟨table, existing, normalized, hstage⟩, j, hj, table', existing', normalized', hpending,
    hmissing⟩ := h
  obtain ⟨b, env⟩ := t
  obtain rfl : j = !b := by
    cases j <;> cases b <;> simp_all
  refine ⟨b, ?_, .inl ⟨table', existing', normalized', ?_, ?_⟩⟩
  · rw [tick_request_self q (b, env)]
    simp only [UpdateRowCall.step, hstage]
    rfl
  · rw [tick_request_of_ne q (b, env) hj]
    exact hpending
  · rwa [← hinv.patch_eq b]

end Pools

/-! ### Two patches of one contact -/

/-- The request is between its `SELECT` of the row and its `UPDATE`. -/
def UpdateRowStage.pending : UpdateRowStage → Bool
  | .merged _ _ _ => true
  | _ => false

end Peanut
