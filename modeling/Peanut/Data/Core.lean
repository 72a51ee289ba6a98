import Mathlib.Logic.Relation
import Peanut.Store
import Peanut.Data.Schema

/-!
# The data plane as a transition system

What the requests of the data API can do to users, tables and rows, one
statement at a time, without saying which request does it.  A `DataStep` is one
statement together with what its caller has checked before; a request is a
finite sequence of such steps, possibly cut short.  The invariants of the data
plane (`WellFormed`) are proved once, here, for every step; the handlers are
then shown to be sequences of steps.
-/

namespace Peanut

open Relational

/-- The part of the database the data plane is about. -/
structure DataCore where
  users : KeyedTable User (·.id)
  tables : KeyedTable LoadedTable (·.id)
  rows : KeyedTable DataRow (·.id)

def Db.core (db : Db) : DataCore :=
  { users := db.users, tables := db.dataTables, rows := db.dataRows }

/-- A new definition for a stored table; id, app, name and creator stay. -/
def LoadedTable.redefine (t : LoadedTable) (displayName : String) (schema : DataTableSchema)
    (accessPolicy : AccessPolicy) : LoadedTable :=
  { t with displayName := displayName, schema := schema, accessPolicy := accessPolicy }

theorem LoadedTable.id_redefine (displayName : String) (schema : DataTableSchema)
    (accessPolicy : AccessPolicy) (t : LoadedTable) :
    (t.redefine displayName schema accessPolicy).id = t.id := rfl

namespace DataCore

/-- `UPDATE data_tables SET display_name, schema_json, access_policy_json WHERE id = ?`. -/
def redefineTable (c : DataCore) (tableId displayName : String) (schema : DataTableSchema)
    (accessPolicy : AccessPolicy) : DataCore :=
  { c with
    tables := c.tables.updateWhere (fun t => t.id == tableId)
      (fun t => t.redefine displayName schema accessPolicy)
      (LoadedTable.id_redefine displayName schema accessPolicy) }

/-- `DELETE FROM data_tables WHERE …`, with the rows of the deleted tables. -/
def deleteTables (c : DataCore) (p : LoadedTable → Bool) : DataCore :=
  { c with
    tables := c.tables.deleteWhere p
    rows := c.rows.deleteWhere fun r => c.tables.rows.any fun t => p t && t.id == r.tableId }

/-- `UPDATE data_rows SET data_json = ?, updated_at = ? WHERE id = ? AND table_id = ?`. -/
def rewriteRow (c : DataCore) (rowId tableId : String) (data : Value) (now : String) : DataCore :=
  { c with
    rows := c.rows.updateWhere (fun r => r.id == rowId && r.tableId == tableId)
      (fun r => { r with data := data, updatedAt := now }) (DataRow.id_rewritten data now) }

/-- `DELETE FROM data_rows WHERE …`. -/
def deleteRows (c : DataCore) (p : DataRow → Bool) : DataCore :=
  { c with rows := c.rows.deleteWhere p }

/-- A user goes: first the user's tables, then the user's name on other rows. -/
def deleteUser (c : DataCore) (userId : String) : DataCore :=
  let c := c.deleteTables fun t => t.createdBy == userId
  { c with
    users := c.users.deleteWhere fun u => u.id == userId
    rows := c.rows.updateWhere (fun r => r.ownerUserId == some userId)
      (fun r => { r with ownerUserId := none }) DataRow.id_disowned }

variable {c : DataCore}

theorem mem_redefineTable {tableId displayName : String} {schema : DataTableSchema}
    {accessPolicy : AccessPolicy} {s : LoadedTable} :
    s ∈ (c.redefineTable tableId displayName schema accessPolicy).tables ↔
      ∃ t ∈ c.tables, s = if t.id == tableId then t.redefine displayName schema accessPolicy
        else t :=
  KeyedTable.mem_updateWhere (t := c.tables) (p := fun t => t.id == tableId)
    (f := fun t => t.redefine displayName schema accessPolicy) (fun _ => rfl)

theorem mem_rewriteRow {rowId tableId now : String} {data : Value} {s : DataRow} :
    s ∈ (c.rewriteRow rowId tableId data now).rows ↔
      ∃ r ∈ c.rows, s = if r.id == rowId && r.tableId == tableId then
        { r with data := data, updatedAt := now } else r := by
  simp only [rewriteRow, KeyedTable.mem_updateWhere]

theorem mem_deleteTables_rows {p : LoadedTable → Bool} {r : DataRow} :
    r ∈ (c.deleteTables p).rows ↔
      r ∈ c.rows ∧ ∀ t ∈ c.tables, t.id = r.tableId → p t = false := by
  have hgone : (c.tables.rows.any fun t => p t && t.id == r.tableId) = false ↔
      ∀ t ∈ c.tables, t.id = r.tableId → p t = false := by
    rw [List.any_eq_false]
    refine forall_congr' fun t => forall_congr' fun _ => ?_
    cases p t <;> simp
  rw [← hgone]
  exact KeyedTable.mem_deleteWhere

theorem mem_deleteUser_rows {userId : String} {s : DataRow} :
    s ∈ (c.deleteUser userId).rows ↔
      ∃ r ∈ (c.deleteTables fun t => t.createdBy == userId).rows,
        s = if r.ownerUserId == some userId then { r with ownerUserId := none } else r := by
  simp only [deleteUser, KeyedTable.mem_updateWhere]

end DataCore

/-- One statement of the data plane, with the checks that guard it. -/
inductive DataStep (pf : Platform) : DataCore → DataCore → Prop
  | createTable {c : DataCore} {t : LoadedTable} {tables : KeyedTable LoadedTable (·.id)}
      (name_ok : validateTableName t.name = .ok ())
      (schema_ok : validateSchema pf t.schema = .ok ())
      (policy_ok : validateAccessPolicy t.accessPolicy = .ok ())
      (displayName_ok : trim t.displayName = t.displayName ∧ t.displayName ≠ "")
      (fresh : ∀ s ∈ c.tables, ¬ (s.appId = t.appId ∧ s.name = t.name))
      (creator : c.users.hasKey t.createdBy = true)
      (inserted : c.tables.insert? t = some tables) :
      DataStep pf c { c with tables := tables }
  | redefineTable {c : DataCore} {tableId displayName : String} {schema : DataTableSchema}
      {accessPolicy : AccessPolicy}
      (schema_ok : validateSchema pf schema = .ok ())
      (policy_ok : validateAccessPolicy accessPolicy = .ok ())
      (displayName_ok : trim displayName = displayName ∧ displayName ≠ "")
      (rows_ok : ∀ r ∈ c.rows, r.tableId = tableId → Conforms pf schema r.data) :
      DataStep pf c (c.redefineTable tableId displayName schema accessPolicy)
  | deleteTables {c : DataCore} (p : LoadedTable → Bool) : DataStep pf c (c.deleteTables p)
  | insertRow {c : DataCore} {t : LoadedTable} {r : DataRow} {rows : KeyedTable DataRow (·.id)}
      (table : t ∈ c.tables) (table_id : t.id = r.tableId) (app_id : t.appId = r.appId)
      (conforms : Conforms pf t.schema r.data)
      (owner : ∀ u, r.ownerUserId = some u → c.users.hasKey u = true)
      (inserted : c.rows.insert? r = some rows) :
      DataStep pf c { c with rows := rows }
  | rewriteRow {c : DataCore} {t : LoadedTable} {rowId now : String} {data : Value}
      (table : t ∈ c.tables) (conforms : Conforms pf t.schema data) :
      DataStep pf c (c.rewriteRow rowId t.id data now)
  | deleteRows {c : DataCore} (p : DataRow → Bool) : DataStep pf c (c.deleteRows p)
  | insertUser {c : DataCore} {u : User} {users : KeyedTable User (·.id)}
      (inserted : c.users.insert? u = some users) :
      DataStep pf c { c with users := users }
  | deleteUser {c : DataCore} (userId : String) : DataStep pf c (c.deleteUser userId)

/-- A request: finitely many statements. -/
abbrev DataSteps (pf : Platform) : DataCore → DataCore → Prop :=
  Relation.ReflTransGen (DataStep pf)

/-- The invariants of the data plane. -/
structure WellFormed (pf : Platform) (c : DataCore) : Prop where
  name_ok : ∀ t ∈ c.tables, validateTableName t.name = .ok ()
  schema_ok : ∀ t ∈ c.tables, validateSchema pf t.schema = .ok ()
  policy_ok : ∀ t ∈ c.tables, validateAccessPolicy t.accessPolicy = .ok ()
  name_unique : ∀ s ∈ c.tables, ∀ t ∈ c.tables, s.appId = t.appId → s.name = t.name → s = t
  creator : ∀ t ∈ c.tables, c.users.hasKey t.createdBy = true
  row_table : ∀ r ∈ c.rows, ∃ t ∈ c.tables, t.id = r.tableId ∧ t.appId = r.appId ∧
    Conforms pf t.schema r.data
  owner : ∀ r ∈ c.rows, ∀ u, r.ownerUserId = some u → c.users.hasKey u = true

theorem wellFormed_of_empty {pf : Platform} {c : DataCore} (ht : ∀ t, t ∉ c.tables)
    (hr : ∀ r, r ∉ c.rows) : WellFormed pf c where
  name_ok := fun t h => absurd h (ht t)
  schema_ok := fun t h => absurd h (ht t)
  policy_ok := fun t h => absurd h (ht t)
  name_unique := fun s h => absurd h (ht s)
  creator := fun t h => absurd h (ht t)
  row_table := fun r h => absurd h (hr r)
  owner := fun r h => absurd h (hr r)

namespace WellFormed

variable {pf : Platform} {c : DataCore}

theorem conforms (h : WellFormed pf c) {r : DataRow} (hr : r ∈ c.rows) {t : LoadedTable}
    (ht : t ∈ c.tables) (hid : t.id = r.tableId) : Conforms pf t.schema r.data := by
  obtain ⟨s, hs, hsid, -, hconf⟩ := h.row_table r hr
  have hst : s = t := c.tables.eq_of_key_eq hs ht (hsid.trans hid.symm)
  exact hst ▸ hconf

theorem row_app (h : WellFormed pf c) {r : DataRow} (hr : r ∈ c.rows) {t : LoadedTable}
    (ht : t ∈ c.tables) (hid : t.id = r.tableId) : r.appId = t.appId := by
  obtain ⟨s, hs, hsid, happ, -⟩ := h.row_table r hr
  have hst : s = t := c.tables.eq_of_key_eq hs ht (hsid.trans hid.symm)
  exact (hst ▸ happ).symm

theorem createTable (h : WellFormed pf c) {t : LoadedTable}
    {tables : KeyedTable LoadedTable (·.id)} (name_ok : validateTableName t.name = .ok ())
    (schema_ok : validateSchema pf t.schema = .ok ())
    (policy_ok : validateAccessPolicy t.accessPolicy = .ok ())
    (fresh : ∀ s ∈ c.tables, ¬ (s.appId = t.appId ∧ s.name = t.name))
    (creator : c.users.hasKey t.createdBy = true) (inserted : c.tables.insert? t = some tables) :
    WellFormed pf { c with tables := tables } := by
  have hmem : ∀ s, s ∈ tables ↔ s ∈ c.tables ∨ s = t := fun s => KeyedTable.mem_insert? inserted
  refine ⟨?_, ?_, ?_, ?_, ?_, ?_, h.owner⟩
  · intro s hs
    rcases (hmem s).mp hs with hs | rfl
    · exact h.name_ok s hs
    · exact name_ok
  · intro s hs
    rcases (hmem s).mp hs with hs | rfl
    · exact h.schema_ok s hs
    · exact schema_ok
  · intro s hs
    rcases (hmem s).mp hs with hs | rfl
    · exact h.policy_ok s hs
    · exact policy_ok
  · intro s hs s' hs' happ hname
    rcases (hmem s).mp hs with hs | rfl <;> rcases (hmem s').mp hs' with hs' | rfl
    · exact h.name_unique s hs s' hs' happ hname
    · exact absurd ⟨happ, hname⟩ (fresh s hs)
    · exact absurd ⟨happ.symm, hname.symm⟩ (fresh s' hs')
    · rfl
  · intro s hs
    rcases (hmem s).mp hs with hs | rfl
    · exact h.creator s hs
    · exact creator
  · intro r hr
    obtain ⟨s, hs, hrest⟩ := h.row_table r hr
    exact ⟨s, (hmem s).mpr (.inl hs), hrest⟩

theorem redefineTable (h : WellFormed pf c) {tableId displayName : String}
    {schema : DataTableSchema} {accessPolicy : AccessPolicy}
    (schema_ok : validateSchema pf schema = .ok ())
    (policy_ok : validateAccessPolicy accessPolicy = .ok ())
    (rows_ok : ∀ r ∈ c.rows, r.tableId = tableId → Conforms pf schema r.data) :
    WellFormed pf (c.redefineTable tableId displayName schema accessPolicy) := by
  -- every table of the new store is an old one, redefined or not
  have hcases : ∀ s ∈ (c.redefineTable tableId displayName schema accessPolicy).tables,
      ∃ t ∈ c.tables, s.id = t.id ∧ s.appId = t.appId ∧ s.name = t.name ∧
        s.createdBy = t.createdBy ∧
        (s = t ∨ (s.schema = schema ∧ s.accessPolicy = accessPolicy)) := by
    intro s hs
    obtain ⟨t, ht, rfl⟩ := DataCore.mem_redefineTable.mp hs
    refine ⟨t, ht, ?_⟩
    split
    · exact ⟨rfl, rfl, rfl, rfl, .inr ⟨rfl, rfl⟩⟩
    · exact ⟨rfl, rfl, rfl, rfl, .inl rfl⟩
  refine ⟨?_, ?_, ?_, ?_, ?_, ?_, h.owner⟩
  · intro s hs
    obtain ⟨t, ht, -, -, hname, -, -⟩ := hcases s hs
    exact hname ▸ h.name_ok t ht
  · intro s hs
    obtain ⟨t, ht, -, -, -, -, rfl | ⟨hschema, -⟩⟩ := hcases s hs
    · exact h.schema_ok s ht
    · exact hschema ▸ schema_ok
  · intro s hs
    obtain ⟨t, ht, -, -, -, -, rfl | ⟨-, hpolicy⟩⟩ := hcases s hs
    · exact h.policy_ok s ht
    · exact hpolicy ▸ policy_ok
  · intro s hs s' hs' happ hname
    obtain ⟨t, ht, hid, happ₁, hname₁, -, -⟩ := hcases s hs
    obtain ⟨t', ht', hid', happ₂, hname₂, -, -⟩ := hcases s' hs'
    have htt : t = t' := h.name_unique t ht t' ht' (happ₁ ▸ happ₂ ▸ happ) (hname₁ ▸ hname₂ ▸ hname)
    refine KeyedTable.eq_of_key_eq _ hs hs' ?_
    show s.id = s'.id
    rw [hid, hid', htt]
  · intro s hs
    obtain ⟨t, ht, -, -, -, hcreated, -⟩ := hcases s hs
    exact hcreated ▸ h.creator t ht
  · intro r hr
    obtain ⟨t, ht, hid, happ, hconf⟩ := h.row_table r hr
    by_cases hmatch : t.id = tableId
    · have hnew : t.redefine displayName schema accessPolicy ∈
          (c.redefineTable tableId displayName schema accessPolicy).tables :=
        DataCore.mem_redefineTable.mpr ⟨t, ht, by simp [hmatch]⟩
      exact ⟨_, hnew, hid, happ, rows_ok r hr (hid ▸ hmatch)⟩
    · have hold : t ∈ (c.redefineTable tableId displayName schema accessPolicy).tables :=
        DataCore.mem_redefineTable.mpr ⟨t, ht, by simp [hmatch]⟩
      exact ⟨t, hold, hid, happ, hconf⟩

theorem deleteTables (h : WellFormed pf c) (p : LoadedTable → Bool) :
    WellFormed pf (c.deleteTables p) := by
  have htable : ∀ t ∈ (c.deleteTables p).tables, t ∈ c.tables :=
    fun t ht => (KeyedTable.mem_deleteWhere.mp ht).1
  refine ⟨fun t ht => h.name_ok t (htable t ht), fun t ht => h.schema_ok t (htable t ht),
    fun t ht => h.policy_ok t (htable t ht),
    fun s hs t ht => h.name_unique s (htable s hs) t (htable t ht),
    fun t ht => h.creator t (htable t ht), ?_,
    fun r hr => h.owner r (DataCore.mem_deleteTables_rows.mp hr).1⟩
  intro r hr
  obtain ⟨hr, hkept⟩ := DataCore.mem_deleteTables_rows.mp hr
  obtain ⟨t, ht, hid, hrest⟩ := h.row_table r hr
  exact ⟨t, KeyedTable.mem_deleteWhere.mpr ⟨ht, hkept t ht hid⟩, hid, hrest⟩

theorem insertRow (h : WellFormed pf c) {t : LoadedTable} {r : DataRow}
    {rows : KeyedTable DataRow (·.id)} (table : t ∈ c.tables) (table_id : t.id = r.tableId)
    (app_id : t.appId = r.appId) (conforms : Conforms pf t.schema r.data)
    (owner : ∀ u, r.ownerUserId = some u → c.users.hasKey u = true)
    (inserted : c.rows.insert? r = some rows) : WellFormed pf { c with rows := rows } := by
  have hmem : ∀ s, s ∈ rows ↔ s ∈ c.rows ∨ s = r := fun s => KeyedTable.mem_insert? inserted
  refine ⟨h.name_ok, h.schema_ok, h.policy_ok, h.name_unique, h.creator, ?_, ?_⟩
  · intro s hs
    rcases (hmem s).mp hs with hs | rfl
    · exact h.row_table s hs
    · exact ⟨t, table, table_id, app_id, conforms⟩
  · intro s hs
    rcases (hmem s).mp hs with hs | rfl
    · exact h.owner s hs
    · exact owner

theorem rewriteRow (h : WellFormed pf c) {t : LoadedTable} {rowId now : String} {data : Value}
    (table : t ∈ c.tables) (conforms : Conforms pf t.schema data) :
    WellFormed pf (c.rewriteRow rowId t.id data now) := by
  refine ⟨h.name_ok, h.schema_ok, h.policy_ok, h.name_unique, h.creator, ?_, ?_⟩
  · intro s hs
    obtain ⟨r, hr, rfl⟩ := DataCore.mem_rewriteRow.mp hs
    obtain ⟨t', ht', hid, happ, hconf⟩ := h.row_table r hr
    split
    · rename_i hmatch
      simp only [Bool.and_eq_true, beq_iff_eq] at hmatch
      have htt : t' = t := c.tables.eq_of_key_eq ht' table (hid.trans hmatch.2)
      exact ⟨t', ht', hid, happ, htt ▸ conforms⟩
    · exact ⟨t', ht', hid, happ, hconf⟩
  · intro s hs
    obtain ⟨r, hr, rfl⟩ := DataCore.mem_rewriteRow.mp hs
    split
    · exact h.owner r hr
    · exact h.owner r hr

theorem deleteRows (h : WellFormed pf c) (p : DataRow → Bool) : WellFormed pf (c.deleteRows p) :=
  ⟨h.name_ok, h.schema_ok, h.policy_ok, h.name_unique, h.creator,
    fun r hr => h.row_table r (KeyedTable.mem_deleteWhere.mp hr).1,
    fun r hr => h.owner r (KeyedTable.mem_deleteWhere.mp hr).1⟩

theorem insertUser (h : WellFormed pf c) {u : User} {users : KeyedTable User (·.id)}
    (inserted : c.users.insert? u = some users) : WellFormed pf { c with users := users } := by
  have hkeep : ∀ k, c.users.hasKey k = true → users.hasKey k = true := by
    intro k hk
    obtain ⟨v, hv, rfl⟩ := KeyedTable.hasKey_iff.mp hk
    exact KeyedTable.hasKey_of_mem ((KeyedTable.mem_insert? inserted).mpr (.inl hv))
  exact ⟨h.name_ok, h.schema_ok, h.policy_ok, h.name_unique, fun t ht => hkeep _ (h.creator t ht),
    h.row_table, fun r hr u hu => hkeep _ (h.owner r hr u hu)⟩

/-- Deleting a user first deletes the user's tables, then takes the user off the
    rows that remain; both leave no reference to the user behind. -/
theorem deleteUser (h : WellFormed pf c) (userId : String) :
    WellFormed pf (c.deleteUser userId) := by
  have hbase := h.deleteTables fun t => t.createdBy == userId
  have hkeep : ∀ k, c.users.hasKey k = true → k ≠ userId →
      (c.deleteUser userId).users.hasKey k = true := by
    intro k hk hne
    obtain ⟨v, hv, rfl⟩ := KeyedTable.hasKey_iff.mp hk
    exact KeyedTable.hasKey_of_mem (KeyedTable.mem_deleteWhere.mpr ⟨hv, by simpa using hne⟩)
  refine ⟨hbase.name_ok, hbase.schema_ok, hbase.policy_ok, hbase.name_unique, ?_, ?_, ?_⟩
  · intro t ht
    have hne := (KeyedTable.mem_deleteWhere.mp ht).2
    exact hkeep _ (hbase.creator t ht) (by simpa using hne)
  · intro s hs
    obtain ⟨r, hr, rfl⟩ := DataCore.mem_deleteUser_rows.mp hs
    obtain ⟨t, ht, hrest⟩ := hbase.row_table r hr
    refine ⟨t, ht, ?_⟩
    split
    · exact hrest
    · exact hrest
  · intro s hs u hu
    obtain ⟨r, hr, rfl⟩ := DataCore.mem_deleteUser_rows.mp hs
    split at hu
    · cases hu
    · rename_i hother
      refine hkeep u (hbase.owner r hr u hu) ?_
      rintro rfl
      exact hother (by simp [hu])

/-- **Step lemma.**  Every statement keeps the invariants. -/
theorem step (h : WellFormed pf c) {c' : DataCore} (hstep : DataStep pf c c') :
    WellFormed pf c' := by
  cases hstep with
  | createTable name_ok schema_ok policy_ok _ fresh creator inserted =>
    exact h.createTable name_ok schema_ok policy_ok fresh creator inserted
  | redefineTable schema_ok policy_ok _ rows_ok => exact h.redefineTable schema_ok policy_ok rows_ok
  | deleteTables p => exact h.deleteTables p
  | insertRow table table_id app_id conforms owner inserted =>
    exact h.insertRow table table_id app_id conforms owner inserted
  | rewriteRow table conforms => exact h.rewriteRow table conforms
  | deleteRows p => exact h.deleteRows p
  | insertUser inserted => exact h.insertUser inserted
  | deleteUser userId => exact h.deleteUser userId

/-- **Run lemma.**  So does every request, wherever it stops. -/
theorem steps (h : WellFormed pf c) {c' : DataCore} (hsteps : DataSteps pf c c') :
    WellFormed pf c' := by
  induction hsteps with
  | refl => exact h
  | tail _ hstep ih => exact ih.step hstep

end WellFormed

/-! ### Bookkeeping leaves the core alone -/

@[simp] theorem recordAuditLog_core (db : Db) (env : Env) (uuid : String) (appId : Option String)
    (claims : Claims) (action targetType targetId : String) (metadata : Value) :
    (db.recordAuditLog env uuid appId claims action targetType targetId metadata).core =
      db.core := by
  obtain ⟨logs, hlogs⟩ :=
    db.recordAuditLog_frame env uuid appId claims action targetType targetId metadata
  rw [hlogs]
  rfl

@[simp] theorem logRowEvent_core (db : Db) (env : Env) (appId tableId rowId actor action : String)
    (diff : Option Value) :
    (db.logRowEvent env appId tableId rowId actor action diff).core = db.core := by
  unfold Db.logRowEvent Db.recordRowEvent
  dsimp only
  split
  · rename_i hrec
    split at hrec
    · obtain ⟨events, -, heq⟩ := Option.map_eq_some_iff.mp hrec
      cases heq
      rfl
    · cases hrec
  · rfl

end Peanut
