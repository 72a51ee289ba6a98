import Peanut.Data.OwnerRule
import Peanut.Data.ReadPaths

/-!
# What an expansion discloses

A read with an `expand` parameter copies related rows into the answer.  The
related row lives in another table, under another policy, and the copy is made
without asking whether the caller may read it.  This module says what an answer
can contain beyond the stored data and when all of it could have been read with
`get_row`.
-/

namespace Peanut

open Relational

/-- The fields of a stored row. -/
def DataRow.fields (r : DataRow) : JsonMap :=
  match r.data with
  | .object m => m
  | _ => []

/-- The fields of an answered row. -/
def DataRowResponse.fields (r : DataRowResponse) : JsonMap :=
  match r.data with
  | .object m => m
  | _ => []

/-- A relation field of a row of `table` leads to the row `related` of
    `relatedTable`. -/
structure Related (pf : Platform) (db : Db) (table : LoadedTable) (record : DataRow)
    (field : String) (relatedTable : LoadedTable) (related : DataRow) : Prop where
  target : relationTarget pf db table.appId table.schema record.fields field =
    some (relatedTable, related.id)
  stored : loadRow db relatedTable.id related.id = some related

/-- A row in an answer of `get_row` or `list_rows` to a request with this
    `expand` parameter, and the record it was made from. -/
def ReadAnswer (pf : Platform) (engine : Sqlite) (db : Db) (claims : Claims) (tableName : String)
    (expand : Option String) (record : DataRow) (row : DataRowResponse) : Prop :=
  record ∈ db.dataRows ∧ record.id = row.id ∧
    ((∃ rowId reply, getRow pf db claims tableName rowId { expand := expand } = .ok reply ∧
        row = reply.body) ∨
      ∃ params reply, params.expand = expand ∧
        listRows pf engine db claims tableName params = .ok reply ∧ row ∈ reply.body.rows)

/-- **Every related row in an answer could have been read with `get_row`.** -/
def ExpansionRespectsAccess (pf : Platform) (engine : Sqlite) (db : Db) (claims : Claims) : Prop :=
  ∀ (tableName expand : String) (table : LoadedTable) (record : DataRow) (row : DataRowResponse),
    loadTable pf db claims.appId tableName = some table →
    ReadAnswer pf engine db claims tableName (some expand) record row →
    ∀ field relatedTable related, Related pf db table record field relatedTable related →
      row.fields.get? (expandedKey field) = some (expandedValue (some related)) →
      ∃ reply, getRow pf db claims relatedTable.name related.id {} = .ok reply

/-- The caller may read every row that a row the caller gets to see is related to. -/
def RelatedRowsReadable (pf : Platform) (db : Db) (claims : Claims) : Prop :=
  ∀ table ∈ db.dataTables, table.appId = claims.appId →
    ∀ record ∈ db.dataRows, record.tableId = table.id →
      canAccessRow claims table.accessPolicy record.ownerUserId .read = true ∨
        listShows claims table.accessPolicy record.ownerUserId = true →
      ∀ field relatedTable related, Related pf db table record field relatedTable related →
        canAccessRow claims relatedTable.accessPolicy related.ownerUserId .read = true

/-! ### The loop -/

section Loop

variable {pf : Platform} {db : Db} {appId : String} {schema : DataTableSchema} {map : JsonMap}

theorem relationTarget_eq_some {fieldName relatedId : String} {relatedTable : LoadedTable} :
    relationTarget pf db appId schema map fieldName = some (relatedTable, relatedId) ↔
      ∃ spec, schema.fields.get? fieldName = some spec ∧ spec.fieldType = .relation ∧
        ∃ relationTable, spec.relationTable = some relationTable ∧
          map.get? fieldName = some (.string relatedId) ∧
          loadTable pf db appId relationTable = some relatedTable := by
  have hstr : ∀ v : Value, v.asStr = some relatedId ↔ v = .string relatedId := by
    intro v
    cases v <;> simp [Value.asStr]
  unfold relationTarget
  simp only [Option.bind_eq_bind, Option.bind_eq_some_iff]
  constructor
  · rintro ⟨spec, hspec, h⟩
    split at h
    · cases h
    · rename_i htype
      simp only [Option.bind_eq_some_iff, Option.pure_def, Option.some.injEq, Prod.mk.injEq] at h
      obtain ⟨relationTable, hrel, id, ⟨v, hv, hid⟩, t, ht, rfl, rfl⟩ := h
      rw [hstr] at hid
      subst hid
      exact ⟨spec, hspec, by simpa using htype, relationTable, hrel, hv, ht⟩
  · rintro ⟨spec, hspec, htype, relationTable, hrel, hvalue, hload⟩
    refine ⟨spec, hspec, ?_⟩
    simp only [htype, bne_self_eq_false, Bool.false_eq_true, if_false, Option.bind_eq_some_iff]
    exact ⟨relationTable, hrel, relatedId, ⟨.string relatedId, hvalue, rfl⟩, relatedTable, hload,
      rfl⟩

theorem expandedValue_ne_string (related : Option DataRow) (s : String) :
    expandedValue related ≠ .string s := by
  cases related <;> simp [expandedValue]

/-- What an entry of the answer is: stored, or the expansion of a listed field
    whose stored value names a row. -/
def ExpandedFrom (pf : Platform) (db : Db) (appId : String) (schema : DataTableSchema)
    (map current : JsonMap) (fields : List String) : Prop :=
  ∀ key, current.get? key = map.get? key ∨
    ∃ field ∈ fields, key = expandedKey field ∧ ∃ relatedTable relatedId,
      relationTarget pf db appId schema map field = some (relatedTable, relatedId) ∧
        current.get? key = some (expandedValue (loadRow db relatedTable.id relatedId))

/-- A field that is a string in the middle of the loop has its stored value: what
    the loop writes is an object or `null`. -/
theorem ExpandedFrom.get?_string {current : JsonMap} {fields : List String}
    (h : ExpandedFrom pf db appId schema map current fields) {key s : String}
    (hs : current.get? key = some (.string s)) : map.get? key = some (.string s) := by
  rcases h key with hstored | ⟨field, -, -, relatedTable, relatedId, -, hvalue⟩
  · rw [← hstored]
    exact hs
  · rw [hvalue, Option.some.injEq] at hs
    exact absurd hs (expandedValue_ne_string _ s)

theorem ExpandedFrom.round {current : JsonMap} {fields : List String}
    (h : ExpandedFrom pf db appId schema map current fields) (fieldName : String) :
    ExpandedFrom pf db appId schema map (expandField pf db appId schema current fieldName)
      (fields ++ [fieldName]) := by
  intro key
  have hkeep : current.get? key = map.get? key ∨
      ∃ field ∈ fields ++ [fieldName], key = expandedKey field ∧ ∃ relatedTable relatedId,
        relationTarget pf db appId schema map field = some (relatedTable, relatedId) ∧
          current.get? key = some (expandedValue (loadRow db relatedTable.id relatedId)) := by
    rcases h key with hstored | ⟨field, hfield, hrest⟩
    · exact .inl hstored
    · exact .inr ⟨field, List.mem_append_left _ hfield, hrest⟩
  unfold expandField
  split
  · rename_i relatedTable relatedId htarget
    obtain ⟨spec, hspec, htype, relationTable, hrel, hvalue, hload⟩ :=
      relationTarget_eq_some.mp htarget
    have hstored : relationTarget pf db appId schema map fieldName =
        some (relatedTable, relatedId) :=
      relationTarget_eq_some.mpr
        ⟨spec, hspec, htype, relationTable, hrel, h.get?_string hvalue, hload⟩
    rw [get?_insert]
    split
    · rename_i hkey
      exact .inr ⟨fieldName, by simp, hkey, relatedTable, relatedId, hstored, rfl⟩
    · exact hkeep
  · exact hkeep

theorem expandedFrom_foldl (fields : List String) :
    ExpandedFrom pf db appId schema map (fields.foldl (expandField pf db appId schema) map)
      fields := by
  have hgeneral : ∀ (rest done : List String) (current : JsonMap),
      ExpandedFrom pf db appId schema map current done →
      ExpandedFrom pf db appId schema map (rest.foldl (expandField pf db appId schema) current)
        (done ++ rest) := by
    intro rest
    induction rest with
    | nil =>
      intro done current h
      rw [List.append_nil]
      exact h
    | cons field rest ih =>
      intro done current h
      have hnext := ih (done ++ [field]) _ (h.round field)
      rw [List.append_assoc] at hnext
      exact hnext
  exact hgeneral fields [] map fun key => .inl rfl

end Loop

/-! ### Answers -/

section Answers

variable {pf : Platform} {engine : Sqlite} {db : Db} {claims : Claims} {table : LoadedTable}

variable {record : DataRow} {row : DataRowResponse}

theorem respondRow_expand {expand : String} :
    respondRow pf db table (some expand) record = .ok row ↔
      ∃ fields m, parseExpandFields expand table.schema = .ok fields ∧ record.data = .object m ∧
        row = { DataRowResponse.ofRecord record with
          data := .object (fields.foldl (expandField pf db table.appId table.schema) m) } := by
  have hdata : (DataRowResponse.ofRecord record).data = record.data := rfl
  simp only [respondRow, Outcome.bind_eq_ok, badRequest_eq_ok, hdata]
  constructor
  · rintro ⟨fields, hfields, data, hexpand, heq⟩
    cases heq
    cases hobject : record.data with
    | object m =>
      rw [hobject] at hexpand
      cases hexpand
      exact ⟨fields, m, hfields, rfl, rfl⟩
    | _ =>
      rw [hobject] at hexpand
      cases hexpand
  · rintro ⟨fields, m, hfields, hobject, rfl⟩
    refine ⟨fields, hfields, _, ?_, rfl⟩
    rw [hobject]
    rfl

/-- Where an answered row comes from: a row of the table that the caller may
    read or that the list shows. -/
theorem readAnswer_record {tableName : String} {expand : Option String}
    (hload : loadTable pf db claims.appId tableName = some table)
    (h : ReadAnswer pf engine db claims tableName expand record row) :
    record.tableId = table.id ∧
      (canAccessRow claims table.accessPolicy record.ownerUserId .read = true ∨
        listShows claims table.accessPolicy record.ownerUserId = true) ∧
      respondRow pf db table expand record = .ok row := by
  obtain ⟨hrecord, hid, hanswer⟩ := h
  have hrespond : ∀ r : DataRow, ∀ row' : DataRowResponse,
      respondRow pf db table expand r = .ok row' → row'.id = r.id := by
    intro r row' hr
    cases expand with
    | none =>
      cases hr
      rfl
    | some e =>
      obtain ⟨fields, m, -, -, rfl⟩ := respondRow_expand.mp hr
      rfl
  rcases hanswer with ⟨rowId, reply, hget, rfl⟩ | ⟨params, reply, rfl, hlist, hmem⟩
  · simp only [getRow, Outcome.bind_eq_ok] at hget
    obtain ⟨⟨t, r⟩, hrow, response, hresponse, heq⟩ := hget
    cases heq
    obtain ⟨ht, hr, haccess⟩ := requireRow_eq_ok.mp hrow
    cases hload.symm.trans ht
    obtain ⟨hr, htable, -⟩ := loadRow_eq_some.mp hr
    have hsame : record = r :=
      db.dataRows.eq_of_key_eq hrecord hr (hid.trans (hrespond r _ hresponse))
    subst hsame
    exact ⟨htable, .inl haccess, hresponse⟩
  · simp only [listRows, requireTable, executeListRows, Outcome.bind_eq_ok, Outcome.require_eq_ok,
      Outcome.ensure_eq_ok] at hlist
    obtain ⟨t, ht, _, hread, _, -, rows, hrows, heq⟩ := hlist
    cases heq
    cases hload.symm.trans ht
    obtain ⟨r, hpage, hresponse⟩ := Outcome.exists_of_mem_mapM hrows row hmem
    have hfound := (engine.orderBy_perm _ _).mem_iff.mp (mem_of_mem_pageOf hpage)
    obtain ⟨hr, htable, howner⟩ := matchingRows_table hfound
    have hsame : record = r :=
      db.dataRows.eq_of_key_eq hrecord hr (hid.trans (hrespond r _ hresponse))
    subst hsame
    refine ⟨htable, .inr ?_, hresponse⟩
    rw [listShows, hread, Bool.true_and]
    split
    · rename_i o ho
      simp [howner o ho]
    · rfl

/-- **What an answer adds.**  An entry that is not stored stands under the
    expanded key of a field whose stored value names a row of a table of the
    app, and is that row, or `null` where there is none. -/
theorem readAnswer_expandedFrom {tableName expand : String}
    (hload : loadTable pf db claims.appId tableName = some table)
    (h : ReadAnswer pf engine db claims tableName (some expand) record row) :
    ∃ fields, parseExpandFields expand table.schema = .ok fields ∧
      ExpandedFrom pf db table.appId table.schema record.fields row.fields fields := by
  obtain ⟨-, -, hresponse⟩ := readAnswer_record hload h
  obtain ⟨fields, m, hfields, hobject, rfl⟩ := respondRow_expand.mp hresponse
  refine ⟨fields, hfields, ?_⟩
  have hm : record.fields = m := by simp [DataRow.fields, hobject]
  rw [hm]
  exact expandedFrom_foldl fields

end Answers

/-! ### Asking for one field -/

section OneField

variable {pf : Platform} {engine : Sqlite} {db : Db} {claims : Claims} {table : LoadedTable}
  {record : DataRow} {field : String}

variable {spec : DataFieldSpec}

theorem validateSchema_fieldName {schema : DataTableSchema}
    (h : validateSchema pf schema = .ok ()) (hfield : schema.fields.get? field = some spec) :
    field ≠ "" ∧ ∀ c ∈ field.toList, isNameChar c = true := by
  obtain ⟨hne, hchars, -⟩ := validateSchemaField_ok (validateSchema_field h hfield)
  refine ⟨hne, fun c hc => ?_⟩
  have hc' := List.all_eq_true.mp hchars c hc
  simp only [isNameChar, Bool.or_eq_true] at hc' ⊢
  exact .inl hc'

/-- A relation field of an accepted schema, given as the whole parameter, is
    parsed as itself. -/
theorem parseExpandFields_field {schema : DataTableSchema}
    (h : validateSchema pf schema = .ok ()) (hfield : schema.fields.get? field = some spec)
    (htype : spec.fieldType = .relation) : parseExpandFields field schema = .ok [field] := by
  obtain ⟨hne, hchars⟩ := validateSchema_fieldName h hfield
  have hcomma : ',' ∉ field.toList := by
    intro hc
    have := hchars ',' hc
    revert this
    decide
  have hsplit : splitAt ',' field = [field] := by
    rw [splitAt, List.splitOn_eq_singleton hcomma]
    simp
  have htrim : trim field = field :=
    trim_eq_self fun c hc => isWhitespace_of_isNameChar (hchars c hc)
  simp [parseExpandFields, hsplit, htrim, hne, Outcome.checkAll, hfield, htype, pure, Except.pure]

theorem respondRow_field {relatedTable : LoadedTable} {related : DataRow}
    (hwf : WellFormed pf db.core) (htable : table ∈ db.dataTables) (hrecord : record ∈ db.dataRows)
    (hid : record.tableId = table.id)
    (hrelated : Related pf db table record field relatedTable related) :
    ∃ row, respondRow pf db table (some field) record = .ok row ∧ row.id = record.id ∧
      row.fields.get? (expandedKey field) = some (expandedValue (some related)) := by
  obtain ⟨spec, hspec, htype, -⟩ := relationTarget_eq_some.mp hrelated.target
  obtain ⟨m, hm⟩ := (hwf.conforms hrecord htable hid.symm).isObject
  have hparse := parseExpandFields_field (hwf.schema_ok table htable) hspec htype
  refine ⟨_, respondRow_expand.mpr ⟨[field], m, hparse, hm, rfl⟩, rfl, ?_⟩
  have hfields : record.fields = m := by simp [DataRow.fields, hm]
  have htarget := hrelated.target
  rw [hfields] at htarget
  simp only [DataRowResponse.fields, List.foldl_cons, List.foldl_nil, expandField, htarget,
    get?_insert, if_true, hrelated.stored]

theorem respondRow_succeeds (hwf : WellFormed pf db.core)
    (htable : table ∈ db.dataTables) (hspec : table.schema.fields.get? field = some spec)
    (htype : spec.fieldType = .relation) {r : DataRow} (hr : r ∈ db.dataRows)
    (hid : r.tableId = table.id) : ∃ row, respondRow pf db table (some field) r = .ok row := by
  obtain ⟨m, hm⟩ := (hwf.conforms hr htable hid.symm).isObject
  have hparse := parseExpandFields_field (hwf.schema_ok table htable) hspec htype
  exact ⟨_, respondRow_expand.mpr ⟨[field], m, hparse, hm, rfl⟩⟩

/-- A row the caller may read, or the list shows, is answered with the expanded
    field by some request. -/
theorem exists_readAnswer {relatedTable : LoadedTable} {related : DataRow}
    (hwf : WellFormed pf db.core) (hlen : db.dataRows.rows.length < 2 ^ 63)
    (htable : table ∈ db.dataTables) (happ : table.appId = claims.appId)
    (hrecord : record ∈ db.dataRows) (hid : record.tableId = table.id)
    (hvisible : canAccessRow claims table.accessPolicy record.ownerUserId .read = true ∨
      listShows claims table.accessPolicy record.ownerUserId = true)
    (hrelated : Related pf db table record field relatedTable related) :
    ∃ row, ReadAnswer pf engine db claims table.name (some field) record row ∧
      row.fields.get? (expandedKey field) = some (expandedValue (some related)) := by
  have hload : loadTable pf db claims.appId table.name = some table := by
    rw [← happ]
    exact loadTable_stored hwf htable
  obtain ⟨row, hrespond, hrowid, hvalue⟩ := respondRow_field hwf htable hrecord hid hrelated
  refine ⟨row, ⟨hrecord, hrowid.symm, ?_⟩, hvalue⟩
  rcases hvisible with haccess | hshow
  · have hfound : requireRow pf db claims table.name record.id .read = .ok (table, record) :=
      requireRow_eq_ok.mpr ⟨hload, loadRow_eq_some.mpr ⟨hrecord, hid, rfl⟩, haccess⟩
    refine .inl ⟨record.id, { status := .ok, body := row }, ?_, rfl⟩
    simp only [getRow, hfound, Outcome.ok_bind, hrespond]
    rfl
  · -- a page that holds the record; every other row of the page has an answer too
    obtain ⟨offset, hpage⟩ := @exists_page pf engine db claims table
      (fun r hr hrid => (hwf.row_app hr htable hrid.symm)) hlen record hrecord hid hshow
    obtain ⟨spec, hspec, htype, -⟩ := relationTarget_eq_some.mp hrelated.target
    have hall : ∀ r ∈ pageOf (pageQuery pf claims table (some offset)).limit
        (pageQuery pf claims table (some offset)).offset
        (engine.orderBy (pageQuery pf claims table (some offset)).orderSql
          (matchingRows engine db (pageQuery pf claims table (some offset)))),
        ∃ row, respondRow pf db table (some field) r = .ok row := by
      intro r hr
      have hfound := (engine.orderBy_perm _ _).mem_iff.mp (mem_of_mem_pageOf hr)
      obtain ⟨hr', hrid, -⟩ := matchingRows_table hfound
      exact respondRow_succeeds hwf htable hspec htype hr' hrid
    obtain ⟨rows, hrows, hmem⟩ := Outcome.mapM_of_forall hall
    have hread : canReadTable claims table.accessPolicy = true := by
      rw [listShows, Bool.and_eq_true] at hshow
      exact hshow.1
    have hlist : ∃ reply, listRows pf engine db claims table.name
        { pageParams none (some offset) with expand := some field } = .ok reply ∧
        reply.body.rows = rows := by
      simp only [listRows, requireTable, executeListRows, Outcome.bind_eq_ok,
        Outcome.require_eq_ok, Outcome.ensure_eq_ok, badRequest_eq_ok]
      exact ⟨_, ⟨table, hload, (), hread, (),
        @validateListRowsParams_page pf table.schema none (some offset) (by simp), rows, hrows,
        rfl⟩, rfl⟩
    obtain ⟨reply, hreply, hbody⟩ := hlist
    refine .inr ⟨_, reply, rfl, hreply, ?_⟩
    rw [hbody]
    exact hmem record hpage row hrespond

/-- A plain `get_row` of a related row succeeds exactly when the caller may read
    it: the related table is one of the caller's app. -/
theorem getRow_related_iff {relatedTable : LoadedTable} {related : DataRow}
    (hwf : WellFormed pf db.core) (happ : table.appId = claims.appId)
    (hrelated : Related pf db table record field relatedTable related) :
    (∃ reply, getRow pf db claims relatedTable.name related.id {} = .ok reply) ↔
      canAccessRow claims relatedTable.accessPolicy related.ownerUserId .read = true := by
  obtain ⟨spec, -, -, relationTable, -, -, htarget⟩ := relationTarget_eq_some.mp hrelated.target
  obtain ⟨htable, happ', -⟩ := loadTable_some htarget
  have hload : loadTable pf db claims.appId relatedTable.name = some relatedTable := by
    rw [← happ, ← happ']
    exact loadTable_stored hwf htable
  constructor
  · rintro ⟨reply, hget⟩
    simp only [getRow, Outcome.bind_eq_ok] at hget
    obtain ⟨⟨t, r⟩, hrow, -⟩ := hget
    obtain ⟨ht, hr, haccess⟩ := requireRow_eq_ok.mp hrow
    cases hload.symm.trans ht
    cases hrelated.stored.symm.trans hr
    exact haccess
  · intro haccess
    refine ⟨{ status := .ok, body := .ofRecord related }, ?_⟩
    simp only [getRow, requireRow_eq_ok.mpr ⟨hload, hrelated.stored, haccess⟩, Outcome.ok_bind]
    rfl

end OneField

/-- **Expansion and access.**  In every state a run has reached: what an answer
    adds to the stored data are related rows under their expanded keys; and all
    of them could have been read with `get_row` exactly when the caller may read
    every row that a row shown to the caller is related to. -/
theorem expansion_respects_access_iff (pf : Platform) (engine : Sqlite) (db : Db)
    (requests : List DataRequest) (claims : Claims)
    (hlen : (runData pf db requests).dataRows.rows.length < 2 ^ 63) :
    (∀ tableName expand table record row,
      loadTable pf (runData pf db requests) claims.appId tableName = some table →
      ReadAnswer pf engine (runData pf db requests) claims tableName (some expand) record row →
      ∃ fields, parseExpandFields expand table.schema = .ok fields ∧
        ExpandedFrom pf (runData pf db requests) table.appId table.schema record.fields row.fields
          fields) ∧
      (ExpansionRespectsAccess pf engine (runData pf db requests) claims ↔
        RelatedRowsReadable pf (runData pf db requests) claims) := by
  have hwf := wellFormed_runData pf db requests
  refine ⟨fun tableName expand table record row hload h => readAnswer_expandedFrom hload h, ?_⟩
  constructor
  · intro h table htable happ record hrecord hid hvisible field relatedTable related hrelated
    obtain ⟨row, hanswer, hvalue⟩ :=
      @exists_readAnswer pf engine _ claims table record field relatedTable related hwf hlen htable
        happ hrecord hid hvisible hrelated
    have hload : loadTable pf (runData pf db requests) claims.appId table.name = some table := by
      rw [← happ]
      exact loadTable_stored hwf htable
    exact (getRow_related_iff hwf happ hrelated).mp
      (h table.name field table record row hload hanswer field relatedTable related hrelated hvalue)
  · intro h tableName expand table record row hload hanswer field relatedTable related hrelated _
    obtain ⟨htable, happ, -⟩ := loadTable_some hload
    obtain ⟨hid, hvisible, -⟩ := readAnswer_record hload hanswer
    exact (getRow_related_iff hwf happ hrelated).mpr
      (h table htable happ record hanswer.1 hid hvisible field relatedTable related hrelated)

/-! ### A row of an administrators' table in an answer to a user -/

def secretsTable : LoadedTable :=
  { id := "s0", appId := "default", name := "secrets", displayName := "Secrets"
    schema := noteSchema, accessPolicy := { mode := .adminOnly }
    createdBy := "root", createdAt := "2026-01-01 00:00:00" }

def secretRow : DataRow :=
  { id := "s1", appId := "default", tableId := "s0", ownerUserId := none, data := note "secret"
    createdAt := "2026-01-01 00:00:00", updatedAt := "2026-01-01 00:00:00" }

/-- Posts refer to secrets. -/
def postSchema : DataTableSchema :=
  { fields := ⟨[("about", { fieldType := .relation, relationTable := some "secrets" })],
      by decide⟩ }

def postsTable : LoadedTable :=
  { id := "p0", appId := "default", name := "posts", displayName := "Posts", schema := postSchema
    accessPolicy := { mode := .authenticatedSharedRw }
    createdBy := "root", createdAt := "2026-01-01 00:00:00" }

def postRow : DataRow :=
  { id := "p1", appId := "default", tableId := "p0", ownerUserId := none
    data := .object [("about", .string "s1")]
    createdAt := "2026-01-01 00:00:00", updatedAt := "2026-01-01 00:00:00" }

/-- A table only administrators may read, and a shared table that refers to it. -/
def postsRun : List DataRequest :=
  [.createTable (sampleEnv "s") root
      { name := "secrets", displayName := "Secrets", schema := noteSchema,
        accessPolicy := { mode := .adminOnly } },
    .createTable (sampleEnv "p") root
      { name := "posts", displayName := "Posts", schema := postSchema,
        accessPolicy := { mode := .authenticatedSharedRw } },
    .importRows (sampleEnv "i") root "secrets"
      { rows := [{ id := some "s1", data := note "secret" }] },
    .importRows (sampleEnv "j") root "posts"
      { rows := [{ id := some "p1", data := .object [("about", .string "s1")] }] }]

/-- The post as it is answered to Carol. -/
def postAnswer : DataRowResponse :=
  { DataRowResponse.ofRecord postRow with
    data := .object [("about", .string "s1"), ("about_expanded", expandedValue (some secretRow))] }

theorem secret_disclosed :
    ¬ ExpansionRespectsAccess asciiPlatform insertionOrder
      (runData asciiPlatform rootDb postsRun) carol := by
  intro h
  have hrow : postRow ∈ (runData asciiPlatform rootDb postsRun).dataRows := by
    rw [KeyedTable.mem_def]
    decide +kernel
  have hget : getRow asciiPlatform (runData asciiPlatform rootDb postsRun) carol "posts" "p1"
      { expand := some "about" } = .ok { status := .ok, body := postAnswer } := by
    decide +kernel
  have hrelated : Related asciiPlatform (runData asciiPlatform rootDb postsRun) postsTable postRow
      "about" secretsTable secretRow :=
    ⟨by decide +kernel, by decide +kernel⟩
  obtain ⟨reply, hreply⟩ := h "posts" "about" postsTable postRow postAnswer (by decide +kernel)
    ⟨hrow, rfl, .inl ⟨"p1", _, hget, rfl⟩⟩ "about" secretsTable secretRow hrelated
    (by decide +kernel)
  have hrefused : getRow asciiPlatform (runData asciiPlatform rootDb postsRun) carol "secrets" "s1"
      {} = .error (jsonError .forbidden "row access denied") := by
    decide +kernel
  cases hreply.symm.trans hrefused

/-- An administrator may read the secret anyway. -/
theorem secret_disclosed_to_admin :
    ExpansionRespectsAccess asciiPlatform insertionOrder
      (runData asciiPlatform rootDb postsRun) root :=
  (expansion_respects_access_iff asciiPlatform insertionOrder rootDb postsRun root
    (by decide +kernel)).2.mpr
    fun _ _ _ _ _ _ _ _ _ _ _ => rfl

end Peanut
