import Mathlib.Data.Set.Basic
import Peanut.Data.JsonColumns
import Peanut.Data.Rows

/-!
# Listing a table against reading its rows

The rows a caller can see by paging through `list_rows` and the rows the same
caller can fetch one by one with `get_row`.  The two paths decide access by
different rules, and this module says for every policy, caller and set of rows
whether they come to the same.
-/

namespace Peanut

open Relational

/-- What paging through a table without filters returns, over all pages; a
    refused request returns nothing. -/
def listedRows (pf : Platform) (engine : Sqlite) (db : Db) (claims : Claims)
    (table : LoadedTable) : Set DataRowResponse :=
  {row | ∃ limit offset reply,
    executeListRows pf engine db claims table (pageParams limit offset) = .ok reply ∧
      row ∈ reply.body.rows}

/-- The rows of a table the caller may read, one by one. -/
def readableRows (db : Db) (claims : Claims) (table : LoadedTable) : Set DataRowResponse :=
  {row | ∃ record ∈ db.dataRows, record.tableId = table.id ∧
    canAccessRow claims table.accessPolicy record.ownerUserId .read = true ∧
      row = .ofRecord record}

/-- What `get_row` answers over all row ids. -/
def fetchableRows (pf : Platform) (db : Db) (claims : Claims) (tableName : String) :
    Set DataRowResponse :=
  {row | ∃ rowId reply, getRow pf db claims tableName rowId {} = .ok reply ∧ row = reply.body}

/-- `get_row` succeeds on exactly the rows the caller may read. -/
theorem fetchableRows_eq {pf : Platform} {db : Db} {claims : Claims} {tableName : String}
    {table : LoadedTable} (hload : loadTable pf db claims.appId tableName = some table) :
    fetchableRows pf db claims tableName = readableRows db claims table := by
  ext row
  simp only [fetchableRows, readableRows, Set.mem_ofPred_eq, getRow, Outcome.bind_eq_ok]
  constructor
  · rintro ⟨rowId, reply, ⟨⟨t, record⟩, hrow, response, hresponse, hreply⟩, rfl⟩
    obtain ⟨ht, hrecord, haccess⟩ := requireRow_eq_ok.mp hrow
    cases hload.symm.trans ht
    obtain ⟨hmem, htable, -⟩ := loadRow_eq_some.mp hrecord
    cases hresponse
    cases hreply
    exact ⟨record, hmem, htable, haccess, rfl⟩
  · rintro ⟨record, hmem, htable, haccess, rfl⟩
    have hrecord : loadRow db table.id record.id = some record :=
      loadRow_eq_some.mpr ⟨hmem, htable, rfl⟩
    exact ⟨record.id, _, ⟨(table, record), requireRow_eq_ok.mpr ⟨hload, hrecord, haccess⟩,
      _, rfl, rfl⟩, rfl⟩

/-! ### What the list shows -/

/-- The list shows a row with this owner: the table-level check and the owner
    filter of the query. -/
def listShows (claims : Claims) (policy : AccessPolicy) (owner : Option String) : Bool :=
  canReadTable claims policy &&
    match listOwnerFilter claims policy with
    | some o => owner == some o
    | none => true

theorem mapM_respondRow (pf : Platform) (db : Db) (table : LoadedTable) (records : List DataRow) :
    records.mapM (respondRow pf db table none) = .ok (records.map .ofRecord) := by
  induction records with
  | nil => rfl
  | cons record rest ih =>
    rw [List.mapM_cons, ih]
    rfl

theorem validateListRowsParams_page {pf : Platform} {schema : DataTableSchema}
    {limit offset : Option UInt64} (h : limit ≠ some 0) :
    validateListRowsParams pf schema (pageParams limit offset) = .ok () := by
  rw [validateListRowsParams_eq_ok]
  simp [pageParams, validateFilter, h]

/-- The query behind the page at an offset. -/
def pageQuery (pf : Platform) (claims : Claims) (table : LoadedTable) (offset : Option UInt64) :
    RowQuery :=
  buildRowQuery pf (pageParams none offset) table.schema table.appId table.id
    (listOwnerFilter claims table.accessPolicy)

section Listing

variable {pf : Platform} {engine : Sqlite} {db : Db} {claims : Claims} {table : LoadedTable}

/-- A row the list shows is on some page.  Rows carry the app of their table, and
    a result set is shorter than the offsets a request can name. -/
theorem exists_page (happ : ∀ r ∈ db.dataRows, r.tableId = table.id → r.appId = table.appId)
    (hlen : db.dataRows.rows.length < 2 ^ 63) {record : DataRow} (hrec : record ∈ db.dataRows)
    (htable : record.tableId = table.id)
    (hshow : listShows claims table.accessPolicy record.ownerUserId = true) :
    ∃ offset,
      let query := pageQuery pf claims table (some offset)
      record ∈ pageOf query.limit query.offset
        (engine.orderBy query.orderSql (matchingRows engine db query)) := by
  rw [listShows, Bool.and_eq_true] at hshow
  have howner : ∀ o, listOwnerFilter claims table.accessPolicy = some o →
      record.ownerUserId = some o := by
    intro o ho
    have hfilter := hshow.2
    rw [ho] at hfilter
    simpa using hfilter
  let query := pageQuery pf claims table none
  -- the record is in the result set whatever the page
  have hordered : record ∈ engine.orderBy query.orderSql (matchingRows engine db query) :=
    (engine.orderBy_perm _ _).mem_iff.mpr
      (mem_matchingRows_page.mpr ⟨hrec, happ record hrec htable, htable, howner⟩)
  have hshort : (engine.orderBy query.orderSql (matchingRows engine db query)).length < 2 ^ 63 := by
    rw [(engine.orderBy_perm _ _).length_eq]
    exact lt_of_le_of_lt (List.length_filter_le _ _) hlen
  obtain ⟨offset, hpage⟩ := mem_pageOf_of_mem hordered hshort
  exact ⟨offset, hpage⟩

theorem mem_listedRows (happ : ∀ r ∈ db.dataRows, r.tableId = table.id → r.appId = table.appId)
    (hlen : db.dataRows.rows.length < 2 ^ 63) {row : DataRowResponse} :
    row ∈ listedRows pf engine db claims table ↔
      ∃ record ∈ db.dataRows, record.tableId = table.id ∧
        listShows claims table.accessPolicy record.ownerUserId = true ∧
        row = .ofRecord record := by
  simp only [listedRows, Set.mem_ofPred_eq, executeListRows, Outcome.bind_eq_ok,
    Outcome.ensure_eq_ok, badRequest_eq_ok, listShows, Bool.and_eq_true]
  constructor
  · rintro ⟨limit, offset, reply, ⟨_, hread, _, -, rows, hrows, hreply⟩, hmem⟩
    cases hreply
    have hplain : (pageParams limit offset).expand = none := rfl
    rw [hplain, mapM_respondRow] at hrows
    cases hrows
    obtain ⟨record, hpage, rfl⟩ := List.mem_map.mp hmem
    have hfound := (engine.orderBy_perm _ _).mem_iff.mp (mem_of_mem_pageOf hpage)
    obtain ⟨hrec, -, htable, howner⟩ := mem_matchingRows_page.mp hfound
    refine ⟨record, hrec, htable, ⟨hread, ?_⟩, rfl⟩
    split
    · rename_i o ho
      simp [howner o ho]
    · rfl
  · rintro ⟨record, hrec, htable, ⟨hread, hfilter⟩, rfl⟩
    have hshow : listShows claims table.accessPolicy record.ownerUserId = true := by
      rw [listShows, hread, Bool.true_and]
      exact hfilter
    obtain ⟨offset, hpage⟩ :=
      @exists_page pf engine db claims table happ hlen record hrec htable hshow
    refine ⟨none, some offset, _, ⟨(), hread, (), validateListRowsParams_page (by simp), _,
      mapM_respondRow pf db table _, rfl⟩, ?_⟩
    exact List.mem_map.mpr ⟨record, hpage, rfl⟩

/-- The two paths agree exactly when they agree on every row of the table. -/
theorem listedRows_eq_readableRows_iff
    (happ : ∀ r ∈ db.dataRows, r.tableId = table.id → r.appId = table.appId)
    (hlen : db.dataRows.rows.length < 2 ^ 63) :
    listedRows pf engine db claims table = readableRows db claims table ↔
      ∀ r ∈ db.dataRows, r.tableId = table.id →
        (listShows claims table.accessPolicy r.ownerUserId = true ↔
          canAccessRow claims table.accessPolicy r.ownerUserId .read = true) := by
  -- a response determines its record, because ids are unique
  have hinj : ∀ r ∈ db.dataRows, ∀ s ∈ db.dataRows,
      DataRowResponse.ofRecord r = DataRowResponse.ofRecord s → r = s :=
    fun r hr s hs h => db.dataRows.eq_of_key_eq hr hs (congrArg DataRowResponse.id h)
  rw [Set.ext_iff]
  constructor
  · intro h r hr htable
    have hrow := h (.ofRecord r)
    rw [mem_listedRows happ hlen] at hrow
    constructor
    · intro hshow
      obtain ⟨s, hs, -, haccess, heq⟩ := hrow.mp ⟨r, hr, htable, hshow, rfl⟩
      exact hinj r hr s hs heq ▸ haccess
    · intro haccess
      obtain ⟨s, hs, -, hshow, heq⟩ := hrow.mpr ⟨r, hr, htable, haccess, rfl⟩
      exact hinj r hr s hs heq ▸ hshow
  · intro h row
    rw [mem_listedRows happ hlen]
    constructor
    · rintro ⟨r, hr, htable, hshow, rfl⟩
      exact ⟨r, hr, htable, (h r hr htable).mp hshow, rfl⟩
    · rintro ⟨r, hr, htable, haccess, rfl⟩
      exact ⟨r, hr, htable, (h r hr htable).mpr haccess, rfl⟩

end Listing

/-! ### When the two paths agree -/

/-- The owners of the rows of a table on which both paths decide alike, read off
    the policy and the caller. -/
def ReadPathsAgree (claims : Claims) (policy : AccessPolicy) (owners : Set (Option String)) :
    Prop :=
  match claims.isAdmin, policy.rules.bind (·.read) with
  | true, none => policy.mode = .custom → owners = ∅
  | true, some _ => True
  | false, none => True
  | false, some .ruleAdmin => True
  | false, some .ruleOwner =>
      (policy.mode = .ownerPrivate → none ∉ owners) ∧
        (policy.mode ≠ .ownerPrivate → ∀ o, some o ∈ owners → o = claims.sub)
  | false, some _ => policy.mode = .ownerPrivate → ∀ o ∈ owners, o = some claims.sub

/-- The owners of the rows of a table. -/
def tableOwners (db : Db) (table : LoadedTable) : Set (Option String) :=
  {owner | ∃ r ∈ db.dataRows, r.tableId = table.id ∧ r.ownerUserId = owner}

theorem listShows_eq_canAccessRow_iff {claims : Claims} {policy : AccessPolicy}
    (hpolicy : validateAccessPolicy policy = .ok ()) (owners : Set (Option String)) :
    (∀ owner ∈ owners, (listShows claims policy owner = true ↔
        canAccessRow claims policy owner .read = true)) ↔
      ReadPathsAgree claims policy owners := by
  have hknown : ∀ t, policy.mode ≠ .unknown t := (validateAccessPolicy_eq_ok.mp hpolicy).1
  have hrule : ∀ rule, policy.rules.bind (·.read) = some rule → rule.Known :=
    fun rule h => @ruleFor_known policy hpolicy .read rule h
  have hread : policy.rules.bind (·.ruleFor .read) = policy.rules.bind (·.read) := rfl
  unfold ReadPathsAgree listShows canAccessRow canReadTable listOwnerFilter
  rw [hread]
  generalize policy.rules.bind (·.read) = rule at hrule ⊢
  cases hadmin : claims.isAdmin with
  | true =>
    cases rule with
    | none =>
      cases hmode : policy.mode with
      | unknown t => exact absurd hmode (hknown t)
      | custom => simp [tableModeAllows, Set.eq_empty_iff_forall_notMem]
      | adminOnly => simp [tableModeAllows, hadmin]
      | ownerPrivate => simp [tableModeAllows]
      | authenticatedSharedRw => simp [tableModeAllows]
    | some rule =>
      cases rule with
      | unknown t => exact absurd rfl (hrule _ rfl t)
      | ruleAdmin => simp [evaluateRule, hadmin]
      | rulePublic => simp [evaluateRule]
      | ruleAuthenticated => simp [evaluateRule]
      | ruleOwner => simp [evaluateRule]
  | false =>
    cases rule with
    | none =>
      cases hmode : policy.mode with
      | unknown t => exact absurd hmode (hknown t)
      | custom => simp [tableModeAllows]
      | adminOnly => simp [tableModeAllows, hadmin]
      | ownerPrivate => simp [tableModeAllows]
      | authenticatedSharedRw => simp [tableModeAllows]
    | some rule =>
      -- the list consults the mode even though the policy has a read rule
      by_cases hmode : policy.mode = .ownerPrivate
      · cases rule with
        | unknown t => exact absurd rfl (hrule _ rfl t)
        | ruleAdmin => simp [evaluateRule, hadmin, hmode]
        | rulePublic => simp [evaluateRule, hmode]
        | ruleAuthenticated => simp [evaluateRule, hmode]
        | ruleOwner =>
          constructor
          · intro h
            refine ⟨fun _ hnone => ?_, fun hne => absurd hmode hne⟩
            simpa [evaluateRule, hmode] using h none hnone
          · rintro ⟨hnone, -⟩ owner howner
            cases owner with
            | none => exact absurd howner (hnone hmode)
            | some o => simp [evaluateRule, hmode]
      · cases rule with
        | unknown t => exact absurd rfl (hrule _ rfl t)
        | ruleAdmin => simp [evaluateRule, hadmin, hmode]
        | rulePublic => simp [evaluateRule, hmode]
        | ruleAuthenticated => simp [evaluateRule, hmode]
        | ruleOwner =>
          constructor
          · intro h
            refine ⟨fun hm => absurd hm hmode, fun _ o ho => ?_⟩
            simpa [evaluateRule, hmode] using h (some o) ho
          · rintro ⟨-, hall⟩ owner howner
            cases owner with
            | none => simp [evaluateRule, hmode]
            | some o => simp [evaluateRule, hmode, hall hmode o howner]

/-- **Listing and reading agree exactly when** the policy and the owners of the
    stored rows say so; reading one by one always returns the readable rows. -/
theorem list_agrees_with_read_iff (pf : Platform) (engine : Sqlite) (db : Db) (claims : Claims)
    (tableName : String) (table : LoadedTable)
    (hload : loadTable pf db claims.appId tableName = some table)
    (hpolicy : validateAccessPolicy table.accessPolicy = .ok ())
    (happ : ∀ r ∈ db.dataRows, r.tableId = table.id → r.appId = table.appId)
    (hlen : db.dataRows.rows.length < 2 ^ 63) :
    (listedRows pf engine db claims table = readableRows db claims table ↔
        ReadPathsAgree claims table.accessPolicy (tableOwners db table)) ∧
      fetchableRows pf db claims tableName = readableRows db claims table := by
  refine ⟨?_, fetchableRows_eq hload⟩
  rw [listedRows_eq_readableRows_iff happ hlen, ← listShows_eq_canAccessRow_iff hpolicy]
  constructor
  · rintro h owner ⟨r, hr, htable, rfl⟩
    exact h r hr htable
  · intro h r hr htable
    exact h r.ownerUserId ⟨r, hr, htable, rfl⟩

/-! ### A row listed to a caller who may not read it -/

/-- A table whose rows only their owners may read. -/
def diaryTable : LoadedTable :=
  { id := "t1", appId := "default", name := "diary", displayName := "Diary"
    schema := { fields := ⟨[("entry", { fieldType := .string })], by decide⟩ }
    accessPolicy := { mode := .custom, rules := some { read := some .ruleOwner } }
    createdBy := "root", createdAt := "2026-01-01 00:00:00" }

def diaryRow : DataRow :=
  { id := "r1", appId := "default", tableId := "t1", ownerUserId := some "alice"
    data := .object [("entry", .string "secret")]
    createdAt := "2026-01-01 00:00:00", updatedAt := "2026-01-01 00:00:00" }

def diaryDb : Db :=
  { dataTables := ⟨[diaryTable], by decide⟩, dataRows := ⟨[diaryRow], by decide⟩ }

def bob : Claims := { sub := "bob", appId := "default", exp := 0, isAdmin := false }

theorem diaryDb_app : ∀ r ∈ diaryDb.dataRows, r.tableId = diaryTable.id →
    r.appId = diaryTable.appId := by
  intro r hr _
  have hr' : r ∈ [diaryRow] := hr
  simp only [List.mem_singleton] at hr'
  subst hr'
  rfl

/-- The list shows Alice's row to Bob, `get_row` refuses it. -/
theorem diary_listed_not_readable :
    validateAccessPolicy diaryTable.accessPolicy = .ok () ∧
      loadTable asciiPlatform diaryDb bob.appId "diary" = some diaryTable ∧
      listedRows asciiPlatform insertionOrder diaryDb bob diaryTable ≠
        readableRows diaryDb bob diaryTable ∧
      listedRows asciiPlatform insertionOrder diaryDb bob diaryTable ≠
        fetchableRows asciiPlatform diaryDb bob "diary" := by
  have hload : loadTable asciiPlatform diaryDb bob.appId "diary" = some diaryTable := by
    decide +kernel
  have hne : listedRows asciiPlatform insertionOrder diaryDb bob diaryTable ≠
      readableRows diaryDb bob diaryTable := by
    rw [ne_eq, listedRows_eq_readableRows_iff diaryDb_app (by decide)]
    intro h
    have hrow := h diaryRow (by simp [KeyedTable.mem_def, diaryDb]) rfl
    revert hrow
    decide
  refine ⟨by decide, hload, hne, ?_⟩
  rw [fetchableRows_eq hload]
  exact hne

/-- The characterisation applied to the administrator of the same table, for
    whom both paths agree. -/
theorem diary_listed_to_admin :
    listedRows asciiPlatform insertionOrder diaryDb { bob with isAdmin := true } diaryTable =
      readableRows diaryDb { bob with isAdmin := true } diaryTable := by
  refine (list_agrees_with_read_iff asciiPlatform insertionOrder diaryDb
    { bob with isAdmin := true } "diary" diaryTable (by decide +kernel) (by decide) diaryDb_app
    (by decide)).1.mpr ?_
  trivial

end Peanut
