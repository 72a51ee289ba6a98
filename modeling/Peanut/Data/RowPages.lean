import Peanut.Library.Paging
import Peanut.Data.ReadPaths
import Peanut.Data.Runs

/-!
# Paging through a table

A client asks `list_rows` for one page after the other, each time from where the
limit of the last reply ends, while `has_more` says so.  Every request is sorted
anew, and rows that the `ORDER BY` does not tell apart may stand in another
order each time.  Every row is listed once, whatever these orders are, exactly
when no such rows stand on either side of the end of a page.
-/

namespace Peanut

open Paging Relational

/-! ### The database -/

/-- The order that the text of an `ORDER BY` asks for. -/
structure RowOrder where
  le : String → DataRow → DataRow → Bool
  weak : ∀ orderSql, WeakOrder (le orderSql)

/-- Sorts, with ties in any order. -/
def Sqlite.SortsBy (engine : Sqlite) (order : RowOrder) : Prop :=
  ∀ orderSql rows,
    (engine.orderBy orderSql rows).Pairwise fun a b => order.le orderSql a b = true

/-- SortedAnswers the clauses as another engine does. -/
def Sqlite.FiltersAs (engine base : Sqlite) : Prop :=
  engine.like = base.like ∧ engine.compare = base.compare

/-- The engines of the requests: request `k` is answered by `engines k`. -/
def SortedAnswers (order : RowOrder) (base : Sqlite) (engines : Nat → Sqlite) : Prop :=
  ∀ k, (engines k).FiltersAs base ∧ (engines k).SortsBy order

theorem matchingRows_filtersAs {engine base : Sqlite} (h : engine.FiltersAs base) (db : Db)
    (query : RowQuery) : matchingRows engine db query = matchingRows base db query := by
  have hclause : ∀ (row : DataRow) (clause : WhereClause) (values : List RowQueryBind),
      clause.holds engine row values = clause.holds base row values := by
    intro row clause values
    unfold WhereClause.holds
    rw [h.1, h.2]
  have hwhere : ∀ (row : DataRow) (clauses : List WhereClause) (values : List RowQueryBind),
      whereHolds engine row clauses values = whereHolds base row clauses values := by
    intro row clauses
    induction clauses with
    | nil => exact fun _ => rfl
    | cons clause rest ih =>
      intro values
      rw [whereHolds, whereHolds, hclause, ih]
  rw [matchingRows, matchingRows]
  exact congrArg db.dataRows.select (funext fun row => hwhere row _ _)

/-! ### The client -/

/-- Request `k` and those after it: ask from `offset` on, and again from where
    the limit of the reply ends while there is more. -/
def listAll (pf : Platform) (engines : Nat → Sqlite) (db : Db) (claims : Claims)
    (tableName : String) (params : ListRowsParams) :
    (fuel k offset : Nat) → Except ApiError (Option (List DataRowResponse))
  | 0, _, _ => .ok none
  | fuel + 1, k, offset => do
      let reply ← listRows pf (engines k) db claims tableName
        { params with offset := some (UInt64.ofNat offset) }
      if reply.body.hasMore then
        let rest ← listAll pf engines db claims tableName params fuel (k + 1)
          (offset + reply.body.limit.toNat)
        return rest.map (reply.body.rows ++ ·)
      else return some reply.body.rows

/-- The limit that every reply returns. -/
def pageLimit (params : ListRowsParams) : Nat :=
  min (params.limit.getD (UInt64.ofNat MAX_LIST_ROWS)).toNat MAX_LIST_ROWS

/-- The rows that the parameters ask for, whatever the page. -/
def requestedRows (pf : Platform) (engine : Sqlite) (db : Db) (claims : Claims)
    (table : LoadedTable) (params : ListRowsParams) : List DataRow :=
  matchingRows engine db (buildRowQuery pf params table.schema table.appId table.id
    (listOwnerFilter claims table.accessPolicy))

/-- The rows in the order that request `k` finds them in. -/
def orderedRows (pf : Platform) (base : Sqlite) (engines : Nat → Sqlite) (db : Db)
    (claims : Claims) (table : LoadedTable) (params : ListRowsParams) (k : Nat) : List DataRow :=
  (engines k).orderBy (rowQueryOrderSql params table.schema)
    (requestedRows pf base db claims table params)

/-! ### One reply -/

/-- SQLite files are smaller than this, and a row takes more than one byte. -/
def MAX_STORED_ROWS : Nat := 2 ^ 48

section Requests

variable {pf : Platform} {order : RowOrder} {base : Sqlite} {db : Db} {claims : Claims}
  {table : LoadedTable} {tableName : String} {params : ListRowsParams}
  {answer : DataRow → DataRowResponse}

theorem pageLimit_pos {schema : DataTableSchema}
    (haccepted : validateListRowsParams pf schema params = .ok ()) : 0 < pageLimit params := by
  have hlimit := (validateListRowsParams_eq_ok.mp haccepted).1
  have hpos : 0 < (params.limit.getD (UInt64.ofNat MAX_LIST_ROWS)).toNat := by
    cases hparams : params.limit with
    | none => decide
    | some limit =>
      refine Nat.pos_of_ne_zero fun hzero => hlimit ?_
      rw [hparams]
      exact congrArg some (UInt64.toNat_inj.mp hzero)
  exact Nat.lt_min.mpr ⟨hpos, by decide⟩

theorem pageLimit_le (params : ListRowsParams) : pageLimit params ≤ 50 := Nat.min_le_right _ _

theorem requestedRows_offset (engine : Sqlite) (offset : Option UInt64) :
    requestedRows pf engine db claims table { params with offset := offset } =
      requestedRows pf engine db claims table params := by
  rw [requestedRows, requestedRows, matchingRows, matchingRows]
  rfl

theorem rowQueryOrderSql_offset (schema : DataTableSchema) (offset : Option UInt64) :
    rowQueryOrderSql { params with offset := offset } schema =
      rowQueryOrderSql params schema := rfl

theorem listRows_eq_page (params : ListRowsParams) (answer : DataRow → DataRowResponse)
    {engine : Sqlite}
    (hload : loadTable pf db claims.appId tableName = some table)
    (hread : canReadTable claims table.accessPolicy = true)
    (haccepted : validateListRowsParams pf table.schema params = .ok ())
    (hanswer : ∀ row ∈ requestedRows pf engine db claims table params,
      respondRow pf db table params.expand row = .ok (answer row)) {offset limit : Int}
    (hoffset : asI64 (params.offset.getD 0) = offset)
    (hlimit : asI64 (min (params.limit.getD (UInt64.ofNat MAX_LIST_ROWS))
      (UInt64.ofNat MAX_LIST_ROWS)) = limit) :
    listRows pf engine db claims tableName params = .ok
      { status := .ok
        body :=
          { rows := (pageOf limit offset (engine.orderBy (rowQueryOrderSql params table.schema)
              (requestedRows pf engine db claims table params))).map answer
            total := (requestedRows pf engine db claims table params).length
            limit := limit, offset := offset
            hasMore := decide (wrapI64 (offset + limit) <
              ((requestedRows pf engine db claims table params).length : Int)) } } := by
  have hrows : (pageOf limit offset (engine.orderBy (rowQueryOrderSql params table.schema)
      (requestedRows pf engine db claims table params))).mapM
        (respondRow pf db table params.expand) = .ok ((pageOf limit offset
          (engine.orderBy (rowQueryOrderSql params table.schema)
            (requestedRows pf engine db claims table params))).map answer) :=
    Outcome.mapM_eq_map fun row hrow =>
      hanswer row ((engine.orderBy_perm _ _).mem_iff.mp (mem_of_mem_pageOf hrow))
  have hquery : ∃ query, buildRowQuery pf params table.schema table.appId table.id
      (listOwnerFilter claims table.accessPolicy) = query ∧
        query.orderSql = rowQueryOrderSql params table.schema ∧ query.limit = limit ∧
          query.offset = offset := ⟨_, rfl, rfl, hlimit, hoffset⟩
  obtain ⟨query, hquery, horder, hlim, hoff⟩ := hquery
  rw [requestedRows, hquery] at hrows ⊢
  simp only [listRows, requireTable, executeListRows, hload, hread, haccepted, hquery, horder,
    hlim, hoff, hrows, Outcome.require_some, Outcome.ensure_true, badRequest, Outcome.mapError_ok,
    Outcome.ok_bind]
  rfl

/-- Page `k` of the rows in the order that request `k` finds them in. -/
theorem listRows_page {engines : Nat → Sqlite} (hengines : ∀ k, (engines k).FiltersAs base)
    (hload : loadTable pf db claims.appId tableName = some table)
    (hread : canReadTable claims table.accessPolicy = true)
    (haccepted : validateListRowsParams pf table.schema params = .ok ())
    (hanswer : ∀ row ∈ requestedRows pf base db claims table params,
      respondRow pf db table params.expand row = .ok (answer row))
    {k : Nat} (hk : k * pageLimit params + 50 < 2 ^ 63) :
    ∃ reply, listRows pf (engines k) db claims tableName
        { params with offset := some (UInt64.ofNat (k * pageLimit params)) } = .ok reply ∧
      reply.body.rows = (page (pageLimit params) k
        (orderedRows pf base engines db claims table params k)).map answer ∧
      reply.body.limit = pageLimit params ∧
      reply.body.hasMore = decide
        ((k + 1) * pageLimit params < (requestedRows pf base db claims table params).length) := by
  have hle := pageLimit_le params
  have hnat : (UInt64.ofNat (k * pageLimit params)).toNat = k * pageLimit params := by
    rw [UInt64.toNat_ofNat']
    exact Nat.mod_eq_of_lt (by omega)
  have hoffset : asI64 (UInt64.ofNat (k * pageLimit params)) = (k * pageLimit params : Nat) := by
    rw [asI64_of_lt (by omega), hnat]
  have hlimit : asI64 (min (params.limit.getD (UInt64.ofNat MAX_LIST_ROWS))
      (UInt64.ofNat MAX_LIST_ROWS)) = (pageLimit params : Nat) := by
    have hmin : (min (params.limit.getD (UInt64.ofNat MAX_LIST_ROWS))
        (UInt64.ofNat MAX_LIST_ROWS)).toNat = pageLimit params :=
      UInt64.toNat_min _ _
    rw [asI64_of_lt (by omega), hmin]
  have hsame : requestedRows pf (engines k) db claims table params =
      requestedRows pf base db claims table params := matchingRows_filtersAs (hengines k) db _
  have hsum : wrapI64 ((k * pageLimit params : Nat) + (pageLimit params : Nat)) =
      ((k + 1) * pageLimit params : Nat) := by
    rw [Nat.succ_mul, wrapI64]
    omega
  refine ⟨_, listRows_eq_page { params with
    offset := some (UInt64.ofNat (k * pageLimit params)) } answer hload hread haccepted (by
      rw [requestedRows_offset, hsame]
      exact hanswer) hoffset hlimit, ?_, rfl, ?_⟩
  · dsimp only
    rw [requestedRows_offset, hsame, rowQueryOrderSql_offset, pageOf, if_neg (by omega)]
    rfl
  · dsimp only
    rw [requestedRows_offset, hsame, hsum]
    exact decide_eq_decide.mpr Int.ofNat_lt

/-! ### All replies -/

/-- The pages it takes to list so many rows; there is always a first one. -/
def pageCount (n total : Nat) : Nat := (total - 1) / n + 1

theorem le_pageCount_mul {n : Nat} (hn : 0 < n) (total : Nat) : total ≤ pageCount n total * n := by
  have := Nat.lt_div_mul_add (a := total - 1) hn
  rw [pageCount, Nat.succ_mul]
  omega

theorem mul_lt_of_lt_pageCount {n k total : Nat} (h : k + 1 < pageCount n total) :
    (k + 1) * n < total := by
  have hle : (k + 1) * n ≤ total - 1 := Nat.mul_le_of_le_div n (k + 1) _ (by
    rw [pageCount] at h
    omega)
  rcases Nat.eq_zero_or_pos total with rfl | htotal
  · rw [pageCount, Nat.zero_sub, Nat.zero_div] at h
    omega
  · omega

section Run

variable {engines : Nat → Sqlite} (hengines : ∀ k, (engines k).FiltersAs base)
  (hload : loadTable pf db claims.appId tableName = some table)
  (hread : canReadTable claims table.accessPolicy = true)
  (haccepted : validateListRowsParams pf table.schema params = .ok ())
  (hanswer : ∀ row ∈ requestedRows pf base db claims table params,
    respondRow pf db table params.expand row = .ok (answer row))

include hengines hload hread haccepted hanswer

theorem listAll_last {fuel k : Nat} (hk : k * pageLimit params + 50 < 2 ^ 63)
    (hlast : (requestedRows pf base db claims table params).length ≤ (k + 1) * pageLimit params) :
    listAll pf engines db claims tableName params (fuel + 1) k (k * pageLimit params) =
      .ok (some ((page (pageLimit params) k
        (orderedRows pf base engines db claims table params k)).map answer)) := by
  obtain ⟨reply, hreply, hrows, -, hmore⟩ :=
    listRows_page hengines hload hread haccepted hanswer hk
  rw [decide_eq_false (Nat.not_lt.mpr hlast)] at hmore
  rw [listAll, hreply, Outcome.ok_bind, hmore, hrows]
  rfl

theorem listAll_more {fuel k : Nat} {rest : List DataRowResponse}
    (hk : k * pageLimit params + 50 < 2 ^ 63)
    (hnext : (k + 1) * pageLimit params < (requestedRows pf base db claims table params).length)
    (hrest : listAll pf engines db claims tableName params fuel (k + 1)
      ((k + 1) * pageLimit params) = .ok (some rest)) :
    listAll pf engines db claims tableName params (fuel + 1) k (k * pageLimit params) =
      .ok (some ((page (pageLimit params) k
        (orderedRows pf base engines db claims table params k)).map answer ++ rest)) := by
  obtain ⟨reply, hreply, hrows, hlimit, hmore⟩ :=
    listRows_page hengines hload hread haccepted hanswer hk
  have hoffset : k * pageLimit params + reply.body.limit.toNat = (k + 1) * pageLimit params := by
    rw [hlimit, Nat.succ_mul]
    rfl
  rw [decide_eq_true hnext] at hmore
  rw [listAll, hreply, Outcome.ok_bind, hmore, if_pos rfl, hoffset, hrest, hrows]
  rfl

/-- The replies from request `k` on are the pages from `k` on. -/
theorem listAll_eq (hsize : (requestedRows pf base db claims table params).length ≤ MAX_STORED_ROWS)
    (rest k fuel : Nat) (hrest : k + rest + 1 =
      pageCount (pageLimit params) (requestedRows pf base db claims table params).length)
    (hfuel : rest < fuel) :
    listAll pf engines db claims tableName params fuel k (k * pageLimit params) = .ok (some
      (((List.range' k (rest + 1)).flatMap fun i => page (pageLimit params) i
        (orderedRows pf base engines db claims table params i)).map answer)) := by
  have hn := pageLimit_pos haccepted
  have hmax : MAX_STORED_ROWS = 2 ^ 48 := rfl
  have hk : k * pageLimit params + 50 < 2 ^ 63 := by
    cases k with
    | zero => omega
    | succ k =>
      have := mul_lt_of_lt_pageCount (n := pageLimit params) (k := k) (by rw [← hrest]; omega)
      omega
  obtain ⟨fuel, rfl⟩ : ∃ f, fuel = f + 1 := ⟨fuel - 1, by omega⟩
  induction rest generalizing k fuel with
  | zero =>
    have hlast := le_pageCount_mul hn (requestedRows pf base db claims table params).length
    rw [← hrest, Nat.add_zero] at hlast
    rw [listAll_last hengines hload hread haccepted hanswer hk hlast]
    simp
  | succ rest ih =>
    have hnext : (k + 1) * pageLimit params <
        (requestedRows pf base db claims table params).length :=
      mul_lt_of_lt_pageCount (by rw [← hrest]; omega)
    obtain ⟨fuel, rfl⟩ : ∃ f, fuel = f + 1 := ⟨fuel - 1, by omega⟩
    have hafter := ih (k + 1) (by rw [← hrest]; omega) (by omega) fuel (by omega)
    rw [listAll_more hengines hload hread haccepted hanswer hk hnext hafter]
    simp [List.range'_succ]

theorem listAll_collected
    (hsize : (requestedRows pf base db claims table params).length ≤ MAX_STORED_ROWS) {fuel : Nat}
    (hfuel : (requestedRows pf base db claims table params).length < fuel) :
    listAll pf engines db claims tableName params fuel 0 0 = .ok (some
      ((collected (pageLimit params)
        (pageCount (pageLimit params) (requestedRows pf base db claims table params).length)
        (orderedRows pf base engines db claims table params)).map answer)) := by
  have hle : ((requestedRows pf base db claims table params).length - 1) / pageLimit params ≤
      (requestedRows pf base db claims table params).length - 1 := Nat.div_le_self _ _
  have hall := listAll_eq hengines hload hread haccepted hanswer hsize
    (((requestedRows pf base db claims table params).length - 1) / pageLimit params) 0 fuel
    (by rw [pageCount, Nat.zero_add]) (by omega)
  rw [Nat.zero_mul] at hall
  rw [hall, collected, List.range_eq_range', pageCount]

end Run

/-! ### Every row once -/

/-- Whatever order ties are answered in, the replies end, and list each of the
    requested rows once. -/
def ListsEachRowOnce (pf : Platform) (order : RowOrder) (base : Sqlite) (db : Db)
    (claims : Claims) (table : LoadedTable) (tableName : String) (params : ListRowsParams)
    (answer : DataRow → DataRowResponse) : Prop :=
  ∀ engines : Nat → Sqlite, SortedAnswers order base engines → ∃ listed,
    (∀ fuel, (requestedRows pf base db claims table params).length < fuel →
      listAll pf engines db claims tableName params fuel 0 0 = .ok (some listed)) ∧
    listed.Perm ((requestedRows pf base db claims table params).map answer)

theorem nodup_id_requestedRows :
    ((requestedRows pf base db claims table params).map DataRow.id).Nodup :=
  db.dataRows.nodup.sublist (List.filter_sublist.map _)

theorem respondRow_id {row : DataRow} {expand : Option String} {response : DataRowResponse}
    (h : respondRow pf db table expand row = .ok response) : response.id = row.id := by
  cases expand with
  | none =>
    cases h
    rfl
  | some expand =>
    simp only [respondRow, Outcome.bind_eq_ok] at h
    obtain ⟨fields, -, data, -, heq⟩ := h
    cases heq
    rfl

/-- Every listing of the requested rows is the answer of some engine. -/
def listingEngine (order : RowOrder) (base : Sqlite) (orderSql : String) (rows s : List DataRow)
    (h : Listing (order.le orderSql) rows s) : Sqlite where
  like := base.like
  compare := base.compare
  orderBy sql found :=
    if sql = orderSql ∧ found = rows then s else found.mergeSort (order.le sql)
  orderBy_perm sql found := by
    split
    · rename_i heq
      rw [heq.2]
      exact h.perm
    · exact List.mergeSort_perm found _

theorem listingEngine_sortsBy {orderSql : String} {rows s : List DataRow}
    (h : Listing (order.le orderSql) rows s) :
    (listingEngine order base orderSql rows s h).SortsBy order := by
  intro sql found
  unfold listingEngine
  dsimp only
  split
  · rename_i heq
    rw [heq.1]
    exact h.sorted
  · exact (listing_mergeSort (order.weak sql) found).sorted

section Once

variable (hload : loadTable pf db claims.appId tableName = some table)
  (hread : canReadTable claims table.accessPolicy = true)
  (haccepted : validateListRowsParams pf table.schema params = .ok ())
  (hanswer : ∀ row ∈ requestedRows pf base db claims table params,
    respondRow pf db table params.expand row = .ok (answer row))
  (hsize : db.dataRows.rows.length ≤ MAX_STORED_ROWS)

include hload hread haccepted hanswer hsize

theorem onOnePage_of_listsEachRowOnce
    (h : ListsEachRowOnce pf order base db claims table tableName params answer) :
    OnOnePage (order.le (rowQueryOrderSql params table.schema)) (pageLimit params)
      (requestedRows pf base db claims table params) := by
  let rows := requestedRows pf base db claims table params
  let orderSql := rowQueryOrderSql params table.schema
  have hsize' : rows.length ≤ MAX_STORED_ROWS := Nat.le_trans (List.length_filter_le _ _) hsize
  have hn := pageLimit_pos haccepted
  intro row hrow
  by_contra hpages
  obtain ⟨listing, hlisting, hdouble⟩ :=
    exists_repeated (order.weak orderSql) hn hrow hpages (le_pageCount_mul hn rows.length)
  -- each request is answered from the listing made for it
  let engines : Nat → Sqlite := fun k => listingEngine order base orderSql rows (listing k)
    (hlisting k)
  obtain ⟨listed, hlisted, hperm⟩ := h engines
    fun k => ⟨⟨rfl, rfl⟩, listingEngine_sortsBy (hlisting k)⟩
  have hordered : orderedRows pf base engines db claims table params = listing :=
    funext fun k => if_pos ⟨rfl, rfl⟩
  have hall := listAll_collected (fun k => (⟨rfl, rfl⟩ : (engines k).FiltersAs base)) hload hread
    haccepted hanswer hsize' (Nat.lt_succ_self _)
  rw [hlisted _ (Nat.lt_succ_self _), hordered] at hall
  obtain rfl := Option.some.inj (Except.ok.inj hall)
  have hids := hperm.map DataRowResponse.id
  rw [List.map_map, List.map_map] at hids
  have hsame : rows.map (DataRowResponse.id ∘ answer) = rows.map DataRow.id :=
    List.map_congr_left fun r hr => respondRow_id (hanswer r hr)
  exact hdouble (List.Nodup.of_map _ (hids.nodup_iff.mpr (hsame ▸ nodup_id_requestedRows)))

theorem listsEachRowOnce_of_onOnePage
    (hone : OnOnePage (order.le (rowQueryOrderSql params table.schema)) (pageLimit params)
      (requestedRows pf base db claims table params)) :
    ListsEachRowOnce pf order base db claims table tableName params answer := by
  intro engines hengines
  have hsize' : (requestedRows pf base db claims table params).length ≤ MAX_STORED_ROWS :=
    Nat.le_trans (List.length_filter_le _ _) hsize
  have hlisting : ∀ k, Listing (order.le (rowQueryOrderSql params table.schema))
      (requestedRows pf base db claims table params)
      (orderedRows pf base engines db claims table params k) := fun k =>
    ⟨(engines k).orderBy_perm _ _, (hengines k).2 _ _⟩
  have hcollected := collected_perm (order.weak _) hone hlisting
    (le_pageCount_mul (pageLimit_pos haccepted) _)
  exact ⟨_, fun fuel hfuel => listAll_collected (fun k => (hengines k).1) hload hread haccepted
    hanswer hsize' hfuel, hcollected.map answer⟩

/-- **Paging lists every row once exactly when** rows that the `ORDER BY` does
    not tell apart are all on one page. -/
theorem list_rows_once_iff :
    ListsEachRowOnce pf order base db claims table tableName params answer ↔
      OnOnePage (order.le (rowQueryOrderSql params table.schema)) (pageLimit params)
        (requestedRows pf base db claims table params) :=
  ⟨onOnePage_of_listsEachRowOnce hload hread haccepted hanswer hsize,
    listsEachRowOnce_of_onOnePage hload hread haccepted hanswer hsize⟩

end Once

end Requests

/-! ### Offsets near the end of the integers -/

/-- What a page query is to be: as many rows as may be listed, from the row that was
    asked for, and `has_more` computed without an overflow and true exactly when there
    is a row beyond the page. -/
structure PageExact (query : RowQuery) (offset total : Nat) : Prop where
  limit_pos : 1 ≤ query.limit
  limit_le : query.limit ≤ MAX_LIST_ROWS
  offset_eq : query.offset = offset
  no_overflow : wrapI64 (query.offset + query.limit) = query.offset + query.limit
  hasMore_iff : wrapI64 (query.offset + query.limit) < total ↔
    ∃ position : Nat, offset + query.limit ≤ position ∧ position < total

theorem wrapI64_eq_self_iff {n : Int} : wrapI64 n = n ↔ -2 ^ 63 ≤ n ∧ n < 2 ^ 63 := by
  rw [wrapI64]
  omega

/-- The offset is the one of the request below `2 ^ 63`, and a negative number above. -/
theorem asI64_eq_toNat_iff {n : UInt64} : asI64 n = n.toNat ↔ n.toNat < 2 ^ 63 := by
  rw [asI64]
  split
  · rename_i hlt
    exact iff_of_true rfl hlt
  · rename_i hge
    refine iff_of_false ?_ hge
    omega

theorem limit_buildRowQuery (pf : Platform) (params : ListRowsParams) (schema : DataTableSchema)
    (appId tableId : String) (owner : Option String) :
    (buildRowQuery pf params schema appId tableId owner).limit = pageLimit params := by
  have hmin : (min (params.limit.getD (UInt64.ofNat MAX_LIST_ROWS))
      (UInt64.ofNat MAX_LIST_ROWS)).toNat = pageLimit params := UInt64.toNat_min _ _
  have hle := pageLimit_le params
  rw [buildRowQuery, asI64_of_lt (by omega), hmin]

/-- **Page arithmetic is exact** as long as the end of the page is a 64-bit integer,
    and for no other offset. -/
theorem page_arithmetic_exact_iff {pf : Platform} {schema : DataTableSchema}
    {params : ListRowsParams} (haccepted : validateListRowsParams pf schema params = .ok ())
    (appId tableId : String) (owner : Option String) (total : Nat) :
    PageExact (buildRowQuery pf params schema appId tableId owner)
        (params.offset.getD 0).toNat total ↔
      (params.offset.getD 0).toNat + pageLimit params < 2 ^ 63 := by
  have hpos := pageLimit_pos haccepted
  have hle := pageLimit_le params
  have hlimit := limit_buildRowQuery pf params schema appId tableId owner
  have hoffset : (buildRowQuery pf params schema appId tableId owner).offset =
      asI64 (params.offset.getD 0) := rfl
  constructor
  · intro h
    have hsame := h.offset_eq
    have hsum := wrapI64_eq_self_iff.mp h.no_overflow
    rw [hsame, hlimit] at hsum
    omega
  · intro h
    have hsame : (buildRowQuery pf params schema appId tableId owner).offset =
        (params.offset.getD 0).toNat := by
      rw [hoffset, asI64_eq_toNat_iff]
      omega
    have hsum : wrapI64 ((params.offset.getD 0).toNat + (pageLimit params : Int)) =
        (params.offset.getD 0).toNat + pageLimit params := by
      rw [wrapI64_eq_self_iff]
      omega
    refine ⟨?_, ?_, hsame, ?_, ?_⟩
    · omega
    · rw [hlimit]
      exact Int.ofNat_le.mpr hle
    · rw [hsame, hlimit, hsum]
    · rw [hsame, hlimit, hsum]
      constructor
      · intro hmore
        exact ⟨(params.offset.getD 0).toNat + pageLimit params, by omega, by omega⟩
      · rintro ⟨position, hbeyond, hrow⟩
        omega

/-! ### Two notes of one second -/

/-- The timestamps are compared as texts. -/
def createdOrder : RowOrder where
  le orderSql a b :=
    if orderSql = "ORDER BY created_at ASC" then !strLt b.createdAt a.createdAt
    else !strLt a.createdAt b.createdAt
  weak orderSql := by
    split
    · exact
        { total := fun a b => by
            cases h : strLt b.createdAt a.createdAt with
            | false => exact .inl rfl
            | true => exact .inr (by rw [strLt_asymm h]; rfl)
          trans := fun h h' => by
            simp only [Bool.not_eq_true'] at h h' ⊢
            exact strLt_false_trans h h' }
    · exact
        { total := fun a b => by
            cases h : strLt a.createdAt b.createdAt with
            | false => exact .inl rfl
            | true => exact .inr (by rw [strLt_asymm h]; rfl)
          trans := fun h h' => by
            simp only [Bool.not_eq_true'] at h h' ⊢
            exact strLt_false_trans h' h }

def notesTable : LoadedTable :=
  { id := "table_notes", appId := "default", name := "notes", displayName := "Notes"
    schema := noteSchema, accessPolicy := { mode := .authenticatedSharedRw }, createdBy := "root"
    createdAt := "2026-01-01 00:00:00" }

def storedNote (id : String) : DataRow :=
  { id := id, appId := "default", tableId := "table_notes", ownerUserId := none, data := note id
    createdAt := "2026-01-01 00:00:00", updatedAt := "2026-01-01 00:00:00" }

/-- Two notes, stored in the same second. -/
def twoNotesDb : Db :=
  { rootDb with
    dataTables := ⟨[notesTable], by decide⟩
    dataRows := ⟨[storedNote "milk", storedNote "bread"], by decide⟩ }

/-- One note a page: the second request may answer the first note again. -/
theorem note_listed_twice :
    ¬ ListsEachRowOnce asciiPlatform createdOrder insertionOrder twoNotesDb root notesTable
      "notes" { limit := some 1 } DataRowResponse.ofRecord := by
  intro h
  have hone := onOnePage_of_listsEachRowOnce (by decide) (by decide) rfl (fun _ _ => rfl)
    (by decide) h
  have hnot : ¬ OnOnePage (createdOrder.le "ORDER BY created_at DESC") 1
      [storedNote "milk", storedNote "bread"] := by
    unfold OnOnePage
    decide
  exact hnot hone

/-- Both notes are on the one page of two. -/
theorem notes_listed_once :
    ListsEachRowOnce asciiPlatform createdOrder insertionOrder twoNotesDb root notesTable
      "notes" { limit := some 2 } DataRowResponse.ofRecord := by
  have hone : OnOnePage (createdOrder.le (rowQueryOrderSql { limit := some 2 } noteSchema)) 2
      [storedNote "milk", storedNote "bread"] := by
    unfold OnOnePage
    decide
  exact (list_rows_once_iff (by decide) (by decide) rfl (fun _ _ => rfl) (by decide)).mpr hone

/-- The second page of the notes. -/
theorem second_page_exact :
    PageExact (buildRowQuery asciiPlatform { limit := some 50, offset := some 50 } noteSchema
        "default" "table_notes" none) 50 60 :=
  (@page_arithmetic_exact_iff asciiPlatform noteSchema { limit := some 50, offset := some 50 }
    (by decide) "default" "table_notes" none 60).mpr (by decide)

/-- At the last 64-bit integer the end of a page of one row wraps around, and
    `has_more` is true of an empty table. -/
theorem last_offset_wraps :
    validateListRowsParams asciiPlatform noteSchema
        { limit := some 1, offset := some 9223372036854775807 } = .ok () ∧
      wrapI64 ((buildRowQuery asciiPlatform { limit := some 1, offset := some 9223372036854775807 }
        noteSchema "default" "table_notes" none).offset + 1) < 0 ∧
      ¬ PageExact (buildRowQuery asciiPlatform
        { limit := some 1, offset := some 9223372036854775807 } noteSchema "default" "table_notes"
        none) 9223372036854775807 0 := by
  refine ⟨by decide, by decide, ?_⟩
  intro h
  exact absurd h.no_overflow (by decide)

end Peanut
