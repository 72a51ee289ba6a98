import Peanut.Data.Schema
import Peanut.Store

/-!
# Row queries

`api/data/query.rs`: which list parameters are accepted and the `WHERE`,
`ORDER BY`, `LIMIT` and `OFFSET` they turn into.  A clause is kept as syntax
with its SQL text beside it (`WhereClause.sql`); values travel in the list of
binds and are consumed from left to right, one for each `?`.

What SQLite makes of a clause over JSON text, and the order it returns rows in,
is the parameter `Sqlite`.
-/

namespace Peanut

def MAX_LIST_ROWS : Nat := 50

inductive RowQueryBind where
  | text (value : String)
  | bool (value : Bool)
  | int (value : Int)
  | float (bits : UInt64)
deriving DecidableEq, Repr

inductive SqlOperator where
  | eq
  | ne
  | gt
  | gte
  | lt
  | lte
deriving DecidableEq, Repr

def SqlOperator.sql : SqlOperator → String
  | .eq => "="
  | .ne => "!="
  | .gt => ">"
  | .gte => ">="
  | .lt => "<"
  | .lte => "<="

def sqlOperator (op : String) : SqlOperator :=
  match op with
  | "eq" => .eq
  | "ne" => .ne
  | "gt" => .gt
  | "gte" => .gte
  | "lt" => .lt
  | "lte" => .lte
  | _ => .eq

inductive WhereClause where
  | appId
  | tableId
  | ownerUserId
  | like (field : String)
  | anyLike (fields : List String)
  | compare (field : String) (op : SqlOperator)
  | always
deriving DecidableEq, Repr

def jsonExtractExpr (fieldName : String) : String := s!"json_extract(data_json, '$.{fieldName}')"

def WhereClause.sql : WhereClause → String
  | .appId => "app_id = ?"
  | .tableId => "table_id = ?"
  | .ownerUserId => "owner_user_id = ?"
  | .like field => s!"{jsonExtractExpr field} LIKE ?"
  | .anyLike fields =>
      "(" ++ String.intercalate " OR " (fields.map fun f => s!"{jsonExtractExpr f} LIKE ?") ++ ")"
  | .compare field op => s!"{jsonExtractExpr field} {op.sql} ?"
  | .always => "1 = 1"

/-- The number of `?` in the text of a clause. -/
def WhereClause.arity : WhereClause → Nat
  | .anyLike fields => fields.length
  | .always => 0
  | _ => 1

structure RowQuery where
  whereClauses : List WhereClause
  binds : List RowQueryBind
  orderSql : String
  limit : Int
  offset : Int
deriving DecidableEq, Repr

/-! ### Accepted parameters -/

def parseBoolFilter (value : String) : Option Bool :=
  match value with
  | "true" | "1" => some true
  | "false" | "0" => some false
  | _ => none

def validateFilterValue (pf : Platform) (spec : DataFieldSpec) (value : String) :
    Except String Unit :=
  match spec.fieldType with
  | .boolean =>
      Outcome.ensure (parseBoolFilter value).isSome
        "filter_value must be true/false/1/0 for boolean fields"
  | .integer =>
      Outcome.ensure (parseI64 value).isSome
        "filter_value must be an integer for integer fields"
  | .number | .datetime =>
      Outcome.ensure (pf.parseF64 value).isSome
        "filter_value must be numeric for number/datetime fields"
  | _ => .ok ()

/-- The operators `validate_list_rows_params` allows on a field type. -/
def filterOpSupported (fieldType : FieldType) (op : String) : Bool :=
  match fieldType with
  | .string => ["eq", "ne", "contains", "starts_with", "ends_with"].contains op
  | .integer | .number | .datetime => ["eq", "ne", "gt", "gte", "lt", "lte"].contains op
  | .boolean => ["eq", "ne"].contains op
  | .json => ["eq", "ne"].contains op
  | _ => false

def validateFilter (pf : Platform) (schema : DataTableSchema) (params : ListRowsParams) :
    Except String Unit :=
  match params.filterField, params.filterOp, params.filterValue with
  | none, none, none => .ok ()
  | some field, some op, some value => do
      let spec ← Outcome.require (schema.fields.get? field) "filter_field must be a declared field"
      Outcome.ensure (filterOpSupported spec.fieldType op)
        "filter_op is not supported for the selected field"
      validateFilterValue pf spec value
  | _, _, _ => .error "filter_field, filter_op, and filter_value must be provided together"

def isStringField (e : String × DataFieldSpec) : Bool := e.2.fieldType == .string

def validateListRowsParams (pf : Platform) (schema : DataTableSchema) (params : ListRowsParams) :
    Except String Unit := do
  Outcome.ensure (params.limit != some 0) "limit must be at least 1"
  match params.orderBy with
  | some orderBy =>
      Outcome.ensure
        (orderBy == "created_at" || orderBy == "updated_at" || schema.fields.containsKey orderBy)
        "order_by must be created_at, updated_at, or a declared field"
  | none => .ok ()
  match params.order with
  | some order => Outcome.ensure (order == "asc" || order == "desc") "order must be asc or desc"
  | none => .ok ()
  match params.search with
  | some search => do
      Outcome.ensure (!isBlank search) "search must not be empty"
      Outcome.ensure (schema.fields.entries.any isStringField)
        "search requires at least one declared string field"
  | none => .ok ()
  Outcome.ensure (!(params.done.isSome && !schema.fields.containsKey "done"))
    "done filter requires a declared done field"
  Outcome.ensure (!(params.titleContains.isSome && !schema.fields.containsKey "title"))
    "title_contains filter requires a declared title field"
  validateFilter pf schema params

theorem validateListRowsParams_eq_ok {pf : Platform} {schema : DataTableSchema}
    {params : ListRowsParams} :
    validateListRowsParams pf schema params = .ok () ↔
      params.limit ≠ some 0 ∧
      (∀ orderBy, params.orderBy = some orderBy → orderBy = "created_at" ∨
        orderBy = "updated_at" ∨ schema.fields.containsKey orderBy = true) ∧
      (∀ order, params.order = some order → order = "asc" ∨ order = "desc") ∧
      (∀ search, params.search = some search →
        isBlank search = false ∧ schema.fields.entries.any isStringField = true) ∧
      (params.done.isSome = true → schema.fields.containsKey "done" = true) ∧
      (params.titleContains.isSome = true → schema.fields.containsKey "title" = true) ∧
      validateFilter pf schema params = .ok () := by
  have hdone : (!(params.done.isSome && !schema.fields.containsKey "done")) = true ↔
      (params.done.isSome = true → schema.fields.containsKey "done" = true) := by
    cases params.done.isSome <;> cases schema.fields.containsKey "done" <;> simp
  have htitle : (!(params.titleContains.isSome && !schema.fields.containsKey "title")) = true ↔
      (params.titleContains.isSome = true → schema.fields.containsKey "title" = true) := by
    cases params.titleContains.isSome <;> cases schema.fields.containsKey "title" <;> simp
  unfold validateListRowsParams
  cases params.orderBy <;> cases params.order <;> cases params.search <;>
    simp only [Outcome.bind_eq_ok, Outcome.ensure_eq_ok, Outcome.ok_bind, hdone, htitle,
      exists_and_left, exists_const, bne_iff_ne, Bool.or_eq_true, beq_iff_eq, Bool.not_eq_true',
      reduceCtorEq, false_implies, implies_true, true_and, Option.some.injEq, forall_eq', or_assoc,
      and_assoc]

/-! ### The query -/

def buildFilterClause (pf : Platform) (field : String) (spec : DataFieldSpec) (op value : String) :
    WhereClause × Option RowQueryBind :=
  match spec.fieldType with
  | .string =>
      match op with
      | "eq" => (.compare field .eq, some (.text value))
      | "ne" => (.compare field .ne, some (.text value))
      | "contains" => (.like field, some (.text s!"%{value}%"))
      | "starts_with" => (.like field, some (.text s!"{value}%"))
      | "ends_with" => (.like field, some (.text s!"%{value}"))
      | _ => (.always, none)
  | .boolean =>
      (.compare field (if op == "ne" then .ne else .eq),
        some (.bool ((parseBoolFilter value).getD false)))
  | .integer => (.compare field (sqlOperator op), some (.int ((parseI64 value).getD 0)))
  | .number => (.compare field (sqlOperator op), some (.float ((pf.parseF64 value).getD 0)))
  | _ => (.compare field (sqlOperator op), some (.text value))

/-- The clauses in source order, each with the binds it pushes. -/
def rowQueryClauses (pf : Platform) (params : ListRowsParams) (schema : DataTableSchema)
    (appId tableId : String) (ownerUserId : Option String) :
    List (WhereClause × List RowQueryBind) :=
  let stringFields := (schema.fields.entries.filter isStringField).map Prod.fst
  [(.appId, [.text appId]), (.tableId, [.text tableId])] ++
    (match ownerUserId with
      | some owner => [(.ownerUserId, [.text owner])]
      | none => []) ++
    (match params.search with
      | some search =>
          if stringFields.isEmpty then []
          else [(.anyLike stringFields, stringFields.map fun _ => .text s!"%{search}%")]
      | none => []) ++
    (match params.titleContains with
      | some title => [(.like "title", [.text s!"%{title}%"])]
      | none => []) ++
    (match params.done with
      | some done => [(.compare "done" .eq, [.bool done])]
      | none => []) ++
    (match params.filterField, params.filterOp, params.filterValue with
      | some field, some op, some value =>
          match schema.fields.get? field with
          | some spec =>
              let filter := buildFilterClause pf field spec op value
              [(filter.1, filter.2.toList)]
          | none => []
      | _, _, _ => [])

/-- `as i64` on a 64-bit word: the upper half wraps to the negative numbers. -/
def asI64 (n : UInt64) : Int := if n.toNat < 2 ^ 63 then n.toNat else n.toNat - 2 ^ 64

def rowQueryOrderSql (params : ListRowsParams) (schema : DataTableSchema) : String :=
  let orderExpr :=
    match params.orderBy with
    | some "created_at" => "created_at"
    | none => "created_at"
    | some "updated_at" => "updated_at"
    | some field =>
        if schema.fields.containsKey field then jsonExtractExpr field else "created_at"
  let direction := if params.order == some "asc" then "ASC" else "DESC"
  s!"ORDER BY {orderExpr} {direction}"

def buildRowQuery (pf : Platform) (params : ListRowsParams) (schema : DataTableSchema)
    (appId tableId : String) (ownerUserId : Option String) : RowQuery :=
  let clauses := rowQueryClauses pf params schema appId tableId ownerUserId
  { whereClauses := clauses.map Prod.fst
    binds := clauses.flatMap Prod.snd
    orderSql := rowQueryOrderSql params schema
    limit := asI64 (min (params.limit.getD (UInt64.ofNat MAX_LIST_ROWS))
      (UInt64.ofNat MAX_LIST_ROWS))
    offset := asI64 (params.offset.getD 0) }

/-! ### What SQLite answers -/

/-- The query engine, as far as it decides over JSON text and row order:
    `like data field pattern` and `compare data field op value` are the truth of
    a clause on the extracted field, `orderBy` sorts a result set. -/
structure Sqlite where
  like : Value → String → String → Bool
  compare : Value → String → SqlOperator → RowQueryBind → Bool
  orderBy : String → List DataRow → List DataRow
  orderBy_perm : ∀ orderSql rows, (orderBy orderSql rows).Perm rows

/-- An engine that returns rows in insertion order, as SQLite does for rows of
    one second, and that is never asked about JSON. -/
def insertionOrder : Sqlite where
  like _ _ _ := false
  compare _ _ _ _ := false
  orderBy _ rows := rows
  orderBy_perm _ rows := .refl rows

/-- One clause on one row with the values bound to its placeholders.  A
    comparison with `NULL` is not true. -/
def WhereClause.holds (engine : Sqlite) (row : DataRow) : WhereClause → List RowQueryBind → Bool
  | .appId, [.text v] => row.appId == v
  | .tableId, [.text v] => row.tableId == v
  | .ownerUserId, [.text v] => row.ownerUserId == some v
  | .like field, [.text pattern] => engine.like row.data field pattern
  | .anyLike fields, binds =>
      (fields.zip binds).any fun e =>
        match e.2 with
        | .text pattern => engine.like row.data e.1 pattern
        | _ => false
  | .compare field op, [value] => engine.compare row.data field op value
  | .always, [] => true
  | _, _ => false

/-- The conjunction of the clauses; placeholders take their values in order. -/
def whereHolds (engine : Sqlite) (row : DataRow) : List WhereClause → List RowQueryBind → Bool
  | [], _ => true
  | clause :: rest, binds =>
      clause.holds engine row (binds.take clause.arity) &&
        whereHolds engine row rest (binds.drop clause.arity)

def matchingRows (engine : Sqlite) (db : Db) (query : RowQuery) : List DataRow :=
  db.dataRows.select fun row => whereHolds engine row query.whereClauses query.binds

/-- `LIMIT ? OFFSET ?`: a negative limit is no limit, a negative offset is zero. -/
def pageOf (limit offset : Int) (rows : List DataRow) : List DataRow :=
  let rest := rows.drop offset.toNat
  if limit < 0 then rest else rest.take limit.toNat

/-! ### Queries without a filter -/

/-- Only limit and offset are given. -/
def pageParams (limit offset : Option UInt64) : ListRowsParams :=
  { limit := limit, offset := offset }

theorem asI64_of_lt {n : UInt64} (h : n.toNat < 2 ^ 63) : asI64 n = n.toNat := by
  rw [asI64, if_pos h]

theorem mem_pageOf_of_mem {rows : List DataRow} {row : DataRow} (h : row ∈ rows)
    (hlen : rows.length < 2 ^ 63) :
    ∃ offset : UInt64, row ∈ pageOf (asI64 (UInt64.ofNat MAX_LIST_ROWS)) (asI64 offset) rows := by
  obtain ⟨i, hi, rfl⟩ := List.mem_iff_getElem.mp h
  have hnat : (UInt64.ofNat i).toNat = i := by
    rw [UInt64.toNat_ofNat']
    exact Nat.mod_eq_of_lt (by omega)
  have hoffset : asI64 (UInt64.ofNat i) = i := by
    rw [asI64_of_lt (by omega), hnat]
  have hlimit : asI64 (UInt64.ofNat MAX_LIST_ROWS) = 50 := by decide
  refine ⟨UInt64.ofNat i, ?_⟩
  rw [pageOf, hoffset, hlimit]
  simp only [Int.toNat_natCast, if_neg (by decide : ¬ ((50 : Int) < 0))]
  rw [List.mem_iff_getElem]
  refine ⟨0, ?_, ?_⟩
  · simp only [List.length_take, List.length_drop]
    have : (50 : Int).toNat = 50 := rfl
    omega
  · simp

theorem mem_of_mem_pageOf {limit offset : Int} {rows : List DataRow} {row : DataRow}
    (h : row ∈ pageOf limit offset rows) : row ∈ rows := by
  unfold pageOf at h
  dsimp only at h
  split at h
  · exact List.mem_of_mem_drop h
  · exact List.mem_of_mem_drop (List.mem_of_mem_take h)

end Peanut
