import Peanut.Library.Wildcards
import Peanut.Data.QueryText

/-!
# What SQLite documents about JSON columns

`json_extract` answers a stored scalar as an integer or as text, `LIKE` without
`ESCAPE` reads `%` as any run of characters and `_` as any one and takes ASCII
letters without regard to case, and comparisons are numeric on integers and
bytewise on text.  `Sqlite.Documented` is what the theorems on filters ask of
an engine, `jsonColumns` an engine that computes it.
-/

namespace Peanut

open Wildcards

/-! ### `LIKE` -/

def likePiece (c : Char) : Piece Char :=
  if c = '%' then .many else if c = '_' then .one else .letter c

def likePattern (text : String) : List (Piece Char) := text.toList.map likePiece

def likeMatches (pattern text : String) : Bool :=
  accepts asciiToLower (likePattern pattern) text.toList

/-! ### Comparisons -/

/-- The integers and texts of SQLite. -/
inductive SqlValue where
  | integer (n : Int)
  | text (s : String)
deriving DecidableEq, Repr

/-- There is no type of booleans. -/
def SqlValue.ofBool (b : Bool) : SqlValue := .integer (if b then 1 else 0)

/-- `Number::as_i64`. -/
def Number.asI64 : Number → Option Int
  | .posInt n => if n.toNat < 2 ^ 63 then some n.toNat else none
  | .negInt n => some n.toInt
  | .float _ => none

/-- A stored value that is neither a double, nor null, nor nested. -/
def Value.sqlScalar : Value → Option SqlValue
  | .bool b => some (.ofBool b)
  | .number n => n.asI64.map .integer
  | .string s => some (.text s)
  | _ => none

def RowQueryBind.sqlValue : RowQueryBind → Option SqlValue
  | .text value => some (.text value)
  | .bool value => some (.ofBool value)
  | .int value => some (.integer value)
  | .float _ => none

/-- Numbers come before texts. -/
def SqlValue.lt : SqlValue → SqlValue → Bool
  | .integer a, .integer b => decide (a < b)
  | .integer _, .text _ => true
  | .text _, .integer _ => false
  | .text a, .text b => strLt a b

def SqlOperator.holds (a b : SqlValue) : SqlOperator → Bool
  | .eq => a == b
  | .ne => a != b
  | .gt => b.lt a
  | .gte => !a.lt b
  | .lt => a.lt b
  | .lte => !b.lt a

/-! ### Engines -/

structure Sqlite.Documented (engine : Sqlite) : Prop where
  like_text : ∀ {data field pattern text}, charsAll isFieldNameChar field = true →
    data.member field = some (.string text) →
    engine.like data field pattern = likeMatches pattern text
  like_absent : ∀ {data field pattern}, charsAll isFieldNameChar field = true →
    data.member field = none → engine.like data field pattern = false
  compare_scalar : ∀ {data field op bind value stored given},
    charsAll isFieldNameChar field = true → data.member field = some value →
    value.sqlScalar = some stored → bind.sqlValue = some given →
    engine.compare data field op bind = op.holds stored given

/-- Other values than scalars compare with nothing here; rows come in insertion
    order. -/
def jsonColumns : Sqlite where
  like data field pattern :=
    match data.member field with
    | some (.string text) => likeMatches pattern text
    | _ => false
  compare data field op bind :=
    match (data.member field).bind Value.sqlScalar, bind.sqlValue with
    | some stored, some given => op.holds stored given
    | _, _ => false
  orderBy _ rows := rows
  orderBy_perm _ rows := .refl rows

theorem jsonColumns_documented : jsonColumns.Documented where
  like_text _ h := by simp [jsonColumns, h]
  like_absent _ h := by simp [jsonColumns, h]
  compare_scalar _ hvalue hstored hgiven := by simp [jsonColumns, hvalue, hstored, hgiven]

/-! ### The clauses of a query on a row -/

variable {row : DataRow}

theorem whereHolds_clauses {engine : Sqlite} {clauses : List (WhereClause × List RowQueryBind)}
    (harity : ∀ e ∈ clauses, e.2.length = e.1.arity) :
    whereHolds engine row (clauses.map Prod.fst) (clauses.flatMap Prod.snd) = true ↔
      ∀ e ∈ clauses, e.1.holds engine row e.2 = true := by
  induction clauses with
  | nil => simp [whereHolds]
  | cons e clauses ih =>
    have hlen := harity e List.mem_cons_self
    rw [List.map_cons, List.flatMap_cons, whereHolds, ← hlen, List.take_left, List.drop_left,
      Bool.and_eq_true, ih fun e' he' => harity e' (List.mem_cons_of_mem e he'),
      List.forall_mem_cons]

/-- The clauses that the parameters add to those of app, table and owner. -/
def paramClauses (pf : Platform) (params : ListRowsParams) (schema : DataTableSchema) :
    List (WhereClause × List RowQueryBind) :=
  (rowQueryClauses pf params schema "" "" none).drop 2

/-- Does the row satisfy them? -/
def DataRow.selected (pf : Platform) (engine : Sqlite) (schema : DataTableSchema)
    (params : ListRowsParams) (row : DataRow) : Bool :=
  (paramClauses pf params schema).all fun e => e.1.holds engine row e.2

variable {pf : Platform} {engine : Sqlite} {schema : DataTableSchema} {params : ListRowsParams}

theorem rowQueryClauses_none (appId tableId : String) :
    rowQueryClauses pf params schema appId tableId none =
      (.appId, [.text appId]) :: (.tableId, [.text tableId]) :: paramClauses pf params schema :=
  rfl

theorem rowQueryClauses_some (appId tableId owner : String) :
    rowQueryClauses pf params schema appId tableId (some owner) =
      (.appId, [.text appId]) :: (.tableId, [.text tableId]) :: (.ownerUserId, [.text owner]) ::
        paramClauses pf params schema :=
  rfl

theorem selected_filter {field op value : String} {spec : DataFieldSpec}
    (hspec : schema.fields.get? field = some spec) :
    row.selected pf engine schema
        { filterField := some field, filterOp := some op, filterValue := some value } =
      (buildFilterClause pf field spec op value).1.holds engine row
        (buildFilterClause pf field spec op value).2.toList := by
  simp [DataRow.selected, paramClauses, rowQueryClauses, hspec]

variable {appId tableId : String} {owner : Option String}

/-- The rows a query selects are those of its table and owner that satisfy the
    clauses of the parameters. -/
theorem mem_matchingRows {db : Db} :
    row ∈ matchingRows engine db (buildRowQuery pf params schema appId tableId owner) ↔
      row ∈ db.dataRows ∧ row.appId = appId ∧ row.tableId = tableId ∧
        (∀ o, owner = some o → row.ownerUserId = some o) ∧
        row.selected pf engine schema params = true := by
  have hclauses : whereHolds engine row
      (buildRowQuery pf params schema appId tableId owner).whereClauses
      (buildRowQuery pf params schema appId tableId owner).binds = true ↔
        ∀ e ∈ rowQueryClauses pf params schema appId tableId owner,
          e.1.holds engine row e.2 = true :=
    whereHolds_clauses length_rowQueryClauses
  rw [matchingRows, Relational.KeyedTable.mem_select, hclauses, DataRow.selected,
    List.all_eq_true]
  refine and_congr_right fun _ => ?_
  cases owner with
  | none =>
    rw [rowQueryClauses_none, List.forall_mem_cons, List.forall_mem_cons]
    simp only [WhereClause.holds, beq_iff_eq, reduceCtorEq, false_implies, implies_true, true_and]
  | some o =>
    rw [rowQueryClauses_some, List.forall_mem_cons, List.forall_mem_cons, List.forall_mem_cons]
    simp only [WhereClause.holds, beq_iff_eq, Option.some.injEq, forall_eq']

/-- Without filter parameters the query selects the rows of the table, or those
    of one owner. -/
theorem mem_matchingRows_page {db : Db} {limit offset : Option UInt64}
    :
    row ∈ matchingRows engine db
        (buildRowQuery pf (pageParams limit offset) schema appId tableId owner) ↔
      row ∈ db.dataRows ∧ row.appId = appId ∧ row.tableId = tableId ∧
        ∀ o, owner = some o → row.ownerUserId = some o := by
  have hselected : row.selected pf engine schema (pageParams limit offset) = true := rfl
  rw [mem_matchingRows, hselected]
  simp only [and_true]

/-- Any query of a table selects rows of the table, of the one owner if there is
    an owner filter. -/
theorem matchingRows_table {db : Db}
    (h : row ∈ matchingRows engine db (buildRowQuery pf params schema appId tableId owner)) :
    row ∈ db.dataRows ∧ row.tableId = tableId ∧ ∀ o, owner = some o → row.ownerUserId = some o := by
  obtain ⟨hrow, -, htable, howner, -⟩ := mem_matchingRows.mp h
  exact ⟨hrow, htable, howner⟩

end Peanut
