import Peanut.Library.Placeholders
import Peanut.Data.Query

/-!
# The text of a row query

`build_row_query` as the source writes it: clause texts and values are pushed
side by side by seven steps, most of them optional.  The query so built is the
one of `buildRowQuery`; its text gives every value to the clause it was pushed
for; and the text depends on which parameters are there, not on what they say.
-/

namespace Peanut

open Placeholders

/-! ### The query as it is built -/

/-- `where_clauses` and `binds` while they are pushed. -/
structure QueryParts where
  whereClauses : List String
  binds : List RowQueryBind

def QueryParts.push (q : QueryParts) (clause : String) (binds : List RowQueryBind) : QueryParts :=
  { whereClauses := q.whereClauses ++ [clause], binds := q.binds ++ binds }

def startQuery (appId tableId : String) : QueryParts :=
  { whereClauses := ["app_id = ?", "table_id = ?"], binds := [.text appId, .text tableId] }

def pushOwner (ownerUserId : Option String) (q : QueryParts) : QueryParts :=
  match ownerUserId with
  | some owner => q.push "owner_user_id = ?" [.text owner]
  | none => q

/-- One traversal of the schema writes the clause, a second one counts the values. -/
def pushSearch (schema : DataTableSchema) (search : Option String) (q : QueryParts) : QueryParts :=
  match search with
  | some search =>
      let stringFields :=
        (schema.fields.entries.filter isStringField).map fun e => jsonExtractExpr e.1
      if !stringFields.isEmpty then
        let clause := String.intercalate " OR " (stringFields.map fun expr => s!"{expr} LIKE ?")
        let count :=
          ((schema.fields.entries.map Prod.snd).filter fun spec => spec.fieldType == .string).length
        q.push s!"({clause})" (List.replicate count (.text s!"%{search}%"))
      else q
  | none => q

def pushTitle (titleContains : Option String) (q : QueryParts) : QueryParts :=
  match titleContains with
  | some title =>
      let expr := jsonExtractExpr "title"
      q.push s!"{expr} LIKE ?" [.text s!"%{title}%"]
  | none => q

def pushDone (done : Option Bool) (q : QueryParts) : QueryParts :=
  match done with
  | some done =>
      let expr := jsonExtractExpr "done"
      q.push s!"{expr} = ?" [.bool done]
  | none => q

def buildFilterClauseText (pf : Platform) (expr : String) (spec : DataFieldSpec)
    (op value : String) : String × Option RowQueryBind :=
  match spec.fieldType with
  | .string =>
      match op with
      | "eq" => (s!"{expr} = ?", some (.text value))
      | "ne" => (s!"{expr} != ?", some (.text value))
      | "contains" => (s!"{expr} LIKE ?", some (.text s!"%{value}%"))
      | "starts_with" => (s!"{expr} LIKE ?", some (.text s!"{value}%"))
      | "ends_with" => (s!"{expr} LIKE ?", some (.text s!"%{value}"))
      | _ => ("1 = 1", none)
  | .boolean =>
      let sqlOp := if op == "ne" then "!=" else "="
      (s!"{expr} {sqlOp} ?", some (.bool ((parseBoolFilter value).getD false)))
  | .integer => (s!"{expr} {(sqlOperator op).sql} ?", some (.int ((parseI64 value).getD 0)))
  | .number => (s!"{expr} {(sqlOperator op).sql} ?", some (.float ((pf.parseF64 value).getD 0)))
  | _ => (s!"{expr} {(sqlOperator op).sql} ?", some (.text value))

def pushFilter (pf : Platform) (schema : DataTableSchema) (params : ListRowsParams)
    (q : QueryParts) : QueryParts :=
  match params.filterField, params.filterOp, params.filterValue with
  | some field, some op, some value =>
      match schema.fields.get? field with
      | some spec =>
          let filter := buildFilterClauseText pf (jsonExtractExpr field) spec op value
          q.push filter.1 filter.2.toList
      | none => q
  | _, _, _ => q

/-- `RowQuery` with its texts. -/
structure RowQueryText where
  whereClauses : List String
  binds : List RowQueryBind
  orderSql : String
  limit : Int
  offset : Int

def buildRowQueryText (pf : Platform) (params : ListRowsParams) (schema : DataTableSchema)
    (appId tableId : String) (ownerUserId : Option String) : RowQueryText :=
  let q := pushFilter pf schema params (pushDone params.done (pushTitle params.titleContains
    (pushSearch schema params.search (pushOwner ownerUserId (startQuery appId tableId)))))
  { whereClauses := q.whereClauses
    binds := q.binds
    orderSql := rowQueryOrderSql params schema
    limit := asI64 (min (params.limit.getD (UInt64.ofNat MAX_LIST_ROWS))
      (UInt64.ofNat MAX_LIST_ROWS))
    offset := asI64 (params.offset.getD 0) }

def selectCount : String := "SELECT COUNT(*) FROM data_rows WHERE "

def selectRows : String :=
  "SELECT id, owner_user_id, data_json, created_at, updated_at FROM data_rows WHERE "

namespace RowQueryText

def whereSql (q : RowQueryText) : String := String.intercalate " AND " q.whereClauses

def countSql (q : RowQueryText) : String := selectCount ++ q.whereSql

def rowsSql (q : RowQueryText) : String :=
  selectRows ++ q.whereSql ++ " " ++ q.orderSql ++ " LIMIT ? OFFSET ?"

/-- The values handed to the row query; the count query gets `binds`. -/
def rowsBinds (q : RowQueryText) : List RowQueryBind := q.binds ++ [.int q.limit, .int q.offset]

end RowQueryText

/-! ### It is the query of `buildRowQuery` -/

/-- The parts that a list of clauses with their values amounts to. -/
def QueryParts.ofClauses (clauses : List (WhereClause × List RowQueryBind)) : QueryParts :=
  { whereClauses := clauses.map fun e => e.1.sql, binds := clauses.flatMap Prod.snd }

variable {clause : WhereClause}

theorem QueryParts.push_ofClauses (clauses : List (WhereClause × List RowQueryBind))
    {text : String} {binds : List RowQueryBind} (h : text = clause.sql) :
    (QueryParts.ofClauses clauses).push text binds =
      QueryParts.ofClauses (clauses ++ [(clause, binds)]) := by
  subst h
  simp [QueryParts.push, QueryParts.ofClauses]

theorem sql_compare (field : String) (op : SqlOperator) :
    (WhereClause.compare field op).sql = jsonExtractExpr field ++ (" " ++ op.sql ++ " ?") := by
  simp only [WhereClause.sql, String.append_assoc]
  rfl

variable {pf : Platform}

theorem buildFilterClause_other {field op value : String} {spec : DataFieldSpec}
    (htype : spec.fieldType = .string) (heq : op ≠ "eq") (hne : op ≠ "ne")
    (hcontains : op ≠ "contains") (hstarts : op ≠ "starts_with") (hends : op ≠ "ends_with") :
    buildFilterClause pf field spec op value = (.always, none) := by
  unfold buildFilterClause
  rw [htype]
  dsimp only
  split
  · exact (heq rfl).elim
  · exact (hne rfl).elim
  · exact (hcontains rfl).elim
  · exact (hstarts rfl).elim
  · exact (hends rfl).elim
  · rfl

theorem buildFilterClauseText_eq (pf : Platform) (field : String) (spec : DataFieldSpec)
    (op value : String) :
    buildFilterClauseText pf (jsonExtractExpr field) spec op value =
      ((buildFilterClause pf field spec op value).1.sql,
        (buildFilterClause pf field spec op value).2) := by
  have heq : s!"{jsonExtractExpr field} = ?" = (WhereClause.compare field .eq).sql :=
    (sql_compare field .eq).symm ▸ rfl
  have hne : s!"{jsonExtractExpr field} != ?" = (WhereClause.compare field .ne).sql :=
    (sql_compare field .ne).symm ▸ rfl
  unfold buildFilterClauseText
  cases htype : spec.fieldType with
  | string =>
    dsimp only
    split
    · unfold buildFilterClause
      rw [htype]
      exact Prod.ext heq rfl
    · unfold buildFilterClause
      rw [htype]
      exact Prod.ext hne rfl
    · unfold buildFilterClause
      rw [htype]
      rfl
    · unfold buildFilterClause
      rw [htype]
      rfl
    · unfold buildFilterClause
      rw [htype]
      rfl
    · rename_i heq hne hcontains hstarts hends
      rw [buildFilterClause_other htype heq hne hcontains hstarts hends]
      rfl
  | boolean =>
    unfold buildFilterClause
    rw [htype]
    dsimp only
    split
    · rfl
    · rfl
  | _ =>
    unfold buildFilterClause
    rw [htype]
    rfl

section Steps

variable (pf : Platform) (schema : DataTableSchema) (params : ListRowsParams)

theorem pushOwner_ofClauses (ownerUserId : Option String)
    (clauses : List (WhereClause × List RowQueryBind)) :
    pushOwner ownerUserId (QueryParts.ofClauses clauses) =
      QueryParts.ofClauses (clauses ++
        match ownerUserId with
        | some owner => [(.ownerUserId, [.text owner])]
        | none => []) := by
  cases ownerUserId with
  | none => simp [pushOwner]
  | some owner => exact QueryParts.push_ofClauses clauses rfl

theorem pushSearch_ofClauses (search : Option String)
    (clauses : List (WhereClause × List RowQueryBind)) :
    pushSearch schema search (QueryParts.ofClauses clauses) =
      QueryParts.ofClauses (clauses ++
        match search with
        | some search =>
            let stringFields := (schema.fields.entries.filter isStringField).map Prod.fst
            if stringFields.isEmpty then []
            else [(.anyLike stringFields, stringFields.map fun _ => .text s!"%{search}%")]
        | none => []) := by
  cases search with
  | none => simp [pushSearch]
  | some search =>
    have hcount : ((schema.fields.entries.map Prod.snd).filter
        fun spec => spec.fieldType == .string).length =
          (schema.fields.entries.filter isStringField).length := by
      rw [List.filter_map, List.length_map]
      rfl
    unfold pushSearch
    dsimp only
    rw [hcount]
    generalize hfields : schema.fields.entries.filter isStringField = fields
    cases fields with
    | nil => simp
    | cons e rest =>
      rw [if_pos (by simp), if_neg (by simp)]
      have htext : "(" ++ String.intercalate " OR " (((e :: rest).map
          fun e => jsonExtractExpr e.1).map fun expr => s!"{expr} LIKE ?") ++ ")" =
          (WhereClause.anyLike ((e :: rest).map Prod.fst)).sql := by
        rw [WhereClause.sql, List.map_map, List.map_map]
        rfl
      have hvalues : List.replicate (e :: rest).length (.text s!"%{search}%") =
          ((e :: rest).map Prod.fst).map fun _ => RowQueryBind.text s!"%{search}%" := by
        rw [List.map_const', List.length_map]
      exact (QueryParts.push_ofClauses clauses htext).trans
        (congrArg (fun values => QueryParts.ofClauses (clauses ++ [(_, values)])) hvalues)

theorem pushTitle_ofClauses (titleContains : Option String)
    (clauses : List (WhereClause × List RowQueryBind)) :
    pushTitle titleContains (QueryParts.ofClauses clauses) =
      QueryParts.ofClauses (clauses ++
        match titleContains with
        | some title => [(.like "title", [.text s!"%{title}%"])]
        | none => []) := by
  cases titleContains with
  | none => simp [pushTitle]
  | some title => exact QueryParts.push_ofClauses clauses rfl

theorem pushDone_ofClauses (done : Option Bool)
    (clauses : List (WhereClause × List RowQueryBind)) :
    pushDone done (QueryParts.ofClauses clauses) =
      QueryParts.ofClauses (clauses ++
        match done with
        | some done => [(.compare "done" .eq, [.bool done])]
        | none => []) := by
  cases done with
  | none => simp [pushDone]
  | some done => exact QueryParts.push_ofClauses clauses rfl

theorem pushFilter_ofClauses (clauses : List (WhereClause × List RowQueryBind)) :
    pushFilter pf schema params (QueryParts.ofClauses clauses) =
      QueryParts.ofClauses (clauses ++
        match params.filterField, params.filterOp, params.filterValue with
        | some field, some op, some value =>
            match schema.fields.get? field with
            | some spec =>
                let filter := buildFilterClause pf field spec op value
                [(filter.1, filter.2.toList)]
            | none => []
        | _, _, _ => []) := by
  unfold pushFilter
  split
  · split
    · dsimp only
      rw [buildFilterClauseText_eq]
      exact QueryParts.push_ofClauses clauses rfl
    · simp
  · simp

end Steps

/-- **Refinement.**  The texts and values pushed side by side are the clauses of
    `buildRowQuery` and their values. -/
theorem buildRowQueryText_eq (pf : Platform) (params : ListRowsParams) (schema : DataTableSchema)
    (appId tableId : String) (ownerUserId : Option String) :
    buildRowQueryText pf params schema appId tableId ownerUserId =
      { whereClauses := (rowQueryClauses pf params schema appId tableId ownerUserId).map
          fun e => e.1.sql
        binds := (buildRowQuery pf params schema appId tableId ownerUserId).binds
        orderSql := (buildRowQuery pf params schema appId tableId ownerUserId).orderSql
        limit := (buildRowQuery pf params schema appId tableId ownerUserId).limit
        offset := (buildRowQuery pf params schema appId tableId ownerUserId).offset } := by
  have hstart : startQuery appId tableId =
      QueryParts.ofClauses [(.appId, [.text appId]), (.tableId, [.text tableId])] := rfl
  unfold buildRowQueryText
  rw [hstart, pushOwner_ofClauses, pushSearch_ofClauses, pushTitle_ofClauses, pushDone_ofClauses,
    pushFilter_ofClauses]
  rfl

/-! ### Every value goes to its own clause -/

/-- A clause with its values in the places of its placeholders. -/
def WhereClause.bound : WhereClause → List RowQueryBind → List (Token RowQueryBind)
  | .appId, values => lit "app_id = ".toList ++ values.map .value
  | .tableId, values => lit "table_id = ".toList ++ values.map .value
  | .ownerUserId, values => lit "owner_user_id = ".toList ++ values.map .value
  | .like field, values => lit (jsonExtractExpr field ++ " LIKE ").toList ++ values.map .value
  | .anyLike fields, values =>
      lit "(".toList ++
        (lit " OR ".toList).intercalate ((fields.zip values).map
          fun e => lit (jsonExtractExpr e.1 ++ " LIKE ").toList ++ [.value e.2]) ++
        lit ")".toList
  | .compare field op, values =>
      lit (jsonExtractExpr field ++ " " ++ op.sql ++ " ").toList ++ values.map .value
  | .always, _ => lit "1 = 1".toList

/-- The field names in a clause. -/
def WhereClause.fieldNames : WhereClause → List String
  | .like field => [field]
  | .anyLike fields => fields
  | .compare field _ => [field]
  | _ => []

theorem inert_jsonExtractExpr {field : String} (h : Plain field.toList) :
    Inert.{0} (jsonExtractExpr field).toList := by
  have hprefix : "json_extract(data_json, '$.".toList =
      "json_extract(data_json, ".toList ++ quoteMark :: "$.".toList := by decide
  have hsuffix : "')".toList = quoteMark :: ")".toList := by decide
  have htext : (jsonExtractExpr field).toList = "json_extract(data_json, ".toList ++
      ((quoteMark :: (("$.".toList ++ field.toList) ++ [quoteMark])) ++ ")".toList) := by
    show ("json_extract(data_json, '$." ++ field ++ "')").toList = _
    rw [String.toList_append, String.toList_append, hprefix, hsuffix]
    simp only [List.append_assoc, List.cons_append, List.nil_append]
  have hopen : Plain "json_extract(data_json, ".toList := by decide
  have hpath : Plain "$.".toList := by decide
  have hclose : Plain ")".toList := by decide
  rw [htext]
  exact hopen.inert.append ((inert_literal (hpath.append h)).append hclose.inert)

theorem bindAll_slot {before : String} (h : Inert.{0} before.toList) (v : RowQueryBind) :
    bindAll false (before ++ "?").toList [v] = some (lit before.toList ++ [.value v]) := by
  rw [String.toList_append]
  exact h.bindAll_append (bindAll_mark v)

theorem inert_like {field : String} (h : Plain field.toList) :
    Inert.{0} (jsonExtractExpr field ++ " LIKE ").toList := by
  have hlike : Plain " LIKE ".toList := by decide
  rw [String.toList_append]
  exact (inert_jsonExtractExpr h).append hlike.inert

theorem inert_compare {field : String} (h : Plain field.toList) (op : SqlOperator) :
    Inert.{0} (jsonExtractExpr field ++ " " ++ op.sql ++ " ").toList := by
  have hblank : Plain " ".toList := by decide
  have hop : Plain op.sql.toList := by cases op <;> decide
  rw [String.toList_append, String.toList_append, String.toList_append]
  exact (((inert_jsonExtractExpr h).append hblank.inert).append hop.inert).append hblank.inert

theorem bindAll_anyLike {fields : List String} {values : List RowQueryBind}
    (hnames : ∀ field ∈ fields, Plain field.toList) (hlength : values.length = fields.length) :
    bindAll false (WhereClause.anyLike fields).sql.toList values =
      some ((WhereClause.anyLike fields).bound values) := by
  let like : String × RowQueryBind → List Char × List RowQueryBind × List (Token RowQueryBind) :=
    fun e => ((jsonExtractExpr e.1 ++ " LIKE " ++ "?").toList, [e.2],
      lit (jsonExtractExpr e.1 ++ " LIKE ").toList ++ [.value e.2])
  have hparts : ∀ p ∈ (fields.zip values).map like, bindAll false p.1 p.2.1 = some p.2.2 := by
    intro p hp
    obtain ⟨e, he, rfl⟩ := List.mem_map.mp hp
    exact bindAll_slot (inert_like (hnames e.1 (List.of_mem_zip he).1)) e.2
  have hsep : Plain " OR ".toList := by decide
  have hjoined := bindAll_intercalate hsep hparts
  have htexts : ((fields.zip values).map like).map (·.1) =
      (fields.map fun f => s!"{jsonExtractExpr f} LIKE ?").map String.toList := by
    calc ((fields.zip values).map like).map (·.1)
        = ((fields.zip values).map Prod.fst).map
            fun f => (s!"{jsonExtractExpr f} LIKE ?").toList := by
          rw [List.map_map, List.map_map]
          refine List.map_congr_left fun e _ => ?_
          show (jsonExtractExpr e.1 ++ " LIKE " ++ "?").toList = _
          rw [String.append_assoc]
          rfl
      _ = (fields.map fun f => s!"{jsonExtractExpr f} LIKE ?").map String.toList := by
          rw [List.map_fst_zip hlength.ge, List.map_map]
          rfl
  have hvalues : ((fields.zip values).map like).flatMap (·.2.1) = values := by
    calc ((fields.zip values).map like).flatMap (·.2.1)
        = (fields.zip values).flatMap fun e => [e.2] := by rw [List.flatMap_map]
      _ = (fields.zip values).map Prod.snd := List.flatMap_pure_eq_map _ _
      _ = values := List.map_snd_zip hlength.le
  rw [htexts, hvalues, ← String.toList_intercalate, List.map_map] at hjoined
  have hopen : Plain "(".toList := by decide
  have hclose : Plain ")".toList := by decide
  rw [WhereClause.sql, WhereClause.bound, String.toList_append, String.toList_append]
  have hend := bindAll_append hjoined (hclose.inert RowQueryBind)
  rw [List.append_nil] at hend
  rw [List.append_assoc, List.append_assoc]
  exact hopen.inert.bindAll_append hend

theorem bindAll_clause {values : List RowQueryBind}
    (hnames : ∀ field ∈ clause.fieldNames, Plain field.toList)
    (harity : values.length = clause.arity) :
    bindAll false clause.sql.toList values = some (clause.bound values) := by
  cases clause with
  | anyLike fields => exact bindAll_anyLike hnames harity
  | always =>
    have hnil : values = [] := List.eq_nil_of_length_eq_zero harity
    have hplain : Plain "1 = 1".toList := by decide
    rw [hnil]
    exact hplain.inert RowQueryBind
  | appId =>
    obtain ⟨v, rfl⟩ := List.length_eq_one_iff.mp harity
    have hplain : Plain "app_id = ".toList := by decide
    exact bindAll_slot hplain.inert v
  | tableId =>
    obtain ⟨v, rfl⟩ := List.length_eq_one_iff.mp harity
    have hplain : Plain "table_id = ".toList := by decide
    exact bindAll_slot hplain.inert v
  | ownerUserId =>
    obtain ⟨v, rfl⟩ := List.length_eq_one_iff.mp harity
    have hplain : Plain "owner_user_id = ".toList := by decide
    exact bindAll_slot hplain.inert v
  | like field =>
    obtain ⟨v, rfl⟩ := List.length_eq_one_iff.mp harity
    have hslot := bindAll_slot (inert_like (hnames field List.mem_cons_self)) v
    rw [String.append_assoc] at hslot
    exact hslot
  | compare field op =>
    obtain ⟨v, rfl⟩ := List.length_eq_one_iff.mp harity
    have hslot := bindAll_slot (inert_compare (hnames field List.mem_cons_self) op) v
    rw [String.append_assoc] at hslot
    exact hslot

/-! ### All the clauses of a query -/

section Query

variable {pf : Platform} {params : ListRowsParams} {schema : DataTableSchema}
  {appId tableId : String} {ownerUserId : Option String}

/-- **Rule for the clauses of a query**: seven steps, five of them optional. -/
theorem rowQueryClauses_rule {P : WhereClause → List RowQueryBind → Prop}
    (happ : P .appId [.text appId]) (htable : P .tableId [.text tableId])
    (howner : ∀ owner, ownerUserId = some owner → P .ownerUserId [.text owner])
    (hsearch : ∀ search, params.search = some search →
      P (.anyLike ((schema.fields.entries.filter isStringField).map Prod.fst))
        (((schema.fields.entries.filter isStringField).map Prod.fst).map
          fun _ => .text s!"%{search}%"))
    (htitle : ∀ title, params.titleContains = some title →
      P (.like "title") [.text s!"%{title}%"])
    (hdone : ∀ done, params.done = some done → P (.compare "done" .eq) [.bool done])
    (hfilter : ∀ field op value spec, params.filterField = some field →
      params.filterOp = some op → params.filterValue = some value →
      schema.fields.get? field = some spec →
      P (buildFilterClause pf field spec op value).1
        (buildFilterClause pf field spec op value).2.toList) :
    ∀ e ∈ rowQueryClauses pf params schema appId tableId ownerUserId, P e.1 e.2 := by
  intro e he
  simp only [rowQueryClauses, List.mem_append] at he
  rcases he with (((((he | he) | he) | he) | he) | he)
  · simp only [List.mem_cons, List.not_mem_nil, or_false] at he
    rcases he with rfl | rfl
    · exact happ
    · exact htable
  · cases ownerUserId with
    | none => cases he
    | some owner =>
      obtain rfl := List.mem_singleton.mp he
      exact howner owner rfl
  · cases hs : params.search with
    | none =>
      rw [hs] at he
      cases he
    | some search =>
      rw [hs] at he
      dsimp only at he
      split at he
      · cases he
      · obtain rfl := List.mem_singleton.mp he
        exact hsearch search hs
  · cases ht : params.titleContains with
    | none =>
      rw [ht] at he
      cases he
    | some title =>
      rw [ht] at he
      obtain rfl := List.mem_singleton.mp he
      exact htitle title ht
  · cases hd : params.done with
    | none =>
      rw [hd] at he
      cases he
    | some done =>
      rw [hd] at he
      obtain rfl := List.mem_singleton.mp he
      exact hdone done hd
  · split at he
    · rename_i field op value hfield hop hvalue
      split at he
      · rename_i spec hspec
        obtain rfl := List.mem_singleton.mp he
        exact hfilter field op value spec hfield hop hvalue hspec
      · cases he
    · cases he

theorem buildFilterClause_shape (field : String) (spec : DataFieldSpec) (op value : String) :
    (buildFilterClause pf field spec op value).2.toList.length =
        (buildFilterClause pf field spec op value).1.arity ∧
      ∀ name ∈ (buildFilterClause pf field spec op value).1.fieldNames, name = field := by
  unfold buildFilterClause
  cases spec.fieldType with
  | string =>
    dsimp only
    split <;> simp [WhereClause.arity, WhereClause.fieldNames]
  | _ => simp [WhereClause.arity, WhereClause.fieldNames]

theorem length_rowQueryClauses :
    ∀ e ∈ rowQueryClauses pf params schema appId tableId ownerUserId,
      e.2.length = e.1.arity := by
  refine rowQueryClauses_rule (P := fun clause values => values.length = clause.arity) rfl rfl
    (fun _ _ => rfl) ?_ (fun _ _ => rfl) (fun _ _ => rfl) ?_
  · intro search _
    rw [List.length_map]
    rfl
  · intro field op value spec _ _ _ _
    exact (buildFilterClause_shape field spec op value).1

/-- The fields of the clauses are declared, but for the two that have parameters
    of their own. -/
theorem fieldNames_rowQueryClauses :
    ∀ e ∈ rowQueryClauses pf params schema appId tableId ownerUserId,
      ∀ name ∈ e.1.fieldNames, schema.fields.containsKey name = true ∨
        name = "title" ∧ params.titleContains.isSome = true ∨
          name = "done" ∧ params.done.isSome = true := by
  refine rowQueryClauses_rule (P := fun clause _ => ∀ name ∈ clause.fieldNames,
    schema.fields.containsKey name = true ∨ name = "title" ∧ params.titleContains.isSome = true ∨
      name = "done" ∧ params.done.isSome = true) (by simp [WhereClause.fieldNames])
    (by simp [WhereClause.fieldNames]) (by simp [WhereClause.fieldNames]) ?_ ?_ ?_ ?_
  · intro search _ name hname
    obtain ⟨e, he, rfl⟩ := List.mem_map.mp hname
    exact .inl (schema.fields.containsKey_iff.mpr
      ⟨e.2, schema.fields.get?_of_mem (List.mem_filter.mp he).1⟩)
  · intro title htitle name hname
    exact .inr (.inl ⟨List.mem_singleton.mp hname, by rw [htitle]; rfl⟩)
  · intro done hdone name hname
    exact .inr (.inr ⟨List.mem_singleton.mp hname, by rw [hdone]; rfl⟩)
  · intro field op value spec _ _ _ hspec name hname
    rw [(buildFilterClause_shape field spec op value).2 name hname]
    exact .inl (schema.fields.containsKey_iff.mpr ⟨spec, hspec⟩)

end Query

/-- The alphabet of field names. -/
def isFieldNameChar (c : Char) : Bool := isAsciiLowercase c || isAsciiDigit c || c == '_'

variable {schema : DataTableSchema}

/-- The field names of an accepted schema are words over lowercase letters, digits
    and underscores. -/
theorem validateSchema_names (h : validateSchema pf schema = .ok ()) {name : String}
    (hname : schema.fields.containsKey name = true) : charsAll isFieldNameChar name = true := by
  obtain ⟨spec, hspec⟩ := schema.fields.containsKey_iff.mp hname
  exact (validateSchemaField_ok (validateSchema_field h hspec)).2.1

theorem plain_of_fieldName {name : String} (h : charsAll isFieldNameChar name = true) :
    Plain name.toList := by
  intro c hc
  have hchar := List.all_eq_true.mp h c hc
  constructor
  · rintro rfl
    revert hchar
    decide
  · rintro rfl
    revert hchar
    decide

/-- The `WHERE` of a query with every value in the place of a placeholder. -/
def boundWhere (pf : Platform) (params : ListRowsParams) (schema : DataTableSchema)
    (appId tableId : String) (ownerUserId : Option String) : List (Token RowQueryBind) :=
  (lit " AND ".toList).intercalate
    ((rowQueryClauses pf params schema appId tableId ownerUserId).map fun e => e.1.bound e.2)

theorem inert_orderSql (hschema : validateSchema pf schema = .ok ()) (params : ListRowsParams) :
    Inert.{0} (rowQueryOrderSql params schema).toList := by
  have hcreated : Plain "created_at".toList := by decide
  have hupdated : Plain "updated_at".toList := by decide
  have horder : Plain "ORDER BY ".toList := by decide
  have hblank : Plain " ".toList := by decide
  have hdirection : Plain (if params.order == some "asc" then "ASC" else "DESC").toList := by
    split <;> decide
  have hall : ∀ expr : String, Inert.{0} expr.toList → Inert.{0}
      ("ORDER BY " ++ expr ++ " " ++ if params.order == some "asc" then "ASC"
        else "DESC").toList := by
    intro expr hexpr
    rw [String.toList_append, String.toList_append, String.toList_append]
    exact ((horder.inert.append hexpr).append hblank.inert).append hdirection.inert
  unfold rowQueryOrderSql
  dsimp only
  refine hall _ ?_
  split
  · exact hcreated.inert
  · exact hcreated.inert
  · exact hupdated.inert
  · split
    · rename_i hdeclared
      exact inert_jsonExtractExpr (plain_of_fieldName (validateSchema_names hschema hdeclared))
    · exact hcreated.inert

/-- The clauses joined with `AND` take their values one clause after the other. -/
theorem bindAll_whereSql (hschema : validateSchema pf schema = .ok ()) (params : ListRowsParams)
    (appId tableId : String) (ownerUserId : Option String) :
    bindAll false (buildRowQueryText pf params schema appId tableId ownerUserId).whereSql.toList
        (buildRowQueryText pf params schema appId tableId ownerUserId).binds =
      some (boundWhere pf params schema appId tableId ownerUserId) := by
  let clauses := rowQueryClauses pf params schema appId tableId ownerUserId
  have hparts : ∀ p ∈ clauses.map fun e => (e.1.sql.toList, e.2, e.1.bound e.2),
      bindAll false p.1 p.2.1 = some p.2.2 := by
    intro p hp
    obtain ⟨e, he, rfl⟩ := List.mem_map.mp hp
    refine bindAll_clause ?_ (length_rowQueryClauses e he)
    intro field hfield
    rcases fieldNames_rowQueryClauses e he field hfield with hdeclared | ⟨rfl, -⟩ | ⟨rfl, -⟩
    · exact plain_of_fieldName (validateSchema_names hschema hdeclared)
    · decide
    · decide
  have hand : Plain " AND ".toList := by decide
  have hjoined := bindAll_intercalate hand hparts
  rw [List.map_map, List.map_map, List.flatMap_map] at hjoined
  rw [buildRowQueryText_eq, RowQueryText.whereSql, String.toList_intercalate, List.map_map]
  exact hjoined

theorem bindAll_countSql {q : RowQueryText} {bound : List (Token RowQueryBind)}
    (hwhere : bindAll false q.whereSql.toList q.binds = some bound) :
    bindAll false q.countSql.toList q.binds = some (lit selectCount.toList ++ bound) := by
  have hcount : Plain selectCount.toList := by decide
  rw [RowQueryText.countSql, String.toList_append]
  exact hcount.inert.bindAll_append hwhere

/-- The row query around any `WHERE` and any `ORDER BY`. -/
theorem bindAll_rowsSql {q : RowQueryText} {bound : List (Token RowQueryBind)}
    (hwhere : bindAll false q.whereSql.toList q.binds = some bound)
    (horder : Inert.{0} q.orderSql.toList) :
    bindAll false q.rowsSql.toList q.rowsBinds =
      some (lit selectRows.toList ++ bound ++ lit (" " ++ q.orderSql ++ " LIMIT ").toList ++
        [.value (.int q.limit)] ++ lit " OFFSET ".toList ++ [.value (.int q.offset)]) := by
  have hselect : Plain selectRows.toList := by decide
  have hblank : Plain " ".toList := by decide
  have hlimit : Plain " LIMIT ".toList := by decide
  have hoffset : Plain " OFFSET ".toList := by decide
  have hend : " LIMIT ? OFFSET ?".toList = " LIMIT ".toList ++ "?".toList ++
      (" OFFSET ".toList ++ "?".toList) := by decide
  have hbefore : Inert.{0} (" " ++ q.orderSql ++ " LIMIT ").toList := by
    rw [String.toList_append, String.toList_append]
    exact (hblank.inert.append horder).append hlimit.inert
  have htail := bindAll_append (bindAll_slot hbefore (.int q.limit))
    (bindAll_slot hoffset.inert (.int q.offset))
  have hall := hselect.inert.bindAll_append (bindAll_append hwhere htail)
  simp only [String.toList_append, List.append_assoc] at hall
  simp only [RowQueryText.rowsSql, RowQueryText.rowsBinds, String.toList_append, hend,
    List.append_assoc]
  exact hall

/-- **Query text and values stay aligned.**  Every clause gets the values it was
    pushed with; the limit and the offset come last. -/
theorem query_binds_aligned (pf : Platform) (schema : DataTableSchema)
    (hschema : validateSchema pf schema = .ok ()) (params : ListRowsParams)
    (appId tableId : String) (ownerUserId : Option String) :
    let query := buildRowQueryText pf params schema appId tableId ownerUserId
    let bound := boundWhere pf params schema appId tableId ownerUserId
    query.whereSql.toList.count '?' = query.binds.length ∧
      bindAll false query.whereSql.toList query.binds = some bound ∧
      bindAll false query.countSql.toList query.binds =
        some (lit selectCount.toList ++ bound) ∧
      bindAll false query.rowsSql.toList query.rowsBinds =
        some (lit selectRows.toList ++ bound ++ lit (" " ++ query.orderSql ++ " LIMIT ").toList ++
          [.value (.int query.limit)] ++ lit " OFFSET ".toList ++
          [.value (.int query.offset)]) := by
  have hwhere := bindAll_whereSql hschema params appId tableId ownerUserId
  exact ⟨(bindAll_sound hwhere).2.2, hwhere, bindAll_countSql hwhere,
    bindAll_rowsSql hwhere (inert_orderSql hschema params)⟩

/-! ### A list of todos -/

def todoSchema : DataTableSchema :=
  { fields := ⟨[("done", { fieldType := .boolean }), ("priority", { fieldType := .integer }),
      ("title", { fieldType := .string })], by decide⟩ }

def todoParams : ListRowsParams :=
  { limit := some 5, offset := some 10, orderBy := some "title", order := some "asc"
    search := some "buy", titleContains := some "milk", done := some false
    filterField := some "priority", filterOp := some "gte", filterValue := some "2" }

/-- All seven steps push a value. -/
theorem todo_placeholders :
    (buildRowQueryText asciiPlatform todoParams todoSchema "default" "table_123"
      (some "user_123")).whereSql.toList.count '?' = 7 := by
  rw [(query_binds_aligned asciiPlatform todoSchema rfl todoParams "default" "table_123"
    (some "user_123")).1]
  rfl

/-! ### The text does not depend on the values -/

/-- The same parameters are there, and those that name a column or an operator
    say the same. -/
structure SameShape (params params' : ListRowsParams) : Prop where
  search : params.search.isSome = params'.search.isSome
  titleContains : params.titleContains.isSome = params'.titleContains.isSome
  done : params.done.isSome = params'.done.isSome
  filterField : params.filterField = params'.filterField
  filterOp : params.filterOp = params'.filterOp
  filterValue : params.filterValue.isSome = params'.filterValue.isSome
  orderBy : params.orderBy = params'.orderBy
  order : params.order = params'.order

theorem buildFilterClause_fst (pf : Platform) (field : String) (spec : DataFieldSpec)
    (op value value' : String) :
    (buildFilterClause pf field spec op value).1 =
      (buildFilterClause pf field spec op value').1 := by
  unfold buildFilterClause
  cases spec.fieldType with
  | string =>
    dsimp only
    split <;> rfl
  | _ => rfl

theorem cases_of_isSome_eq {α : Type} {x x' : Option α} (h : x.isSome = x'.isSome) :
    x = none ∧ x' = none ∨ ∃ a a', x = some a ∧ x' = some a' := by
  cases x with
  | none =>
    cases x' with
    | none => exact .inl ⟨rfl, rfl⟩
    | some a' => cases h
  | some a =>
    cases x' with
    | none => cases h
    | some a' => exact .inr ⟨a, a', rfl, rfl⟩

theorem clauses_of_sameShape {pf : Platform} {params params' : ListRowsParams}
    (h : SameShape params params') (schema : DataTableSchema)
    {ownerUserId ownerUserId' : Option String} (howner : ownerUserId.isSome = ownerUserId'.isSome)
    (appId appId' tableId tableId' : String) :
    (rowQueryClauses pf params schema appId tableId ownerUserId).map Prod.fst =
      (rowQueryClauses pf params' schema appId' tableId' ownerUserId').map Prod.fst := by
  simp only [rowQueryClauses, List.map_append]
  congr 1
  · congr 1
    · congr 1
      · congr 1
        · congr 1
          rcases cases_of_isSome_eq howner with ⟨rfl, rfl⟩ | ⟨owner, owner', rfl, rfl⟩
          · rfl
          · rfl
        · rcases cases_of_isSome_eq h.search with ⟨hs, hs'⟩ | ⟨search, search', hs, hs'⟩
          · rw [hs, hs']
          · rw [hs, hs']
            dsimp only
            split <;> rfl
      · rcases cases_of_isSome_eq h.titleContains with ⟨ht, ht'⟩ | ⟨title, title', ht, ht'⟩
        · rw [ht, ht']
        · rw [ht, ht']
          rfl
    · rcases cases_of_isSome_eq h.done with ⟨hd, hd'⟩ | ⟨done, done', hd, hd'⟩
      · rw [hd, hd']
      · rw [hd, hd']
        rfl
  · rw [← h.filterField, ← h.filterOp]
    cases params.filterField with
    | none => rfl
    | some field =>
      cases params.filterOp with
      | none => rfl
      | some op =>
        rcases cases_of_isSome_eq h.filterValue with ⟨hv, hv'⟩ | ⟨value, value', hv, hv'⟩
        · rw [hv, hv']
        · rw [hv, hv']
          dsimp only
          cases schema.fields.get? field with
          | none => rfl
          | some spec =>
            exact congrArg (fun clause => [clause])
              (buildFilterClause_fst pf field spec op value value')

/-- The fixed texts a query is put together from. -/
def queryTemplates : List String :=
  ["app_id = ?", "table_id = ?", "owner_user_id = ?", " AND ", "(", " OR ", ")",
    "json_extract(data_json, '$.", "')", " LIKE ?", " ", "=", "!=", ">", ">=", "<", "<=", " ?",
    "1 = 1", "ORDER BY ", "created_at", "updated_at", "ASC", "DESC"]

/-- The text is put together from fixed texts and declared field names. -/
def MadeOf (schema : DataTableSchema) (text : String) : Prop :=
  ∃ pieces : List String, String.join pieces = text ∧
    ∀ piece ∈ pieces, piece ∈ queryTemplates ∨ schema.fields.containsKey piece = true

namespace MadeOf

variable {schema : DataTableSchema}

theorem template {text : String} (h : text ∈ queryTemplates) : MadeOf schema text := by
  refine ⟨[text], by simp, ?_⟩
  intro piece hpiece
  rw [List.mem_singleton.mp hpiece]
  exact .inl h

theorem field {name : String} (h : schema.fields.containsKey name = true) :
    MadeOf schema name := by
  refine ⟨[name], by simp, ?_⟩
  intro piece hpiece
  rw [List.mem_singleton.mp hpiece]
  exact .inr h

theorem append {s t : String} (hs : MadeOf schema s) (ht : MadeOf schema t) :
    MadeOf schema (s ++ t) := by
  obtain ⟨left, rfl, hleft⟩ := hs
  obtain ⟨right, rfl, hright⟩ := ht
  refine ⟨left ++ right, String.join_append, ?_⟩
  intro piece hpiece
  rcases List.mem_append.mp hpiece with hpiece | hpiece
  · exact hleft piece hpiece
  · exact hright piece hpiece

theorem intercalate {sep : String} (hsep : MadeOf schema sep) {parts : List String}
    (h : ∀ part ∈ parts, MadeOf schema part) : MadeOf schema (sep.intercalate parts) := by
  induction parts with
  | nil => exact ⟨[], by simp, by simp⟩
  | cons first rest ih =>
    rw [List.forall_mem_cons] at h
    cases rest with
    | nil =>
      rw [String.intercalate_singleton]
      exact h.1
    | cons next rest =>
      rw [String.intercalate_cons_cons]
      exact (h.1.append hsep).append (ih h.2)

end MadeOf

theorem madeOf_jsonExtractExpr {field : String}
    (h : schema.fields.containsKey field = true) : MadeOf schema (jsonExtractExpr field) :=
  ((MadeOf.template (by decide)).append (.field h)).append (.template (by decide))

theorem madeOf_clause (h : ∀ field ∈ clause.fieldNames, schema.fields.containsKey field = true) :
    MadeOf schema clause.sql := by
  cases clause with
  | appId => exact .template (by decide)
  | tableId => exact .template (by decide)
  | ownerUserId => exact .template (by decide)
  | always => exact .template (by decide)
  | like field =>
    exact (madeOf_jsonExtractExpr (h field List.mem_cons_self)).append (.template (by decide))
  | anyLike fields =>
    have hlike : ∀ part ∈ fields.map fun f => s!"{jsonExtractExpr f} LIKE ?",
        MadeOf schema part := by
      intro part hpart
      obtain ⟨field, hfield, rfl⟩ := List.mem_map.mp hpart
      exact (madeOf_jsonExtractExpr (h field hfield)).append (.template (by decide))
    exact ((MadeOf.template (by decide)).append
      (.intercalate (.template (by decide)) hlike)).append (.template (by decide))
  | compare field op =>
    have hop : op.sql ∈ queryTemplates := by cases op <;> decide
    have hfield := madeOf_jsonExtractExpr (h field List.mem_cons_self)
    exact ((hfield.append (.template (by decide))).append (.template hop)).append
      (.template (by decide))

theorem madeOf_orderSql (params : ListRowsParams) (schema : DataTableSchema) :
    MadeOf schema (rowQueryOrderSql params schema) := by
  have hdirection : (if params.order == some "asc" then "ASC" else "DESC") ∈ queryTemplates := by
    split <;> decide
  have hall : ∀ expr : String, MadeOf schema expr → MadeOf schema
      ("ORDER BY " ++ expr ++ " " ++ if params.order == some "asc" then "ASC" else "DESC") :=
    fun expr hexpr => (((MadeOf.template (by decide)).append hexpr).append
      (.template (by decide))).append (.template hdirection)
  unfold rowQueryOrderSql
  dsimp only
  refine hall _ ?_
  split
  · exact .template (by decide)
  · exact .template (by decide)
  · exact .template (by decide)
  · split
    · rename_i hdeclared
      exact madeOf_jsonExtractExpr hdeclared
    · exact .template (by decide)

/-- **User values never reach the SQL text.**  Two accepted requests of one shape
    have the same `WHERE` and `ORDER BY`, whatever they search for, and these are
    put together from fixed texts and declared field names. -/
theorem user_values_not_in_sql (pf : Platform) (schema : DataTableSchema)
    (hschema : validateSchema pf schema = .ok ()) (params params' : ListRowsParams)
    (haccepted : validateListRowsParams pf schema params = .ok ())
    (hshape : SameShape params params') (appId appId' tableId tableId' : String)
    (ownerUserId ownerUserId' : Option String)
    (howner : ownerUserId.isSome = ownerUserId'.isSome) :
    let query := buildRowQueryText pf params schema appId tableId ownerUserId
    let query' := buildRowQueryText pf params' schema appId' tableId' ownerUserId'
    query.whereSql = query'.whereSql ∧ query.orderSql = query'.orderSql ∧
      MadeOf schema query.whereSql ∧ MadeOf schema query.orderSql ∧
      ∀ name, schema.fields.containsKey name = true → charsAll isFieldNameChar name = true := by
  obtain ⟨-, -, -, -, hdone, htitle, -⟩ := validateListRowsParams_eq_ok.mp haccepted
  have hclauses := @clauses_of_sameShape pf params params' hshape schema ownerUserId ownerUserId'
    howner appId appId' tableId tableId'
  have htexts : ∀ p app table owner, (buildRowQueryText pf p schema app table owner).whereSql =
      String.intercalate " AND " (((rowQueryClauses pf p schema app table owner).map Prod.fst).map
        WhereClause.sql) := by
    intro p app table owner
    rw [buildRowQueryText_eq, RowQueryText.whereSql, List.map_map]
    rfl
  refine ⟨?_, ?_, ?_, ?_, fun name => validateSchema_names hschema⟩
  · rw [htexts, htexts, hclauses]
  · show rowQueryOrderSql params schema = rowQueryOrderSql params' schema
    rw [rowQueryOrderSql, rowQueryOrderSql, hshape.orderBy, hshape.order]
  · rw [htexts]
    refine MadeOf.intercalate (.template (by decide)) ?_
    intro part hpart
    obtain ⟨clause, hclause, rfl⟩ := List.mem_map.mp hpart
    obtain ⟨e, he, rfl⟩ := List.mem_map.mp hclause
    refine madeOf_clause fun field hfield => ?_
    rcases fieldNames_rowQueryClauses e he field hfield with hdeclared | ⟨rfl, hsome⟩ | ⟨rfl, hsome⟩
    · exact hdeclared
    · exact htitle hsome
    · exact hdone hsome
  · exact madeOf_orderSql params schema

/-- Another search for todos, by another user, is the same text. -/
theorem todo_text_same :
    (buildRowQueryText asciiPlatform todoParams todoSchema "default" "table_123"
        (some "user_123")).whereSql =
      (buildRowQueryText asciiPlatform
        { todoParams with search := some "' OR 1 = 1", titleContains := some "?",
                          filterValue := some "3" }
        todoSchema "other" "t" (some "u")).whereSql := by
  have hshape : SameShape todoParams
      { todoParams with search := some "' OR 1 = 1", titleContains := some "?",
                        filterValue := some "3" } :=
    ⟨rfl, rfl, rfl, rfl, rfl, rfl, rfl, rfl⟩
  exact (user_values_not_in_sql asciiPlatform todoSchema rfl todoParams _ rfl hshape
    "default" "other" "table_123" "t" (some "user_123") (some "u") rfl).1

end Peanut
