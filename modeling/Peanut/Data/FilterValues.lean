import Peanut.Data.JsonColumns

/-!
# Filters for stored values

What a field may store and what a filter may ask for are judged by two
validators, `validate_field_value` and `validate_filter_value`.  For texts,
integers and booleans they agree: the text of a stored value is accepted and its
filter finds the rows that store it.  A stored datetime is an RFC 3339 text, the
filter for it has to parse as a number, and no text is both.
-/

namespace Peanut

/-! ### Decimal texts -/

theorem isAsciiDigit_of_mem_toDigits {n : Nat} {c : Char} (hc : c ∈ Nat.toDigits 10 n) :
    isAsciiDigit c = true := by
  have hdigit := Nat.isDigit_of_mem_toDigits (by decide) (by decide) hc
  rw [Char.isDigit_iff_toNat] at hdigit
  rw [isAsciiDigit, Bool.and_eq_true, decide_eq_true_eq, decide_eq_true_eq]
  exact hdigit

/-- `parse::<i64>` reads back what `to_string` writes. -/
theorem parseI64_toString {n : Int} (hlow : -(2 ^ 63) ≤ n) (hhigh : n < 2 ^ 63) :
    parseI64 (toString n) = some n := by
  have hdigits : ∀ k : Nat, (Nat.toDigits 10 k).all isAsciiDigit = true := fun k =>
    List.all_eq_true.mpr fun c hc => isAsciiDigit_of_mem_toDigits hc
  have hvalue : ∀ k : Nat,
      (Nat.toDigits 10 k).foldl (fun n c => 10 * n + (c.toNat - '0'.toNat)) 0 = k := fun k =>
    Nat.ofDigitChars_ten_toDigits
  have hrange : (decide (-(2 ^ 63) ≤ n) && decide (n < 2 ^ 63)) = true := by
    rw [Bool.and_eq_true, decide_eq_true_eq, decide_eq_true_eq]
    exact ⟨hlow, hhigh⟩
  cases n with
  | ofNat k =>
    have htext : (toString (Int.ofNat k)).toList = Nat.toDigits 10 k := Nat.toList_repr
    obtain ⟨d, ds, hds⟩ := List.exists_cons_of_ne_nil (Nat.toDigits_ne_nil (n := k) (b := 10))
    have hd : isAsciiDigit d = true :=
      isAsciiDigit_of_mem_toDigits (by rw [hds]; exact List.mem_cons_self)
    have hall := hdigits k
    have hfold := hvalue k
    rw [hds] at htext hall hfold
    unfold parseI64
    rw [htext]
    -- the first character is a digit, so it is no sign
    split
    · rename_i heq
      cases heq
      exact absurd hd (by decide)
    · rename_i heq
      cases heq
      exact absurd hd (by decide)
    · dsimp only
      rw [if_pos ⟨List.cons_ne_nil d ds, hall⟩, hfold]
      simp only [Option.pure_def, Option.bind_eq_bind, Option.bind_some, Option.map_some]
      exact Option.filter_some_pos hrange
  | negSucc k =>
    have htext : (toString (Int.negSucc k)).toList = '-' :: Nat.toDigits 10 (k + 1) := by
      rw [show toString (Int.negSucc k) = "-" ++ Nat.repr (k + 1) from rfl, String.toList_append,
        Nat.toList_repr]
      rfl
    unfold parseI64
    rw [htext]
    split
    · rename_i cs heq
      obtain rfl := (List.cons.inj heq).2
      dsimp only
      rw [if_pos ⟨Nat.toDigits_ne_nil, hdigits (k + 1)⟩, hvalue]
      simp only [Option.pure_def, Option.bind_eq_bind, Option.bind_some, Option.map_some]
      exact Option.filter_some_pos hrange
    · rename_i heq
      cases heq
    · rename_i hminus _
      exact absurd rfl (hminus _)

/-! ### The text of a stored value -/

/-- How a request writes a text, an integer or a boolean; other values have no
    filter text. -/
def Value.filterText : Value → Option String
  | .string s => some s
  | .number n => n.asI64.map fun k => toString k
  | .bool b => some (if b then "true" else "false")
  | _ => none

theorem Number.isI64_iff {n : Number} :
    n.isI64 = true ↔ ∃ k, n.asI64 = some k ∧ -(2 ^ 63) ≤ k ∧ k < 2 ^ 63 := by
  cases n with
  | posInt n =>
    rw [Number.isI64, decide_eq_true_eq, Number.asI64]
    constructor
    · intro h
      rw [if_pos h]
      exact ⟨n.toNat, rfl, by omega, by omega⟩
    · rintro ⟨k, hk, -, -⟩
      split at hk
      · assumption
      · cases hk
  | negInt n => exact ⟨fun _ => ⟨n.toInt, rfl, n.le_toInt, n.toInt_lt⟩, fun _ => rfl⟩
  | float bits => simp [Number.isI64, Number.asI64]

/-- The request that asks for rows with this value. -/
def filterParams (field op text : String) : ListRowsParams :=
  { filterField := some field, filterOp := some op, filterValue := some text }

variable {pf : Platform} {engine : Sqlite} {schema : DataTableSchema} {field : String}
  {spec : DataFieldSpec} {stored : Value}

theorem filterParams_accepted {op text : String} (hspec : schema.fields.get? field = some spec) :
    validateListRowsParams pf schema (filterParams field op text) = .ok () ↔
      filterOpSupported spec.fieldType op = true ∧ validateFilterValue pf spec text = .ok () := by
  rw [validateListRowsParams_eq_ok]
  simp [filterParams, validateFilter, hspec, Outcome.require, Outcome.bind_eq_ok,
    Outcome.ensure_eq_ok]

/-- A filter for equality with the text of a stored value is accepted and finds
    every row that stores it. -/
def FoundByItsText (pf : Platform) (engine : Sqlite) (schema : DataTableSchema) (field : String)
    (stored : Value) : Prop :=
  ∃ text, stored.filterText = some text ∧
    validateListRowsParams pf schema (filterParams field "eq" text) = .ok () ∧
    ∀ row : DataRow, row.data.member field = some stored →
      row.selected pf engine schema (filterParams field "eq" text) = true

theorem foundByItsText_of_bind (hengine : engine.Documented)
    (hschema : validateSchema pf schema = .ok ()) (hspec : schema.fields.get? field = some spec)
    {text : String} {scalar : SqlValue} {bind : RowQueryBind}
    (htext : stored.filterText = some text) (hop : filterOpSupported spec.fieldType "eq" = true)
    (haccepted : validateFilterValue pf spec text = .ok ())
    (hclause : buildFilterClause pf field spec "eq" text = (.compare field .eq, some bind))
    (hstored : stored.sqlScalar = some scalar) (hbind : bind.sqlValue = some scalar) :
    FoundByItsText pf engine schema field stored := by
  refine ⟨text, htext, (filterParams_accepted hspec).mpr ⟨hop, haccepted⟩, fun row hmember => ?_⟩
  have hname := validateSchema_names hschema (schema.fields.containsKey_iff.mpr ⟨spec, hspec⟩)
  rw [filterParams, selected_filter hspec, hclause]
  exact (hengine.compare_scalar hname hmember hstored hbind).trans (beq_self_eq_true scalar)

theorem string_foundByItsText (hengine : engine.Documented)
    (hschema : validateSchema pf schema = .ok ()) (hspec : schema.fields.get? field = some spec)
    (htype : spec.fieldType = .string) (hvalid : validateFieldValue pf field spec stored = .ok ()) :
    FoundByItsText pf engine schema field stored := by
  rw [validateFieldValue, htype] at hvalid
  obtain ⟨text, htext, -⟩ := Outcome.bind_eq_ok.mp hvalid
  cases stored with
  | string s =>
    exact foundByItsText_of_bind hengine hschema hspec rfl (by rw [htype]; rfl)
      (by rw [validateFilterValue, htype]) (by rw [buildFilterClause, htype]) rfl rfl
  | _ => cases htext

theorem integer_foundByItsText (hengine : engine.Documented)
    (hschema : validateSchema pf schema = .ok ()) (hspec : schema.fields.get? field = some spec)
    (htype : spec.fieldType = .integer)
    (hvalid : validateFieldValue pf field spec stored = .ok ()) :
    FoundByItsText pf engine schema field stored := by
  rw [validateFieldValue, htype, Outcome.ensure_eq_ok] at hvalid
  cases stored with
  | number n =>
    obtain ⟨k, hk, hlow, hhigh⟩ := Number.isI64_iff.mp hvalid
    have hparse := parseI64_toString hlow hhigh
    have htext : (Value.number n).filterText = some (toString k) := by
      rw [Value.filterText, hk]
      rfl
    have hscalar : (Value.number n).sqlScalar = some (.integer k) := by
      rw [Value.sqlScalar, hk]
      rfl
    have hclause : buildFilterClause pf field spec "eq" (toString k) =
        (.compare field .eq, some (.int k)) := by
      rw [buildFilterClause, htype]
      dsimp only
      rw [hparse]
      rfl
    refine foundByItsText_of_bind hengine hschema hspec htext (by rw [htype]; rfl) ?_ hclause
      hscalar rfl
    rw [validateFilterValue, htype, Outcome.ensure_eq_ok, hparse]
    rfl
  | _ => cases hvalid

theorem boolean_foundByItsText (hengine : engine.Documented)
    (hschema : validateSchema pf schema = .ok ()) (hspec : schema.fields.get? field = some spec)
    (htype : spec.fieldType = .boolean)
    (hvalid : validateFieldValue pf field spec stored = .ok ()) :
    FoundByItsText pf engine schema field stored := by
  rw [validateFieldValue, htype, Outcome.ensure_eq_ok] at hvalid
  cases stored with
  | bool b =>
    have hparse : parseBoolFilter (if b then "true" else "false") = some b := by
      cases b <;> rfl
    have hclause : buildFilterClause pf field spec "eq" (if b then "true" else "false") =
        (.compare field .eq, some (.bool b)) := by
      rw [buildFilterClause, htype]
      dsimp only
      rw [hparse]
      rfl
    refine foundByItsText_of_bind hengine hschema hspec rfl (by rw [htype]; rfl) ?_ hclause rfl rfl
    rw [validateFilterValue, htype, Outcome.ensure_eq_ok, hparse]
    rfl
  | _ => cases hvalid

/-! ### Datetimes -/

/-- The two grammars: every RFC 3339 text has colons between hours, minutes and
    seconds, and no text of a number has one. -/
structure Platform.TimesAreNoNumbers (pf : Platform) : Prop where
  rfc3339 : ∀ text, pf.parseRfc3339 text = true → ':' ∈ text.toList
  f64 : ∀ text bits, pf.parseF64 text = some bits → ':' ∉ text.toList

theorem datetime_filter_refused (hplatform : pf.TimesAreNoNumbers)
    (hspec : schema.fields.get? field = some spec) (htype : spec.fieldType = .datetime)
    {op text : String} (htext : pf.parseRfc3339 text = true) :
    validateListRowsParams pf schema (filterParams field op text) ≠ .ok () := by
  intro h
  obtain ⟨-, hvalue⟩ := (filterParams_accepted hspec).mp h
  rw [validateFilterValue, htype, Outcome.ensure_eq_ok] at hvalue
  obtain ⟨bits, hbits⟩ := Option.isSome_iff_exists.mp hvalue
  exact hplatform.f64 text bits hbits (hplatform.rfc3339 text htext)

/-- The order that an operator asks for, on points in time. -/
def SqlOperator.ofTimes (a b : Int) : SqlOperator → Prop
  | .eq => a = b
  | .ne => a ≠ b
  | .gt => b < a
  | .gte => b ≤ a
  | .lt => a < b
  | .lte => a ≤ b

/-- The comparisons with a stored datetime are accepted, and select the rows
    whose datetime stands in that order to it. -/
def OrderedByInstant (pf : Platform) (engine : Sqlite) (instant : String → Int)
    (schema : DataTableSchema) (field : String) (spec : DataFieldSpec) (text : String) : Prop :=
  ∀ op ∈ ["gt", "gte", "lt", "lte"],
    validateListRowsParams pf schema (filterParams field op text) = .ok () ∧
    ∀ (row : DataRow) (other : String), row.data.member field = some (.string other) →
      validateFieldValue pf field spec (.string other) = .ok () →
      (row.selected pf engine schema (filterParams field op text) = true ↔
        (sqlOperator op).ofTimes (instant other) (instant text))

/-! ### Which values can be filtered for -/

/-- A stored value can be filtered for: by equality, and where it is a datetime
    by the four comparisons too. -/
structure Filterable (pf : Platform) (engine : Sqlite) (instant : String → Int)
    (schema : DataTableSchema) (field : String) (spec : DataFieldSpec) (stored : Value) :
    Prop where
  found : FoundByItsText pf engine schema field stored
  ordered : spec.fieldType = .datetime → ∀ text, stored = .string text →
    OrderedByInstant pf engine instant schema field spec text

theorem validateFieldValue_datetime (htype : spec.fieldType = .datetime) :
    validateFieldValue pf field spec stored = .ok () ↔
      ∃ text, stored = .string text ∧ pf.parseRfc3339 text = true := by
  cases stored <;>
    simp [validateFieldValue, htype, Value.asStr, Outcome.require, Outcome.ensure_eq_ok]

/-- **A stored value can be filtered for exactly when** its field is no
    datetime. -/
theorem stored_value_filterable_iff (hengine : engine.Documented)
    (hplatform : pf.TimesAreNoNumbers) (instant : String → Int)
    (hschema : validateSchema pf schema = .ok ()) (hspec : schema.fields.get? field = some spec)
    (htype : spec.fieldType ∈ [.string, .integer, .boolean, .datetime])
    (hvalid : validateFieldValue pf field spec stored = .ok ()) :
    Filterable pf engine instant schema field spec stored ↔ spec.fieldType ≠ .datetime := by
  constructor
  · rintro ⟨⟨text, htext, haccepted, -⟩, -⟩ hdatetime
    obtain ⟨_, rfl, hrfc⟩ := (validateFieldValue_datetime hdatetime).mp hvalid
    cases htext
    exact datetime_filter_refused hplatform hspec hdatetime hrfc haccepted
  · intro hnot
    refine ⟨?_, fun hdatetime => absurd hdatetime hnot⟩
    simp only [List.mem_cons, List.not_mem_nil, or_false] at htype
    rcases htype with hstring | hinteger | hboolean | hdatetime
    · exact string_foundByItsText hengine hschema hspec hstring hvalid
    · exact integer_foundByItsText hengine hschema hspec hinteger hvalid
    · exact boolean_foundByItsText hengine hschema hspec hboolean hvalid
    · exact absurd hdatetime hnot

def eventStart : String := "2024-01-01T00:00:00Z"

/-- Knows one datetime and no number. -/
def eventPlatform : Platform :=
  { asciiPlatform with parseRfc3339 := fun text => text == eventStart }

def eventSchema : DataTableSchema :=
  { fields := ⟨[("starts_at", { fieldType := .datetime })], by decide⟩ }

/-- The start of an event is stored and cannot be filtered for. -/
theorem event_start_refused :
    validateFieldValue eventPlatform "starts_at" { fieldType := .datetime } (.string eventStart) =
        .ok () ∧
      validateListRowsParams eventPlatform eventSchema (filterParams "starts_at" "eq" eventStart) =
        .error "filter_value must be numeric for number/datetime fields" := by
  refine ⟨?_, rfl⟩
  have hknown : eventPlatform.parseRfc3339 eventStart = true := beq_self_eq_true eventStart
  rw [validateFieldValue_datetime rfl]
  exact ⟨eventStart, rfl, hknown⟩

theorem eventPlatform_timesAreNoNumbers : eventPlatform.TimesAreNoNumbers where
  rfc3339 := by
    intro text htext
    obtain rfl : text = eventStart := eq_of_beq htext
    decide
  f64 := by
    intro _ _ hbits
    cases hbits

/-- A title can be filtered for, and the start of an event cannot. -/
theorem title_filterable_start_not :
    Filterable eventPlatform jsonColumns (fun _ => 0) todoSchema "title" { fieldType := .string }
        (.string "Milk") ∧
      ¬ Filterable eventPlatform jsonColumns (fun _ => 0) eventSchema "starts_at"
        { fieldType := .datetime } (.string eventStart) := by
  constructor
  · exact (stored_value_filterable_iff jsonColumns_documented eventPlatform_timesAreNoNumbers
      (fun _ => 0) rfl rfl (by decide) (by decide)).mpr (by decide)
  · intro h
    refine (stored_value_filterable_iff jsonColumns_documented eventPlatform_timesAreNoNumbers
      (fun _ => 0) rfl rfl (by decide) ?_).mp h rfl
    exact (validateFieldValue_datetime rfl).mpr ⟨eventStart, rfl, beq_self_eq_true eventStart⟩

end Peanut
