import Peanut.Data.Access

/-!
# Schemas and row data

The checks of `internal.rs` and `query.rs` that relate row data to a schema:
which schemas are accepted, which values a field takes, how row data is
normalised (unknown keys refused, defaults filled in) and which schema may
replace which.

The loop of `normalize_row_data` is described once, at the level of lookups:
`normalizeRowData_eq_ok` says when it succeeds and `normalizeRowData_lookup`
what the result holds under each key.
-/

namespace Peanut

/-! ### Accepted schemas -/

def validateTableName (name : String) : Except String Unit := do
  Outcome.ensure (name != "") "name is required"
  Outcome.ensure (len name ≤ 64) "name must be 64 characters or fewer"
  Outcome.ensure (charsAll (fun ch => isAsciiLowercase ch || isAsciiDigit ch || ch == '_') name)
    "name may only contain lowercase letters, digits, and underscores"

/-- Does the value have the type the field declares? -/
def validateFieldValue (pf : Platform) (fieldName : String) (spec : DataFieldSpec)
    (value : Value) : Except String Unit :=
  match spec.fieldType with
  | .string => do
      let text ← Outcome.require value.asStr s!"field '{fieldName}' must be a string"
      match spec.maxLength with
      | some maxLength =>
          Outcome.ensure (len text ≤ maxLength.toNat) s!"field '{fieldName}' exceeds max_length"
      | none => .ok ()
  | .integer => Outcome.ensure value.isI64 s!"field '{fieldName}' must be an integer"
  | .number => Outcome.ensure value.isNumber s!"field '{fieldName}' must be a number"
  | .boolean => Outcome.ensure value.isBoolean s!"field '{fieldName}' must be a boolean"
  | .datetime => do
      let text ← Outcome.require value.asStr s!"field '{fieldName}' must be a datetime string"
      Outcome.ensure (pf.parseRfc3339 text) s!"field '{fieldName}' must be RFC3339 datetime"
  | .json => .ok ()
  | .relation | .file => do
      let text ← Outcome.require value.asStr s!"field '{fieldName}' must be a string"
      Outcome.ensure (text != "") s!"field '{fieldName}' must not be empty"
  | .unknown _ => .error s!"field '{fieldName}' has unsupported type"

/-- `as_deref().map(str::trim).filter(|value| !value.is_empty())`. -/
def trimmedNonEmpty (s : Option String) : Option String := (s.map trim).filter (· != "")

/-- The `match` on the declared type inside the loop of `validate_schema`. -/
def validateFieldType (e : String × DataFieldSpec) : Except String Unit :=
  match e.2.fieldType with
  | .string | .integer | .number | .boolean | .datetime | .json => .ok ()
  | .relation => do
      let relationTable ← Outcome.require (trimmedNonEmpty e.2.relationTable)
        s!"field '{e.1}' of type relation requires relation_table"
      (validateTableName relationTable).mapError
        fun message => s!"field '{e.1}' relation_table is invalid: {message}"
  | .file =>
      Outcome.ensure (trimmedNonEmpty e.2.fileBucket).isSome
        s!"field '{e.1}' of type file requires file_bucket"
  | .unknown _ => .error s!"field '{e.1}' has unsupported type"

def validateSchemaField (pf : Platform) (e : String × DataFieldSpec) : Except String Unit := do
  Outcome.ensure (e.1 != "") "field names must not be empty"
  Outcome.ensure (charsAll (fun ch => isAsciiLowercase ch || isAsciiDigit ch || ch == '_') e.1)
    s!"field '{e.1}' is invalid"
  validateFieldType e
  match e.2.default with
  | some value => validateFieldValue pf e.1 e.2 value
  | none => .ok ()

def validateSchema (pf : Platform) (schema : DataTableSchema) : Except String Unit := do
  Outcome.ensure (!schema.fields.entries.isEmpty) "schema must define at least one field"
  Outcome.checkAll (validateSchemaField pf) schema.fields.entries

variable {pf : Platform} {schema : DataTableSchema} {e : String × DataFieldSpec}

theorem validateSchema_entry (h : validateSchema pf schema = .ok ())
    (he : e ∈ schema.fields.entries) : validateSchemaField pf e = .ok () := by
  simp only [validateSchema, Outcome.bind_eq_ok, Outcome.ensure_eq_ok] at h
  obtain ⟨_, -, hall⟩ := h
  exact Outcome.checkAll_eq_ok.mp hall e he

theorem validateSchema_field {name : String}
    {spec : DataFieldSpec} (h : validateSchema pf schema = .ok ())
    (hspec : schema.fields.get? name = some spec) : validateSchemaField pf (name, spec) = .ok () :=
  validateSchema_entry h (schema.fields.mem_of_get? hspec)

theorem validateSchemaField_ok (h : validateSchemaField pf e = .ok ()) :
    e.1 ≠ "" ∧
      charsAll (fun ch => isAsciiLowercase ch || isAsciiDigit ch || ch == '_') e.1 = true ∧
      validateFieldType e = .ok () ∧
      ∀ value, e.2.default = some value → validateFieldValue pf e.1 e.2 value = .ok () := by
  simp only [validateSchemaField, Outcome.bind_eq_ok, Outcome.ensure_eq_ok] at h
  obtain ⟨_, hne, _, hchars, _, htype, hdefault⟩ := h
  refine ⟨bne_iff_ne.mp hne, hchars, htype, ?_⟩
  intro value hv
  rw [hv] at hdefault
  exact hdefault

theorem validateSchema_default (h : validateSchema pf schema = .ok ())
    (he : e ∈ schema.fields.entries) {value : Value} (hv : e.2.default = some value) :
    validateFieldValue pf e.1 e.2 value = .ok () := by
  obtain ⟨-, -, -, hdefault⟩ := validateSchemaField_ok (validateSchema_entry h he)
  exact hdefault value hv

/-! ### Normalising row data -/

def valueToObject (value : Value) (errorMessage : String) : Except String JsonMap :=
  match value with
  | .object map => .ok map
  | _ => .error errorMessage

theorem valueToObject_eq_ok {value : Value} {message : String} {m : JsonMap} :
    valueToObject value message = .ok m ↔ value = .object m := by
  cases value <;> simp [valueToObject]

/-- The loop over the declared fields: `input` loses the fields already handled
    and `output` collects the result. -/
def normalizeFields (pf : Platform) (allowPartial : Bool) :
    List (String × DataFieldSpec) → JsonMap → JsonMap → Except String JsonMap
  | [], _, output => .ok output
  | (fieldName, spec) :: rest, input, output =>
      match input.get? fieldName with
      | some value => do
          validateFieldValue pf fieldName spec value
          normalizeFields pf allowPartial rest (input.remove fieldName)
            (output.insert fieldName value)
      | none =>
          if allowPartial then normalizeFields pf allowPartial rest input output
          else
            match spec.default with
            | some value =>
                normalizeFields pf allowPartial rest input (output.insert fieldName value)
            | none =>
                if spec.required then .error s!"field '{fieldName}' is required"
                else normalizeFields pf allowPartial rest input output

def normalizeRowData (pf : Platform) (schema : DataTableSchema) (data : Value)
    (allowPartial : Bool) : Except String Value := do
  let input ← valueToObject data "data must be a JSON object"
  Outcome.checkAll
    (fun key => Outcome.ensure (schema.fields.containsKey key) s!"unknown field '{key}'")
    (OrderedMap.keys input)
  let output ← normalizeFields pf allowPartial schema.fields.entries input []
  return .object output

/-- The default the schema has for a field. -/
def DataTableSchema.defaultOf (schema : DataTableSchema) (field : String) : Option Value :=
  (schema.fields.get? field).bind (·.default)

/-- What the loop asks of one declared field: a present value has the field's
    type, an absent one has a default or is not required. -/
def FieldFits (pf : Platform) (e : String × DataFieldSpec) (value : Option Value) : Prop :=
  match value with
  | some v => validateFieldValue pf e.1 e.2 v = .ok ()
  | none => e.2.default.isSome ∨ e.2.required = false

@[simp] theorem fieldFits_some {v : Value} :
    FieldFits pf e (some v) ↔ validateFieldValue pf e.1 e.2 v = .ok () := Iff.rfl

@[simp] theorem fieldFits_none :
    FieldFits pf e none ↔ e.2.default.isSome ∨ e.2.required = false := Iff.rfl

theorem get?_remove_of_ne {m : JsonMap} {k k' : String} (h : k' ≠ k) :
    (m.remove k).get? k' = m.get? k' :=
  OrderedMap.lookup_erase_of_ne h

theorem get?_insert (m : JsonMap) (k k' : String) (v : Value) :
    (m.insert k v).get? k' = if k' = k then some v else m.get? k' :=
  OrderedMap.lookup_insert strLt m k k' v

/-- **When the loop succeeds.**  The fields are handled independently of each
    other: no field name occurs twice, so removing a handled field never hides
    a later one. -/
theorem normalizeFields_succeeds {fields : List (String × DataFieldSpec)}
    (hnd : (OrderedMap.keys fields).Nodup) {input output : JsonMap} :
    (∃ o, normalizeFields pf false fields input output = .ok o) ↔
      ∀ e ∈ fields, FieldFits pf e (input.get? e.1) := by
  induction fields generalizing input output with
  | nil => simp [normalizeFields]
  | cons e rest ih =>
    obtain ⟨name, spec⟩ := e
    rw [OrderedMap.keys_cons, List.nodup_cons] at hnd
    have hne : ∀ e ∈ rest, e.1 ≠ name := by
      intro e he heq
      exact hnd.1 (heq ▸ List.mem_map.mpr ⟨e, he, rfl⟩)
    rw [List.forall_mem_cons, normalizeFields]
    cases hget : input.get? name with
    | some v =>
      have hrest : (∀ e ∈ rest, FieldFits pf e ((input.remove name).get? e.1)) ↔
          ∀ e ∈ rest, FieldFits pf e (input.get? e.1) := by
        refine forall_congr' fun e => forall_congr' fun he => ?_
        rw [get?_remove_of_ne (hne e he)]
      have htail : (∃ o, normalizeFields pf false rest (input.remove name)
          (output.insert name v) = .ok o) ↔ ∀ e ∈ rest, FieldFits pf e (input.get? e.1) :=
        (ih hnd.2).trans hrest
      simp only [Outcome.bind_eq_ok, fieldFits_some]
      rw [← htail]
      constructor
      · rintro ⟨o, u, hv, ho⟩; exact ⟨hv, o, ho⟩
      · rintro ⟨hv, o, ho⟩; exact ⟨o, (), hv, ho⟩
    | none =>
      simp only [fieldFits_none, Bool.false_eq_true, if_false]
      cases hdefault : spec.default with
      | some d => simp only [Option.isSome_some, true_or, true_and]; exact ih hnd.2
      | none =>
        by_cases hreq : spec.required
        · simp [hreq]
        · simp only [hreq, Option.isSome_none, Bool.false_eq_true, false_or, true_and, if_false]
          exact ih hnd.2

/-- **What the loop builds.**  Under a declared field stands the given value or
    else the default; other keys are as the accumulator had them. -/
theorem normalizeFields_lookup {fields : List (String × DataFieldSpec)}
    (hnd : (OrderedMap.keys fields).Nodup) {input output o : JsonMap}
    (h : normalizeFields pf false fields input output = .ok o) (k : String) :
    o.get? k =
      match fields.lookup k with
      | some spec => (input.get? k).or (spec.default.or (output.get? k))
      | none => output.get? k := by
  induction fields generalizing input output with
  | nil => simp only [normalizeFields, Except.ok.injEq] at h; subst h; rfl
  | cons e rest ih =>
    obtain ⟨name, spec⟩ := e
    rw [OrderedMap.keys_cons, List.nodup_cons] at hnd
    have hrest : rest.lookup name = none := OrderedMap.lookup_eq_none_of_not_mem hnd.1
    rw [OrderedMap.lookup_cons_eq]
    rw [normalizeFields] at h
    -- the accumulator is changed at `name` only, and the rest never declares `name`
    cases hget : input.get? name with
    | some v =>
      rw [hget] at h
      obtain ⟨_, -, htail⟩ := Outcome.bind_eq_ok.mp h
      have key := ih hnd.2 htail
      by_cases hk : k = name
      · subst hk
        rw [key, hrest, get?_insert]
        simp [hget]
      · rw [key, get?_insert, if_neg hk, if_neg hk, get?_remove_of_ne hk]
    | none =>
      rw [hget] at h
      simp only [Bool.false_eq_true, if_false] at h
      cases hdefault : spec.default with
      | some d =>
        rw [hdefault] at h
        have key := ih hnd.2 h
        by_cases hk : k = name
        · subst hk
          rw [key, hrest, get?_insert]
          simp [hget, hdefault]
        · rw [key, get?_insert, if_neg hk, if_neg hk]
      | none =>
        rw [hdefault] at h
        by_cases hreq : spec.required
        · simp [hreq] at h
        · simp only [hreq, Bool.false_eq_true, if_false] at h
          have key := ih hnd.2 h
          by_cases hk : k = name
          · subst hk
            rw [key, hrest]
            simp [hget, hdefault]
          · rw [key, if_neg hk]

/-- **When row data is accepted** (without `allow_partial`): it is an object,
    all its keys are declared, and every declared field fits. -/
theorem normalizeRowData_succeeds {data : Value} :
    (∃ o, normalizeRowData pf schema data false = .ok o) ↔
      ∃ m : JsonMap, data = .object m ∧
        (∀ k v, m.get? k = some v → ∃ spec, schema.fields.get? k = some spec) ∧
        ∀ e ∈ schema.fields.entries, FieldFits pf e (m.get? e.1) := by
  have hkeys : ∀ m : JsonMap,
      Outcome.checkAll (fun key => Outcome.ensure (schema.fields.containsKey key)
          s!"unknown field '{key}'") (OrderedMap.keys m) = .ok () ↔
        ∀ k v, m.get? k = some v → ∃ spec, schema.fields.get? k = some spec := by
    intro m
    simp only [Outcome.checkAll_eq_ok, Outcome.ensure_eq_ok, BTreeMap.containsKey_iff,
      ← OrderedMap.lookup_isSome_iff_mem_keys, Option.isSome_iff_exists]
    constructor
    · intro h k v hv
      exact h k ⟨v, hv⟩
    · rintro h k ⟨v, hv⟩
      exact h k v hv
  simp only [normalizeRowData, Outcome.bind_eq_ok, valueToObject_eq_ok]
  constructor
  · rintro ⟨o, m, rfl, ⟨⟩, hk, out, hout, -⟩
    exact ⟨m, rfl, (hkeys m).mp hk,
      (normalizeFields_succeeds schema.fields.nodup_keys).mp ⟨out, hout⟩⟩
  · rintro ⟨m, rfl, hk, hfits⟩
    obtain ⟨out, hout⟩ : ∃ out, normalizeFields pf false schema.fields.entries m [] = .ok out :=
      (normalizeFields_succeeds schema.fields.nodup_keys).mpr hfits
    exact ⟨.object out, m, rfl, (), (hkeys m).mpr hk, out, hout, rfl⟩

/-- What normalised row data holds: the given value or the default of each
    declared field, and nothing else. -/
theorem normalizeRowData_lookup {data o : Value}
    (h : normalizeRowData pf schema data false = .ok o) :
    ∃ m out : JsonMap, data = .object m ∧ o = .object out ∧
      ∀ k, out.get? k = match schema.fields.get? k with
        | some spec => (m.get? k).or spec.default
        | none => none := by
  simp only [normalizeRowData, Outcome.bind_eq_ok, valueToObject_eq_ok] at h
  obtain ⟨m, rfl, _, -, out, hout, heq⟩ := h
  cases heq
  refine ⟨m, out, rfl, rfl, fun k => ?_⟩
  rw [normalizeFields_lookup schema.fields.nodup_keys hout k]
  simp only [BTreeMap.get?, JsonMap.get?, List.lookup_nil, Option.or_none]

/-! ### Conformity -/

/-- A row of a table conforms when the table's schema accepts its data in full. -/
def Conforms (pf : Platform) (schema : DataTableSchema) (data : Value) : Prop :=
  ∃ o, normalizeRowData pf schema data false = .ok o

theorem Conforms.isObject {data : Value}
    (h : Conforms pf schema data) : ∃ m : JsonMap, data = .object m := by
  obtain ⟨m, hm, -⟩ := normalizeRowData_succeeds.mp h
  exact ⟨m, hm⟩

/-- **Normalised data conforms.**  Normalising only adds defaults, and an
    accepted schema has checked its defaults against their own fields. -/
theorem conforms_normalizeRowData {data o : Value} (hschema : validateSchema pf schema = .ok ())
    (h : normalizeRowData pf schema data false = .ok o) : Conforms pf schema o := by
  obtain ⟨m, out, rfl, rfl, hlookup⟩ := normalizeRowData_lookup h
  obtain ⟨m', hm', -, hfits⟩ := normalizeRowData_succeeds.mp ⟨_, h⟩
  cases hm'
  refine normalizeRowData_succeeds.mpr ⟨out, rfl, ?_, ?_⟩
  · intro k v hv
    rw [hlookup k] at hv
    cases hspec : schema.fields.get? k with
    | some spec => exact ⟨spec, rfl⟩
    | none => rw [hspec] at hv; cases hv
  · intro e he
    have hspec : schema.fields.get? e.1 = some e.2 := schema.fields.get?_of_mem he
    have hout : out.get? e.1 = (m.get? e.1).or e.2.default := by rw [hlookup e.1, hspec]
    rw [hout]
    have hfit := hfits e he
    cases hget : m.get? e.1 with
    | some v =>
      rw [hget] at hfit
      exact hfit
    | none =>
      rw [hget, fieldFits_none] at hfit
      cases hdefault : e.2.default with
      | some d => exact validateSchema_default hschema he hdefault
      | none =>
        simp only [hdefault, Option.isSome_none, Bool.false_eq_true, false_or] at hfit
        exact fieldFits_none.mpr (.inr hfit)

/-! ### Replacing a schema -/

def validateSchemaEvolution (existing updated : DataTableSchema) (rowCount : Int) :
    Except String Unit := do
  Outcome.checkAll
    (fun e : String × DataFieldSpec =>
      match updated.fields.get? e.1 with
      | none =>
          Outcome.ensure (!(decide (rowCount > 0)))
            s!"cannot remove field '{e.1}' after rows have been stored"
      | some updatedField =>
          Outcome.ensure (!(decide (rowCount > 0) && e.2.fieldType != updatedField.fieldType))
            s!"cannot change field '{e.1}' type from {e.2.fieldType.text} to {updatedField.fieldType.text}")
    existing.fields.entries
  if rowCount > 0 then
    Outcome.checkAll
      (fun e : String × DataFieldSpec =>
        if existing.fields.containsKey e.1 then .ok ()
        else
          Outcome.ensure (!(e.2.required && e.2.default.isNone))
            s!"new required field '{e.1}' must define a default before it can be added to a table with existing rows")
      updated.fields.entries
  else .ok ()

/-- The three lists are read off maps in key order, so the `sort` calls of the
    source leave them as they are. -/
def schemaDiffPreview (existing updated : DataTableSchema) : SchemaDiffPreview :=
  { addedFields := (OrderedMap.keys updated.fields.entries).filter
      fun k => !existing.fields.containsKey k
    removedFields := (OrderedMap.keys existing.fields.entries).filter
      fun k => !updated.fields.containsKey k
    changedFields := existing.fields.entries.filterMap fun e =>
      match updated.fields.get? e.1 with
      | some updatedField => if updatedField != e.2 then some e.1 else none
      | none => none }

end Peanut
