import Peanut.Data.Schema

/-!
# What normalising row data does

`normalize_row_data` against a declarative account of it: which documents a
schema takes, what the accepted document becomes, and what a schema that
replaces another one takes of the documents the old one took.
-/

namespace Peanut

variable {pf : Platform} {schema : DataTableSchema}

/-- The documents a schema takes: objects of declared fields, in which every
    present field has its type and every absent one has a default or is not
    required. -/
structure Acceptable (pf : Platform) (schema : DataTableSchema) (m : JsonMap) : Prop where
  declared : ∀ field v, m.get? field = some v → ∃ spec, schema.fields.get? field = some spec
  typed : ∀ field spec v, schema.fields.get? field = some spec → m.get? field = some v →
    validateFieldValue pf field spec v = .ok ()
  complete : ∀ field spec, schema.fields.get? field = some spec → m.get? field = none →
    spec.default.isSome ∨ spec.required = false

/-- The document `m` with the defaults of the fields it lacks, and nothing else. -/
structure ExtendedByDefaults (schema : DataTableSchema) (m out : JsonMap) : Prop where
  sorted : OrderedMap.Sorted strLt out
  lookup : ∀ field, out.get? field = (m.get? field).or (schema.defaultOf field)

theorem ExtendedByDefaults.unique {m out out' : JsonMap} (h : ExtendedByDefaults schema m out)
    (h' : ExtendedByDefaults schema m out') : out = out' :=
  JsonMap.ext_of_sorted h.sorted h'.sorted fun field =>
    (h.lookup field).trans (h'.lookup field).symm

/-! ### The loop -/

/-- The output is built with `insert`, so its entries are in key order. -/
theorem normalizeFields_sorted {fields : List (String × DataFieldSpec)} {input output o : JsonMap}
    (hsorted : OrderedMap.Sorted strLt output)
    (h : normalizeFields pf false fields input output = .ok o) : OrderedMap.Sorted strLt o := by
  induction fields generalizing input output with
  | nil =>
    cases h
    exact hsorted
  | cons e rest ih =>
    obtain ⟨name, spec⟩ := e
    rw [normalizeFields] at h
    cases hget : input.get? name with
    | some v =>
      rw [hget] at h
      obtain ⟨_, -, htail⟩ := Outcome.bind_eq_ok.mp h
      exact ih (JsonMap.sorted_insert hsorted name v) htail
    | none =>
      rw [hget] at h
      simp only [Bool.false_eq_true, if_false] at h
      cases hdefault : spec.default with
      | some d =>
        rw [hdefault] at h
        exact ih (JsonMap.sorted_insert hsorted name d) h
      | none =>
        rw [hdefault] at h
        by_cases hreq : spec.required
        · simp [hreq] at h
        · simp only [hreq, Bool.false_eq_true, if_false] at h
          exact ih hsorted h

theorem normalizeRowData_extends {data o : Value}
    (h : normalizeRowData pf schema data false = .ok o) :
    ∃ m out : JsonMap, data = .object m ∧ o = .object out ∧ ExtendedByDefaults schema m out := by
  obtain ⟨m, out, rfl, rfl, hlookup⟩ := normalizeRowData_lookup h
  refine ⟨m, out, rfl, rfl, ?_, ?_⟩
  · simp only [normalizeRowData, Outcome.bind_eq_ok, valueToObject_eq_ok] at h
    obtain ⟨m', -, _, -, out', hout, heq⟩ := h
    cases heq
    have hnil : OrderedMap.Sorted strLt ([] : JsonMap) := List.Pairwise.nil
    exact normalizeFields_sorted hnil hout
  · intro field
    rw [hlookup field, DataTableSchema.defaultOf]
    cases hspec : schema.fields.get? field with
    | some spec => rfl
    | none =>
      obtain ⟨m', hm, hdeclared, -⟩ := normalizeRowData_succeeds.mp ⟨_, h⟩
      cases hm
      cases hget : m.get? field with
      | none => rfl
      | some v =>
        obtain ⟨spec, hsome⟩ := hdeclared field v hget
        rw [hspec] at hsome
        cases hsome

theorem normalizeRowData_succeeds_iff {data : Value} :
    (∃ o, normalizeRowData pf schema data false = .ok o) ↔
      ∃ m : JsonMap, data = .object m ∧ Acceptable pf schema m := by
  rw [normalizeRowData_succeeds]
  refine exists_congr fun m => and_congr_right fun _ => ?_
  constructor
  · rintro ⟨hdeclared, hfits⟩
    refine ⟨hdeclared, ?_, ?_⟩
    · intro field spec v hspec hget
      have hfit := hfits (field, spec) (schema.fields.mem_of_get? hspec)
      rw [hget] at hfit
      exact hfit
    · intro field spec hspec hget
      have hfit := hfits (field, spec) (schema.fields.mem_of_get? hspec)
      rw [hget] at hfit
      exact hfit
  · rintro ⟨hdeclared, htyped, hcomplete⟩
    refine ⟨hdeclared, fun e he => ?_⟩
    have hspec : schema.fields.get? e.1 = some e.2 := schema.fields.get?_of_mem he
    cases hget : m.get? e.1 with
    | some v => exact htyped e.1 e.2 v hspec hget
    | none => exact hcomplete e.1 e.2 hspec hget

/-! ### The specification -/

/-- Normalising gives `o` exactly if the data is an acceptable object and `o` is
    that object extended by defaults. -/
theorem normalizeRowData_eq_ok {data o : Value} :
    normalizeRowData pf schema data false = .ok o ↔
      ∃ m out : JsonMap, data = .object m ∧ o = .object out ∧ Acceptable pf schema m ∧
        ExtendedByDefaults schema m out := by
  constructor
  · intro h
    obtain ⟨m, out, rfl, rfl, hextends⟩ := normalizeRowData_extends h
    obtain ⟨m', hm, hacceptable⟩ := normalizeRowData_succeeds_iff.mp ⟨_, h⟩
    cases hm
    exact ⟨m, out, rfl, rfl, hacceptable, hextends⟩
  · rintro ⟨m, out, rfl, rfl, hacceptable, hextends⟩
    obtain ⟨o, ho⟩ := normalizeRowData_succeeds_iff.mpr ⟨m, rfl, hacceptable⟩
    obtain ⟨m', out', hm, rfl, hextends'⟩ := normalizeRowData_extends ho
    cases hm
    rw [hextends.unique hextends']
    exact ho

theorem ExtendedByDefaults.again {m out : JsonMap} (h : ExtendedByDefaults schema m out) :
    ExtendedByDefaults schema out out := by
  refine ⟨h.sorted, fun field => ?_⟩
  rw [h.lookup field]
  cases m.get? field with
  | some v => rfl
  | none => cases schema.defaultOf field <;> rfl

/-- What an accepted schema makes of a document it takes, it takes: its defaults
    have passed the checks of their own fields. -/
theorem Acceptable.extended {m out : JsonMap} (hschema : validateSchema pf schema = .ok ())
    (h : Acceptable pf schema m) (hextends : ExtendedByDefaults schema m out) :
    Acceptable pf schema out := by
  refine ⟨?_, ?_, ?_⟩
  · intro field v hget
    rw [hextends.lookup field] at hget
    cases hspec : schema.fields.get? field with
    | some spec => exact ⟨spec, rfl⟩
    | none =>
      rw [DataTableSchema.defaultOf, hspec] at hget
      obtain ⟨spec, hsome⟩ := h.declared field v (by simpa using hget)
      rw [hspec] at hsome
      cases hsome
  · intro field spec v hspec hget
    rw [hextends.lookup field, DataTableSchema.defaultOf, hspec, Option.bind_some] at hget
    rcases Option.or_eq_some_iff.mp hget with hgiven | ⟨-, hdefault⟩
    · exact h.typed field spec v hspec hgiven
    · exact validateSchema_default hschema (schema.fields.mem_of_get? hspec) hdefault
  · intro field spec hspec hget
    rw [hextends.lookup field, DataTableSchema.defaultOf, hspec, Option.or_eq_none_iff] at hget
    exact h.complete field spec hspec hget.1

/-- **Row normalisation meets its specification.**  It gives `o` exactly for the
    acceptable objects of which `o` is the extension by defaults, and it leaves
    `o` as it is. -/
theorem normalization_spec (pf : Platform) (schema : DataTableSchema)
    (hschema : validateSchema pf schema = .ok ()) (v o : Value) :
    (normalizeRowData pf schema v false = .ok o ↔
        ∃ m out : JsonMap, v = .object m ∧ o = .object out ∧ Acceptable pf schema m ∧
          ExtendedByDefaults schema m out) ∧
      (normalizeRowData pf schema v false = .ok o →
        normalizeRowData pf schema o false = .ok o) := by
  refine ⟨normalizeRowData_eq_ok, fun h => ?_⟩
  obtain ⟨m, out, rfl, rfl, hacceptable, hextends⟩ := normalizeRowData_eq_ok.mp h
  exact normalizeRowData_eq_ok.mpr
    ⟨out, out, rfl, rfl, hacceptable.extended hschema hextends, hextends.again⟩

/-! ### A schema that replaces another -/

/-- What the evolution check establishes over stored rows: every field stays, with
    its type, and a new field can be absent. -/
theorem validateSchemaEvolution_ok {existing updated : DataTableSchema} {rowCount : Int}
    (hrows : rowCount > 0) (h : validateSchemaEvolution existing updated rowCount = .ok ()) :
    (∀ field spec, existing.fields.get? field = some spec →
        ∃ spec', updated.fields.get? field = some spec' ∧ spec.fieldType = spec'.fieldType) ∧
      ∀ field spec', updated.fields.get? field = some spec' → existing.fields.get? field = none →
        spec'.default.isSome ∨ spec'.required = false := by
  simp only [validateSchemaEvolution, Outcome.bind_eq_ok, if_pos hrows] at h
  obtain ⟨_, hkept, hadded⟩ := h
  refine ⟨?_, ?_⟩
  · intro field spec hspec
    have hfield := Outcome.checkAll_eq_ok.mp hkept (field, spec) (existing.fields.mem_of_get? hspec)
    dsimp only at hfield
    split at hfield
    · simp [hrows] at hfield
    · rename_i spec' hspec'
      exact ⟨spec', hspec', by simpa [hrows] using hfield⟩
  · intro field spec' hspec' hnew
    have hfield := Outcome.checkAll_eq_ok.mp hadded (field, spec')
      (updated.fields.mem_of_get? hspec')
    have habsent : existing.fields.containsKey field = false := by
      rw [← Bool.not_eq_true, BTreeMap.containsKey_iff]
      rintro ⟨spec, hspec⟩
      rw [hnew] at hspec
      cases hspec
    simp only [habsent, Bool.false_eq_true, if_false, Outcome.ensure_eq_ok, Bool.not_eq_true',
      Bool.and_eq_false_iff] at hfield
    rcases hfield with hoptional | hdefault
    · exact .inr hoptional
    · exact .inl (by simpa using hdefault)

/-- The two ways a field of both schemas can get tighter that the evolution check
    does not look at: a lower length bound, and a value that is newly demanded. -/
structure NotTightened (existing updated : DataTableSchema) : Prop where
  length : ∀ field spec spec', existing.fields.get? field = some spec →
    updated.fields.get? field = some spec' →
    spec'.maxLength = none ∨
      ∃ n n', spec.maxLength = some n ∧ spec'.maxLength = some n' ∧ n.toNat ≤ n'.toNat
  required : ∀ field spec spec', existing.fields.get? field = some spec →
    updated.fields.get? field = some spec' → spec'.required = true → spec'.default = none →
    spec.required = true ∧ spec.default = none

theorem validateFieldValue_mono {field : String} {spec spec' : DataFieldSpec} {v : Value}
    (htype : spec.fieldType = spec'.fieldType)
    (hlength : spec'.maxLength = none ∨
      ∃ n n', spec.maxLength = some n ∧ spec'.maxLength = some n' ∧ n.toNat ≤ n'.toNat)
    (h : validateFieldValue pf field spec v = .ok ()) :
    validateFieldValue pf field spec' v = .ok () := by
  unfold validateFieldValue at h ⊢
  rw [← htype]
  cases hfield : spec.fieldType with
  | string =>
    simp only [hfield, Outcome.bind_eq_ok, Outcome.require_eq_ok] at h ⊢
    obtain ⟨text, htext, hfits⟩ := h
    refine ⟨text, htext, ?_⟩
    rcases hlength with hnone | ⟨n, n', hn, hn', hle⟩
    · rw [hnone]
    · simp only [hn, hn', Outcome.ensure_eq_ok, decide_eq_true_eq] at hfits ⊢
      exact hfits.trans hle
  | json => rfl
  | _ => simpa only [hfield] using h

/-- **Schema evolution is sound.**  An accepted replacement over stored rows that
    tightens no field of both schemas takes every document the old schema took,
    and the two normal forms have the given value under every given field. -/
theorem evolution_sound (pf : Platform) (existing updated : DataTableSchema) (rowCount : Int)
    (hrows : rowCount > 0)
    (hevolution : validateSchemaEvolution existing updated rowCount = .ok ())
    (hnot : NotTightened existing updated) (v o : Value)
    (h : normalizeRowData pf existing v false = .ok o) :
    ∃ o', normalizeRowData pf updated v false = .ok o' ∧
      ∀ field, (v.member field).isSome = true → o'.member field = o.member field := by
  obtain ⟨hkept, hadded⟩ := validateSchemaEvolution_ok hrows hevolution
  obtain ⟨m, out, rfl, rfl, hold, hextends⟩ := normalizeRowData_eq_ok.mp h
  have hnew : Acceptable pf updated m := by
    refine ⟨?_, ?_, ?_⟩
    · intro field value hget
      obtain ⟨spec, hspec⟩ := hold.declared field value hget
      obtain ⟨spec', hspec', -⟩ := hkept field spec hspec
      exact ⟨spec', hspec'⟩
    · intro field spec' value hspec' hget
      obtain ⟨spec, hspec⟩ := hold.declared field value hget
      obtain ⟨_, hsame, htype⟩ := hkept field spec hspec
      cases hspec'.symm.trans hsame
      exact validateFieldValue_mono htype (hnot.length field spec spec' hspec hspec')
        (hold.typed field spec value hspec hget)
    · intro field spec' hspec' hget
      cases hspec : existing.fields.get? field with
      | none => exact hadded field spec' hspec' hspec
      | some spec =>
        -- a value newly demanded would have been demanded before
        by_contra htight
        rw [not_or, Option.not_isSome_iff_eq_none, Bool.not_eq_false] at htight
        obtain ⟨hrequired, hdefault⟩ :=
          hnot.required field spec spec' hspec hspec' htight.2 htight.1
        rcases hold.complete field spec hspec hget with hsome | hoptional
        · rw [hdefault] at hsome
          cases hsome
        · rw [hrequired] at hoptional
          cases hoptional
  obtain ⟨o', ho'⟩ := normalizeRowData_succeeds_iff.mpr ⟨m, rfl, hnew⟩
  obtain ⟨m', out', hm, rfl, hextends'⟩ := normalizeRowData_extends ho'
  cases hm
  refine ⟨_, ho', fun field hpresent => ?_⟩
  obtain ⟨value, hget⟩ := Option.isSome_iff_exists.mp hpresent
  have hget' : m.get? field = some value := hget
  show out'.get? field = out.get? field
  rw [hextends'.lookup, hextends.lookup, hget', Option.some_or, Option.some_or]

/-! ### Tasks -/

def taskSchema : DataTableSchema :=
  { fields := ⟨[("title", { fieldType := .string, required := true, maxLength := some 10 })],
      by decide⟩ }

/-- Tasks that can be done, with longer titles. -/
def doneTaskSchema : DataTableSchema :=
  { fields := ⟨[
      ("done", { fieldType := .boolean, required := true, default := some (.bool false) }),
      ("title", { fieldType := .string, required := true, maxLength := some 20 })], by decide⟩ }

def task : Value := .object [("title", .string "milk")]

def openTask : Value := .object [("done", .bool false), ("title", .string "milk")]

/-- The specification at a task: the default is filled in once. -/
theorem openTask_normal :
    normalizeRowData asciiPlatform doneTaskSchema task false = .ok openTask ∧
      normalizeRowData asciiPlatform doneTaskSchema openTask false = .ok openTask := by
  have h : normalizeRowData asciiPlatform doneTaskSchema task false = .ok openTask := rfl
  exact ⟨h, (normalization_spec asciiPlatform doneTaskSchema rfl task openTask).2 h⟩

/-- The new task schema takes the task the old one took. -/
theorem task_taken_by_doneTaskSchema :
    ∃ o', normalizeRowData asciiPlatform doneTaskSchema task false = .ok o' ∧
      ∀ field, (task.member field).isSome = true → o'.member field = task.member field := by
  have hnot : NotTightened taskSchema doneTaskSchema := by
    refine ⟨?_, ?_⟩
    · intro field spec spec' hspec hspec'
      have hold := taskSchema.fields.mem_of_get? hspec
      have hnew := doneTaskSchema.fields.mem_of_get? hspec'
      simp only [taskSchema, doneTaskSchema, List.mem_cons, List.not_mem_nil, or_false,
        Prod.mk.injEq] at hold hnew
      obtain ⟨rfl, rfl⟩ := hold
      rcases hnew with ⟨hne, -⟩ | ⟨-, rfl⟩
      · exact absurd hne (by decide)
      · exact .inr ⟨10, 20, rfl, rfl, by decide⟩
    · intro field spec spec' hspec hspec' _ _
      have hold := taskSchema.fields.mem_of_get? hspec
      simp only [taskSchema, List.mem_cons, List.not_mem_nil, or_false, Prod.mk.injEq] at hold
      obtain ⟨-, rfl⟩ := hold
      exact ⟨rfl, rfl⟩
  exact evolution_sound asciiPlatform taskSchema doneTaskSchema 1 (by decide) rfl hnot task task rfl

end Peanut
