import Mathlib.Algebra.GroupWithZero.Nat
import Peanut.Data.JsonColumns

/-!
# Text filters

`contains`, `starts_with`, `ends_with`, `search` and `title_contains` put the
text of the request between `%` signs and hand it to `LIKE`, which also reads
the `%` and `_` inside it.  A filter never misses a row whose text it occurs in.
It finds no other rows exactly when it has neither character, or when the
fields it looks at are too short for it.
-/

namespace Peanut

open Wildcards

/-! ### The filters -/

inductive TextFilter where
  | contains (field : String)
  | startsWith (field : String)
  | endsWith (field : String)
  | search
  | titleContains
deriving DecidableEq, Repr

namespace TextFilter

/-- The parameters of a request with this filter. -/
def params (value : String) : TextFilter → ListRowsParams
  | .contains field =>
      { filterField := some field, filterOp := some "contains", filterValue := some value }
  | .startsWith field =>
      { filterField := some field, filterOp := some "starts_with", filterValue := some value }
  | .endsWith field =>
      { filterField := some field, filterOp := some "ends_with", filterValue := some value }
  | .search => { search := some value }
  | .titleContains => { titleContains := some value }

/-- The fields whose texts are looked at; one of them is enough. -/
def fields (schema : DataTableSchema) : TextFilter → List String
  | .contains field | .startsWith field | .endsWith field => [field]
  | .search => (schema.fields.entries.filter isStringField).map Prod.fst
  | .titleContains => ["title"]

def place : TextFilter → Place
  | .contains _ | .search | .titleContains => .inside
  | .startsWith _ => .front
  | .endsWith _ => .back

/-- `value` occurs in `text` where the filter looks for it, letters of ASCII
    taken in lower case. -/
def Occurs (filter : TextFilter) (value text : String) : Prop :=
  filter.place.occurs (asciiLowercase value).toList (asciiLowercase text).toList

end TextFilter

/-! ### The pattern -/

/-- What is bound to the placeholder. -/
def TextFilter.pattern (value : String) : TextFilter → String
  | .contains _ | .search | .titleContains => s!"%{value}%"
  | .startsWith _ => s!"{value}%"
  | .endsWith _ => s!"%{value}"

/-- `value` without its `%`, and with a letter for each `_`. -/
def shortestMatch (value : String) : String := String.ofList (filled 'a' (likePattern value))

def NoWildcard (value : String) : Prop := ∀ c ∈ value.toList, c ≠ '%' ∧ c ≠ '_'

theorem likePattern_append (s t : String) :
    likePattern (s ++ t) = likePattern s ++ likePattern t := by
  rw [likePattern, String.toList_append, List.map_append]
  rfl

theorem likePattern_percent : likePattern "%" = [.many] := by decide

theorem likePattern_pattern (filter : TextFilter) (value : String) :
    likePattern (filter.pattern value) = filter.place.pattern (likePattern value) := by
  cases filter with
  | startsWith field => exact likePattern_append value "%"
  | endsWith field => exact likePattern_append "%" value
  | _ =>
    exact (likePattern_append ("%" ++ value) "%").trans
      (by rw [likePattern_append, likePattern_percent]; rfl)

theorem reading_likePiece : Reading asciiToLower 'a' likePiece where
  letter a b h := by
    unfold likePiece at h
    split at h
    · cases h
    · split at h
      · cases h
      · cases h
        rfl
  one a h := by
    unfold likePiece at h
    split at h
    · cases h
    · split at h
      · rename_i ha
        subst ha
        decide
      · cases h

variable {value text : String}

theorem likePattern_eq_literal :
    likePattern value = literal value.toList ↔ NoWildcard value := by
  constructor
  · intro h c hc
    have hpiece : likePiece c = .letter c := (List.map_inj_left.mp h) c hc
    constructor
    · rintro rfl
      cases hpiece
    · rintro rfl
      cases hpiece
  · intro h
    refine List.map_inj_left.mpr fun c hc => ?_
    rw [likePiece, if_neg (h c hc).1, if_neg (h c hc).2]

/-! ### Lengths -/

theorem asciiToLower_utf8Size (c : Char) : (asciiToLower c).utf8Size = c.utf8Size := by
  by_cases h : isAsciiUppercase c = true
  · have hall : ∀ i : Fin 91, (asciiToLower (Char.ofNat i)).utf8Size = (Char.ofNat i).utf8Size := by
      decide
    have hupper : c.toNat < 91 := by
      rw [isAsciiUppercase, Bool.and_eq_true, decide_eq_true_eq, decide_eq_true_eq] at h
      exact Nat.lt_succ_of_le h.2
    have hc := hall ⟨c.toNat, hupper⟩
    rw [Char.ofNat_toNat] at hc
    exact hc
  · rw [asciiToLower, if_neg h]

theorem len_eq_sum (s : String) : len s = (s.toList.map Char.utf8Size).sum := by
  have hlist : ∀ l : List Char, len (String.ofList l) = (l.map Char.utf8Size).sum := by
    intro l
    induction l with
    | nil => rfl
    | cons c l ih =>
      rw [String.ofList_cons, len, String.utf8ByteSize_append, String.utf8ByteSize_singleton,
        List.map_cons, List.sum_cons, ← ih]
      rfl
  rw [← hlist s.toList, String.ofList_toList]

variable {filter : TextFilter}

theorem len_shortestMatch_le
    (h : likeMatches (filter.pattern value) text = true) : len (shortestMatch value) ≤
      len text := by
  rw [likeMatches, accepts_iff, likePattern_pattern] at h
  have hfold : ∀ a b, asciiToLower a = asciiToLower b → a.utf8Size = b.utf8Size := fun a b hab => by
    rw [← asciiToLower_utf8Size a, hab, asciiToLower_utf8Size]
  have hleast : ∀ a : Char, ('a' : Char).utf8Size ≤ a.utf8Size := Char.utf8Size_pos
  have hsize := size_filled_le hfold hleast h
  rw [filled_place] at hsize
  rw [len_eq_sum, len_eq_sum, shortestMatch, String.toList_ofList]
  exact hsize

/-! ### Patterns and occurrences -/

theorem likeMatches_of_occurs
    (h : filter.Occurs value text) : likeMatches (filter.pattern value) text = true := by
  rw [TextFilter.Occurs, asciiLowercase, asciiLowercase, String.toList_ofList,
    String.toList_ofList] at h
  rw [likeMatches, accepts_iff, likePattern_pattern]
  exact language_place_mono (fun t ht => reading_likePiece.mem_language ht)
    (mem_language_place_literal.mpr h)

theorem occurs_of_likeMatches
    (hvalue : NoWildcard value) (h : likeMatches (filter.pattern value) text = true) :
    filter.Occurs value text := by
  rw [likeMatches, accepts_iff, likePattern_pattern, likePattern_eq_literal.mpr hvalue] at h
  rw [TextFilter.Occurs, asciiLowercase, asciiLowercase, String.toList_ofList,
    String.toList_ofList]
  exact mem_language_place_literal.mp h

theorem likeMatches_shortestMatch (filter : TextFilter) (value : String) :
    likeMatches (filter.pattern value) (shortestMatch value) = true := by
  have hfilled : filled 'a' (filter.place.pattern (likePattern value)) ∈
      language asciiToLower (filter.place.pattern (likePattern value)) := filled_mem_language
  rw [filled_place] at hfilled
  rw [likeMatches, accepts_iff, likePattern_pattern, shortestMatch, String.toList_ofList]
  exact hfilled

theorem noWildcard_of_occurs (h : filter.Occurs value (shortestMatch value)) :
    NoWildcard value := by
  rw [TextFilter.Occurs, asciiLowercase, asciiLowercase, String.toList_ofList,
    String.toList_ofList, shortestMatch, String.toList_ofList] at h
  exact likePattern_eq_literal.mp (reading_likePiece.eq_literal_of_infix (Place.occurs_isInfix h))

/-! ### The clause -/

theorem mem_stringFields {schema : DataTableSchema} {field : String} :
    field ∈ TextFilter.search.fields schema ↔
      ∃ spec, schema.fields.get? field = some spec ∧ spec.fieldType = .string := by
  rw [TextFilter.fields, List.mem_map]
  constructor
  · rintro ⟨e, he, rfl⟩
    obtain ⟨hmem, htype⟩ := List.mem_filter.mp he
    exact ⟨e.2, schema.fields.get?_of_mem hmem, eq_of_beq htype⟩
  · rintro ⟨spec, hspec, htype⟩
    exact ⟨(field, spec), List.mem_filter.mpr ⟨schema.fields.mem_of_get? hspec,
      beq_iff_eq.mpr htype⟩, rfl⟩

variable {pf : Platform} {engine : Sqlite} {schema : DataTableSchema} {filter : TextFilter}
  {value : String}

theorem anyLike_holds {row : DataRow} {fields : List String} {pattern : String} :
    (WhereClause.anyLike fields).holds engine row (fields.map fun _ => .text pattern) = true ↔
      ∃ field ∈ fields, engine.like row.data field pattern = true := by
  induction fields with
  | nil => simp [WhereClause.holds]
  | cons field fields ih =>
    simp only [WhereClause.holds, List.map_cons, List.zip_cons_cons, List.any_cons,
      Bool.or_eq_true] at ih ⊢
    rw [ih]
    simp only [List.mem_cons, exists_eq_or_imp]

theorem selected_textFilter
    (haccepted : validateListRowsParams pf schema (filter.params value) = .ok ())
    (hstring : ∀ field ∈ filter.fields schema,
      ∃ spec, schema.fields.get? field = some spec ∧ spec.fieldType = .string) {row : DataRow} :
    row.selected pf engine schema (filter.params value) = true ↔
      ∃ field ∈ filter.fields schema, engine.like row.data field (filter.pattern value) = true := by
  have hclause : ∀ {field op : String}, filter.fields schema = [field] →
      filter.params value = { filterField := some field, filterOp := some op,
                              filterValue := some value } →
      (∀ spec, spec.fieldType = .string → buildFilterClause pf field spec op value =
        (.like field, some (.text (filter.pattern value)))) →
      (row.selected pf engine schema (filter.params value) = true ↔
        ∃ field ∈ filter.fields schema,
          engine.like row.data field (filter.pattern value) = true) := by
    intro field op hfields hparams hbuild
    rw [hfields] at hstring ⊢
    obtain ⟨spec, hspec, htype⟩ := hstring field List.mem_cons_self
    rw [hparams, selected_filter hspec, hbuild spec htype]
    simp [WhereClause.holds]
  cases filter with
  | contains field =>
    exact hclause rfl rfl fun spec htype => by rw [buildFilterClause, htype]; rfl
  | startsWith field =>
    exact hclause rfl rfl fun spec htype => by rw [buildFilterClause, htype]; rfl
  | endsWith field =>
    exact hclause rfl rfl fun spec htype => by rw [buildFilterClause, htype]; rfl
  | titleContains =>
    simp [DataRow.selected, paramClauses, rowQueryClauses, TextFilter.params, TextFilter.fields,
      TextFilter.pattern, WhereClause.holds]
  | search =>
    obtain ⟨-, -, -, hsearch, -⟩ := validateListRowsParams_eq_ok.mp haccepted
    obtain ⟨e, he, htype⟩ := List.any_eq_true.mp (hsearch value rfl).2
    -- the schema has a string field, so the clause is there
    have hnonempty : (TextFilter.search.fields schema).isEmpty = false :=
      List.isEmpty_eq_false_iff_exists_mem.mpr
        ⟨e.1, List.mem_map.mpr ⟨e, List.mem_filter.mpr ⟨he, htype⟩, rfl⟩⟩
    have hclauses : paramClauses pf (TextFilter.search.params value) schema =
        [(.anyLike (TextFilter.search.fields schema),
          (TextFilter.search.fields schema).map
            fun _ => .text (TextFilter.search.pattern value))] := by
      rw [TextFilter.fields] at hnonempty ⊢
      simp only [paramClauses, rowQueryClauses, TextFilter.params, hnonempty, Bool.false_eq_true,
        if_false, List.append_nil, List.cons_append, List.nil_append]
      rfl
    rw [DataRow.selected, hclauses, List.all_cons, List.all_nil, Bool.and_true]
    exact anyLike_holds

/-! ### Which filters match literally -/

/-- The fields the filter looks at store accepted texts, or nothing. -/
def TextFilter.Stored (pf : Platform) (schema : DataTableSchema) (filter : TextFilter)
    (row : DataRow) : Prop :=
  ∀ field ∈ filter.fields schema, ∀ stored, row.data.member field = some stored →
    ∃ spec, schema.fields.get? field = some spec ∧
      validateFieldValue pf field spec stored = .ok ()

/-- One of the fields stores a text that the value occurs in. -/
def TextFilter.Finds (schema : DataTableSchema) (filter : TextFilter) (value : String)
    (row : DataRow) : Prop :=
  ∃ field ∈ filter.fields schema, ∃ text,
    row.data.member field = some (.string text) ∧ filter.Occurs value text

/-- The clause holds on the rows in which the value occurs, and on no others. -/
def TextFilter.MatchesLiterally (pf : Platform) (engine : Sqlite) (schema : DataTableSchema)
    (filter : TextFilter) (value : String) : Prop :=
  ∀ row : DataRow, filter.Stored pf schema row →
    (row.selected pf engine schema (filter.params value) = true ↔ filter.Finds schema value row)

/-- None of the fields takes a text as long as the shortest that matches. -/
def TextFilter.OutOfReach (schema : DataTableSchema) (filter : TextFilter) (value : String) :
    Prop :=
  ∀ field ∈ filter.fields schema, ∀ spec, schema.fields.get? field = some spec →
    ∃ maxLength, spec.maxLength = some maxLength ∧ maxLength.toNat < len (shortestMatch value)

theorem validateFieldValue_string {field : String} {spec : DataFieldSpec} {stored : Value}
    (htype : spec.fieldType = .string) :
    validateFieldValue pf field spec stored = .ok () ↔
      ∃ text, stored = .string text ∧
        ∀ maxLength, spec.maxLength = some maxLength → len text ≤ maxLength.toNat := by
  cases stored <;> cases hmax : spec.maxLength <;>
    simp [validateFieldValue, htype, hmax, Value.asStr, Outcome.require, Outcome.ensure_eq_ok]

/-- A row whose data is this one text. -/
def textRow (field text : String) : DataRow :=
  { id := "row_1", appId := "default", tableId := "table_1", ownerUserId := none
    data := .object [(field, .string text)], createdAt := "", updatedAt := "" }

theorem member_textRow {field text name : String} :
    (textRow field text).data.member name = if name = field then some (.string text) else none := by
  by_cases h : name = field
  · simp [textRow, Value.member, h]
  · simp [textRow, Value.member, h]

section Literal

variable (hengine : engine.Documented) (hschema : validateSchema pf schema = .ok ())
  (haccepted : validateListRowsParams pf schema (filter.params value) = .ok ())
  (hstring : ∀ field ∈ filter.fields schema,
    ∃ spec, schema.fields.get? field = some spec ∧ spec.fieldType = .string)

include hengine hschema haccepted hstring

theorem selected_iff_likeMatches {row : DataRow} (hstored : filter.Stored pf schema row) :
    row.selected pf engine schema (filter.params value) = true ↔
      ∃ field ∈ filter.fields schema, ∃ text, row.data.member field = some (.string text) ∧
        likeMatches (filter.pattern value) text = true := by
  rw [selected_textFilter haccepted hstring]
  refine exists_congr fun field => and_congr_right fun hfield => ?_
  obtain ⟨spec, hspec, htype⟩ := hstring field hfield
  have hname := validateSchema_names hschema (schema.fields.containsKey_iff.mpr ⟨spec, hspec⟩)
  cases hmember : row.data.member field with
  | none => simp [hengine.like_absent hname hmember]
  | some stored =>
    obtain ⟨spec', hspec', hvalid⟩ := hstored field hfield stored hmember
    rw [hspec] at hspec'
    cases hspec'
    obtain ⟨text, rfl, -⟩ := (validateFieldValue_string htype).mp hvalid
    simp [hengine.like_text hname hmember]

theorem selected_of_finds {row : DataRow} (hstored : filter.Stored pf schema row)
    (h : filter.Finds schema value row) :
    row.selected pf engine schema (filter.params value) = true := by
  obtain ⟨field, hfield, text, hmember, hoccurs⟩ := h
  exact (selected_iff_likeMatches hengine hschema haccepted hstring hstored).mpr
    ⟨field, hfield, text, hmember, likeMatches_of_occurs hoccurs⟩

theorem matchesLiterally_of_noWildcard (hvalue : NoWildcard value) :
    filter.MatchesLiterally pf engine schema value := by
  intro row hstored
  refine ⟨fun h => ?_, selected_of_finds hengine hschema haccepted hstring hstored⟩
  obtain ⟨field, hfield, text, hmember, hmatch⟩ :=
    (selected_iff_likeMatches hengine hschema haccepted hstring hstored).mp h
  exact ⟨field, hfield, text, hmember, occurs_of_likeMatches hvalue hmatch⟩

theorem matchesLiterally_of_outOfReach (hreach : filter.OutOfReach schema value) :
    filter.MatchesLiterally pf engine schema value := by
  intro row hstored
  refine ⟨fun h => ?_, selected_of_finds hengine hschema haccepted hstring hstored⟩
  obtain ⟨field, hfield, text, hmember, hmatch⟩ :=
    (selected_iff_likeMatches hengine hschema haccepted hstring hstored).mp h
  obtain ⟨spec, hspec, htype⟩ := hstring field hfield
  obtain ⟨maxLength, hmax, hlt⟩ := hreach field hfield spec hspec
  obtain ⟨spec', hspec', hvalid⟩ := hstored field hfield _ hmember
  rw [hspec] at hspec'
  cases hspec'
  obtain ⟨_, heq, hlen⟩ := (validateFieldValue_string htype).mp hvalid
  cases heq
  have hshort := len_shortestMatch_le hmatch
  have hle := hlen maxLength hmax
  omega

/-- A value with a wildcard finds the row that stores its shortest match, where
    it does not occur. -/
theorem noWildcard_of_matchesLiterally (hreach : ¬ filter.OutOfReach schema value)
    (h : filter.MatchesLiterally pf engine schema value) : NoWildcard value := by
  rw [TextFilter.OutOfReach] at hreach
  push Not at hreach
  obtain ⟨field, hfield, spec, hspec, hroom⟩ := hreach
  obtain ⟨spec', hspec', htype⟩ := hstring field hfield
  rw [hspec] at hspec'
  cases hspec'
  have hstored : filter.Stored pf schema (textRow field (shortestMatch value)) := by
    intro name _ stored hmember
    rw [member_textRow] at hmember
    split at hmember
    · rename_i hname
      subst hname
      cases hmember
      exact ⟨spec, hspec, (validateFieldValue_string htype).mpr ⟨_, rfl, hroom⟩⟩
    · cases hmember
  have hselected : (textRow field (shortestMatch value)).selected pf engine schema
      (filter.params value) = true :=
    (selected_iff_likeMatches hengine hschema haccepted hstring hstored).mpr
      ⟨field, hfield, shortestMatch value, by rw [member_textRow, if_pos rfl],
        likeMatches_shortestMatch filter value⟩
  obtain ⟨name, -, text, hmember, hoccurs⟩ := (h _ hstored).mp hselected
  rw [member_textRow] at hmember
  split at hmember
  · cases hmember
    exact noWildcard_of_occurs hoccurs
  · cases hmember

/-- **Text filters match literally exactly when** the value has no wildcard, or
    is out of reach of every field the filter looks at. -/
theorem text_filter_literal_iff :
    filter.MatchesLiterally pf engine schema value ↔
      NoWildcard value ∨ filter.OutOfReach schema value := by
  constructor
  · intro h
    by_cases hreach : filter.OutOfReach schema value
    · exact .inr hreach
    · exact .inl (noWildcard_of_matchesLiterally hengine hschema haccepted hstring hreach h)
  · rintro (hvalue | hreach)
    · exact matchesLiterally_of_noWildcard hengine hschema haccepted hstring hvalue
    · exact matchesLiterally_of_outOfReach hengine hschema haccepted hstring hreach

end Literal

/-- A search for "50%" finds "500 g". -/
theorem half_price_found :
    (TextFilter.contains "title").Stored asciiPlatform todoSchema (textRow "title" "500 g") ∧
      (textRow "title" "500 g").selected asciiPlatform jsonColumns todoSchema
        ((TextFilter.contains "title").params "50%") = true ∧
      ¬ (TextFilter.contains "title").Finds todoSchema "50%" (textRow "title" "500 g") := by
  refine ⟨?_, by decide, ?_⟩
  · intro field hfield stored hmember
    obtain rfl := List.mem_singleton.mp hfield
    rw [member_textRow, if_pos rfl] at hmember
    cases hmember
    exact ⟨{ fieldType := .string }, rfl, rfl⟩
  · rintro ⟨field, hfield, text, hmember, hoccurs⟩
    obtain rfl := List.mem_singleton.mp hfield
    rw [member_textRow, if_pos rfl] at hmember
    cases hmember
    have hnot : ¬ (asciiLowercase "50%").toList <:+: (asciiLowercase "500 g").toList := by decide
    exact hnot hoccurs

/-- A plain word is found where it occurs. -/
theorem milk_literal :
    (TextFilter.search).MatchesLiterally asciiPlatform jsonColumns todoSchema "Milk" := by
  refine (text_filter_literal_iff jsonColumns_documented rfl rfl
    (fun _ hfield => mem_stringFields.mp hfield)).mpr (.inl ?_)
  intro c hc
  have hall : "Milk".toList.all (fun c => decide (c ≠ '%' ∧ c ≠ '_')) = true := by decide
  exact of_decide_eq_true (List.all_eq_true.mp hall c hc)

end Peanut
