import Peanut.Data.Tables

/-!
# Expanding relations

`api/data/expand.rs`: the `expand` parameter of a read names relation fields,
and the row each of them points to is copied into the answer under
`<field>_expanded`.
-/

namespace Peanut

open Relational

def loadRow (db : Db) (tableId rowId : String) : Option DataRow :=
  db.dataRows.selectOne fun r => r.tableId == tableId && r.id == rowId

theorem loadRow_eq_some {db : Db} {tableId rowId : String} {r : DataRow} :
    loadRow db tableId rowId = some r ↔
      r ∈ db.dataRows ∧ r.tableId = tableId ∧ r.id = rowId := by
  constructor
  · intro h
    obtain ⟨hr, hmatch⟩ := KeyedTable.selectOne_some h
    simp only [Bool.and_eq_true, beq_iff_eq] at hmatch
    exact ⟨hr, hmatch⟩
  · rintro ⟨hr, htable, hid⟩
    refine KeyedTable.selectOne_eq_some hr (by simp [htable, hid]) ?_
    intro s hs hmatch
    simp only [Bool.and_eq_true, beq_iff_eq] at hmatch
    exact db.dataRows.eq_of_key_eq hs hr (hmatch.2.trans hid.symm)

def parseExpandFields (expand : String) (schema : DataTableSchema) :
    Except String (List String) := do
  let fields := ((splitAt ',' expand).map trim).filter (· != "")
  Outcome.ensure (!fields.isEmpty) "expand must list at least one field"
  Outcome.checkAll
    (fun fieldName => do
      let spec ← Outcome.require (schema.fields.get? fieldName)
        s!"unknown expand field '{fieldName}'"
      Outcome.ensure (spec.fieldType == .relation) s!"field '{fieldName}' cannot be expanded")
    fields
  return fields

/-- The table and the row id a field of a row refers to, when the field is a
    relation that holds a string and its table exists. -/
def relationTarget (pf : Platform) (db : Db) (appId : String) (schema : DataTableSchema)
    (map : JsonMap) (fieldName : String) : Option (LoadedTable × String) := do
  let spec ← schema.fields.get? fieldName
  if spec.fieldType != .relation then none
  else
    let relationTable ← spec.relationTable
    let relatedId ← (map.get? fieldName).bind Value.asStr
    let relatedTable ← loadTable pf db appId relationTable
    return (relatedTable, relatedId)

def expandedKey (fieldName : String) : String := s!"{fieldName}_expanded"

/-- What stands under the expanded key: the related row, or `null`. -/
def expandedValue (related : Option DataRow) : Value :=
  match related with
  | some record => .object [("data", record.data), ("id", .string record.id)]
  | none => .null

/-- One round of the loop of `expand_row_data`. -/
def expandField (pf : Platform) (db : Db) (appId : String) (schema : DataTableSchema)
    (map : JsonMap) (fieldName : String) : JsonMap :=
  match relationTarget pf db appId schema map fieldName with
  | some (relatedTable, relatedId) =>
      map.insert (expandedKey fieldName) (expandedValue (loadRow db relatedTable.id relatedId))
  | none => map

def expandRowData (pf : Platform) (db : Db) (appId : String) (schema : DataTableSchema)
    (data : Value) (expandFields : List String) : Except String Value :=
  match data with
  | .object map => .ok (.object (expandFields.foldl (expandField pf db appId schema) map))
  | _ => .error "row data must be a JSON object"

/-- A stored row as it is answered, expanded on request. -/
def respondRow (pf : Platform) (db : Db) (table : LoadedTable) (expand : Option String)
    (record : DataRow) : Except ApiError DataRowResponse :=
  let row := DataRowResponse.ofRecord record
  match expand with
  | none => .ok row
  | some expand => do
      let fields ← badRequest (parseExpandFields expand table.schema)
      let data ← badRequest (expandRowData pf db table.appId table.schema row.data fields)
      return { row with data := data }

end Peanut
