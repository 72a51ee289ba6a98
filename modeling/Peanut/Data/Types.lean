import Peanut.Common

/-!
# Types of the data API

Policies, schemas, stored records and request bodies of `api/data/types.rs`.
The strings of the source that range over a fixed vocabulary (`mode`, the four
rules, the field types, the import mode) become enumerations with a last
constructor for any other text, because the server accepts the request first
and judges the word afterwards.
-/

namespace Peanut

/-! ### Access policies -/

inductive PolicyMode where
  | adminOnly
  | ownerPrivate
  | authenticatedSharedRw
  | custom
  | unknown (text : String)
deriving DecidableEq, Repr

def PolicyMode.text : PolicyMode → String
  | .adminOnly => "admin_only"
  | .ownerPrivate => "owner_private"
  | .authenticatedSharedRw => "authenticated_shared_rw"
  | .custom => "custom"
  | .unknown t => t

inductive RuleName where
  | rulePublic
  | ruleAuthenticated
  | ruleAdmin
  | ruleOwner
  | unknown (text : String)
deriving DecidableEq, Repr

def RuleName.text : RuleName → String
  | .rulePublic => "public"
  | .ruleAuthenticated => "authenticated"
  | .ruleAdmin => "admin"
  | .ruleOwner => "owner"
  | .unknown t => t

structure AccessRules where
  create : Option RuleName := none
  read : Option RuleName := none
  update : Option RuleName := none
  delete : Option RuleName := none
deriving DecidableEq, Repr

structure AccessPolicy where
  mode : PolicyMode := .unknown ""
  rules : Option AccessRules := none
deriving DecidableEq, Repr

/-! ### Schemas -/

inductive FieldType where
  | string
  | integer
  | number
  | boolean
  | datetime
  | json
  | relation
  | file
  | unknown (text : String)
deriving DecidableEq, Repr

def FieldType.text : FieldType → String
  | .string => "string"
  | .integer => "integer"
  | .number => "number"
  | .boolean => "boolean"
  | .datetime => "datetime"
  | .json => "json"
  | .relation => "relation"
  | .file => "file"
  | .unknown t => t

structure DataFieldSpec where
  fieldType : FieldType
  required : Bool := false
  maxLength : Option UInt64 := none
  default : Option Value := none
  relationTable : Option String := none
  fileBucket : Option String := none
deriving DecidableEq, Repr

structure DataTableSchema where
  fields : BTreeMap DataFieldSpec
deriving DecidableEq

/-! ### Stored records

The `*_json` columns hold decoded values. -/

/-- A row of `data_tables`, which is also what `load_table` hands to a handler. -/
structure LoadedTable where
  id : String
  appId : String
  name : String
  displayName : String
  schema : DataTableSchema
  accessPolicy : AccessPolicy
  createdBy : String
  createdAt : String
deriving DecidableEq

/-- A row of `data_rows`. -/
structure DataRow where
  id : String
  appId : String
  tableId : String
  ownerUserId : Option String
  data : Value
  createdAt : String
  updatedAt : String
deriving DecidableEq, Repr

theorem DataRow.id_rewritten (data : Value) (now : String) (r : DataRow) :
    ({ r with data := data, updatedAt := now } : DataRow).id = r.id := rfl

theorem DataRow.id_disowned (r : DataRow) : ({ r with ownerUserId := none } : DataRow).id = r.id :=
  rfl

/-- A row of `data_row_events`. -/
structure DataRowEvent where
  id : Nat
  appId : String
  tableId : String
  rowId : String
  actorUserId : String
  action : String
  diff : Option Value
  createdAt : String
deriving DecidableEq, Repr

/-! ### Requests and responses -/

structure DataTableDetail where
  name : String
  displayName : String
  schema : DataTableSchema
  accessPolicy : AccessPolicy
  createdBy : String
  createdAt : String
deriving DecidableEq

def LoadedTable.detail (t : LoadedTable) : DataTableDetail :=
  { name := t.name, displayName := t.displayName, schema := t.schema,
    accessPolicy := t.accessPolicy, createdBy := t.createdBy, createdAt := t.createdAt }

structure DataRowResponse where
  id : String
  ownerUserId : Option String
  data : Value
  createdAt : String
  updatedAt : String
deriving DecidableEq, Repr

/-- `DataRowResponse::try_from_record`, which only fails on an undecodable column. -/
def DataRowResponse.ofRecord (r : DataRow) : DataRowResponse :=
  { id := r.id, ownerUserId := r.ownerUserId, data := r.data, createdAt := r.createdAt,
    updatedAt := r.updatedAt }

structure DataRowsResponse where
  rows : List DataRowResponse
  total : Int
  limit : Int
  offset : Int
  hasMore : Bool
deriving DecidableEq, Repr

structure CreateTableRequest where
  name : String
  displayName : String
  schema : DataTableSchema
  accessPolicy : AccessPolicy

structure UpdateTableRequest where
  displayName : Option String := none
  schema : Option DataTableSchema := none
  accessPolicy : Option AccessPolicy := none

structure CreateRowRequest where
  data : Value

structure ListRowsParams where
  limit : Option UInt64 := none
  offset : Option UInt64 := none
  orderBy : Option String := none
  order : Option String := none
  search : Option String := none
  titleContains : Option String := none
  done : Option Bool := none
  filterField : Option String := none
  filterOp : Option String := none
  filterValue : Option String := none
  expand : Option String := none
deriving DecidableEq, Repr

structure GetRowParams where
  expand : Option String := none
deriving DecidableEq, Repr

structure TableExportMetadata where
  exportVersion : String
  rowCount : Nat
  checksumSha256 : String
deriving DecidableEq, Repr

structure SchemaDiffPreview where
  addedFields : List String := []
  removedFields : List String := []
  changedFields : List String := []
deriving DecidableEq, Repr

structure TableImportResponse where
  importedCount : Nat
  dryRun : Bool
  wouldInsert : Nat
  wouldReplace : Nat
  schemaChanges : SchemaDiffPreview
  validationErrors : List String
deriving DecidableEq, Repr

structure ImportRowRequest where
  id : Option String := none
  ownerUserId : Option String := none
  data : Value
  createdAt : Option String := none
  updatedAt : Option String := none

structure DataTableRestoreSpec where
  name : String
  displayName : String
  schema : DataTableSchema
  accessPolicy : AccessPolicy
  createdBy : Option String := none
  createdAt : Option String := none

structure TableImportRequest where
  mode : Option String := none
  dryRun : Option Bool := none
  restoreTable : Option Bool := none
  metadata : Option TableExportMetadata := none
  verifyChecksum : Option Bool := none
  table : Option DataTableRestoreSpec := none
  rows : List ImportRowRequest

/-! ### Serialised forms

`serde_json::json!` turns a struct into a `Value`, absent options into `null`;
only the export checksum looks at these. -/

def optionToValue {α : Type} (f : α → Value) : Option α → Value
  | some a => f a
  | none => .null

def DataFieldSpec.toValue (f : DataFieldSpec) : Value :=
  .object [("default", optionToValue id f.default),
    ("file_bucket", optionToValue .string f.fileBucket),
    ("max_length", optionToValue (fun n => .number (.posInt n)) f.maxLength),
    ("relation_table", optionToValue .string f.relationTable),
    ("required", .bool f.required),
    ("type", .string f.fieldType.text)]

def DataTableSchema.toValue (s : DataTableSchema) : Value :=
  .object [("fields", .object (s.fields.entries.map fun e => (e.1, e.2.toValue)))]

def AccessRules.toValue (r : AccessRules) : Value :=
  let rule := optionToValue fun n : RuleName => .string n.text
  .object [("create", rule r.create), ("delete", rule r.delete), ("read", rule r.read),
    ("update", rule r.update)]

def AccessPolicy.toValue (p : AccessPolicy) : Value :=
  .object [("mode", .string p.mode.text), ("rules", optionToValue AccessRules.toValue p.rules)]

def DataTableDetail.toValue (t : DataTableDetail) : Value :=
  .object [("access_policy", t.accessPolicy.toValue), ("created_at", .string t.createdAt),
    ("created_by", .string t.createdBy), ("display_name", .string t.displayName),
    ("name", .string t.name), ("schema", t.schema.toValue)]

def DataRowResponse.toValue (r : DataRowResponse) : Value :=
  .object [("created_at", .string r.createdAt), ("data", r.data), ("id", .string r.id),
    ("owner_user_id", optionToValue .string r.ownerUserId), ("updated_at", .string r.updatedAt)]

end Peanut
