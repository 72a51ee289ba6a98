import Mathlib.Data.Set.Function
import Peanut.Data.RoundTrip

/-!
# The checksum of an import

`build_table_export_checksum` and `build_import_checksum`: exporter and importer
hash a document that is put together from different structs.  The stage accepts
what was exported and nothing else, as far as the hash tells the two documents
apart.
-/

namespace Peanut

open Relational

/-! ### Decoded definitions

A word of a vocabulary is a `String` in the source, where a text has one form, and
`serde` reads `null` as no default. -/

def FieldType.ofText : String → FieldType
  | "string" => .string
  | "integer" => .integer
  | "number" => .number
  | "boolean" => .boolean
  | "datetime" => .datetime
  | "json" => .json
  | "relation" => .relation
  | "file" => .file
  | text => .unknown text

def PolicyMode.ofText : String → PolicyMode
  | "admin_only" => .adminOnly
  | "owner_private" => .ownerPrivate
  | "authenticated_shared_rw" => .authenticatedSharedRw
  | "custom" => .custom
  | text => .unknown text

def RuleName.ofText : String → RuleName
  | "public" => .rulePublic
  | "authenticated" => .ruleAuthenticated
  | "admin" => .ruleAdmin
  | "owner" => .ruleOwner
  | text => .unknown text

/-- The words that a text is read as. -/
def FieldType.decoded : Set FieldType := {t | ofText t.text = t}
def PolicyMode.decoded : Set PolicyMode := {m | ofText m.text = m}
def RuleName.decoded : Set RuleName := {n | ofText n.text = n}

/-- An option whose value, if there is one, is decoded. -/
def decodedOption {α : Type} (s : Set α) : Set (Option α) := {x | ∀ a, x = some a → a ∈ s}

def DataFieldSpec.decoded : Set DataFieldSpec :=
  {f | f.fieldType ∈ FieldType.decoded ∧ f.default ≠ some .null}

def DataTableSchema.decoded : Set DataTableSchema :=
  {s | ∀ e ∈ s.fields.entries, e.2 ∈ DataFieldSpec.decoded}

def AccessRules.decoded : Set AccessRules :=
  {r | ∀ rule ∈ [r.create, r.read, r.update, r.delete], rule ∈ decodedOption RuleName.decoded}

def AccessPolicy.decoded : Set AccessPolicy :=
  {p | p.mode ∈ PolicyMode.decoded ∧ p.rules ∈ decodedOption AccessRules.decoded}

/-- A definition that `serde` read. -/
def DataTableDetail.decoded : Set DataTableDetail :=
  {t | t.schema ∈ DataTableSchema.decoded ∧ t.accessPolicy ∈ AccessPolicy.decoded}

/-! ### Serialised forms tell definitions apart -/

theorem optionToValue_injOn {α : Type} {f : α → Value} {s : Set α} (hf : Set.InjOn f s)
    (hnull : ∀ a ∈ s, f a ≠ .null) : Set.InjOn (optionToValue f) (decodedOption s) := by
  intro x hx y hy h
  cases x with
  | none =>
    cases y with
    | none => rfl
    | some b => exact absurd h.symm (hnull b (hy b rfl))
  | some a =>
    cases y with
    | none => exact absurd h (hnull a (hx a rfl))
    | some b => exact congrArg some (hf (hx a rfl) (hy b rfl) h)

theorem optionToValue_injective {α : Type} {f : α → Value} (hf : Function.Injective f)
    (hnull : ∀ a, f a ≠ .null) : Function.Injective (optionToValue f) := by
  intro x y h
  exact optionToValue_injOn (s := Set.univ) hf.injOn (fun a _ => hnull a) (fun a _ => trivial)
    (fun a _ => trivial) h

theorem optionToValue_string_injective : Function.Injective (optionToValue Value.string) :=
  optionToValue_injective (fun _ _ h => Value.string.inj h) fun _ => Value.noConfusion

theorem FieldType.text_injOn : Set.InjOn FieldType.text FieldType.decoded :=
  have hread : Set.LeftInvOn FieldType.ofText FieldType.text FieldType.decoded := fun _ h => h
  hread.injOn

theorem PolicyMode.text_injOn : Set.InjOn PolicyMode.text PolicyMode.decoded :=
  have hread : Set.LeftInvOn PolicyMode.ofText PolicyMode.text PolicyMode.decoded := fun _ h => h
  hread.injOn

theorem RuleName.text_injOn : Set.InjOn RuleName.text RuleName.decoded :=
  have hread : Set.LeftInvOn RuleName.ofText RuleName.text RuleName.decoded := fun _ h => h
  hread.injOn

theorem DataFieldSpec.toValue_injOn : Set.InjOn DataFieldSpec.toValue DataFieldSpec.decoded := by
  rintro f ⟨hf, hdefault⟩ g ⟨hg, hdefault'⟩ h
  simp only [DataFieldSpec.toValue, Value.object.injEq, List.cons.injEq, Prod.mk.injEq, true_and,
    and_true, Value.bool.injEq, Value.string.injEq] at h
  obtain ⟨hdef, hbucket, hlength, hrelation, hrequired, htype⟩ := h
  have hdef' : f.default = g.default :=
    optionToValue_injOn (Set.injOn_id {v : Value | v ≠ .null}) (fun v hv => hv)
      (fun v hv hnull => hdefault (hnull ▸ hv)) (fun v hv hnull => hdefault' (hnull ▸ hv)) hdef
  have hlength' : f.maxLength = g.maxLength :=
    optionToValue_injective (fun m n hmn => Number.posInt.inj (Value.number.inj hmn))
      (fun _ => Value.noConfusion) hlength
  cases f
  cases g
  simp only [DataFieldSpec.mk.injEq]
  exact ⟨FieldType.text_injOn hf hg htype, hrequired, hlength', hdef',
    optionToValue_string_injective hrelation, optionToValue_string_injective hbucket⟩

theorem eq_of_map_eq {α β : Type} {f : α → β} {s : Set α} (hf : Set.InjOn f s) :
    ∀ {l l' : List α}, (∀ a ∈ l, a ∈ s) → (∀ a ∈ l', a ∈ s) → l.map f = l'.map f → l = l'
  | [], [], _, _, _ => rfl
  | [], _ :: _, _, _, h => nomatch h
  | _ :: _, [], _, _, h => nomatch h
  | a :: l, b :: l', hl, hl', h => by
      rw [List.forall_mem_cons] at hl hl'
      obtain ⟨hhead, htail⟩ := List.cons.inj h
      rw [hf hl.1 hl'.1 hhead, eq_of_map_eq hf hl.2 hl'.2 htail]

theorem DataTableSchema.toValue_injOn :
    Set.InjOn DataTableSchema.toValue DataTableSchema.decoded := by
  intro a ha b hb h
  simp only [DataTableSchema.toValue, Value.object.injEq, List.cons.injEq, Prod.mk.injEq, true_and,
    and_true] at h
  have hentry : Set.InjOn (fun e : String × DataFieldSpec => (e.1, e.2.toValue))
      {e | e.2 ∈ DataFieldSpec.decoded} := by
    intro e he e' he' heq
    obtain ⟨hkey, hvalue⟩ := Prod.mk.inj heq
    exact Prod.ext hkey (DataFieldSpec.toValue_injOn he he' hvalue)
  have hfields : a.fields = b.fields := BTreeMap.ext (eq_of_map_eq hentry ha hb h)
  cases a
  cases b
  exact congrArg DataTableSchema.mk hfields

theorem AccessRules.toValue_injOn : Set.InjOn AccessRules.toValue AccessRules.decoded := by
  intro a ha b hb h
  simp only [AccessRules.toValue, Value.object.injEq, List.cons.injEq, Prod.mk.injEq, true_and,
    and_true] at h
  obtain ⟨hcreate, hdelete, hread, hupdate⟩ := h
  have hrule := optionToValue_injOn (f := fun n : RuleName => .string n.text)
    (fun m hm n hn heq => RuleName.text_injOn hm hn (Value.string.inj heq))
    fun _ _ => Value.noConfusion
  cases a
  cases b
  simp only [AccessRules.decoded, Set.mem_ofPred_eq, List.forall_mem_cons] at ha hb
  simp only [AccessRules.mk.injEq]
  exact ⟨hrule ha.1 hb.1 hcreate, hrule ha.2.1 hb.2.1 hread, hrule ha.2.2.1 hb.2.2.1 hupdate,
    hrule ha.2.2.2.1 hb.2.2.2.1 hdelete⟩

theorem AccessPolicy.toValue_injOn : Set.InjOn AccessPolicy.toValue AccessPolicy.decoded := by
  rintro a ⟨hmode, hrules⟩ b ⟨hmode', hrules'⟩ h
  simp only [AccessPolicy.toValue, Value.object.injEq, List.cons.injEq, Prod.mk.injEq, true_and,
    and_true, Value.string.injEq] at h
  have heq := optionToValue_injOn AccessRules.toValue_injOn (fun _ _ => Value.noConfusion) hrules
    hrules' h.2
  cases a
  cases b
  simp only [AccessPolicy.mk.injEq]
  exact ⟨PolicyMode.text_injOn hmode hmode' h.1, heq⟩

theorem DataTableDetail.toValue_injOn :
    Set.InjOn DataTableDetail.toValue DataTableDetail.decoded := by
  rintro a ⟨hschema, hpolicy⟩ b ⟨hschema', hpolicy'⟩ h
  simp only [DataTableDetail.toValue, Value.object.injEq, List.cons.injEq, Prod.mk.injEq, true_and,
    and_true, Value.string.injEq] at h
  obtain ⟨hp, hat, hby, hdisplay, hname, hs⟩ := h
  have hp' := AccessPolicy.toValue_injOn hpolicy hpolicy' hp
  have hs' := DataTableSchema.toValue_injOn hschema hschema' hs
  cases a
  cases b
  simp only [DataTableDetail.mk.injEq]
  exact ⟨hname, hdisplay, hs', hp', hby, hat⟩

theorem DataRowResponse.toValue_injective : Function.Injective DataRowResponse.toValue := by
  intro a b h
  simp only [DataRowResponse.toValue, Value.object.injEq, List.cons.injEq, Prod.mk.injEq, true_and,
    and_true, Value.string.injEq] at h
  obtain ⟨hcreated, hdata, hid, howner, hupdated⟩ := h
  have howner' := optionToValue_string_injective howner
  cases a
  cases b
  simp only [DataRowResponse.mk.injEq]
  exact ⟨hid, howner', hdata, hcreated, hupdated⟩

/-! ### The hashed documents -/

/-- The payload that is encoded and hashed. -/
def exportDocument (table : DataTableDetail) (rows : List DataRowResponse) : Value :=
  .object [("export_version", .string TABLE_EXPORT_VERSION),
    ("rows", .array (rows.map DataRowResponse.toValue)), ("table", table.toValue)]

/-- The documents that an export and an import of a payload hash. -/
def hashedDocuments (e : TableExportResponse) (payload : TableImportRequest) : Set Value :=
  {doc | doc = exportDocument e.table e.rows ∨ ∃ table rows,
    payload.table = some table.restoreSpec ∧ payload.rows = rows.map DataRowResponse.importRow ∧
      doc = exportDocument table rows}

theorem exportDocument_inj {table table' : DataTableDetail} {rows rows' : List DataRowResponse}
    (htable : table ∈ DataTableDetail.decoded) (htable' : table' ∈ DataTableDetail.decoded)
    (h : exportDocument table rows = exportDocument table' rows') :
    table = table' ∧ rows = rows' := by
  simp only [exportDocument, Value.object.injEq, List.cons.injEq, Prod.mk.injEq, true_and, and_true,
    Value.array.injEq] at h
  exact ⟨DataTableDetail.toValue_injOn htable htable' h.2,
    DataRowResponse.toValue_injective.list_map h.1⟩

theorem DataTableDetail.restoreSpec_injective :
    Function.Injective DataTableDetail.restoreSpec := by
  intro a b h
  simp only [DataTableDetail.restoreSpec, DataTableRestoreSpec.mk.injEq, Option.some.injEq] at h
  obtain ⟨hname, hdisplay, hschema, hpolicy, hby, hat⟩ := h
  cases a
  cases b
  simp only [DataTableDetail.mk.injEq]
  exact ⟨hname, hdisplay, hschema, hpolicy, hby, hat⟩

theorem DataRowResponse.importRow_injective : Function.Injective DataRowResponse.importRow := by
  intro a b h
  simp only [DataRowResponse.importRow, ImportRowRequest.mk.injEq, Option.some.injEq] at h
  obtain ⟨hid, howner, hdata, hcreated, hupdated⟩ := h
  cases a
  cases b
  simp only [DataRowResponse.mk.injEq]
  exact ⟨hid, howner, hdata, hcreated, hupdated⟩

/-! ### The checksum stage -/

section Stage

variable {pf : Platform} {e : TableExportResponse} {current : LoadedTable}
  {payload : TableImportRequest} {table : DataTableDetail}

theorem resolveImportChecksumTableDetail_eq (htable : payload.table = some table.restoreSpec) :
    resolveImportChecksumTableDetail current payload = .ok table := by
  rw [resolveImportChecksumTableDetail, htable]
  rfl

theorem verifyImportChecksum_eq_ok (hverify : payload.verifyChecksum = some true)
    (hversion : e.metadata.exportVersion = TABLE_EXPORT_VERSION)
    (hmetadata : payload.metadata = some e.metadata)
    (htable : payload.table = some table.restoreSpec) :
    verifyImportChecksum pf current payload = .ok () ↔
      e.metadata.rowCount = payload.rows.length ∧
        ∃ rows, payload.rows = rows.map DataRowResponse.importRow ∧
          buildTableExportChecksum pf table rows = e.metadata.checksumSha256 := by
  rw [verifyImportChecksum, hverify, hmetadata, resolveImportChecksumTableDetail_eq htable]
  simp only [Option.getD_some, Bool.not_true, Bool.false_eq_true, if_false, Outcome.require_some,
    Outcome.ok_bind, hversion, badRequest, Outcome.mapError_ok, Outcome.bind_eq_ok,
    Outcome.ensure_eq_ok, Outcome.mapError_eq_ok, beq_iff_eq, buildImportChecksum_eq_ok]
  constructor
  · rintro ⟨-, -, -, hcount, checksum, ⟨rows, hrows, rfl⟩, hsame⟩
    exact ⟨hcount, rows, hrows, hsame⟩
  · rintro ⟨hcount, rows, hrows, hsame⟩
    exact ⟨(), trivial, (), hcount, _, ⟨rows, hrows, rfl⟩, hsame⟩

theorem metadata_of_exportTable {db : Db} {claims : Claims} {tableName : String}
    {reply : Reply TableExportResponse}
    (hexport : exportTable pf db claims tableName = .ok reply) :
    reply.body.metadata = { exportVersion := TABLE_EXPORT_VERSION
                            rowCount := reply.body.rows.length
                            checksumSha256 := buildTableExportChecksum pf reply.body.table
                              reply.body.rows } := by
  obtain ⟨-, table, -, rfl⟩ := exportTable_eq_ok.mp hexport
  rfl

theorem table_of_exportTable {db : Db} {claims : Claims} {tableName : String}
    {reply : Reply TableExportResponse}
    (hexport : exportTable pf db claims tableName = .ok reply) :
    ∃ table ∈ db.dataTables, reply.body.table = table.detail := by
  obtain ⟨-, table, hload, rfl⟩ := exportTable_eq_ok.mp hexport
  exact ⟨table, (loadTable_some hload).1, rfl⟩

end Stage

/-- **The checksum accepts the exported document** and no other, where the hash is
    injective on the documents that the export and the import put together. -/
theorem import_checksum_exact {pf : Platform} {db : Db} {claims : Claims} {tableName : String}
    {reply : Reply TableExportResponse} {current : LoadedTable} {payload : TableImportRequest}
    {table : DataTableDetail} (hexport : exportTable pf db claims tableName = .ok reply)
    (hstored : ∀ t ∈ db.dataTables, t.detail ∈ DataTableDetail.decoded)
    (hmetadata : payload.metadata = some reply.body.metadata)
    (hverify : payload.verifyChecksum = some true)
    (htable : payload.table = some table.restoreSpec) (hdecoded : table ∈ DataTableDetail.decoded)
    (hhash : Set.InjOn pf.exportChecksum (hashedDocuments reply.body payload)) :
    verifyImportChecksum pf current payload = .ok () ↔
      table = reply.body.table ∧
        payload.rows = reply.body.rows.map DataRowResponse.importRow := by
  have hmeta := metadata_of_exportTable hexport
  have hexported : reply.body.table ∈ DataTableDetail.decoded := by
    obtain ⟨t, ht, heq⟩ := table_of_exportTable hexport
    rw [heq]
    exact hstored t ht
  rw [verifyImportChecksum_eq_ok hverify (by rw [hmeta]) hmetadata htable, hmeta]
  constructor
  · rintro ⟨-, rows, hrows, hsame⟩
    have hdoc : exportDocument table rows = exportDocument reply.body.table reply.body.rows :=
      hhash (.inr ⟨table, rows, htable, hrows, rfl⟩) (.inl rfl) hsame
    obtain ⟨rfl, rfl⟩ := exportDocument_inj hdecoded hexported hdoc
    exact ⟨rfl, hrows⟩
  · rintro ⟨rfl, hrows⟩
    exact ⟨by rw [hrows, List.length_map], reply.body.rows, hrows, rfl⟩

/-! ### A note that was changed on the way -/

mutual

/-- The texts in a value. -/
def Value.texts : Value → List String
  | .string s => [s]
  | .array items => textsOfItems items
  | .object fields => textsOfFields fields
  | _ => []

def Value.textsOfItems : List Value → List String
  | [] => []
  | item :: rest => item.texts ++ textsOfItems rest

def Value.textsOfFields : List (String × Value) → List String
  | [] => []
  | (_, value) :: rest => value.texts ++ textsOfFields rest

end

/-- A checksum that tells texts apart. -/
def textPlatform : Platform :=
  { asciiPlatform with exportChecksum := fun doc => "|".intercalate doc.texts }

def noteTable : DataTableDetail :=
  { name := "notes", displayName := "Notes", schema := noteSchema
    accessPolicy := { mode := .authenticatedSharedRw }, createdBy := "root"
    createdAt := "2026-01-01 00:00:00" }

def exportedNote (title : String) : DataRowResponse :=
  { id := "old", ownerUserId := none, data := note title, createdAt := "2026-01-01 00:00:00"
    updatedAt := "2026-01-01 00:00:00" }

theorem noteTable_decoded : noteTable ∈ DataTableDetail.decoded := by
  refine ⟨?_, rfl, fun _ h => nomatch h⟩
  intro e he
  rw [List.mem_singleton.mp he]
  exact ⟨rfl, fun h => nomatch h⟩

theorem notes_tables : ∀ t ∈ (runData textPlatform rootDb notesRun).dataTables,
    t.detail = noteTable := by
  have hall : ((runData textPlatform rootDb notesRun).dataTables.rows.all fun t =>
      t.detail == noteTable) = true := by decide +kernel
  intro t ht
  exact beq_iff_eq.mp (List.all_eq_true.mp hall t ht)

theorem notes_export : ∃ reply,
    exportTable textPlatform (runData textPlatform rootDb notesRun) root "notes" = .ok reply ∧
      reply.body.table = noteTable ∧ reply.body.rows = [exportedNote "old"] := by
  have hload : ((loadTable textPlatform (runData textPlatform rootDb notesRun) root.appId
      "notes").map (·.id)) = some "t0" := by decide +kernel
  obtain ⟨table, htable, hid⟩ := Option.map_eq_some_iff.mp hload
  refine ⟨_, exportTable_eq_ok.mpr ⟨rfl, table, htable, rfl⟩, ?_, ?_⟩
  · exact notes_tables table (loadTable_some htable).1
  · have hrows : ((runData textPlatform rootDb notesRun).dataRows.select fun r =>
        r.appId == root.appId && r.tableId == "t0") = [oldNote] := by decide +kernel
    show (exportedRows _ root.appId table.id).map DataRowResponse.ofRecord = _
    rw [hid, exportedRows, hrows, List.mergeSort_singleton]
    rfl

/-- The title is another one: the stage refuses the payload. -/
theorem changed_note_refused : ∃ reply,
    exportTable textPlatform (runData textPlatform rootDb notesRun) root "notes" = .ok reply ∧
      ∀ current, verifyImportChecksum textPlatform current
        { reply.body.restorePayload with rows := [(exportedNote "new").importRow] } ≠ .ok () := by
  obtain ⟨reply, hreply, htable, hrows⟩ := notes_export
  refine ⟨reply, hreply, ?_⟩
  intro current haccepted
  have hhash : Set.InjOn textPlatform.exportChecksum (hashedDocuments reply.body
      { reply.body.restorePayload with rows := [(exportedNote "new").importRow] }) := by
    have hdocs : ∀ doc ∈ hashedDocuments reply.body
        { reply.body.restorePayload with rows := [(exportedNote "new").importRow] },
        doc = exportDocument noteTable [exportedNote "old"] ∨
          doc = exportDocument noteTable [exportedNote "new"] := by
      rintro doc (hdoc | ⟨table, rows, hsame, hnew, hdoc⟩)
      · rw [hdoc, htable, hrows]
        exact .inl rfl
      · have htable' := DataTableDetail.restoreSpec_injective (Option.some.inj hsame)
        have hrows' : [exportedNote "new"] = rows :=
          DataRowResponse.importRow_injective.list_map hnew
        rw [hdoc, ← htable', htable, ← hrows']
        exact .inr rfl
    have hne : textPlatform.exportChecksum (exportDocument noteTable [exportedNote "old"]) ≠
        textPlatform.exportChecksum (exportDocument noteTable [exportedNote "new"]) := by
      decide +kernel
    intro doc hdoc doc' hdoc' hsame
    rcases hdocs doc hdoc with rfl | rfl
    · rcases hdocs doc' hdoc' with rfl | rfl
      · rfl
      · exact absurd hsame hne
    · rcases hdocs doc' hdoc' with rfl | rfl
      · exact absurd hsame.symm hne
      · rfl
  have hequal := (import_checksum_exact hreply
    (fun t ht => (notes_tables t ht).symm ▸ noteTable_decoded) rfl rfl rfl
    (htable.symm ▸ noteTable_decoded) hhash).mp haccepted
  rw [hrows] at hequal
  have hsame : [exportedNote "new"] = [exportedNote "old"] :=
    DataRowResponse.importRow_injective.list_map hequal.2
  exact absurd hsame (by decide)

end Peanut
