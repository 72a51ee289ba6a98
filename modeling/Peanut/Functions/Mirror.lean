import Peanut.Functions.Changes

/-!
# A function row mirrors its active version

The configuration of a function is stored twice, in its row and in its active
version: the checks before an invocation read the one, the execution the other.
The transactions that write the row write it from the version they activate.  A
rollback reads that version before its transaction begins; a version does not
change as long as its function is there, so the copy is right when it is written,
provided that the id of a deleted function is not given to another.
-/

namespace Peanut

open Relational Interleaving

/-- The row of a function and a version agree in every column they share. -/
structure MirrorsVersion (db : Db) (f : FunctionDetail) (v : FunctionVersion) : Prop where
  active_version_id : f.activeVersionId = v.id
  function_id : v.functionId = f.id
  active_version_number : f.activeVersionNumber = v.versionNumber
  runtime : f.runtime = v.runtime
  source_code : f.sourceCode = v.sourceCode
  invoke_policy : f.invokePolicy = v.invokePolicy
  env_json : f.env = v.env
  api_key_hash : f.apiKeyHash = v.apiKeyHash
  allowed_origins_json : f.allowedOrigins = v.allowedOrigins
  rate_limit_per_minute : f.rateLimitPerMinute = v.rateLimitPerMinute
  timeout_ms : f.timeoutMs = v.timeoutMs
  secret_key_count : f.secretKeyCount = countSecrets db v.id

def Mirrored (db : Db) (f : FunctionDetail) : Prop :=
  ∃ v ∈ db.functionVersions, MirrorsVersion db f v

/-- The columns of a version a row is written from. -/
structure CopiesVersion (validated : ValidatedFunction) (version : LoadedFunctionVersion) :
    Prop where
  runtime : validated.runtime = version.runtime
  source_code : validated.sourceCode = version.sourceCode
  invoke_policy : validated.invokePolicy = version.invokePolicy
  env_json : validated.env = version.env
  api_key_hash : validated.apiKeyHash = version.apiKeyHash
  allowed_origins_json : validated.allowedOrigins = version.allowedOrigins
  rate_limit_per_minute : validated.rateLimitPerMinute = version.rateLimitPerMinute
  timeout_ms : validated.timeoutMs = version.timeoutMs

/-- The version is one of the function, as it is stored. -/
def VersionStored (db : Db) (functionId : String) (version : LoadedFunctionVersion) : Prop :=
  ∃ v ∈ db.functionVersions, v.functionId = functionId ∧ version = v.loaded (countSecrets db v.id)

/-- The version is stored while the function is. -/
def VersionHeld (db : Db) (functionId : String) (version : LoadedFunctionVersion) : Prop :=
  db.functions.hasKey functionId = true → VersionStored db functionId version

/-- The function tables between two statements. -/
structure FunctionRows (db : Db) : Prop where
  mirrored : ∀ f ∈ db.functions, Mirrored db f
  secret_version : ∀ s ∈ db.functionVersionSecrets, db.functionVersions.hasKey s.versionId = true

/-- The function with the id is not new, and as long as it is there its versions
    are what they were. -/
structure FunctionKept (db db' : Db) (functionId : String) : Prop where
  present : db'.functions.hasKey functionId = true → db.functions.hasKey functionId = true
  versions : db'.functions.hasKey functionId = true →
    ∀ v ∈ db.functionVersions, v.functionId = functionId →
      v ∈ db'.functionVersions ∧ countSecrets db' v.id = countSecrets db v.id

/-- What a statement leaves behind; a new function has the id drawn. -/
structure FunctionsWritten (env : Env) (db db' : Db) : Prop where
  rows : FunctionRows db'
  kept : ∀ functionId, functionId ≠ env.uuid 0 → FunctionKept db db' functionId

theorem VersionHeld.of_kept {db db' : Db} {functionId : String} {version : LoadedFunctionVersion}
    (h : VersionHeld db functionId version) (hkept : FunctionKept db db' functionId) :
    VersionHeld db' functionId version := by
  intro hkey
  obtain ⟨v, hv, hfunction, rfl⟩ := h (hkept.present hkey)
  obtain ⟨hv', hcount⟩ := hkept.versions hkey v hv hfunction
  exact ⟨v, hv', hfunction, by rw [hcount]⟩

/-! ### Storing a version -/

section Versions

variable {cipher : SecretCipher} {env : Env} {db db' : Db}

theorem insertFunctionSecrets_count {versionId : String} {entries : List (String × String)} :
    ∀ {n : Nat} {db db' : Db},
      insertFunctionSecrets cipher env versionId n entries db = some db' → ∀ id : String,
        countSecrets db' id =
          countSecrets db id + if id = versionId then (entries.length : Int) else 0 := by
  induction entries with
  | nil =>
    intro n db db' h id
    cases h
    simp
  | cons e rest ih =>
    intro n db db' h id
    obtain ⟨db₁, hinsert, hrest⟩ := Option.bind_eq_some_iff.mp h
    obtain ⟨-, secrets, hins, rfl⟩ := Db.insertFunctionSecret_eq_some.mp hinsert
    rw [ih hrest id]
    have hrow : countSecrets { db with functionVersionSecrets := secrets } id =
        countSecrets db id + if id = versionId then 1 else 0 := by
      simp only [countSecrets, KeyedTable.length_select_insert? hins, newSecretRow]
      by_cases hid : id = versionId
      · simp [hid]
      · simp [hid, Ne.symm hid]
    rw [hrow]
    by_cases hid : id = versionId
    · simp only [hid, if_true, List.length_cons]
      omega
    · simp [hid]

/-- A version that is stored with its secrets. -/
structure VersionSaved (db db' : Db) (functionId : String) (validated : ValidatedFunction)
    (version : LoadedFunctionVersion) : Prop where
  functions : db'.functions = db.functions
  stored : VersionStored db' functionId version
  copies : CopiesVersion validated version
  versions : ∀ v ∈ db.functionVersions,
    v ∈ db'.functionVersions ∧ countSecrets db' v.id = countSecrets db v.id
  secret_version : ∀ s ∈ db'.functionVersionSecrets,
    db'.functionVersions.hasKey s.versionId = true

theorem insertFunctionVersion_saved {versionId functionId appId createdBy : String} {number : Int}
    {validated : ValidatedFunction} {version : LoadedFunctionVersion}
    (h : insertFunctionVersion cipher db env versionId functionId appId number validated createdBy =
      some (version, db'))
    (hsecrets : ∀ s ∈ db.functionVersionSecrets, db.functionVersions.hasKey s.versionId = true) :
    VersionSaved db db' functionId validated version := by
  have hadded := (insertFunctionVersion_some h).1
  obtain ⟨db₁, hrow, h⟩ := Option.bind_eq_some_iff.mp h
  obtain ⟨db₂, hinsert, h⟩ := Option.bind_eq_some_iff.mp h
  cases h
  obtain ⟨-, -, -, versions, hins, rfl⟩ := Db.insertFunctionVersionRow_eq_some.mp hrow
  have hcount : ∀ id, countSecrets db' id = countSecrets db id +
      if id = versionId then (validated.secretValues.length : Int) else 0 := by
    intro id
    rw [insertFunctionSecrets_count hinsert id]
    rfl
  have hnew : db.functionVersions.hasKey versionId = false := (KeyedTable.insert?_eq_some.mp hins).1
  -- no secret is stored for an id that is new
  have hzero : countSecrets db versionId = 0 := by
    have hnone : db.functionVersionSecrets.select (·.versionId == versionId) = [] := by
      rw [List.eq_nil_iff_forall_not_mem]
      intro s hs
      obtain ⟨hs, hid⟩ := KeyedTable.mem_select.mp hs
      have hkey := hsecrets s hs
      rw [beq_iff_eq.mp hid, hnew] at hkey
      cases hkey
    rw [countSecrets, hnone]
    rfl
  have hfunctions : db'.functions = db.functions := by
    obtain ⟨versions', secrets', heq⟩ := hadded.frame
    rw [heq]
  have htotal : countSecrets db' versionId = (validated.secretValues.length : Int) := by
    rw [hcount, hzero, if_pos rfl, Int.zero_add]
  refine ⟨hfunctions, ⟨_, (hadded.versions _).mpr (.inr rfl), rfl, ?_⟩,
    ⟨rfl, rfl, rfl, rfl, rfl, rfl, rfl, rfl⟩, ?_, ?_⟩
  · rw [← htotal]
    rfl
  · intro v hv
    refine ⟨(hadded.versions v).mpr (.inl hv), ?_⟩
    have hne : v.id ≠ versionId := by
      rintro rfl
      rw [KeyedTable.hasKey_of_mem hv] at hnew
      cases hnew
    rw [hcount, if_neg hne, Int.add_zero]
  · intro s hs
    rw [KeyedTable.hasKey_iff]
    rcases hadded.secrets s hs with hs | ⟨m, e, rfl⟩
    · obtain ⟨w, hw, hid⟩ := KeyedTable.hasKey_iff.mp (hsecrets s hs)
      exact ⟨w, (hadded.versions w).mpr (.inl hw), hid⟩
    · exact ⟨_, (hadded.versions _).mpr (.inr rfl), rfl⟩

end Versions

/-! ### The statements -/

section Statements

variable {cipher : SecretCipher} {env : Env} {db db' : Db}

theorem FunctionKept.refl (db : Db) (functionId : String) : FunctionKept db db functionId :=
  ⟨id, fun _ _ hv _ => ⟨hv, rfl⟩⟩

variable {functionId updatedBy : String}

theorem FunctionKept.trans {db'' : Db} (h : FunctionKept db db' functionId)
    (h' : FunctionKept db' db'' functionId) : FunctionKept db db'' functionId := by
  refine ⟨fun hkey => h.present (h'.present hkey), ?_⟩
  intro hkey v hv hfunction
  obtain ⟨hv', hcount⟩ := h.versions (h'.present hkey) v hv hfunction
  obtain ⟨hv'', hcount'⟩ := h'.versions hkey v hv' hfunction
  exact ⟨hv'', hcount'.trans hcount⟩

theorem VersionSaved.kept {functionId : String} {validated : ValidatedFunction}
    {version : LoadedFunctionVersion} (h : VersionSaved db db' functionId validated version)
    (id : String) : FunctionKept db db' id := by
  refine ⟨?_, fun _ v hv _ => h.versions v hv⟩
  rw [h.functions]
  exact fun hkey => hkey

theorem Mirrored.of_versions {f : FunctionDetail} (h : Mirrored db f)
    (hversions : ∀ v ∈ db.functionVersions, v.functionId = f.id →
      v ∈ db'.functionVersions ∧ countSecrets db' v.id = countSecrets db v.id) :
    Mirrored db' f := by
  obtain ⟨v, hv, hmirrors⟩ := h
  obtain ⟨hv', hcount⟩ := hversions v hv hmirrors.function_id
  exact ⟨v, hv', { hmirrors with
    secret_key_count := by rw [hcount]; exact hmirrors.secret_key_count }⟩

variable {validated : ValidatedFunction} {version : LoadedFunctionVersion}

theorem activate_mirrored (hothers : ∀ f ∈ db.functions, f.id ≠ functionId → Mirrored db f)
    (hheld : VersionHeld db functionId version) (hcopies : CopiesVersion validated version)
    (hact : activateFunctionVersion db env functionId validated version updatedBy = some db') :
    ∀ f ∈ db'.functions, Mirrored db' f := by
  obtain ⟨functions, rfl, hmem, -⟩ := activateFunctionVersion_some hact
  intro f' hf'
  obtain ⟨f, hf, rfl⟩ := (hmem _).mp hf'
  by_cases hfid : f.id = functionId
  · rw [if_pos hfid]
    obtain ⟨v, hv, hfunction, rfl⟩ := hheld (hfid ▸ KeyedTable.hasKey_of_mem hf)
    exact ⟨v, hv, rfl, hfunction.trans hfid.symm, rfl, hcopies.runtime, hcopies.source_code,
      hcopies.invoke_policy, hcopies.env_json, hcopies.api_key_hash, hcopies.allowed_origins_json,
      hcopies.rate_limit_per_minute, hcopies.timeout_ms, rfl⟩
  · rw [if_neg hfid]
    exact (hothers f hf hfid).of_versions fun v hv _ => ⟨hv, rfl⟩

theorem activate_kept
    (hact : activateFunctionVersion db env functionId validated version updatedBy = some db')
    (id : String) : FunctionKept db db' id := by
  obtain ⟨functions, rfl, -, hkeys⟩ := activateFunctionVersion_some hact
  refine ⟨?_, fun _ v hv _ => ⟨hv, rfl⟩⟩
  intro hkey
  rw [← hkeys id]
  exact hkey

theorem FunctionRows.written (h : FunctionRows db) (env : Env) : FunctionsWritten env db db :=
  ⟨h, fun functionId _ => FunctionKept.refl db functionId⟩

theorem FunctionRows.logged (h : FunctionRows db) (env : Env) (logs : KeyedTable AuditLog (·.id)) :
    FunctionsWritten env db { db with auditLogs := logs } := by
  refine ⟨⟨?_, h.secret_version⟩, fun functionId _ => ⟨id, fun _ v hv _ => ⟨hv, rfl⟩⟩⟩
  intro f hf
  exact (h.mirrored f hf).of_versions fun v hv _ => ⟨hv, rfl⟩

theorem FunctionRows.createFunctionTx (h : FunctionRows db) {claims : Claims}
    (hok : Peanut.createFunctionTx cipher db env claims validated = .ok db') :
    FunctionsWritten env db db' := by
  simp only [Peanut.createFunctionTx, Outcome.bind_eq_ok, Outcome.require_eq_ok] at hok
  obtain ⟨db₁, hinsert, ⟨version, db₂⟩, hversion, hact⟩ := hok
  obtain ⟨-, -, -, functions, hins, rfl⟩ := Db.insertFunction_eq_some.mp hinsert
  have hsaved := insertFunctionVersion_saved hversion h.secret_version
  have hold : ∀ f ∈ db₂.functions, f.id ≠ env.uuid 0 → f ∈ db.functions := by
    intro f hf hne
    rw [hsaved.functions] at hf
    rcases (KeyedTable.mem_insert? hins).mp hf with hf | rfl
    · exact hf
    · exact absurd rfl hne
  refine ⟨⟨activate_mirrored ?_ (fun _ => hsaved.stored) hsaved.copies hact, ?_⟩, ?_⟩
  · intro f hf hne
    exact (h.mirrored f (hold f hf hne)).of_versions fun v hv _ => hsaved.versions v hv
  · obtain ⟨functions', rfl, -, -⟩ := activateFunctionVersion_some hact
    exact hsaved.secret_version
  · intro functionId hne
    have hinserted : FunctionKept db { db with functions := functions } functionId := by
      refine ⟨?_, fun _ v hv _ => ⟨hv, rfl⟩⟩
      intro hkey
      obtain ⟨f, hf, hid⟩ := KeyedTable.hasKey_iff.mp hkey
      rcases (KeyedTable.mem_insert? hins).mp hf with hf | rfl
      · exact KeyedTable.hasKey_iff.mpr ⟨f, hf, hid⟩
      · exact absurd hid.symm hne
    exact (hinserted.trans (hsaved.kept functionId)).trans (activate_kept hact functionId)

theorem FunctionRows.updateFunctionTx (h : FunctionRows db) {claims : Claims}
    {existing : FunctionDetail}
    (hok : Peanut.updateFunctionTx cipher db env claims existing validated = .ok db') :
    FunctionsWritten env db db' := by
  simp only [Peanut.updateFunctionTx, Outcome.bind_eq_ok, Outcome.require_eq_ok] at hok
  obtain ⟨⟨version, db₁⟩, hversion, hact⟩ := hok
  have hsaved := insertFunctionVersion_saved hversion h.secret_version
  refine ⟨⟨activate_mirrored ?_ (fun _ => hsaved.stored) hsaved.copies hact, ?_⟩, ?_⟩
  · intro f hf _
    rw [hsaved.functions] at hf
    exact (h.mirrored f hf).of_versions fun v hv _ => hsaved.versions v hv
  · obtain ⟨functions, rfl, -, -⟩ := activateFunctionVersion_some hact
    exact hsaved.secret_version
  · intro functionId _
    exact (hsaved.kept functionId).trans (activate_kept hact functionId)

theorem FunctionRows.activate (h : FunctionRows db)
    (hheld : VersionHeld db functionId version) (hcopies : CopiesVersion validated version)
    (hact : activateFunctionVersion db env functionId validated version updatedBy = some db') :
    FunctionsWritten env db db' := by
  refine ⟨⟨activate_mirrored (fun f hf _ => h.mirrored f hf) hheld hcopies hact, ?_⟩,
    fun id _ => activate_kept hact id⟩
  obtain ⟨functions, rfl, -, -⟩ := activateFunctionVersion_some hact
  exact h.secret_version

theorem FunctionRows.deleteFunctions (h : FunctionRows db) (env : Env) (p : FunctionDetail → Bool) :
    FunctionsWritten env db (db.deleteFunctions p) := by
  -- a version stays with its function, and its secrets with it
  have hstay : ∀ v ∈ db.functionVersions,
      (∀ f ∈ db.functions, p f = true → f.id ≠ v.functionId) →
      v ∈ (db.deleteFunctions p).functionVersions ∧
        countSecrets (db.deleteFunctions p) v.id = countSecrets db v.id := by
    intro v hv hnot
    refine ⟨KeyedTable.mem_deleteWhere.mpr ⟨hv, Db.functionGone_eq_false.mpr hnot⟩, ?_⟩
    have hsecrets := KeyedTable.select_deleteWhere (t := db.functionVersionSecrets)
      (p := fun s => db.functionVersions.rows.any fun w =>
        (db.functions.rows.any fun f => p f && f.id == w.functionId) && w.id == s.versionId)
      (q := (·.versionId == v.id)) ?_
    · rw [countSecrets, countSecrets, ← hsecrets]
      rfl
    · intro s _ hid
      rw [List.any_eq_false]
      intro w hw
      by_cases hwid : w.id = v.id
      · have hsame := db.functionVersions.eq_of_key_eq hw hv hwid
        subst hsame
        rw [Db.functionGone_eq_false.mpr hnot]
        simp
      · simp [beq_iff_eq.mp hid, hwid]
  have hkey : ∀ functionId, (db.deleteFunctions p).functions.hasKey functionId = true →
      ∃ f ∈ db.functions, f.id = functionId ∧
        ∀ g ∈ db.functions, p g = true → g.id ≠ functionId := by
    intro functionId hkey
    obtain ⟨f, hf, hid⟩ := KeyedTable.hasKey_iff.mp hkey
    exact ⟨f, (KeyedTable.mem_deleteWhere.mp hf).1, hid, hid ▸ Db.not_deleted_of_mem hf⟩
  refine ⟨⟨?_, ?_⟩, ?_⟩
  · intro f hf
    obtain ⟨-, -, -, hnot⟩ := hkey f.id (KeyedTable.hasKey_of_mem hf)
    refine (h.mirrored f (KeyedTable.mem_deleteWhere.mp hf).1).of_versions ?_
    intro v hv hfunction
    exact hstay v hv (by rw [hfunction]; exact hnot)
  · exact Db.deleteFunctions_secret_version h.secret_version p
  · intro functionId _
    refine ⟨?_, ?_⟩
    · intro hpresent
      obtain ⟨f, hf, hid, -⟩ := hkey functionId hpresent
      exact KeyedTable.hasKey_iff.mpr ⟨f, hf, hid⟩
    · intro hpresent v hv hfunction
      obtain ⟨-, -, -, hnot⟩ := hkey functionId hpresent
      exact hstay v hv (by rw [hfunction]; exact hnot)

end Statements

/-! ### Requests under way -/

/-- What a request knows at a stage.  A rollback holds a version of a function whose
    id was drawn before. -/
def StageSound (drawn : String → Prop) (db : Db) : FunctionStage → Prop
  | .found f => drawn f.id
  | .versionFound f version => drawn f.id ∧ VersionHeld db f.id version
  | .activating f version validated =>
      drawn f.id ∧ VersionHeld db f.id version ∧ CopiesVersion validated version
  | _ => True

section Stages

variable {pf : Platform} {cipher : SecretCipher} {db db' : Db} {drawn : String → Prop}

variable {stage : FunctionStage}

theorem StageSound.imp {drawn' : String → Prop} (himp : ∀ id, drawn id → drawn' id)
    (h : StageSound drawn db stage) : StageSound drawn' db stage := by
  cases stage with
  | found f => exact himp _ h
  | versionFound f version => exact ⟨himp _ h.1, h.2⟩
  | activating f version validated => exact ⟨himp _ h.1, h.2⟩
  | _ => trivial

theorem StageSound.of_written {env : Env} (h : StageSound drawn db stage)
    (hwritten : FunctionsWritten env db db') (hfresh : ∀ id, drawn id → id ≠ env.uuid 0) :
    StageSound drawn db' stage := by
  cases stage with
  | found f => exact h
  | versionFound f version =>
    obtain ⟨hdrawn, hheld⟩ := h
    exact ⟨hdrawn, hheld.of_kept (hwritten.kept f.id (hfresh f.id hdrawn))⟩
  | activating f version validated =>
    obtain ⟨hdrawn, hheld, hcopies⟩ := h
    exact ⟨hdrawn, hheld.of_kept (hwritten.kept f.id (hfresh f.id hdrawn)), hcopies⟩
  | _ => trivial

theorem loadFunctionVersionByNumber_stored {functionId : String} {number : Int}
    {version : LoadedFunctionVersion}
    (h : loadFunctionVersionByNumber db functionId number = some version) :
    VersionStored db functionId version := by
  obtain ⟨v, hselect, rfl⟩ := Option.map_eq_some_iff.mp h
  obtain ⟨hv, hmatch⟩ := KeyedTable.selectOne_some hselect
  simp only [Bool.and_eq_true, beq_iff_eq] at hmatch
  exact ⟨v, hv, hmatch.1, rfl⟩

theorem FunctionCall.log_frame (t : FunctionTick) (db : Db) (c : FunctionCall)
    (f : FunctionDetail) : ∃ logs, c.log t db f = { db with auditLogs := logs } := by
  unfold FunctionCall.log
  split
  · exact ⟨db.auditLogs, rfl⟩
  · exact Db.recordAuditLog_frame db t.env _ _ _ _ _ _ _

theorem FunctionCall.receive_sound (c : FunctionCall) (hdrawn : ∀ f ∈ db.functions, drawn f.id)
    (h : c.receive pf db = .ok stage) : StageSound drawn db stage := by
  have hfound : ∀ name, (do
      requireAdmin c.claims
      return FunctionStage.found (← Outcome.require (loadFunctionByName db c.claims.appId name)
        (jsonError .notFound "function not found")) : Except ApiError FunctionStage) = .ok stage →
      StageSound drawn db stage := by
    intro name h
    simp only [Outcome.bind_eq_ok, Outcome.require_eq_ok] at h
    obtain ⟨_, _, f, hload, heq⟩ := h
    cases heq
    exact hdrawn f (loadFunctionByName_some hload).1
  unfold FunctionCall.receive at h
  cases hchange : c.change with
  | create payload =>
    simp only [hchange, Outcome.bind_eq_ok] at h
    obtain ⟨_, _, validated, _, heq⟩ := h
    cases heq
    trivial
  | update name payload => exact hfound name (by simpa only [hchange] using h)
  | rollback name versionNumber => exact hfound name (by simpa only [hchange] using h)
  | delete name => exact hfound name (by simpa only [hchange] using h)

/-- The row and the stage after a statement. -/
structure StepSound (drawn : String → Prop) (env : Env) (db : Db) (r : Db × FunctionCall) :
    Prop where
  written : FunctionsWritten env db r.1
  stage : StageSound drawn r.1 r.2.stage

theorem StepSound.moved (h : FunctionRows db) (env : Env) (c : FunctionCall)
    {next : Except ApiError FunctionStage}
    (hstage : ∀ stage, next = .ok stage → StageSound drawn db stage) :
    StepSound drawn env db (db, c.moved next) := by
  refine ⟨h.written env, ?_⟩
  cases next with
  | error e => trivial
  | ok stage => exact hstage stage rfl

theorem StepSound.commits (h : FunctionRows db) (env : Env) (c : FunctionCall) (name : String)
    {result : Except ApiError Db}
    (hresult : ∀ db', result = .ok db' → FunctionsWritten env db db') :
    StepSound drawn env db (c.commits db name result) := by
  cases result with
  | error e => exact ⟨h.written env, trivial⟩
  | ok db' => exact ⟨hresult db' rfl, trivial⟩

theorem StepSound.logged (h : FunctionRows db) (t : FunctionTick) (c : FunctionCall)
    (f : FunctionDetail) (reply : Except ApiError FunctionReply) :
    StepSound drawn t.env db (c.log t db f, { c with stage := .answered reply }) := by
  obtain ⟨logs, hlogs⟩ := FunctionCall.log_frame t db c f
  rw [hlogs]
  exact ⟨h.logged t.env logs, trivial⟩

/-- **One statement.** -/
theorem FunctionCall.advance_sound (c : FunctionCall) (t : FunctionTick) (h : FunctionRows db)
    (hdrawn : ∀ f ∈ db.functions, drawn f.id) (hstage : StageSound drawn db c.stage) :
    StepSound drawn t.env db (c.advance pf cipher t db) := by
  unfold FunctionCall.advance
  cases hc : c.stage with
  | received => exact .moved h t.env c fun stage hnext => c.receive_sound hdrawn hnext
  | creating validated => exact .commits h t.env c _ fun db' hok => h.createFunctionTx hok
  | found f =>
    rw [hc] at hstage
    cases hchange : c.change with
    | create payload => exact ⟨h.written t.env, by rw [hc]; exact hstage⟩
    | update name payload =>
      refine .moved h t.env c ?_
      intro stage hnext
      simp only [checkUpdate, Outcome.bind_eq_ok] at hnext
      obtain ⟨_, _, validated, _, heq⟩ := hnext
      cases heq
      trivial
    | rollback name versionNumber =>
      refine .moved h t.env c ?_
      intro stage hnext
      simp only [findVersion, Outcome.bind_eq_ok, Outcome.require_eq_ok] at hnext
      obtain ⟨version, hversion, heq⟩ := hnext
      cases heq
      exact ⟨hstage, fun _ => loadFunctionVersionByNumber_stored hversion⟩
    | delete name =>
      simp only [remove]
      split
      · exact ⟨h.deleteFunctions t.env _, trivial⟩
      · exact ⟨h.written t.env, trivial⟩
  | updating existing validated => exact .commits h t.env c _ fun db' hok => h.updateFunctionTx hok
  | versionFound f version =>
    rw [hc] at hstage
    refine ⟨h.written t.env, hstage.1, hstage.2, ?_⟩
    -- whether or not the secrets were read, the columns are those of the version
    split
    · exact ⟨rfl, rfl, rfl, rfl, rfl, rfl, rfl, rfl⟩
    · exact ⟨rfl, rfl, rfl, rfl, rfl, rfl, rfl, rfl⟩
  | activating f version validated =>
    rw [hc] at hstage
    obtain ⟨-, hheld, hcopies⟩ := hstage
    refine .commits h t.env c _ ?_
    intro db' hok
    exact h.activate hheld hcopies (Outcome.require_eq_ok.mp hok)
  | committed name =>
    dsimp only
    split
    · exact ⟨h.written t.env, trivial⟩
    · exact ⟨h.written t.env, trivial⟩
  | reloaded f => exact .logged h t c f _
  | deleted f => exact .logged h t c f _
  | answered reply => exact ⟨h.written t.env, by rw [hc]; trivial⟩

theorem FunctionCall.step_sound (pf : Platform) (cipher : SecretCipher) (c : FunctionCall)
    (t : FunctionTick) (h : FunctionRows db) (hdrawn : ∀ f ∈ db.functions, drawn f.id)
    (hstage : StageSound drawn db c.stage) :
    StepSound drawn t.env db (c.step pf cipher t db) := by
  unfold FunctionCall.step
  split
  · exact ⟨h.written t.env, trivial⟩
  · exact c.advance_sound t h hdrawn hstage

end Stages

/-! ### Every interleaving -/

section Runs

variable {ι : Type}

/-- `Uuid::new_v4`: no two ticks draw the same id. -/
def UuidsDistinct (ticks : List (ι × FunctionTick)) : Prop :=
  ticks.Pairwise fun t u => ∀ m n, t.2.env.uuid m ≠ u.2.env.uuid n

/-- The ids the ticks so far have drawn. -/
def DrawnIn (ticks : List (ι × FunctionTick)) (id : String) : Prop :=
  ∃ t ∈ ticks, ∃ n, t.2.env.uuid n = id

/-- Requests that have just been received, and no function yet. -/
def functionCalls (db : Db) (requests : ι → Claims × FunctionChange) : Pool ι Db FunctionCall :=
  { store := db.withoutFunctions
    request := fun i => ⟨(requests i).1, (requests i).2, .received⟩ }

/-- The pool after some ticks. -/
structure CallsSound (pre : List (ι × FunctionTick)) (p : Pool ι Db FunctionCall) : Prop where
  rows : FunctionRows p.store
  drawn : ∀ f ∈ p.store.functions, DrawnIn pre f.id
  stages : ∀ i, StageSound (DrawnIn pre) p.store (p.request i).stage

theorem CallsSound.start (db : Db) (requests : ι → Claims × FunctionChange) :
    CallsSound [] (functionCalls db requests) := by
  refine ⟨⟨?_, ?_⟩, ?_, ?_⟩
  · intro f hf
    exact absurd hf (KeyedTable.not_mem_empty f)
  · intro s hs
    exact absurd hs (KeyedTable.not_mem_empty s)
  · intro f hf
    exact absurd hf (KeyedTable.not_mem_empty f)
  · intro i
    trivial

variable [DecidableEq ι]

theorem CallsSound.tick {pf : Platform} {cipher : SecretCipher} {pre : List (ι × FunctionTick)}
    {t : ι × FunctionTick} {p : Pool ι Db FunctionCall}
    (hfresh : ∀ id, DrawnIn pre id → id ≠ t.2.env.uuid 0) (h : CallsSound pre p) :
    CallsSound (pre ++ [t]) (Interleaving.tick (FunctionCall.step pf cipher) p t) := by
  have hstep := FunctionCall.step_sound pf cipher (p.request t.1) t.2 h.rows h.drawn (h.stages t.1)
  have hlater : ∀ id, DrawnIn pre id → DrawnIn (pre ++ [t]) id := by
    rintro id ⟨u, hu, hid⟩
    exact ⟨u, List.mem_append_left [t] hu, hid⟩
  refine ⟨hstep.written.rows, ?_, ?_⟩
  · intro f hf
    by_cases hnew : f.id = t.2.env.uuid 0
    · exact ⟨t, List.mem_append_right pre List.mem_cons_self, 0, hnew.symm⟩
    · have hkey := (hstep.written.kept f.id hnew).present (KeyedTable.hasKey_of_mem hf)
      obtain ⟨g, hg, hid⟩ := KeyedTable.hasKey_iff.mp hkey
      rw [← hid]
      exact hlater g.id (h.drawn g hg)
  · rw [forall_request_tick (P := fun _ (c : FunctionCall) =>
      StageSound (DrawnIn (pre ++ [t])) _ c.stage)]
    refine ⟨hstep.stage.imp hlater, ?_⟩
    intro i _
    exact ((h.stages i).of_written hstep.written hfresh).imp hlater

/-- **Every interleaving.**  In every state the row of a function mirrors the
    version it names as active. -/
theorem functions_mirror_active_version (pf : Platform) (cipher : SecretCipher) (db : Db)
    (requests : ι → Claims × FunctionChange) (ticks : List (ι × FunctionTick))
    (hids : UuidsDistinct ticks) :
    Always (FunctionCall.step pf cipher)
      (fun p => ∀ f ∈ p.store.functions, ∃ v ∈ p.store.functionVersions,
        MirrorsVersion p.store f v)
      (functionCalls db requests) ticks := by
  have hstep : ∀ pre t post, ticks = pre ++ t :: post → ∀ p, CallsSound pre p →
      CallsSound (pre ++ [t]) (Interleaving.tick (FunctionCall.step pf cipher) p t) := by
    rintro pre t post rfl p h
    refine h.tick ?_
    rintro id ⟨u, hu, n, rfl⟩
    have hapart := (List.pairwise_append.mp hids).2.2 u hu t List.mem_cons_self
    exact hapart n 0
  intro pre post hsplit
  exact (run_traced (CallsSound.start db requests) hstep pre post hsplit).rows.mirrored

end Runs

/-! ### A rollback and an update at the same time -/

/-- A tick that draws ids with an initial of its own. -/
def initialTick (initial : Char) : FunctionTick := { env := sampleEnv (String.singleton initial) }

theorem initialTick_apart {a b : Char} (h : a ≠ b) (m n : Nat) :
    (initialTick a).env.uuid m ≠ (initialTick b).env.uuid n := by
  intro heq
  have hlist := congrArg String.toList heq
  simp only [initialTick, sampleEnv, String.toList_append, String.toList_singleton,
    List.singleton_append, List.cons.injEq] at hlist
  exact h hlist.1

/-- Ada's function, a second version of it, and the way back to the first. -/
inductive RacingCall where
  | write
  | rewrite
  | goBack
deriving DecidableEq

def racingChanges : RacingCall → Claims × FunctionChange
  | .write => (functionAdminClaims, .create
      { name := "greet", displayName := "Greet", endpointSlug := "greet", runtime := "javascript"
        sourceCode := "one" })
  | .rewrite => (functionAdminClaims, .update "greet" { sourceCode := some "two" })
  | .goBack => (functionAdminClaims, .rollback "greet" 1)

/-- The rollback has read the first version when the update commits the second. -/
def racingTicks : List (RacingCall × FunctionTick) :=
  [(.write, initialTick 'a'), (.write, initialTick 'b'), (.goBack, initialTick 'c'),
    (.goBack, initialTick 'd'), (.goBack, initialTick 'e'), (.rewrite, initialTick 'f'),
    (.rewrite, initialTick 'g'), (.rewrite, initialTick 'h'), (.goBack, initialTick 'i')]

/-- The row is that of the first version again. -/
theorem racing_rollback_mirrors :
    UuidsDistinct racingTicks ∧
      ((run (FunctionCall.step asciiPlatform readableCipher)
          (functionCalls functionAdminDb racingChanges) racingTicks).store.functions.rows.map
        fun f => (f.activeVersionNumber, f.sourceCode)) = [(1, "one")] ∧
      Always (FunctionCall.step asciiPlatform readableCipher)
        (fun p => ∀ f ∈ p.store.functions, ∃ v ∈ p.store.functionVersions,
          MirrorsVersion p.store f v)
        (functionCalls functionAdminDb racingChanges) racingTicks := by
  have hids : UuidsDistinct racingTicks := by
    simp only [UuidsDistinct, racingTicks, List.pairwise_cons, List.forall_mem_cons]
    simp +decide [initialTick_apart]
  refine ⟨hids, by decide +kernel, ?_⟩
  exact functions_mirror_active_version asciiPlatform readableCipher functionAdminDb racingChanges
    racingTicks hids

end Peanut
