import Peanut.Functions.Validators

/-!
# Empty updates

`validate_update_payload` puts every stored field through the check it had when it was
written.  Each check is a projection: what it gives, it gives again.  What is stored
went through the checks, by way of a version in a rollback, so an update without a
field finds everything as it is.
-/

namespace Peanut

open Relational

/-! ### Projections -/

/-- What the check gives, it accepts and leaves as it is. -/
def IsProjection {α : Type} (check : α → Except String α) : Prop :=
  ∀ value result, check value = .ok result → check result = .ok result

theorem isProjection_normalizeNonEmpty (fieldName : String) :
    IsProjection fun value => normalizeNonEmpty value fieldName := by
  intro value result h
  simp only [normalizeNonEmpty, Outcome.bind_eq_ok, Outcome.ensure_eq_ok] at h
  obtain ⟨_, hempty, heq⟩ := h
  obtain rfl := Except.ok.inj heq
  simp only [normalizeNonEmpty, trim_trim, hempty, Outcome.ensure_true, Outcome.ok_bind]
  rfl

theorem isProjection_normalizeIdentifier (pf : Platform) (fieldName : String) :
    IsProjection fun value => normalizeIdentifier pf value fieldName :=
  fun _ _ h => normalizeIdentifier_again h

theorem toLowercase_trim_name (pf : Platform) {word : String}
    (h : charsAll isNameChar word = true) : pf.toLowercase (trim word) = word := by
  rw [trim_eq_self fun c hc => isWhitespace_of_isNameChar (List.all_eq_true.mp h c hc)]
  exact pf.toLowercase_name word h

theorem isProjection_normalizeRuntime (pf : Platform) : IsProjection (normalizeRuntime pf) := by
  intro value result h
  simp only [normalizeRuntime, Outcome.bind_eq_ok, Outcome.ensure_eq_ok] at h
  obtain ⟨_, hmember, heq⟩ := h
  obtain rfl := Except.ok.inj heq
  have hname : charsAll isNameChar (pf.toLowercase (trim value)) = true := by
    simp only [Bool.or_eq_true, beq_iff_eq] at hmember
    rcases hmember with hword | hword
    · rw [hword]
      decide
    · rw [hword]
      decide
  simp only [normalizeRuntime, toLowercase_trim_name pf hname, hmember, Outcome.ensure_true,
    Outcome.ok_bind]
  rfl

theorem isProjection_normalizeInvokePolicy (pf : Platform) :
    IsProjection (normalizeInvokePolicy pf) := by
  intro value result h
  simp only [normalizeInvokePolicy, Outcome.bind_eq_ok, Outcome.ensure_eq_ok] at h
  obtain ⟨_, hmember, heq⟩ := h
  obtain rfl := Except.ok.inj heq
  have hname : charsAll isNameChar (pf.toLowercase (trim value)) = true := by
    simp only [Bool.or_eq_true, beq_iff_eq] at hmember
    rcases hmember with ((hword | hword) | hword) | hword
    · rw [hword]
      decide
    · rw [hword]
      decide
    · rw [hword]
      decide
    · rw [hword]
      decide
  simp only [normalizeInvokePolicy, toLowercase_trim_name pf hname, hmember, Outcome.ensure_true,
    Outcome.ok_bind]
  rfl

theorem isProjection_normalizeEnv : IsProjection normalizeEnv := by
  intro value result h
  have hsame := h
  simp only [normalizeEnv, Outcome.bind_eq_ok] at h
  obtain ⟨_, -, heq⟩ := h
  obtain rfl := Except.ok.inj heq
  exact hsame

theorem trimmed_again (values : List String) :
    (((values.map trim).filter (· != "")).map trim).filter (· != "") =
      (values.map trim).filter (· != "") := by
  have hmap : ((values.map trim).filter (· != "")).map trim =
      (values.map trim).filter (· != "") := by
    refine (List.map_congr_left fun origin horigin => ?_).trans (List.map_id _)
    obtain ⟨value, -, rfl⟩ := List.mem_map.mp (List.mem_filter.mp horigin).1
    exact trim_trim value
  rw [hmap, List.filter_filter]
  exact congrArg (List.filter · _) (funext fun value => Bool.and_self _)

theorem isProjection_normalizeAllowedOrigins : IsProjection normalizeAllowedOrigins := by
  intro values result h
  simp only [normalizeAllowedOrigins, Outcome.bind_eq_ok] at h
  obtain ⟨_, hall, heq⟩ := h
  obtain rfl := Except.ok.inj heq
  simp only [normalizeAllowedOrigins, trimmed_again, hall, Outcome.ok_bind]
  rfl

theorem isProjection_normalizeRateLimit : IsProjection normalizeRateLimit := by
  intro value result h
  have hsame := h
  simp only [normalizeRateLimit, Outcome.bind_eq_ok] at h
  obtain ⟨_, -, heq⟩ := h
  obtain rfl := Except.ok.inj heq
  exact hsame

theorem isProjection_normalizeTimeout : IsProjection normalizeTimeout := by
  intro value result h
  have hsame := h
  simp only [normalizeTimeout, Outcome.bind_eq_ok] at h
  obtain ⟨_, -, heq⟩ := h
  obtain rfl := Except.ok.inj heq
  exact hsame

/-! ### Normal configurations -/

/-- The fields that versions have, as their checks leave them. -/
structure SettingsNormal (pf : Platform) (runtime sourceCode invokePolicy : String)
    (env : BTreeMap String) (allowedOrigins : List String) (rateLimitPerMinute timeoutMs : Int) :
    Prop where
  runtime : normalizeRuntime pf runtime = .ok runtime
  sourceCode : normalizeNonEmpty sourceCode "source_code" = .ok sourceCode
  invokePolicy : normalizeInvokePolicy pf invokePolicy = .ok invokePolicy
  env : normalizeEnv env = .ok env
  allowedOrigins : normalizeAllowedOrigins allowedOrigins = .ok allowedOrigins
  rateLimitPerMinute : normalizeRateLimit rateLimitPerMinute = .ok rateLimitPerMinute
  timeoutMs : normalizeTimeout timeoutMs = .ok timeoutMs

def FunctionVersion.Normal (pf : Platform) (v : FunctionVersion) : Prop :=
  SettingsNormal pf v.runtime v.sourceCode v.invokePolicy v.env v.allowedOrigins
    v.rateLimitPerMinute v.timeoutMs

structure ValidatedFunction.Normal (pf : Platform) (v : ValidatedFunction) : Prop where
  displayName : normalizeNonEmpty v.displayName "display_name" = .ok v.displayName
  endpointSlug : normalizeIdentifier pf v.endpointSlug "endpoint_slug" = .ok v.endpointSlug
  settings : SettingsNormal pf v.runtime v.sourceCode v.invokePolicy v.env v.allowedOrigins
    v.rateLimitPerMinute v.timeoutMs

/-- What is stored of a function, with the secrets of its active version. -/
def FunctionDetail.configuration (f : FunctionDetail) (secretValues : List (String × String)) :
    ValidatedFunction :=
  { id := f.id, name := f.name, displayName := f.displayName, endpointSlug := f.endpointSlug
    runtime := f.runtime, sourceCode := f.sourceCode, invokePolicy := f.invokePolicy, env := f.env
    secretValues := secretValues, apiKeyHash := f.apiKeyHash, allowedOrigins := f.allowedOrigins
    rateLimitPerMinute := f.rateLimitPerMinute, timeoutMs := f.timeoutMs, enabled := f.enabled }

section Normal

variable {pf : Platform} {cipher : SecretCipher} {env : Env} {db db' : Db} {v : ValidatedFunction}

theorem validateCreatePayload_normal {payload : UpsertFunctionRequest}
    (h : validateCreatePayload pf payload = .ok v) : v.Normal pf := by
  simp only [validateCreatePayload, Outcome.bind_eq_ok] at h
  obtain ⟨name, -, d, hd, e, he, r, hr, s, hs, i, hi, n, hn, t, -, o, ho, l, hl, m, hm, heq⟩ := h
  cases heq
  exact ⟨isProjection_normalizeNonEmpty _ _ _ hd, isProjection_normalizeIdentifier pf _ _ _ he,
    isProjection_normalizeRuntime pf _ _ hr, isProjection_normalizeNonEmpty _ _ _ hs,
    isProjection_normalizeInvokePolicy pf _ _ hi, isProjection_normalizeEnv _ _ hn,
    isProjection_normalizeAllowedOrigins _ _ ho, isProjection_normalizeRateLimit _ _ hl,
    isProjection_normalizeTimeout _ _ hm⟩

theorem validateUpdatePayload_normal {existing : FunctionDetail}
    {secrets : List (String × String)} {payload : UpdateFunctionRequest}
    (h : validateUpdatePayload pf existing secrets payload = .ok v) : v.Normal pf := by
  simp only [validateUpdatePayload, Outcome.bind_eq_ok] at h
  obtain ⟨d, hd, e, he, r, hr, s, hs, i, hi, n, hn, t, -, o, ho, l, hl, m, hm, heq⟩ := h
  cases heq
  exact ⟨isProjection_normalizeNonEmpty _ _ _ hd, isProjection_normalizeIdentifier pf _ _ _ he,
    isProjection_normalizeRuntime pf _ _ hr, isProjection_normalizeNonEmpty _ _ _ hs,
    isProjection_normalizeInvokePolicy pf _ _ hi, isProjection_normalizeEnv _ _ hn,
    isProjection_normalizeAllowedOrigins _ _ ho, isProjection_normalizeRateLimit _ _ hl,
    isProjection_normalizeTimeout _ _ hm⟩

theorem validateUpdatePayload_empty {f : FunctionDetail} {secrets : List (String × String)}
    (h : (f.configuration secrets).Normal pf) :
    validateUpdatePayload pf f secrets {} = .ok (f.configuration secrets) := by
  obtain ⟨hd, he, hr, hs, hi, hn, ho, hl, hm⟩ := h
  simp only [FunctionDetail.configuration] at hd he hr hs hi hn ho hl hm
  simp only [validateUpdatePayload, Option.getD_none, hd, he, hr, hs, hi, hn, ho, hl, hm,
    updatedSecretValues, Outcome.ok_bind, Option.map_none, Option.none_or]
  rfl

/-- Everything stored is in normal form. -/
structure ConfigurationsNormal (pf : Platform) (db : Db) : Prop where
  functions : ∀ f ∈ db.functions, ∀ secrets, (f.configuration secrets).Normal pf
  versions : ∀ v ∈ db.functionVersions, v.Normal pf

theorem ConfigurationsNormal.activate (h : ConfigurationsNormal pf db)
    {functionId updatedBy : String} {version : LoadedFunctionVersion}
    (hact : activateFunctionVersion db env functionId v version updatedBy = some db')
    (hnormal : ∀ f ∈ db.functions, f.id = functionId → v.Normal pf) :
    ConfigurationsNormal pf db' := by
  obtain ⟨functions, rfl, hmem, -⟩ := activateFunctionVersion_some hact
  refine ⟨fun f' hf' secrets => ?_, h.versions⟩
  obtain ⟨f, hf, rfl⟩ := (hmem _).mp hf'
  split
  · next hid =>
    obtain ⟨hd, he, hsettings⟩ := hnormal f hf hid
    exact ⟨hd, he, hsettings⟩
  · exact h.functions f hf secrets

theorem ConfigurationsNormal.insertFunctionVersion (h : ConfigurationsNormal pf db)
    {versionId functionId appId createdBy : String} {number : Int}
    {version : LoadedFunctionVersion}
    (hversion : Peanut.insertFunctionVersion cipher db env versionId functionId appId number v
      createdBy = some (version, db')) (hnormal : v.Normal pf) : ConfigurationsNormal pf db' := by
  obtain ⟨⟨⟨versions, secrets, rfl⟩, -, hmem, -, -⟩, -⟩ := insertFunctionVersion_some hversion
  refine ⟨h.functions, fun w hw => ?_⟩
  rcases (hmem w).mp hw with hw | rfl
  · exact h.versions w hw
  · exact hnormal.settings

theorem ConfigurationsNormal.loaded (h : ConfigurationsNormal pf db) {functionId : String}
    {number : Int} {version : LoadedFunctionVersion}
    (hversion : loadFunctionVersionByNumber db functionId number = some version) :
    SettingsNormal pf version.runtime version.sourceCode version.invokePolicy version.env
      version.allowedOrigins version.rateLimitPerMinute version.timeoutMs := by
  obtain ⟨w, hselect, rfl⟩ := Option.map_eq_some_iff.mp hversion
  exact h.versions w (KeyedTable.selectOne_some hselect).1

/-- **One request.** -/
theorem FunctionCommit.configurationsNormal (h : ConfigurationsNormal pf db)
    {request : FunctionRequest} (hcommit : FunctionCommit pf cipher db request db') :
    ConfigurationsNormal pf db' := by
  cases hcommit with
  | refused => exact h
  | create hvalid hok =>
    have hnormal := validateCreatePayload_normal hvalid
    simp only [createFunctionTx, Outcome.bind_eq_ok, Outcome.require_eq_ok] at hok
    obtain ⟨db₁, hinsert, ⟨version, db₂⟩, hversion, hact⟩ := hok
    obtain ⟨-, -, -, functions, hins, rfl⟩ := Db.insertFunction_eq_some.mp hinsert
    have hinserted : ConfigurationsNormal pf { db with functions := functions } := by
      refine ⟨fun f hf secrets => ?_, h.versions⟩
      rcases (KeyedTable.mem_insert? hins).mp hf with hf | rfl
      · exact h.functions f hf secrets
      · exact ⟨hnormal.displayName, hnormal.endpointSlug, hnormal.settings⟩
    exact (hinserted.insertFunctionVersion hversion hnormal).activate hact fun _ _ _ => hnormal
  | update hload _ hvalid hok =>
    have hnormal := validateUpdatePayload_normal hvalid
    simp only [updateFunctionTx, Outcome.bind_eq_ok, Outcome.require_eq_ok] at hok
    obtain ⟨⟨version, db₁⟩, hversion, hact⟩ := hok
    exact (h.insertFunctionVersion hversion hnormal).activate hact fun _ _ _ => hnormal
  | rollback hload hversion hact =>
    refine h.activate hact fun _ _ _ => ?_
    -- the names of the function as it is, the rest from the version
    obtain ⟨hd, he, -⟩ := h.functions _ (loadFunctionByName_some hload).1 []
    exact ⟨hd, he, h.loaded hversion⟩
  | delete env claims name p =>
    exact ⟨fun f hf => h.functions f (KeyedTable.mem_deleteWhere.mp hf).1,
      fun w hw => h.versions w (KeyedTable.mem_deleteWhere.mp hw).1⟩

/-- **Every run.** -/
theorem runFunctions_configurationsNormal (pf : Platform) (cipher : SecretCipher) (db : Db)
    (requests : List FunctionRequest) :
    ConfigurationsNormal pf (runFunctions pf cipher db requests) := by
  have hstart : ConfigurationsNormal pf db.withoutFunctions :=
    ⟨fun f hf => absurd hf (KeyedTable.not_mem_empty f),
      fun w hw => absurd hw (KeyedTable.not_mem_empty w)⟩
  have hstep : ∀ s request, ConfigurationsNormal pf s →
      ConfigurationsNormal pf (handleFunctionRequest pf cipher s request) :=
    fun s request h => handleFunctionRequest_rule (fun _ hcommit => hcommit.configurationsNormal h)
      fun _ _ hnormal => ⟨hnormal.functions, hnormal.versions⟩
  exact Transition.run_preserves hstep hstart requests

end Normal

/-- **An empty update changes nothing**, whatever requests there were. -/
theorem empty_update_changes_nothing (pf : Platform) (cipher : SecretCipher) (db : Db)
    (requests : List FunctionRequest) {existing : FunctionDetail}
    (hexisting : existing ∈ (runFunctions pf cipher db requests).functions)
    (secrets : List (String × String)) :
    validateUpdatePayload pf existing secrets {} = .ok (existing.configuration secrets) :=
  validateUpdatePayload_empty
    ((runFunctions_configurationsNormal pf cipher db requests).functions existing hexisting secrets)

/-- Ada's function, with a key. -/
theorem empty_update_changes_nothing_greeting :
    ∃ f ∈ (runFunctions asciiPlatform readableCipher greetingsDb
        (greetWithPolicy (some "mint"))).functions, f.apiKeyHash.isSome = true ∧
      validateUpdatePayload asciiPlatform f [("TOKEN", "mint")] {} =
        .ok (f.configuration [("TOKEN", "mint")]) := by
  obtain ⟨f, hkey, hf⟩ := exists_greeting (fun f => f.apiKeyHash.isSome) (by decide +kernel)
  exact ⟨f, hf, hkey, empty_update_changes_nothing _ _ _ _ hf _⟩

end Peanut
