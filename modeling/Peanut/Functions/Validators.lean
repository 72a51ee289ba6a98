import Peanut.Functions.KeyPolicy

/-!
# The two validators

`validate_create_payload` and `validate_update_payload` check the same fields by the
same functions.  Given the same values for all of them they accept the same and
store the same, but for the key: a blank one is none where a function is created, and
is hashed where it is updated.
-/

namespace Peanut

open Relational

/-! ### A payload that leaves nothing out -/

/-- The values of all fields but the name. -/
structure FunctionFields where
  displayName : String
  endpointSlug : String
  runtime : String
  sourceCode : String
  timeoutMs : Int
  enabled : Bool
  invokePolicy : String
  env : BTreeMap String
  secrets : BTreeMap String
  apiKey : String
  allowedOrigins : List String
  rateLimitPerMinute : Int

namespace FunctionFields

def create (p : FunctionFields) (name : String) : UpsertFunctionRequest :=
  { name := name, displayName := p.displayName, endpointSlug := p.endpointSlug
    runtime := p.runtime, sourceCode := p.sourceCode, timeoutMs := some p.timeoutMs
    enabled := some p.enabled, invokePolicy := some p.invokePolicy, env := some p.env
    secrets := some p.secrets, apiKey := some p.apiKey, allowedOrigins := some p.allowedOrigins
    rateLimitPerMinute := some p.rateLimitPerMinute }

def update (p : FunctionFields) : UpdateFunctionRequest :=
  { displayName := some p.displayName, endpointSlug := some p.endpointSlug
    runtime := some p.runtime, sourceCode := some p.sourceCode, timeoutMs := some p.timeoutMs
    enabled := some p.enabled, invokePolicy := some p.invokePolicy, env := some p.env
    secrets := some p.secrets, apiKey := some p.apiKey, allowedOrigins := some p.allowedOrigins
    rateLimitPerMinute := some p.rateLimitPerMinute }

/-- `v` holds what the checks make of the values. -/
structure Normalized (pf : Platform) (p : FunctionFields) (v : ValidatedFunction) : Prop where
  displayName : normalizeNonEmpty p.displayName "display_name" = .ok v.displayName
  endpointSlug : normalizeIdentifier pf p.endpointSlug "endpoint_slug" = .ok v.endpointSlug
  runtime : normalizeRuntime pf p.runtime = .ok v.runtime
  sourceCode : normalizeNonEmpty p.sourceCode "source_code" = .ok v.sourceCode
  invokePolicy : normalizeInvokePolicy pf p.invokePolicy = .ok v.invokePolicy
  env : normalizeEnv p.env = .ok v.env
  secretValues : normalizeSecretValues p.secrets = .ok v.secretValues
  allowedOrigins : normalizeAllowedOrigins p.allowedOrigins = .ok v.allowedOrigins
  rateLimitPerMinute : normalizeRateLimit p.rateLimitPerMinute = .ok v.rateLimitPerMinute
  timeoutMs : normalizeTimeout p.timeoutMs = .ok v.timeoutMs
  enabled : v.enabled = p.enabled

/-- Every value passes its check. -/
def Accepted (pf : Platform) (p : FunctionFields) : Prop :=
  Outcome.succeeded (normalizeNonEmpty p.displayName "display_name") = true ∧
    Outcome.succeeded (normalizeIdentifier pf p.endpointSlug "endpoint_slug") = true ∧
    Outcome.succeeded (normalizeRuntime pf p.runtime) = true ∧
    Outcome.succeeded (normalizeNonEmpty p.sourceCode "source_code") = true ∧
    Outcome.succeeded (normalizeInvokePolicy pf p.invokePolicy) = true ∧
    Outcome.succeeded (normalizeEnv p.env) = true ∧
    Outcome.succeeded (normalizeSecretValues p.secrets) = true ∧
    Outcome.succeeded (normalizeAllowedOrigins p.allowedOrigins) = true ∧
    Outcome.succeeded (normalizeRateLimit p.rateLimitPerMinute) = true ∧
    Outcome.succeeded (normalizeTimeout p.timeoutMs) = true

end FunctionFields

section Validators

variable {pf : Platform} {existing : FunctionDetail} {secrets : List (String × String)}
  {p : FunctionFields} {v : ValidatedFunction}

theorem validateCreatePayload_fields {name : String} :
    validateCreatePayload pf (p.create name) = .ok v ↔
      normalizeIdentifier pf name "name" = .ok v.name ∧ p.Normalized pf v ∧ v.id = "" ∧
        v.apiKeyHash = if isBlank p.apiKey then none else some (hashApiKey pf p.apiKey) := by
  have hkey : ((some p.apiKey).filter fun v => !isBlank v).map (hashApiKey pf) =
      if isBlank p.apiKey then none else some (hashApiKey pf p.apiKey) := by
    cases hblank : isBlank p.apiKey <;> simp [Option.filter, hblank]
  simp only [validateCreatePayload, FunctionFields.create, Option.getD_some, hkey,
    Outcome.bind_eq_ok]
  constructor
  · rintro ⟨name, hname, d, hd, e, he, r, hr, s, hs, i, hi, n, hn, t, ht, o, ho, l, hl, m, hm, heq⟩
    cases heq
    exact ⟨hname, ⟨hd, he, hr, hs, hi, hn, ht, ho, hl, hm, rfl⟩, rfl, rfl⟩
  · rintro ⟨hname, ⟨hd, he, hr, hs, hi, hn, ht, ho, hl, hm, henabled⟩, hid, hhash⟩
    refine ⟨_, hname, _, hd, _, he, _, hr, _, hs, _, hi, _, hn, _, ht, _, ho, _, hl, _, hm, ?_⟩
    rw [← hid, ← hhash, ← henabled]
    rfl

theorem validateUpdatePayload_fields :
    validateUpdatePayload pf existing secrets p.update = .ok v ↔
      v.name = existing.name ∧ p.Normalized pf v ∧ v.id = existing.id ∧
        v.apiKeyHash = some (hashApiKey pf p.apiKey) := by
  simp only [validateUpdatePayload, FunctionFields.update, Option.getD_some, updatedSecretValues,
    Option.map_some, Option.some_or, Outcome.bind_eq_ok]
  constructor
  · rintro ⟨d, hd, e, he, r, hr, s, hs, i, hi, n, hn, t, ht, o, ho, l, hl, m, hm, heq⟩
    cases heq
    exact ⟨rfl, ⟨hd, he, hr, hs, hi, hn, ht, ho, hl, hm, rfl⟩, rfl, rfl⟩
  · rintro ⟨hname, ⟨hd, he, hr, hs, hi, hn, ht, ho, hl, hm, henabled⟩, hid, hhash⟩
    refine ⟨_, hd, _, he, _, hr, _, hs, _, hi, _, hn, _, ht, _, ho, _, hl, _, hm, ?_⟩
    rw [← hname, ← hid, ← hhash, ← henabled]
    rfl

theorem FunctionFields.Accepted.normalized (h : p.Accepted pf) (id name : String)
    (apiKeyHash : Option String) :
    ∃ v, p.Normalized pf v ∧ v.id = id ∧ v.name = name ∧ v.apiKeyHash = apiKeyHash := by
  simp only [FunctionFields.Accepted, Outcome.succeeded_iff] at h
  obtain ⟨⟨d, hd⟩, ⟨e, he⟩, ⟨r, hr⟩, ⟨s, hs⟩, ⟨i, hi⟩, ⟨n, hn⟩, ⟨t, ht⟩, ⟨o, ho⟩, ⟨l, hl⟩, m, hm⟩ :=
    h
  exact ⟨{
    id := id, name := name, displayName := d, endpointSlug := e, runtime := r, sourceCode := s
    invokePolicy := i, env := n, secretValues := t, apiKeyHash := apiKeyHash
    allowedOrigins := o, rateLimitPerMinute := l, timeoutMs := m, enabled := p.enabled },
    ⟨hd, he, hr, hs, hi, hn, ht, ho, hl, hm, rfl⟩, rfl, rfl, rfl⟩

theorem FunctionFields.Normalized.accepted (h : p.Normalized pf v) : p.Accepted pf := by
  simp only [FunctionFields.Accepted, Outcome.succeeded_iff]
  exact ⟨⟨_, h.displayName⟩, ⟨_, h.endpointSlug⟩, ⟨_, h.runtime⟩, ⟨_, h.sourceCode⟩,
    ⟨_, h.invokePolicy⟩, ⟨_, h.env⟩, ⟨_, h.secretValues⟩, ⟨_, h.allowedOrigins⟩,
    ⟨_, h.rateLimitPerMinute⟩, _, h.timeoutMs⟩

/-- Two results with one configuration.  A blank key is no new key: the new function has
    none, and the updated one keeps what it has. -/
structure SameConfiguration (existing : FunctionDetail) (apiKey : String)
    (created updated : ValidatedFunction) : Prop where
  name : created.name = updated.name
  displayName : created.displayName = updated.displayName
  endpointSlug : created.endpointSlug = updated.endpointSlug
  runtime : created.runtime = updated.runtime
  sourceCode : created.sourceCode = updated.sourceCode
  invokePolicy : created.invokePolicy = updated.invokePolicy
  env : created.env = updated.env
  secretValues : created.secretValues = updated.secretValues
  allowedOrigins : created.allowedOrigins = updated.allowedOrigins
  rateLimitPerMinute : created.rateLimitPerMinute = updated.rateLimitPerMinute
  timeoutMs : created.timeoutMs = updated.timeoutMs
  enabled : created.enabled = updated.enabled
  newKey : isBlank apiKey = false → created.apiKeyHash = updated.apiKeyHash
  noNewKey : isBlank apiKey = true →
    created.apiKeyHash = none ∧ updated.apiKeyHash = existing.apiKeyHash

/-- The validators accept the values alike and make the same configuration of them. -/
structure ValidatedAlike (pf : Platform) (existing : FunctionDetail)
    (secrets : List (String × String)) (p : FunctionFields) : Prop where
  accepted_iff : (∃ updated, validateUpdatePayload pf existing secrets p.update = .ok updated) ↔
    ∃ created, validateCreatePayload pf (p.create existing.name) = .ok created
  same : ∀ created updated, validateCreatePayload pf (p.create existing.name) = .ok created →
    validateUpdatePayload pf existing secrets p.update = .ok updated →
    SameConfiguration existing p.apiKey created updated

theorem FunctionFields.Normalized.same {c u : ValidatedFunction} (hc : p.Normalized pf c)
    (hu : p.Normalized pf u) (hname : c.name = u.name)
    (hnew : isBlank p.apiKey = false → c.apiKeyHash = u.apiKeyHash)
    (hkept : isBlank p.apiKey = true → c.apiKeyHash = none ∧ u.apiKeyHash = existing.apiKeyHash) :
    SameConfiguration existing p.apiKey c u where
  name := hname
  displayName := Except.ok.inj (hc.displayName.symm.trans hu.displayName)
  endpointSlug := Except.ok.inj (hc.endpointSlug.symm.trans hu.endpointSlug)
  runtime := Except.ok.inj (hc.runtime.symm.trans hu.runtime)
  sourceCode := Except.ok.inj (hc.sourceCode.symm.trans hu.sourceCode)
  invokePolicy := Except.ok.inj (hc.invokePolicy.symm.trans hu.invokePolicy)
  env := Except.ok.inj (hc.env.symm.trans hu.env)
  secretValues := Except.ok.inj (hc.secretValues.symm.trans hu.secretValues)
  allowedOrigins := Except.ok.inj (hc.allowedOrigins.symm.trans hu.allowedOrigins)
  rateLimitPerMinute := Except.ok.inj (hc.rateLimitPerMinute.symm.trans hu.rateLimitPerMinute)
  timeoutMs := Except.ok.inj (hc.timeoutMs.symm.trans hu.timeoutMs)
  enabled := hc.enabled.trans hu.enabled.symm
  newKey := hnew
  noNewKey := hkept

theorem validatedAlike_iff (hname : normalizeIdentifier pf existing.name "name" =
    .ok existing.name) :
    ValidatedAlike pf existing secrets p ↔
      (p.Accepted pf → isBlank p.apiKey = true →
        existing.apiKeyHash = some (hashApiKey pf p.apiKey)) := by
  constructor
  · intro halike haccepted hblank
    obtain ⟨c, hc, hcid, hcname, hckey⟩ := haccepted.normalized "" existing.name none
    obtain ⟨u, hu, huid, huname, hukey⟩ :=
      haccepted.normalized existing.id existing.name (some (hashApiKey pf p.apiKey))
    have hcreated : validateCreatePayload pf (p.create existing.name) = .ok c :=
      validateCreatePayload_fields.mpr
        ⟨by rw [hname, hcname], hc, hcid, by rw [hckey, if_pos hblank]⟩
    have hupdated : validateUpdatePayload pf existing secrets p.update = .ok u :=
      validateUpdatePayload_fields.mpr ⟨huname, hu, huid, hukey⟩
    rw [← ((halike.same c u hcreated hupdated).noNewKey hblank).2, hukey]
  · intro hcondition
    refine ⟨?_, ?_⟩
    · constructor
      · rintro ⟨u, hupdated⟩
        obtain ⟨-, hu, -, -⟩ := validateUpdatePayload_fields.mp hupdated
        obtain ⟨c, hc, hcid, hcname, hckey⟩ := hu.accepted.normalized "" existing.name
          (if isBlank p.apiKey then none else some (hashApiKey pf p.apiKey))
        exact ⟨c, validateCreatePayload_fields.mpr ⟨by rw [hname, hcname], hc, hcid, hckey⟩⟩
      · rintro ⟨c, hcreated⟩
        obtain ⟨-, hc, -, -⟩ := validateCreatePayload_fields.mp hcreated
        obtain ⟨u, hu, huid, huname, hukey⟩ := hc.accepted.normalized existing.id existing.name
          (some (hashApiKey pf p.apiKey))
        exact ⟨u, validateUpdatePayload_fields.mpr ⟨huname, hu, huid, hukey⟩⟩
    · intro c u hcreated hupdated
      obtain ⟨hcname, hc, -, hckey⟩ := validateCreatePayload_fields.mp hcreated
      obtain ⟨huname, hu, -, hukey⟩ := validateUpdatePayload_fields.mp hupdated
      have hsame : c.name = u.name := by
        rw [hname] at hcname
        rw [huname, Except.ok.inj hcname]
      refine hc.same hu hsame ?_ ?_
      · intro hblank
        rw [hckey, hukey, hblank]
        rfl
      · intro hblank
        rw [hckey, hukey, if_pos hblank, hcondition hc.accepted hblank]
        exact ⟨rfl, rfl⟩

end Validators

/-! ### The names of stored functions -/

theorem normalizeIdentifier_again {pf : Platform} {s t fieldName : String}
    (h : normalizeIdentifier pf s fieldName = .ok t) : normalizeIdentifier pf t fieldName =
      .ok t := by
  simp only [normalizeIdentifier, Outcome.bind_eq_ok, Outcome.ensure_eq_ok] at h
  obtain ⟨_, hempty, _, hlength, _, hchars, heq⟩ := h
  obtain rfl := Except.ok.inj heq
  have hname : ∀ c ∈ (pf.toLowercase (trim s)).toList, isNameChar c = true := by
    intro c hc
    have hc' := List.all_eq_true.mp hchars c hc
    simp only [Bool.or_eq_true, isNameChar] at hc' ⊢
    tauto
  have hagain : pf.toLowercase (trim (pf.toLowercase (trim s))) = pf.toLowercase (trim s) := by
    rw [trim_eq_self fun c hc => isWhitespace_of_isNameChar (hname c hc)]
    exact pf.toLowercase_name _ (List.all_eq_true.mpr hname)
  simp only [normalizeIdentifier, hagain, hempty, hlength, hchars, Outcome.ensure_true,
    Outcome.ok_bind]
  rfl

/-- Every stored name is in normal form. -/
def NamesNormal (pf : Platform) (db : Db) : Prop :=
  ∀ f ∈ db.functions, normalizeIdentifier pf f.name "name" = .ok f.name

section Names

variable {pf : Platform} {cipher : SecretCipher} {env : Env} {db db' : Db}

theorem NamesNormal.activate (h : NamesNormal pf db) {functionId updatedBy : String}
    {validated : ValidatedFunction} {version : LoadedFunctionVersion}
    (hact : activateFunctionVersion db env functionId validated version updatedBy = some db') :
    NamesNormal pf db' := by
  obtain ⟨functions, rfl, hmem, -⟩ := activateFunctionVersion_some hact
  intro f' hf'
  obtain ⟨f, hf, rfl⟩ := (hmem _).mp hf'
  split
  · exact h f hf
  · exact h f hf

theorem NamesNormal.insertFunctionVersion (h : NamesNormal pf db)
    {versionId functionId appId createdBy : String} {number : Int} {validated : ValidatedFunction}
    {version : LoadedFunctionVersion}
    (hversion : Peanut.insertFunctionVersion cipher db env versionId functionId appId number
      validated createdBy = some (version, db')) :
    NamesNormal pf db' := by
  obtain ⟨versions, secrets, rfl⟩ := (insertFunctionVersion_some hversion).1.frame
  exact h

theorem FunctionCommit.namesNormal (h : NamesNormal pf db) {request : FunctionRequest}
    (hcommit : FunctionCommit pf cipher db request db') : NamesNormal pf db' := by
  cases hcommit with
  | refused => exact h
  | create hvalid hok =>
    simp only [createFunctionTx, Outcome.bind_eq_ok, Outcome.require_eq_ok] at hok
    obtain ⟨db₁, hinsert, ⟨version, db₂⟩, hversion, hact⟩ := hok
    obtain ⟨-, -, -, functions, hins, rfl⟩ := Db.insertFunction_eq_some.mp hinsert
    have hinserted : NamesNormal pf { db with functions := functions } := by
      intro f hf
      obtain hf | rfl := (KeyedTable.mem_insert? hins).mp hf
      · exact h f hf
      · simp only [validateCreatePayload, Outcome.bind_eq_ok] at hvalid
        obtain ⟨name, hname, _, _, _, _, _, _, _, _, _, _, _, _, _, _, _, _, _, _, _, _, heq⟩ :=
          hvalid
        cases heq
        exact normalizeIdentifier_again hname
    exact (hinserted.insertFunctionVersion hversion).activate hact
  | update hload _ hvalid hok =>
    simp only [updateFunctionTx, Outcome.bind_eq_ok, Outcome.require_eq_ok] at hok
    obtain ⟨⟨version, db₁⟩, hversion, hact⟩ := hok
    exact (h.insertFunctionVersion hversion).activate hact
  | rollback hload hversion hact => exact h.activate hact
  | delete env claims name p => exact fun f hf => h f (KeyedTable.mem_deleteWhere.mp hf).1

theorem runFunctions_namesNormal (requests : List FunctionRequest) :
    NamesNormal pf (runFunctions pf cipher db requests) := by
  have hstart : NamesNormal pf db.withoutFunctions :=
    fun f hf => absurd hf (KeyedTable.not_mem_empty f)
  have hstep : ∀ s request, NamesNormal pf s →
      NamesNormal pf (handleFunctionRequest pf cipher s request) :=
    fun s request h => handleFunctionRequest_rule (fun _ hcommit => hcommit.namesNormal h)
      fun _ _ hnames => hnames
  exact Transition.run_preserves hstep hstart requests

end Names

/-- **Create and update.**  For every function a run has stored and all values: the
    validators agree exactly if the key is not blank, or the values are refused
    anyway, or the stored hash is already that of the blank key. -/
theorem validators_agree_iff (pf : Platform) (cipher : SecretCipher) (db : Db)
    (requests : List FunctionRequest) {existing : FunctionDetail}
    (hexisting : existing ∈ (runFunctions pf cipher db requests).functions)
    (secrets : List (String × String)) (p : FunctionFields) :
    ValidatedAlike pf existing secrets p ↔
      (p.Accepted pf → isBlank p.apiKey = true →
        existing.apiKeyHash = some (hashApiKey pf p.apiKey)) :=
  validatedAlike_iff (runFunctions_namesNormal requests existing hexisting)

/-- All there is to say of a greeting, with a blank key. -/
def blankKeyFields : FunctionFields :=
  { displayName := "Greet", endpointSlug := "greet", runtime := "javascript", sourceCode := "two"
    timeoutMs := 3000, enabled := true, invokePolicy := "api_key", env := .empty
    secrets := .empty, apiKey := " ", allowedOrigins := [], rateLimitPerMinute := 60 }

theorem exists_greeting (p : FunctionDetail → Bool)
    (hany : (runFunctions asciiPlatform readableCipher greetingsDb
      (greetWithPolicy (some "mint"))).functions.rows.any p = true) :
    ∃ f, p f = true ∧ f ∈ (runFunctions asciiPlatform readableCipher greetingsDb
      (greetWithPolicy (some "mint"))).functions := by
  obtain ⟨f, hf, hp⟩ := List.any_eq_true.mp hany
  exact ⟨f, hp, hf⟩

/-- An update with a blank key replaces the key of the function. -/
theorem blank_key_replaces_key :
    ∃ f ∈ (runFunctions asciiPlatform readableCipher greetingsDb
        (greetWithPolicy (some "mint"))).functions,
      ¬ ValidatedAlike asciiPlatform f [] blankKeyFields := by
  obtain ⟨f, hkey, hf⟩ := exists_greeting
    (fun f => f.apiKeyHash != some (hashApiKey asciiPlatform " ")) (by decide +kernel)
  refine ⟨f, hf, ?_⟩
  rw [validatedAlike_iff (runFunctions_namesNormal _ f hf)]
  intro hcondition
  rw [bne_iff_ne] at hkey
  have haccepted : blankKeyFields.Accepted asciiPlatform := by
    unfold FunctionFields.Accepted
    decide +kernel
  exact hkey (hcondition haccepted (by decide +kernel))

/-- With a key they agree. -/
theorem keyed_update_agrees :
    ∃ f ∈ (runFunctions asciiPlatform readableCipher greetingsDb
        (greetWithPolicy (some "mint"))).functions,
      ValidatedAlike asciiPlatform f [] { blankKeyFields with apiKey := "sage" } := by
  obtain ⟨f, -, hf⟩ := exists_greeting (fun _ => true) (by decide +kernel)
  refine ⟨f, hf, ?_⟩
  rw [validators_agree_iff asciiPlatform readableCipher greetingsDb _ hf]
  intro _ hblank
  exact absurd hblank (by decide +kernel)

end Peanut
