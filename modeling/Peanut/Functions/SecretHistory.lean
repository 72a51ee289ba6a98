import Peanut.Functions.Numbering

/-!
# The secrets of every version

Secrets are encrypted anew for each version.  A request that names secrets gives
them to the version it creates; an update that names none hands on those of the
version that was active.  `SecretLedger` keeps these plaintexts beside the
database, and every stored version decrypts to what the ledger says.
-/

namespace Peanut

open Relational

/-! ### One version -/

/-- The rows of the secrets of one version. -/
def newSecretRows (cipher : SecretCipher) (env : Env) (versionId : String) :
    Nat → List (String × String) → List FunctionVersionSecret
  | _, [] => []
  | n, e :: rest => newSecretRow cipher env versionId n e ::
      newSecretRows cipher env versionId (n + 1) rest

section Rows

variable {cipher : SecretCipher} {env : Env} {versionId : String} {db db' : Db}

theorem map_newSecretRows (entries : List (String × String)) :
    ∀ n, (newSecretRows cipher env versionId n entries).map (·.secretKey) =
      OrderedMap.keys entries := by
  induction entries with
  | nil =>
    intro n
    rfl
  | cons e rest ih =>
    intro n
    rw [newSecretRows, List.map_cons, ih, OrderedMap.keys_cons]
    rfl

theorem mapM_newSecretRows (entries : List (String × String)) :
    ∀ n, (newSecretRows cipher env versionId n entries).mapM (resolveSecret cipher) =
      .ok entries := by
  induction entries with
  | nil =>
    intro n
    rfl
  | cons e rest ih =>
    intro n
    rw [newSecretRows, List.mapM_cons, resolveSecret_newSecretRow, ih]
    rfl

/-- The secrets of a version are appended to those it has; no other version is
    given any. -/
theorem insertFunctionSecrets_select {entries : List (String × String)} :
    ∀ {n : Nat} {db db' : Db},
      insertFunctionSecrets cipher env versionId n entries db = some db' → ∀ id : String,
        db'.functionVersionSecrets.select (·.versionId == id) =
          db.functionVersionSecrets.select (·.versionId == id) ++
            if id = versionId then newSecretRows cipher env versionId n entries else [] := by
  induction entries with
  | nil =>
    intro n db db' h id
    cases h
    simp [newSecretRows]
  | cons e rest ih =>
    intro n db db' h id
    obtain ⟨db₁, hinsert, hrest⟩ := Option.bind_eq_some_iff.mp h
    obtain ⟨-, secrets, hins, rfl⟩ := Db.insertFunctionSecret_eq_some.mp hinsert
    rw [ih hrest id, KeyedTable.select_insert? hins]
    by_cases hid : id = versionId
    · subst hid
      simp [newSecretRow, newSecretRows]
    · have hother : (versionId == id) = false := by simpa using Ne.symm hid
      simp [newSecretRow, hid, hother]

theorem loadFunctionSecrets_congr {id : String}
    (h : db'.functionVersionSecrets.select (·.versionId == id) =
      db.functionVersionSecrets.select (·.versionId == id)) :
    loadFunctionSecrets cipher db' id = loadFunctionSecrets cipher db id := by
  rw [loadFunctionSecrets, secretsOfVersion, h]
  rfl

theorem loadFunctionSecrets_of_select {entries : List (String × String)} {n : Nat}
    (hsorted : OrderedMap.Sorted strLt entries)
    (hrows : db.functionVersionSecrets.select (·.versionId == versionId) =
      newSecretRows cipher env versionId n entries) :
    loadFunctionSecrets cipher db versionId = .ok entries := by
  have hordered : (newSecretRows cipher env versionId n entries).Pairwise
      fun s t => (!strLt t.secretKey s.secretKey) = true := by
    have hkeys := hsorted
    rw [OrderedMap.Sorted, ← @map_newSecretRows cipher env versionId entries n,
      List.pairwise_map] at hkeys
    exact hkeys.imp fun hlt => by rw [strLt_asymm hlt]; rfl
  rw [loadFunctionSecrets, secretsOfVersion, hrows, List.mergeSort_of_pairwise hordered]
  exact mapM_newSecretRows entries n

/-- A version that was stored under a free id reads back the secrets it was given;
    every other version reads back what it did. -/
theorem insertFunctionVersion_secrets {functionId appId createdBy : String} {number : Int}
    {validated : ValidatedFunction} {version : LoadedFunctionVersion}
    (hsecrets : ∀ s ∈ db.functionVersionSecrets, db.functionVersions.hasKey s.versionId = true)
    (hsorted : OrderedMap.Sorted strLt validated.secretValues)
    (h : insertFunctionVersion cipher db env versionId functionId appId number validated createdBy =
      some (version, db')) :
    db.functionVersions.hasKey versionId = false ∧
      loadFunctionSecrets cipher db' versionId = .ok validated.secretValues ∧
      ∀ id ≠ versionId, loadFunctionSecrets cipher db' id = loadFunctionSecrets cipher db id := by
  obtain ⟨db₁, hrow, h⟩ := Option.bind_eq_some_iff.mp h
  obtain ⟨db₂, hinsert, h⟩ := Option.bind_eq_some_iff.mp h
  cases h
  obtain ⟨-, -, -, versions, hins, rfl⟩ := Db.insertFunctionVersionRow_eq_some.mp hrow
  have hfree : db.functionVersions.hasKey versionId = false :=
    (KeyedTable.insert?_eq_some.mp hins).1
  -- a free id has no secrets left over
  have hnone : db.functionVersionSecrets.select (·.versionId == versionId) = [] := by
    rw [List.eq_nil_iff_forall_not_mem]
    intro s hs
    obtain ⟨hs, hid⟩ := KeyedTable.mem_select.mp hs
    have hkey := hsecrets s hs
    rw [beq_iff_eq.mp hid, hfree] at hkey
    cases hkey
  have hselect := insertFunctionSecrets_select hinsert
  refine ⟨hfree, ?_, ?_⟩
  · have hown := hselect versionId
    rw [if_pos rfl] at hown
    exact loadFunctionSecrets_of_select hsorted (hown.trans (congrArg (· ++ _) hnone))
  · intro id hne
    have hother := hselect id
    rw [if_neg hne, List.append_nil] at hother
    exact loadFunctionSecrets_congr hother

end Rows

/-! ### The secrets a request means -/

/-- A run, and beside its database the secrets each version ought to have. -/
structure SecretLedger where
  db : Db
  sec : String → List (String × String)

/-- The secrets of the version that `request` creates: those it names, or else
    those of the version that is active now. -/
def SecretLedger.requested (l : SecretLedger) : FunctionRequest → List (String × String)
  | .create _ _ payload => (payload.secrets.getD .empty).entries
  | .update _ claims name payload =>
      match payload.secrets, loadFunctionByName l.db claims.appId name with
      | some secrets, _ => secrets.entries
      | none, some existing => l.sec existing.activeVersionId
      | none, none => []
  | .rollback .. => []
  | .delete .. => []

/-- A stored version keeps its entry. -/
def SecretLedger.handle (pf : Platform) (cipher : SecretCipher) (l : SecretLedger)
    (request : FunctionRequest) : SecretLedger :=
  { db := handleFunctionRequest pf cipher l.db request
    sec := fun id => if l.db.functionVersions.hasKey id then l.sec id else l.requested request }

def secretLedger (pf : Platform) (cipher : SecretCipher) (db : Db)
    (requests : List FunctionRequest) : SecretLedger :=
  Transition.run (SecretLedger.handle pf cipher) { db := db.withoutFunctions, sec := fun _ => [] }
    requests

theorem secretLedger_db (pf : Platform) (cipher : SecretCipher) (db : Db)
    (requests : List FunctionRequest) :
    (secretLedger pf cipher db requests).db = runFunctions pf cipher db requests := by
  have hrun : ∀ (l : SecretLedger), (Transition.run (SecretLedger.handle pf cipher) l requests).db =
      Transition.run (handleFunctionRequest pf cipher) l.db requests := by
    induction requests with
    | nil =>
      intro l
      rfl
    | cons request rest ih =>
      intro l
      exact ih (l.handle pf cipher request)
  exact hrun { db := db.withoutFunctions, sec := fun _ => [] }

/-- Every stored version decrypts to its entry. -/
def VersionsRead (cipher : SecretCipher) (db : Db) (sec : String → List (String × String)) : Prop :=
  ∀ v ∈ db.functionVersions, loadFunctionSecrets cipher db v.id = .ok (sec v.id)

theorem normalizeSecretValues_ok {secrets : BTreeMap String} {values : List (String × String)}
    (h : normalizeSecretValues secrets = .ok values) : values = secrets.entries := by
  simp only [normalizeSecretValues, Outcome.bind_eq_ok] at h
  obtain ⟨-, -, heq⟩ := h
  cases heq
  rfl

section Step

variable {pf : Platform} {cipher : SecretCipher} {env : Env} {db db' : Db}
  {sec : String → List (String × String)}

theorem VersionsRead.frame (h : VersionsRead cipher db sec)
    (hversions : db'.functionVersions = db.functionVersions)
    (hsecrets : db'.functionVersionSecrets = db.functionVersionSecrets) :
    VersionsRead cipher db' sec := by
  intro v hv
  rw [hversions] at hv
  rw [← h v hv]
  exact loadFunctionSecrets_congr (by rw [hsecrets])

theorem VersionsRead.insertFunctionVersion {versionId functionId appId createdBy : String}
    {number : Int} {validated : ValidatedFunction} {version : LoadedFunctionVersion}
    (h : VersionsRead cipher db sec)
    (hsecrets : ∀ s ∈ db.functionVersionSecrets, db.functionVersions.hasKey s.versionId = true)
    (hsorted : OrderedMap.Sorted strLt validated.secretValues)
    (hinsert : insertFunctionVersion cipher db env versionId functionId appId number validated
      createdBy = some (version, db')) :
    VersionsRead cipher db' fun id =>
      if db.functionVersions.hasKey id then sec id else validated.secretValues := by
  obtain ⟨hfree, hnew, hold⟩ := insertFunctionVersion_secrets hsecrets hsorted hinsert
  obtain ⟨hadded, -, -⟩ := insertFunctionVersion_some hinsert
  intro v hv
  rcases (hadded.versions v).mp hv with hv | rfl
  · have hkey : db.functionVersions.hasKey v.id = true := KeyedTable.hasKey_of_mem hv
    have hne : v.id ≠ versionId := by
      intro heq
      rw [heq, hfree] at hkey
      cases hkey
    dsimp only
    rw [hold v.id hne, h v hv, if_pos hkey]
  · show loadFunctionSecrets cipher db' versionId = .ok
      (if db.functionVersions.hasKey versionId then sec versionId else validated.secretValues)
    rw [hfree, if_neg Bool.false_ne_true]
    exact hnew

theorem VersionsRead.activate {functionId updatedBy : String} {validated : ValidatedFunction}
    {version : LoadedFunctionVersion} (h : VersionsRead cipher db sec)
    (hact : activateFunctionVersion db env functionId validated version updatedBy = some db') :
    VersionsRead cipher db' sec := by
  obtain ⟨functions, rfl, -, -⟩ := activateFunctionVersion_some hact
  exact h.frame rfl rfl

theorem VersionsRead.deleteFunctions (h : VersionsRead cipher db sec) (p : FunctionDetail → Bool) :
    VersionsRead cipher (db.deleteFunctions p) sec := by
  intro v hv
  obtain ⟨hv, hstays⟩ := KeyedTable.mem_deleteWhere.mp hv
  rw [← h v hv]
  apply loadFunctionSecrets_congr
  apply KeyedTable.select_deleteWhere
  intro s hs hid
  rw [List.any_eq_false]
  intro w hw
  by_cases hsame : w.id = s.versionId
  · have hwv := db.functionVersions.eq_of_key_eq hw hv (hsame.trans (beq_iff_eq.mp hid))
    subst hwv
    simp [hstays]
  · simp [hsame]

theorem VersionsRead.congr {sec' : String → List (String × String)} (h : VersionsRead cipher db sec)
    (hsame : ∀ v ∈ db.functionVersions, sec' v.id = sec v.id) : VersionsRead cipher db sec' := by
  intro v hv
  rw [hsame v hv]
  exact h v hv

theorem validateCreatePayload_secrets {payload : UpsertFunctionRequest}
    {validated : ValidatedFunction} (h : validateCreatePayload pf payload = .ok validated) :
    validated.secretValues = (payload.secrets.getD .empty).entries := by
  simp only [validateCreatePayload, Outcome.bind_eq_ok] at h
  obtain ⟨_, _, _, _, _, _, _, _, _, _, _, _, _, _, secretValues, hsecrets, _, _, _, _, _, _,
      heq⟩ := h
  cases heq
  exact normalizeSecretValues_ok hsecrets

variable {l : SecretLedger} {request : FunctionRequest}

/-- The invariant of the ledger: the tables are in order, its entries are maps and
    its database decrypts to them. -/
structure SecretLedger.Faithful (cipher : SecretCipher) (l : SecretLedger) : Prop where
  inv : FunctionsInv cipher l.db
  sorted : ∀ id, OrderedMap.Sorted strLt (l.sec id)
  read : VersionsRead cipher l.db l.sec

theorem SecretLedger.Faithful.requested_sorted (h : l.Faithful cipher)
    (request : FunctionRequest) : OrderedMap.Sorted strLt (l.requested request) := by
  have hnil : OrderedMap.Sorted strLt ([] : List (String × String)) := List.Pairwise.nil
  cases request with
  | create env claims payload => exact (payload.secrets.getD .empty).sorted
  | update env claims name payload =>
    rw [requested]
    cases payload.secrets with
    | some secrets => exact secrets.sorted
    | none =>
      cases loadFunctionByName l.db claims.appId name with
      | some existing => exact h.sorted existing.activeVersionId
      | none => exact hnil
  | rollback env claims name versionNumber => exact hnil
  | delete env claims name => exact hnil

/-- What an update writes is what it means: the secrets it inherits were decrypted
    from the active version, which is stored. -/
theorem SecretLedger.Faithful.update_secrets (h : l.Faithful cipher) {claims : Claims}
    {name : String} {payload : UpdateFunctionRequest} {existing : FunctionDetail}
    {secrets : List (String × String)} {validated : ValidatedFunction}
    (hload : loadFunctionByName l.db claims.appId name = some existing)
    (hsecrets : loadFunctionSecrets cipher l.db existing.activeVersionId = .ok secrets)
    (hvalid : validateUpdatePayload pf existing secrets payload = .ok validated) :
    validated.secretValues = l.requested (.update env claims name payload) := by
  obtain ⟨-, -, hvalues⟩ := validateUpdatePayload_ok hvalid
  rw [requested, hload]
  cases hgiven : payload.secrets with
  | some given =>
    rw [hgiven] at hvalues
    exact normalizeSecretValues_ok hvalues
  | none =>
    rw [hgiven] at hvalues
    cases hvalues
    obtain ⟨v, hv, hid, -, -⟩ := h.inv.active_stored existing (loadFunctionByName_some hload).1
    have hread := h.read v hv
    rw [hid, hsecrets] at hread
    exact Except.ok.inj hread

/-- **One request.**  Whatever it commits, the versions read back the ledger. -/
theorem FunctionCommit.versionsRead (h : l.Faithful cipher)
    (hcommit : FunctionCommit pf cipher l.db request db') :
    VersionsRead cipher db' (l.handle pf cipher request).sec := by
  have hkeep : VersionsRead cipher l.db (l.handle pf cipher request).sec := by
    apply h.read.congr
    intro v hv
    exact if_pos (KeyedTable.hasKey_of_mem hv)
  have hsorted := h.requested_sorted request
  cases hcommit with
  | refused => exact hkeep
  | @create env claims payload validated _ hvalid hok =>
    simp only [createFunctionTx, Outcome.bind_eq_ok, Outcome.require_eq_ok] at hok
    obtain ⟨db₁, hinsert, ⟨version, db₂⟩, hversion, hact⟩ := hok
    obtain ⟨-, -, -, functions, -, rfl⟩ := Db.insertFunction_eq_some.mp hinsert
    have hvalues : validated.secretValues = l.requested (.create env claims payload) :=
      validateCreatePayload_secrets hvalid
    rw [← hvalues] at hsorted
    have hread : VersionsRead cipher { l.db with functions := functions } l.sec :=
      h.read.frame rfl rfl
    have hadded := hread.insertFunctionVersion h.inv.secret_version hsorted hversion
    rw [hvalues] at hadded
    exact hadded.activate hact
  | @update env claims name payload existing secrets validated _ hload hsecrets hvalid hok =>
    simp only [updateFunctionTx, Outcome.bind_eq_ok, Outcome.require_eq_ok] at hok
    obtain ⟨⟨version, db₁⟩, hversion, hact⟩ := hok
    have hvalues : validated.secretValues = l.requested (.update env claims name payload) :=
      h.update_secrets hload hsecrets hvalid
    rw [← hvalues] at hsorted
    have hadded := h.read.insertFunctionVersion h.inv.secret_version hsorted hversion
    rw [hvalues] at hadded
    exact hadded.activate hact
  | rollback hload hversion hact => exact hkeep.activate hact
  | delete env claims name p => exact hkeep.deleteFunctions p

/-- **Ledger step.**  A request keeps the invariant. -/
theorem SecretLedger.Faithful.handle (h : l.Faithful cipher) (request : FunctionRequest) :
    (l.handle pf cipher request).Faithful cipher := by
  refine ⟨(handleFunctionRequest_kept h.inv request).inv, ?_, ?_⟩
  · intro id
    rw [SecretLedger.handle]
    dsimp only
    split
    · exact h.sorted id
    · exact h.requested_sorted request
  · exact handleFunctionRequest_rule
      (P := fun db' => VersionsRead cipher db' (l.handle pf cipher request).sec)
      (fun _ hcommit => hcommit.versionsRead h) (fun _ _ hread => hread.frame rfl rfl)

end Step

/-! ### Runs -/

theorem secretLedger_faithful (pf : Platform) (cipher : SecretCipher) (db : Db)
    (requests : List FunctionRequest) : (secretLedger pf cipher db requests).Faithful cipher := by
  have hstep : ∀ (l : SecretLedger) (request : FunctionRequest), l.Faithful cipher →
      (l.handle pf cipher request).Faithful cipher := fun l request h => h.handle request
  refine Transition.run_preserves hstep ⟨functionsInv_withoutFunctions cipher db, ?_, ?_⟩ requests
  · intro id
    exact List.Pairwise.nil
  · intro v hv
    exact absurd hv (KeyedTable.not_mem_empty v)

/-- Does the request take versions away? -/
def FunctionRequest.isDelete : FunctionRequest → Bool
  | .delete .. => true
  | _ => false

section Later

variable {pf : Platform} {cipher : SecretCipher} {db : Db} {request : FunctionRequest}

theorem FunctionCommit.versions_kept (hkeeps : request.isDelete = false) {db' : Db}
    (hcommit : FunctionCommit pf cipher db request db') :
    ∀ v ∈ db.functionVersions, v ∈ db'.functionVersions := by
  intro v hv
  cases hcommit with
  | refused => exact hv
  | create hvalid hok =>
    simp only [createFunctionTx, Outcome.bind_eq_ok, Outcome.require_eq_ok] at hok
    obtain ⟨db₁, hinsert, ⟨version, db₂⟩, hversion, hact⟩ := hok
    obtain ⟨-, -, -, functions, -, rfl⟩ := Db.insertFunction_eq_some.mp hinsert
    obtain ⟨hadded, -, -⟩ := insertFunctionVersion_some hversion
    obtain ⟨functions', rfl, -, -⟩ := activateFunctionVersion_some hact
    exact (hadded.versions v).mpr (.inl hv)
  | update hload hsecrets hvalid hok =>
    simp only [updateFunctionTx, Outcome.bind_eq_ok, Outcome.require_eq_ok] at hok
    obtain ⟨⟨version, db₁⟩, hversion, hact⟩ := hok
    obtain ⟨hadded, -, -⟩ := insertFunctionVersion_some hversion
    obtain ⟨functions', rfl, -, -⟩ := activateFunctionVersion_some hact
    exact (hadded.versions v).mpr (.inl hv)
  | rollback hload hversion hact =>
    obtain ⟨functions', rfl, -, -⟩ := activateFunctionVersion_some hact
    exact hv
  | delete env claims name p => cases hkeeps

theorem handleFunctionRequest_versions_kept (hkeeps : request.isDelete = false) :
    ∀ v ∈ db.functionVersions, v ∈ (handleFunctionRequest pf cipher db request).functionVersions :=
  handleFunctionRequest_rule (P := fun db' => ∀ v ∈ db.functionVersions, v ∈ db'.functionVersions)
    (fun _ hcommit => hcommit.versions_kept hkeeps) (fun _ _ hkept => hkept)

theorem SecretLedger.kept {l : SecretLedger} {v : FunctionVersion} {after : List FunctionRequest}
    (hkeeps : ∀ request ∈ after, request.isDelete = false) (hv : v ∈ l.db.functionVersions) :
    v ∈ (Transition.run (SecretLedger.handle pf cipher) l after).db.functionVersions ∧
      (Transition.run (SecretLedger.handle pf cipher) l after).sec v.id = l.sec v.id := by
  induction after generalizing l with
  | nil => exact ⟨hv, rfl⟩
  | cons request rest ih =>
    rw [List.forall_mem_cons] at hkeeps
    have hstored : v ∈ (l.handle pf cipher request).db.functionVersions :=
      handleFunctionRequest_versions_kept hkeeps.1 v hv
    have hsame : (l.handle pf cipher request).sec v.id = l.sec v.id :=
      if_pos (KeyedTable.hasKey_of_mem hv)
    rw [← hsame]
    exact ih hkeeps.2 hstored

end Later

/-- **Secrets follow their version.**  What a version was given when it was stored
    is what its secrets decrypt to, whatever is created, updated or rolled back
    afterwards. -/
theorem loadFunctionSecrets_of_stored (pf : Platform) (cipher : SecretCipher) (db : Db)
    (before after : List FunctionRequest)
    (hkeeps : ∀ request ∈ after, request.isDelete = false) (v : FunctionVersion)
    (hv : v ∈ (runFunctions pf cipher db before).functionVersions) :
    v ∈ (runFunctions pf cipher db (before ++ after)).functionVersions ∧
      loadFunctionSecrets cipher (runFunctions pf cipher db (before ++ after)) v.id =
        .ok ((secretLedger pf cipher db before).sec v.id) := by
  rw [← secretLedger_db] at hv ⊢
  obtain ⟨hstored, hsame⟩ := SecretLedger.kept hkeeps hv
  have hall : secretLedger pf cipher db (before ++ after) =
      Transition.run (SecretLedger.handle pf cipher) (secretLedger pf cipher db before) after :=
    Transition.run_append _ _ before after
  rw [← hall] at hstored hsame
  rw [← hsame]
  exact ⟨hstored, (secretLedger_faithful pf cipher db (before ++ after)).read v hstored⟩

/-! ### An update that names no secrets -/

def greetSecrets : BTreeMap String := ⟨[("TOKEN", "s3:cret")], by decide⟩

/-- A function with a secret, a version that inherits it and one without secrets. -/
def secretVersions : List FunctionRequest :=
  [.create (sampleEnv "a") functionAdminClaims
      { name := "greet", displayName := "Greet", endpointSlug := "greet", runtime := "javascript"
        sourceCode := "one", secrets := some greetSecrets },
    .update (sampleEnv "b") functionAdminClaims "greet" { sourceCode := some "two" }]

def withoutSecrets : List FunctionRequest :=
  [.update (sampleEnv "c") functionAdminClaims "greet" { secrets := some .empty },
    .rollback (sampleEnv "d") functionAdminClaims "greet" 1]

/-- The second version still has the secret of the first. -/
theorem second_version_secrets :
    ∃ v ∈ (runFunctions asciiPlatform readableCipher functionAdminDb
        (secretVersions ++ withoutSecrets)).functionVersions,
      v.id = "b0" ∧ loadFunctionSecrets readableCipher
        (runFunctions asciiPlatform readableCipher functionAdminDb
          (secretVersions ++ withoutSecrets)) "b0" = .ok [("TOKEN", "s3:cret")] := by
  obtain ⟨v, hv, hid⟩ := KeyedTable.hasKey_iff.mp (show (runFunctions asciiPlatform readableCipher
    functionAdminDb secretVersions).functionVersions.hasKey "b0" = true by decide +kernel)
  have hkeeps : ∀ request ∈ withoutSecrets, request.isDelete = false := by
    simp [withoutSecrets, FunctionRequest.isDelete]
  obtain ⟨hstored, hload⟩ := loadFunctionSecrets_of_stored asciiPlatform readableCipher
    functionAdminDb secretVersions withoutSecrets hkeeps v hv
  have hentry : (secretLedger asciiPlatform readableCipher functionAdminDb secretVersions).sec
      "b0" =
      [("TOKEN", "s3:cret")] := by
    decide +kernel
  rw [hid, hentry] at hload
  exact ⟨v, hstored, hid, hload⟩

end Peanut
