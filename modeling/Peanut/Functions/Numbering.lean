import Peanut.Library.Transition
import Peanut.Functions.Versions

/-!
# Version numbers

The versions of a function are numbered 1, 2, 3, … without a gap.  An update takes
the number after the *active* version, not after the newest, so once a rollback
has made an older version active the next update asks for a number that is taken
and the database refuses it.
-/

namespace Peanut

open Relational

/-! ### The statements of a new version -/

section Statements

variable {cipher : SecretCipher} {env : Env}

theorem insertFunctionSecrets_some {versionId : String} {entries : List (String × String)} :
    ∀ {n : Nat} {db db' : Db},
      insertFunctionSecrets cipher env versionId n entries db = some db' →
        (∃ secrets, db' = { db with functionVersionSecrets := secrets }) ∧
          ∀ s ∈ db'.functionVersionSecrets, s ∈ db.functionVersionSecrets ∨
            ∃ m e, s = newSecretRow cipher env versionId m e := by
  induction entries with
  | nil =>
    intro n db db' h
    cases h
    exact ⟨⟨db.functionVersionSecrets, rfl⟩, fun s hs => .inl hs⟩
  | cons e rest ih =>
    intro n db db' h
    obtain ⟨db₁, hinsert, hrest⟩ := Option.bind_eq_some_iff.mp h
    obtain ⟨-, secrets, hins, rfl⟩ := Db.insertFunctionSecret_eq_some.mp hinsert
    obtain ⟨⟨secrets', rfl⟩, hrows⟩ := ih hrest
    refine ⟨⟨secrets', rfl⟩, ?_⟩
    intro s hs
    rcases hrows s hs with hs | hnew
    · rcases (KeyedTable.mem_insert? hins).mp hs with hs | rfl
      · exact .inl hs
      · exact .inr ⟨n, e, rfl⟩
    · exact .inr hnew

theorem insertFunctionSecrets_isSome {versionId : String} {entries : List (String × String)}
    (hnodup : (entries.map Prod.fst).Nodup) :
    ∀ {n : Nat} {db : Db}, db.functionVersions.hasKey versionId = true →
      (∀ s ∈ db.functionVersionSecrets, s.versionId = versionId →
        s.secretKey ∉ entries.map Prod.fst) →
      ∃ db', insertFunctionSecrets cipher env versionId n entries db = some db' := by
  induction entries with
  | nil =>
    intro n db _ _
    exact ⟨db, rfl⟩
  | cons e rest ih =>
    intro n db hversion hfree
    rw [List.map_cons, List.nodup_cons] at hnodup
    have hkey : db.functionVersionSecrets.hasKey (versionId, e.1) = false := by
      rw [← Bool.not_eq_true, KeyedTable.hasKey_iff]
      rintro ⟨s, hs, heq⟩
      rw [Prod.mk.injEq] at heq
      exact hfree s hs heq.1 (by simp [heq.2])
    obtain ⟨secrets, hins⟩ : ∃ secrets, db.functionVersionSecrets.insert?
        (newSecretRow cipher env versionId n e) = some secrets :=
      KeyedTable.exists_insert? hkey
    have hinsert : db.insertFunctionSecret (newSecretRow cipher env versionId n e) =
        some { db with functionVersionSecrets := secrets } :=
      Db.insertFunctionSecret_eq_some.mpr ⟨hversion, secrets, hins, rfl⟩
    have hrest : ∀ s ∈ secrets, s.versionId = versionId → s.secretKey ∉ rest.map Prod.fst := by
      intro s hs hid
      rcases (KeyedTable.mem_insert? hins).mp hs with hs | rfl
      · intro hmem
        exact hfree s hs hid (List.mem_cons_of_mem _ hmem)
      · exact hnodup.1
    obtain ⟨db', hdb'⟩ := @ih hnodup.2 (n + 1) { db with functionVersionSecrets := secrets }
      hversion hrest
    refine ⟨db', ?_⟩
    rw [insertFunctionSecrets, hinsert]
    exact hdb'

/-- The database `db'` is `db` with one more version and secrets of it. -/
structure VersionAdded (cipher : SecretCipher) (env : Env) (db db' : Db) (v : FunctionVersion) :
    Prop where
  frame : ∃ versions secrets,
    db' = { db with functionVersions := versions, functionVersionSecrets := secrets }
  function_stored : db.functions.hasKey v.functionId = true
  versions : ∀ w, w ∈ db'.functionVersions ↔ w ∈ db.functionVersions ∨ w = v
  number_fresh : ∀ w ∈ db.functionVersions, w.functionId = v.functionId →
    w.versionNumber ≠ v.versionNumber
  secrets : ∀ s ∈ db'.functionVersionSecrets, s ∈ db.functionVersionSecrets ∨
    ∃ m e, s = newSecretRow cipher env v.id m e

/-- A version with a free id and a free number of a stored function is stored,
    when no secret refers to the id and the new secrets have distinct keys. -/
theorem insertFunctionVersion_isSome {db : Db} {versionId functionId appId createdBy : String}
    {number : Int} {validated : ValidatedFunction}
    (hid : db.functionVersions.hasKey versionId = false)
    (hnumber : ∀ w ∈ db.functionVersions, w.functionId = functionId → w.versionNumber ≠ number)
    (hfunction : db.functions.hasKey functionId = true)
    (huser : db.users.hasKey createdBy = true)
    (hsecrets : ∀ s ∈ db.functionVersionSecrets, s.versionId ≠ versionId)
    (hnodup : (validated.secretValues.map Prod.fst).Nodup) :
    ∃ result, insertFunctionVersion cipher db env versionId functionId appId number validated
      createdBy = some result := by
  obtain ⟨versions, hins⟩ : ∃ versions, db.functionVersions.insert?
      (versionRow env versionId functionId appId number validated createdBy) = some versions :=
    KeyedTable.exists_insert? hid
  have hrow : db.insertFunctionVersionRow
      (versionRow env versionId functionId appId number validated createdBy) =
        some { db with functionVersions := versions } :=
    Db.insertFunctionVersionRow_eq_some.mpr ⟨hnumber, hfunction, huser, versions, hins, rfl⟩
  have hkey : versions.hasKey versionId = true :=
    KeyedTable.hasKey_iff.mpr ⟨_, (KeyedTable.mem_insert? hins).mpr (.inr rfl), rfl⟩
  obtain ⟨db', hdb'⟩ := @insertFunctionSecrets_isSome cipher env versionId validated.secretValues
    hnodup 0 { db with functionVersions := versions } hkey
    (fun s hs heq => absurd heq (hsecrets s hs))
  exact ⟨_, Option.bind_eq_some_iff.mpr
    ⟨_, hrow, Option.bind_eq_some_iff.mpr ⟨db', hdb', rfl⟩⟩⟩

theorem insertFunctionVersion_some {db db' : Db} {versionId functionId appId createdBy : String}
    {number : Int} {validated : ValidatedFunction} {version : LoadedFunctionVersion}
    (h : insertFunctionVersion cipher db env versionId functionId appId number validated createdBy =
      some (version, db')) :
    VersionAdded cipher env db db'
        (versionRow env versionId functionId appId number validated createdBy) ∧
      version.id = versionId ∧ version.versionNumber = number := by
  obtain ⟨db₁, hrow, h⟩ := Option.bind_eq_some_iff.mp h
  obtain ⟨db₂, hsecrets, h⟩ := Option.bind_eq_some_iff.mp h
  cases h
  obtain ⟨hnumber, hfunction, -, versions, hins, rfl⟩ := Db.insertFunctionVersionRow_eq_some.mp hrow
  obtain ⟨⟨secrets, rfl⟩, hnew⟩ := insertFunctionSecrets_some hsecrets
  exact ⟨⟨⟨versions, secrets, rfl⟩, hfunction, fun w => KeyedTable.mem_insert? hins, hnumber, hnew⟩,
    rfl, rfl⟩

end Statements

/-! ### The invariant -/

/-- The version a function row names as active is stored, under its number. -/
def ActiveStored (db : Db) (f : FunctionDetail) : Prop :=
  ∃ v ∈ db.functionVersions,
    v.id = f.activeVersionId ∧ v.functionId = f.id ∧ v.versionNumber = f.activeVersionNumber

/-- The function tables between two statements: an endpoint has one function,
    versions belong to functions and secrets to versions, the numbers have no gap,
    and every secret can be read. -/
structure FunctionTables (cipher : SecretCipher) (db : Db) : Prop where
  slug_unique : ∀ f ∈ db.functions, ∀ g ∈ db.functions, f.appId = g.appId →
    f.endpointSlug = g.endpointSlug → f = g
  version_function : ∀ v ∈ db.functionVersions, db.functions.hasKey v.functionId = true
  numbers_closed : ∀ v ∈ db.functionVersions, 1 ≤ v.versionNumber ∧
    ∀ n, 1 ≤ n → n ≤ v.versionNumber →
      ∃ w ∈ db.functionVersions, w.functionId = v.functionId ∧ w.versionNumber = n
  secret_version : ∀ s ∈ db.functionVersionSecrets, db.functionVersions.hasKey s.versionId = true
  secret_readable : ∀ s ∈ db.functionVersionSecrets, ∃ e, resolveSecret cipher s = .ok e

/-- The function tables between two requests. -/
structure FunctionsInv (cipher : SecretCipher) (db : Db) : Prop extends
    FunctionTables cipher db where
  active_stored : ∀ f ∈ db.functions, ActiveStored db f

/-- The active version has the greatest number of the function. -/
def ActiveIsNewest (db : Db) (f : FunctionDetail) : Prop :=
  ∀ v ∈ db.functionVersions, v.functionId = f.id → v.versionNumber ≤ f.activeVersionNumber

def AllNewest (db : Db) : Prop := ∀ f ∈ db.functions, ActiveIsNewest db f

/-- What a request leaves behind: the invariant, and the newest versions active
    where they were before and the request meets `c`. -/
structure FunctionsKept (cipher : SecretCipher) (c : Prop) (db db' : Db) : Prop where
  inv : FunctionsInv cipher db'
  newest : c → AllNewest db → AllNewest db'

theorem resolveSecret_newSecretRow (cipher : SecretCipher) (env : Env) (versionId : String)
    (n : Nat) (e : String × String) :
    resolveSecret cipher (newSecretRow cipher env versionId n e) = .ok e := by
  simp [resolveSecret, newSecretRow, decryptSecret_encryptSecret, pure, Except.pure]

section Tables

variable {cipher : SecretCipher} {env : Env} {db db' : Db}

theorem FunctionTables.addVersion {v : FunctionVersion} (h : FunctionTables cipher db)
    (hadded : VersionAdded cipher env db db' v) (hpos : 1 ≤ v.versionNumber)
    (hbelow : ∀ n, 1 ≤ n → n < v.versionNumber →
      ∃ w ∈ db.functionVersions, w.functionId = v.functionId ∧ w.versionNumber = n) :
    FunctionTables cipher db' := by
  have hold : ∀ w ∈ db.functionVersions, w ∈ db'.functionVersions :=
    fun w hw => (hadded.versions w).mpr (.inl hw)
  have hnew : v ∈ db'.functionVersions := (hadded.versions v).mpr (.inr rfl)
  have hfunctions : db'.functions = db.functions := by
    obtain ⟨versions, secrets, rfl⟩ := hadded.frame
    rfl
  refine ⟨?_, ?_, ?_, ?_, ?_⟩
  · rw [hfunctions]
    exact h.slug_unique
  · intro w hw
    rw [hfunctions]
    rcases (hadded.versions w).mp hw with hw | rfl
    · exact h.version_function w hw
    · exact hadded.function_stored
  · intro w hw
    rcases (hadded.versions w).mp hw with hw | rfl
    · obtain ⟨hw1, hclosed⟩ := h.numbers_closed w hw
      refine ⟨hw1, ?_⟩
      intro n hn hle
      obtain ⟨u, hu, hnum⟩ := hclosed n hn hle
      exact ⟨u, hold u hu, hnum⟩
    · refine ⟨hpos, ?_⟩
      intro n hn hle
      rcases Int.lt_or_eq_of_le hle with hlt | rfl
      · obtain ⟨u, hu, hnum⟩ := hbelow n hn hlt
        exact ⟨u, hold u hu, hnum⟩
      · exact ⟨w, hnew, rfl, rfl⟩
  · intro s hs
    rw [KeyedTable.hasKey_iff]
    rcases hadded.secrets s hs with hs | ⟨m, e, rfl⟩
    · obtain ⟨w, hw, hid⟩ := KeyedTable.hasKey_iff.mp (h.secret_version s hs)
      exact ⟨w, hold w hw, hid⟩
    · exact ⟨v, hnew, rfl⟩
  · intro s hs
    rcases hadded.secrets s hs with hs | ⟨m, e, rfl⟩
    · exact h.secret_readable s hs
    · exact ⟨e, resolveSecret_newSecretRow cipher env v.id m e⟩

/-- Activating a stored version completes the invariant: only the function that
    is activated may have been without one. -/
theorem FunctionTables.activate {functionId updatedBy : String} {validated : ValidatedFunction}
    {version : LoadedFunctionVersion} (h : FunctionTables cipher db)
    (hothers : ∀ f ∈ db.functions, f.id ≠ functionId → ActiveStored db f)
    (hstored : ∃ v ∈ db.functionVersions, v.id = version.id ∧ v.functionId = functionId ∧
      v.versionNumber = version.versionNumber)
    (hact : activateFunctionVersion db env functionId validated version updatedBy = some db') :
    FunctionsInv cipher db' := by
  obtain ⟨hfree, -, -⟩ := activateFunctionVersion_eq_some.mp hact
  obtain ⟨functions, rfl, hmem, hkeys⟩ := activateFunctionVersion_some hact
  refine ⟨⟨?_, ?_, h.numbers_closed, h.secret_version, h.secret_readable⟩, ?_⟩
  · -- a function that takes the endpoint takes it from no other
    intro f' hf' g' hg'
    obtain ⟨f, hf, rfl⟩ := (hmem _).mp hf'
    obtain ⟨g, hg, rfl⟩ := (hmem _).mp hg'
    by_cases hfid : f.id = functionId
    · by_cases hgid : g.id = functionId
      · have hsame := db.functions.eq_of_key_eq hf hg (hfid.trans hgid.symm)
        subst hsame
        intro _ _
        rfl
      · simp only [hfid, hgid, if_true, if_false, FunctionDetail.activated]
        intro happ hslug
        exact absurd hslug.symm (hfree f hf hfid g hg hgid happ.symm)
    · by_cases hgid : g.id = functionId
      · simp only [hfid, hgid, if_true, if_false, FunctionDetail.activated]
        intro happ hslug
        exact absurd hslug (hfree g hg hgid f hf hfid happ)
      · simp only [hfid, hgid, if_false]
        exact h.slug_unique f hf g hg
  · intro v hv
    exact (hkeys v.functionId).trans (h.version_function v hv)
  · intro f' hf'
    obtain ⟨f, hf, rfl⟩ := (hmem _).mp hf'
    by_cases hfid : f.id = functionId
    · obtain ⟨v, hv, hid, hfunction, hnumber⟩ := hstored
      simp only [hfid, if_true]
      exact ⟨v, hv, hid, hfunction.trans hfid.symm, hnumber⟩
    · simp only [hfid, if_false]
      exact hothers f hf hfid

/-- Where every other function has its newest version active and this one is
    given its newest, all have. -/
theorem AllNewest.activate {functionId updatedBy : String} {validated : ValidatedFunction}
    {version : LoadedFunctionVersion}
    (hothers : ∀ f ∈ db.functions, f.id ≠ functionId → ActiveIsNewest db f)
    (hnewest : ∀ v ∈ db.functionVersions, v.functionId = functionId →
      v.versionNumber ≤ version.versionNumber)
    (hact : activateFunctionVersion db env functionId validated version updatedBy = some db') :
    AllNewest db' := by
  obtain ⟨functions, rfl, hmem, -⟩ := activateFunctionVersion_some hact
  intro f' hf'
  obtain ⟨f, hf, rfl⟩ := (hmem _).mp hf'
  by_cases hfid : f.id = functionId
  · simp only [hfid, if_true]
    intro v hv hfunction
    exact hnewest v hv (hfunction.trans hfid)
  · simp only [hfid, if_false]
    exact hothers f hf hfid

theorem FunctionsInv.deleteFunctions (h : FunctionsInv cipher db) (p : FunctionDetail → Bool) :
    FunctionsKept cipher True db (db.deleteFunctions p) := by
  refine ⟨⟨⟨?_, ?_, ?_, ?_, ?_⟩, ?_⟩, ?_⟩
  · intro f hf g hg
    exact h.slug_unique f (KeyedTable.mem_deleteWhere.mp hf).1 g
      (KeyedTable.mem_deleteWhere.mp hg).1
  · intro v hv
    obtain ⟨hv, hstays⟩ := KeyedTable.mem_deleteWhere.mp hv
    obtain ⟨f, hf, hid⟩ := KeyedTable.hasKey_iff.mp (h.version_function v hv)
    refine KeyedTable.hasKey_iff.mpr ⟨f, KeyedTable.mem_deleteWhere.mpr ⟨hf, ?_⟩, hid⟩
    by_contra hp
    exact Db.functionGone_eq_false.mp hstays f hf (by simpa using hp) hid
  · intro v hv
    obtain ⟨hv, hstays⟩ := KeyedTable.mem_deleteWhere.mp hv
    obtain ⟨hpos, hclosed⟩ := h.numbers_closed v hv
    refine ⟨hpos, ?_⟩
    intro n hn hle
    obtain ⟨w, hw, hfunction, hnumber⟩ := hclosed n hn hle
    refine ⟨w, KeyedTable.mem_deleteWhere.mpr ⟨hw, ?_⟩, hfunction, hnumber⟩
    rw [hfunction]
    exact hstays
  · exact Db.deleteFunctions_secret_version h.secret_version p
  · intro s hs
    exact h.secret_readable s (KeyedTable.mem_deleteWhere.mp hs).1
  · intro f hf
    obtain ⟨v, hv, hid, hfunction, hnumber⟩ :=
      h.active_stored f (KeyedTable.mem_deleteWhere.mp hf).1
    refine ⟨v, KeyedTable.mem_deleteWhere.mpr ⟨hv, ?_⟩, hid, hfunction, hnumber⟩
    rw [Db.functionGone_eq_false, hfunction]
    exact Db.not_deleted_of_mem hf
  · intro _ hnewest f hf v hv
    exact hnewest f (KeyedTable.mem_deleteWhere.mp hf).1 v (KeyedTable.mem_deleteWhere.mp hv).1

theorem FunctionsInv.kept (h : FunctionsInv cipher db) (c : Prop) : FunctionsKept cipher c db db :=
  ⟨h, fun _ hnewest => hnewest⟩

theorem FunctionsKept.logged {c : Prop} (h : FunctionsKept cipher c db db')
    (logs : KeyedTable AuditLog (·.id)) :
      FunctionsKept cipher c db { db' with auditLogs := logs } :=
  ⟨⟨⟨h.inv.slug_unique, h.inv.version_function, h.inv.numbers_closed, h.inv.secret_version,
    h.inv.secret_readable⟩, h.inv.active_stored⟩, h.newest⟩

end Tables

/-! ### The requests -/

inductive FunctionRequest where
  | create (env : Env) (claims : Claims) (payload : UpsertFunctionRequest)
  | update (env : Env) (claims : Claims) (name : String) (payload : UpdateFunctionRequest)
  | rollback (env : Env) (claims : Claims) (name : String) (versionNumber : Int)
  | delete (env : Env) (claims : Claims) (name : String)

/-- The database after a request. -/
def handleFunctionRequest (pf : Platform) (cipher : SecretCipher) (db : Db) : FunctionRequest → Db
  | .create env claims payload => (createFunction pf cipher db env claims payload).1
  | .update env claims name payload => (updateFunction pf cipher db env claims name payload).1
  | .rollback env claims name versionNumber =>
      (rollbackFunctionVersion cipher db env claims name versionNumber).1
  | .delete env claims name => (deleteFunction db env claims name).1

section Requests

variable {pf : Platform} {cipher : SecretCipher} {db : Db}

theorem reloadFunction_frame (db : Db) (env : Env) (uuid : String) (claims : Claims)
    (name action : String) (status : StatusCode) (metadata : FunctionDetail → Value)
    (message : String) :
    ∃ logs, (reloadFunction db env uuid claims name action status metadata message).1 =
      { db with auditLogs := logs } := by
  unfold reloadFunction
  split
  · exact ⟨db.auditLogs, rfl⟩
  · exact Db.recordAuditLog_frame db env uuid _ claims _ _ _ _

theorem loadFunctionByName_some {appId name : String} {f : FunctionDetail}
    (h : loadFunctionByName db appId name = some f) :
    f ∈ db.functions ∧ f.appId = appId ∧ f.name = name := by
  obtain ⟨hf, hmatch⟩ := KeyedTable.selectOne_some h
  simp only [Bool.and_eq_true, beq_iff_eq] at hmatch
  exact ⟨hf, hmatch⟩

variable {existing : FunctionDetail} {validated : ValidatedFunction}

theorem validateUpdatePayload_ok {secrets : List (String × String)}
    {payload : UpdateFunctionRequest}
    (h : validateUpdatePayload pf existing secrets payload = .ok validated) :
    validated.id = existing.id ∧ validated.name = existing.name ∧
      updatedSecretValues secrets payload.secrets = .ok validated.secretValues := by
  simp only [validateUpdatePayload, Outcome.bind_eq_ok] at h
  obtain ⟨_, _, _, _, _, _, _, _, _, _, _, _, secretValues, hsecrets, _, _, _, _, _, _, heq⟩ := h
  cases heq
  exact ⟨rfl, rfl, hsecrets⟩

variable {claims : Claims}

theorem updateFunctionChecks_ok {name : String} {payload : UpdateFunctionRequest}
    (h : updateFunctionChecks pf cipher db claims name payload = .ok (existing, validated)) :
    loadFunctionByName db claims.appId name = some existing ∧
      ∃ secrets, loadFunctionSecrets cipher db existing.activeVersionId = .ok secrets ∧
        validateUpdatePayload pf existing secrets payload = .ok validated := by
  simp only [updateFunctionChecks, Outcome.bind_eq_ok, Outcome.require_eq_ok, badRequest_eq_ok,
    Outcome.mapError_eq_ok] at h
  obtain ⟨-, -, f, hload, secrets, hsecrets, validated', hvalid, heq⟩ := h
  cases heq
  exact ⟨hload, secrets, hsecrets, hvalid⟩

/-- What a request commits, up to the audit log. -/
inductive FunctionCommit (pf : Platform) (cipher : SecretCipher) (db : Db) :
    FunctionRequest → Db → Prop where
  | refused (request : FunctionRequest) : FunctionCommit pf cipher db request db
  | create {env : Env} {claims : Claims} {payload : UpsertFunctionRequest}
      {validated : ValidatedFunction} {db' : Db}
      (hvalid : validateCreatePayload pf payload = .ok validated)
      (hok : createFunctionTx cipher db env claims validated = .ok db') :
      FunctionCommit pf cipher db (.create env claims payload) db'
  | update {env : Env} {claims : Claims} {name : String} {payload : UpdateFunctionRequest}
      {existing : FunctionDetail} {secrets : List (String × String)}
      {validated : ValidatedFunction} {db' : Db}
      (hload : loadFunctionByName db claims.appId name = some existing)
      (hsecrets : loadFunctionSecrets cipher db existing.activeVersionId = .ok secrets)
      (hvalid : validateUpdatePayload pf existing secrets payload = .ok validated)
      (hok : updateFunctionTx cipher db env claims existing validated = .ok db') :
      FunctionCommit pf cipher db (.update env claims name payload) db'
  | rollback {env : Env} {claims : Claims} {name : String} {versionNumber : Int}
      {function : FunctionDetail} {version : LoadedFunctionVersion} {db' : Db}
      (hload : loadFunctionByName db claims.appId name = some function)
      (hversion : loadFunctionVersionByNumber db function.id versionNumber = some version)
      (hact : activateFunctionVersion db env function.id
        (rollbackTarget cipher db function version) version claims.sub = some db') :
      FunctionCommit pf cipher db (.rollback env claims name versionNumber) db'
  | delete (env : Env) (claims : Claims) (name : String) (p : FunctionDetail → Bool) :
      FunctionCommit pf cipher db (.delete env claims name) (db.deleteFunctions p)

/-- **Commit rule.**  What every commit establishes and the audit log does not touch
    holds after a request. -/
theorem handleFunctionRequest_rule {P : Db → Prop} {request : FunctionRequest}
    (hcommit : ∀ db', FunctionCommit pf cipher db request db' → P db')
    (hlog : ∀ (db' : Db) (logs : KeyedTable AuditLog (·.id)), P db' →
      P { db' with auditLogs := logs }) :
    P (handleFunctionRequest pf cipher db request) := by
  have hrefused : P db := hcommit db (.refused request)
  have hreload : ∀ (db' : Db) (env : Env) (uuid : String) (claims : Claims) (name action : String)
      (status : StatusCode) (metadata : FunctionDetail → Value) (message : String), P db' →
      P (reloadFunction db' env uuid claims name action status metadata message).1 := by
    intro db' env uuid claims name action status metadata message hP
    obtain ⟨logs, hlogs⟩ :=
      reloadFunction_frame db' env uuid claims name action status metadata message
    rw [hlogs]
    exact hlog db' logs hP
  cases request with
  | create env claims payload =>
    refine Outcome.proceed_rule (P := P) hrefused ?_
    intro validated hchecks
    simp only [Outcome.bind_eq_ok, badRequest_eq_ok] at hchecks
    obtain ⟨-, -, hvalid⟩ := hchecks
    refine Outcome.proceed_rule (P := P) hrefused ?_
    intro db' hok
    exact hreload db' _ _ _ _ _ _ _ _ (hcommit db' (.create hvalid hok))
  | update env claims name payload =>
    refine Outcome.proceed_rule (P := P) hrefused ?_
    rintro ⟨existing, validated⟩ hchecks
    obtain ⟨hload, secrets, hsecrets, hvalid⟩ := updateFunctionChecks_ok hchecks
    refine Outcome.proceed_rule (P := P) hrefused ?_
    intro db' hok
    exact hreload db' _ _ _ _ _ _ _ _ (hcommit db' (.update hload hsecrets hvalid hok))
  | rollback env claims name versionNumber =>
    refine Outcome.proceed_rule (P := P) hrefused ?_
    rintro ⟨function, version⟩ hchecks
    simp only [Outcome.bind_eq_ok, Outcome.require_eq_ok] at hchecks
    obtain ⟨-, -, f, hload, version', hversion, heq⟩ := hchecks
    cases heq
    refine Outcome.proceed_rule (P := P) hrefused ?_
    intro db' hact
    rw [Outcome.require_eq_ok] at hact
    exact hreload db' _ _ _ _ _ _ _ _ (hcommit db' (.rollback hload hversion hact))
  | delete env claims name =>
    refine Outcome.proceed_rule (P := P) hrefused ?_
    intro existing _
    dsimp only
    split
    · obtain ⟨logs, hlogs⟩ := Db.recordAuditLog_frame (db.deleteFunctions fun f =>
        f.appId == claims.appId && f.id == existing.id) env (env.uuid 0) (some claims.appId) claims
        "function.deleted" "function" existing.name (.object [])
      rw [hlogs]
      exact hlog _ logs (hcommit _ (.delete env claims name _))
    · exact hrefused

theorem FunctionsInv.insertFunction (h : FunctionsInv cipher db) {f : FunctionDetail} {db' : Db}
    (hinsert : db.insertFunction f = some db') : FunctionTables cipher db' := by
  obtain ⟨hfree, -, -, functions, hins, rfl⟩ := Db.insertFunction_eq_some.mp hinsert
  have hmem : ∀ {g : FunctionDetail}, g ∈ functions ↔ g ∈ db.functions ∨ g = f :=
    KeyedTable.mem_insert? hins
  refine ⟨?_, ?_, h.numbers_closed, h.secret_version, h.secret_readable⟩
  · intro g hg g' hg' happ hslug
    rcases hmem.mp hg with hg | rfl
    · rcases hmem.mp hg' with hg' | rfl
      · exact h.slug_unique g hg g' hg' happ hslug
      · exact absurd hslug (hfree g hg happ).2
    · rcases hmem.mp hg' with hg' | rfl
      · exact absurd hslug.symm (hfree g' hg' happ.symm).2
      · rfl
  · intro v hv
    obtain ⟨g, hg, hid⟩ := KeyedTable.hasKey_iff.mp (h.version_function v hv)
    exact KeyedTable.hasKey_iff.mpr ⟨g, hmem.mpr (.inl hg), hid⟩

theorem createFunctionTx_kept (h : FunctionsInv cipher db) {env : Env} {db' : Db}
    (hok : createFunctionTx cipher db env claims validated = .ok db') :
    FunctionsKept cipher True db db' := by
  simp only [createFunctionTx, Outcome.bind_eq_ok, Outcome.require_eq_ok] at hok
  obtain ⟨db₁, hinsert, ⟨version, db₂⟩, hversion, hact⟩ := hok
  have htables := h.insertFunction hinsert
  obtain ⟨-, -, -, functions, hins, rfl⟩ := Db.insertFunction_eq_some.mp hinsert
  obtain ⟨hadded, hid, hnumber⟩ := insertFunctionVersion_some hversion
  have hfirst : ∀ n : Int, 1 ≤ n → n < 1 → ∃ w ∈ db.functionVersions,
      w.functionId = env.uuid 0 ∧ w.versionNumber = n := by
    intro n h1 h2
    omega
  -- the function is new, so the first version is its only one
  have honly : ∀ v ∈ db.functionVersions, v.functionId ≠ env.uuid 0 := by
    intro v hv heq
    have hnew := (KeyedTable.insert?_eq_some.mp hins).1
    have hkey := h.version_function v hv
    rw [heq] at hkey
    exact absurd hkey (by simpa [newFunctionRow] using hnew)
  have hsplit : ∀ f ∈ functions, f.id ≠ env.uuid 0 → f ∈ db.functions := by
    intro f hf hne
    rcases (KeyedTable.mem_insert? hins).mp hf with hf | rfl
    · exact hf
    · exact absurd rfl hne
  have hfunctions : db₂.functions = functions := by
    obtain ⟨versions, secrets, rfl⟩ := hadded.frame
    rfl
  refine ⟨(htables.addVersion hadded (Int.le_refl 1) hfirst).activate ?_ ?_ hact, ?_⟩
  · intro f hf hne
    rw [hfunctions] at hf
    obtain ⟨v, hv, hactive⟩ := h.active_stored f (hsplit f hf hne)
    exact ⟨v, (hadded.versions v).mpr (.inl hv), hactive⟩
  · exact ⟨_, (hadded.versions _).mpr (.inr rfl), hid.symm, rfl, hnumber.symm⟩
  · intro _ hnewest
    refine AllNewest.activate ?_ ?_ hact
    · intro f hf hne v hv hfunction
      rw [hfunctions] at hf
      rcases (hadded.versions v).mp hv with hv | rfl
      · exact hnewest f (hsplit f hf hne) v hv hfunction
      · exact absurd hfunction.symm hne
    · intro v hv hfunction
      rcases (hadded.versions v).mp hv with hv | rfl
      · exact absurd hfunction (honly v hv)
      · exact Int.le_of_eq hnumber.symm

theorem updateFunctionTx_kept (h : FunctionsInv cipher db) {env : Env} {db' : Db}
    (hmem : existing ∈ db.functions) (hsame : validated.id = existing.id)
    (hok : updateFunctionTx cipher db env claims existing validated = .ok db') :
    FunctionsKept cipher True db db' := by
  simp only [updateFunctionTx, Outcome.bind_eq_ok, Outcome.require_eq_ok] at hok
  obtain ⟨⟨version, db₁⟩, hversion, hact⟩ := hok
  obtain ⟨hadded, hid, hnumber⟩ := insertFunctionVersion_some hversion
  obtain ⟨v, hv, -, hfunction, hactive⟩ := h.active_stored existing hmem
  obtain ⟨hpos, hclosed⟩ := h.numbers_closed v hv
  have hbelow : ∀ n, 1 ≤ n → n < existing.activeVersionNumber + 1 → ∃ w ∈ db.functionVersions,
      w.functionId = validated.id ∧ w.versionNumber = n := by
    intro n hn hlt
    obtain ⟨w, hw, hwf, hwn⟩ := hclosed n hn (by omega)
    exact ⟨w, hw, by rw [hwf, hfunction, hsame], hwn⟩
  have hnext : 1 ≤ existing.activeVersionNumber + 1 := by omega
  have hfunctions : db₁.functions = db.functions := by
    obtain ⟨versions, secrets, rfl⟩ := hadded.frame
    rfl
  refine ⟨(h.toFunctionTables.addVersion hadded hnext hbelow).activate ?_ ?_ hact, ?_⟩
  · intro f hf _
    rw [hfunctions] at hf
    obtain ⟨w, hw, hstored⟩ := h.active_stored f hf
    exact ⟨w, (hadded.versions w).mpr (.inl hw), hstored⟩
  · exact ⟨_, (hadded.versions _).mpr (.inr rfl), hid.symm, rfl, hnumber.symm⟩
  · intro _ hnewest
    refine AllNewest.activate ?_ ?_ hact
    · intro f hf hne w hw hwf
      rw [hfunctions] at hf
      rcases (hadded.versions w).mp hw with hw | rfl
      · exact hnewest f hf w hw hwf
      · exact absurd hwf.symm hne
    · intro w hw hwf
      rw [hnumber]
      rcases (hadded.versions w).mp hw with hw | rfl
      · have hle := hnewest existing hmem w hw (hwf.trans hsame)
        omega
      · exact Int.le_refl _

theorem loadFunctionVersionByNumber_some {functionId : String} {number : Int}
    {version : LoadedFunctionVersion}
    (h : loadFunctionVersionByNumber db functionId number = some version) :
    version.versionNumber = number ∧ ∃ v ∈ db.functionVersions, v.id = version.id ∧
      v.functionId = functionId ∧ v.versionNumber = version.versionNumber := by
  obtain ⟨v, hselect, rfl⟩ := Option.map_eq_some_iff.mp h
  obtain ⟨hv, hmatch⟩ := KeyedTable.selectOne_some hselect
  simp only [Bool.and_eq_true, beq_iff_eq] at hmatch
  exact ⟨hmatch.2, v, hv, rfl, hmatch.1, rfl⟩

/-- The number is not below that of a stored version of the function. -/
def ReachesNewest (db : Db) (appId name : String) (versionNumber : Int) : Prop :=
  ∀ f, loadFunctionByName db appId name = some f →
    ∀ v ∈ db.functionVersions, v.functionId = f.id → v.versionNumber ≤ versionNumber

/-- Does the request leave no function behind its newest version? -/
def RollsBackToNewest (db : Db) : FunctionRequest → Prop
  | .rollback _ claims name versionNumber => ReachesNewest db claims.appId name versionNumber
  | _ => True

theorem FunctionCommit.kept (h : FunctionsInv cipher db) {request : FunctionRequest} {db' : Db}
    (hcommit : FunctionCommit pf cipher db request db') :
    FunctionsKept cipher (RollsBackToNewest db request) db db' := by
  cases hcommit with
  | refused => exact h.kept _
  | create hvalid hok => exact createFunctionTx_kept h hok
  | update hload _ hvalid hok =>
    exact updateFunctionTx_kept h (loadFunctionByName_some hload).1
      (validateUpdatePayload_ok hvalid).1 hok
  | rollback hload hversion hact =>
    obtain ⟨hnumber, hstored⟩ := loadFunctionVersionByNumber_some hversion
    refine ⟨h.toFunctionTables.activate (fun f hf _ => h.active_stored f hf) hstored hact, ?_⟩
    intro hreaches hnewest
    refine AllNewest.activate (fun f hf _ => hnewest f hf) ?_ hact
    intro v hv hfunction
    rw [hnumber]
    exact hreaches _ hload v hv hfunction
  | delete env claims name p => exact h.deleteFunctions p

theorem handleFunctionRequest_kept (h : FunctionsInv cipher db) (request : FunctionRequest) :
    FunctionsKept cipher (RollsBackToNewest db request) db
      (handleFunctionRequest pf cipher db request) :=
  handleFunctionRequest_rule (P := FunctionsKept cipher (RollsBackToNewest db request) db)
    (fun _ hcommit => hcommit.kept h) fun _ logs hkept => hkept.logged logs

end Requests

/-! ### Secrets of the active version -/

section Secrets

variable {pf : Platform} {cipher : SecretCipher} {db : Db}

theorem resolveSecret_key {s : FunctionVersionSecret} {e : String × String}
    (h : resolveSecret cipher s = .ok e) : e.1 = s.secretKey := by
  simp only [resolveSecret, Outcome.bind_eq_ok] at h
  obtain ⟨ciphertext, -, -, -, resolved, -, heq⟩ := h
  cases heq
  rfl

theorem FunctionTables.loadFunctionSecrets (h : FunctionTables cipher db) (versionId : String) :
    ∃ secrets, loadFunctionSecrets cipher db versionId = .ok secrets ∧
      (secrets.map Prod.fst).Nodup := by
  have hmem : ∀ s ∈ secretsOfVersion db versionId, s ∈ db.functionVersionSecrets ∧
      s.versionId = versionId := by
    intro s hs
    rw [secretsOfVersion, List.mem_mergeSort, KeyedTable.mem_select, beq_iff_eq] at hs
    exact hs
  obtain ⟨secrets, hload, -⟩ := Outcome.mapM_of_forall (f := resolveSecret cipher)
    (l := secretsOfVersion db versionId) (fun s hs => h.secret_readable s (hmem s hs).1)
  refine ⟨secrets, hload, ?_⟩
  rw [Outcome.map_mapM (fun s e he => resolveSecret_key he) hload]
  have hrows : (secretsOfVersion db versionId).Nodup :=
    (List.mergeSort_perm _ _).nodup_iff.mpr (db.functionVersionSecrets.nodup.of_map.filter _)
  apply List.Nodup.map_on _ hrows
  intro s hs t ht hkey
  obtain ⟨hs, hsid⟩ := hmem s hs
  obtain ⟨ht, htid⟩ := hmem t ht
  exact db.functionVersionSecrets.eq_of_key_eq hs ht (by rw [hsid, htid, hkey])

theorem updatedSecretValues_nodup {existing : List (String × String)}
    {secrets : Option (BTreeMap String)} {values : List (String × String)}
    (hexisting : (existing.map Prod.fst).Nodup)
    (h : updatedSecretValues existing secrets = .ok values) : (values.map Prod.fst).Nodup := by
  cases secrets with
  | none =>
    cases h
    exact hexisting
  | some secrets =>
    simp only [updatedSecretValues, normalizeSecretValues, Outcome.bind_eq_ok] at h
    obtain ⟨-, -, heq⟩ := h
    cases heq
    exact secrets.nodup_keys

end Secrets

/-! ### One update -/

/-- An update an administrator may make: the caller is a user, the function exists,
    the payload passes its validation and leaves the endpoint alone, and the id
    drawn for the version is new. -/
structure ProperUpdate (pf : Platform) (cipher : SecretCipher) (db : Db) (env : Env)
    (claims : Claims) (name : String) (payload : UpdateFunctionRequest) (f : FunctionDetail)
    (validated : ValidatedFunction) : Prop where
  admin : claims.isAdmin = true
  caller : db.users.hasKey claims.sub = true
  found : loadFunctionByName db claims.appId name = some f
  valid : validateUpdatePayload pf f
    ((loadFunctionSecrets cipher db f.activeVersionId).toOption.getD []) payload = .ok validated
  same_slug : validated.endpointSlug = f.endpointSlug
  fresh : db.functionVersions.hasKey (env.uuid 0) = false

/-- The same as a test. -/
def properUpdate (pf : Platform) (cipher : SecretCipher) (db : Db) (env : Env) (claims : Claims)
    (name : String) (payload : UpdateFunctionRequest) : Bool :=
  claims.isAdmin && db.users.hasKey claims.sub && !db.functionVersions.hasKey (env.uuid 0) &&
    match loadFunctionByName db claims.appId name with
    | none => false
    | some f =>
        match validateUpdatePayload pf f
          ((loadFunctionSecrets cipher db f.activeVersionId).toOption.getD []) payload with
        | .error _ => false
        | .ok validated => validated.endpointSlug == f.endpointSlug

theorem exists_properUpdate {pf : Platform} {cipher : SecretCipher} {db : Db} {env : Env}
    {claims : Claims} {name : String} {payload : UpdateFunctionRequest}
    (h : properUpdate pf cipher db env claims name payload = true) :
    ∃ f validated, ProperUpdate pf cipher db env claims name payload f validated := by
  simp only [properUpdate, Bool.and_eq_true, Bool.not_eq_true'] at h
  obtain ⟨⟨⟨hadmin, hcaller⟩, hfresh⟩, h⟩ := h
  split at h
  · cases h
  · rename_i f hfound
    split at h
    · cases h
    · rename_i validated hvalid
      exact ⟨f, validated, hadmin, hcaller, hfound, hvalid, beq_iff_eq.mp h, hfresh⟩

/-- The update succeeds, and stores a version of the function under a number that
    no version of it had. -/
def UpdateStoresVersion (pf : Platform) (cipher : SecretCipher) (db : Db) (env : Env)
    (claims : Claims) (name : String) (payload : UpdateFunctionRequest) (functionId : String) :
    Prop :=
  (∃ reply, (updateFunction pf cipher db env claims name payload).2 = .ok reply) ∧
    ∃ v ∈ (updateFunction pf cipher db env claims name payload).1.functionVersions,
      v.functionId = functionId ∧
        ∀ w ∈ db.functionVersions, w.functionId = functionId → w.versionNumber ≠ v.versionNumber

namespace ProperUpdate

variable {pf : Platform} {cipher : SecretCipher} {db : Db} {env : Env} {claims : Claims}
  {name : String} {payload : UpdateFunctionRequest} {f : FunctionDetail}
  {validated : ValidatedFunction}

theorem checks (h : ProperUpdate pf cipher db env claims name payload f validated)
    (hinv : FunctionsInv cipher db) :
    updateFunctionChecks pf cipher db claims name payload = .ok (f, validated) ∧
      (validated.secretValues.map Prod.fst).Nodup := by
  obtain ⟨secrets, hload, hnodup⟩ := hinv.toFunctionTables.loadFunctionSecrets f.activeVersionId
  have hvalid := h.valid
  rw [hload] at hvalid
  refine ⟨?_, updatedSecretValues_nodup hnodup (validateUpdatePayload_ok hvalid).2.2⟩
  simp only [updateFunctionChecks, Outcome.bind_eq_ok, Outcome.require_eq_ok, badRequest_eq_ok,
    Outcome.mapError_eq_ok, requireAdmin, Outcome.ensure_eq_ok]
  exact ⟨(), h.admin, f, h.found, secrets, hload, validated, hvalid, rfl⟩

theorem tx_ok (h : ProperUpdate pf cipher db env claims name payload f validated)
    (hinv : FunctionsInv cipher db)
    (hnumber : ∀ w ∈ db.functionVersions, w.functionId = f.id →
      w.versionNumber ≠ f.activeVersionNumber + 1) :
    ∃ db', updateFunctionTx cipher db env claims f validated = .ok db' := by
  obtain ⟨hchecks, hnodup⟩ := h.checks hinv
  have hid := (validateUpdatePayload_ok h.valid).1
  obtain ⟨hf, -, -⟩ := loadFunctionByName_some h.found
  rw [← hid] at hnumber
  have hsecrets : ∀ s ∈ db.functionVersionSecrets, s.versionId ≠ env.uuid 0 := by
    intro s hs heq
    have hkey := hinv.secret_version s hs
    rw [heq, h.fresh] at hkey
    cases hkey
  have hkey : db.functions.hasKey validated.id = true := by
    rw [hid]
    exact KeyedTable.hasKey_of_mem hf
  obtain ⟨⟨version, db₁⟩, hversion⟩ := @insertFunctionVersion_isSome cipher env db (env.uuid 0)
    validated.id claims.appId claims.sub (f.activeVersionNumber + 1) validated h.fresh hnumber
    hkey h.caller hsecrets hnodup
  obtain ⟨⟨versions, secrets, rfl⟩, -⟩ := (insertFunctionVersion_some hversion).1
  -- the endpoint stays with the function that has it
  have hfree : ∀ g ∈ db.functions, g.id = validated.id → ∀ g' ∈ db.functions, g'.id ≠ validated.id →
      g'.appId = g.appId → g'.endpointSlug ≠ validated.endpointSlug := by
    intro g hg hgid g' hg' hne happ hslug
    have hgf := db.functions.eq_of_key_eq hg hf (hgid.trans hid)
    subst hgf
    have hsame := hinv.slug_unique g' hg' g hg happ (hslug.trans h.same_slug)
    subst hsame
    exact hne hgid
  obtain ⟨db', hact⟩ := @activateFunctionVersion_isSome
    { db with functionVersions := versions, functionVersionSecrets := secrets } validated.id
    claims.sub validated hfree h.caller env version
  refine ⟨db', ?_⟩
  simp only [updateFunctionTx, Outcome.bind_eq_ok, Outcome.require_eq_ok]
  exact ⟨_, hversion, hact⟩

theorem tx_stores {db' : Db} (hid : validated.id = f.id)
    (hok : updateFunctionTx cipher db env claims f validated = .ok db') :
    (∀ w ∈ db.functionVersions, w.functionId = f.id →
        w.versionNumber ≠ f.activeVersionNumber + 1) ∧
      (∃ v ∈ db'.functionVersions, v.functionId = f.id ∧
        v.versionNumber = f.activeVersionNumber + 1) ∧
      (f ∈ db.functions → ∃ g ∈ db'.functions, g.appId = f.appId ∧ g.name = f.name) := by
  simp only [updateFunctionTx, Outcome.bind_eq_ok, Outcome.require_eq_ok] at hok
  obtain ⟨⟨version, db₁⟩, hversion, hact⟩ := hok
  obtain ⟨hadded, -⟩ := insertFunctionVersion_some hversion
  obtain ⟨functions, rfl, hmem, -⟩ := activateFunctionVersion_some hact
  refine ⟨?_, ⟨_, (hadded.versions _).mpr (.inr rfl), hid, rfl⟩, ?_⟩
  · rw [← hid]
    exact hadded.number_fresh
  · intro hf
    obtain ⟨versions, secrets, rfl⟩ := hadded.frame
    refine ⟨_, (hmem _).mpr ⟨f, hf, rfl⟩, ?_⟩
    split
    · exact ⟨rfl, rfl⟩
    · exact ⟨rfl, rfl⟩

theorem number_free (h : ProperUpdate pf cipher db env claims name payload f validated)
    (hinv : FunctionsInv cipher db) {reply : Reply FunctionDetail}
    (hreply : (updateFunction pf cipher db env claims name payload).2 = .ok reply) :
    ∀ w ∈ db.functionVersions, w.functionId = f.id →
      w.versionNumber ≠ f.activeVersionNumber + 1 := by
  obtain ⟨hchecks, -⟩ := h.checks hinv
  simp only [updateFunction, hchecks, Outcome.proceed_ok, Outcome.proceed_eq_ok] at hreply
  obtain ⟨db', htx, -⟩ := hreply
  exact (tx_stores (validateUpdatePayload_ok h.valid).1 htx).1

theorem stores_of_free (h : ProperUpdate pf cipher db env claims name payload f validated)
    (hinv : FunctionsInv cipher db)
    (hfree : ∀ w ∈ db.functionVersions, w.functionId = f.id →
      w.versionNumber ≠ f.activeVersionNumber + 1) :
    UpdateStoresVersion pf cipher db env claims name payload f.id := by
  obtain ⟨hchecks, -⟩ := h.checks hinv
  obtain ⟨hf, happ, -⟩ := loadFunctionByName_some h.found
  obtain ⟨db', htx⟩ := h.tx_ok hinv hfree
  obtain ⟨-, ⟨v, hv, hvf, hvn⟩, hstays⟩ := tx_stores (validateUpdatePayload_ok h.valid).1 htx
  obtain ⟨g, hg, hgapp, hgname⟩ := hstays hf
  have hname : validated.name = f.name := (validateUpdatePayload_ok h.valid).2.1
  -- the function is still there, so the reply can be read
  obtain ⟨g', hreload⟩ : ∃ g', loadFunctionByName db' claims.appId validated.name = some g' := by
    rw [← Option.ne_none_iff_exists', loadFunctionByName, ne_eq, KeyedTable.selectOne_none]
    intro hnone
    have hmatch := hnone g hg
    simp [hgapp, happ, hgname, hname] at hmatch
  refine ⟨⟨{ status := .ok, body := g' }, ?_⟩, v, ?_, hvf, ?_⟩
  · simp only [updateFunction, hchecks, Outcome.proceed_ok, htx, reloadFunction, hreload]
  · simp only [updateFunction, hchecks, Outcome.proceed_ok, htx]
    obtain ⟨logs, hlogs⟩ := reloadFunction_frame db' env (env.uuid 1) claims validated.name
      "function.updated" .ok
      (fun f => .object [("active_version_number", .number (.ofInt f.activeVersionNumber))])
      "updated function could not be reloaded"
    rw [hlogs]
    exact hv
  · intro w hw hwf
    rw [hvn]
    exact hfree w hw hwf

/-- **One update.**  It gets a number of its own exactly when the active version is
    the newest. -/
theorem stores_iff (h : ProperUpdate pf cipher db env claims name payload f validated)
    (hinv : FunctionsInv cipher db) :
    UpdateStoresVersion pf cipher db env claims name payload f.id ↔ ActiveIsNewest db f := by
  obtain ⟨hf, -, -⟩ := loadFunctionByName_some h.found
  constructor
  · rintro ⟨⟨reply, hreply⟩, -⟩ v hv hfunction
    by_contra hgreater
    -- the numbers have no gap, so one above the active is taken with any greater one
    obtain ⟨u, hu, -, -, hactive⟩ := hinv.active_stored f hf
    have hpos := (hinv.numbers_closed u hu).1
    obtain ⟨w, hw, hwf, hwn⟩ := (hinv.numbers_closed v hv).2 (f.activeVersionNumber + 1)
      (by omega) (by omega)
    exact h.number_free hinv hreply w hw (hwf.trans hfunction) hwn
  · intro hnewest
    apply h.stores_of_free hinv
    intro w hw hwf
    have hle := hnewest w hw hwf
    omega

end ProperUpdate

/-! ### Runs -/

/-- A database with users and without functions. -/
def Db.withoutFunctions (db : Db) : Db :=
  { db with functions := .empty, functionVersions := .empty, functionVersionSecrets := .empty }

/-- The database after a run that starts without functions. -/
def runFunctions (pf : Platform) (cipher : SecretCipher) (db : Db)
    (requests : List FunctionRequest) :
    Db :=
  Transition.run (handleFunctionRequest pf cipher) db.withoutFunctions requests

/-- No rollback of the run is to an older version. -/
def RunRollsBackToNewest (pf : Platform) (cipher : SecretCipher) (db : Db)
    (requests : List FunctionRequest) : Prop :=
  ∀ before request after, requests = before ++ request :: after →
    RollsBackToNewest (runFunctions pf cipher db before) request

theorem functionsInv_withoutFunctions (cipher : SecretCipher) (db : Db) :
    FunctionsInv cipher db.withoutFunctions := by
  refine ⟨⟨?_, ?_, ?_, ?_, ?_⟩, ?_⟩
  · intro f hf
    exact absurd hf (KeyedTable.not_mem_empty f)
  · intro v hv
    exact absurd hv (KeyedTable.not_mem_empty v)
  · intro v hv
    exact absurd hv (KeyedTable.not_mem_empty v)
  · intro s hs
    exact absurd hs (KeyedTable.not_mem_empty s)
  · intro s hs
    exact absurd hs (KeyedTable.not_mem_empty s)
  · intro f hf
    exact absurd hf (KeyedTable.not_mem_empty f)

theorem runFunctions_inv (pf : Platform) (cipher : SecretCipher) (db : Db)
    (requests : List FunctionRequest) :
      FunctionsInv cipher (runFunctions pf cipher db requests) := by
  have hstep : ∀ s request, FunctionsInv cipher s →
      FunctionsInv cipher (handleFunctionRequest pf cipher s request) :=
    fun s request h => (handleFunctionRequest_kept h request).inv
  exact Transition.run_preserves hstep (functionsInv_withoutFunctions cipher db) requests

theorem runFunctions_newest {pf : Platform} {cipher : SecretCipher} {db : Db}
    {requests : List FunctionRequest} (h : RunRollsBackToNewest pf cipher db requests) :
    AllNewest (runFunctions pf cipher db requests) := by
  have hstep : ∀ (s : Db) (request : FunctionRequest), FunctionsInv cipher s ∧ AllNewest s →
      RollsBackToNewest s request →
      FunctionsInv cipher (handleFunctionRequest pf cipher s request) ∧
        AllNewest (handleFunctionRequest pf cipher s request) := by
    rintro s request ⟨hinv, hnewest⟩ hback
    have hkept := @handleFunctionRequest_kept pf cipher s hinv request
    exact ⟨hkept.inv, hkept.newest hback hnewest⟩
  have hstart : AllNewest db.withoutFunctions := fun f hf => absurd hf (KeyedTable.not_mem_empty f)
  exact (Transition.run_invariant hstep ⟨functionsInv_withoutFunctions cipher db, hstart⟩
    requests h).2

/-- **Updates.**  In a state a run has reached, a proper update stores a version
    under a new number exactly when the active version is the newest; and every
    proper update does in a run that rolls back to newest versions only. -/
theorem update_stores_version_iff (pf : Platform) (cipher : SecretCipher) (db : Db)
    (requests : List FunctionRequest) :
    (∀ env claims name payload f validated,
      ProperUpdate pf cipher (runFunctions pf cipher db requests) env claims name payload f
        validated →
      (UpdateStoresVersion pf cipher (runFunctions pf cipher db requests) env claims name payload
          f.id ↔ ActiveIsNewest (runFunctions pf cipher db requests) f)) ∧
      (RunRollsBackToNewest pf cipher db requests →
        ∀ before after, requests = before ++ after → ∀ env claims name payload f validated,
          ProperUpdate pf cipher (runFunctions pf cipher db before) env claims name payload f
            validated →
          UpdateStoresVersion pf cipher (runFunctions pf cipher db before) env claims name payload
            f.id) := by
  constructor
  · intro env claims name payload f validated h
    exact h.stores_iff (runFunctions_inv pf cipher db requests)
  · rintro hback before after rfl env claims name payload f validated h
    have hbefore : RunRollsBackToNewest pf cipher db before := by
      rintro first request last rfl
      exact hback first request (last ++ after) (by simp)
    rw [h.stores_iff (runFunctions_inv pf cipher db before)]
    exact runFunctions_newest hbefore f (loadFunctionByName_some h.found).1

/-! ### After a rollback -/

def functionAdmin : User :=
  { id := "ada", appId := "default", email := "ada@example.com", passwordHash := "",
    isActive := true
    isAdmin := true, adminRole := .owner, createdAt := "2026-01-01 00:00:00" }

def functionAdminClaims : Claims := { sub := "ada", appId := "default", exp := 0, isAdmin := true }

def functionAdminDb : Db := { users := ⟨[functionAdmin], by decide⟩ }

/-- Ada writes a function and a second version of it. -/
def twoVersions : List FunctionRequest :=
  [.create (sampleEnv "a") functionAdminClaims
      { name := "greet", displayName := "Greet", endpointSlug := "greet", runtime := "javascript"
        sourceCode := "one" },
    .update (sampleEnv "b") functionAdminClaims "greet" { sourceCode := some "two" }]

/-- She goes back to the first. -/
def rolledBack : List FunctionRequest :=
  twoVersions ++ [.rollback (sampleEnv "c") functionAdminClaims "greet" 1]

def thirdVersion : UpdateFunctionRequest := { sourceCode := some "three" }

/-- The next update is refused. -/
theorem update_after_rollback_refused :
    ∃ f validated,
      ProperUpdate asciiPlatform readableCipher
        (runFunctions asciiPlatform readableCipher functionAdminDb rolledBack) (sampleEnv "d")
        functionAdminClaims "greet" thirdVersion f validated ∧
      ¬ UpdateStoresVersion asciiPlatform readableCipher
        (runFunctions asciiPlatform readableCipher functionAdminDb rolledBack) (sampleEnv "d")
        functionAdminClaims "greet" thirdVersion f.id := by
  obtain ⟨f, validated, hproper⟩ := @exists_properUpdate asciiPlatform readableCipher
    (runFunctions asciiPlatform readableCipher functionAdminDb rolledBack) (sampleEnv "d")
    functionAdminClaims "greet" thirdVersion (by decide +kernel)
  refine ⟨f, validated, hproper, ?_⟩
  rintro ⟨⟨reply, hreply⟩, -⟩
  have hrefused : Outcome.succeeded (updateFunction asciiPlatform readableCipher
      (runFunctions asciiPlatform readableCipher functionAdminDb rolledBack) (sampleEnv "d")
      functionAdminClaims "greet" thirdVersion).2 = false := by
    decide +kernel
  rw [hreply] at hrefused
  cases hrefused

/-- Without the rollback it is stored. -/
theorem third_version_stored :
    ∃ f validated,
      ProperUpdate asciiPlatform readableCipher
        (runFunctions asciiPlatform readableCipher functionAdminDb twoVersions) (sampleEnv "d")
        functionAdminClaims "greet" thirdVersion f validated ∧
      UpdateStoresVersion asciiPlatform readableCipher
        (runFunctions asciiPlatform readableCipher functionAdminDb twoVersions) (sampleEnv "d")
        functionAdminClaims "greet" thirdVersion f.id := by
  obtain ⟨f, validated, hproper⟩ := @exists_properUpdate asciiPlatform readableCipher
    (runFunctions asciiPlatform readableCipher functionAdminDb twoVersions) (sampleEnv "d")
    functionAdminClaims "greet" thirdVersion (by decide +kernel)
  refine ⟨f, validated, hproper, ?_⟩
  have hback : RunRollsBackToNewest asciiPlatform readableCipher functionAdminDb twoVersions := by
    intro before request after hsplit
    have hmem : request ∈ twoVersions := by rw [hsplit]; simp
    simp only [twoVersions, List.mem_cons, List.not_mem_nil, or_false] at hmem
    rcases hmem with rfl | rfl
    · trivial
    · trivial
  exact (update_stores_version_iff asciiPlatform readableCipher functionAdminDb twoVersions).2 hback
    twoVersions [] (by simp) (sampleEnv "d") functionAdminClaims "greet" thirdVersion f validated
    hproper

end Peanut
