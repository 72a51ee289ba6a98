import Peanut.Library.Transition
import Peanut.Storage.Requests

/-!
# Storage accounting

The `storage_bytes` counter of a workspace against the sizes of the objects its
apps hold.  Of the requests that write or delete objects only the two SDK routes
record what they change, so the counter is exact along a run exactly as long as
no other request changes a size.
-/

namespace Peanut

open Relational

/-- The requests that write, read in parts or delete objects. -/
inductive ObjectRequest where
  | putSdk (env : Env) (os : Os) (auth : SdkAuthContext) (appId bucket key : String)
      (header : Option HeaderText) (body : List UInt8)
  | deleteSdk (env : Env) (os : Os) (auth : SdkAuthContext) (appId bucket key : String)
  | putPresigned (os : Os) (appId bucket key token : String) (header : Option HeaderText)
      (body : List UInt8)
  | createMultipart (env : Env) (os : Os) (auth : SdkAuthContext) (appId bucket key : String)
      (contentType : Option String)
  | uploadPart (os : Os) (auth : SdkAuthContext) (appId bucket uploadId : String)
      (partNumber : Nat) (keyHeader : Option HeaderText) (body : List UInt8)
  | completeMultipart (os : Os) (auth : SdkAuthContext) (appId bucket key uploadId : String)
      (parts : List CompletedMultipartPart)
  | abortMultipart (os : Os) (auth : SdkAuthContext) (appId bucket key uploadId : String)
  | hostPut (os : Os) (claims : Option Claims) (args : Value)
  | hostDelete (os : Os) (claims : Option Claims) (args : Value)

section Requests

variable (dg : Digests) (sg : Signer)

/-- The state after a request. -/
def objectStep (s : StorageState) : ObjectRequest → StorageState
  | .putSdk env os auth appId bucket key header body =>
      (putSdkObject dg s env os auth appId bucket key header body).1
  | .deleteSdk env os auth appId bucket key => (deleteSdkObject s env os auth appId bucket key).1
  | .putPresigned os appId bucket key token header body =>
      (putPresignedObject dg sg s os appId bucket key token header body).1
  | .createMultipart env os auth appId bucket key contentType =>
      (createMultipartUpload s env os auth appId bucket key contentType).1
  | .uploadPart os auth appId bucket uploadId partNumber keyHeader body =>
      (uploadMultipartPart dg s os auth appId bucket uploadId partNumber keyHeader body).1
  | .completeMultipart os auth appId bucket key uploadId parts =>
      (completeMultipartUpload dg s os auth appId bucket key uploadId parts).1
  | .abortMultipart os auth appId bucket key uploadId =>
      (abortMultipartUpload s os auth appId bucket key uploadId).1
  | .hostPut os claims args => (handleStoragePut dg s os claims args).1
  | .hostDelete os claims args => (handleStorageDelete s os claims args).1

/-! ### What a request changes -/

/-- The object a request writes or deletes when it passes its checks, and the size
    there afterwards. -/
def ObjectRequest.change (s : StorageState) : ObjectRequest → Option (ObjectPath × Nat)
  | .putSdk env os auth appId bucket key header body => do
      let _ ← (putSdkChecks s env os auth appId bucket key (headerContentType header)
        body.length).toOption
      let path ← LocalStorage.writablePath os ⟨appId, bucket⟩ key
      return (path, body.length)
  | .deleteSdk _ os auth appId bucket key => do
      let _ ← (deleteSdkChecks s os auth appId bucket key).toOption
      let path ← LocalStorage.writablePath os ⟨appId, bucket⟩ key
      return (path, 0)
  | .putPresigned os appId bucket key token _ body => do
      let _ ← (presignedUploadChecks sg os appId bucket key token).toOption
      let path ← LocalStorage.writablePath os ⟨appId, bucket⟩ key
      return (path, body.length)
  | .completeMultipart os auth appId bucket key uploadId parts => do
      let _ ← (multipartChecks s.db auth appId bucket).toOption
      let (upload, data, _) ←
        (s.storage.multipartContents os ⟨appId, bucket⟩ key uploadId parts).toOption
      let path ← LocalStorage.writablePath os ⟨appId, bucket⟩ upload.key
      return (path, data.length)
  | .hostPut os claims args => do
      let (bucket, key, body) ← (storagePutChecks s.db claims args).toOption
      let path ← LocalStorage.writablePath os bucket key
      return (path, (asBytes body).length)
  | .hostDelete os claims args => do
      let (bucket, key) ← (storageDeleteChecks s.db claims args).toOption
      let path ← LocalStorage.writablePath os bucket key
      return (path, 0)
  | .createMultipart .. | .uploadPart .. | .abortMultipart .. => none

/-- How the objects change when one place is written or cleared. -/
inductive Rewritten (st st' : LocalStorage) : Option (ObjectPath × Nat) → Prop
  | untouched (h : st'.objects = st.objects) : Rewritten st st' none
  | written (o : StoredObject) (h : st'.objects = st.objects.upsert o) :
      Rewritten st st' (some (o.path, o.metadata.contentLength))
  | cleared (path : ObjectPath) (h : st'.objects = st.objects.erase path) :
      Rewritten st st' (some (path, 0))

/-- Does the request go to the counter? -/
def ObjectRequest.recordsUsage : ObjectRequest → Bool
  | .putSdk .. | .deleteSdk .. => true
  | _ => false

/-- Can the request read what is stored? -/
def ObjectRequest.readable : ObjectRequest → Bool
  | .putSdk _ os .. => os.readError.isNone
  | _ => true

/-- The bytes a request adds to what a workspace stores. -/
def ObjectRequest.storedChange (s : StorageState) (r : ObjectRequest) (workspaceId : String) :
    Int :=
  match r.change sg s with
  | some (path, size) =>
      if appInWorkspace s.db workspaceId path.namespace_.appId then size - s.storage.sizeAt path
      else 0
  | none => 0

/-- The bytes a request adds to the counter of a workspace. -/
def ObjectRequest.recordedChange (s : StorageState) (r : ObjectRequest) (workspaceId : String) :
    Int :=
  match r.change sg s with
  | some (path, size) =>
      if r.recordsUsage && s.db.workspaces.hasKey workspaceId &&
          appInWorkspace s.db workspaceId path.namespace_.appId then
        size - (if r.readable then s.storage.sizeAt path else 0)
      else 0
  | none => 0

/-! ### Each request, step by step -/

/-- What a request leaves behind: one place rewritten, and a counter that moved by
    what the request records. -/
structure Effect (s s' : StorageState) (r : ObjectRequest) : Prop where
  rewritten : Rewritten s.storage s'.storage (r.change sg s)
  frame : ∃ counters logs, s'.db = { s.db with usageCounters := counters, auditLogs := logs }
  counter : ∀ w, counterValue s'.db w .storageBytes "all" =
    counterValue s.db w .storageBytes "all" + r.recordedChange sg s w

variable {dg sg}

/-- The same database and the same objects. -/
def SameObjects (s s' : StorageState) : Prop := s'.db = s.db ∧
    s'.storage.objects = s.storage.objects

theorem SameObjects.refl (s : StorageState) : SameObjects s s := ⟨rfl, rfl⟩

variable {s s' : StorageState} {r : ObjectRequest}

theorem Effect.refused (hchange : r.change sg s = none)
    (hsame : SameObjects s s') : Effect sg s s' r where
  rewritten := by
    rw [hchange]
    exact .untouched hsame.2
  frame := ⟨s.db.usageCounters, s.db.auditLogs, hsame.1⟩
  counter := by
    intro w
    rw [hsame.1, ObjectRequest.recordedChange, hchange, Int.add_zero]

theorem Effect.unrecorded (hrecords : r.recordsUsage = false) (hdb : s'.db = s.db)
    (hrewritten : Rewritten s.storage s'.storage (r.change sg s)) : Effect sg s s' r where
  rewritten := hrewritten
  frame := ⟨s.db.usageCounters, s.db.auditLogs, hdb⟩
  counter := by
    intro w
    rw [hdb, ObjectRequest.recordedChange, hrecords]
    cases r.change sg s <;> simp

theorem previousSize_eq {st : LocalStorage} {os : Os} {bucket : Namespace} {key : String}
    {path : ObjectPath} (h : resolveObjectPath bucket key = .ok path) :
    previousSize st os bucket key = if os.readError.isNone then st.sizeAt path else 0 := by
  unfold previousSize LocalStorage.headObject LocalStorage.refusal LocalStorage.sizeAt
    KeyedTable.weightAt
  rw [h, Outcome.ok_bind]
  cases os.readError with
  | some e => rfl
  | none => cases st.objects.find? path <;> rfl

/-- The workspace that `put_sdk_object` charges is that of the app. -/
theorem putSdkChecks_workspace {env : Env} {os : Os} {auth : SdkAuthContext}
    {appId bucket key contentType workspaceId : String} {size : Nat}
    (h : putSdkChecks s env os auth appId bucket key contentType size = .ok workspaceId) :
    appWorkspaceId s.db appId = some workspaceId := by
  unfold putSdkChecks at h
  obtain ⟨policy, -, h⟩ := Outcome.bind_eq_ok.mp h
  unfold requireAppResourceAvailable at h
  obtain ⟨w, hw, h⟩ := Outcome.bind_eq_ok.mp h
  obtain ⟨-, -, hok⟩ := Outcome.bind_eq_ok.mp h
  cases hok
  exact Outcome.require_eq_ok.mp hw

theorem appInWorkspace_iff {db : Db} {w appId workspaceId : String}
    (h : appWorkspaceId db appId = some workspaceId) :
    appInWorkspace db w appId = true ↔ workspaceId = w := by
  simp [appInWorkspace, h]

theorem counterValue_recordAuditLog (db : Db) (env : Env) (uuid : String) (appId : Option String)
    (claims : Claims) (action targetType targetId : String) (metadata : Value) (w : String)
    (key : ResourceKey) (period : String) :
    counterValue (db.recordAuditLog env uuid appId claims action targetType targetId metadata)
      w key period = counterValue db w key period := by
  obtain ⟨logs, hlogs⟩ :=
    db.recordAuditLog_frame env uuid appId claims action targetType targetId metadata
  rw [hlogs]
  rfl

theorem putSdk_effect (s : StorageState) (env : Env) (os : Os) (auth : SdkAuthContext)
    (appId bucket key : String) (header : Option HeaderText) (body : List UInt8) :
    Effect sg s (putSdkObject dg s env os auth appId bucket key header body).1
      (.putSdk env os auth appId bucket key header body) := by
  unfold putSdkObject
  dsimp only
  cases hchecks : putSdkChecks s env os auth appId bucket key (headerContentType header)
      body.length with
  | error e =>
    exact .refused (by simp [ObjectRequest.change, hchecks, Except.toOption]) (.refl s)
  | ok workspaceId =>
    rcases s.storage.putObject_spec dg os ⟨appId, bucket⟩ key body
      (some (headerContentType header)) with ⟨path, metadata, hpath, hlength, -, hput⟩ | ⟨hnone, e,
        hput⟩
    · have hchange : (ObjectRequest.putSdk env os auth appId bucket key header body).change sg s =
          some (path, body.length) := by
        simp [ObjectRequest.change, hchecks, hpath, Except.toOption]
      have hworkspace := putSdkChecks_workspace hchecks
      simp only [Outcome.proceed_ok, hput, Outcome.mapError_ok]
      obtain ⟨logs, hlogs⟩ := (recordUsage s.db env workspaceId .storageBytes
        (metadata.contentLength - previousSize s.storage os ⟨appId, bucket⟩
          key)).recordAuditLog_frame
          env (env.uuid 0) (some appId) (auditClaims auth appId) "storage.object.put"
          "storage_object" (bucket ++ "/" ++ key)
          (.object [("bucket", .string bucket), ("key", .string key),
            ("size", .number (.ofInt metadata.contentLength))])
      obtain ⟨counters, hcounters⟩ := recordUsage_frame s.db env workspaceId .storageBytes
        (metadata.contentLength - previousSize s.storage os ⟨appId, bucket⟩ key)
      refine ⟨?_, ⟨counters, logs, ?_⟩, ?_⟩
      · rw [hchange, ← hlength]
        exact .written ⟨path, body, metadata⟩ rfl
      · rw [hlogs, hcounters]
      · intro w
        rw [counterValue_recordAuditLog, counterValue_recordUsage, ObjectRequest.recordedChange,
          hchange, previousSize_eq (LocalStorage.writablePath_eq_some.mp hpath).2, hlength]
        simp only [ObjectRequest.recordsUsage, ObjectRequest.readable, Bool.true_and,
          Bool.and_eq_true,
          LocalStorage.writablePath_namespace hpath, appInWorkspace_iff hworkspace]
        by_cases hw : workspaceId = w
        · subst hw
          simp [usagePeriodStart, isMonthlyResource]
        · simp [hw]
    · simp only [Outcome.proceed_ok, hput, Outcome.mapError_error, Outcome.proceed_error]
      exact .refused (by simp [ObjectRequest.change, hchecks, hnone, Except.toOption]) (.refl s)

/-- What passes the checks of `delete_sdk_object` is stored, and its size is known. -/
theorem deleteSdkChecks_ok {os : Os} {auth : SdkAuthContext}
    {appId bucket key : String} {size : Nat}
    (h : deleteSdkChecks s os auth appId bucket key = .ok size) :
    ∃ path o, resolveObjectPath ⟨appId, bucket⟩ key = .ok path ∧
      s.storage.objects.find? path = some o ∧ (size : Int) = s.storage.sizeAt path := by
  unfold deleteSdkChecks at h
  obtain ⟨policy, -, h⟩ := Outcome.bind_eq_ok.mp h
  obtain ⟨-, -, h⟩ := Outcome.bind_eq_ok.mp h
  obtain ⟨metadata, hhead, hok⟩ := Outcome.bind_eq_ok.mp h
  cases hok
  obtain ⟨path, o, hpath, -, ho, rfl⟩ :=
    LocalStorage.headObject_eq_ok.mp (Outcome.mapError_eq_ok.mp hhead)
  refine ⟨path, o, hpath, ho, ?_⟩
  simp [LocalStorage.sizeAt, KeyedTable.weightAt, ho]

theorem counterValue_releaseUsage (db : Db) (env : Env) (appId : String) (size : Nat) (w : String) :
    counterValue (releaseUsage db env appId size) w .storageBytes "all" =
      counterValue db w .storageBytes "all" +
        if db.workspaces.hasKey w = true ∧ appInWorkspace db w appId = true then -(size : Int)
        else 0 := by
  unfold releaseUsage
  cases happ : appWorkspaceId db appId with
  | none => simp [appInWorkspace, happ]
  | some workspaceId =>
    dsimp only
    rw [counterValue_recordUsage]
    simp only [appInWorkspace_iff happ]
    by_cases hw : workspaceId = w
    · subst hw
      simp [usagePeriodStart, isMonthlyResource]
    · simp [hw]

theorem releaseUsage_frame (db : Db) (env : Env) (appId : String) (size : Nat) :
    ∃ counters, releaseUsage db env appId size = { db with usageCounters := counters } := by
  unfold releaseUsage
  cases appWorkspaceId db appId with
  | none => exact ⟨db.usageCounters, rfl⟩
  | some workspaceId => exact recordUsage_frame db env workspaceId .storageBytes _

theorem deleteSdk_effect (s : StorageState) (env : Env) (os : Os) (auth : SdkAuthContext)
    (appId bucket key : String) :
    Effect sg s (deleteSdkObject s env os auth appId bucket key).1
      (.deleteSdk env os auth appId bucket key) := by
  unfold deleteSdkObject
  cases hchecks : deleteSdkChecks s os auth appId bucket key with
  | error e => exact .refused (by simp [ObjectRequest.change, hchecks, Except.toOption]) (.refl s)
  | ok size =>
    obtain ⟨path, o, hpath, ho, hsize⟩ := deleteSdkChecks_ok hchecks
    cases hdelete : s.storage.deleteObject os ⟨appId, bucket⟩ key with
    | error e =>
      -- the object is there, so only the operating system can have refused
      have hnone : LocalStorage.writablePath os ⟨appId, bucket⟩ key = none := by
        rw [Option.eq_none_iff_forall_ne_some]
        intro p hp
        rw [(LocalStorage.writablePath_eq_some.mp hp).2] at hpath
        cases hpath
        rw [LocalStorage.deleteObject_eq_ok.mpr ⟨path, o, hp, ho, rfl⟩] at hdelete
        cases hdelete
      exact .refused (by simp [ObjectRequest.change, hchecks, hnone, Except.toOption]) (.refl s)
    | ok storage =>
      obtain ⟨path', o', hwritable, ho', rfl⟩ := LocalStorage.deleteObject_eq_ok.mp hdelete
      obtain rfl : path = path' := by
        rw [(LocalStorage.writablePath_eq_some.mp hwritable).2] at hpath
        cases hpath
        rfl
      have hchange : (ObjectRequest.deleteSdk env os auth appId bucket key).change sg s =
          some (path, 0) := by
        simp [ObjectRequest.change, hchecks, hwritable, Except.toOption]
      simp only [Outcome.proceed_ok, Outcome.mapError_ok]
      obtain ⟨logs, hlogs⟩ := (releaseUsage s.db env appId size).recordAuditLog_frame
        env (env.uuid 0) (some appId) (auditClaims auth appId) "storage.object.deleted"
        "storage_object" (bucket ++ "/" ++ key)
          (.object [("bucket", .string bucket), ("key", .string key)])
      obtain ⟨counters, hcounters⟩ := releaseUsage_frame s.db env appId size
      refine ⟨?_, ⟨counters, logs, ?_⟩, ?_⟩
      · rw [hchange]
        exact .cleared path rfl
      · rw [hlogs, hcounters]
      · intro w
        rw [counterValue_recordAuditLog, counterValue_releaseUsage, ObjectRequest.recordedChange,
          hchange, hsize]
        simp only [ObjectRequest.recordsUsage, ObjectRequest.readable, Bool.true_and,
          Bool.and_eq_true,
          LocalStorage.writablePath_namespace hwritable]
        simp

theorem putPresigned_effect (s : StorageState) (os : Os) (appId bucket key token : String)
    (header : Option HeaderText) (body : List UInt8) :
    Effect sg s (putPresignedObject dg sg s os appId bucket key token header body).1
      (.putPresigned os appId bucket key token header body) := by
  unfold putPresignedObject
  cases hchecks : presignedUploadChecks sg os appId bucket key token with
  | error e => exact .refused (by simp [ObjectRequest.change, hchecks, Except.toOption]) (.refl s)
  | ok u =>
    rcases s.storage.putObject_spec dg os ⟨appId, bucket⟩ key body
      (some (headerContentType header)) with ⟨path, metadata, hpath, hlength, -, hput⟩ | ⟨hnone, e,
        hput⟩
    · simp only [Outcome.proceed_ok, hput, Outcome.mapError_ok]
      refine .unrecorded rfl rfl ?_
      have hchange : (ObjectRequest.putPresigned os appId bucket key token header body).change sg
          s =
          some (path, metadata.contentLength) := by
        simp [ObjectRequest.change, hchecks, hpath, hlength, Except.toOption]
      rw [hchange]
      exact .written ⟨path, body, metadata⟩ rfl
    · simp only [Outcome.proceed_ok, hput, Outcome.mapError_error, Outcome.proceed_error]
      exact .refused (by simp [ObjectRequest.change, hchecks, hnone, Except.toOption]) (.refl s)

theorem createMultipart_effect (s : StorageState) (env : Env) (os : Os) (auth : SdkAuthContext)
    (appId bucket key : String) (contentType : Option String) :
    Effect sg s (createMultipartUpload s env os auth appId bucket key contentType).1
      (.createMultipart env os auth appId bucket key contentType) := by
  have hsame : SameObjects s
      (createMultipartUpload s env os auth appId bucket key contentType).1 := by
    unfold createMultipartUpload
    refine Outcome.proceed_rule (P := SameObjects s) (.refl s) fun _ _ =>
      Outcome.proceed_rule (P := SameObjects s) (.refl s) ?_
    rintro ⟨upload, storage⟩ hupload
    rw [Outcome.mapError_eq_ok] at hupload
    unfold LocalStorage.createMultipartUpload at hupload
    obtain ⟨parts, -, hupload⟩ := Outcome.bind_eq_ok.mp hupload
    obtain ⟨-, -, hok⟩ := Outcome.bind_eq_ok.mp hupload
    cases hok
    exact ⟨rfl, rfl⟩
  exact .refused rfl hsame

theorem uploadPart_effect (s : StorageState) (os : Os) (auth : SdkAuthContext)
    (appId bucket uploadId : String) (partNumber : Nat) (keyHeader : Option HeaderText)
    (body : List UInt8) :
    Effect sg s (uploadMultipartPart dg s os auth appId bucket uploadId partNumber keyHeader body).1
      (.uploadPart os auth appId bucket uploadId partNumber keyHeader body) := by
  have hsame : SameObjects s
      (uploadMultipartPart dg s os auth appId bucket uploadId partNumber keyHeader body).1 := by
    unfold uploadMultipartPart
    refine Outcome.proceed_rule (P := SameObjects s) (.refl s) fun _ _ =>
      Outcome.proceed_rule (P := SameObjects s) (.refl s) fun key _ =>
        Outcome.proceed_rule (P := SameObjects s) (.refl s) ?_
    rintro ⟨part, storage⟩ hpart
    rw [Outcome.mapError_eq_ok] at hpart
    unfold LocalStorage.putMultipartPart at hpart
    obtain ⟨-, -, hpart⟩ := Outcome.bind_eq_ok.mp hpart
    obtain ⟨upload, -, hpart⟩ := Outcome.bind_eq_ok.mp hpart
    obtain ⟨-, -, hok⟩ := Outcome.bind_eq_ok.mp hpart
    cases hok
    exact ⟨rfl, rfl⟩
  exact .refused rfl hsame

theorem abortMultipart_effect (s : StorageState) (os : Os) (auth : SdkAuthContext)
    (appId bucket key uploadId : String) :
    Effect sg s (abortMultipartUpload s os auth appId bucket key uploadId).1
      (.abortMultipart os auth appId bucket key uploadId) := by
  have hsame : SameObjects s (abortMultipartUpload s os auth appId bucket key uploadId).1 := by
    unfold abortMultipartUpload
    refine Outcome.proceed_rule (P := SameObjects s) (.refl s) fun _ _ =>
      Outcome.proceed_rule (P := SameObjects s) (.refl s) ?_
    intro storage habort
    rw [Outcome.mapError_eq_ok] at habort
    unfold LocalStorage.abortMultipartUpload at habort
    obtain ⟨upload, -, habort⟩ := Outcome.bind_eq_ok.mp habort
    obtain ⟨-, -, hok⟩ := Outcome.bind_eq_ok.mp habort
    cases hok
    exact ⟨rfl, rfl⟩
  exact .refused rfl hsame

theorem completeMultipart_effect (s : StorageState) (os : Os) (auth : SdkAuthContext)
    (appId bucket key uploadId : String) (parts : List CompletedMultipartPart) :
    Effect sg s (completeMultipartUpload dg s os auth appId bucket key uploadId parts).1
      (.completeMultipart os auth appId bucket key uploadId parts) := by
  unfold completeMultipartUpload
  cases hchecks : multipartChecks s.db auth appId bucket with
  | error e => exact .refused (by simp [ObjectRequest.change, hchecks, Except.toOption]) (.refl s)
  | ok u =>
    cases hcomplete : s.storage.completeMultipartUpload dg os ⟨appId, bucket⟩ key uploadId
      parts with
    | ok result =>
      obtain ⟨metadata, storage⟩ := result
      obtain ⟨upload, data, etags, path, hcontents, hpath, hlength, -, hobjects⟩ :=
        LocalStorage.completeMultipartUpload_eq_ok hcomplete
      refine .unrecorded rfl rfl ?_
      have hchange : (ObjectRequest.completeMultipart os auth appId bucket key uploadId
          parts).change
          sg s = some (path, metadata.contentLength) := by
        simp [ObjectRequest.change, hchecks, hcontents, hpath, hlength, Except.toOption]
      rw [hchange]
      exact .written ⟨path, data, metadata⟩ hobjects
    | error e =>
      refine .refused ?_ (.refl s)
      rw [Option.eq_none_iff_forall_ne_some]
      rintro ⟨path, size⟩ hsome
      cases hcontents : s.storage.multipartContents os ⟨appId, bucket⟩ key uploadId parts with
      | error e => simp [ObjectRequest.change, hchecks, hcontents, Except.toOption] at hsome
      | ok contents =>
        obtain ⟨upload, data, etags⟩ := contents
        cases hpath : LocalStorage.writablePath os ⟨appId, bucket⟩ upload.key with
        | none => simp [ObjectRequest.change, hchecks, hcontents, hpath, Except.toOption] at hsome
        | some p =>
          obtain ⟨result, hresult⟩ :=
            LocalStorage.completeMultipartUpload_of_contents dg hcontents hpath
          rw [hresult] at hcomplete
          cases hcomplete

theorem hostPut_effect (s : StorageState) (os : Os) (claims : Option Claims) (args : Value) :
    Effect sg s (handleStoragePut dg s os claims args).1 (.hostPut os claims args) := by
  change Effect sg s (storagePut dg s os claims args).1 (.hostPut os claims args)
  unfold storagePut
  cases hchecks : storagePutChecks s.db claims args with
  | error e => exact .refused (by simp [ObjectRequest.change, hchecks, Except.toOption]) (.refl s)
  | ok target =>
    obtain ⟨bucket, key, body⟩ := target
    rcases s.storage.putObject_spec dg os bucket key (asBytes body) (some HOST_CONTENT_TYPE) with
      ⟨path, metadata, hpath, hlength, -, hput⟩ | ⟨hnone, e, hput⟩
    · simp only [Outcome.proceed_ok, hput, Outcome.mapError_ok]
      refine .unrecorded rfl rfl ?_
      have hchange : (ObjectRequest.hostPut os claims args).change sg s =
          some (path, metadata.contentLength) := by
        simp [ObjectRequest.change, hchecks, hpath, hlength, Except.toOption]
      rw [hchange]
      exact .written ⟨path, asBytes body, metadata⟩ rfl
    · simp only [Outcome.proceed_ok, hput, Outcome.mapError_error, Outcome.proceed_error]
      exact .refused (by simp [ObjectRequest.change, hchecks, hnone, Except.toOption]) (.refl s)

theorem hostDelete_effect (s : StorageState) (os : Os) (claims : Option Claims) (args : Value) :
    Effect sg s (handleStorageDelete s os claims args).1 (.hostDelete os claims args) := by
  unfold handleStorageDelete
  cases hchecks : storageDeleteChecks s.db claims args with
  | error e => exact .refused (by simp [ObjectRequest.change, hchecks, Except.toOption]) (.refl s)
  | ok target =>
    obtain ⟨bucket, key⟩ := target
    cases hpath : LocalStorage.writablePath os bucket key with
    | none =>
      cases hdelete : s.storage.deleteObject os bucket key with
      | error e =>
        simp only [Outcome.proceed_ok, hdelete, Outcome.mapError_error, Outcome.proceed_error]
        exact .refused (by simp [ObjectRequest.change, hchecks, hpath, Except.toOption]) (.refl s)
      | ok storage =>
        obtain ⟨path, o, hsome, -⟩ := LocalStorage.deleteObject_eq_ok.mp hdelete
        rw [hpath] at hsome
        cases hsome
    | some path =>
      have hchange : (ObjectRequest.hostDelete os claims args).change sg s = some (path, 0) := by
        simp [ObjectRequest.change, hchecks, hpath, Except.toOption]
      cases hdelete : s.storage.deleteObject os bucket key with
      | ok storage =>
        obtain ⟨path', o, hsome, ho, rfl⟩ := LocalStorage.deleteObject_eq_ok.mp hdelete
        rw [hpath] at hsome
        cases hsome
        simp only [Outcome.proceed_ok, hdelete, Outcome.mapError_ok]
        refine .unrecorded rfl rfl ?_
        rw [hchange]
        exact .cleared path rfl
      | error e =>
        -- nothing was there: clearing the place changes nothing
        have habsent : s.storage.objects.find? path = none := by
          rw [Option.eq_none_iff_forall_ne_some]
          intro o ho
          rw [LocalStorage.deleteObject_eq_ok.mpr ⟨path, o, hpath, ho, rfl⟩] at hdelete
          cases hdelete
        simp only [Outcome.proceed_ok, hdelete, Outcome.mapError_error, Outcome.proceed_error]
        refine .unrecorded rfl rfl ?_
        rw [hchange]
        exact .cleared path (KeyedTable.erase_of_find?_none habsent).symm

/-- **Step lemma.** -/
theorem objectStep_effect (dg : Digests) (sg : Signer) (s : StorageState) (r : ObjectRequest) :
    Effect sg s (objectStep dg sg s r) r := by
  cases r with
  | putSdk env os auth appId bucket key header body =>
    exact putSdk_effect s env os auth appId bucket key header body
  | deleteSdk env os auth appId bucket key => exact deleteSdk_effect s env os auth appId bucket key
  | putPresigned os appId bucket key token header body =>
    exact putPresigned_effect s os appId bucket key token header body
  | createMultipart env os auth appId bucket key contentType =>
    exact createMultipart_effect s env os auth appId bucket key contentType
  | uploadPart os auth appId bucket uploadId partNumber keyHeader body =>
    exact uploadPart_effect s os auth appId bucket uploadId partNumber keyHeader body
  | completeMultipart os auth appId bucket key uploadId parts =>
    exact completeMultipart_effect s os auth appId bucket key uploadId parts
  | abortMultipart os auth appId bucket key uploadId =>
    exact abortMultipart_effect s os auth appId bucket key uploadId
  | hostPut os claims args => exact hostPut_effect s os claims args
  | hostDelete os claims args => exact hostDelete_effect s os claims args

/-! ### Exactness -/

/-- The bytes the apps of a workspace store. -/
def storedBytes (s : StorageState) (workspaceId : String) : Int :=
  s.storage.objects.total fun o =>
    if appInWorkspace s.db workspaceId o.path.namespace_.appId then o.metadata.contentLength else 0

/-- The bytes recorded for a workspace. -/
def recordedBytes (s : StorageState) (workspaceId : String) : Int :=
  counterValue s.db workspaceId .storageBytes "all"

/-- **Exact accounting**: every workspace is charged what its apps store. -/
def Exact (s : StorageState) : Prop := ∀ workspaceId, recordedBytes s workspaceId =
    storedBytes s workspaceId

theorem weightAt_path (st : LocalStorage) (counted : String → Bool) (path : ObjectPath) :
    st.objects.weightAt
        (fun o => if counted o.path.namespace_.appId then (o.metadata.contentLength : Int) else 0)
        path =
      if counted path.namespace_.appId then st.sizeAt path else 0 := by
  unfold LocalStorage.sizeAt KeyedTable.weightAt
  cases hfind : st.objects.find? path with
  | none => simp
  | some o =>
    obtain ⟨-, hpath⟩ := KeyedTable.find?_eq_some.mp hfind
    rw [← hpath]
    rfl

theorem storedBytes_rewritten (h : Effect sg s s' r) (workspaceId : String) :
    storedBytes s' workspaceId = storedBytes s workspaceId + r.storedChange sg s workspaceId := by
  have hcounted : ∀ appId, appInWorkspace s'.db workspaceId appId =
      appInWorkspace s.db workspaceId appId := by
    intro appId
    obtain ⟨counters, logs, hframe⟩ := h.frame
    rw [hframe]
    rfl
  have hrewritten := h.rewritten
  unfold storedBytes ObjectRequest.storedChange
  simp only [hcounted]
  generalize r.change sg s = change at hrewritten ⊢
  cases hrewritten with
  | untouched hobjects => rw [hobjects, Int.add_zero]
  | written o hobjects =>
    rw [hobjects, KeyedTable.total_upsert,
      weightAt_path s.storage (appInWorkspace s.db workspaceId)]
    dsimp only
    split <;> omega
  | cleared path hobjects =>
    rw [hobjects, KeyedTable.total_erase, weightAt_path s.storage (appInWorkspace s.db workspaceId)]
    dsimp only
    split <;> omega

/-- Is every byte the request changes recorded?  An SDK put or delete records what
    it changes, if the workspace exists and the size of what it replaces can be
    read; any other request must leave the size in place as it is, unless the
    app is in no workspace. -/
def Accounted (sg : Signer) (s : StorageState) (r : ObjectRequest) : Prop :=
  ∀ path size workspaceId, r.change sg s = some (path, size) →
    appInWorkspace s.db workspaceId path.namespace_.appId = true →
    if r.recordsUsage && s.db.workspaces.hasKey workspaceId then
      r.readable = true ∨ s.storage.sizeAt path = 0
    else (size : Int) = s.storage.sizeAt path

theorem accounted_iff :
    Accounted sg s r ↔
      ∀ workspaceId, r.recordedChange sg s workspaceId = r.storedChange sg s workspaceId := by
  unfold Accounted ObjectRequest.recordedChange ObjectRequest.storedChange
  cases r.change sg s with
  | none => simp
  | some target =>
    obtain ⟨path, size⟩ := target
    simp only [Option.some.injEq, Prod.mk.injEq, and_imp]
    constructor
    · intro h workspaceId
      specialize h path size workspaceId rfl rfl
      by_cases hin : appInWorkspace s.db workspaceId path.namespace_.appId = true
      · specialize h hin
        by_cases hrec : (r.recordsUsage && s.db.workspaces.hasKey workspaceId) = true
        · rw [if_pos hrec] at h
          rcases h with hread | hzero
          · simp [hin, hrec, hread]
          · simp [hin, hrec, hzero]
        · rw [if_neg hrec] at h
          simp [hin, hrec, h]
      · simp [hin]
    · rintro h _ _ workspaceId rfl rfl hin
      specialize h workspaceId
      by_cases hrec : (r.recordsUsage && s.db.workspaces.hasKey workspaceId) = true
      · rw [if_pos hrec]
        simp only [hin, hrec, Bool.and_true, if_true] at h
        cases hread : r.readable with
        | true => exact .inl rfl
        | false =>
          right
          simp only [hread, Bool.false_eq_true, if_false] at h
          omega
      · rw [if_neg hrec]
        simp only [hin, hrec, Bool.false_and, Bool.false_eq_true, if_false, if_true] at h
        omega

/-- From an exact state a request leads to an exact one precisely when it accounts
    for what it changes. -/
theorem exact_step (dg : Digests) (hs : Exact s) :
    Exact (objectStep dg sg s r) ↔ Accounted sg s r := by
  have heffect := objectStep_effect dg sg s r
  rw [accounted_iff]
  refine forall_congr' fun workspaceId => ?_
  have hcounter : recordedBytes (objectStep dg sg s r) workspaceId = _ :=
    heffect.counter workspaceId
  rw [hcounter, storedBytes_rewritten heffect, ← hs workspaceId, recordedBytes]
  omega

end Requests

/-- Along a run of storage requests the counters are exact in every state exactly
    when they are at the start and every request accounts for what it changes. -/
theorem storage_accounting_iff (dg : Digests) (sg : Signer) (s : StorageState)
    (rs : List ObjectRequest) :
    (∀ pre post, rs = pre ++ post → Exact (Transition.run (objectStep dg sg) s pre)) ↔
      Exact s ∧ ∀ pre r post, rs = pre ++ r :: post →
        Accounted sg (Transition.run (objectStep dg sg) s pre) r := by
  constructor
  · intro h
    have hs : Exact s := h [] rs rfl
    refine ⟨hs, ?_⟩
    exact (Transition.good_iff_admissible (fun _ _ => exact_step dg) hs rs).mp h
  · rintro ⟨hs, hadm⟩
    exact (Transition.good_iff_admissible (fun _ _ => exact_step dg) hs rs).mpr hadm

/-- An app in a workspace, with nothing stored yet. -/
def studioDb : Db :=
  { workspaces := ⟨[{
      id := "studio", name := "studio", displayName := "Studio", createdBy := none
      createdAt := "2026-01-01 00:00:00", updatedAt := "2026-01-01 00:00:00" }], by simp⟩
    apps := ⟨[{
      id := "media", name := "media", displayName := "Media", workspaceId := "studio"
      createdBy := none, createdAt := "2026-01-01 00:00:00"
      updatedAt := "2026-01-01 00:00:00", deletedAt := none }], by simp⟩ }

def studioAdmin : Claims := { sub := "editor", appId := "media", exp := 0, isAdmin := true }

/-- The app has a bucket for text files of at most four bytes. -/
def studioFiles : StorageState :=
  { db := (createStorageBucket studioDb (sampleEnv "b") studioAdmin "media"
      { name := some "clips", publicRead := false, allowClientUploads := true
        maxObjectBytes := some 4, allowedMimeTypes := some ["text/plain"] }).1
    storage := {} }

def studioOs : Os := { now := "2026-01-01T00:00:00+00:00", timestamp := 1767225600 }

/-- The arguments with which a function stores `hello`. -/
def helloArgs : Value :=
  .object [("body", .string "hello"), ("bucket", .string "clips"), ("key", .string "a.txt")]

/-- A function stores five bytes, and the workspace is charged none. -/
theorem host_put_not_charged :
    Exact studioFiles ∧ ∀ dg sg,
      Outcome.succeeded (handleStoragePut dg studioFiles studioOs (some studioAdmin) helloArgs).2 =
          true ∧
        ¬ Exact (Transition.run (objectStep dg sg) studioFiles
          [.hostPut studioOs (some studioAdmin) helloArgs]) := by
  refine ⟨fun workspaceId => rfl, fun dg sg => ⟨rfl, ?_⟩⟩
  intro hexact
  have hstudio := hexact "studio"
  have hstored : storedBytes (Transition.run (objectStep dg sg) studioFiles
      [.hostPut studioOs (some studioAdmin) helloArgs]) "studio" = 5 := rfl
  rw [hstored] at hstudio
  cases hstudio

end Peanut
