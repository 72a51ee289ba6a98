import Peanut.Storage.Accounting

/-!
# Bucket policies

Every object that is written should fit the policy its bucket has at that moment.
`put_sdk_object` checks the policy; the other three ways to write an object check
less: uploads in parts and the function host that the bucket exists, a presigned
URL nothing.
-/

namespace Peanut

open Relational

/-- The requests to the storage of an app. -/
inductive StorageRequest where
  | createBucket (env : Env) (claims : Claims) (appId : String)
      (payload : UpsertStorageBucketRequest)
  | updateBucket (env : Env) (claims : Claims) (appId bucket : String)
      (payload : UpsertStorageBucketRequest)
  | deleteBucket (env : Env) (claims : Claims) (appId bucket : String)
  | object (r : ObjectRequest)

def storageStep (dg : Digests) (sg : Signer) (s : StorageState) : StorageRequest → StorageState
  | .createBucket env claims appId payload =>
      { s with db := (createStorageBucket s.db env claims appId payload).1 }
  | .updateBucket env claims appId bucket payload =>
      { s with db := (updateStorageBucket s.db env claims appId bucket payload).1 }
  | .deleteBucket env claims appId bucket =>
      { s with db := (deleteStorageBucket s.db env claims appId bucket).1 }
  | .object r => objectStep dg sg s r

/-! ### Buckets as they are stored -/

/-- A bucket has a name of the accepted alphabet, and none of the types it
    accepts is blank. -/
def ValidBucket (b : StorageBucket) : Prop :=
  charsAll isNameChar b.name = true ∧ ∀ mimeType ∈ b.allowedMimeTypes, isBlank mimeType = false

def BucketsValid (db : Db) : Prop := ∀ b ∈ db.storageBuckets, ValidBucket b

theorem bucketPolicyChecks_not_blank {payload : UpsertStorageBucketRequest}
    {mimeTypes : List String} (h : bucketPolicyChecks payload = .ok mimeTypes) :
    ∀ mimeType ∈ mimeTypes, isBlank mimeType = false := by
  unfold bucketPolicyChecks at h
  obtain ⟨types, htypes, h⟩ := Outcome.bind_eq_ok.mp h
  obtain ⟨-, -, hok⟩ := Outcome.bind_eq_ok.mp h
  cases hok
  exact normalizeMimeTypes_not_blank (Outcome.mapError_eq_ok.mp htypes)

theorem bucketsValid_recordAuditLog {db : Db} (h : BucketsValid db) (env : Env) (uuid : String)
    (appId : Option String) (claims : Claims) (action targetType targetId : String)
    (metadata : Value) :
    BucketsValid (db.recordAuditLog env uuid appId claims action targetType targetId metadata) := by
  obtain ⟨logs, hlogs⟩ :=
    db.recordAuditLog_frame env uuid appId claims action targetType targetId metadata
  rw [hlogs]
  exact h

theorem createStorageBucket_valid {db : Db} (h : BucketsValid db) (env : Env) (claims : Claims)
    (appId : String) (payload : UpsertStorageBucketRequest) :
    BucketsValid (createStorageBucket db env claims appId payload).1 := by
  unfold createStorageBucket
  refine Outcome.proceed_rule (P := BucketsValid) h ?_
  rintro ⟨bucket, mimeTypes⟩ hchecks
  unfold createStorageBucketChecks at hchecks
  obtain ⟨-, -, hchecks⟩ := Outcome.bind_eq_ok.mp hchecks
  obtain ⟨-, -, hchecks⟩ := Outcome.bind_eq_ok.mp hchecks
  obtain ⟨name, -, hchecks⟩ := Outcome.bind_eq_ok.mp hchecks
  obtain ⟨normal, hnormal, hchecks⟩ := Outcome.bind_eq_ok.mp hchecks
  obtain ⟨types, htypes, hok⟩ := Outcome.bind_eq_ok.mp hchecks
  cases hok
  dsimp only
  split
  · exact h
  · rename_i db' hinsert
    apply bucketsValid_recordAuditLog
    unfold insertStorageBucket at hinsert
    split at hinsert
    · obtain ⟨buckets, hbuckets, rfl⟩ := Option.map_eq_some_iff.mp hinsert
      intro b hb
      rcases (KeyedTable.mem_insert? hbuckets).mp hb with hold | rfl
      · exact h b hold
      · exact ⟨normalizeBucketName_chars (Outcome.mapError_eq_ok.mp hnormal),
          bucketPolicyChecks_not_blank htypes⟩
    · cases hinsert

theorem updateStorageBucket_valid {db : Db} (h : BucketsValid db) (env : Env) (claims : Claims)
    (appId bucket : String) (payload : UpsertStorageBucketRequest) :
    BucketsValid (updateStorageBucket db env claims appId bucket payload).1 := by
  unfold updateStorageBucket
  refine Outcome.proceed_rule (P := BucketsValid) h ?_
  rintro ⟨normal, mimeTypes⟩ hchecks
  unfold updateStorageBucketChecks at hchecks
  obtain ⟨-, -, hchecks⟩ := Outcome.bind_eq_ok.mp hchecks
  obtain ⟨name, -, hchecks⟩ := Outcome.bind_eq_ok.mp hchecks
  obtain ⟨types, htypes, hok⟩ := Outcome.bind_eq_ok.mp hchecks
  cases hok
  dsimp only
  split
  · exact h
  · apply bucketsValid_recordAuditLog
    intro b hb
    rcases mem_updateBuckets hb with hold | ⟨old, hold, rfl⟩
    · exact h b hold
    · exact ⟨(h old hold).1, bucketPolicyChecks_not_blank htypes⟩

theorem deleteStorageBucket_valid {db : Db} (h : BucketsValid db) (env : Env) (claims : Claims)
    (appId bucket : String) :
    BucketsValid (deleteStorageBucket db env claims appId bucket).1 := by
  unfold deleteStorageBucket
  refine Outcome.proceed_rule (P := BucketsValid) h fun _ _ => ?_
  split
  · exact h
  · apply bucketsValid_recordAuditLog
    intro b hb
    rcases mem_updateBuckets hb with hold | ⟨old, hold, rfl⟩
    · exact h b hold
    · exact h old hold

/-- **Step lemma.**  Every request keeps the buckets valid. -/
theorem storageStep_valid (dg : Digests) (sg : Signer) {s : StorageState} (h : BucketsValid s.db)
    (r : StorageRequest) : BucketsValid (storageStep dg sg s r).db := by
  cases r with
  | createBucket env claims appId payload =>
    exact createStorageBucket_valid h env claims appId payload
  | updateBucket env claims appId bucket payload =>
    exact updateStorageBucket_valid h env claims appId bucket payload
  | deleteBucket env claims appId bucket =>
    exact deleteStorageBucket_valid h env claims appId bucket
  | object r =>
    obtain ⟨counters, logs, hframe⟩ := (objectStep_effect dg sg s r).frame
    change BucketsValid (objectStep dg sg s r).db
    rw [hframe]
    exact h

/-! ### Writes -/

/-- Does an object of this size and type fit the bucket, as it is now? -/
def FitsPolicy (db : Db) (bucket : Namespace) (size : Nat) (contentType : String) : Prop :=
  ∃ policy, fetchBucket db bucket.appId bucket.bucket = some policy ∧
    withinObjectLimit policy size = true ∧ mimeAllowed policy contentType = true

section Writes

variable (dg : Digests) (sg : Signer)

/-- The object that a successful request has written: its directory and metadata. -/
def writtenObject (s : StorageState) : ObjectRequest → Option (Namespace × StorageObjectMetadata)
  | .putSdk env os auth appId bucket key header body =>
      (putSdkObject dg s env os auth appId bucket key header body).2.toOption.map
        fun reply => (⟨appId, bucket⟩, reply.body)
  | .putPresigned os appId bucket key token header body =>
      (putPresignedObject dg sg s os appId bucket key token header body).2.toOption.map
        fun reply => (⟨appId, bucket⟩, reply.body)
  | .completeMultipart os auth appId bucket key uploadId parts =>
      (completeMultipartUpload dg s os auth appId bucket key uploadId parts).2.toOption.map
        fun reply => (⟨appId, bucket⟩, reply.body)
  | .hostPut os claims args => do
      let (bucket, _) ← (storagePutChecks s.db claims args).toOption
      let (_, metadata) ← (storagePut dg s os claims args).2.toOption
      return (bucket, metadata)
  | _ => none

/-- **Policy on write**: what a request writes fits the bucket at that moment. -/
def PolicyHolds (s : StorageState) (r : ObjectRequest) : Prop :=
  ∀ bucket metadata, writtenObject dg sg s r = some (bucket, metadata) →
    FitsPolicy s.db bucket metadata.contentLength metadata.contentType

/-- The directory, the size and the type of the object that a request writes if it
    passes its checks. -/
def ObjectRequest.write (s : StorageState) : ObjectRequest → Option (Namespace × Nat × String)
  | .putSdk env os auth appId bucket key header body => do
      let _ ← (putSdkChecks s env os auth appId bucket key (headerContentType header)
        body.length).toOption
      let _ ← LocalStorage.writablePath os ⟨appId, bucket⟩ key
      return (⟨appId, bucket⟩, body.length, storedContentType (some (headerContentType header)))
  | .putPresigned os appId bucket key token header body => do
      let _ ← (presignedUploadChecks sg os appId bucket key token).toOption
      let _ ← LocalStorage.writablePath os ⟨appId, bucket⟩ key
      return (⟨appId, bucket⟩, body.length, storedContentType (some (headerContentType header)))
  | .completeMultipart os auth appId bucket key uploadId parts => do
      let _ ← (multipartChecks s.db auth appId bucket).toOption
      let (upload, data, _) ←
        (s.storage.multipartContents os ⟨appId, bucket⟩ key uploadId parts).toOption
      let _ ← LocalStorage.writablePath os ⟨appId, bucket⟩ upload.key
      return (⟨appId, bucket⟩, data.length, storedContentType (some upload.contentType))
  | .hostPut os claims args => do
      let (bucket, key, body) ← (storagePutChecks s.db claims args).toOption
      let _ ← LocalStorage.writablePath os bucket key
      return (bucket, (asBytes body).length, storedContentType (some HOST_CONTENT_TYPE))
  | _ => none

/-- Does the request keep to the policy?  A put of the SDK does.  An upload in parts
    or a write of the host must be small enough and of an accepted type, the
    write of a presigned URL must in addition find its bucket. -/
def MeetsPolicy (s : StorageState) (r : ObjectRequest) : Prop :=
  match r with
  | .putPresigned .. =>
      ∀ bucket size contentType, r.write sg s = some (bucket, size, contentType) →
        FitsPolicy s.db bucket size contentType
  | .completeMultipart .. | .hostPut .. =>
      ∀ bucket size contentType policy, r.write sg s = some (bucket, size, contentType) →
        fetchBucket s.db bucket.appId bucket.bucket = some policy →
        withinObjectLimit policy size = true ∧ mimeAllowed policy contentType = true
  | _ => True

variable {dg sg}

theorem writtenObject_write (dg : Digests) (sg : Signer) (s : StorageState) (r : ObjectRequest) :
    (writtenObject dg sg s r).map (fun w => (w.1, w.2.contentLength, w.2.contentType)) =
      r.write sg s := by
  cases r with
  | putSdk env os auth appId bucket key header body =>
    unfold writtenObject ObjectRequest.write putSdkObject
    dsimp only
    cases putSdkChecks s env os auth appId bucket key (headerContentType header) body.length with
    | error e => rfl
    | ok workspaceId =>
      rcases s.storage.putObject_spec dg os ⟨appId, bucket⟩ key body
        (some (headerContentType header)) with
        ⟨path, metadata, hpath, hlength, htype, hput⟩ | ⟨hnone, e, hput⟩
      · simp [hput, hpath, hlength, htype, Except.toOption]
      · simp [hput, hnone, Except.toOption]
  | putPresigned os appId bucket key token header body =>
    unfold writtenObject ObjectRequest.write putPresignedObject
    dsimp only
    cases presignedUploadChecks sg os appId bucket key token with
    | error e => rfl
    | ok u =>
      rcases s.storage.putObject_spec dg os ⟨appId, bucket⟩ key body
        (some (headerContentType header)) with
        ⟨path, metadata, hpath, hlength, htype, hput⟩ | ⟨hnone, e, hput⟩
      · simp [hput, hpath, hlength, htype, Except.toOption]
      · simp [hput, hnone, Except.toOption]
  | completeMultipart os auth appId bucket key uploadId parts =>
    unfold writtenObject ObjectRequest.write completeMultipartUpload
    dsimp only
    cases multipartChecks s.db auth appId bucket with
    | error e => rfl
    | ok u =>
      cases hcomplete : s.storage.completeMultipartUpload dg os ⟨appId, bucket⟩ key uploadId
        parts with
      | ok result =>
        obtain ⟨metadata, storage⟩ := result
        obtain ⟨upload, data, etags, path, hcontents, hpath, hlength, htype, -⟩ :=
          LocalStorage.completeMultipartUpload_eq_ok hcomplete
        simp [hcontents, hpath, hlength, htype, Except.toOption]
      | error e =>
        cases hcontents : s.storage.multipartContents os ⟨appId, bucket⟩ key uploadId parts with
        | error e => rfl
        | ok contents =>
          obtain ⟨upload, data, etags⟩ := contents
          cases hpath : LocalStorage.writablePath os ⟨appId, bucket⟩ upload.key with
          | none => simp [hpath, Except.toOption]
          | some path =>
            obtain ⟨result, hresult⟩ :=
              LocalStorage.completeMultipartUpload_of_contents dg hcontents hpath
            rw [hresult] at hcomplete
            cases hcomplete
  | hostPut os claims args =>
    unfold writtenObject ObjectRequest.write storagePut
    dsimp only
    cases storagePutChecks s.db claims args with
    | error e => rfl
    | ok target =>
      obtain ⟨bucket, key, body⟩ := target
      rcases s.storage.putObject_spec dg os bucket key (asBytes body) (some HOST_CONTENT_TYPE) with
        ⟨path, metadata, hpath, hlength, htype, hput⟩ | ⟨hnone, e, hput⟩
      · simp [hput, hpath, hlength, htype, Except.toOption]
      · simp [hput, hnone, Except.toOption]
  | deleteSdk env os auth appId bucket key => rfl
  | createMultipart env os auth appId bucket key contentType => rfl
  | uploadPart os auth appId bucket uploadId partNumber keyHeader body => rfl
  | abortMultipart os auth appId bucket key uploadId => rfl
  | hostDelete os claims args => rfl

theorem policyHolds_iff_write {s : StorageState} {r : ObjectRequest} :
    PolicyHolds dg sg s r ↔ ∀ bucket size contentType,
      r.write sg s = some (bucket, size, contentType) →
        FitsPolicy s.db bucket size contentType := by
  unfold PolicyHolds
  rw [← writtenObject_write dg sg s r]
  constructor
  · intro h bucket size contentType hwrite
    obtain ⟨⟨bucket', metadata⟩, hwritten, heq⟩ := Option.map_eq_some_iff.mp hwrite
    cases heq
    exact h bucket' metadata hwritten
  · intro h bucket metadata hwritten
    exact h bucket metadata.contentLength metadata.contentType (by rw [hwritten]; rfl)

/-! ### What each path checks -/

theorem trim_headerContentType (header : Option HeaderText) :
    trim (headerContentType header) = headerContentType header := by
  cases header with
  | none => rfl
  | some text => exact text.property

/-- A type the bucket accepts is still accepted as it is stored: the stored type
    differs from the header only when that is empty, which a bucket with a list of
    types refuses. -/
theorem mimeAllowed_stored {policy : StorageBucket} (hvalid : ValidBucket policy)
    {header : Option HeaderText} (h : mimeAllowed policy (headerContentType header) = true) :
    mimeAllowed policy (storedContentType (some (headerContentType header))) = true := by
  by_cases hempty : headerContentType header = ""
  · rw [hempty] at h ⊢
    unfold mimeAllowed at h ⊢
    rw [Bool.or_eq_true] at h ⊢
    rcases h with h | h
    · exact .inl h
    · obtain ⟨mimeType, hmem, heq⟩ := List.any_eq_true.mp h
      have hblank : mimeType = "" := by
        simpa [eqIgnoreAsciiCase, asciiLowercase] using heq
      have hnot := hvalid.2 mimeType hmem
      rw [hblank] at hnot
      cases hnot
  · have hstored : storedContentType (some (headerContentType header)) =
        headerContentType header := by
      rw [storedContentType, Option.map_some, trim_headerContentType, Option.filter_some,
        if_pos (by simpa using hempty)]
      rfl
    rw [hstored]
    exact h

theorem putSdk_fits {s : StorageState} (hvalid : BucketsValid s.db) {env : Env} {os : Os}
    {auth : SdkAuthContext} {appId bucket key workspaceId : String} {header : Option HeaderText}
    {size : Nat}
    (h : putSdkChecks s env os auth appId bucket key (headerContentType header) size =
      .ok workspaceId) :
    FitsPolicy s.db ⟨appId, bucket⟩ size (storedContentType (some (headerContentType header))) := by
  unfold putSdkChecks at h
  obtain ⟨policy, hpolicy, -⟩ := Outcome.bind_eq_ok.mp h
  unfold putSdkPolicy at hpolicy
  obtain ⟨policy', hload, hpolicy⟩ := Outcome.bind_eq_ok.mp hpolicy
  obtain ⟨-, -, hpolicy⟩ := Outcome.bind_eq_ok.mp hpolicy
  obtain ⟨_, hsize, hpolicy⟩ := Outcome.bind_eq_ok.mp hpolicy
  obtain ⟨_, htype, -⟩ := Outcome.bind_eq_ok.mp hpolicy
  have hfetch : fetchBucket s.db appId bucket = some policy' := Outcome.require_eq_ok.mp hload
  refine ⟨policy', hfetch, Outcome.ensure_eq_ok.mp hsize, ?_⟩
  exact mimeAllowed_stored (hvalid policy' (fetchBucket_some hfetch).1)
    (Outcome.ensure_eq_ok.mp htype)

theorem multipart_bucket {s : StorageState} {os : Os} {auth : SdkAuthContext}
    {appId bucket key uploadId : String} {parts : List CompletedMultipartPart}
    {directory : Namespace}
    {size : Nat} {contentType : String}
    (h : (ObjectRequest.completeMultipart os auth appId bucket key uploadId parts).write sg s =
      some (directory, size, contentType)) :
    ∃ policy, fetchBucket s.db directory.appId directory.bucket = some policy := by
  unfold ObjectRequest.write at h
  dsimp only at h
  cases hchecks : multipartChecks s.db auth appId bucket with
  | error e =>
    rw [hchecks] at h
    cases h
  | ok u =>
    obtain ⟨_, -, h⟩ := Option.bind_eq_some_iff.mp h
    obtain ⟨contents, -, h⟩ := Option.bind_eq_some_iff.mp h
    obtain ⟨path, -, hsome⟩ := Option.bind_eq_some_iff.mp h
    cases hsome
    unfold multipartChecks ensureBucketExists at hchecks
    obtain ⟨_, -, hexists⟩ := Outcome.bind_eq_ok.mp hchecks
    exact Option.isSome_iff_exists.mp (Outcome.ensure_eq_ok.mp hexists)

theorem appStorageBucket_valid {db : Db} (hvalid : BucketsValid db) {appId bucket : String}
    {policy : StorageBucket} (h : fetchBucket db appId (trim bucket) = some policy) :
    appStorageBucket appId bucket = ⟨appId, trim bucket⟩ := by
  obtain ⟨hmem, -, hname, -⟩ := fetchBucket_some h
  have hchars := (hvalid policy hmem).1
  rw [hname] at hchars
  have hslash : ∀ c ∈ (trim bucket).toList, (c == '/') = false := by
    intro c hc
    rw [beq_eq_false_iff_ne]
    rintro rfl
    exact absurd (List.all_eq_true.mp hchars '/' hc) (by decide)
  rw [appStorageBucket, strTrimMatches_eq_self hslash]

theorem host_bucket {s : StorageState} (hvalid : BucketsValid s.db) {os : Os}
    {claims : Option Claims} {args : Value} {directory : Namespace} {size : Nat}
    {contentType : String}
    (h : (ObjectRequest.hostPut os claims args).write sg s = some (directory, size, contentType)) :
    ∃ policy, fetchBucket s.db directory.appId directory.bucket = some policy := by
  unfold ObjectRequest.write at h
  dsimp only at h
  cases hchecks : storagePutChecks s.db claims args with
  | error e =>
    rw [hchecks] at h
    cases h
  | ok target =>
    rw [hchecks] at h
    obtain ⟨_, htarget, h⟩ := Option.bind_eq_some_iff.mp h
    cases htarget
    obtain ⟨path, -, hsome⟩ := Option.bind_eq_some_iff.mp h
    cases hsome
    unfold storagePutChecks at hchecks
    obtain ⟨caller, -, hchecks⟩ := Outcome.bind_eq_ok.mp hchecks
    obtain ⟨bucket, -, hchecks⟩ := Outcome.bind_eq_ok.mp hchecks
    obtain ⟨key, -, hchecks⟩ := Outcome.bind_eq_ok.mp hchecks
    obtain ⟨body, -, hchecks⟩ := Outcome.bind_eq_ok.mp hchecks
    obtain ⟨_, hexists, hok⟩ := Outcome.bind_eq_ok.mp hchecks
    cases hok
    obtain ⟨policy, hpolicy⟩ := Option.isSome_iff_exists.mp (Outcome.ensure_eq_ok.mp hexists)
    refine ⟨policy, ?_⟩
    rw [appStorageBucket_valid hvalid hpolicy]
    exact hpolicy

/-- Over valid buckets a request writes what fits the policy exactly when it keeps
    to the policy in what it does not check. -/
theorem policyHolds_iff {s : StorageState} (hvalid : BucketsValid s.db) (r : ObjectRequest) :
    PolicyHolds dg sg s r ↔ MeetsPolicy sg s r := by
  -- where the bucket is known to exist, size and type are what remains
  have hexists : (∀ bucket size contentType, r.write sg s = some (bucket, size, contentType) →
        ∃ policy, fetchBucket s.db bucket.appId bucket.bucket = some policy) →
      ((∀ bucket size contentType, r.write sg s = some (bucket, size, contentType) →
          FitsPolicy s.db bucket size contentType) ↔
        ∀ bucket size contentType policy, r.write sg s = some (bucket, size, contentType) →
          fetchBucket s.db bucket.appId bucket.bucket = some policy →
          withinObjectLimit policy size = true ∧ mimeAllowed policy contentType = true) := by
    intro hbucket
    constructor
    · intro h bucket size contentType policy hwrite hpolicy
      obtain ⟨policy', hpolicy', hfits⟩ := h bucket size contentType hwrite
      rw [hpolicy] at hpolicy'
      cases hpolicy'
      exact hfits
    · intro h bucket size contentType hwrite
      obtain ⟨policy, hpolicy⟩ := hbucket bucket size contentType hwrite
      exact ⟨policy, hpolicy, h bucket size contentType policy hwrite hpolicy⟩
  rw [policyHolds_iff_write]
  cases r with
  | putSdk env os auth appId bucket key header body =>
    refine iff_of_true ?_ trivial
    intro directory size contentType hwrite
    unfold ObjectRequest.write at hwrite
    dsimp only at hwrite
    cases hchecks : putSdkChecks s env os auth appId bucket key (headerContentType header)
        body.length with
    | error e =>
      rw [hchecks] at hwrite
      cases hwrite
    | ok workspaceId =>
      obtain ⟨_, -, hwrite⟩ := Option.bind_eq_some_iff.mp hwrite
      obtain ⟨path, -, hsome⟩ := Option.bind_eq_some_iff.mp hwrite
      cases hsome
      exact putSdk_fits hvalid hchecks
  | putPresigned os appId bucket key token header body => exact Iff.rfl
  | completeMultipart os auth appId bucket key uploadId parts =>
    exact hexists fun _ _ _ hwrite => multipart_bucket hwrite
  | hostPut os claims args => exact hexists fun _ _ _ hwrite => host_bucket hvalid hwrite
  | deleteSdk env os auth appId bucket key => exact iff_of_true (fun _ _ _ h => by cases h) trivial
  | createMultipart env os auth appId bucket key contentType =>
    exact iff_of_true (fun _ _ _ h => by cases h) trivial
  | uploadPart os auth appId bucket uploadId partNumber keyHeader body =>
    exact iff_of_true (fun _ _ _ h => by cases h) trivial
  | abortMultipart os auth appId bucket key uploadId =>
    exact iff_of_true (fun _ _ _ h => by cases h) trivial
  | hostDelete os claims args => exact iff_of_true (fun _ _ _ h => by cases h) trivial

end Writes

/-- The state of an app that has no buckets yet. -/
def withoutBuckets (db : Db) (storage : LocalStorage) : StorageState :=
  { db := { db with storageBuckets := .empty }, storage := storage }

/-- **Run lemma.** -/
theorem run_bucketsValid (dg : Digests) (sg : Signer) (db : Db) (storage : LocalStorage)
    (rs : List StorageRequest) :
    BucketsValid (Transition.run (storageStep dg sg) (withoutBuckets db storage) rs).db := by
  have hstart : BucketsValid (withoutBuckets db storage).db :=
    fun b hb => absurd hb (KeyedTable.not_mem_empty b)
  have hstep : ∀ (s : StorageState) r, BucketsValid s.db →
      BucketsValid (storageStep dg sg s r).db :=
    fun _ r h => storageStep_valid dg sg h r
  exact Transition.run_preserves hstep hstart rs

/-- In a run that starts without buckets every object that is written fits the
    policy of its bucket exactly when every request keeps to the policy in what
    its handler does not check. -/
theorem bucket_policy_iff (dg : Digests) (sg : Signer) (db : Db) (storage : LocalStorage)
    (rs : List StorageRequest) :
    (∀ pre r post, rs = pre ++ .object r :: post →
        PolicyHolds dg sg (Transition.run (storageStep dg sg) (withoutBuckets db storage) pre) r) ↔
      ∀ pre r post, rs = pre ++ .object r :: post →
        MeetsPolicy sg (Transition.run (storageStep dg sg) (withoutBuckets db storage) pre) r := by
  constructor
  · intro h pre r post hsplit
    exact (policyHolds_iff (run_bucketsValid dg sg db storage pre) r).mp (h pre r post hsplit)
  · intro h pre r post hsplit
    exact (policyHolds_iff (run_bucketsValid dg sg db storage pre) r).mpr (h pre r post hsplit)

/-- A bucket for text files of at most four bytes is created, and a function writes
    five bytes with a type that is not on the list. -/
theorem host_put_ignores_policy :
    Outcome.succeeded (createStorageBucket studioDb (sampleEnv "b") studioAdmin "media"
        { name := some "clips", publicRead := false, allowClientUploads := true
          maxObjectBytes := some 4, allowedMimeTypes := some ["text/plain"] }).2 = true ∧
      ∀ dg sg, ¬ PolicyHolds dg sg
        (Transition.run (storageStep dg sg) (withoutBuckets studioDb {})
          [.createBucket (sampleEnv "b") studioAdmin "media"
            { name := some "clips", publicRead := false, allowClientUploads := true
              maxObjectBytes := some 4, allowedMimeTypes := some ["text/plain"] }])
        (.hostPut studioOs (some studioAdmin) helloArgs) := by
  refine ⟨rfl, ?_⟩
  intro dg sg hholds
  obtain ⟨policy, hpolicy, hsize, -⟩ := hholds ⟨"media", "clips"⟩ _ rfl
  obtain rfl := Option.some.inj hpolicy
  exact Bool.false_ne_true hsize

end Peanut
