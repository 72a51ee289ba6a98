import Peanut.Storage.ObjectStatements

/-!
# The files of one app

The objects of all apps lie below one directory.  An operation on an object of an app changes
files of that app only.  It may make directories above them, and another app finds at its own
paths what it found before, files and errors alike.
-/

namespace Peanut

open Relational Interleaving StorageFiles

/-- A path in one of the trees of the app. -/
def InApp (root : FsPath) (appId : String) (p : List String) : Prop :=
  ∃ (tree : StorageTree) (b : BucketNamespace) (rel : List String),
    b.appId = appId ∧ p = treePath root tree b.toNamespace rel

/-- A file of an object of the app, or of its metadata. -/
def AppFile (root : FsPath) (appId : String) (p : List String) : Prop :=
  ∃ (b : BucketNamespace) (parts : List String), b.appId = appId ∧ parts ≠ [] ∧
    (p = objectFile root b.toNamespace parts ∨ p = metadataFile root b.toNamespace parts)

/-- The other files hold what they held, and elsewhere there may be new directories above
    those of the app. -/
structure FilesWithin (root : FsPath) (appId : String) (t t' : StorageFiles) : Prop where
  content : ∀ p, ¬ AppFile root appId p → t'.contentAt p = t.contentAt p
  lookup : ∀ p, ¬ InApp root appId p → t'.lookup p = t.lookup p ∨
    t.lookup p = none ∧ t'.lookup p = some .dir ∧ ∃ q, InApp root appId q ∧ p <+: q

section Files

variable {root : FsPath} {appId : String} {t t' t'' : StorageFiles} {b : BucketNamespace}
  {p : List String}

theorem AppFile.inApp (h : AppFile root appId p) : InApp root appId p := by
  obtain ⟨b, parts, happ, -, rfl | rfl⟩ := h
  · exact ⟨.objects, b, parts, happ, rfl⟩
  · exact ⟨.metadata, b, withJson parts, happ, rfl⟩

theorem AppFile.ne_nil (h : AppFile root appId p) : p ≠ [] := by
  obtain ⟨tree, b, rel, -, rfl⟩ := h.inApp
  exact treePath_ne_nil root tree b.toNamespace rel

theorem InApp.app_eq {tree : StorageTree} {rel : List String} (h : InApp root appId p)
    (hway : p <+: treePath root tree b.toNamespace rel ∨
      treePath root tree b.toNamespace rel <+: p) : b.appId = appId := by
  obtain ⟨tree', b', rel', rfl, rfl⟩ := h
  rcases hway with hway | hway
  · exact congrArg Namespace.appId (treePath_isPrefix.mp hway).1.2.symm
  · exact congrArg Namespace.appId (treePath_isPrefix.mp hway).1.2

namespace FilesWithin

theorem refl (root : FsPath) (appId : String) (t : StorageFiles) : FilesWithin root appId t t :=
  ⟨fun _ _ => rfl, fun _ _ => .inl rfl⟩

theorem trans (h : FilesWithin root appId t t') (h' : FilesWithin root appId t' t'') :
    FilesWithin root appId t t'' where
  content p hp := (h'.content p hp).trans (h.content p hp)
  lookup p hp := by
    rcases h'.lookup p hp with hsame' | ⟨hnone', hdir', habove⟩
    · rw [hsame']
      exact h.lookup p hp
    · rcases h.lookup p hp with hsame | ⟨-, hdir, -⟩
      · exact .inr ⟨hsame ▸ hnone', hdir', habove⟩
      · rw [hdir] at hnone'
        cases hnone'

/-! ### One operation -/

theorem createParent {path : FsPath} (hp : AppFile root appId path.names)
    (h : t.createParent path = .ok t') : FilesWithin root appId t t' where
  content p _ := by rw [(createParent_ok hp.ne_nil h).1.content]
  lookup p _ := by
    have hlookup := (createParent_ok hp.ne_nil h).2 p
    split at hlookup
    · rename_i habove
      -- there was a directory or nothing, for a file would have been in the way
      have hnofile := (createParent_isOk_iff hp.ne_nil).mp ⟨t', h⟩ p habove
      rcases hbefore : t.lookup p with _ | node
      · exact .inr ⟨rfl, hlookup, path.names, hp.inApp,
          habove.trans (List.dropLast_prefix _)⟩
      · cases node with
        | dir => exact .inl hlookup
        | file c => exact absurd hbefore (hnofile c)
    · exact .inl hlookup

theorem ofOneFile (hp : AppFile root appId p) (h : ∀ q, q ≠ p → t'.lookup q = t.lookup q) :
    FilesWithin root appId t t' := by
  refine ⟨fun q hq => FileTree.contentAt_congr (h q ?_), fun q hq => .inl (h q ?_)⟩
  · rintro rfl
    exact hq hp
  · rintro rfl
    exact hq hp.inApp

theorem writeFile {path : FsPath} {c : StorageContent} (hp : AppFile root appId path.names)
    (h : t.writeFile path c = .ok t') : FilesWithin root appId t t' := by
  rw [StorageFiles.writeFile, Outcome.mapError_eq_ok] at h
  refine ofOneFile hp fun q hq => ?_
  rw [FileTree.lookup_write h, if_neg hq]

theorem removeFile (hp : AppFile root appId p) (h : t.removeFile p = .ok t') :
    FilesWithin root appId t t' := by
  refine ofOneFile hp fun q hq => ?_
  rw [(FileTree.removeFile_ok h).2, if_neg hq]

end FilesWithin

/-! ### One statement of a request -/

theorem appFile_of_resolveObjectPath {key : String} {path : FsPath}
    (h : root.resolveObjectPath b.text key = .ok path) : AppFile root b.appId path.names := by
  obtain ⟨parts, hkey, hnames⟩ := objectFile_of_resolve h
  exact ⟨b, parts, rfl, (normalizeObjectKey_ok hkey).1, .inl hnames⟩

theorem appFile_of_resolveMetadataPath {key : String} {path : FsPath}
    (h : root.resolveMetadataPath b.text key = .ok path) : AppFile root b.appId path.names := by
  obtain ⟨parts, hkey, hnames⟩ := metadataFile_of_resolve h
  exact ⟨b, parts, rfl, (normalizeObjectKey_ok hkey).1, .inr hnames⟩

/-- A request on an object of the app goes on. -/
structure GoesOnWithin {ρ : Type} (bucket : ρ → Namespace) (root : FsPath) (b : BucketNamespace)
    (t : StorageFiles) (r : StorageFiles × ρ) : Prop where
  files : FilesWithin root b.appId t r.1
  bucket_eq : bucket r.2 = b.toNamespace

/-- **A statement of a put** changes files of the app only. -/
theorem PutObjectCall.step_within (dg : Digests) (now : String) {c : PutObjectCall}
    (hbucket : c.bucket = b.toNamespace) :
    GoesOnWithin PutObjectCall.bucket root b t (c.step root dg now t) := by
  obtain ⟨bucket, key, data, contentType, details, stage⟩ := c
  obtain rfl : bucket = b.toNamespace := hbucket
  have hsame : FilesWithin root b.appId t t := .refl _ _ t
  cases stage with
  | received =>
    rw [step]
    refine Outcome.resume_rule (fun _ _ => ⟨hsame, rfl⟩) fun t' h => ⟨?_, rfl⟩
    simp only [makeParent, Outcome.bind_eq_ok] at h
    obtain ⟨path, hpath, _, -, hparent⟩ := h
    exact .createParent (appFile_of_resolveObjectPath hpath) hparent
  | parentMade =>
    rw [step]
    refine Outcome.resume_rule (fun _ _ => ⟨hsame, rfl⟩) fun t' h => ⟨?_, rfl⟩
    obtain ⟨path, hpath, hparent⟩ := Outcome.bind_eq_ok.mp h
    exact .createParent (appFile_of_resolveMetadataPath hpath) hparent
  | metadataParentMade => exact ⟨hsame, rfl⟩
  | previousRead metadata =>
    rw [step]
    refine Outcome.resume_rule (fun _ _ => ⟨hsame, rfl⟩) fun t' h => ⟨?_, rfl⟩
    obtain ⟨path, hpath, hwrite⟩ := Outcome.bind_eq_ok.mp h
    exact .writeFile (appFile_of_resolveObjectPath hpath) hwrite
  | dataWritten metadata =>
    rw [step]
    refine Outcome.resume_rule (fun _ _ => ⟨hsame, rfl⟩) fun t' h => ⟨?_, rfl⟩
    obtain ⟨path, hpath, hparent⟩ := Outcome.bind_eq_ok.mp h
    exact .createParent (appFile_of_resolveMetadataPath hpath) hparent
  | metadataParentMadeAgain metadata =>
    rw [step]
    refine Outcome.resume_rule (fun _ _ => ⟨hsame, rfl⟩) fun t' h => ⟨?_, rfl⟩
    obtain ⟨path, hpath, hwrite⟩ := Outcome.bind_eq_ok.mp h
    exact .writeFile (appFile_of_resolveMetadataPath hpath) hwrite
  | completed metadata => exact ⟨hsame, rfl⟩
  | refused e => exact ⟨hsame, rfl⟩

/-- **A statement of a delete** changes files of the app only. -/
theorem DeleteObjectCall.step_within {c : DeleteObjectCall}
    (hbucket : c.bucket = b.toNamespace) :
    GoesOnWithin DeleteObjectCall.bucket root b t (c.step root () t) := by
  obtain ⟨bucket, key, stage⟩ := c
  obtain rfl : bucket = b.toNamespace := hbucket
  have hsame : FilesWithin root b.appId t t := .refl _ _ t
  cases stage with
  | received =>
    rw [step]
    refine Outcome.resume_rule (fun _ _ => ⟨hsame, rfl⟩) fun t' h => ⟨?_, rfl⟩
    simp only [removeData, Outcome.bind_eq_ok, Outcome.mapError_eq_ok] at h
    obtain ⟨path, hpath, _, -, hremove⟩ := h
    exact .removeFile (appFile_of_resolveObjectPath hpath) hremove
  | dataRemoved =>
    rw [step]
    refine Outcome.resume_rule (fun _ _ => ⟨hsame, rfl⟩) fun t' h => ⟨?_, rfl⟩
    obtain ⟨path, hpath, hremoved⟩ := Outcome.bind_eq_ok.mp h
    split at hremoved
    · rename_i hremove
      cases hremoved
      exact .removeFile (appFile_of_resolveMetadataPath hpath) hremove
    · cases hremoved
      exact hsame
    · cases hremoved
  | completed => exact ⟨hsame, rfl⟩
  | refused e => exact ⟨hsame, rfl⟩

theorem alone_within {ε ρ : Type} {bucket : ρ → Namespace}
    {step : ε → StorageFiles → ρ → StorageFiles × ρ} {e : ε}
    (hstep : ∀ t c, bucket c = b.toNamespace → GoesOnWithin bucket root b t (step e t c))
    (stop : Nat) (t : StorageFiles) (c : ρ) (hbucket : bucket c = b.toNamespace) :
    FilesWithin root b.appId t (alone step e stop t c).1 := by
  have hgoesOn : ∀ t' c, FilesWithin root b.appId t t' ∧ bucket c = b.toNamespace →
      FilesWithin root b.appId t (step e t' c).1 ∧ bucket (step e t' c).2 = b.toNamespace := by
    rintro t' c ⟨hfiles, hbucket⟩
    exact ⟨hfiles.trans (hstep t' c hbucket).files, (hstep t' c hbucket).bucket_eq⟩
  exact (alone_rule hgoesOn stop t c ⟨.refl _ _ t, hbucket⟩).1

end Files

/-! ### What another app finds -/

section Unseen

variable {root : FsPath} {appId : String} {t t' : StorageFiles} {b : BucketNamespace}

theorem FilesWithin.lookup_eq (h : FilesWithin root appId t t') (hother : b.appId ≠ appId)
    (tree : StorageTree) (rel : List String) :
    t'.lookup (treePath root tree b.toNamespace rel) =
      t.lookup (treePath root tree b.toNamespace rel) := by
  have hout : ¬ InApp root appId (treePath root tree b.toNamespace rel) :=
    fun hin => hother (hin.app_eq (.inr (List.prefix_refl _)))
  rcases h.lookup _ hout with hsame | ⟨-, -, q, hq, habove⟩
  · exact hsame
  · exact absurd (hq.app_eq (.inr habove)) hother

theorem FilesWithin.content_above (h : FilesWithin root appId t t') (hother : b.appId ≠ appId)
    {tree : StorageTree} {rel q : List String} (hq : q <+: treePath root tree b.toNamespace rel) :
    t'.contentAt q = t.contentAt q :=
  h.content q fun hfile => hother (hfile.inApp.app_eq (.inl hq))

/-- **A path of another app** is read as before, with the same error if there is one. -/
theorem FilesWithin.read_eq (h : FilesWithin root appId t t') (hother : b.appId ≠ appId)
    (tree : StorageTree) (rel : List String) :
    t'.read (treePath root tree b.toNamespace rel) =
      t.read (treePath root tree b.toNamespace rel) := by
  rw [FileTree.read, FileTree.read, h.lookup_eq hother,
    FileTree.missing_congr fun q hq => h.content_above hother hq]

theorem FilesWithin.readMetadata_eq (h : FilesWithin root appId t t') (hother : b.appId ≠ appId)
    (key : String) :
    readMetadata root t' b.toNamespace key = readMetadata root t b.toNamespace key := by
  rw [readMetadata, readMetadata]
  rcases hresolve : root.resolveMetadataPath b.text key with e | path
  · rfl
  · obtain ⟨parts, -, hnames⟩ := metadataFile_of_resolve hresolve
    simp only [Outcome.ok_bind, readFile, hnames, metadataFile, h.read_eq hother]

/-- **An object of another app** is got as before. -/
theorem FilesWithin.getObject_eq (h : FilesWithin root appId t t') (hother : b.appId ≠ appId)
    (key : String) :
    getObject root t' b.toNamespace key = getObject root t b.toNamespace key := by
  rw [getObject, getObject, h.readMetadata_eq hother]
  rcases hresolve : root.resolveObjectPath b.text key with e | path
  · rfl
  · obtain ⟨parts, -, hnames⟩ := objectFile_of_resolve hresolve
    simp only [Outcome.ok_bind, readFile, hnames, objectFile, h.read_eq hother]

end Unseen

end Peanut
