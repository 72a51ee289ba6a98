import Peanut.Backups.Rotation

/-!
# Which backups a rotation keeps

`backup_db` deletes files that start with the name of the database and a dot and end in
`.backup`.  The two may share the dot: the file `{db}.backup` is taken for a backup of
the form `{db}.*.backup`.
-/

namespace Peanut

open Relational

variable {π : Type} {dbFilename : String}

/-! ### Names -/

/-- `{db}.*.backup` -/
def isStampedBackup (dbFilename : String) (entry : FileEntry π) : Bool :=
  (dbFilename ++ ".").toList.isPrefixOf entry.name.toList &&
    ".backup".toList.isSuffixOf (entry.name.toList.drop (dbFilename ++ ".").length)

theorem isStampedBackup_iff {entry : FileEntry π} : isStampedBackup dbFilename entry = true ↔
    ∃ middle, entry.name = dbFilename ++ "." ++ middle ++ ".backup" := by
  rw [isStampedBackup, Bool.and_eq_true, List.isPrefixOf_iff_prefix, List.isSuffixOf_iff_suffix]
  refine ⟨?_, ?_⟩
  · rintro ⟨⟨rest, hrest⟩, hsuffix⟩
    rw [← hrest, ← String.length_toList, List.drop_left] at hsuffix
    obtain ⟨middle, hmiddle⟩ := hsuffix
    refine ⟨String.ofList middle, String.toList_inj.mp ?_⟩
    rw [String.toList_append, String.toList_append, String.toList_ofList, List.append_assoc,
      hmiddle, hrest]
  · rintro ⟨middle, hname⟩
    rw [hname, @String.toList_append (dbFilename ++ "." ++ middle), @String.toList_append
      (dbFilename ++ "."), List.append_assoc, ← String.length_toList, List.drop_left]
    exact ⟨List.prefix_append _ _, List.suffix_append _ _⟩

/-- What is left of `.backup` behind a dot. -/
theorem backup_cut : ∀ k ≤ 7, (".backup".toList.take k).getLast? = some '.' →
    ".backup".toList.drop k = "backup".toList := by decide

theorem isBackupOf_iff {entry : FileEntry π} : isBackupOf dbFilename entry = true ↔
    isStampedBackup dbFilename entry = true ∨ entry.name = dbFilename ++ ".backup" := by
  rw [isBackupOf, isStampedBackup, endsWith, Bool.and_eq_true, Bool.and_eq_true,
    List.isPrefixOf_iff_prefix, List.isSuffixOf_iff_suffix, List.isSuffixOf_iff_suffix]
  refine ⟨?_, ?_⟩
  · rintro ⟨⟨rest, hrest⟩, hsuffix⟩
    by_cases hlong : ".backup".length ≤ rest.length
    · refine .inl ⟨⟨rest, hrest⟩, ?_⟩
      rw [← hrest, ← String.length_toList, List.drop_left]
      rw [← hrest] at hsuffix
      exact List.suffix_of_suffix_length_le hsuffix (List.suffix_append _ _) hlong
    · -- `.backup` begins in front of the rest, and its beginning ends the prefix
      right
      rw [← hrest] at hsuffix
      obtain ⟨front, hfront⟩ := List.suffix_of_suffix_length_le (List.suffix_append _ rest) hsuffix
        (Nat.le_of_not_le hlong)
      obtain ⟨stem, hstem⟩ := hsuffix
      rw [← hfront, ← List.append_assoc, List.append_cancel_right_eq] at hstem
      have hne : front ≠ [] := by
        rintro rfl
        rw [List.nil_append] at hfront
        rw [hfront] at hlong
        exact hlong (by decide)
      have hdot : front.getLast? = some '.' := by
        have hlast := congrArg List.getLast? hstem
        rwa [List.getLast?_append_of_ne_nil _ hne, String.toList_append,
          List.getLast?_append_of_ne_nil _ (by decide)] at hlast
      have hshort : front.length ≤ 7 := by
        have := congrArg List.length hfront
        rw [List.length_append, show ".backup".toList.length = 7 from rfl] at this
        omega
      have htake : ".backup".toList.take front.length = front := by rw [← hfront, List.take_left]
      have hdrop : ".backup".toList.drop front.length = rest := by rw [← hfront, List.drop_left]
      have hrest' : rest = "backup".toList := by
        rw [← hdrop]
        exact backup_cut _ hshort (by rw [htake, hdot])
      apply String.toList_inj.mp
      rw [← hrest, hrest', String.toList_append, String.toList_append, List.append_assoc]
      rfl
  · rintro (⟨hstart, hsuffix⟩ | hname)
    · exact ⟨hstart, hsuffix.trans (List.drop_suffix _ _)⟩
    · rw [hname, String.toList_append, String.toList_append]
      refine ⟨?_, List.suffix_append _ _⟩
      rw [List.prefix_append_right_inj]
      exact ⟨"backup".toList, rfl⟩

/-! ### The directory -/

/-- `dir'` is `dir` with all but the `n` newest of the chosen entries removed. -/
structure KeepsNewest (chosen : FileEntry π → Bool) (n : Nat) (dir dir' : Directory π) :
    Prop where
  unchanged : ∀ e ∈ dir', e ∈ dir
  others : ∀ e ∈ dir, chosen e = false → e ∈ dir'
  count : (dir'.rows.filter chosen).length = min (dir.rows.filter chosen).length n
  newest : ∀ gone ∈ dir, chosen gone = true → gone ∉ dir' →
    ∀ kept ∈ dir', chosen kept = true → gone.modified ≤ kept.modified

section Rotate

variable {os : ReadOrder π} {dir dir' : Directory π}
  (hfind : ∀ name, dir'.find? name =
    if name ∈ rotatedNames os dbFilename dir then none else dir.find? name)

include hfind

theorem mem_rotated_iff {e : FileEntry π} :
    e ∈ dir' ↔ e ∈ dir ∧ e ∉ rotatedAway dbFilename (os.order dir.rows) := by
  have hname : e ∈ dir → (e.name ∈ rotatedNames os dbFilename dir ↔
      e ∈ rotatedAway dbFilename (os.order dir.rows)) := by
    intro he
    rw [rotatedNames, List.mem_map]
    refine ⟨?_, fun h => ⟨e, h, rfl⟩⟩
    rintro ⟨e', he', hsame⟩
    have hmem : e' ∈ dir := (os.perm _).mem_iff.mp
      (List.mem_of_mem_filter (Retention.mem_of_mem_dropped _ he'))
    rwa [← dir.eq_of_key_eq hmem he hsame]
  have hself := hfind e.name
  refine ⟨fun he => ?_, fun he => ?_⟩
  · rw [KeyedTable.find?_eq_some.mpr ⟨he, rfl⟩] at hself
    split at hself
    · cases hself
    · next hkept =>
      have hdir := (KeyedTable.find?_eq_some.mp hself.symm).1
      exact ⟨hdir, fun hgone => hkept ((hname hdir).mpr hgone)⟩
  · rw [if_neg fun hgone => he.2 ((hname he.1).mp hgone),
      KeyedTable.find?_eq_some.mpr ⟨he.1, rfl⟩] at hself
    exact (KeyedTable.find?_eq_some.mp hself).1

theorem keepsNewest_isBackupOf : KeepsNewest (isBackupOf dbFilename) 7 dir dir' where
  unchanged e he := ((mem_rotated_iff hfind).mp he).1
  others e he hother := by
    refine (mem_rotated_iff hfind).mpr ⟨he, fun hgone => ?_⟩
    have := List.of_mem_filter (Retention.mem_of_mem_dropped _ hgone)
    rw [hother] at this
    cases this
  count := by
    classical
    have hperm := (os.perm dir.rows).filter (isBackupOf dbFilename)
    have hnodup : (dir.rows.filter (isBackupOf dbFilename)).Nodup := dir.nodup.of_map.filter _
    have hkept := @Retention.length_kept _ FileEntry.modified 7
      ((os.order dir.rows).filter (isBackupOf dbFilename)) (fun e => decide (e ∈ dir'))
      (hperm.nodup_iff.mpr hnodup) fun e he => by
        have hdir : e ∈ dir := (os.perm _).mem_iff.mp (List.mem_of_mem_filter he)
        rw [decide_eq_true_eq, mem_rotated_iff hfind]
        exact ⟨fun h => h.2, fun h => ⟨hdir, h⟩⟩
    rw [hperm.length_eq] at hkept
    rw [← hkept]
    apply List.Perm.length_eq
    rw [List.perm_ext_iff_of_nodup (dir'.nodup.of_map.filter _)
      ((hperm.nodup_iff.mpr hnodup).filter _)]
    intro e
    rw [List.mem_filter, List.mem_filter, List.mem_filter, (os.perm dir.rows).mem_iff,
      decide_eq_true_eq]
    refine ⟨fun he => ⟨⟨((mem_rotated_iff hfind).mp he.1).1, he.2⟩, he.1⟩, fun he => ⟨he.2, he.1.2⟩⟩
  newest gone hgone hchosen hout kept hkept hchosen' := by
    have hdropped : gone ∈ rotatedAway dbFilename (os.order dir.rows) := by
      by_contra hstays
      exact hout ((mem_rotated_iff hfind).mpr ⟨hgone, hstays⟩)
    obtain ⟨hdir, hstays⟩ := (mem_rotated_iff hfind).mp hkept
    refine Retention.dropped_le_kept hdropped ?_ hstays
    exact List.mem_filter.mpr ⟨(os.perm _).mem_iff.mpr hdir, hchosen'⟩

end Rotate

/-! ### Against the form of the names -/

/-- The name that the code's test lets through. -/
def shortBackupName (dbFilename : String) : String := dbFilename ++ ".backup"

theorem not_isStampedBackup_short {e : FileEntry π} (h : e.name = shortBackupName dbFilename) :
    isStampedBackup dbFilename e = false := by
  rw [Bool.eq_false_iff]
  intro hstamped
  obtain ⟨middle, hname⟩ := isStampedBackup_iff.mp hstamped
  have hlength := congrArg String.length (h.symm.trans hname)
  simp only [shortBackupName, String.length_append, show ".".length = 1 from rfl,
    show ".backup".length = 7 from rfl] at hlength
  omega

section Exact

variable {dir dir' : Directory π} (hkept : KeepsNewest (isBackupOf dbFilename) 7 dir dir')

include hkept

theorem keepsNewest_of_absent (habsent : ∀ e ∈ dir, e.name ≠ shortBackupName dbFilename) :
    KeepsNewest (isStampedBackup dbFilename) 7 dir dir' := by
  have hsame : ∀ e ∈ dir, isBackupOf dbFilename e = isStampedBackup dbFilename e := by
    intro e he
    rw [Bool.eq_iff_iff, isBackupOf_iff]
    exact or_iff_left (habsent e he)
  have hfilter : dir.rows.filter (isBackupOf dbFilename) =
      dir.rows.filter (isStampedBackup dbFilename) := List.filter_congr hsame
  have hfilter' : dir'.rows.filter (isBackupOf dbFilename) =
      dir'.rows.filter (isStampedBackup dbFilename) :=
    List.filter_congr fun e he => hsame e (hkept.unchanged e he)
  exact {
    unchanged := hkept.unchanged
    others := fun e he hother => hkept.others e he (by rw [hsame e he, hother])
    count := by rw [← hfilter', hkept.count, hfilter]
    newest := fun gone hgone hchosen hout kept hin hchosen' =>
      hkept.newest gone hgone (by rw [hsame gone hgone, hchosen]) hout kept hin
        (by rw [hsame kept (hkept.unchanged kept hin), hchosen']) }

theorem mem_of_few (hfew : (dir.rows.filter (isBackupOf dbFilename)).length ≤ 7)
    {e : FileEntry π} (he : e ∈ dir) : e ∈ dir' := by
  cases hbackup : isBackupOf dbFilename e with
  | false => exact hkept.others e he hbackup
  | true =>
    have hsub : (dir'.rows.filter (isBackupOf dbFilename)).Subperm
        (dir.rows.filter (isBackupOf dbFilename)) := by
      refine List.subperm_of_subset (dir'.nodup.of_map.filter _) fun x hx => ?_
      rw [List.mem_filter] at hx ⊢
      exact ⟨hkept.unchanged x hx.1, hx.2⟩
    have hperm := hsub.perm_of_length_le (by rw [hkept.count, Nat.min_eq_left hfew])
    exact List.mem_of_mem_filter (hperm.mem_iff.mpr (List.mem_filter.mpr ⟨he, hbackup⟩))

omit hkept in
theorem length_isBackupOf {short : FileEntry π} (hshort : short ∈ dir)
    (hname : short.name = shortBackupName dbFilename) :
    (dir.rows.filter (isBackupOf dbFilename)).length =
      (dir.rows.filter (isStampedBackup dbFilename)).length + 1 := by
  have hnot := not_isStampedBackup_short hname
  have hperm : (dir.rows.filter (isBackupOf dbFilename)).Perm
      (short :: dir.rows.filter (isStampedBackup dbFilename)) := by
    have hout : short ∉ dir.rows.filter (isStampedBackup dbFilename) := by
      rw [List.mem_filter, hnot]
      exact fun h => Bool.false_ne_true h.2
    rw [List.perm_ext_iff_of_nodup (dir.nodup.of_map.filter _)
      (List.nodup_cons.mpr ⟨hout, dir.nodup.of_map.filter _⟩)]
    intro e
    rw [List.mem_filter, List.mem_cons, List.mem_filter, isBackupOf_iff]
    refine ⟨?_, ?_⟩
    · rintro ⟨he, hstamped | hsame⟩
      · exact .inr ⟨he, hstamped⟩
      · exact .inl (dir.eq_of_key_eq he hshort (hsame.trans hname.symm))
    · rintro (rfl | ⟨he, hstamped⟩)
      · exact ⟨hshort, .inr hname⟩
      · exact ⟨he, .inl hstamped⟩
  rw [hperm.length_eq, List.length_cons]

theorem keepsNewest_of_present {short : FileEntry π} (hshort : short ∈ dir)
    (hname : short.name = shortBackupName dbFilename) :
    KeepsNewest (isStampedBackup dbFilename) 7 dir dir' ↔
      (dir.rows.filter (isStampedBackup dbFilename)).length ≤ 6 := by
  have hcount := length_isBackupOf hshort hname
  refine ⟨fun hform => ?_, fun hfew => ?_⟩
  · have hstays : short ∈ dir' := hform.others short hshort (not_isStampedBackup_short hname)
    have hcount' := length_isBackupOf hstays hname
    rw [hkept.count, hform.count, hcount] at hcount'
    omega
  · have hall : ∀ e ∈ dir, e ∈ dir' := fun e he => mem_of_few hkept (by omega) he
    have hperm : dir'.rows.Perm dir.rows := by
      rw [List.perm_ext_iff_of_nodup dir'.nodup.of_map dir.nodup.of_map]
      exact fun e => ⟨hkept.unchanged e, hall e⟩
    exact {
      unchanged := hkept.unchanged
      others := fun e he _ => hall e he
      count := by
        rw [(hperm.filter _).length_eq]
        omega
      newest := fun gone hgone _ hout => absurd (hall gone hgone) hout }

end Exact

/-! ### A backup -/

theorem removeFiles_elsewhere {p q : FsPath} (h : q ≠ p.location) (entries : List (FileEntry π))
    (fs : FileSystem π) : (removeFiles p fs entries).1 q = fs q := by
  induction entries generalizing fs with
  | nil => rfl
  | cons entry entries ih =>
    rw [removeFiles]
    cases hremove : fs.removeFile (p.child entry.name) with
    | error e => rfl
    | ok fs' =>
      simp only
      rw [ih]
      simp only [FileSystem.removeFile, Outcome.bind_eq_ok] at hremove
      obtain ⟨-, -, hchange⟩ := hremove
      cases hdir : fs p.location with
      | none =>
        rw [FileSystem.change_child_none hdir] at hchange
        cases hchange
      | some dir =>
        rw [FileSystem.change_child hdir] at hchange
        cases hchange
        exact Function.update_of_ne h _ _

section Backup

variable {os : ReadOrder π} {m : WriteTime} {pages : List π} {url path : String}
  {fs fs' : FileSystem π}

theorem vacuumInto_of_backupDb (h : backupDb os m pages url fs = (fs', .ok path)) :
    strContains "'" (backupPathText (extractDbPath url) m.stamp) = false ∧
      ∃ written, vacuumInto m pages (backupPathText (extractDbPath url) m.stamp) fs =
        .ok written := by
  rw [backupDb] at h
  cases hquote : strContains "'" (backupPathText (extractDbPath url) m.stamp) with
  | true =>
    simp only [hquote, if_true] at h
    cases h
  | false =>
    cases hvacuum : vacuumInto m pages (backupPathText (extractDbPath url) m.stamp) fs with
    | error e =>
      simp only [hquote, Bool.false_eq_true, if_false, hvacuum, Outcome.proceed_error] at h
      cases h
    | ok written => exact ⟨rfl, written, rfl⟩

def SameAt (q : FsPath) (fs s : FileSystem π) : Prop := s q = fs q

theorem backupDb_elsewhere (os : ReadOrder π) (m : WriteTime) (pages : List π)
    (hfile : isFilePath (extractDbPath url) = true) (fs : FileSystem π) {q : FsPath}
    (hq : q ≠ (dirOf (extractDbPath url)).location) :
    SameAt q fs (backupDb os m pages url fs).1 := by
  rw [backupDb]
  split
  · rfl
  · refine Outcome.proceed_rule rfl fun written hvacuum => ?_
    obtain ⟨dir, -, rfl⟩ := vacuumInto_ok hfile hvacuum
    have hwritten : SameAt q fs (fs.setDirectory (dirOf (extractDbPath url))
        (dir.upsert (backupEntry (baseName (extractDbPath url)) m pages))) :=
      Function.update_of_ne hq _ _
    refine Outcome.proceed_rule hwritten fun name _ =>
      Outcome.proceed_rule hwritten fun entries _ => ?_
    have hremoved := removeFiles_elsewhere hq (rotatedAway name entries)
      (fs.setDirectory (dirOf (extractDbPath url))
        (dir.upsert (backupEntry (baseName (extractDbPath url)) m pages)))
    rw [rotatedDir_file hfile]
    generalize removeFiles (dirOf (extractDbPath url)) _ _ = result at hremoved ⊢
    obtain ⟨left, removed⟩ := result
    have hsame : SameAt q fs left := hremoved.trans hwritten
    cases removed with
    | ok u => exact hsame
    | error e => exact hsame

/-- **A backup and its rotation.**  The seven newest files `{db}.*.backup` are left, the new
    one among them, and nothing else is removed. -/
def KeepsSevenNewest (m : WriteTime) (pages : List π) (text : String) (dir : Directory π)
    (fs fs' : FileSystem π) : Prop :=
  (∃ dir', fs' (dirOf text).location = some dir' ∧
    backupEntry (baseName text) m pages ∈ dir' ∧
    KeepsNewest (isStampedBackup (baseName text)) 7
      (dir.upsert (backupEntry (baseName text) m pages)) dir') ∧
  ∀ q, q ≠ (dirOf text).location → fs' q = fs q

theorem KeepsSevenNewest.keepsNewest {text : String} {dir dir' : Directory π}
    (h : KeepsSevenNewest m pages text dir fs fs') (hdir' : fs' (dirOf text).location = some dir') :
    KeepsNewest (isStampedBackup (baseName text)) 7
      (dir.upsert (backupEntry (baseName text) m pages)) dir' := by
  obtain ⟨⟨dir₂, hdir₂, -, hkept⟩, -⟩ := h
  rw [hdir'] at hdir₂
  cases hdir₂
  exact hkept

theorem newest_survives {dir dir' : Directory π}
    (hnewest : ∀ e ∈ dir, isBackupOf dbFilename e = true →
      e.name ≠ backupName dbFilename m.stamp → e.modified < m.modified)
    (hfind : ∀ name, dir'.find? name =
      if name ∈ rotatedNames os dbFilename (dir.upsert (backupEntry dbFilename m pages)) then none
      else (dir.upsert (backupEntry dbFilename m pages)).find? name) :
    backupEntry dbFilename m pages ∈ dir' := by
  have hnone : dir.rows.filter (isNewerBackup dbFilename m) = [] := by
    rw [List.filter_eq_nil_iff]
    intro e he hnewer
    simp only [isNewerBackup, Bool.and_eq_true, bne_iff_ne, decide_eq_true_eq] at hnewer
    exact absurd (hnewest e he hnewer.1 hnewer.2.1) (Nat.not_lt.mpr hnewer.2.2)
  have hfound := hfind (backupName dbFilename m.stamp)
  rw [if_neg (survives_of_few os (by rw [hnone]; exact Nat.succ_pos 6)), KeyedTable.find?_upsert]
    at hfound
  simp only [backupEntry, if_true] at hfound
  exact (KeyedTable.find?_eq_some.mp hfound).1

/-- The backups besides the new one. -/
def otherBackups (m : WriteTime) (text : String) (dir : Directory π) : List (FileEntry π) :=
  dir.rows.filter fun e => isStampedBackup (baseName text) e &&
    e.name != backupName (baseName text) m.stamp

theorem shortBackupName_ne (m : WriteTime) : shortBackupName dbFilename ≠
    backupName dbFilename m.stamp := by
  intro h
  have hlength := congrArg String.length h
  simp only [shortBackupName, backupName, String.length_append, m.stamp.length,
    show ".".length = 1 from rfl, show ".backup".length = 7 from rfl] at hlength
  omega

theorem isStampedBackup_backupEntry (m : WriteTime) (pages : List π) :
    isStampedBackup dbFilename (backupEntry dbFilename m pages) = true := by
  refine isStampedBackup_iff.mpr ⟨m.stamp.text, ?_⟩
  simp only [backupEntry, backupName, String.append_assoc]

theorem length_stamped_upsert (m : WriteTime) (pages : List π) (text : String)
    (dir : Directory π) :
    ((dir.upsert (backupEntry (baseName text) m pages)).rows.filter
      (isStampedBackup (baseName text))).length = (otherBackups m text dir).length + 1 := by
  have hrows : (dir.upsert (backupEntry (baseName text) m pages)).rows =
      dir.rows.filter (fun e => !decide (e.name = backupName (baseName text) m.stamp)) ++
        [backupEntry (baseName text) m pages] := rfl
  rw [hrows, List.filter_append, List.filter_cons_of_pos (isStampedBackup_backupEntry m pages),
    List.filter_nil, List.length_append, List.length_singleton, List.filter_filter, otherBackups]
  rfl

/-- **When a backup keeps the newest seven.** -/
theorem rotation_keeps_newest_iff {dir : Directory π}
    (hfile : isFilePath (extractDbPath url) = true)
    (hparent : (dirOf (extractDbPath url)).isEmpty = false)
    (hdir : fs (dirOf (extractDbPath url)).location = some dir)
    (hnewest : ∀ e ∈ dir, isBackupOf (baseName (extractDbPath url)) e = true →
      e.name ≠ backupName (baseName (extractDbPath url)) m.stamp → e.modified < m.modified)
    (hrun : backupDb os m pages url fs = (fs', .ok path)) :
    KeepsSevenNewest m pages (extractDbPath url) dir fs fs' ↔
      (∀ e ∈ dir, e.name ≠ shortBackupName (baseName (extractDbPath url))) ∨
        (otherBackups m (extractDbPath url) dir).length ≤ 5 := by
  obtain ⟨hquote, written, hvacuum⟩ := vacuumInto_of_backupDb hrun
  obtain ⟨dir₁, hdir₁, rfl⟩ := vacuumInto_ok hfile hvacuum
  rw [hdir] at hdir₁
  cases hdir₁
  obtain ⟨fs₁, dir', hrun', hdir', hfind⟩ := backupDb_of_dir os hfile hquote hvacuum hparent
  rw [hrun] at hrun'
  cases hrun'
  have hshort : ∀ e, e ∈ dir.upsert (backupEntry (baseName (extractDbPath url)) m pages) ∧
      e.name = shortBackupName (baseName (extractDbPath url)) ↔
      e ∈ dir ∧ e.name = shortBackupName (baseName (extractDbPath url)) := by
    intro e
    rw [KeyedTable.mem_upsert]
    refine ⟨?_, fun he => ⟨.inl ⟨he.1, fun h => ?_⟩, he.2⟩⟩
    · rintro ⟨⟨he, -⟩ | rfl, hname⟩
      · exact ⟨he, hname⟩
      · exact absurd hname.symm (shortBackupName_ne m)
    · exact absurd (he.2.symm.trans h) (shortBackupName_ne m)
  have hkept := keepsNewest_isBackupOf hfind
  have hnew := newest_survives hnewest hfind
  have helsewhere : ∀ q, q ≠ (dirOf (extractDbPath url)).location → fs' q = fs q := by
    intro q hq
    have := backupDb_elsewhere os m pages hfile fs hq
    rwa [hrun] at this
  have hexact : KeepsSevenNewest m pages (extractDbPath url) dir fs fs' ↔
      KeepsNewest (isStampedBackup (baseName (extractDbPath url))) 7
        (dir.upsert (backupEntry (baseName (extractDbPath url)) m pages)) dir' :=
    ⟨fun h => h.keepsNewest hdir', fun h => ⟨⟨dir', hdir', hnew, h⟩, helsewhere⟩⟩
  rw [hexact]
  by_cases habsent : ∀ e ∈ dir, e.name ≠ shortBackupName (baseName (extractDbPath url))
  · refine iff_of_true (keepsNewest_of_absent hkept fun e he hname => ?_) (.inl habsent)
    exact habsent e ((hshort e).mp ⟨he, hname⟩).1 hname
  · rw [or_iff_right habsent]
    push Not at habsent
    obtain ⟨short, hmem, hname⟩ := habsent
    rw [keepsNewest_of_present hkept ((hshort short).mpr ⟨hmem, hname⟩).1 hname,
      length_stamped_upsert]
    exact Nat.succ_le_succ_iff

end Backup

/-! ### A copy that is taken for a backup -/

/-- A directory of empty databases. -/
def sampleDirectory (names : List String) (h : names.Nodup) : Directory Nat where
  rows := names.map fun name => { name := name, modified := 0, content := .database [] }
  nodup := by simpa [Function.comp_def] using h

/-- Six backups, and a copy of the database. -/
def copiedDirectory : Directory Nat :=
  sampleDirectory ["peanut.db.backup", "peanut.db.1.backup", "peanut.db.2.backup",
    "peanut.db.3.backup", "peanut.db.4.backup", "peanut.db.5.backup", "peanut.db.6.backup"]
    (by decide)

def sampleFiles (dir : Directory Nat) : FileSystem Nat := fun q =>
  if q = (dirOf "/data/peanut.db").location then some dir else none

abbrev sampleUrl : String := "sqlite:///data/peanut.db"

theorem sampleUrl_path : extractDbPath sampleUrl = "/data/peanut.db" := by decide +kernel

theorem sampleFiles_data (dir : Directory Nat) :
    sampleFiles dir (dirOf (extractDbPath sampleUrl)).location = some dir := by
  rw [sampleUrl_path]
  exact if_pos rfl

theorem sample_isFilePath : isFilePath (extractDbPath sampleUrl) = true := by decide +kernel

theorem sample_parent : (dirOf (extractDbPath sampleUrl)).isEmpty = false := by decide +kernel

theorem sample_backup (os : ReadOrder Nat) {dir : Directory Nat}
    (hfree : dir.find? (backupName (baseName (extractDbPath sampleUrl)) sampleTime.stamp) = none) :
    ∃ fs' dir', backupDb os sampleTime [0] sampleUrl (sampleFiles dir) =
        (fs', .ok (backupPathText (extractDbPath sampleUrl) sampleTime.stamp)) ∧
      fs' (dirOf (extractDbPath sampleUrl)).location = some dir' ∧
      ∀ name, dir'.find? name =
        if name ∈ rotatedNames os (baseName (extractDbPath sampleUrl))
            (dir.upsert (backupEntry (baseName (extractDbPath sampleUrl)) sampleTime [0])) then none
        else (dir.upsert (backupEntry (baseName (extractDbPath sampleUrl)) sampleTime [0])).find?
          name :=
  backupDb_of_dir os sample_isFilePath (by decide +kernel)
    (vacuumInto_free sample_isFilePath (sampleFiles_data dir) hfree [0]) sample_parent

/-- The database, eight backups of it, each newer than the one before, and a file of
    another database. -/
def eightBackups : Directory Nat where
  rows :=
    [⟨"peanut.db", 9, .database []⟩, ⟨"peanut.db.1.backup", 1, .database []⟩,
      ⟨"peanut.db.2.backup", 2, .database []⟩, ⟨"peanut.db.3.backup", 3, .database []⟩,
      ⟨"peanut.db.4.backup", 4, .database []⟩, ⟨"peanut.db.5.backup", 5, .database []⟩,
      ⟨"peanut.db.6.backup", 6, .database []⟩, ⟨"peanut.db.7.backup", 7, .database []⟩,
      ⟨"peanut.db.8.backup", 8, .database []⟩, ⟨"walnut.db.1.backup", 0, .database []⟩]
  nodup := by decide

/-- The ninth backup: the two oldest go, and the others stay. -/
theorem ninth_backup_rotated :
    ∃ fs' path dir', backupDb (ReadOrder.front Nat "") sampleTime [0] sampleUrl
        (sampleFiles eightBackups) = (fs', .ok path) ∧
      KeepsSevenNewest sampleTime [0] (extractDbPath sampleUrl) eightBackups
        (sampleFiles eightBackups) fs' ∧
      fs' (dirOf (extractDbPath sampleUrl)).location = some dir' ∧
      (∀ name ∈ ["peanut.db.1.backup", "peanut.db.2.backup"], dir'.find? name = none) ∧
      ∀ name ∈ ["peanut.db", "peanut.db.3.backup", "walnut.db.1.backup"],
        (dir'.find? name).isSome = true := by
  have hbase : baseName (extractDbPath sampleUrl) = "peanut.db" := by decide +kernel
  have hold : ∀ e ∈ eightBackups, e.modified < sampleTime.modified := by decide
  have hfree : eightBackups.find?
      (backupName (baseName (extractDbPath sampleUrl)) sampleTime.stamp) = none := by
    rw [hbase]
    decide +kernel
  have haway : rotatedNames (ReadOrder.front Nat "") "peanut.db"
      (eightBackups.upsert (backupEntry "peanut.db" sampleTime [0])) =
        ["peanut.db.1.backup", "peanut.db.2.backup"] := by
    rw [rotatedNames, rotatedAway, Retention.dropped_of_pairwise]
    · decide +kernel
    · decide +kernel
  obtain ⟨fs', dir', hrun, hdir', hfind⟩ := sample_backup (ReadOrder.front Nat "") hfree
  rw [hbase, haway] at hfind
  refine ⟨fs', _, dir', hrun, ?_, hdir', ?_, ?_⟩
  · -- no file is called `peanut.db.backup`
    refine (rotation_keeps_newest_iff sample_isFilePath sample_parent (sampleFiles_data _)
      (fun e he _ _ => hold e he) hrun).mpr (.inl ?_)
    rw [hbase]
    decide +kernel
  · intro name hname
    rw [hfind, if_pos hname]
  · simp only [hfind]
    decide +kernel

/-- The copy is counted, and one backup too many is removed, or the copy itself. -/
theorem copy_taken_for_backup :
    (∀ e ∈ copiedDirectory, e.modified < sampleTime.modified) ∧
    ∃ fs' path, backupDb (ReadOrder.front Nat "") sampleTime [0] sampleUrl
        (sampleFiles copiedDirectory) = (fs', .ok path) ∧
      ¬ KeepsSevenNewest sampleTime [0] (extractDbPath sampleUrl) copiedDirectory
        (sampleFiles copiedDirectory) fs' := by
  have hbase : baseName (extractDbPath sampleUrl) = "peanut.db" := by decide +kernel
  have hold : ∀ e ∈ copiedDirectory, e.modified < sampleTime.modified := by decide
  have hfree : copiedDirectory.find?
      (backupName (baseName (extractDbPath sampleUrl)) sampleTime.stamp) = none := by
    rw [hbase]
    decide +kernel
  obtain ⟨fs', dir', hrun, hdir', hfind⟩ := sample_backup (ReadOrder.front Nat "") hfree
  refine ⟨hold, fs', _, hrun, fun hkeeps => ?_⟩
  have hcopy : (⟨"peanut.db.backup", 0, .database []⟩ : FileEntry Nat) ∈ copiedDirectory.upsert
      (backupEntry (baseName (extractDbPath sampleUrl)) sampleTime [0]) := by
    rw [hbase]
    exact KeyedTable.mem_upsert.mpr (.inl ⟨List.mem_cons_self, by decide +kernel⟩)
  have hseven := (keepsNewest_of_present (keepsNewest_isBackupOf hfind) hcopy
    (by rw [hbase]; decide +kernel)).mp (hkeeps.keepsNewest hdir')
  rw [length_stamped_upsert, otherBackups, hbase] at hseven
  exact absurd hseven (by decide +kernel)

end Peanut
