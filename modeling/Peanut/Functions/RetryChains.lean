import Peanut.Functions.KeyPolicy
import Peanut.Functions.Retries

/-!
# Retry chains

A retry names the invocation it repeats, and nothing in the database says that the
links lead anywhere.  What holds in every run is `Chained`: the parent of a stored
invocation is stored, belongs to the same function, and was retried once less.  So
the retries form a forest in which `retry_count` is the distance to the root.
-/

namespace Peanut

open Relational Interleaving

/-! ### Links -/

/-- What a chain is made of; the rest of a row changes when the invocation ends. -/
structure Lineage where
  id : String
  functionId : String
  retryCount : Int
  parentInvocationId : Option String

def FunctionInvocation.lineage (i : FunctionInvocation) : Lineage :=
  ⟨i.id, i.functionId, i.retryCount, i.parentInvocationId⟩

/-- `root` is where the chain of `i` starts, `n` retries earlier. -/
abbrev RootOf (db : Db) (i root : FunctionInvocation) (n : Nat) : Prop :=
  Forest.RootAt FunctionInvocation.id FunctionInvocation.parentInvocationId
    db.functionInvocations.rows i root n

/-- The parent of an invocation is there, and has been retried once less. -/
structure Chained (db : Db) : Prop where
  owned : ∀ i ∈ db.functionInvocations, db.functions.hasKey i.functionId = true
  first : ∀ i ∈ db.functionInvocations, i.parentInvocationId = none → i.retryCount = 0
  retried : ∀ i ∈ db.functionInvocations, ∀ k, i.parentInvocationId = some k →
    ∃ j ∈ db.functionInvocations, j.id = k ∧ j.functionId = i.functionId ∧ 0 ≤ j.retryCount ∧
      i.retryCount = j.retryCount + 1

namespace Chained

variable {db : Db} {i j root : FunctionInvocation} {n : Nat}

theorem nonneg (h : Chained db) (hi : i ∈ db.functionInvocations) : 0 ≤ i.retryCount := by
  rcases hparent : i.parentInvocationId with _ | k
  · exact Int.le_of_eq (h.first i hi hparent).symm
  · obtain ⟨j, -, -, -, hj, hcount⟩ := h.retried i hi k hparent
    omega

theorem same_function (h : Chained db) (hi : i ∈ db.functionInvocations)
    (hj : j ∈ db.functionInvocations) (hlink : i.parentInvocationId = some j.id) :
    i.functionId = j.functionId := by
  obtain ⟨j', hj', hid, hfunction, -, -⟩ := h.retried i hi j.id hlink
  obtain rfl := db.functionInvocations.eq_of_key_eq hj' hj hid
  exact hfunction.symm

theorem graded (h : Chained db) :
    Forest.Graded FunctionInvocation.id FunctionInvocation.parentInvocationId
      db.functionInvocations.rows fun i => i.retryCount.toNat where
  keys := db.functionInvocations.nodup
  top i hi hparent := by rw [h.first i hi hparent, Int.toNat_zero]
  link i hi k hparent := by
    obtain ⟨j, hj, hid, -, hnonneg, hcount⟩ := h.retried i hi k hparent
    refine ⟨j, hj, hid, ?_⟩
    omega

theorem functionId_of_climbs (h : Chained db) (hi : i ∈ db.functionInvocations)
    (hclimbs : Forest.Climbs FunctionInvocation.id FunctionInvocation.parentInvocationId
      db.functionInvocations.rows root i n) : i.functionId = root.functionId := by
  induction hclimbs with
  | here => rfl
  | up hy hlink _ ih => exact (h.same_function hi hy hlink).trans (ih hy)

/-! ### Up to the root -/

theorem climbToRoot_eq (h : Chained db) (hi : i ∈ db.functionInvocations)
    (hroot : RootOf db i root n) {fuel : Nat} (hfuel : n < fuel) :
    climbToRoot db i.functionId fuel i = some (.ok root.id) := by
  obtain ⟨hclimbs, -, htop⟩ := hroot
  induction hclimbs generalizing fuel with
  | here =>
    obtain ⟨fuel, rfl⟩ : ∃ k, fuel = k + 1 := ⟨fuel - 1, by omega⟩
    simp only [climbToRoot, htop]
  | @up i j n hj hlink _ ih =>
    obtain ⟨fuel, rfl⟩ : ∃ k, fuel = k + 1 := ⟨fuel - 1, by omega⟩
    have hfunction := h.same_function hi hj hlink
    have hload : loadInvocation db i.functionId j.id = .ok j :=
      loadInvocation_eq_ok.mpr ⟨hj, hfunction.symm, rfl⟩
    simp only [climbToRoot, hlink, hload]
    rw [hfunction]
    exact ih hj (by omega)

/-- **The loop ends** at the root. -/
theorem findRootInvocationId_eq (h : Chained db) (hi : i ∈ db.functionInvocations)
    (hroot : RootOf db i root n) {fuel : Nat} (hfuel : n < fuel) :
    findRootInvocationId fuel db i.functionId i.id = some (.ok root.id) := by
  have hload : loadInvocation db i.functionId i.id = .ok i :=
    loadInvocation_eq_ok.mpr ⟨hi, rfl, rfl⟩
  rw [findRootInvocationId, hload]
  exact h.climbToRoot_eq hi hroot hfuel

/-! ### Down to the attempts -/

theorem isChildren_nextAttempts (h : Chained db) (hi : i ∈ db.functionInvocations) :
    Forest.IsChildren FunctionInvocation.id FunctionInvocation.parentInvocationId
      db.functionInvocations.rows i (nextAttempts db i.functionId i) := by
  refine ⟨h.graded.nodup.filter _, fun c => ?_⟩
  rw [nextAttempts, KeyedTable.mem_select, Bool.and_eq_true, beq_iff_eq, beq_iff_eq]
  constructor
  · rintro ⟨hc, hlink, -⟩
    exact ⟨hc, hlink⟩
  · rintro ⟨hc, hlink⟩
    exact ⟨hc, hlink, h.same_function hc hi hlink⟩

theorem select_root (h : Chained db) (hroot : root ∈ db.functionInvocations) :
    (db.functionInvocations.select fun i =>
      i.functionId == root.functionId && i.id == root.id) = [root] := by
  have hnodup : (db.functionInvocations.select fun i =>
      i.functionId == root.functionId && i.id == root.id).Nodup := h.graded.nodup.filter _
  rw [← List.perm_singleton, List.perm_ext_iff_of_nodup hnodup (List.nodup_singleton root)]
  intro i
  rw [KeyedTable.mem_select, List.mem_singleton, Bool.and_eq_true, beq_iff_eq, beq_iff_eq]
  constructor
  · rintro ⟨hi, -, hid⟩
    exact db.functionInvocations.eq_of_key_eq hi hroot hid
  · rintro rfl
    exact ⟨hroot, rfl, rfl⟩

/-- **The query ends** with the tree of the root. -/
theorem attemptChain_eq (h : Chained db) (hroot : root ∈ db.functionInvocations)
    (htop : root.parentInvocationId = none) :
    ∃ attempts, (∀ fuel ≥ db.functionInvocations.rows.length,
        attemptChain fuel db root.functionId root.id = some attempts) ∧ attempts.Nodup ∧
      ∀ i, i ∈ attempts ↔ i ∈ db.functionInvocations ∧ ∃ n, RootOf db i root n := by
  simp only [attemptChain, h.select_root hroot]
  refine Forest.visit_tree h.graded hroot htop fun i hi n hclimbs => ?_
  rw [← h.functionId_of_climbs hi hclimbs]
  exact h.isChildren_nextAttempts hi

end Chained

/-! ### The order of the attempts -/

theorem attemptLe_trans (i j k : FunctionInvocation) (hij : attemptLe i j = true)
    (hjk : attemptLe j k = true) : attemptLe i k = true := by
  simp only [attemptLe, Bool.or_eq_true, Bool.and_eq_true, decide_eq_true_iff,
    Bool.not_eq_true'] at hij hjk ⊢
  rcases hij with hij | ⟨hij, hij'⟩
  · rcases hjk with hjk | ⟨hjk, -⟩
    · exact .inl (Int.lt_trans hij hjk)
    · exact .inl (hjk ▸ hij)
  · rcases hjk with hjk | ⟨hjk, hjk'⟩
    · exact .inl (hij ▸ hjk)
    · exact .inr ⟨hij.trans hjk, strLt_false_trans hij' hjk'⟩

theorem attemptLe_total (i j : FunctionInvocation) : (attemptLe i j || attemptLe j i) = true := by
  simp only [attemptLe, Bool.or_eq_true, Bool.and_eq_true, decide_eq_true_iff, Bool.not_eq_true']
  rcases Int.lt_trichotomy i.retryCount j.retryCount with hlt | heq | hgt
  · exact .inl (.inl hlt)
  · rcases hcreated : strLt j.createdAt i.createdAt with _ | _
    · exact .inl (.inr ⟨heq, rfl⟩)
    · exact .inr (.inr ⟨heq.symm, strLt_asymm hcreated⟩)
  · exact .inr (.inl hgt)

theorem pairwise_attempts (attempts : List FunctionInvocation) :
    (attempts.mergeSort attemptLe).Pairwise fun i j => i.retryCount ≤ j.retryCount := by
  refine (List.pairwise_mergeSort attemptLe_trans attemptLe_total attempts).imp ?_
  intro i j hle
  simp only [attemptLe, Bool.or_eq_true, Bool.and_eq_true, decide_eq_true_iff] at hle
  rcases hle with hlt | ⟨heq, -⟩
  · exact Int.le_of_lt hlt
  · exact Int.le_of_eq heq

/-! ### What is to hold -/

/-- The attempts at an invocation: those with its root, each once, in the order of
    their count. -/
structure IsAttempts (db : Db) (i : FunctionInvocation) (attempts : List FunctionInvocation) :
    Prop where
  nodup : attempts.Nodup
  same_root : ∀ j, j ∈ attempts ↔
    j ∈ db.functionInvocations ∧ ∃ root m n, RootOf db i root m ∧ RootOf db j root n
  ordered : attempts.Pairwise fun j k => j.retryCount ≤ k.retryCount

/-- **Retry chains are well founded.** -/
structure ChainsWellFounded (db : Db) : Prop where
  root : ∀ i ∈ db.functionInvocations, ∃ root n, RootOf db i root n ∧
    ∃ enough, ∀ fuel ≥ enough, findRootInvocationId fuel db i.functionId i.id = some (.ok root.id)
  distance : ∀ i ∈ db.functionInvocations, ∀ root n, RootOf db i root n → i.retryCount = n
  attempts : ∀ i ∈ db.functionInvocations, ∀ (claims : Claims) name f, claims.isAdmin = true →
    loadFunctionByName db claims.appId name = some f → i.functionId = f.id →
      ∃ attempts, IsAttempts db i attempts ∧ ∃ enough, ∀ fuel ≥ enough,
        listFunctionInvocationAttempts fuel db claims name i.id =
          some (.ok { status := .ok, body := attempts })

theorem IsAttempts.mergeSort {db : Db} (h : Chained db) {i root : FunctionInvocation} {n : Nat}
    (hroot : RootOf db i root n) {found : List FunctionInvocation} (hnodup : found.Nodup)
    (hfound : ∀ j, j ∈ found ↔ j ∈ db.functionInvocations ∧ ∃ n, RootOf db j root n) :
    IsAttempts db i (found.mergeSort attemptLe) where
  nodup := (List.mergeSort_perm found attemptLe).nodup_iff.mpr hnodup
  same_root j := by
    rw [List.mem_mergeSort, hfound]
    refine and_congr_right fun _ => ⟨?_, ?_⟩
    · rintro ⟨m, hj⟩
      exact ⟨root, n, m, hroot, hj⟩
    · rintro ⟨root', m, m', hi, hj⟩
      obtain ⟨rfl, -⟩ := hroot.unique h.graded hi
      exact ⟨m', hj⟩
  ordered := pairwise_attempts found

theorem Chained.listFunctionInvocationAttempts_eq {db : Db} (h : Chained db)
    {i : FunctionInvocation} (hi : i ∈ db.functionInvocations) {claims : Claims} {name : String}
    {f : FunctionDetail} (hadmin : claims.isAdmin = true)
    (hname : loadFunctionByName db claims.appId name = some f) (hfunction : i.functionId = f.id) :
    ∃ attempts, IsAttempts db i attempts ∧ ∃ enough, ∀ fuel ≥ enough,
      listFunctionInvocationAttempts fuel db claims name i.id =
        some (.ok { status := .ok, body := attempts }) := by
  obtain ⟨root, hroot⟩ := h.graded.rootAt hi
  obtain ⟨found, hchain, hnodup, hfound⟩ := h.attemptChain_eq hroot.mem hroot.top
  refine ⟨found.mergeSort attemptLe, .mergeSort h hroot hnodup hfound,
    max (i.retryCount.toNat + 1) db.functionInvocations.rows.length, fun fuel hfuel => ?_⟩
  have hsame : f.id = root.functionId := by
    rw [← hfunction]
    exact h.functionId_of_climbs hi hroot.climbs
  have hfind : findRootInvocationId fuel db f.id i.id = some (.ok root.id) := by
    rw [← hfunction]
    exact h.findRootInvocationId_eq hi hroot (by omega)
  have hchain' : attemptChain fuel db f.id root.id = some found := by
    rw [hsame]
    exact hchain fuel (by omega)
  have hload : (do
      requireAdmin claims
      Outcome.require (loadFunctionByName db claims.appId name)
        (jsonError .notFound "function not found")) = .ok f := by
    rw [requireAdmin, hadmin, hname]
    rfl
  simp only [listFunctionInvocationAttempts, hload, hfind, hchain', Option.bind_eq_bind,
    Option.bind_some, Option.pure_def]

theorem Chained.wellFounded {db : Db} (h : Chained db) : ChainsWellFounded db where
  root i hi := by
    obtain ⟨root, hroot⟩ := h.graded.rootAt hi
    exact ⟨root, _, hroot, _, fun fuel hfuel => h.findRootInvocationId_eq hi hroot hfuel⟩
  distance i hi root n hroot := by
    have hgrade : i.retryCount.toNat = n := hroot.grade_eq h.graded hi
    have hnonneg := h.nonneg hi
    omega
  attempts i hi _ _ _ hadmin hname hfunction :=
    h.listFunctionInvocationAttempts_eq hi hadmin hname hfunction

/-! ### What other requests do -/

/-- No invocation of a function that stays is deleted. -/
def KeepsAttempts (db db' : Db) : Prop :=
  ∀ i ∈ db.functionInvocations, db'.functions.hasKey i.functionId = true →
    ∃ j ∈ db'.functionInvocations, j.lineage = i.lineage

/-- Chains are left alone: what is new starts a chain. -/
structure LeavesChains (db db' : Db) : Prop where
  owned : ∀ i ∈ db'.functionInvocations, db'.functions.hasKey i.functionId = true
  added : ∀ i ∈ db'.functionInvocations,
    (∃ j ∈ db.functionInvocations, j.lineage = i.lineage) ∨
      (i.parentInvocationId = none ∧ i.retryCount = 0)
  kept : KeepsAttempts db db'

theorem LeavesChains.chained {db db' : Db} (h : LeavesChains db db') (hchained : Chained db) :
    Chained db' where
  owned := h.owned
  first i hi hparent := by
    rcases h.added i hi with ⟨j, hj, hsame⟩ | ⟨-, hcount⟩
    · have hparent' := congrArg Lineage.parentInvocationId hsame
      have hcount := congrArg Lineage.retryCount hsame
      exact hcount.symm.trans (hchained.first j hj (hparent'.trans hparent))
    · exact hcount
  retried i hi k hparent := by
    rcases h.added i hi with ⟨i', hi', hsame⟩ | ⟨hnone, -⟩
    · have hparent' := congrArg Lineage.parentInvocationId hsame
      have hcount : i'.retryCount = i.retryCount := congrArg Lineage.retryCount hsame
      have hfunction : i'.functionId = i.functionId := congrArg Lineage.functionId hsame
      obtain ⟨j, hj, hid, hj', hnonneg, hcount'⟩ :=
        hchained.retried i' hi' k (hparent'.trans hparent)
      have hstays : db'.functions.hasKey j.functionId = true := by
        rw [hj', hfunction]
        exact h.owned i hi
      obtain ⟨j', hmem, hsame'⟩ := h.kept j hj hstays
      have hid' : j'.id = j.id := congrArg Lineage.id hsame'
      have hfunction' : j'.functionId = j.functionId := congrArg Lineage.functionId hsame'
      have hcount'' : j'.retryCount = j.retryCount := congrArg Lineage.retryCount hsame'
      refine ⟨j', hmem, hid'.trans hid, hfunction'.trans (hj'.trans hfunction), ?_, ?_⟩
      · rw [hcount'']
        exact hnonneg
      · rw [hcount'', ← hcount', hcount]
    · rw [hnone] at hparent
      cases hparent

theorem Chained.leavesChains_of_eq {db db' : Db} (h : Chained db)
    (hfunctions : ∀ id, db.functions.hasKey id = true → db'.functions.hasKey id = true)
    (hinvocations : db'.functionInvocations = db.functionInvocations) : LeavesChains db db' where
  owned i hi := hfunctions _ (h.owned i (hinvocations ▸ hi))
  added i hi := .inl ⟨i, hinvocations ▸ hi, rfl⟩
  kept i hi _ := ⟨i, hinvocations ▸ hi, rfl⟩

section Insert

variable {db db' : Db} {i : FunctionInvocation}

theorem keepsAttempts_insert (hinsert : db.insertFunctionInvocation i = some db') :
    KeepsAttempts db db' := by
  obtain ⟨-, invocations, hins, rfl⟩ := Db.insertFunctionInvocation_eq_some.mp hinsert
  exact fun j hj _ => ⟨j, (KeyedTable.mem_insert? hins).mpr (.inl hj), rfl⟩

theorem owned_insert (h : Chained db) (hinsert : db.insertFunctionInvocation i = some db') :
    ∀ j ∈ db'.functionInvocations, db'.functions.hasKey j.functionId = true := by
  obtain ⟨hfunction, invocations, hins, rfl⟩ := Db.insertFunctionInvocation_eq_some.mp hinsert
  intro j hj
  rcases (KeyedTable.mem_insert? hins).mp hj with hj | rfl
  · exact h.owned j hj
  · exact hfunction

theorem Chained.leavesChains_insert (h : Chained db)
    (hinsert : db.insertFunctionInvocation i = some db') (hparent : i.parentInvocationId = none)
    (hcount : i.retryCount = 0) : LeavesChains db db' where
  owned := owned_insert h hinsert
  added j hj := by
    obtain ⟨-, invocations, hins, rfl⟩ := Db.insertFunctionInvocation_eq_some.mp hinsert
    rcases (KeyedTable.mem_insert? hins).mp hj with hj | rfl
    · exact .inl ⟨j, hj, rfl⟩
    · exact .inr ⟨hparent, hcount⟩
  kept := keepsAttempts_insert hinsert

theorem Chained.insert_retry (h : Chained db) (hinsert : db.insertFunctionInvocation i = some db')
    {j : FunctionInvocation} (hj : j ∈ db.functionInvocations)
    (hparent : i.parentInvocationId = some j.id) (hfunction : j.functionId = i.functionId)
    (hcount : i.retryCount = j.retryCount + 1) : Chained db' := by
  have howned := owned_insert h hinsert
  obtain ⟨-, invocations, hins, rfl⟩ := Db.insertFunctionInvocation_eq_some.mp hinsert
  refine ⟨howned, fun k hk hnone => ?_, fun k hk id hlink => ?_⟩
  · rcases (KeyedTable.mem_insert? hins).mp hk with hk | rfl
    · exact h.first k hk hnone
    · rw [hparent] at hnone
      cases hnone
  · rcases (KeyedTable.mem_insert? hins).mp hk with hk | rfl
    · obtain ⟨l, hl, hrest⟩ := h.retried k hk id hlink
      exact ⟨l, (KeyedTable.mem_insert? hins).mpr (.inl hl), hrest⟩
    · obtain rfl : j.id = id := Option.some.inj (hparent.symm.trans hlink)
      exact ⟨j, (KeyedTable.mem_insert? hins).mpr (.inl hj), rfl, hfunction, h.nonneg hj, hcount⟩

end Insert

theorem Chained.leavesChains_updateWhere {db : Db} (h : Chained db)
    (p : FunctionInvocation → Bool) {f : FunctionInvocation → FunctionInvocation}
    (hf : ∀ i, (f i).id = i.id) (hlineage : ∀ i, (f i).lineage = i.lineage) :
    LeavesChains db
      { db with functionInvocations := db.functionInvocations.updateWhere p f hf } := by
  have hsame : ∀ i : FunctionInvocation, (if p i then f i else i).lineage = i.lineage := by
    intro i
    split
    · exact hlineage i
    · rfl
  refine ⟨fun i hi => ?_, fun i hi => ?_, fun i hi _ => ?_⟩
  · obtain ⟨j, hj, rfl⟩ := (KeyedTable.mem_updateWhere hf).mp hi
    have hfunction : (if p j then f j else j).functionId = j.functionId :=
      congrArg Lineage.functionId (hsame j)
    rw [hfunction]
    exact h.owned j hj
  · obtain ⟨j, hj, rfl⟩ := (KeyedTable.mem_updateWhere hf).mp hi
    exact .inl ⟨j, hj, (hsame j).symm⟩
  · exact ⟨_, (KeyedTable.mem_updateWhere hf).mpr ⟨i, hi, rfl⟩, hsame i⟩

theorem Chained.leavesChains_deleteFunctions {db : Db} (h : Chained db)
    (p : FunctionDetail → Bool) : LeavesChains db (db.deleteFunctions p) where
  owned i hi := by
    obtain ⟨hi, hstays⟩ := KeyedTable.mem_deleteWhere.mp hi
    obtain ⟨f, hf, hid⟩ := KeyedTable.hasKey_iff.mp (h.owned i hi)
    refine KeyedTable.hasKey_iff.mpr ⟨f, KeyedTable.mem_deleteWhere.mpr ⟨hf, ?_⟩, hid⟩
    rw [← Bool.not_eq_true]
    exact fun hp => Db.functionGone_eq_false.mp hstays f hf hp hid
  added i hi := .inl ⟨i, (KeyedTable.mem_deleteWhere.mp hi).1, rfl⟩
  kept i hi hstays := by
    obtain ⟨f, hf, hid⟩ := KeyedTable.hasKey_iff.mp hstays
    refine ⟨i, KeyedTable.mem_deleteWhere.mpr ⟨hi, ?_⟩, rfl⟩
    rw [← hid]
    exact Db.functionGone_eq_false.mpr (Db.not_deleted_of_mem hf)

theorem Chained.leavesChains_recordUsage {db db' : Db} (h : LeavesChains db db') (env : Env)
    (workspaceId : String) (key : ResourceKey) (amount : Int) :
    LeavesChains db (recordUsage db' env workspaceId key amount) := by
  obtain ⟨counters, hcounters⟩ := recordUsage_frame db' env workspaceId key amount
  rw [hcounters]
  exact ⟨h.owned, h.added, h.kept⟩

/-- `invoke_function_by_id` is no retry either. -/
theorem Chained.leavesChains_queueFunctionInvocation {db : Db} (h : Chained db) (env : Env)
    (uuid appId : String) (function : FunctionDetail) (version : LoadedFunctionVersion)
    (input : Value) :
    LeavesChains db
      (queueFunctionInvocation db env uuid function version input appId 0 none).1 := by
  unfold queueFunctionInvocation
  refine Outcome.proceed_rule (P := fun db' => LeavesChains db db') ?_ ?_
  · exact h.leavesChains_of_eq (fun _ => id) rfl
  · intro started hstarted
    simp only [startFunctionInvocation, Outcome.bind_eq_ok, Outcome.require_eq_ok] at hstarted
    obtain ⟨workspaceId, -, db', hinsert, heq⟩ := hstarted
    cases heq
    exact leavesChains_recordUsage (h.leavesChains_insert hinsert rfl rfl) env workspaceId _ 1

/-! ### Calls in progress -/

theorem InvokeCall.step_store (pf : Platform) (env : Env) (db : Db) (c : InvokeCall) :
    ((c.step pf env db).1.functions = db.functions ∧
        (c.step pf env db).1.functionInvocations = db.functionInvocations) ∨
      ∃ function payload version,
        db.insertFunctionInvocation (c.request.invocation env function payload version) =
          some (c.step pf env db).1 := by
  obtain ⟨request, stage⟩ := c
  cases stage with
  | received | loaded function payload | admitted function payload
  | versionLoaded function payload version | counted function payload version workspaceId used =>
    left
    simp only [step]
    split
    · exact ⟨rfl, rfl⟩
    · exact ⟨rfl, rfl⟩
  | workspaceFound function payload version workspaceId => exact .inl ⟨rfl, rfl⟩
  | checked function payload version workspaceId =>
    simp only [step]
    split
    · exact .inl ⟨rfl, rfl⟩
    · next hinsert => exact .inr ⟨function, payload, version, hinsert⟩
  | inserted workspaceId id =>
    left
    simp only [step]
    obtain ⟨counters, hcounters⟩ :=
      recordUsage_frame db env workspaceId .functionInvocationsMonth 1
    rw [hcounters]
    exact ⟨rfl, rfl⟩
  | started id => exact .inl ⟨rfl, rfl⟩
  | refused e => exact .inl ⟨rfl, rfl⟩

theorem insertFunctionInvocation_functions {db db' : Db} {i : FunctionInvocation}
    (hinsert : db.insertFunctionInvocation i = some db') : db'.functions = db.functions := by
  obtain ⟨-, invocations, -, rfl⟩ := Db.insertFunctionInvocation_eq_some.mp hinsert
  rfl

theorem InvokeCall.step_leavesChains {db : Db} (h : Chained db) (pf : Platform) (env : Env)
    (c : InvokeCall) : LeavesChains db (c.step pf env db).1 ∧
      (c.step pf env db).1.functions = db.functions := by
  rcases step_store pf env db c with ⟨hfunctions, hinvocations⟩ | ⟨_, _, _, hinsert⟩
  · exact ⟨h.leavesChains_of_eq (fun _ hkey => hfunctions ▸ hkey) hinvocations, hfunctions⟩
  · exact ⟨h.leavesChains_insert hinsert rfl rfl, insertFunctionInvocation_functions hinsert⟩

/-- The function and the invocation that a retry has loaded. -/
def RetryStage.source : RetryStage → Option (FunctionDetail × FunctionInvocation)
  | .loaded function invocation => some (function, invocation)
  | .versionLoaded function invocation _ => some (function, invocation)
  | .workspaceFound function invocation _ _ => some (function, invocation)
  | .counted function invocation _ _ _ => some (function, invocation)
  | .checked function invocation _ _ => some (function, invocation)
  | _ => none

namespace RetryCall

/-- While the function is there, so is the invocation that is retried. -/
def Holds (db : Db) (c : RetryCall) : Prop :=
  ∀ function invocation, c.stage.source = some (function, invocation) →
    invocation.functionId = function.id ∧
      (db.functions.hasKey function.id = true →
        ∃ j ∈ db.functionInvocations, j.lineage = invocation.lineage)

variable {env : Env} {db : Db} {c : RetryCall}

theorem step_store (env : Env) (db : Db) (c : RetryCall) :
    ((c.step env db).1.functions = db.functions ∧
        (c.step env db).1.functionInvocations = db.functionInvocations) ∨
      ∃ function invocation version, c.stage.source = some (function, invocation) ∧
        db.insertFunctionInvocation (c.retried env function invocation version) =
          some (c.step env db).1 := by
  obtain ⟨claims, name, invocationId, stage⟩ := c
  cases stage with
  | received | found function | loaded function invocation
  | versionLoaded function invocation version
  | counted function invocation version workspaceId used =>
    left
    simp only [step]
    split
    · exact ⟨rfl, rfl⟩
    · exact ⟨rfl, rfl⟩
  | workspaceFound function invocation version workspaceId => exact .inl ⟨rfl, rfl⟩
  | checked function invocation version workspaceId =>
    simp only [step]
    split
    · exact .inl ⟨rfl, rfl⟩
    · next hinsert => exact .inr ⟨function, invocation, version, rfl, hinsert⟩
  | inserted workspaceId id =>
    left
    simp only [step]
    obtain ⟨counters, hcounters⟩ :=
      recordUsage_frame db env workspaceId .functionInvocationsMonth 1
    rw [hcounters]
    exact ⟨rfl, rfl⟩
  | started id => exact .inl ⟨rfl, rfl⟩
  | refused e => exact .inl ⟨rfl, rfl⟩

theorem step_source {function : FunctionDetail} {invocation : FunctionInvocation}
    (h : (c.step env db).2.stage.source = some (function, invocation)) :
    c.stage.source = some (function, invocation) ∨
      (invocation ∈ db.functionInvocations ∧ invocation.functionId = function.id) := by
  obtain ⟨claims, name, invocationId, stage⟩ := c
  cases stage with
  | received | checked function invocation version workspaceId =>
    simp only [step] at h
    split at h
    · cases h
    · cases h
  | found function =>
    simp only [step] at h
    split at h
    · cases h
    · next hload =>
      cases h
      obtain ⟨hmem, hfunction, -⟩ := loadInvocation_eq_ok.mp hload
      exact .inr ⟨hmem, hfunction⟩
  | loaded function invocation | versionLoaded function invocation version
  | counted function invocation version workspaceId used =>
    simp only [step] at h
    split at h
    · cases h
    · exact .inl h
  | workspaceFound function invocation version workspaceId => exact .inl h
  | inserted workspaceId id => cases h
  | started id => cases h
  | refused e => cases h

/-- **A statement of a retry** keeps the chains, and what it has loaded. -/
theorem step_chained (env : Env) (h : Chained db) (hholds : c.Holds db) :
    Chained (c.step env db).1 ∧ KeepsAttempts db (c.step env db).1 ∧
      ∀ id, (c.step env db).1.functions.hasKey id = db.functions.hasKey id := by
  rcases step_store env db c with ⟨hfunctions, hinvocations⟩ | ⟨function, invocation, version,
    hsource, hinsert⟩
  · have hleaves := h.leavesChains_of_eq (fun _ hkey => hfunctions ▸ hkey) hinvocations
    exact ⟨hleaves.chained h, hleaves.kept, fun id => by rw [hfunctions]⟩
  · obtain ⟨hfunction, hparent⟩ := hholds function invocation hsource
    have hexists := (Db.insertFunctionInvocation_eq_some.mp hinsert).1
    obtain ⟨j, hj, hsame⟩ := hparent hexists
    have hid : j.id = invocation.id := congrArg Lineage.id hsame
    have hcount : j.retryCount = invocation.retryCount := congrArg Lineage.retryCount hsame
    have hfunction' : j.functionId = invocation.functionId := congrArg Lineage.functionId hsame
    refine ⟨h.insert_retry hinsert hj ?_ (hfunction'.trans hfunction) ?_,
      keepsAttempts_insert hinsert, fun id => ?_⟩
    · rw [hid]
      rfl
    · rw [hcount]
      rfl
    · rw [insertFunctionInvocation_functions hinsert]

theorem Holds.keep {db' : Db} (h : c.Holds db) (hkept : KeepsAttempts db db')
    (hfunctions : ∀ function invocation, c.stage.source = some (function, invocation) →
      db'.functions.hasKey function.id = true → db.functions.hasKey function.id = true) :
    c.Holds db' := by
  intro function invocation hsource
  obtain ⟨hfunction, hparent⟩ := h function invocation hsource
  refine ⟨hfunction, fun hexists => ?_⟩
  obtain ⟨j, hj, hsame⟩ := hparent (hfunctions function invocation hsource hexists)
  have hfunction' : j.functionId = invocation.functionId := congrArg Lineage.functionId hsame
  have hstays : db'.functions.hasKey j.functionId = true := by
    rw [hfunction', hfunction]
    exact hexists
  obtain ⟨j', hj', hsame'⟩ := hkept j hj hstays
  exact ⟨j', hj', hsame'.trans hsame⟩

theorem Holds.step (h : Chained db) (hholds : c.Holds db) :
    (c.step env db).2.Holds (c.step env db).1 := by
  obtain ⟨-, hkept, hfunctions⟩ := step_chained env h hholds
  have hbefore : (c.step env db).2.Holds db := by
    intro function invocation hsource
    rcases step_source hsource with hold | ⟨hmem, hfunction⟩
    · exact hholds function invocation hold
    · exact ⟨hfunction, fun _ => ⟨invocation, hmem, rfl⟩⟩
  exact hbefore.keep hkept fun function _ _ hexists => hfunctions function.id ▸ hexists

end RetryCall

/-! ### Runs -/

/-- A call in progress; `elsewhere` is whatever else writes to the database. -/
inductive ChainCall where
  | invoke (call : InvokeCall)
  | retry (call : RetryCall)
  | elsewhere

/-- What a statement draws, and what is written elsewhere. -/
structure ChainDraw where
  env : Env
  change : Db → Db := id

namespace ChainCall

def step (pf : Platform) (draw : ChainDraw) (db : Db) : ChainCall → Db × ChainCall
  | .invoke c => ((c.step pf draw.env db).1, .invoke (c.step pf draw.env db).2)
  | .retry c => ((c.step draw.env db).1, .retry (c.step draw.env db).2)
  | .elsewhere => (draw.change db, .elsewhere)

/-- Nothing loaded yet. -/
def fresh : ChainCall → Prop
  | .invoke c => c.stage = .received
  | .retry c => c.stage = .received
  | .elsewhere => True

def Holds (db : Db) : ChainCall → Prop
  | .retry c => c.Holds db
  | _ => True

/-- A retry that has loaded an invocation of the function. -/
def Retries (functionId : String) : ChainCall → Prop
  | .retry c => ∃ function invocation, c.stage.source = some (function, invocation) ∧
      function.id = functionId
  | _ => False

end ChainCall

section Runs

variable {ι : Type} [DecidableEq ι] {pf : Platform}

/-- What is written elsewhere leaves chains alone, and a function that is added does
    not have the id of one that is being retried. -/
def LeftAlone (p : Pool ι Db ChainCall) (t : ι × ChainDraw) : Prop :=
  p.request t.1 = .elsewhere → LeavesChains p.store (t.2.change p.store) ∧
    ∀ f ∈ (t.2.change p.store).functions, p.store.functions.hasKey f.id = false →
      ∀ n, ¬ (p.request n).Retries f.id

structure ChainedPool (p : Pool ι Db ChainCall) : Prop where
  chained : Chained p.store
  holds : ∀ n, (p.request n).Holds p.store

omit [DecidableEq ι] in
theorem ChainedPool.start {p : Pool ι Db ChainCall}
    (hempty : ∀ i, i ∉ p.store.functionInvocations) (hfresh : ∀ n, (p.request n).fresh) :
    ChainedPool p := by
  refine ⟨⟨?_, ?_, ?_⟩, fun n => ?_⟩
  · exact fun i hi => absurd hi (hempty i)
  · exact fun i hi => absurd hi (hempty i)
  · exact fun i hi => absurd hi (hempty i)
  · have hn := hfresh n
    rcases hcall : p.request n with c | c | _
    · trivial
    · rw [hcall] at hn
      intro function invocation hsource
      rw [show c.stage = .received from hn] at hsource
      cases hsource
    · trivial

theorem ChainedPool.step_store (pf : Platform) {p : Pool ι Db ChainCall} (h : ChainedPool p)
    {t : ι × ChainDraw} (halone : LeftAlone p t) :
    Chained (tick (ChainCall.step pf) p t).store ∧
      KeepsAttempts p.store (tick (ChainCall.step pf) p t).store ∧
      ∀ n id, (p.request n).Retries id →
        (tick (ChainCall.step pf) p t).store.functions.hasKey id = true →
          p.store.functions.hasKey id = true := by
  rw [tick_store]
  rcases hcall : p.request t.1 with c | c | _
  · obtain ⟨hleaves, hfunctions⟩ := InvokeCall.step_leavesChains h.chained pf t.2.env c
    refine ⟨hleaves.chained h.chained, hleaves.kept, fun _ id _ hexists => ?_⟩
    rw [← hfunctions]
    exact hexists
  · have hholds : c.Holds p.store := by
      have hall := h.holds t.1
      rw [hcall] at hall
      exact hall
    obtain ⟨hchained, hkept, hfunctions⟩ :=
      RetryCall.step_chained t.2.env h.chained hholds
    exact ⟨hchained, hkept, fun _ id _ hexists => hfunctions id ▸ hexists⟩
  · obtain ⟨hleaves, hnew⟩ := halone hcall
    refine ⟨hleaves.chained h.chained, hleaves.kept, fun n id hretries hexists => ?_⟩
    obtain ⟨f, hf, rfl⟩ := KeyedTable.hasKey_iff.mp hexists
    by_contra hnone
    exact hnew f hf (Bool.eq_false_iff.mpr hnone) n hretries

/-- **One statement.** -/
theorem ChainedPool.tick {p : Pool ι Db ChainCall} {t : ι × ChainDraw} (h : ChainedPool p)
    (halone : LeftAlone p t) : ChainedPool (tick (ChainCall.step pf) p t) := by
  obtain ⟨hchained, hkept, hfunctions⟩ := h.step_store pf halone
  have hothers : ∀ n, (p.request n).Holds (Interleaving.tick (ChainCall.step pf) p t).store := by
    intro n
    have hholds := h.holds n
    have hkeys := hfunctions n
    rcases hcall : p.request n with c | c | _
    · trivial
    · rw [hcall] at hholds hkeys
      exact hholds.keep hkept fun function invocation hsource =>
        hkeys function.id ⟨function, invocation, hsource, rfl⟩
    · trivial
  refine ⟨hchained, (forall_request_tick p t).mpr ⟨?_, fun n _ => hothers n⟩⟩
  have hholds := h.holds t.1
  rw [tick_store]
  rcases hcall : p.request t.1 with c | c | _
  · trivial
  · rw [hcall] at hholds
    exact hholds.step h.chained
  · trivial

/-- **Every run.**  Invocations and retries, statement by statement in any order, leave
    chains that are well founded. -/
theorem retry_chains_wellFounded (p : Pool ι Db ChainCall)
    (hempty : ∀ i, i ∉ p.store.functionInvocations) (hfresh : ∀ n, (p.request n).fresh)
    (ticks : List (ι × ChainDraw)) (halone : Admissible (ChainCall.step pf) LeftAlone p ticks) :
    Always (ChainCall.step pf) (fun q => ChainsWellFounded q.store) p ticks := by
  have hstart : ChainedPool p := .start hempty hfresh
  have hstep : ∀ (q : Pool ι Db ChainCall) (t : ι × ChainDraw), ChainedPool q → LeftAlone q t →
      ChainedPool (tick (ChainCall.step pf) q t) := fun _ _ hq ht => hq.tick ht
  intro pre post hsplit
  exact (run_rule hstep hstart halone pre post hsplit).chained.wellFounded

theorem queueFunctionInvocation_functions (db : Db) (env : Env) (uuid appId : String)
    (function : FunctionDetail) (version : LoadedFunctionVersion) (input : Value)
    (retryCount : Int) (parent : Option String) :
    (queueFunctionInvocation db env uuid function version input appId retryCount
      parent).1.functions = db.functions := by
  unfold queueFunctionInvocation
  refine Outcome.proceed_rule (P := fun db' : Db => db'.functions = db.functions) rfl ?_
  intro started hstarted
  simp only [startFunctionInvocation, Outcome.bind_eq_ok, Outcome.require_eq_ok] at hstarted
  obtain ⟨workspaceId, -, db', hinsert, heq⟩ := hstarted
  cases heq
  obtain ⟨counters, hcounters⟩ := recordUsage_frame db' env workspaceId .functionInvocationsMonth 1
  simp only [hcounters]
  exact insertFunctionInvocation_functions hinsert

/-- What else the code writes to functions and invocations: the end of an invocation, the
    deletion of functions, and an invocation that is no retry. -/
inductive ChainWrite where
  | update (p : FunctionInvocation → Bool) (f : FunctionInvocation → FunctionInvocation)
      (hid : ∀ i, (f i).id = i.id) (hlineage : ∀ i, (f i).lineage = i.lineage)
  | delete (p : FunctionDetail → Bool)
  | queue (env : Env) (uuid appId : String) (function : FunctionDetail)
      (version : LoadedFunctionVersion) (input : Value)

def ChainWrite.apply : ChainWrite → Db → Db
  | .update p f hid _, db =>
      { db with functionInvocations := db.functionInvocations.updateWhere p f hid }
  | .delete p, db => db.deleteFunctions p
  | .queue env uuid appId function version input, db =>
      (queueFunctionInvocation db env uuid function version input appId 0 none).1

theorem ChainWrite.leavesChains {db : Db} (h : Chained db) :
    ∀ w : ChainWrite, LeavesChains db (w.apply db)
  | .update p _ hid hlineage => h.leavesChains_updateWhere p hid hlineage
  | .delete p => h.leavesChains_deleteFunctions p
  | .queue env uuid appId function version input =>
      h.leavesChains_queueFunctionInvocation env uuid appId function version input

theorem ChainWrite.mem_functions {db : Db} {f : FunctionDetail} :
    ∀ w : ChainWrite, f ∈ (w.apply db).functions → f ∈ db.functions
  | .update .., hf => hf
  | .delete _, hf => (KeyedTable.mem_deleteWhere.mp hf).1
  | .queue env uuid appId function version input, hf => by
      rwa [ChainWrite.apply, queueFunctionInvocation_functions] at hf

omit [DecidableEq ι] in
theorem ChainedPool.leftAlone {p : Pool ι Db ChainCall} (h : ChainedPool p) {t : ι × ChainDraw}
    (hwrite : p.request t.1 = .elsewhere → ∃ w : ChainWrite, t.2.change = w.apply) :
    LeftAlone p t := by
  intro hcall
  obtain ⟨w, hw⟩ := hwrite hcall
  rw [hw]
  refine ⟨w.leavesChains h.chained, fun f hf hnone => ?_⟩
  rw [KeyedTable.hasKey_of_mem (w.mem_functions hf)] at hnone
  cases hnone

theorem ChainCall.step_eq_elsewhere {draw : ChainDraw} {db : Db} {c : ChainCall}
    (h : (c.step pf draw db).2 = .elsewhere) : c = .elsewhere := by
  rcases c with c | c | _
  · cases h
  · cases h
  · rfl

theorem ChainedPool.leftAlone_run {p : Pool ι Db ChainCall} (h : ChainedPool p)
    {ticks : List (ι × ChainDraw)}
    (hwrites : ∀ t ∈ ticks, p.request t.1 = .elsewhere → ∃ w : ChainWrite, t.2.change = w.apply) :
    Admissible (ChainCall.step pf) LeftAlone p ticks := by
  induction ticks generalizing p with
  | nil => exact admissible_nil p
  | cons t ticks ih =>
    rw [List.forall_mem_cons] at hwrites
    have halone := h.leftAlone hwrites.1
    refine (admissible_cons p t ticks).mpr ⟨halone, ih (h.tick halone) fun u hu hcall => ?_⟩
    by_cases hsame : u.1 = t.1
    · rw [hsame, tick_request_self] at hcall
      exact hwrites.2 u hu (hsame ▸ ChainCall.step_eq_elsewhere hcall)
    · rw [tick_request_of_ne p t hsame] at hcall
      exact hwrites.2 u hu hcall

end Runs

/-! ### A retry of a retry -/

/-- A function is invoked, the invocation retried, and the retry retried. -/
def greetingCalls : Pool Nat Db ChainCall where
  store := runFunctions asciiPlatform readableCipher greetingsDb
    [.create (sampleEnv "a") functionAdminClaims
      { name := "greet", displayName := "Greet", endpointSlug := "greet", runtime := "javascript"
        sourceCode := "one", invokePolicy := some "public" }]
  request n :=
    if n = 0 then .invoke ⟨greetRequest none, .received⟩
    else .retry ⟨functionAdminClaims, "greet", if n = 1 then "c0" else "d0", .received⟩

/-- One after the other. -/
def greetingTicks : List (Nat × ChainDraw) :=
  List.replicate 8 (0, { env := sampleEnv "c" }) ++
    (List.replicate 8 (1, { env := sampleEnv "d" }) ++
      List.replicate 8 (2, { env := sampleEnv "e" }))

theorem retry_chains_wellFounded_greeting :
    Always (ChainCall.step asciiPlatform) (fun q => ChainsWellFounded q.store) greetingCalls
        greetingTicks ∧
      (run (ChainCall.step asciiPlatform) greetingCalls
        greetingTicks).store.functionInvocations.rows.map
          (fun i => (i.id, i.retryCount, i.parentInvocationId)) =
        [("c0", 0, none), ("d0", 1, some "c0"), ("e0", 2, some "d0")] := by
  have hempty : ∀ i, i ∉ greetingCalls.store.functionInvocations := by
    have hnone : greetingCalls.store.functionInvocations.rows = [] := by decide +kernel
    intro i hi
    rw [KeyedTable.mem_def, hnone] at hi
    cases hi
  have hfresh : ∀ n, (greetingCalls.request n).fresh := by
    intro n
    simp only [greetingCalls]
    split
    · rfl
    · rfl
  refine ⟨retry_chains_wellFounded greetingCalls hempty hfresh greetingTicks ?_, by decide +kernel⟩
  refine (ChainedPool.start hempty hfresh).leftAlone_run fun t _ hcall => ?_
  simp only [greetingCalls] at hcall
  split at hcall <;> cases hcall

end Peanut
