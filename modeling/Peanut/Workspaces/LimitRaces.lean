import Peanut.Workspaces.LimitedCalls

/-!
# Limits under concurrency

A request that writes after another one has written may do so on the strength of
a count that is out of date.  The limits are kept exactly in the runs in which
each check would still pass where the write takes place.
-/

namespace Peanut

open Relational Interleaving

/-! ### The counts and the limits -/

section Limits

variable {clock : Clock} {w : String} {db db' : Db}

/-- The monthly counters of a workspace keep to their limits. -/
def WithinCounters (w : String) (db : Db) : Prop :=
  ∀ key ∈ [ResourceKey.pushSendsMonth, .functionInvocationsMonth], ∀ period,
    counterValue db w key period ≤ limitOf db w key

theorem withinLimits_iff :
    WithinLimits clock w db ↔
      rowCount db w ≤ limitOf db w .dataRows ∧ WithinCounters w db ∧ WithinRates clock w db := by
  constructor
  · rintro ⟨hquotas, hrates⟩
    refine ⟨hquotas (sampleEnv "") .dataRows (by simp [limitedResources]), ?_, hrates⟩
    intro key hkey period
    have hquota := hquotas { sampleEnv "" with monthStart := period } key
      (by simp only [limitedResources, List.mem_cons] at hkey ⊢; exact .inr hkey)
    simp only [List.mem_cons, List.not_mem_nil, or_false] at hkey
    change usedResource db _ w key ≤ limitOf db w key at hquota
    rcases hkey with rfl | rfl
    · rwa [usedResource_eq_counterValue db _ w rfl] at hquota
    · rwa [usedResource_eq_counterValue db _ w rfl] at hquota
  · rintro ⟨hrows, hcounters, hrates⟩
    refine ⟨?_, hrates⟩
    intro env key hkey
    change usedResource db env w key ≤ limitOf db w key
    rcases List.mem_cons.mp hkey with rfl | hkey
    · exact hrows
    · have hcounted : isCountedResource key = false := by
        simp only [List.mem_cons, List.not_mem_nil, or_false] at hkey
        rcases hkey with rfl | rfl <;> rfl
      rw [usedResource_eq_counterValue db env w hcounted]
      exact hcounters key hkey _

theorem isMonthlyResource_of_mem {key : ResourceKey}
    (h : key ∈ [ResourceKey.pushSendsMonth, .functionInvocationsMonth]) :
    isMonthlyResource key = true := by
  simp only [List.mem_cons, List.not_mem_nil, or_false] at h
  rcases h with rfl | rfl <;> rfl

theorem requireRateLimit_eq_ok {env : Env} {f : FunctionDetail} {u : Unit} :
    requireRateLimit db env f = .ok u ↔
      countInvocationsSince db f.id (env.secondsAgo 60) < f.rateLimitPerMinute := by
  rw [requireRateLimit, Outcome.ensure_eq_ok]
  simp

variable {env : Env} {x : Option Write}

theorem Performs.rows_le_iff (h : Performs env x db db')
    (hdb : rowCount db w ≤ limitOf db w .dataRows) :
    rowCount db' w ≤ limitOf db' w .dataRows ↔
      ∀ appId, x = some (.row appId) → Write.StillAllowed env db w (.row appId) := by
  rw [h.rows, h.limits]
  constructor
  · rintro hnew appId rfl happ
    rw [requireResourceLimitAvailable_eq_ok]
    rw [Write.rowsIn, if_pos happ] at hnew
    exact hnew
  · intro hallowed
    unfold Write.rowsIn
    split
    · rename_i appId
      split
      · rename_i happ
        exact requireResourceLimitAvailable_eq_ok.mp (hallowed appId rfl happ)
      · rwa [Int.add_zero]
    · rwa [Int.add_zero]

theorem Performs.counters_le_iff (h : Performs env x db db') (hdb : WithinCounters w db)
    (hkeys : ∀ workspaceId key, x = some (.usage workspaceId key) →
      key ∈ [ResourceKey.pushSendsMonth, .functionInvocationsMonth]) :
    WithinCounters w db' ↔
      ∀ workspaceId key, x = some (.usage workspaceId key) →
        Write.StillAllowed env db w (.usage workspaceId key) := by
  have hused : ∀ key ∈ [ResourceKey.pushSendsMonth, .functionInvocationsMonth],
      usedResource db env w key = counterValue db w key (usagePeriodStart env key) := by
    intro key hkey
    apply usedResource_eq_counterValue
    simp only [List.mem_cons, List.not_mem_nil, or_false] at hkey
    rcases hkey with rfl | rfl <;> rfl
  constructor
  · rintro hnew workspaceId key rfl rfl
    have hkey := hkeys workspaceId key rfl
    have hafter := hnew key hkey (usagePeriodStart env key)
    rw [h.counters _ _ _ (isMonthlyResource_of_mem hkey), h.limits, Write.usageOf, if_pos rfl]
      at hafter
    rw [requireResourceLimitAvailable_eq_ok, hused key hkey]
    exact hafter
  · intro hallowed key hkey period
    rw [h.counters _ _ _ (isMonthlyResource_of_mem hkey), h.limits]
    unfold Write.usageOf
    split
    · rename_i workspaceId k
      split
      · rename_i hsame
        simp only [Prod.mk.injEq] at hsame
        obtain ⟨rfl, rfl, rfl⟩ := hsame
        rw [← hused k hkey]
        exact requireResourceLimitAvailable_eq_ok.mp (hallowed workspaceId k rfl rfl)
      · rw [Int.add_zero]
        exact hdb key hkey period
    · rw [Int.add_zero]
      exact hdb key hkey period

/-- No invocation on record is later than an instant. -/
def NoneAfter (clock : Clock) (now : Int) (db : Db) : Prop :=
  ∀ i ∈ db.functionInvocations, strLt (clock.datetime now) i.createdAt = false

/-- In the minute up to now, the window of the code and the window of the limit
    contain the same invocations. -/
theorem countInvocationsWithin_minute {now : Int} (hpast : NoneAfter clock now db)
    (functionId : String) :
    countInvocationsWithin db functionId (clock.datetime (now - 60)) (clock.datetime now) =
      countInvocationsSince db functionId (clock.datetime (now - 60)) := by
  unfold countInvocationsWithin countInvocationsSince
  apply congrArg
  apply Nat.le_antisymm
  · apply KeyedTable.length_select_le
    intro i _ hi
    simp only [Bool.and_eq_true] at hi ⊢
    exact ⟨hi.1, hi.2.1⟩
  · apply KeyedTable.length_select_le
    intro i hmem hi
    simp only [Bool.and_eq_true] at hi ⊢
    exact ⟨hi.1, hi.2, by rw [hpast i hmem]; rfl⟩

theorem countInvocationsWithin_le {now t : Int} (hcovered : clock.Covers now)
    (ht : clock.first ≤ t) (ht' : t + 60 ≤ clock.last)
    (hstop : strLt (clock.datetime (t + 60)) (clock.datetime now) = false) (functionId : String) :
    countInvocationsWithin db functionId (clock.datetime t) (clock.datetime (t + 60)) ≤
      countInvocationsSince db functionId (clock.datetime (now - 60)) := by
  obtain ⟨hlower, hupper⟩ := hcovered
  have hminute : now ≤ t + 60 :=
    clock.le_of_datetime_le (by omega) hupper (by omega) ht' hstop
  have hstart : strLt (clock.datetime t) (clock.datetime (now - 60)) = false :=
    clock.datetime_le (by omega) (by omega) (by omega)
  unfold countInvocationsWithin countInvocationsSince
  apply Int.ofNat_le.mpr
  apply KeyedTable.length_select_le
  intro i _ hi
  simp only [Bool.and_eq_true, Bool.not_eq_true'] at hi ⊢
  exact ⟨hi.1, strLt_false_trans hstart hi.2.1⟩

theorem Performs.rates_le_iff {now : Int} (h : Performs (clock.reading now env) x db db')
    (hdb : WithinRates clock w db) (hcovered : clock.Covers now)
    (hpast : NoneAfter clock now db) :
    WithinRates clock w db' ↔
      ∀ functionId, x = some (.invocation functionId) →
        Write.StillAllowed (clock.reading now env) db w (.invocation functionId) := by
  obtain ⟨hlower, hupper⟩ := id hcovered
  have hmember : ∀ a, appInWorkspace db' w a = appInWorkspace db w a := by
    intro a
    rw [appInWorkspace, appInWorkspace, h.apps]
  have hcount : ∀ f start stop, countInvocationsWithin db' f start stop =
      countInvocationsWithin db f start stop +
        Write.invocationsOf (clock.reading now env) f
          (fun at' => !strLt at' start && !strLt stop at') x := by
    intro f start stop
    exact h.invocations f fun at' => !strLt at' start && !strLt stop at'
  unfold WithinRates
  rw [h.functions]
  constructor
  · rintro hnew functionId rfl f hf rfl happ
    rw [requireRateLimit_eq_ok, Clock.reading_secondsAgo,
      ← countInvocationsWithin_minute hpast]
    have hafter := hnew f hf (by rwa [hmember]) (now - 60) (by omega) (by omega)
    rw [Int.sub_add_cancel, hcount, Write.invocationsOf, if_pos] at hafter
    · omega
    · have hstart := @Clock.datetime_le clock (now - 60) now (by omega) (by omega) hupper
      simp [hstart, strLt_irrefl]
  · intro hallowed f hf happ t ht ht'
    rw [hmember] at happ
    rw [hcount]
    unfold Write.invocationsOf
    split
    · rename_i g
      split
      · rename_i hin
        obtain ⟨rfl, hwindow⟩ := hin
        simp only [Clock.reading_now, Bool.and_eq_true, Bool.not_eq_true'] at hwindow
        have hbefore : countInvocationsWithin db f.id (clock.datetime t) (clock.datetime (t + 60)) ≤
            countInvocationsSince db f.id (clock.datetime (now - 60)) :=
          countInvocationsWithin_le hcovered ht ht' hwindow.2 f.id
        have hrate := hallowed f.id rfl f hf rfl happ
        rw [requireRateLimit_eq_ok, Clock.reading_secondsAgo] at hrate
        omega
      · rw [Int.add_zero]
        exact hdb f hf happ t ht ht'
    · rw [Int.add_zero]
      exact hdb f hf happ t ht ht'

end Limits

/-! ### Runs -/

section Runs

variable {ι : Type} [DecidableEq ι] {pf : Platform} {clock : Clock} {w : String}

theorem LimitedCall.write_usage {env : Env} {db : Db} {c : LimitedCall} {workspaceId : String}
    {key : ResourceKey} (h : c.write env db = some (.usage workspaceId key)) :
    key ∈ [ResourceKey.pushSendsMonth, .functionInvocationsMonth] := by
  cases c with
  | createRow c =>
    simp only [LimitedCall.write] at h
    split at h
    · obtain ⟨-, -, heq⟩ := Option.map_eq_some_iff.mp h
      cases heq
    · cases h
  | enqueuePush c =>
    simp only [LimitedCall.write] at h
    split at h
    · split at h
      · cases h
        exact List.mem_cons_self
      · cases h
    · cases h
  | invoke c =>
    simp only [LimitedCall.write] at h
    split at h
    · obtain ⟨-, -, heq⟩ := Option.map_eq_some_iff.mp h
      cases heq
    · split at h
      · cases h
        exact List.mem_cons_of_mem _ List.mem_cons_self
      · cases h
    · cases h

theorem Performs.noneAfter {env : Env} {x : Option Write} {db db' : Db} {now : Int}
    (h : Performs (clock.reading now env) x db db') (hpast : NoneAfter clock now db) :
    NoneAfter clock now db' := by
  intro i hi
  have hcount := h.invocations i.functionId fun at' => strLt (clock.datetime now) at'
  have hbefore : (db.functionInvocations.select fun j =>
      j.functionId == i.functionId && strLt (clock.datetime now) j.createdAt) = [] := by
    rw [List.eq_nil_iff_forall_not_mem]
    intro j hj
    obtain ⟨hmem, hlater⟩ := KeyedTable.mem_select.mp hj
    rw [hpast j hmem, Bool.and_false] at hlater
    cases hlater
  have hnew : Write.invocationsOf (clock.reading now env) i.functionId
      (fun at' => strLt (clock.datetime now) at') x = 0 := by
    unfold Write.invocationsOf
    split
    · simp [strLt_irrefl]
    · rfl
  rw [hbefore, hnew] at hcount
  have hempty : (db'.functionInvocations.select fun j =>
      j.functionId == i.functionId && strLt (clock.datetime now) j.createdAt) = [] := by
    rw [← List.length_eq_zero_iff]
    simpa using hcount
  by_contra hlater
  rw [Bool.not_eq_false] at hlater
  have hsel : i ∈ db'.functionInvocations.select fun j =>
      j.functionId == i.functionId && strLt (clock.datetime now) j.createdAt := by
    rw [KeyedTable.mem_select]
    exact ⟨hi, by simp [hlater]⟩
  rw [hempty] at hsel
  cases hsel

/-- The database and the time of its last statement: one that `datetime` writes,
    and nothing on record is later. -/
structure Server (clock : Clock) where
  db : Db
  now : Int
  covered : clock.Covers now
  past : NoneAfter clock now db

namespace Server

/-- The time of the next statement; a clock does not run backwards. -/
def next (s : Server clock) (m : Moment clock) : Int := max s.now m.instant

theorem now_le_next (s : Server clock) (m : Moment clock) : s.now ≤ s.next m :=
  Int.le_max_left s.now m.instant

theorem next_covered (s : Server clock) (m : Moment clock) : clock.Covers (s.next m) := by
  have hm := m.covered
  have hs := s.covered
  unfold Clock.Covers next at *
  omega

theorem next_past (s : Server clock) (m : Moment clock) : NoneAfter clock (s.next m) s.db := by
  intro i hi
  have hfirst : clock.first ≤ s.now := by
    have hcovered := s.covered
    unfold Clock.Covers at hcovered
    omega
  exact strLt_false_trans (s.past i hi)
    (clock.datetime_le hfirst (s.now_le_next m) (s.next_covered m).2)

/-- What the next statement draws. -/
def draws (s : Server clock) (m : Moment clock) : Env := clock.reading (s.next m) m.env

end Server

/-- One statement of a request. -/
def serveStatement (pf : Platform) (m : Moment clock) (s : Server clock) (c : LimitedCall) :
    Server clock × LimitedCall :=
  ({ db := (c.step pf (s.draws m) s.db).1
     now := s.next m
     covered := s.next_covered m
     past := (c.step_performs pf (s.draws m) s.db).noneAfter (s.next_past m) },
    (c.step pf (s.draws m) s.db).2)

theorem tick_db (q : Pool ι (Server clock) LimitedCall) (t : ι × Moment clock) :
    (tick (serveStatement pf) q t).store.db =
      ((q.request t.1).step pf (q.store.draws t.2) q.store.db).1 := rfl

/-- The check before the write of a statement would still pass. -/
def StillAllowed (w : String) (q : Pool ι (Server clock) LimitedCall) (t : ι × Moment clock) :
    Prop :=
  ∀ x, (q.request t.1).write (q.store.draws t.2) q.store.db = some x →
    x.StillAllowed (q.store.draws t.2) q.store.db w

/-- **Exact step.**  A statement keeps to the limits exactly when its check would
    still pass. -/
theorem withinLimits_step_iff {q : Pool ι (Server clock) LimitedCall}
    (hdb : WithinLimits clock w q.store.db) (t : ι × Moment clock) :
    WithinLimits clock w (tick (serveStatement pf) q t).store.db ↔ StillAllowed w q t := by
  have hperforms := (q.request t.1).step_performs pf (q.store.draws t.2) q.store.db
  rw [withinLimits_iff] at hdb ⊢
  obtain ⟨hrows, hcounters, hrates⟩ := hdb
  rw [tick_db, hperforms.rows_le_iff hrows,
    hperforms.counters_le_iff hcounters fun _ _ hwrite => LimitedCall.write_usage hwrite,
    hperforms.rates_le_iff hrates (q.store.next_covered t.2) (q.store.next_past t.2)]
  constructor
  · rintro ⟨hrow, husage, hinvocation⟩ x hx
    cases x with
    | row appId => exact hrow appId hx
    | usage workspaceId key => exact husage workspaceId key hx
    | invocation functionId => exact hinvocation functionId hx
  · intro hallowed
    exact ⟨fun _ hx => hallowed _ hx, fun _ _ hx => hallowed _ hx, fun _ hx => hallowed _ hx⟩

/-- **Limits under concurrency.**  For any number of `create_row`, `enqueue_push` and
    invocation requests and every interleaving of their statements, a workspace
    keeps to its limits in every state exactly when it does at the start and each
    write comes while the check before it would still pass. -/
theorem limits_kept_iff (pf : Platform) (clock : Clock) (w : String)
    (p : Pool ι (Server clock) LimitedCall) (ticks : List (ι × Moment clock)) :
    Always (serveStatement pf) (fun q => WithinLimits clock w q.store.db) p ticks ↔
      WithinLimits clock w p.store.db ∧
        Admissible (serveStatement pf) (StillAllowed w) p ticks := by
  have hstep : ∀ (q : Pool ι (Server clock) LimitedCall) (t : ι × Moment clock),
      WithinLimits clock w q.store.db →
      (WithinLimits clock w (tick (serveStatement pf) q t).store.db ↔ StillAllowed w q t) :=
    fun _ t hdb => withinLimits_step_iff hdb t
  exact always_iff hstep p ticks

end Runs

/-! ### Two rows where there is room for one -/

/-- A number below 60 in two digits. -/
def twoDigits (n : Nat) : List Char := [Char.ofNat (48 + n / 10), Char.ofNat (48 + n % 10)]

/-- The texts of the last minute of 2025 and of the instant after it. -/
def newYearChars (seconds : Nat) : List Char :=
  if seconds = 60 then "2026-01-01 00:00:00".toList
  else "2025-12-31 23:59:".toList ++ twoDigits seconds

theorem charsLt_twoDigits {m n : Nat} (hm : m < 60) (hn : n < 60) :
    charsLt (twoDigits m) (twoDigits n) = true ↔ m < n := by
  have h1 := toNat_digit (n := m / 10) (by omega)
  have h2 := toNat_digit (n := m % 10) (by omega)
  have h3 := toNat_digit (n := n / 10) (by omega)
  have h4 := toNat_digit (n := n % 10) (by omega)
  simp only [twoDigits, charsLt, Bool.or_eq_true, Bool.and_eq_true, decide_eq_true_eq, beq_iff_eq,
    ← Char.toNat_inj, h1, h2, h3, h4, Bool.false_eq_true, and_false, or_false]
  omega

theorem newYearChars_lt {m n : Nat} (hm : m ≤ 60) (hn : n ≤ 60) :
    charsLt (newYearChars m) (newYearChars n) = true ↔ m < n := by
  unfold newYearChars
  by_cases hm' : m = 60
  · by_cases hn' : n = 60
    · simp [hm', hn', charsLt_irrefl]
    · simp only [hm', hn', if_true, if_false]
      simp [charsLt]
      omega
  · by_cases hn' : n = 60
    · simp only [hm', hn', if_true, if_false]
      simp [charsLt]
      omega
    · -- the texts differ in the seconds only
      have hlt := @charsLt_twoDigits m n (by omega) (by omega)
      simpa [hm', hn', charsLt] using hlt

/-- `datetime` in that minute. -/
def newYearText (t : Int) : String := String.ofList (newYearChars (t - 1767225540).toNat)

theorem newYearText_lt (s t : Int) (hs : 1767225540 ≤ s) (hs' : s ≤ 1767225600)
    (ht : 1767225540 ≤ t) (ht' : t ≤ 1767225600) :
    strLt (newYearText s) (newYearText t) = true ↔ s < t := by
  rw [strLt, newYearText, newYearText, String.toList_ofList, String.toList_ofList,
    newYearChars_lt (by omega) (by omega)]
  omega

def newYear : Clock :=
  { datetime := newYearText, first := 1767225540, last := 1767225600,
    datetime_lt := newYearText_lt }

/-- An empty table in the workspace that may hold one row. -/
def cappedNotesDb : Db := runData asciiPlatform cappedDb (cappedRun.take 1)

theorem cappedNotesDb_noneAfter (clock : Clock) (now : Int) :
    NoneAfter clock now cappedNotesDb := by
  intro i hi
  cases hi

/-- Two requests to create a note. -/
def twoNotes : Pool Bool (Server newYear) LimitedCall :=
  { store :=
      { db := cappedNotesDb, now := 1767225600, covered := by decide
        past := cappedNotesDb_noneAfter newYear 1767225600 }
    request := fun _ => .createRow ⟨root, "notes", { data := note "a" }, .received⟩ }

/-- A statement at the turn of the year. -/
def newYearMoment (start : String) : Moment newYear :=
  { instant := 1767225600, covered := by decide, env := sampleEnv start }

/-- The two requests take turns. -/
def notesRace : List (Bool × Moment newYear) :=
  (List.replicate 5 [(false, newYearMoment "b"), (true, newYearMoment "c")]).flatten

theorem cappedNotesDb_withinLimits (clock : Clock) : WithinLimits clock "shop" cappedNotesDb := by
  rw [withinLimits_iff]
  refine ⟨by decide +kernel, ?_, ?_⟩
  · intro key hkey period
    have hcounters : cappedNotesDb.usageCounters = cappedDb.usageCounters := rfl
    have hne : key ≠ .dataRows := by
      rintro rfl
      simp at hkey
    have hused : counterValue cappedNotesDb "shop" key period = 0 := by
      simp [counterValue, hcounters, cappedDb, KeyedTable.find?, KeyedTable.selectOne, hne.symm]
    have hlimit : 0 ≤ limitOf cappedNotesDb "shop" key := by
      simp only [limitOf, hcounters, cappedDb, KeyedTable.find?, KeyedTable.selectOne]
      simp only [List.mem_cons, List.not_mem_nil, or_false] at hkey
      rcases hkey with rfl | rfl <;> decide
    rw [hused]
    exact hlimit
  · intro f hf
    cases hf

/-- Taking turns, both requests find room for a row, and both insert one. -/
theorem concurrent_rows_exceed_limit :
    WithinLimits newYear "shop" twoNotes.store.db ∧ (∀ b, (twoNotes.request b).fresh) ∧
      ¬ WithinLimits newYear "shop"
        (run (serveStatement asciiPlatform) twoNotes notesRace).store.db := by
  refine ⟨cappedNotesDb_withinLimits newYear, fun _ => rfl, ?_⟩
  intro h
  have hrows := (withinLimits_iff.mp h).1
  revert hrows
  decide +kernel

end Peanut
