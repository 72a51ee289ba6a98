import Peanut.Workspaces.LimitRaces

/-!
# Requests that keep apart

When nobody writes while another request is between its count and its write, what
a request has counted is still so when it writes, and the limits are kept.
-/

namespace Peanut

open Relational Interleaving

variable {ι : Type} [DecidableEq ι] {pf : Platform} {clock : Clock} {w : String}

/-- The writes that a request has counted for and not executed yet. -/
def LimitedCall.pending : LimitedCall → List Write
  | .createRow c =>
      match c.stage with
      | .counted _ _ _ | .checked _ _ _ => [.row c.claims.appId]
      | _ => []
  | .enqueuePush c =>
      match c.stage with
      | .counted workspaceId _ | .checked workspaceId | .inserted workspaceId _ =>
          [.usage workspaceId .pushSendsMonth]
      | _ => []
  | .invoke c =>
      match c.stage with
      | .admitted function _ | .versionLoaded function _ _ | .workspaceFound function _ _ _ =>
          [.invocation function.id]
      | .counted function _ _ workspaceId _ | .checked function _ _ workspaceId =>
          [.invocation function.id, .usage workspaceId .functionInvocationsMonth]
      | .inserted workspaceId _ => [.usage workspaceId .functionInvocationsMonth]
      | _ => []

/-- Do two writes use up the same thing? -/
def Write.Competes (db : Db) : Write → Write → Prop
  | .row a, .row b => appWorkspaceId db a = appWorkspaceId db b
  | .usage w k, .usage w' k' => w = w' ∧ k = k'
  | .invocation f, .invocation g => f = g
  | _, _ => False

/-- The tick is a write, and another request has counted what it uses up and not
    written yet. -/
def WritesUnderCount (q : Pool ι (Server clock) LimitedCall) (t : ι × Moment clock) : Prop :=
  ∃ x, (q.request t.1).write (q.store.draws t.2) q.store.db = some x ∧
    ∃ j, j ≠ t.1 ∧ ∃ y ∈ (q.request j).pending, x.Competes q.store.db y

/-- There is room for one more in a monthly counter. -/
def CounterRoom (db : Db) (workspaceId : String) (key : ResourceKey) (month : String) : Prop :=
  counterValue db workspaceId key month + 1 ≤ limitOf db workspaceId key

/-- The function is on record and may be invoked once more. -/
def RateRoom (clock : Clock) (db : Db) (now : Int) (function : FunctionDetail) : Prop :=
  function ∈ db.functions ∧
    countInvocationsSince db function.id (clock.datetime (now - 60)) < function.rateLimitPerMinute

/-- What a request has counted is still so. -/
def LimitedCall.Sound (clock : Clock) (month : String) (db : Db) (now : Int) :
    LimitedCall → Prop
  | .createRow c =>
      match c.stage with
      | .workspaceFound _ workspaceId => appWorkspaceId db c.claims.appId = some workspaceId
      | .counted _ workspaceId used =>
          appWorkspaceId db c.claims.appId = some workspaceId ∧ rowCount db workspaceId ≤ used
      | .checked _ workspaceId _ =>
          appWorkspaceId db c.claims.appId = some workspaceId ∧
            rowCount db workspaceId + 1 ≤ limitOf db workspaceId .dataRows
      | _ => True
  | .enqueuePush c =>
      match c.stage with
      | .counted workspaceId used => counterValue db workspaceId .pushSendsMonth month ≤ used
      | .checked workspaceId | .inserted workspaceId _ =>
          CounterRoom db workspaceId .pushSendsMonth month
      | _ => True
  | .invoke c =>
      match c.stage with
      | .loaded function _ => function ∈ db.functions
      | .admitted function _ | .versionLoaded function _ _ | .workspaceFound function _ _ _ =>
          RateRoom clock db now function
      | .counted function _ _ workspaceId used =>
          RateRoom clock db now function ∧
            counterValue db workspaceId .functionInvocationsMonth month ≤ used
      | .checked function _ _ workspaceId =>
          RateRoom clock db now function ∧
            CounterRoom db workspaceId .functionInvocationsMonth month
      | .inserted workspaceId _ => CounterRoom db workspaceId .functionInvocationsMonth month
      | _ => True

variable {month : String}

section Kept

variable {env : Env} {x : Option Write} {db db' : Db} {now now' : Int}

theorem rowCount_kept (h : Performs env x db db') {appId workspaceId : String}
    (happ : appWorkspaceId db appId = some workspaceId)
    (hapart : ∀ y, x = some y → ¬ y.Competes db (.row appId)) :
    rowCount db' workspaceId = rowCount db workspaceId := by
  rw [h.rows]
  unfold Write.rowsIn
  split
  · rename_i a
    rw [if_neg, Int.add_zero]
    intro ha
    exact hapart _ rfl (ha.trans happ.symm)
  · rw [Int.add_zero]

theorem counterValue_kept (h : Performs env x db db') {workspaceId : String} {key : ResourceKey}
    (hkey : isMonthlyResource key = true)
    (hapart : ∀ y, x = some y → ¬ y.Competes db (.usage workspaceId key)) (period : String) :
    counterValue db' workspaceId key period = counterValue db workspaceId key period := by
  rw [h.counters _ _ _ hkey]
  unfold Write.usageOf
  split
  · rename_i w' k'
    rw [if_neg, Int.add_zero]
    intro hsame
    simp only [Prod.mk.injEq] at hsame
    exact hapart _ rfl ⟨hsame.1, hsame.2.1⟩
  · rw [Int.add_zero]

theorem CounterRoom.kept {workspaceId : String} {key : ResourceKey}
    (hroom : CounterRoom db workspaceId key month) (h : Performs env x db db')
    (hkey : isMonthlyResource key = true)
    (hapart : ∀ y, x = some y → ¬ y.Competes db (.usage workspaceId key)) :
    CounterRoom db' workspaceId key month := by
  rw [CounterRoom, counterValue_kept h hkey hapart, h.limits]
  exact hroom

theorem RateRoom.kept {function : FunctionDetail} (hroom : RateRoom clock db now function)
    (h : Performs env x db db') (hcovered : clock.Covers now) (hle : now ≤ now')
    (hnow : now' ≤ clock.last)
    (hapart : ∀ y, x = some y → ¬ y.Competes db (.invocation function.id)) :
    RateRoom clock db' now' function := by
  refine ⟨by rw [h.functions]; exact hroom.1, ?_⟩
  have hnone : Write.invocationsOf env function.id
      (fun at' => !strLt at' (clock.datetime (now' - 60))) x = 0 := by
    unfold Write.invocationsOf
    split
    · rename_i g
      rw [if_neg]
      rintro ⟨hg, -⟩
      exact hapart _ rfl hg
    · rfl
  have hcount := h.invocations function.id fun at' => !strLt at' (clock.datetime (now' - 60))
  rw [hnone, Int.add_zero] at hcount
  have hlater : countInvocationsSince db function.id (clock.datetime (now' - 60)) ≤
      countInvocationsSince db function.id (clock.datetime (now - 60)) := by
    obtain ⟨hlower, hupper⟩ := hcovered
    have hstart : strLt (clock.datetime (now' - 60)) (clock.datetime (now - 60)) = false :=
      clock.datetime_le (by omega) (by omega) (by omega)
    apply Int.ofNat_le.mpr
    apply KeyedTable.length_select_le
    intro i _ hi
    simp only [Bool.and_eq_true, Bool.not_eq_true'] at hi ⊢
    exact ⟨hi.1, strLt_false_trans hstart hi.2⟩
  have hsame : countInvocationsSince db' function.id (clock.datetime (now' - 60)) =
      countInvocationsSince db function.id (clock.datetime (now' - 60)) := hcount
  have hrate := hroom.2
  omega

/-- **Others.**  A write that does not compete with what a request has counted
    leaves its counts right. -/
theorem LimitedCall.Sound.kept {c : LimitedCall} (hc : c.Sound clock month db now)
    (h : Performs env x db db') (hcovered : clock.Covers now) (hle : now ≤ now')
    (hnow : now' ≤ clock.last)
    (hapart : ∀ y, x = some y → ∀ z ∈ c.pending, ¬ y.Competes db z) :
    c.Sound clock month db' now' := by
  have happs := h.apps
  cases c with
  | createRow c =>
    obtain ⟨claims, tableName, payload, stage⟩ := c
    cases stage with
    | workspaceFound table workspaceId => exact (happs _).trans hc
    | counted table workspaceId used =>
      refine ⟨(happs _).trans hc.1, ?_⟩
      rw [rowCount_kept h hc.1 fun y hy => hapart y hy _ List.mem_cons_self]
      exact hc.2
    | checked table workspaceId normalized =>
      refine ⟨(happs _).trans hc.1, ?_⟩
      rw [rowCount_kept h hc.1 fun y hy => hapart y hy _ List.mem_cons_self, h.limits]
      exact hc.2
    | _ => trivial
  | enqueuePush c =>
    obtain ⟨input, stage⟩ := c
    cases stage with
    | counted workspaceId used =>
      change counterValue db' workspaceId .pushSendsMonth month ≤ used
      rw [counterValue_kept h rfl fun y hy => hapart y hy _ List.mem_cons_self]
      exact hc
    | checked workspaceId =>
      exact CounterRoom.kept hc h rfl fun y hy => hapart y hy _ List.mem_cons_self
    | inserted workspaceId id =>
      exact CounterRoom.kept hc h rfl fun y hy => hapart y hy _ List.mem_cons_self
    | _ => trivial
  | invoke c =>
    obtain ⟨request, stage⟩ := c
    cases stage with
    | loaded function payload =>
      change function ∈ db'.functions
      rw [h.functions]
      exact hc
    | admitted function payload =>
      exact RateRoom.kept hc h hcovered hle hnow fun y hy => hapart y hy _ List.mem_cons_self
    | versionLoaded function payload version =>
      exact RateRoom.kept hc h hcovered hle hnow fun y hy => hapart y hy _ List.mem_cons_self
    | workspaceFound function payload version workspaceId =>
      exact RateRoom.kept hc h hcovered hle hnow fun y hy => hapart y hy _ List.mem_cons_self
    | counted function payload version workspaceId used =>
      refine ⟨RateRoom.kept hc.1 h hcovered hle hnow fun y hy => hapart y hy _ List.mem_cons_self,
        ?_⟩
      rw [counterValue_kept h rfl fun y hy =>
        hapart y hy _ (List.mem_cons_of_mem _ List.mem_cons_self)]
      exact hc.2
    | checked function payload version workspaceId =>
      exact ⟨RateRoom.kept hc.1 h hcovered hle hnow fun y hy => hapart y hy _ List.mem_cons_self,
        CounterRoom.kept hc.2 h rfl fun y hy =>
          hapart y hy _ (List.mem_cons_of_mem _ List.mem_cons_self)⟩
    | inserted workspaceId invocationId =>
      exact CounterRoom.kept hc h rfl fun y hy => hapart y hy _ List.mem_cons_self
    | _ => trivial

end Kept

section Own

variable {s : Server clock} {m : Moment clock}

theorem usedResource_draws (hmonth : m.env.monthStart = month) {key : ResourceKey}
    (hkey : isMonthlyResource key = true) (workspaceId : String) :
    usedResource s.db (s.draws m) workspaceId key = counterValue s.db workspaceId key month := by
  have hcounted : isCountedResource key = false := by
    cases key <;> first | rfl | cases hkey
  rw [usedResource_eq_counterValue s.db _ workspaceId hcounted, usagePeriodStart, if_pos hkey]
  exact congrArg _ hmonth

theorem RateRoom.later {function : FunctionDetail} (hroom : RateRoom clock s.db s.now function) :
    RateRoom clock s.db (s.next m) function := by
  refine hroom.kept (.refl m.env s.db) s.covered (s.now_le_next m) (s.next_covered m).2 ?_
  intro y hy
  cases hy

theorem createRow_sound {c : CreateRowCall}
    (hc : (LimitedCall.createRow c).Sound clock month s.db s.now) :
    (LimitedCall.createRow (c.step pf (s.draws m) s.db).2).Sound clock month
      (c.step pf (s.draws m) s.db).1 (s.next m) := by
  obtain ⟨claims, tableName, payload, stage⟩ := c
  cases stage with
  | received =>
    simp only [CreateRowCall.step]
    split <;> trivial
  | tableLoaded table =>
    simp only [CreateRowCall.step]
    split
    · trivial
    · rename_i workspaceId happ
      exact happ
  | workspaceFound table workspaceId => exact ⟨hc, Int.le_refl _⟩
  | counted table workspaceId used =>
    simp only [CreateRowCall.step]
    split
    · trivial
    · rename_i normalized hdata
      obtain ⟨u, hlimit, -⟩ := Outcome.bind_eq_ok.mp hdata
      rw [requireWithinLimit_eq_ok] at hlimit
      have hcount := hc.2
      refine ⟨hc.1, ?_⟩
      show rowCount s.db workspaceId + 1 ≤ limitOf s.db workspaceId .dataRows
      omega
  | checked table workspaceId normalized =>
    simp only [CreateRowCall.step]
    split <;> trivial
  | audited table row =>
    simp only [CreateRowCall.step]
    split <;> trivial
  | _ => trivial

theorem enqueuePush_sound {c : EnqueuePushCall} (hmonth : m.env.monthStart = month)
    (hc : (LimitedCall.enqueuePush c).Sound clock month s.db s.now) :
    (LimitedCall.enqueuePush (c.step (s.draws m) s.db).2).Sound clock month
      (c.step (s.draws m) s.db).1 (s.next m) := by
  obtain ⟨input, stage⟩ := c
  cases stage with
  | received =>
    simp only [EnqueuePushCall.step]
    split <;> trivial
  | targetFound =>
    simp only [EnqueuePushCall.step]
    split <;> trivial
  | unqueued =>
    simp only [EnqueuePushCall.step]
    split <;> trivial
  | workspaceFound workspaceId => exact Int.le_of_eq (usedResource_draws hmonth rfl _).symm
  | counted workspaceId used =>
    simp only [EnqueuePushCall.step]
    split
    · trivial
    · rename_i hlimit
      rw [requireWithinLimit_eq_ok] at hlimit
      have hcount : counterValue s.db workspaceId .pushSendsMonth month ≤ used := hc
      show counterValue s.db workspaceId .pushSendsMonth month + 1 ≤ limitOf s.db workspaceId _
      omega
  | checked workspaceId =>
    simp only [EnqueuePushCall.step]
    split
    · trivial
    · rename_i id db' hinsert
      refine CounterRoom.kept hc (insertPushMessage_performs (s.draws m) hinsert) rfl ?_
      intro y hy
      cases hy
  | _ => trivial

theorem invoke_sound {c : InvokeCall} (hmonth : m.env.monthStart = month)
    (hc : (LimitedCall.invoke c).Sound clock month s.db s.now) :
    (LimitedCall.invoke (c.step pf (s.draws m) s.db).2).Sound clock month
      (c.step pf (s.draws m) s.db).1 (s.next m) := by
  obtain ⟨request, stage⟩ := c
  cases stage with
  | received =>
    simp only [InvokeCall.step]
    split
    · trivial
    · rename_i function payload hload
      exact invokableFunction_mem hload
  | loaded function payload =>
    simp only [InvokeCall.step]
    split
    · trivial
    · rename_i hrate
      rw [requireRateLimit_eq_ok] at hrate
      exact ⟨hc, hrate⟩
  | admitted function payload =>
    simp only [InvokeCall.step]
    split
    · trivial
    · exact RateRoom.later hc
  | versionLoaded function payload version =>
    simp only [InvokeCall.step]
    split
    · trivial
    · exact RateRoom.later hc
  | workspaceFound function payload version workspaceId =>
    exact ⟨RateRoom.later hc, Int.le_of_eq (usedResource_draws hmonth rfl _).symm⟩
  | counted function payload version workspaceId used =>
    simp only [InvokeCall.step]
    split
    · trivial
    · rename_i hlimit
      rw [requireWithinLimit_eq_ok] at hlimit
      have hcount := hc.2
      refine ⟨RateRoom.later hc.1, ?_⟩
      show counterValue s.db workspaceId .functionInvocationsMonth month + 1 ≤
        limitOf s.db workspaceId _
      omega
  | checked function payload version workspaceId =>
    simp only [InvokeCall.step]
    split
    · trivial
    · rename_i db' hinsert
      refine CounterRoom.kept hc.2 (insertFunctionInvocation_performs (s.draws m) hinsert rfl) rfl
        ?_
      rintro y hy hcompetes
      cases hy
      exact hcompetes
  | _ => trivial

/-- **Own.**  What a request counts is right when it has counted it. -/
theorem LimitedCall.Sound.step {c : LimitedCall} (hmonth : m.env.monthStart = month)
    (hc : c.Sound clock month s.db s.now) :
    (serveStatement pf m s c).2.Sound clock month (serveStatement pf m s c).1.db
      (serveStatement pf m s c).1.now := by
  cases c with
  | createRow c => exact createRow_sound hc
  | enqueuePush c => exact enqueuePush_sound hmonth hc
  | invoke c => exact invoke_sound hmonth hc

theorem LimitedCall.Sound.stillAllowed {c : LimitedCall} (hmonth : m.env.monthStart = month)
    (hc : c.Sound clock month s.db s.now) {x : Write}
    (hx : c.write (s.draws m) s.db = some x) : x.StillAllowed (s.draws m) s.db w := by
  cases c with
  | createRow c =>
    obtain ⟨claims, tableName, payload, stage⟩ := c
    cases stage with
    | checked table workspaceId normalized =>
      simp only [LimitedCall.write] at hx
      obtain ⟨-, -, rfl⟩ := Option.map_eq_some_iff.mp hx
      intro happ
      obtain rfl : workspaceId = w := Option.some.inj (hc.1.symm.trans happ)
      exact requireResourceLimitAvailable_eq_ok.mpr hc.2
    | _ => cases hx
  | enqueuePush c =>
    obtain ⟨input, stage⟩ := c
    cases stage with
    | inserted workspaceId id =>
      simp only [LimitedCall.write] at hx
      split at hx
      · cases hx
        rintro rfl
        rw [requireResourceLimitAvailable_eq_ok, usedResource_draws hmonth rfl]
        exact hc
      · cases hx
    | _ => cases hx
  | invoke c =>
    obtain ⟨request, stage⟩ := c
    cases stage with
    | checked function payload version workspaceId =>
      simp only [LimitedCall.write] at hx
      obtain ⟨-, -, rfl⟩ := Option.map_eq_some_iff.mp hx
      intro f hf hid _
      have hroom : RateRoom clock s.db (s.next m) function := RateRoom.later hc.1
      obtain rfl : f = function := KeyedTable.eq_of_key_eq _ hf hroom.1 hid
      exact requireRateLimit_eq_ok.mpr hroom.2
    | inserted workspaceId invocationId =>
      simp only [LimitedCall.write] at hx
      split at hx
      · cases hx
        rintro rfl
        rw [requireResourceLimitAvailable_eq_ok, usedResource_draws hmonth rfl]
        exact hc
      · cases hx
    | _ => cases hx

end Own

theorem LimitedCall.Sound.of_fresh {c : LimitedCall} (h : c.fresh) (db : Db) (now : Int) :
    c.Sound clock month db now := by
  cases c with
  | createRow c =>
    obtain ⟨claims, tableName, payload, stage⟩ := c
    obtain rfl : stage = .received := h
    trivial
  | enqueuePush c =>
    obtain ⟨input, stage⟩ := c
    obtain rfl : stage = .received := h
    trivial
  | invoke c =>
    obtain ⟨request, stage⟩ := c
    obtain rfl : stage = .received := h
    trivial

/-- **Requests that keep apart.**  In a run within a month in which nobody writes
    while another request has counted the same thing and not written yet, every
    check would still pass at the write, and the limits are kept. -/
theorem limits_kept_of_apart (pf : Platform) (clock : Clock) (w : String)
    (p : Pool ι (Server clock) LimitedCall) (hfresh : ∀ i, (p.request i).fresh)
    (hlimits : WithinLimits clock w p.store.db)
    (ticks : List (ι × Moment clock))
    (hapart : Admissible (serveStatement pf)
      (fun q t => t.2.env.monthStart = month ∧ ¬ WritesUnderCount q t) p ticks) :
    Always (serveStatement pf) (fun q => WithinLimits clock w q.store.db) p ticks := by
  let Inv : Pool ι (Server clock) LimitedCall → Prop := fun q =>
    (∀ i, (q.request i).Sound clock month q.store.db q.store.now) ∧
      WithinLimits clock w q.store.db
  have hstart : Inv p := ⟨fun i => .of_fresh (hfresh i) p.store.db p.store.now, hlimits⟩
  have hstep : ∀ (q : Pool ι (Server clock) LimitedCall) (t : ι × Moment clock), Inv q →
      t.2.env.monthStart = month ∧ ¬ WritesUnderCount q t →
      Inv (tick (serveStatement pf) q t) := by
    rintro q t ⟨hsound, hdb⟩ ⟨hmonth, hfree⟩
    refine ⟨?_, ?_⟩
    · apply assertions_tick_apart
        (A := fun (s : Server clock) c => LimitedCall.Sound clock month s.db s.now c)
      · exact LimitedCall.Sound.step hmonth
      · intro i hi hother
        refine hother.kept ((q.request t.1).step_performs pf (q.store.draws t.2) q.store.db)
          q.store.covered (q.store.now_le_next t.2) (q.store.next_covered t.2).2 ?_
        intro y hy z hz hcompetes
        exact hfree ⟨y, hy, i, hi, z, hz, hcompetes⟩
      · exact hsound
    · rw [withinLimits_step_iff hdb t]
      intro x hx
      exact (hsound t.1).stillAllowed hmonth hx
  intro pre post hsplit
  exact (run_rule hstep hstart hapart pre post hsplit).2

/-- One request after the other. -/
def notesInTurn : List (Bool × Moment newYear) :=
  List.replicate 5 (false, newYearMoment "b") ++ List.replicate 5 (true, newYearMoment "c")

/-- The first request inserts its row, the second finds no room. -/
theorem notes_in_turn_within_limits :
    (run (serveStatement asciiPlatform) twoNotes notesInTurn).store.db.dataRows.rows.length = 1 ∧
      Always (serveStatement asciiPlatform) (fun q => WithinLimits newYear "shop" q.store.db)
        twoNotes notesInTurn := by
  refine ⟨by decide +kernel, ?_⟩
  -- the other request has not begun or is over
  have hidle : ∀ n < 10, ∀ j, (notesInTurn[n]?).map Prod.fst ≠ some j →
      ((run (serveStatement asciiPlatform) twoNotes (notesInTurn.take n)).request
        j).pending.isEmpty = true := by
    decide +kernel
  have hmonth : ∀ t ∈ notesInTurn, t.2.env.monthStart = (sampleEnv "b").monthStart := by
    intro t ht
    rcases List.mem_append.mp ht with ht | ht <;> rw [List.eq_of_mem_replicate ht] <;> rfl
  refine limits_kept_of_apart asciiPlatform newYear "shop" twoNotes (fun _ => rfl)
    (cappedNotesDb_withinLimits newYear) notesInTurn (?_ : Admissible (serveStatement asciiPlatform)
      (fun q t => t.2.env.monthStart = (sampleEnv "b").monthStart ∧ ¬ WritesUnderCount q t)
      twoNotes notesInTurn)
  intro pre t post hsplit
  refine ⟨hmonth t (by simp [hsplit]), ?_⟩
  rintro ⟨-, -, j, hj, y, hy, -⟩
  have hless : pre.length < 10 := by
    have hlength := congrArg List.length hsplit
    rw [List.length_append, List.length_cons] at hlength
    have hten : notesInTurn.length = 10 := rfl
    omega
  have hnone := hidle pre.length hless j
  rw [hsplit, List.take_left, List.getElem?_append_right le_rfl, Nat.sub_self] at hnone
  have hempty := List.isEmpty_iff.mp (hnone fun hself => hj (Option.some.inj hself).symm)
  rw [hempty] at hy
  cases hy

end Peanut
