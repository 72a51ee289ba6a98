import Peanut.Jobs.Scheduler

/-!
# Occurrences of a schedule

A pass of the scheduler reads the clock once, for all jobs, and stamps a due job
with `CURRENT_TIMESTAMP` when the update is executed: a later reading, cut to whole
seconds.  The next pass asks for an occurrence after the stamp.
-/

namespace Peanut

open Relational

namespace Jobs

def second : Int := 1000000000

/-- An instant without its fraction of a second. -/
def wholeSeconds (instant : Int) : Int := instant / second * second

/-- A pass of the scheduler: the clock it reads, and when the update of each job is
    executed. -/
structure Pass where
  now : Int
  updatedAt : String → Int

section Passes

variable (calendar : Calendar) (currentTimestamp : Int → String)

/-- The loop over the jobs, with a stamp of its own for each job. -/
def processJobsAt (pass : Pass) : List ScheduledJob → Db → Db × List Task
  | [], db => (db, [])
  | job :: rest, db =>
      if isDue calendar pass.now job then
        let db := { db with
          scheduledJobs := db.scheduledJobs.updateWhere (fun j => j.id == job.id)
            (fun j => { j with lastRunAt := some (currentTimestamp (pass.updatedAt job.id)) })
            (fun _ => rfl) }
        let (db, tasks) := processJobsAt pass rest db
        (db, .scheduled job.id job.appId job.functionId :: tasks)
      else processJobsAt pass rest db

def processPass (db : Db) (pass : Pass) : Db × List Task :=
  processJobsAt calendar currentTimestamp pass (db.scheduledJobs.select (·.enabled)) db

theorem processPass_eq (db : Db) (env : Env) (pass : Pass)
    (hstamp : ∀ job, currentTimestamp (pass.updatedAt job) = env.now) :
    processPass calendar currentTimestamp db pass =
      processScheduledJobs calendar true db env pass.now := by
  have hjobs : ∀ (jobs : List ScheduledJob) (db : Db),
      processJobsAt calendar currentTimestamp pass jobs db =
        processJobs calendar env pass.now jobs db := by
    intro jobs
    induction jobs with
    | nil => intro db; rfl
    | cons job rest ih =>
      intro db
      rw [processJobsAt, processJobs, hstamp]
      simp only [ih]
  exact hjobs _ db

/-- The database after some passes. -/
def runPasses (db : Db) (passes : List Pass) : Db :=
  Transition.run (fun db pass => (processPass calendar currentTimestamp db pass).1) db passes

def Task.isFor (jobId : String) : Task → Bool
  | .scheduled id _ _ => id == jobId
  | .triggered .. => false

/-- Does the pass launch the job? -/
def launchedAt (jobId : String) (db : Db) (pass : Pass) : Bool :=
  (processPass calendar currentTimestamp db pass).2.any (Task.isFor jobId)

/-- The passes that launch the job. -/
def launches (jobId : String) : Db → List Pass → List Pass
  | _, [] => []
  | db, pass :: rest =>
      let db' := (processPass calendar currentTimestamp db pass).1
      if launchedAt calendar currentTimestamp jobId db pass then pass :: launches jobId db' rest
      else launches jobId db' rest

variable {calendar currentTimestamp}

/-! ### One pass -/

theorem any_isFor_processJobsAt (jobId : String) (pass : Pass) :
    ∀ (jobs : List ScheduledJob) (db : Db),
      (processJobsAt calendar currentTimestamp pass jobs db).2.any (Task.isFor jobId) =
        jobs.any fun j => j.id == jobId && isDue calendar pass.now j := by
  intro jobs
  induction jobs with
  | nil => intro db; rfl
  | cons job rest ih =>
    intro db
    rw [processJobsAt, List.any_cons]
    split
    · rename_i hdue
      rw [List.any_cons, ih, hdue, Bool.and_true]
      rfl
    · rename_i hdue
      rw [ih, Bool.eq_false_iff.mpr hdue, Bool.and_false, Bool.false_or]

theorem find?_processJobsAt (jobId : String) (pass : Pass) :
    ∀ (jobs : List ScheduledJob) (db : Db),
      (processJobsAt calendar currentTimestamp pass jobs db).1.scheduledJobs.find? jobId =
        (db.scheduledJobs.find? jobId).map fun row =>
          if jobs.any fun j => j.id == jobId && isDue calendar pass.now j then
            { row with lastRunAt := some (currentTimestamp (pass.updatedAt jobId)) }
          else row := by
  intro jobs
  induction jobs with
  | nil =>
    intro db
    rw [processJobsAt, List.any_nil]
    simp
  | cons job rest ih =>
    intro db
    rw [processJobsAt, List.any_cons]
    split
    · rename_i hdue
      rw [ih, KeyedTable.find?_updateWhere, Option.map_map, hdue, Bool.and_true]
      cases hrow : db.scheduledJobs.find? jobId with
      | none => rfl
      | some row =>
        have hid : row.id = jobId := (KeyedTable.find?_eq_some.mp hrow).2
        by_cases hsame : job.id = jobId
        · simp [hsame, hid]
        · simp [hsame, hid, Ne.symm hsame]
    · rename_i hdue
      rw [ih, Bool.eq_false_iff.mpr hdue, Bool.and_false, Bool.false_or]

variable {db : Db} {job : ScheduledJob}

theorem any_enabled (hjob : db.scheduledJobs.find? job.id = some job)
    (henabled : job.enabled = true) (pass : Pass) :
    ((db.scheduledJobs.select (·.enabled)).any fun j =>
      j.id == job.id && isDue calendar pass.now j) = isDue calendar pass.now job := by
  have hmem := (KeyedTable.find?_eq_some.mp hjob).1
  rw [Bool.eq_iff_iff, List.any_eq_true]
  constructor
  · rintro ⟨j, hj, hdue⟩
    rw [Bool.and_eq_true, beq_iff_eq] at hdue
    have hj' := (KeyedTable.mem_select.mp hj).1
    rw [← KeyedTable.eq_of_key_eq _ hj' hmem hdue.1]
    exact hdue.2
  · intro hdue
    exact ⟨job, KeyedTable.mem_select.mpr ⟨hmem, henabled⟩, by simp [hdue]⟩

theorem launchedAt_eq (hjob : db.scheduledJobs.find? job.id = some job)
    (henabled : job.enabled = true) (pass : Pass) :
    launchedAt calendar currentTimestamp job.id db pass = isDue calendar pass.now job := by
  rw [launchedAt, processPass, any_isFor_processJobsAt, any_enabled hjob henabled]

theorem find?_processPass (hjob : db.scheduledJobs.find? job.id = some job)
    (henabled : job.enabled = true) (pass : Pass) :
    (processPass calendar currentTimestamp db pass).1.scheduledJobs.find? job.id =
      some (if isDue calendar pass.now job then
        { job with lastRunAt := some (currentTimestamp (pass.updatedAt job.id)) } else job) := by
  rw [processPass, find?_processJobsAt, any_enabled hjob henabled, hjob]
  rfl

/-! ### Runs -/

theorem launches_append (jobId : String) (xs ys : List Pass) : ∀ db : Db,
    launches calendar currentTimestamp jobId db (xs ++ ys) =
      launches calendar currentTimestamp jobId db xs ++
        launches calendar currentTimestamp jobId (runPasses calendar currentTimestamp db xs)
          ys := by
  induction xs with
  | nil => intro db; rfl
  | cons x xs ih =>
    intro db
    have hrun : runPasses calendar currentTimestamp db (x :: xs) =
        runPasses calendar currentTimestamp (processPass calendar currentTimestamp db x).1 xs := rfl
    rw [List.cons_append, launches, launches, hrun]
    split
    · rw [ih, List.cons_append]
    · exact ih _

/-- The row of a job after a launch, or none. -/
def stampedBy (currentTimestamp : Int → String) (job : ScheduledJob) (launch : Option Pass) :
    ScheduledJob :=
  { job with lastRunAt := launch.map fun p => currentTimestamp (p.updatedAt job.id) }

/-- The last pass of a run that launched the job. -/
def lastLaunch (calendar : Calendar) (currentTimestamp : Int → String) (jobId : String) (db : Db)
    (passes : List Pass) : Option Pass :=
  (launches calendar currentTimestamp jobId db passes).getLast?

theorem runPasses_concat (db : Db) (passes : List Pass) (pass : Pass) :
    runPasses calendar currentTimestamp db (passes ++ [pass]) =
      (processPass calendar currentTimestamp (runPasses calendar currentTimestamp db passes)
        pass).1 :=
  Transition.run_append _ db passes [pass]

/-- The row of a job carries the stamp of its last launch, and nothing else changes. -/
theorem find?_runPasses (hjob : db.scheduledJobs.find? job.id = some job)
    (henabled : job.enabled = true) (hnever : job.lastRunAt = none) (passes : List Pass) :
    (runPasses calendar currentTimestamp db passes).scheduledJobs.find? job.id =
      some (stampedBy currentTimestamp job
        (lastLaunch calendar currentTimestamp job.id db passes)) := by
  induction passes using List.reverseRecOn with
  | nil =>
    rw [lastLaunch, launches, List.getLast?_nil, stampedBy, Option.map_none, ← hnever]
    exact hjob
  | append_singleton passes pass ih =>
    let row := stampedBy currentTimestamp job
      (lastLaunch calendar currentTimestamp job.id db passes)
    have hlaunched := @launchedAt_eq calendar currentTimestamp _ row ih henabled pass
    have hrow := @find?_processPass calendar currentTimestamp _ row ih henabled pass
    rw [runPasses_concat, lastLaunch, launches_append, launches, launches]
    have hsame : launchedAt calendar currentTimestamp job.id
        (runPasses calendar currentTimestamp db passes) pass = isDue calendar pass.now row :=
          hlaunched
    rw [hsame]
    refine hrow.trans ?_
    split
    · rw [List.getLast?_concat]
      rfl
    · rw [List.append_nil]
      rfl

theorem launchedAt_runPasses (hjob : db.scheduledJobs.find? job.id = some job)
    (henabled : job.enabled = true) (hnever : job.lastRunAt = none) (passes : List Pass)
    (pass : Pass) :
    launchedAt calendar currentTimestamp job.id (runPasses calendar currentTimestamp db passes)
      pass =
      isDue calendar pass.now (stampedBy currentTimestamp job
        (lastLaunch calendar currentTimestamp job.id db passes)) :=
  @launchedAt_eq calendar currentTimestamp _ (stampedBy currentTimestamp job _)
    (find?_runPasses hjob henabled hnever passes) henabled pass

/-! ### Occurrences -/

/-- `schedule.after(t).next()` is the first occurrence after `t`, and occurrences fall on
    whole seconds. -/
structure FirstAfter (schedule : Int → Option Int) (occurs : Int → Prop) : Prop where
  first : ∀ t o, schedule t = some o → occurs o ∧ t < o ∧ ∀ o', occurs o' → t < o' → o ≤ o'
  none : ∀ t, schedule t = none → ∀ o, occurs o → ¬ t < o
  whole : ∀ o, occurs o → wholeSeconds o = o

/-- There is an occurrence in `(a, b]`. -/
def OccursIn (occurs : Int → Prop) (a b : Int) : Prop := ∃ o, occurs o ∧ a < o ∧ o ≤ b

theorem isDue_iff {schedule : Int → Option Int} {occurs : Int → Prop} {row : ScheduledJob}
    {now : Int}
    (hexpr : calendar.scheduleFromStr row.cronExpr = .ok schedule)
    (hschedule : FirstAfter schedule occurs) :
    isDue calendar now row = true ↔ OccursIn occurs
      ((row.lastRunAt.bind (parseSqliteTimestamp calendar)).getD (now - neverRun)) now := by
  generalize hlast : (row.lastRunAt.bind (parseSqliteTimestamp calendar)).getD (now - neverRun) =
    last
  rw [isDue, hexpr]
  dsimp only
  rw [hlast]
  cases hnext : schedule last with
  | none =>
    constructor
    · intro h
      cases h
    · rintro ⟨o, ho, hlt, -⟩
      exact absurd hlt (hschedule.none last hnext o ho)
  | some next =>
    obtain ⟨hoccurs, hlt, hleast⟩ := hschedule.first last next hnext
    constructor
    · intro hle
      exact ⟨next, hoccurs, hlt, of_decide_eq_true hle⟩
    · rintro ⟨o, ho, hlt', hle⟩
      exact decide_eq_true (Int.le_trans (hleast o ho hlt') hle)

theorem wholeSeconds_le (instant : Int) : wholeSeconds instant ≤ instant := by
  rw [wholeSeconds, second]
  omega

theorem lt_of_wholeSeconds_lt {instant o : Int} (ho : wholeSeconds o = o)
    (h : wholeSeconds instant < o) : instant < o := by
  rw [wholeSeconds, second] at ho h
  omega

/-- Where nothing occurs between the pass and the update, the stamp counts as the pass. -/
theorem occursIn_wholeSeconds {schedule : Int → Option Int} {occurs : Int → Prop}
    (hschedule : FirstAfter schedule occurs) {launched updated now : Int} (hle : launched ≤ updated)
    (hquiet : ¬ OccursIn occurs launched updated) :
    OccursIn occurs (wholeSeconds updated) now ↔ OccursIn occurs launched now := by
  constructor
  · rintro ⟨o, ho, hlt, hnow⟩
    have hafter := lt_of_wholeSeconds_lt (hschedule.whole o ho) hlt
    exact ⟨o, ho, Int.lt_of_le_of_lt hle hafter, hnow⟩
  · rintro ⟨o, ho, hlt, hnow⟩
    refine ⟨o, ho, ?_, hnow⟩
    by_contra hnot
    have hbefore := Int.le_trans (Int.not_lt.mp hnot) (wholeSeconds_le updated)
    exact hquiet ⟨o, ho, hlt, hbefore⟩

/-! ### Launches -/

theorem launches_sublist (jobId : String) (passes : List Pass) : ∀ db : Db,
    List.Sublist (launches calendar currentTimestamp jobId db passes) passes := by
  induction passes with
  | nil => intro db; exact List.Sublist.refl []
  | cons pass rest ih =>
    intro db
    rw [launches]
    split
    · exact (ih _).cons_cons pass
    · exact (ih _).cons pass

/-- A run in which the job is as it was created: enabled, with a valid expression, and
    never launched. -/
structure NewJob (calendar : Calendar) (db : Db) (job : ScheduledJob)
    (schedule : Int → Option Int) : Prop where
  stored : job ∈ db.scheduledJobs
  enabled : job.enabled = true
  neverRun : job.lastRunAt = none
  valid : calendar.scheduleFromStr job.cronExpr = .ok schedule

/-- The clock of a run: passes follow each other, each update comes after the reading of
    its pass, and the stamp reads back as the second of the update. -/
structure PassesInOrder (calendar : Calendar) (currentTimestamp : Int → String) (jobId : String)
    (passes : List Pass) : Prop where
  ordered : passes.Pairwise fun p q => p.now < q.now
  later : ∀ p ∈ passes, p.now ≤ p.updatedAt jobId
  stamp : ∀ p ∈ passes, calendar.parseNaive (currentTimestamp (p.updatedAt jobId)) =
    some (wholeSeconds (p.updatedAt jobId))

section Launches

variable {schedule : Int → Option Int} {occurs : Int → Prop} {passes pre post : List Pass}
  {pass launch : Pass}

theorem find?_of_newJob (h : NewJob calendar db job schedule) :
    db.scheduledJobs.find? job.id = some job :=
  KeyedTable.find?_eq_some.mpr ⟨h.stored, rfl⟩

theorem first_launch_iff (hjob : NewJob calendar db job schedule)
    (hschedule : FirstAfter schedule occurs)
    (hnone : lastLaunch calendar currentTimestamp job.id db pre = none) :
    launchedAt calendar currentTimestamp job.id (runPasses calendar currentTimestamp db pre) pass =
        true ↔ OccursIn occurs (pass.now - neverRun) pass.now := by
  rw [launchedAt_runPasses (find?_of_newJob hjob) hjob.enabled hjob.neverRun, hnone]
  exact isDue_iff hjob.valid hschedule

/-- A job that has been launched is launched again when there has been an occurrence since. -/
theorem next_launch_iff (hjob : NewJob calendar db job schedule)
    (hschedule : FirstAfter schedule occurs)
    (horder : PassesInOrder calendar currentTimestamp job.id passes)
    (hsplit : passes = pre ++ pass :: post)
    (hlast : lastLaunch calendar currentTimestamp job.id db pre = some launch)
    (hquiet : ¬ OccursIn occurs launch.now (launch.updatedAt job.id)) :
    launchedAt calendar currentTimestamp job.id (runPasses calendar currentTimestamp db pre) pass =
        true ↔ OccursIn occurs launch.now pass.now := by
  have hmem : launch ∈ passes := by
    rw [hsplit]
    exact List.mem_append_left _
      ((launches_sublist job.id pre db).subset (List.mem_of_getLast? hlast))
  have hparse : parseSqliteTimestamp calendar (currentTimestamp (launch.updatedAt job.id)) =
      some (wholeSeconds (launch.updatedAt job.id)) := by
    rw [parseSqliteTimestamp, horder.stamp launch hmem, Option.some_or]
  have hdue := @isDue_iff calendar schedule occurs
    (stampedBy currentTimestamp job (some launch)) pass.now hjob.valid hschedule
  rw [launchedAt_runPasses (find?_of_newJob hjob) hjob.enabled hjob.neverRun, hlast, hdue,
    stampedBy,
    Option.map_some, Option.bind_some, hparse, Option.getD_some]
  exact occursIn_wholeSeconds hschedule (horder.later launch hmem) hquiet

theorem first_pass_after {o : Int} {last : Pass} (hlast : passes.getLast? = some last)
    (ho : o ≤ last.now) :
    ∃ pre pass post, passes = pre ++ pass :: post ∧ o ≤ pass.now ∧ ∀ p ∈ pre, p.now < o := by
  have hfound : (passes.find? fun p => decide (o ≤ p.now)).isSome = true := by
    rw [List.find?_isSome]
    exact ⟨last, List.mem_of_getLast? hlast, decide_eq_true ho⟩
  obtain ⟨pass, hpass⟩ := Option.isSome_iff_exists.mp hfound
  obtain ⟨hle, pre, post, hsplit, hbefore⟩ := List.find?_eq_some_iff_append.mp hpass
  refine ⟨pre, pass, post, hsplit, of_decide_eq_true hle, ?_⟩
  intro p hp
  simpa using hbefore p hp

/-- The pass covers an occurrence: it is the first launch at or after it. -/
structure Covers (launches : List Pass) (o : Int) (pass : Pass) : Prop where
  launched : pass ∈ launches
  reached : o ≤ pass.now
  missed : ∀ p ∈ launches, p.now < pass.now → p.now < o

theorem covered_once (hjob : NewJob calendar db job schedule)
    (hschedule : FirstAfter schedule occurs)
    (horder : PassesInOrder calendar currentTimestamp job.id passes)
    (hquiet : ∀ p ∈ launches calendar currentTimestamp job.id db passes,
      ¬ OccursIn occurs p.now (p.updatedAt job.id))
    {first last : Pass} {o : Int}
    (hfirst : (launches calendar currentTimestamp job.id db passes).head? = some first)
    (hlast : passes.getLast? = some last) (ho : occurs o) (hafter : first.now < o)
    (hbefore : o ≤ last.now) :
    ∃! p, Covers (launches calendar currentTimestamp job.id db passes) o p := by
  obtain ⟨pre, pass, post, hsplit, hreached, hpre⟩ := first_pass_after hlast hbefore
  subst hsplit
  obtain ⟨-, hrest, hcross⟩ := List.pairwise_append.mp horder.ordered
  obtain ⟨hpost, -⟩ := List.pairwise_cons.mp hrest
  have hsub := fun (l : List Pass) (db : Db) =>
    (@launches_sublist calendar currentTimestamp job.id l db).subset
  rw [launches_append] at hfirst hquiet ⊢
  -- the first launch is before the occurrence, so it is before the pass
  have hlaunches : launches calendar currentTimestamp job.id db pre ≠ [] := by
    intro hnone
    rw [hnone, List.nil_append] at hfirst
    rcases List.mem_cons.mp (hsub _ _ (List.mem_of_head? hfirst)) with rfl | hmem
    · omega
    · have := hpost first hmem
      omega
  obtain ⟨launch, hlaunch⟩ : ∃ launch,
      lastLaunch calendar currentTimestamp job.id db pre = some launch :=
    ⟨_, List.getLast?_eq_some_getLast hlaunches⟩
  have hmem : launch ∈ launches calendar currentTimestamp job.id db pre :=
    List.mem_of_getLast? hlaunch
  have hlaunched := (next_launch_iff hjob hschedule horder rfl hlaunch
    (hquiet launch (List.mem_append_left _ hmem))).mpr
      ⟨o, ho, hpre launch (hsub _ _ hmem), hreached⟩
  have hpass : pass ∈ launches calendar currentTimestamp job.id db pre ++
      launches calendar currentTimestamp job.id (runPasses calendar currentTimestamp db pre)
        (pass :: post) := by
    refine List.mem_append_right _ ?_
    rw [launches, if_pos hlaunched]
    exact List.mem_cons_self
  refine ⟨pass, ⟨hpass, hreached, ?_⟩, ?_⟩
  · intro p hp hlt
    rcases List.mem_append.mp hp with hp | hp
    · exact hpre p (hsub _ _ hp)
    · rcases List.mem_cons.mp (hsub _ _ hp) with rfl | hp
      · omega
      · have := hpost p hp
        omega
  · rintro p ⟨hp, hle, hmissed⟩
    rcases List.mem_append.mp hp with hp | hp
    · have := hpre p (hsub _ _ hp)
      omega
    · rcases List.mem_cons.mp (hsub _ _ hp) with rfl | hp
      · rfl
      · have := hmissed pass hpass (hpost p hp)
        omega

end Launches

end Passes

/-- **A job is launched when its schedule has had an occurrence.**  At first that is one
    of the last 3650 days, later one since the launch before; and from the first launch to
    the last pass each occurrence is covered once.  What occurs between a launch and its
    update is left out. -/
theorem launched_iff_occurrence {calendar : Calendar} {currentTimestamp : Int → String} {db : Db}
    {job : ScheduledJob} {schedule : Int → Option Int} {occurs : Int → Prop}
    (hjob : NewJob calendar db job schedule) (hschedule : FirstAfter schedule occurs)
    (passes : List Pass) (horder : PassesInOrder calendar currentTimestamp job.id passes) :
    (∀ pre pass post, passes = pre ++ pass :: post →
      (lastLaunch calendar currentTimestamp job.id db pre = none →
        (launchedAt calendar currentTimestamp job.id (runPasses calendar currentTimestamp db pre)
            pass = true ↔ OccursIn occurs (pass.now - neverRun) pass.now)) ∧
      ∀ launch, lastLaunch calendar currentTimestamp job.id db pre = some launch →
        ¬ OccursIn occurs launch.now (launch.updatedAt job.id) →
        (launchedAt calendar currentTimestamp job.id (runPasses calendar currentTimestamp db pre)
            pass = true ↔ OccursIn occurs launch.now pass.now)) ∧
    ((∀ p ∈ launches calendar currentTimestamp job.id db passes,
        ¬ OccursIn occurs p.now (p.updatedAt job.id)) →
      ∀ first last o, (launches calendar currentTimestamp job.id db passes).head? = some first →
        passes.getLast? = some last → occurs o → first.now < o → o ≤ last.now →
          ∃! p, Covers (launches calendar currentTimestamp job.id db passes) o p) := by
  refine ⟨?_, ?_⟩
  · intro pre pass post hsplit
    refine ⟨fun hnone => first_launch_iff hjob hschedule hnone, ?_⟩
    intro launch hlast hquiet
    exact next_launch_iff hjob hschedule horder hsplit hlast hquiet
  · intro hquiet first last o hfirst hlast ho hafter hbefore
    exact covered_once hjob hschedule horder hquiet hfirst hlast ho hafter hbefore

/-! ### A job created half a minute after midnight -/

/-- Stamps of the first two minutes of 2026. -/
def newYearStamp (instant : Int) : String :=
  if wholeSeconds instant = midnight + 40 * second then "2026-01-01 00:00:40"
  else if wholeSeconds instant = midnight + 60 * second then "2026-01-01 00:01:00"
  else "2026-01-01 00:01:40"

/-- `minuteCalendar`, which reads these stamps. -/
def newYearCalendar : Calendar :=
  { minuteCalendar with
    parseNaive := fun value =>
      if value = "2026-01-01 00:00:30" then some (midnight + 30 * second)
      else if value = "2026-01-01 00:00:40" then some (midnight + 40 * second)
      else if value = "2026-01-01 00:01:00" then some (midnight + 60 * second)
      else if value = "2026-01-01 00:01:40" then some (midnight + 100 * second)
      else none }

def newYearJob : ScheduledJob := { everyMinute with createdAt := "2026-01-01 00:00:30" }

def newYearDb : Db := { scheduledJobs := ⟨[newYearJob], by decide⟩ }

/-- A pass whose update is executed ten milliseconds after the clock is read. -/
def passAt (milliseconds : Int) : Pass :=
  { now := midnight + milliseconds * 1000000
    updatedAt := fun _ => midnight + (milliseconds + 10) * 1000000 }

def minuteOccurs (o : Int) : Prop := ∃ n : Int, o = n * 60000000000

theorem newYearJob_new :
    NewJob newYearCalendar newYearDb newYearJob fun t =>
      some ((t / 60000000000 + 1) * 60000000000) :=
  ⟨List.mem_singleton_self _, rfl, rfl, rfl⟩

theorem minute_firstAfter :
    FirstAfter (fun t => some ((t / 60000000000 + 1) * 60000000000)) minuteOccurs := by
  refine ⟨?_, nofun, ?_⟩
  · rintro t o ho
    rw [Option.some.injEq] at ho
    subst ho
    refine ⟨⟨_, rfl⟩, by omega, ?_⟩
    rintro o' ⟨n, rfl⟩ hlt
    omega
  · rintro o ⟨n, rfl⟩
    rw [wholeSeconds, second]
    omega

/-- The job is launched ten seconds after it is created, before its first occurrence; and
    when its update is executed past an occurrence, that one is skipped. -/
theorem new_job_launched_early :
    (parseSqliteTimestamp newYearCalendar newYearJob.createdAt = some (midnight + 30 * second) ∧
      launchedAt newYearCalendar newYearStamp newYearJob.id newYearDb (passAt 40000) = true ∧
      ¬ OccursIn minuteOccurs (midnight + 30 * second) (passAt 40000).now) ∧
    lastLaunch newYearCalendar newYearStamp newYearJob.id newYearDb [passAt 59995] =
        some (passAt 59995) ∧
      launchedAt newYearCalendar newYearStamp newYearJob.id
          (runPasses newYearCalendar newYearStamp newYearDb [passAt 59995])
          (passAt 100000) = false ∧
      OccursIn minuteOccurs (passAt 59995).now (passAt 100000).now := by
  refine ⟨⟨by decide +kernel, by decide +kernel, ?_⟩, ?_, by decide +kernel, ?_⟩
  · rintro ⟨o, ⟨n, rfl⟩, hlt, hle⟩
    simp only [midnight, second, passAt] at hlt hle
    omega
  · have hlaunched : launchedAt newYearCalendar newYearStamp newYearJob.id newYearDb
        (passAt 59995) = true := by decide +kernel
    rw [lastLaunch, launches, if_pos hlaunched]
    rfl
  · refine ⟨29453761 * 60000000000, ⟨_, rfl⟩, ?_, ?_⟩
    · simp only [midnight, passAt]
      omega
    · simp only [midnight, passAt]
      omega

/-- Launched at once, the job is launched again after the next full minute. -/
theorem launched_after_full_minute :
    launchedAt newYearCalendar newYearStamp newYearJob.id
      (runPasses newYearCalendar newYearStamp newYearDb [passAt 40000]) (passAt 100000) = true := by
  have horder : PassesInOrder newYearCalendar newYearStamp newYearJob.id
      [passAt 40000, passAt 100000] := by
    refine ⟨by decide +kernel, by decide +kernel, by decide +kernel⟩
  have hlaunched : launchedAt newYearCalendar newYearStamp newYearJob.id newYearDb
      (passAt 40000) = true := by decide +kernel
  have hlast : lastLaunch newYearCalendar newYearStamp newYearJob.id newYearDb [passAt 40000] =
      some (passAt 40000) := by
    rw [lastLaunch, launches, if_pos hlaunched]
    rfl
  refine (((launched_iff_occurrence newYearJob_new minute_firstAfter _ horder).1 [passAt 40000]
    (passAt 100000) [] rfl).2 (passAt 40000) hlast ?_).mpr ?_
  · rintro ⟨o, ⟨n, rfl⟩, hlt, hle⟩
    simp only [midnight, passAt] at hlt hle
    omega
  · refine ⟨29453761 * 60000000000, ⟨_, rfl⟩, ?_, ?_⟩
    · simp only [midnight, passAt]
      omega
    · simp only [midnight, passAt]
      omega

end Jobs

end Peanut
