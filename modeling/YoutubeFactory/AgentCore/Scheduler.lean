import YoutubeFactory.Lib.Except
import YoutubeFactory.Lib.OrderedMap
import YoutubeFactory.Workflow.Calendar
import Mathlib.Data.List.Sort

/-!
# The agent scheduler

`ScheduledJob` and `AgentScheduler` of `app/agents/scheduler/scheduler.py`.  A poll asks for the
jobs that are due and marks each of them as run at the moment of the poll.

A cron job that has run less than 60 seconds ago is not due.  So it never runs twice in a minute
(`dueIn_le_one`), but a run late in one minute can take up the next minute: the job runs in every
minute that matches exactly if it is not too soon at the last poll of each (`due_once_iff`).
-/

namespace YoutubeFactory.AgentCore

open Workflow (Minute Moment Digits ValueError asciiDigits)

/-! ## Jobs -/

inductive ScheduleKind where
  | immediate | delayed | recurring | cron
deriving DecidableEq, Repr

inductive SchedulePriority where
  | low | normal | high | critical
deriving DecidableEq, Repr

def SchedulePriority.value : SchedulePriority → Nat
  | .low => 0
  | .normal => 5
  | .high => 10
  | .critical => 20

/-- Microseconds since the first day.  The difference of two `datetime`s is that of these. -/
def micros (m : Moment) : Int := (m.minute.minutes * 60 + m.second) * 1000000 + m.microsecond

/-- `interval` is `timedelta(seconds=interval_seconds)` in microseconds. -/
structure ScheduledJob where
  kind : ScheduleKind
  priority : SchedulePriority
  runAt : Option Moment
  interval : Option Int
  cron : Option String
  enabled : Bool
  lastRun : Option Moment
deriving DecidableEq, Repr

namespace ScheduledJob

/-- `(now - last_run).total_seconds() < 60` -/
def tooSoon (job : ScheduledJob) (now : Moment) : Bool :=
  job.lastRun.any fun last => decide (micros now - micros last < 60 * 1000000)

/-- `is_due` -/
def isDue (digits : Digits) (job : ScheduledJob) (now : Moment) : Except ValueError Bool :=
  if job.enabled = false then .ok false
  else
    match job.kind, job.runAt, job.interval, job.cron with
    | .immediate, _, _, _ => .ok job.lastRun.isNone
    | .delayed, some runAt, _, _ => .ok (job.lastRun.isNone && decide (runAt ≤ now))
    | .recurring, _, some interval, _ =>
        .ok (job.lastRun.all fun last => decide (micros last + interval ≤ micros now))
    | .cron, _, _, some expression =>
        if job.tooSoon now then .ok false else digits.cronMatches expression now.minute
    | _, _, _, _ => .ok false

end ScheduledJob

/-! ## The scheduler -/

abbrev JobId := Nat

abbrev AgentScheduler := OrderedMap JobId ScheduledJob

/-- The comprehension of `due`. -/
def readyAmong (digits : Digits) (now : Moment) :
    List (JobId × ScheduledJob) → Except ValueError (List (JobId × ScheduledJob))
  | [] => .ok []
  | (id, job) :: jobs => do
      let isDue ← job.isDue digits now
      let ready ← readyAmong digits now jobs
      return if isDue then (id, job) :: ready else ready

namespace AgentScheduler

/-- `due`: highest priority first, and jobs of one priority in the order of the dictionary. -/
def due (digits : Digits) (scheduler : AgentScheduler) (now : Moment) :
    Except ValueError (List (JobId × ScheduledJob)) := do
  let ready ← readyAmong digits now scheduler.entries
  return ready.insertionSort fun i j => j.2.priority.value ≤ i.2.priority.value

/-- `mark_run` -/
def markRun (now : Moment) (scheduler : AgentScheduler) (id : JobId) : AgentScheduler :=
  match scheduler.get? id with
  | some job => scheduler.set id { job with lastRun := some now }
  | none => scheduler

/-- A poll: the jobs that are due are marked.  If `due` raises, nothing is. -/
def poll (digits : Digits) (scheduler : AgentScheduler) (now : Moment) : AgentScheduler :=
  match scheduler.due digits now with
  | .ok jobs => (jobs.map Prod.fst).foldl (markRun now) scheduler
  | .error _ => scheduler

/-- `due` returns, with the job among its results. -/
def isDueAt (digits : Digits) (scheduler : AgentScheduler) (id : JobId) (now : Moment) : Bool :=
  match scheduler.due digits now with
  | .ok jobs => decide (id ∈ jobs.map Prod.fst)
  | .error _ => false

/-- How often the job is due in the polls of a minute. -/
def dueIn (digits : Digits) (id : JobId) (minute : Minute) : AgentScheduler → List Moment → Nat
  | _, [] => 0
  | scheduler, now :: polls =>
      (if now.minute = minute ∧ scheduler.isDueAt digits id now = true then 1 else 0) +
        dueIn digits id minute (scheduler.poll digits now) polls

end AgentScheduler

/-! ## What a poll does to a job -/

variable {digits : Digits}

namespace ScheduledJob

variable {job : ScheduledJob} {now : Moment}

/-- A cron expression that has to be read at the moment is read without an exception. -/
def Readable (digits : Digits) (job : ScheduledJob) (now : Moment) : Prop :=
  job.enabled = true → job.kind = .cron → job.tooSoon now = false →
    ∀ expression ∈ job.cron, ∃ found, digits.cronMatches expression now.minute = .ok found

theorem isDue_ok_iff : (∃ b, job.isDue digits now = .ok b) ↔ job.Readable digits now := by
  obtain ⟨kind, priority, runAt, interval, cron, enabled, lastRun⟩ := job
  unfold Readable isDue
  cases enabled with
  | false => simp
  | true =>
      cases kind with
      | immediate => simp
      | delayed => cases runAt <;> simp
      | recurring => cases interval <;> simp
      | cron =>
          cases cron with
          | none => simp
          | some expression =>
              simp only [Bool.true_eq_false, if_false]
              split <;> simp_all

/-- When a cron job is due. -/
theorem isDue_cron_iff {expression : String} (hkind : job.kind = .cron)
    (hcron : job.cron = some expression) :
    job.isDue digits now = .ok true ↔
      job.enabled = true ∧ job.tooSoon now = false ∧
        digits.cronMatches expression now.minute = .ok true := by
  obtain ⟨kind, priority, runAt, interval, cron, enabled, lastRun⟩ := job
  cases hkind
  cases hcron
  unfold isDue
  cases enabled with
  | false => simp
  | true =>
      simp only [Bool.true_eq_false, if_false]
      split <;> simp_all

end ScheduledJob

/-- The jobs that are ready: all can be asked, and these are due. -/
theorem readyAmong_eq_ok {now : Moment} :
    ∀ {jobs ready : List (JobId × ScheduledJob)}, readyAmong digits now jobs = .ok ready →
      (∀ j ∈ jobs, ∃ b, j.2.isDue digits now = .ok b) ∧
        ∀ j, j ∈ ready ↔ j ∈ jobs ∧ j.2.isDue digits now = .ok true
  | [], _, h => by
      cases h
      exact ⟨fun j hj => absurd hj List.not_mem_nil, by simp⟩
  | (id, job) :: jobs, _, h => by
      obtain ⟨b, hb, h⟩ := Except.bind_eq_ok.mp h
      obtain ⟨ready, hready, h⟩ := Except.bind_eq_ok.mp h
      obtain ⟨hall, hmem⟩ := readyAmong_eq_ok hready
      refine ⟨List.forall_mem_cons.mpr ⟨⟨b, hb⟩, hall⟩, fun j => ?_⟩
      cases b with
      | true =>
          cases h
          simp only [if_true, List.mem_cons, hmem]
          constructor
          · rintro (rfl | ⟨hj, hdue⟩)
            · exact ⟨.inl rfl, hb⟩
            · exact ⟨.inr hj, hdue⟩
          · rintro ⟨rfl | hj, hdue⟩
            · exact .inl rfl
            · exact .inr ⟨hj, hdue⟩
      | false =>
          cases h
          simp only [Bool.false_eq_true, if_false, List.mem_cons, hmem]
          constructor
          · rintro ⟨hj, hdue⟩
            exact ⟨.inr hj, hdue⟩
          · rintro ⟨rfl | hj, hdue⟩
            · rw [hb] at hdue
              cases hdue
            · exact ⟨hj, hdue⟩

theorem readyAmong_ok {now : Moment} :
    ∀ {jobs : List (JobId × ScheduledJob)}, (∀ j ∈ jobs, ∃ b, j.2.isDue digits now = .ok b) →
      ∃ ready, readyAmong digits now jobs = .ok ready
  | [], _ => ⟨[], rfl⟩
  | (id, job) :: jobs, h => by
      rw [List.forall_mem_cons] at h
      obtain ⟨⟨b, hb⟩, hrest⟩ := h
      obtain ⟨ready, hready⟩ := readyAmong_ok hrest
      have hb : job.isDue digits now = .ok b := hb
      exact ⟨_, by rw [readyAmong, hb, hready]; rfl⟩

namespace AgentScheduler

variable {scheduler : AgentScheduler} {id : JobId} {job : ScheduledJob} {now : Moment}

/-- `due` raises nothing. -/
def Answers (digits : Digits) (scheduler : AgentScheduler) (now : Moment) : Prop :=
  ∀ j ∈ scheduler.entries, j.2.Readable digits now

/-- A job is due where all jobs can be asked and it says so. -/
theorem isDueAt_iff (hjob : scheduler.get? id = some job) :
    scheduler.isDueAt digits id now = true ↔
      scheduler.Answers digits now ∧ job.isDue digits now = .ok true := by
  unfold isDueAt due Answers
  simp only [← ScheduledJob.isDue_ok_iff]
  cases hready : readyAmong digits now scheduler.entries with
  | error e =>
      refine iff_of_false Bool.false_ne_true fun h => ?_
      obtain ⟨ready, hok⟩ := readyAmong_ok h.1
      rw [hready] at hok
      cases hok
  | ok ready =>
      obtain ⟨hall, hmem⟩ := readyAmong_eq_ok hready
      simp only [Except.ok_bind, Except.pure_eq_ok, decide_eq_true_eq, List.mem_map,
        List.mem_insertionSort, hmem]
      constructor
      · rintro ⟨j, ⟨hj, hdue⟩, rfl⟩
        have hget := OrderedMap.get?_of_mem hj
        rw [hjob] at hget
        cases hget
        exact ⟨hall, hdue⟩
      · rintro ⟨-, hdue⟩
        exact ⟨(id, job), ⟨OrderedMap.mem_of_get? hjob, hdue⟩, rfl⟩

theorem get?_markRun (other : JobId) :
    (scheduler.markRun now other).get? id =
      if id = other then (scheduler.get? id).map ({ · with lastRun := some now })
      else scheduler.get? id := by
  unfold markRun
  by_cases hother : id = other
  · cases hother
    rw [if_pos rfl]
    cases hget : scheduler.get? id with
    | none => exact hget
    | some job =>
        rw [OrderedMap.get?_set, if_pos rfl]
        rfl
  · rw [if_neg hother]
    cases hget : scheduler.get? other with
    | none => rfl
    | some job => rw [OrderedMap.get?_set, if_neg hother]

theorem get?_markAll :
    ∀ {ids : List JobId} {scheduler : AgentScheduler},
      (ids.foldl (markRun now) scheduler).get? id =
        if id ∈ ids then (scheduler.get? id).map ({ · with lastRun := some now })
        else scheduler.get? id
  | [], scheduler => by simp
  | other :: ids, scheduler => by
      rw [List.foldl_cons, get?_markAll, get?_markRun]
      by_cases hother : id = other
      · subst hother
        by_cases hmem : id ∈ ids <;> simp [hmem, Function.comp_def]
      · by_cases hmem : id ∈ ids <;> simp [hother, hmem]

/-- A poll leaves a job, apart from the time of its last run. -/
theorem get?_poll (hjob : scheduler.get? id = some job) :
    (scheduler.poll digits now).get? id =
      some (if scheduler.isDueAt digits id now = true then { job with lastRun := some now }
        else job) := by
  unfold poll isDueAt
  cases scheduler.due digits now with
  | error e => simpa using hjob
  | ok jobs =>
      simp only [get?_markAll, hjob, Option.map_some, decide_eq_true_eq]
      split <;> rfl

end AgentScheduler

/-! ## The minutes of a run -/

/-- What the constructor of `datetime` accepts. -/
structure IsDatetime (m : Moment) : Prop where
  date : m.minute.IsDate
  second : m.second ≤ 59
  microsecond : m.microsecond ≤ 999999

namespace ScheduledJob

variable {job : ScheduledJob} {now : Moment}

/-- The last run of the job was in the minute. -/
def RanIn (job : ScheduledJob) (minute : Minute) : Prop :=
  ∃ last ∈ job.lastRun, last.minute = minute

/-- The last run of the job was in the minute, or later. -/
def RanSince (job : ScheduledJob) (minute : Minute) : Prop :=
  ∃ last ∈ job.lastRun, minute ≤ last.minute

theorem RanIn.ranSince {minute : Minute} (h : job.RanIn minute) : job.RanSince minute := by
  obtain ⟨last, hlast, rfl⟩ := h
  exact ⟨last, hlast, le_refl _⟩

/-- In the minute of its last run, and before it, the job counts as run too recently. -/
theorem RanSince.tooSoon (h : job.RanSince now.minute) (hnow : IsDatetime now)
    (hvalid : ∀ last ∈ job.lastRun, IsDatetime last) : job.tooSoon now = true := by
  obtain ⟨last, hlast, hle⟩ := h
  have hminutes := Minute.minutes_le hnow.date (hvalid last hlast).date hle
  have hsecond := hnow.second
  have hmicrosecond := hnow.microsecond
  unfold ScheduledJob.tooSoon micros
  rw [Option.any_eq_true]
  exact ⟨last, hlast, decide_eq_true (by omega)⟩

end ScheduledJob

namespace AgentScheduler

/-- The polls of a minute. -/
def PolledIn (minute : Minute) (polls : List Moment) : Prop := ∃ now ∈ polls, now.minute = minute

/-- The scheduler holds a cron job with the expression. -/
structure HasCron (scheduler : AgentScheduler) (id : JobId) (expression : String)
    (job : ScheduledJob) : Prop where
  held : scheduler.get? id = some job
  kind : job.kind = .cron
  cron : job.cron = some expression
  lastRun : ∀ last ∈ job.lastRun, IsDatetime last

/-- Nothing keeps the job from a run but its expression: `due` does not raise, the job is enabled,
and its last run, if any, is at least 60 seconds ago. -/
def MayRun (digits : Digits) (scheduler : AgentScheduler) (job : ScheduledJob) (now : Moment) :
    Prop :=
  scheduler.Answers digits now ∧ job.enabled = true ∧ job.tooSoon now = false

/-- At the last poll of a minute the job may run, or it has run in the minute. -/
def MayRunBy (digits : Digits) (id : JobId) (minute : Minute) : AgentScheduler → List Moment → Prop
  | _, [] => True
  | scheduler, now :: polls =>
      (now.minute = minute → ¬ PolledIn minute polls → ∀ job ∈ scheduler.get? id,
        job.RanIn minute ∨ scheduler.MayRun digits job now) ∧
      MayRunBy digits id minute (scheduler.poll digits now) polls

variable {scheduler : AgentScheduler} {id : JobId} {expression : String} {job : ScheduledJob}
  {now : Moment} {minute : Minute} {polls : List Moment}

namespace HasCron

theorem isDueAt_iff (h : scheduler.HasCron id expression job) :
    scheduler.isDueAt digits id now = true ↔
      scheduler.MayRun digits job now ∧ digits.cronMatches expression now.minute = .ok true := by
  rw [AgentScheduler.isDueAt_iff h.held, ScheduledJob.isDue_cron_iff h.kind h.cron]
  unfold MayRun
  tauto

/-- A job that is due is marked. -/
theorem poll_of_due (h : scheduler.HasCron id expression job) (hnow : IsDatetime now)
    (hdue : scheduler.isDueAt digits id now = true) :
    (scheduler.poll digits now).HasCron id expression { job with lastRun := some now } where
  held := by rw [get?_poll h.held, if_pos hdue]
  kind := h.kind
  cron := h.cron
  lastRun := by
    intro last hlast
    cases hlast
    exact hnow

/-- A job that is not due stays. -/
theorem poll_of_not_due (h : scheduler.HasCron id expression job)
    (hdue : ¬ scheduler.isDueAt digits id now = true) :
    (scheduler.poll digits now).HasCron id expression job :=
  { h with held := by rw [get?_poll h.held, if_neg hdue] }

theorem poll (h : scheduler.HasCron id expression job) (hnow : IsDatetime now) :
    ∃ job', (scheduler.poll digits now).HasCron id expression job' := by
  by_cases hdue : scheduler.isDueAt digits id now = true
  · exact ⟨_, h.poll_of_due hnow hdue⟩
  · exact ⟨_, h.poll_of_not_due hdue⟩

theorem not_due_of_ranSince (h : scheduler.HasCron id expression job) (hnow : IsDatetime now)
    (hran : job.RanSince now.minute) : ¬ scheduler.isDueAt digits id now = true := by
  intro hdue
  have hsoon := (h.isDueAt_iff.mp hdue).1.2.2
  rw [hran.tooSoon hnow h.lastRun] at hsoon
  cases hsoon

/-- After a run in a minute, or later, the job is not due in the minute. -/
theorem dueIn_of_ranSince :
    ∀ {polls : List Moment} {scheduler : AgentScheduler} {job : ScheduledJob},
      scheduler.HasCron id expression job → (∀ now ∈ polls, IsDatetime now) →
        job.RanSince minute → dueIn digits id minute scheduler polls = 0
  | [], _, _, _, _, _ => rfl
  | now :: polls, scheduler, job, h, hpolls, hran => by
      rw [List.forall_mem_cons] at hpolls
      rw [dueIn]
      by_cases hdue : scheduler.isDueAt digits id now = true
      · -- the run is later than the last one, so it is past the minute
        have hlater : minute < now.minute := by
          obtain ⟨last, hlast, hle⟩ := hran
          refine lt_of_not_ge fun hge => ?_
          exact h.not_due_of_ranSince hpolls.1 ⟨last, hlast, hge.trans hle⟩ hdue
        rw [if_neg fun hmem => hlater.ne hmem.1.symm, Nat.zero_add]
        exact dueIn_of_ranSince (h.poll_of_due hpolls.1 hdue) hpolls.2 ⟨now, rfl, hlater.le⟩
      · rw [if_neg fun hmem => hdue hmem.2, Nat.zero_add]
        exact dueIn_of_ranSince (h.poll_of_not_due hdue) hpolls.2 hran

/-- A cron job is due in a minute once at most. -/
theorem dueIn_le_one :
    ∀ {polls : List Moment} {scheduler : AgentScheduler} {job : ScheduledJob},
      scheduler.HasCron id expression job → (∀ now ∈ polls, IsDatetime now) →
        dueIn digits id minute scheduler polls ≤ 1
  | [], _, _, _, _ => Nat.zero_le 1
  | now :: polls, scheduler, job, h, hpolls => by
      rw [List.forall_mem_cons] at hpolls
      rw [dueIn]
      by_cases hdue : scheduler.isDueAt digits id now = true
      · have hnext := h.poll_of_due hpolls.1 hdue
        by_cases hminute : now.minute = minute
        · have hran : ScheduledJob.RanSince { job with lastRun := some now } minute :=
            ⟨now, rfl, hminute.ge⟩
          rw [if_pos ⟨hminute, hdue⟩, hnext.dueIn_of_ranSince hpolls.2 hran]
        · rw [if_neg fun hmem => hminute hmem.1, Nat.zero_add]
          exact dueIn_le_one hnext hpolls.2
      · rw [if_neg fun hmem => hdue hmem.2, Nat.zero_add]
        exact dueIn_le_one (h.poll_of_not_due hdue) hpolls.2

/-- In a minute that does not match, the job is not due. -/
theorem dueIn_of_not_matches (hmatches : digits.cronMatches expression minute ≠ .ok true) :
    ∀ {polls : List Moment} {scheduler : AgentScheduler} {job : ScheduledJob},
      scheduler.HasCron id expression job → (∀ now ∈ polls, IsDatetime now) →
        dueIn digits id minute scheduler polls = 0
  | [], _, _, _, _ => rfl
  | now :: polls, scheduler, job, h, hpolls => by
      rw [List.forall_mem_cons] at hpolls
      have hnot : ¬ (now.minute = minute ∧ scheduler.isDueAt digits id now = true) := by
        rintro ⟨hminute, hdue⟩
        exact hmatches (hminute ▸ (h.isDueAt_iff.mp hdue).2)
      obtain ⟨_, hnext⟩ : ∃ job', (scheduler.poll digits now).HasCron id expression job' :=
        h.poll hpolls.1
      rw [dueIn, if_neg hnot, Nat.zero_add]
      exact dueIn_of_not_matches hmatches hnext hpolls.2

end HasCron

theorem dueIn_of_not_polledIn :
    ∀ {polls : List Moment} {scheduler : AgentScheduler}, ¬ PolledIn minute polls →
      dueIn digits id minute scheduler polls = 0
  | [], _, _ => rfl
  | now :: polls, scheduler, h => by
      unfold PolledIn at h
      rw [List.exists_mem_cons_iff, not_or] at h
      rw [dueIn, if_neg fun hmem => h.1 hmem.1, Nat.zero_add]
      exact dueIn_of_not_polledIn h.2

theorem mayRunBy_of_not_polledIn :
    ∀ {polls : List Moment} {scheduler : AgentScheduler}, ¬ PolledIn minute polls →
      MayRunBy digits id minute scheduler polls
  | [], _, _ => trivial
  | now :: polls, scheduler, h => by
      unfold PolledIn at h
      rw [List.exists_mem_cons_iff, not_or] at h
      exact ⟨fun hminute => absurd hminute h.1, mayRunBy_of_not_polledIn h.2⟩

namespace HasCron

/-- A run in the minute lasts until its last poll. -/
theorem mayRunBy_of_ranIn :
    ∀ {polls : List Moment} {scheduler : AgentScheduler},
      scheduler.HasCron id expression job → (∀ now ∈ polls, IsDatetime now) →
        polls.Pairwise (· ≤ ·) → job.RanIn minute → MayRunBy digits id minute scheduler polls
  | [], _, _, _, _, _ => trivial
  | now :: polls, scheduler, h, hpolls, hsorted, hran => by
      rw [List.forall_mem_cons] at hpolls
      rw [List.pairwise_cons] at hsorted
      constructor
      · intro _ _ job' hjob'
        rw [h.held] at hjob'
        cases hjob'
        exact .inl hran
      by_cases hdue : scheduler.isDueAt digits id now = true
      · -- the job is due again only after the minute
        refine mayRunBy_of_not_polledIn fun hpolled => ?_
        obtain ⟨later, hlater, rfl⟩ := hpolled
        have hle : now.minute ≤ later.minute := Moment.minute_le (hsorted.1 later hlater)
        obtain ⟨last, hlast, hminute⟩ := hran
        exact h.not_due_of_ranSince hpolls.1 ⟨last, hlast, hle.trans hminute.ge⟩ hdue
      · exact mayRunBy_of_ranIn (h.poll_of_not_due hdue) hpolls.2 hsorted.2 hran

/-- In a minute that matches, the job is due exactly if it may run by the last poll. -/
theorem dueIn_eq_one_iff (hmatches : digits.cronMatches expression minute = .ok true) :
    ∀ {polls : List Moment} {scheduler : AgentScheduler} {job : ScheduledJob},
      scheduler.HasCron id expression job → (∀ now ∈ polls, IsDatetime now) →
        polls.Pairwise (· ≤ ·) → PolledIn minute polls → ¬ job.RanIn minute →
          (dueIn digits id minute scheduler polls = 1 ↔ MayRunBy digits id minute scheduler polls)
  | [], _, _, _, _, _, hpolled, _ => by
      obtain ⟨now, hmem, -⟩ := hpolled
      exact absurd hmem List.not_mem_nil
  | now :: polls, scheduler, job, h, hpolls, hsorted, hpolled, hran => by
      rw [List.forall_mem_cons] at hpolls
      rw [List.pairwise_cons] at hsorted
      rw [dueIn, MayRunBy]
      by_cases hminute : now.minute = minute
      · by_cases hdue : scheduler.isDueAt digits id now = true
        · have hnext := h.poll_of_due hpolls.1 hdue
          have hran' : ScheduledJob.RanIn { job with lastRun := some now } minute :=
            ⟨now, rfl, hminute⟩
          rw [if_pos ⟨hminute, hdue⟩, hnext.dueIn_of_ranSince hpolls.2 hran'.ranSince]
          refine iff_of_true rfl ⟨fun _ _ job' hjob' => ?_,
            hnext.mayRunBy_of_ranIn hpolls.2 hsorted.2 hran'⟩
          rw [h.held] at hjob'
          cases hjob'
          exact .inr (h.isDueAt_iff.mp hdue).1
        · rw [if_neg fun hmem => hdue hmem.2, Nat.zero_add]
          have hnext := h.poll_of_not_due hdue
          by_cases hlater : PolledIn minute polls
          · rw [dueIn_eq_one_iff hmatches hnext hpolls.2 hsorted.2 hlater hran]
            exact ⟨fun hrest => ⟨fun _ hnot => absurd hlater hnot, hrest⟩, And.right⟩
          · -- the last poll of the minute: what keeps the job from a run here keeps it out of it
            rw [dueIn_of_not_polledIn hlater]
            refine iff_of_false Nat.zero_ne_one fun hmay => ?_
            rw [← hminute] at hmatches
            rcases hmay.1 hminute hlater job h.held with hran' | hmay
            · exact hran hran'
            · exact hdue (h.isDueAt_iff.mpr ⟨hmay, hmatches⟩)
      · rw [if_neg fun hmem => hminute hmem.1, Nat.zero_add]
        have hpolled : PolledIn minute polls := by
          obtain ⟨p, hp, hp'⟩ := hpolled
          rcases List.mem_cons.mp hp with rfl | hp
          · exact absurd hp' hminute
          · exact ⟨p, hp, hp'⟩
        have hhead : now.minute = minute → ¬ PolledIn minute polls → ∀ job ∈ scheduler.get? id,
            job.RanIn minute ∨ scheduler.MayRun digits job now :=
          fun heq => absurd heq hminute
        rw [iff_true_intro hhead, true_and]
        by_cases hdue : scheduler.isDueAt digits id now = true
        · refine dueIn_eq_one_iff hmatches (h.poll_of_due hpolls.1 hdue) hpolls.2 hsorted.2
            hpolled ?_
          rintro ⟨last, hlast, hlast'⟩
          cases hlast
          exact hminute hlast'
        · exact dueIn_eq_one_iff hmatches (h.poll_of_not_due hdue) hpolls.2 hsorted.2 hpolled hran

end HasCron

/-- Under polls whose times do not go back, a cron job is due exactly once in every polled minute
that matches, and in no other, if and only if its last run before the polls was in none of these
minutes, and at the last poll of each it has run in the minute or may run. -/
theorem due_once_iff (hcron : scheduler.HasCron id expression job)
    (hpolls : ∀ now ∈ polls, IsDatetime now) (hsorted : polls.Pairwise (· ≤ ·)) :
    (∀ minute, PolledIn minute polls →
      dueIn digits id minute scheduler polls =
        if digits.cronMatches expression minute = .ok true then 1 else 0) ↔
    ∀ minute, PolledIn minute polls → digits.cronMatches expression minute = .ok true →
      ¬ job.RanIn minute ∧ MayRunBy digits id minute scheduler polls := by
  refine forall_congr' fun minute => forall_congr' fun hpolled => ?_
  by_cases hmatches : digits.cronMatches expression minute = .ok true
  · rw [if_pos hmatches, imp_iff_right hmatches]
    by_cases hran : job.RanIn minute
    · rw [hcron.dueIn_of_ranSince hpolls hran.ranSince]
      exact iff_of_false Nat.zero_ne_one fun h => h.1 hran
    · rw [hcron.dueIn_eq_one_iff hmatches hpolls hsorted hpolled hran, and_iff_right hran]
  · rw [if_neg hmatches]
    exact iff_of_true (hcron.dueIn_of_not_matches hmatches hpolls)
      fun h => absurd h hmatches

/-- A job for every minute that has run at the moment, if any. -/
def everyMinute (lastRun : Option Moment) : ScheduledJob where
  kind := .cron
  priority := .normal
  runAt := none
  interval := none
  cron := some "* * * * *"
  enabled := true
  lastRun := lastRun

def onlyEveryMinute (lastRun : Option Moment) : AgentScheduler :=
  OrderedMap.empty.set 0 (everyMinute lastRun)

/-- A moment on the third of March 2025, after nine o'clock. -/
def morning (minute second : Nat) : Moment := ⟨⟨2025, 3, 3, 9, minute⟩, second, 0⟩

theorem hasCron_onlyEveryMinute :
    (onlyEveryMinute none).HasCron 0 "* * * * *" (everyMinute none) where
  held := rfl
  kind := rfl
  cron := rfl
  lastRun := by
    intro last hlast
    cases hlast

theorem isDatetime_morning {minute second : Nat} (hminute : minute ≤ 59) (hsecond : second ≤ 59) :
    IsDatetime (morning minute second) where
  date :=
    { year := show 1 ≤ 2025 ∧ 2025 ≤ 9999 by decide
      month := show 1 ≤ 3 ∧ 3 ≤ 12 by decide
      day := show 1 ≤ 3 ∧ 3 ≤ 31 by decide
      hour := show 9 ≤ 23 by decide
      minute := hminute }
  second := hsecond
  microsecond := Nat.zero_le _

/-- The first poll runs the job late in its minute, and the poll of the next minute is too soon. -/
theorem minute_missed :
    (onlyEveryMinute none).HasCron 0 "* * * * *" (everyMinute none) ∧
      (∀ now ∈ [morning 0 50, morning 1 10], IsDatetime now) ∧
      [morning 0 50, morning 1 10].Pairwise (· ≤ ·) ∧
      asciiDigits.cronMatches "* * * * *" (morning 1 10).minute = .ok true ∧
      dueIn asciiDigits 0 (morning 0 50).minute (onlyEveryMinute none)
        [morning 0 50, morning 1 10] = 1 ∧
      dueIn asciiDigits 0 (morning 1 10).minute (onlyEveryMinute none)
        [morning 0 50, morning 1 10] = 0 := by
  refine ⟨hasCron_onlyEveryMinute, ?_, by decide, by decide, by decide +kernel, by decide +kernel⟩
  rw [List.forall_mem_cons, List.forall_mem_singleton]
  exact ⟨isDatetime_morning (by decide) (by decide), isDatetime_morning (by decide) (by decide)⟩

theorem mayRun_onlyEveryMinute {lastRun : Option Moment} {now : Moment}
    (hreads : asciiDigits.cronMatches "* * * * *" now.minute = .ok true)
    (hsoon : (everyMinute lastRun).tooSoon now = false) :
    (onlyEveryMinute lastRun).MayRun asciiDigits (everyMinute lastRun) now := by
  refine ⟨fun j hj => ?_, rfl, hsoon⟩
  cases List.mem_singleton.mp hj
  intro _ _ _ expression hexpression
  cases hexpression
  exact ⟨true, hreads⟩

/-- Polls at one second of every minute. -/
theorem every_minute_due_once :
    dueIn asciiDigits 0 (morning 45 5).minute (onlyEveryMinute none)
        [morning 45 5, morning 46 5] = 1 ∧
      dueIn asciiDigits 0 (morning 46 5).minute (onlyEveryMinute none)
        [morning 45 5, morning 46 5] = 1 := by
  have hpolls : ∀ now ∈ [morning 45 5, morning 46 5], IsDatetime now := by
    rw [List.forall_mem_cons, List.forall_mem_singleton]
    exact ⟨isDatetime_morning (by decide) (by decide), isDatetime_morning (by decide) (by decide)⟩
  have hfirst : (onlyEveryMinute none).poll asciiDigits (morning 45 5) =
      onlyEveryMinute (some (morning 45 5)) := by
    decide +kernel
  have honce := (due_once_iff hasCron_onlyEveryMinute hpolls (by decide)).mpr (by
    rintro minute ⟨now, hnow, rfl⟩ -
    refine ⟨?_, ?_⟩
    · rintro ⟨last, hlast, -⟩
      cases hlast
    simp only [List.mem_cons, List.not_mem_nil, or_false] at hnow
    rw [MayRunBy, MayRunBy, MayRunBy, hfirst]
    rcases hnow with rfl | rfl
    · refine ⟨fun _ _ job hjob => ?_, fun hother => absurd hother (by decide), trivial⟩
      cases hjob
      exact .inr (mayRun_onlyEveryMinute (by decide +kernel) rfl)
    · refine ⟨fun hother => absurd hother (by decide), fun _ _ job hjob => ?_, trivial⟩
      cases hjob
      exact .inr (mayRun_onlyEveryMinute (by decide +kernel) (by decide)))
  constructor
  · have h := honce _ ⟨_, List.mem_cons_self, rfl⟩
    rwa [if_pos (by decide +kernel)] at h
  · have h := honce _ ⟨_, List.mem_cons_of_mem _ List.mem_cons_self, rfl⟩
    rwa [if_pos (by decide +kernel)] at h

end AgentScheduler

end YoutubeFactory.AgentCore
