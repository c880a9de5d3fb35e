import YoutubeFactory.Jobs.QueueJobs

/-!
# The life of a job

A job is queued, runs, and ends.  `mark_running` and `retry` leave a job that has ended alone, and
so does `cancel` if it has succeeded.  `mark_succeeded`, `mark_failed`, and `cancel` on a cancelled
job, write without a look at the status (`ends_once_iff`).

`retry` compares the attempts with their limit.  `mark_running` counts an attempt and does not
compare (`attempts_within_iff`).
-/

namespace YoutubeFactory.Jobs

open JobCall

section

variable {Data : Type}

/-! ## A job ends once -/

/-- What a job that has ended tells about its end. -/
structure Outcome (Data : Type) where
  status : JobStatus
  result : Data
  error : Option String
  scheduledFor : Option DateTime
  startedAt : Option DateTime
  finishedAt : Option DateTime

def QueueJob.outcome (job : QueueJob Data) : Outcome Data :=
  ⟨job.status, job.result, job.error, job.scheduledFor, job.startedAt, job.finishedAt⟩

/-- The jobs that have ended stay as they are. -/
def KeepsEnded (db db' : JobDb Data) : Prop :=
  ∀ (id : Id) job, db.jobs[id]? = some job → job.isTerminal = true →
    ∃ job', db'.jobs[id]? = some job' ∧ job'.outcome = job.outcome

theorem KeepsEnded.refl (db : JobDb Data) : KeepsEnded db db :=
  fun _ job hjob _ => ⟨job, hjob, rfl⟩

theorem KeepsEnded.trans {db db' db'' : JobDb Data} (h : KeepsEnded db db')
    (h' : KeepsEnded db' db'') : KeepsEnded db db'' := by
  intro id job hjob hterminal
  obtain ⟨job', hjob', hsame⟩ := h id job hjob hterminal
  have hstatus : job'.status = job.status := congrArg Outcome.status hsame
  have hterminal' : job'.isTerminal = true := by
    rw [QueueJob.isTerminal, hstatus]
    exact hterminal
  obtain ⟨job'', hjob'', hsame'⟩ := h' id job' hjob' hterminal'
  exact ⟨job'', hjob'', hsame'.trans hsame⟩

theorem isTerminal_iff {job : QueueJob Data} :
    job.isTerminal = true ↔ job.status = .succeeded ∨ job.status = .cancelled := by
  simp [QueueJob.isTerminal, TERMINAL_STATUSES]

variable [EmptyCollection Data]

/-- No report reaches a job that has ended, and no cancel a cancelled one, unless it writes what
the row holds, the time included. -/
def SparesEnded (db : JobDb Data) : JobCall Data → Prop
  | .markSucceeded id result now => ∀ job ∈ db.jobs[id]?, job.isTerminal = true →
      job.status = .succeeded ∧ job.result = result.getD ∅ ∧ job.error = none ∧
        job.finishedAt = some now
  | .markFailed id _ _ => ∀ job ∈ db.jobs[id]?, job.isTerminal = false
  | .cancel id now => ∀ job ∈ db.jobs[id]?, job.status = .cancelled → job.finishedAt = some now
  | _ => True

/-- One call keeps the outcomes if the rows it finds keep theirs. -/
theorem keepsEnded_step_iff {db : JobDb Data} (call : JobCall Data) :
    KeepsEnded db (call.step db) ↔ ∀ (id : Id) job, db.jobs[id]? = some job →
      job.isTerminal = true → (call.effect db id job).outcome = job.outcome := by
  constructor
  · intro h id job hjob hterminal
    obtain ⟨job', hjob', hsame⟩ := h id job hjob hterminal
    rw [step_getElem? call hjob] at hjob'
    cases hjob'
    exact hsame
  · intro h id job hjob hterminal
    exact ⟨_, step_getElem? call hjob, h id job hjob hterminal⟩

theorem keepsEnded_iff_spares {db : JobDb Data} (call : JobCall Data) :
    KeepsEnded db (call.step db) ↔ SparesEnded db call := by
  rw [keepsEnded_step_iff]
  cases call with
  | enqueue => exact iff_of_true (fun _ _ _ _ => rfl) trivial
  | markRunning id externalId now =>
      refine iff_of_true (fun id' job _ hterminal => ?_) trivial
      simp [effect, Starts, hterminal]
  | markSucceeded id result now =>
      constructor
      · intro h job hjob hterminal
        have hsame := h id job hjob hterminal
        simp only [effect, if_pos, QueueJob.outcome, QueueJob.succeed, Outcome.mk.injEq] at hsame
        exact ⟨hsame.1.symm, hsame.2.1.symm, hsame.2.2.1.symm, hsame.2.2.2.2.2.symm⟩
      · intro h id' job hjob hterminal
        by_cases hid : id = id'
        · subst hid
          obtain ⟨hstatus, hresult, herror, hfinished⟩ := h job hjob hterminal
          simp [effect, QueueJob.outcome, QueueJob.succeed, hstatus, hresult, herror, hfinished]
        · simp [effect, hid]
  | markFailed id error now =>
      constructor
      · intro h job hjob
        refine Bool.eq_false_iff.mpr fun hterminal => ?_
        have hstatus := congrArg Outcome.status (h id job hjob hterminal)
        simp only [effect, if_pos, QueueJob.outcome, QueueJob.fail] at hstatus
        rcases isTerminal_iff.mp hterminal with hended | hended
        · rw [hended] at hstatus
          cases hstatus
        · rw [hended] at hstatus
          cases hstatus
      · intro h id' job hjob hterminal
        have hid : id ≠ id' := by
          rintro rfl
          rw [h job hjob] at hterminal
          cases hterminal
        simp [effect, hid]
  | cancel id now =>
      constructor
      · intro h job hjob hcancelled
        have hsame := h id job hjob (isTerminal_iff.mpr (.inr hcancelled))
        have hfinished := congrArg Outcome.finishedAt hsame
        simp only [effect, hcancelled] at hfinished
        exact hfinished.symm
      · intro h id' job hjob hterminal
        by_cases hid : id = id'
        · subst hid
          rcases isTerminal_iff.mp hterminal with hsucceeded | hcancelled
          · simp [effect, hsucceeded]
          · simp [effect, QueueJob.outcome, QueueJob.cancel, hcancelled, h job hjob hcancelled]
        · simp [effect, hid]
  | retry id =>
      refine iff_of_true (fun id' job _ hterminal => ?_) trivial
      have hretry : job.canRetry = false := by
        rcases isTerminal_iff.mp hterminal with hended | hended <;>
          simp [QueueJob.canRetry, hended]
      simp [effect, hretry]

/-- A job that has ended stays as it is in the runs in which no report reaches it any more, and in
no others. -/
theorem ends_once_iff (db : JobDb Data) (calls : List (JobCall Data)) :
    Run.Evolves JobCall.step KeepsEnded db calls ↔
      Run.EveryStep JobCall.step SparesEnded db calls :=
  (Run.evolves_iff_everyStep KeepsEnded.refl fun _ _ _ => KeepsEnded.trans).trans
    (Run.everyStep_congr fun _ call => keepsEnded_iff_spares call)

/-! ## A job is attempted as often as its limit says -/

def AttemptsWithin (db : JobDb Data) : Prop :=
  ∀ (id : Id) job, db.jobs[id]? = some job → job.attempts ≤ job.maxAttempts

/-- `mark_running` finds an attempt left, where it is not refused. -/
def FindsAttempt (db : JobDb Data) : JobCall Data → Prop
  | .markRunning id externalId _ => ∀ job ∈ db.jobs[id]?, Starts db id externalId job →
      job.attempts < job.maxAttempts
  | _ => True

/-- A job whose last attempt has failed does not run. -/
def NeverAgain (db : JobDb Data) (calls : List (JobCall Data)) : Prop :=
  ∀ earlier between later id error now,
    calls = earlier ++ .markFailed id error now :: between ++ later →
    ∀ job, (Run.run JobCall.step db earlier).jobs[id]? = some job →
      job.attempts = job.maxAttempts →
      ∀ job', (Run.run JobCall.step db
        (earlier ++ .markFailed id error now :: between)).jobs[id]? = some job' →
        job'.status ≠ .running

/-- The row has used up its attempts and does not run. -/
def Spent (id : Id) (db : JobDb Data) : Prop :=
  ∃ job, db.jobs[id]? = some job ∧ job.maxAttempts ≤ job.attempts ∧ job.status ≠ .running

theorem effect_maxAttempts {db : JobDb Data} (call : JobCall Data) (id : Id)
    (job : QueueJob Data) : (call.effect db id job).maxAttempts = job.maxAttempts := by
  cases call with
  | enqueue => rfl
  | markRunning | markSucceeded | markFailed | cancel | retry =>
      rw [effect]
      split <;> rfl

/-- A call counts an attempt, or leaves the row, or leaves the job idle. -/
theorem effect_cases {db : JobDb Data} (call : JobCall Data) (id : Id) (job : QueueJob Data) :
    (∃ externalId now, call = .markRunning id externalId now ∧ Starts db id externalId job ∧
      call.effect db id job = job.start externalId now) ∨
    call.effect db id job = job ∨
    (call.effect db id job).attempts = job.attempts ∧
      (call.effect db id job).status ≠ .running := by
  cases call with
  | enqueue => exact .inr (.inl rfl)
  | markRunning id' externalId now =>
      rw [effect]
      split
      · next hboth =>
          obtain ⟨rfl, hstarts⟩ := hboth
          exact .inl ⟨externalId, now, rfl, hstarts, rfl⟩
      · exact .inr (.inl rfl)
  | markSucceeded | markFailed | cancel | retry =>
      rw [effect]
      split
      · exact .inr (.inr ⟨rfl, nofun⟩)
      · exact .inr (.inl rfl)

theorem attemptsWithin_step_iff {db : JobDb Data} (call : JobCall Data)
    (h : AttemptsWithin db) : AttemptsWithin (call.step db) ↔ FindsAttempt db call := by
  constructor
  · intro hstep
    cases call with
    | markRunning id externalId now =>
        intro job hjob hstarts
        have hafter := hstep id _ (step_getElem? (.markRunning id externalId now) hjob)
        rw [effect, if_pos ⟨rfl, hstarts⟩] at hafter
        exact Int.lt_of_add_one_le hafter
    | _ => exact trivial
  · intro hfinds id job' hjob'
    cases hjob : db.jobs[id]? with
    | none =>
        obtain ⟨-, hzero, hone⟩ := step_added call hjob hjob'
        omega
    | some job =>
        rw [step_getElem? call hjob, Option.some.injEq] at hjob'
        subst hjob'
        rw [effect_maxAttempts]
        rcases @effect_cases _ _ db call id job with
          ⟨externalId, now, rfl, hstarts, heffect⟩ | heffect | ⟨hattempts, -⟩
        · rw [heffect]
          exact Int.add_one_le_of_lt (hfinds job hjob hstarts)
        · rw [heffect]
          exact h id job hjob
        · rw [hattempts]
          exact h id job hjob

/-- A job that has used up its attempts does not run again. -/
theorem Spent.step {db : JobDb Data} {id : Id} (call : JobCall Data)
    (hfinds : FindsAttempt db call) (h : Spent id db) : Spent id (call.step db) := by
  obtain ⟨job, hjob, hspent, hidle⟩ := h
  refine ⟨_, step_getElem? call hjob, ?_⟩
  rw [effect_maxAttempts]
  rcases @effect_cases _ _ db call id job with
    ⟨externalId, now, rfl, hstarts, -⟩ | heffect | ⟨hattempts, hidle'⟩
  · exact absurd (hfinds job hjob hstarts) (Int.not_lt.mpr hspent)
  · rw [heffect]
    exact ⟨hspent, hidle⟩
  · rw [hattempts]
    exact ⟨hspent, hidle'⟩

theorem neverAgain_of_findsAttempt {db : JobDb Data} {calls : List (JobCall Data)}
    (h : Run.EveryStep JobCall.step FindsAttempt db calls) : NeverAgain db calls := by
  rintro earlier between later id error now rfl job hjob hlast job' hjob' hrunning
  obtain ⟨-, hafter⟩ := Run.everyStep_append.mp (Run.everyStep_append.mp h).1
  have hfailed : Spent id (JobCall.step (Run.run JobCall.step db earlier)
      (.markFailed id error now)) := by
    refine ⟨_, step_getElem? _ hjob, ?_, ?_⟩
    · rw [effect, if_pos rfl]
      exact Int.le_of_eq hlast.symm
    · rw [effect, if_pos rfl]
      exact nofun
  obtain ⟨last, hget, -, hidle⟩ : Spent id (Run.run JobCall.step db
      (earlier ++ .markFailed id error now :: between)) := by
    rw [Run.run_append, Run.run_cons]
    exact Run.run_invariant_of_everyStep (fun _ call hfinds h => h.step call hfinds) between
      hafter.2 hfailed
  rw [hget] at hjob'
  cases hjob'
  exact hidle hrunning

/-- The jobs that were enqueued keep to their limits in the runs in which every `mark_running`
that is not refused finds an attempt left, and in no others. -/
theorem attempts_within_iff (calls : List (JobCall Data)) :
    (Run.Always JobCall.step AttemptsWithin ⟨[]⟩ calls ∧ NeverAgain ⟨[]⟩ calls) ↔
      Run.EveryStep JobCall.step FindsAttempt ⟨[]⟩ calls := by
  have hempty : AttemptsWithin (⟨[]⟩ : JobDb Data) := fun _ _ hjob => by cases hjob
  have hiff : Run.Always JobCall.step AttemptsWithin (⟨[]⟩ : JobDb Data) calls ↔
      Run.EveryStep JobCall.step FindsAttempt ⟨[]⟩ calls :=
    @Run.always_iff_everyStep _ _ _ (fun _ => True) _ (fun _ _ => True) _
      (fun _ _ _ _ => trivial) (fun _ call _ _ h => attemptsWithin_step_iff call h) calls _
      (Run.everyStep_of_forall fun _ _ => trivial) trivial hempty
  exact ⟨fun h => hiff.mp h.1, fun h => ⟨hiff.mpr h, neverAgain_of_findsAttempt h⟩⟩

end

/-! ## A late report, and a third start -/

/-- One job is enqueued with its defaults. -/
def oneJob (maxAttempts : Int) : JobCall (List (String × String)) :=
  .enqueue "render.media" none "default" none 0 maxAttempts none

/-- The worker reports success of a job that was cancelled meanwhile. -/
theorem cancelled_job_succeeds :
    ¬ Run.Evolves JobCall.step KeepsEnded ⟨[]⟩
      [oneJob 3, .markRunning 0 none 10, .cancel 0 20, .markSucceeded 0 none 30] := by
  intro h
  obtain ⟨job, hjob, hsame⟩ := h [oneJob 3, .markRunning 0 none 10, .cancel 0 20]
    [.markSucceeded 0 none 30] [] rfl 0 _ rfl rfl
  cases hjob
  cases hsame

/-- A job with one attempt is started twice. -/
theorem second_start_of_one :
    ¬ (Run.Always JobCall.step AttemptsWithin ⟨[]⟩
        [oneJob 1, .markRunning 0 none 10, .markFailed 0 "boom" 20, .markRunning 0 none 30] ∧
      NeverAgain ⟨[]⟩
        [oneJob 1, .markRunning 0 none 10, .markFailed 0 "boom" 20, .markRunning 0 none 30]) := by
  intro h
  have hwithin := h.1.last 0 _ rfl
  revert hwithin
  decide

end YoutubeFactory.Jobs
