import YoutubeFactory.Lib.Except
import YoutubeFactory.Lib.Run
import Mathlib.Order.Basic

/-!
# The durable record of background work

`QueueJob` of `app/models/job.py` and `QueueJobService` of `app/services/job.py`.  Rows are never
removed, so a row's position is its id.  A call that raises is rolled back.

What a call does to one row is `JobCall.effect`, and `JobCall.step_getElem?` says so of every row.
A payload is a JSON object, of which nothing is asked here but that there is an empty one.
-/

namespace YoutubeFactory.Jobs

abbrev Id := Nat

/-- Seconds since the epoch, UTC. -/
abbrev DateTime := Int

/-! ## The table -/

inductive JobStatus where
  | queued | running | succeeded | failed | cancelled
deriving DecidableEq, Repr

/-- `TERMINAL_STATUSES` -/
def TERMINAL_STATUSES : List JobStatus := [.succeeded, .cancelled]

structure QueueJob (Data : Type) where
  organizationId : Option Id
  queue : String
  taskName : String
  status : JobStatus
  priority : Int
  attempts : Int
  maxAttempts : Int
  scheduledFor : Option DateTime
  startedAt : Option DateTime
  finishedAt : Option DateTime
  externalId : Option String
  payload : Data
  result : Data
  error : Option String

inductive Detail where
  | status (s : JobStatus)
  | number (n : Int)
deriving DecidableEq, Repr

inductive JobError where
  | notFound (message : String)
  | conflict (message : String) (details : List (String × Detail))
  | validation (message : String)
  /-- An external id that another job has already. -/
  | integrity
deriving DecidableEq, Repr

structure JobDb (Data : Type) where
  jobs : List (QueueJob Data)

section

variable {Data : Type}

namespace QueueJob

/-- The status is one a job cannot move out of. -/
def isTerminal (job : QueueJob Data) : Bool := job.status ∈ TERMINAL_STATUSES

/-- `can_retry` -/
def canRetry (job : QueueJob Data) : Bool :=
  job.status = .failed ∧ job.attempts < job.maxAttempts

/-! ## The columns a call writes -/

/-- The columns that `mark_running` writes. -/
def start (externalId : Option String) (now : DateTime) (job : QueueJob Data) : QueueJob Data :=
  { job with
    status := .running
    attempts := job.attempts + 1
    startedAt := some now
    externalId := (externalId.filter (· ≠ "")).or job.externalId }

variable [EmptyCollection Data]

/-- The columns that `mark_succeeded` writes. -/
def succeed (result : Option Data) (now : DateTime) (job : QueueJob Data) : QueueJob Data :=
  { job with
    status := .succeeded, result := result.getD ∅, error := none, finishedAt := some now }

omit [EmptyCollection Data]

/-- The columns that `mark_failed` writes. -/
def fail (error : String) (now : DateTime) (job : QueueJob Data) : QueueJob Data :=
  { job with status := .failed, error := some error, finishedAt := some now }

/-- The columns that `cancel` writes. -/
def cancel (now : DateTime) (job : QueueJob Data) : QueueJob Data :=
  { job with status := .cancelled, finishedAt := some now }

/-- The columns that `retry` writes. -/
def requeue (job : QueueJob Data) : QueueJob Data :=
  { job with status := .queued, error := none, finishedAt := none }

end QueueJob

/-! ## The service -/

namespace JobDb

variable (db : JobDb Data)

/-- `_get` -/
def get (id : Id) : Except JobError (QueueJob Data) :=
  match db.jobs[id]? with
  | none => .error (.notFound "Job not found.")
  | some job => .ok job

/-- The flush of a changed row. -/
def save (id : Id) (job : QueueJob Data) : JobDb Data := ⟨db.jobs.set id job⟩

/-- Another job has the external id: the column is unique. -/
def externalIdTaken (id : Id) (externalId : Option String) : Bool :=
  (externalId.filter (· ≠ "")).any fun e =>
    db.jobs.zipIdx.any fun row => row.2 ≠ id ∧ row.1.externalId = some e

/-- What the methods have in common: the row is read, and flushed unless it is refused. -/
def change (id : Id) (f : QueueJob Data → Except JobError (QueueJob Data)) :
    Except JobError (Id × JobDb Data) := do
  let job ← db.get id
  let job ← f job
  pure (id, db.save id job)

/-- `mark_running` -/
def markRunning (id : Id) (externalId : Option String) (now : DateTime) :
    Except JobError (Id × JobDb Data) :=
  db.change id fun job =>
    if job.isTerminal then
      .error (.conflict "Job has already finished." [("status", .status job.status)])
    else if db.externalIdTaken id externalId then .error .integrity
    else .ok (job.start externalId now)

/-- `mark_failed` -/
def markFailed (id : Id) (error : String) (now : DateTime) : Except JobError (Id × JobDb Data) :=
  db.change id fun job => .ok (job.fail error now)

/-- `cancel` -/
def cancel (id : Id) (now : DateTime) : Except JobError (Id × JobDb Data) :=
  db.change id fun job =>
    if job.status = .succeeded then
      .error (.conflict "Cannot cancel a job that already succeeded." [])
    else .ok (job.cancel now)

/-- `retry` -/
def retry (id : Id) : Except JobError (Id × JobDb Data) :=
  db.change id fun job =>
    if job.canRetry then .ok job.requeue
    else
      .error (.conflict "Job is not retryable."
        [("status", .status job.status), ("attempts", .number job.attempts)])

variable [EmptyCollection Data]

/-- `enqueue` -/
def enqueue (taskName : String) (payload : Option Data) (queue : String)
    (organizationId : Option Id) (priority maxAttempts : Int) (scheduledFor : Option DateTime) :
    Except JobError (Id × JobDb Data) :=
  if maxAttempts < 1 then .error (.validation "max_attempts must be at least 1.")
  else
    let job : QueueJob Data :=
      { organizationId, queue, taskName, status := .queued, priority, attempts := 0, maxAttempts
        scheduledFor, startedAt := none, finishedAt := none, externalId := none
        payload := payload.getD ∅, result := ∅, error := none }
    .ok (db.jobs.length, ⟨db.jobs ++ [job]⟩)

/-- `mark_succeeded` -/
def markSucceeded (id : Id) (result : Option Data) (now : DateTime) :
    Except JobError (Id × JobDb Data) :=
  db.change id fun job => .ok (job.succeed result now)

end JobDb

/-! ## Calls -/

inductive JobCall (Data : Type) where
  | enqueue (taskName : String) (payload : Option Data) (queue : String)
      (organizationId : Option Id) (priority maxAttempts : Int) (scheduledFor : Option DateTime)
  | markRunning (id : Id) (externalId : Option String) (now : DateTime)
  | markSucceeded (id : Id) (result : Option Data) (now : DateTime)
  | markFailed (id : Id) (error : String) (now : DateTime)
  | cancel (id : Id) (now : DateTime)
  | retry (id : Id)

namespace JobCall

variable [EmptyCollection Data]

def attempt (db : JobDb Data) : JobCall Data → Except JobError (Id × JobDb Data)
  | .enqueue taskName payload queue organizationId priority maxAttempts scheduledFor =>
      db.enqueue taskName payload queue organizationId priority maxAttempts scheduledFor
  | .markRunning id externalId now => db.markRunning id externalId now
  | .markSucceeded id result now => db.markSucceeded id result now
  | .markFailed id error now => db.markFailed id error now
  | .cancel id now => db.cancel id now
  | .retry id => db.retry id

def step (db : JobDb Data) (call : JobCall Data) : JobDb Data := Run.commit db (call.attempt db)

/-- `mark_running` is not refused. -/
def Starts (db : JobDb Data) (id : Id) (externalId : Option String) (job : QueueJob Data) : Prop :=
  job.isTerminal = false ∧ db.externalIdTaken id externalId = false

instance (db : JobDb Data) (id : Id) (externalId : Option String) (job : QueueJob Data) :
    Decidable (Starts db id externalId job) := instDecidableAnd

/-- The row of an id after a call. -/
def effect (db : JobDb Data) (id : Id) (job : QueueJob Data) : JobCall Data → QueueJob Data
  | .enqueue .. => job
  | .markRunning id' externalId now =>
      if id' = id ∧ Starts db id externalId job then job.start externalId now else job
  | .markSucceeded id' result now => if id' = id then job.succeed result now else job
  | .markFailed id' error now => if id' = id then job.fail error now else job
  | .cancel id' now => if id' = id ∧ job.status ≠ .succeeded then job.cancel now else job
  | .retry id' => if id' = id ∧ job.canRetry = true then job.requeue else job

/-! ## What a call does to a row -/

variable {db : JobDb Data} {id : Id} {job : QueueJob Data}

omit [EmptyCollection Data] in
theorem change_getElem? {id' : Id} {f : QueueJob Data → Except JobError (QueueJob Data)}
    (hjob : db.jobs[id]? = some job) :
    (Run.commit db (db.change id' f)).jobs[id]? =
      some (if id' = id then (f job).toOption.getD job else job) := by
  have hlt : id < db.jobs.length := (List.getElem?_eq_some_iff.mp hjob).1
  unfold JobDb.change JobDb.get
  by_cases hid : id' = id
  · subst hid
    rw [hjob, if_pos rfl, Except.ok_bind]
    cases f job with
    | error e => exact hjob
    | ok job' => exact List.getElem?_set_self hlt
  · rw [if_neg hid]
    cases db.jobs[id']? with
    | none => exact hjob
    | some other =>
        rw [Except.ok_bind]
        cases f other with
        | error e => exact hjob
        | ok job' => exact (List.getElem?_set_ne hid).trans hjob

/-- A row that is there stays there, changed as the call says. -/
theorem step_getElem? (call : JobCall Data) (hjob : db.jobs[id]? = some job) :
    (call.step db).jobs[id]? = some (call.effect db id job) := by
  have hlt : id < db.jobs.length := (List.getElem?_eq_some_iff.mp hjob).1
  cases call with
  | enqueue taskName payload queue organizationId priority maxAttempts scheduledFor =>
      unfold step attempt JobDb.enqueue
      dsimp only
      split
      · exact hjob
      · exact (List.getElem?_append_left hlt).trans hjob
  | markRunning id' externalId now =>
      refine (change_getElem? hjob).trans (congrArg some ?_)
      unfold effect Starts
      by_cases hid : id' = id
      · by_cases hterminal : job.isTerminal = true
        · simp [hid, hterminal, Except.toOption]
        · by_cases htaken : db.externalIdTaken id externalId = true <;>
            simp [hid, hterminal, htaken, Except.toOption]
      · simp [hid]
  | markSucceeded id' result now => exact change_getElem? hjob
  | markFailed id' error now => exact change_getElem? hjob
  | cancel id' now =>
      refine (change_getElem? hjob).trans (congrArg some ?_)
      unfold effect
      by_cases hid : id' = id
      · by_cases hstatus : job.status = .succeeded <;> simp [hid, hstatus, Except.toOption]
      · simp [hid]
  | retry id' =>
      refine (change_getElem? hjob).trans (congrArg some ?_)
      unfold effect
      by_cases hid : id' = id
      · by_cases hretry : job.canRetry = true <;> simp [hid, hretry, Except.toOption]
      · simp [hid]

omit [EmptyCollection Data] in
theorem length_change {id' : Id} {f : QueueJob Data → Except JobError (QueueJob Data)} :
    (Run.commit db (db.change id' f)).jobs.length = db.jobs.length := by
  unfold JobDb.change JobDb.get
  cases db.jobs[id']? with
  | none => rfl
  | some other =>
      rw [Except.ok_bind]
      cases f other with
      | error e => rfl
      | ok job' => exact List.length_set

/-- A row that a call has added is a job that has not been attempted. -/
theorem step_added (call : JobCall Data) (hnone : db.jobs[id]? = none)
    (hjob : (call.step db).jobs[id]? = some job) :
    job.status = .queued ∧ job.attempts = 0 ∧ 1 ≤ job.maxAttempts := by
  have hlength := List.getElem?_eq_none_iff.mp hnone
  have habsent : (call.step db).jobs.length = db.jobs.length → False := fun hsame => by
    have hlt := (List.getElem?_eq_some_iff.mp hjob).1
    omega
  cases call with
  | enqueue taskName payload queue organizationId priority maxAttempts scheduledFor =>
      unfold step attempt JobDb.enqueue at hjob
      dsimp only at hjob
      split at hjob
      · rw [Run.commit_error, hnone] at hjob
        cases hjob
      · next hmax =>
          rw [Run.commit_ok, List.getElem?_append_right hlength] at hjob
          have hmem := List.mem_of_getElem? hjob
          rw [List.mem_singleton] at hmem
          subst hmem
          exact ⟨rfl, rfl, Int.not_lt.mp hmax⟩
  | markRunning => exact (habsent length_change).elim
  | markSucceeded => exact (habsent length_change).elim
  | markFailed => exact (habsent length_change).elim
  | cancel => exact (habsent length_change).elim
  | retry => exact (habsent length_change).elim

end JobCall

end

end YoutubeFactory.Jobs
