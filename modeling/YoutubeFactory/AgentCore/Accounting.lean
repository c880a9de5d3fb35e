import YoutubeFactory.AgentCore.Completion
import YoutubeFactory.Lib.Bookkeeping

/-!
# What the executor counts

`Executor.execute` with the counters of `RunMetrics` that it keeps, and with a record of how each
attempt ended.  The books change nothing else (`executeCounted_erases`); they balance after every
call, and a task has failed or succeeded as its attempts have (`executor_accounts`).
-/

namespace YoutubeFactory.AgentCore

/-- The counters of `RunMetrics` that the executor keeps itself. -/
structure RunMetrics where
  tasksTotal : Nat
  tasksSucceeded : Nat
  tasksFailed : Nat
  retries : Nat
deriving DecidableEq, Repr

def RunMetrics.zero : RunMetrics := ⟨0, 0, 0, 0⟩

/-- What a dispatch that was waited for has returned or raised. -/
abbrev Outcome := Except AgentError String

/-- A task, the context it is run in, and the books. -/
structure Counted (Env : Type) where
  run : AgentTask × Context Env
  metrics : RunMetrics
  /-- How the attempts have ended. -/
  outcomes : List Outcome

/-- A call that keeps books. -/
abbrev CountedM (Env α : Type) := EStateM AgentError (Counted Env) α

section

variable {Env α : Type}

def onTask (m : TaskM Env α) : CountedM Env α :=
  EStateM.zoom Counted.run (fun run s => { s with run }) m

def count (f : RunMetrics → RunMetrics) : CountedM Env Unit :=
  modify fun s => { s with metrics := f s.metrics }

/-- A call of which the outcome is recorded. -/
def recorded (m : CountedM Env String) : CountedM Env String := fun s =>
  match m s with
  | .ok a s => .ok a { s with outcomes := s.outcomes ++ [.ok a] }
  | .error e s => .error e { s with outcomes := s.outcomes ++ [.error e] }

variable (services : Services Env) (policy : AgentPolicy)

/-! ## Attempts -/

section

/- What `asyncio.wait_for` makes of `_dispatch`: it may return or raise what it will, and it may be
cut off by the timeout. -/
variable (dispatched : AgentTask → Action (Context Env) String)

/-- The body of the `try`. -/
def tryCounted : CountedM Env Unit := do
  let s ← get
  let result ← recorded (onTask (inContext (dispatched s.run.1)))
  onTask (writeTask fun task => { task with status := .succeeded, result := some result })
  count fun metrics => { metrics with tasksSucceeded := metrics.tasksSucceeded + 1 }
  onTask (publishFinished services)

/-- The task has failed, with its last error. -/
def failCounted (lastError : Option String) : CountedM Env Unit := do
  onTask (writeTask fun task => { task with status := .failed, error := lastError })
  count fun metrics => { metrics with tasksFailed := metrics.tasksFailed + 1 }
  onTask (publishFinished services)

/-- `if attempt < retries` -/
def countRetry (made : Nat) (retries : Int) : CountedM Env Unit :=
  if (made : Int) < retries then
    count fun metrics => { metrics with retries := metrics.retries + 1 }
  else pure ()

/-- The attempts that are left, with the attempts that have been made and the last error. -/
def attemptsCounted (retries : Int) : Nat → Nat → Option String → CountedM Env Unit
  | 0, _, error => failCounted services error
  | n + 1, made, _ => do
      onTask (writeTask fun task => { task with attempts := made + 1 })
      match ← EStateM.handled AgentError.isException (tryCounted services dispatched) with
      | .ok () => pure ()
      | .error e => do
          let s ← get
          if e.isPolicy = true then
            failCounted services (some (lastError services policy s.run.1 e))
          else do
            countRetry made retries
            attemptsCounted retries n (made + 1) (some (lastError services policy s.run.1 e))

/-- `execute` -/
def executeCounted : CountedM Env Unit := do
  onTask (inContext (checkStep policy))
  let s ← get
  let retries := policy.retriesFor s.run.1.maxRetries
  onTask (writeTask fun task => { task with status := .running })
  count fun metrics => { metrics with tasksTotal := metrics.tasksTotal + 1 }
  onTask (enterTask retries)
  attemptsCounted services policy dispatched retries (retries + 1).toNat 0 none

end

/-! ## The books change nothing else -/

section

open EStateM (Erases)

variable {services policy}

theorem onTask_erases (m : TaskM Env α) : Erases Counted.run (onTask m) m := by
  refine Erases.zoom ?_ m
  exact fun _ _ => rfl

theorem count_erases {f : RunMetrics → RunMetrics} {m : CountedM Env α} {m' : TaskM Env α}
    (h : Erases Counted.run m m') : Erases Counted.run (count f >>= fun _ => m) m' :=
  Erases.bind_left (fun _ => ⟨_, rfl, rfl⟩) h

theorem countRetry_erases {made : Nat} {retries : Int} {m : CountedM Env α} {m' : TaskM Env α}
    (h : Erases Counted.run m m') :
    Erases Counted.run (countRetry made retries >>= fun _ => m) m' := by
  unfold countRetry
  split
  · exact count_erases h
  · exact h

theorem recorded_erases {m : CountedM Env String} {m' : TaskM Env String}
    (h : Erases Counted.run m m') : Erases Counted.run (recorded m) m' := by
  intro s
  rw [← h s]
  show (recorded m s).mapState Counted.run = (m s).mapState Counted.run
  unfold recorded
  split
  · next a s' hrun => rw [hrun]; rfl
  · next e s' hrun => rw [hrun]; rfl

theorem failCounted_erases (error : Option String) :
    Erases Counted.run (failCounted services error) (failTask services error) :=
  Erases.bind (onTask_erases _) fun _ => count_erases (onTask_erases _)

variable {config : AgentConfig} {goal : Goal}

theorem tryCounted_erases :
    Erases Counted.run (tryCounted services (dispatch services policy config goal))
      (tryOnce services policy config goal) := by
  refine Erases.get_bind fun s => ?_
  refine Erases.bind (recorded_erases (onTask_erases _)) (fun result => ?_) s
  exact Erases.bind (onTask_erases _) fun _ => count_erases (onTask_erases _)

theorem attemptsCounted_erases (retries : Int) : ∀ n made error,
    Erases Counted.run
      (attemptsCounted services policy (dispatch services policy config goal) retries n made error)
      (attempts services policy config goal n made error)
  | 0, _, error => failCounted_erases error
  | n + 1, made, _ => by
      refine Erases.bind (onTask_erases _) fun _ => ?_
      refine Erases.bind tryCounted_erases.handled fun reply => ?_
      cases reply with
      | ok u => exact Erases.pure _
      | error e =>
          refine Erases.get_bind fun s => ?_
          split
          · exact failCounted_erases _ s
          · exact countRetry_erases (attemptsCounted_erases retries n _ _) s

/-- Without the books it is the executor. -/
theorem executeCounted_erases :
    Erases Counted.run (executeCounted services policy (dispatch services policy config goal))
      (executeTask services policy config goal) := by
  refine Erases.bind (onTask_erases _) fun _ => Erases.get_bind fun s => ?_
  refine Erases.bind (onTask_erases _) (fun _ => count_erases ?_) s
  exact Erases.bind (onTask_erases _) fun _ => attemptsCounted_erases _ _ _ _

end

/-! ## What a call does -/

/-- Publishing an event does not raise. -/
def Publishes (services : Services Env) : Prop :=
  ∀ event env, ∃ env', services.publish event env = .ok () env'

/-- A dispatch returns, or raises an exception that the executor catches. -/
def Caught (dispatched : AgentTask → Action (Context Env) String) : Prop :=
  ∀ task context e context', dispatched task context = .error e context' → e.isException = true

section

variable {services policy} {dispatched : AgentTask → Action (Context Env) String}

theorem publishFinished_ok (hpublish : Publishes services) (run : AgentTask × Context Env) :
    ∃ context, (publishFinished services).run run = .ok () (run.1, context) := by
  obtain ⟨env, hrun⟩ := hpublish (.taskFinished run.1.key run.1.status) run.2.env
  refine ⟨{ run.2 with env }, ?_⟩
  show inContext (onEnv _) run = _
  simp only [inContext, onEnv, EStateM.zoom, hrun]

theorem onTask_ok {m : TaskM Env α} {s : Counted Env} {a : α} {run : AgentTask × Context Env}
    (h : m.run s.run = .ok a run) : (onTask m).run s = .ok a { s with run } := by
  show onTask m s = _
  rw [onTask, EStateM.zoom, show m s.run = .ok a run from h]

/-- The task fails. -/
theorem failCounted_ok (hpublish : Publishes services) (error : Option String) (s : Counted Env) :
    ∃ context, (failCounted services error).run s =
      .ok () ⟨({ s.run.1 with status := .failed, error }, context),
        { s.metrics with tasksFailed := s.metrics.tasksFailed + 1 }, s.outcomes⟩ := by
  obtain ⟨context, hrun⟩ :=
    publishFinished_ok hpublish ({ s.run.1 with status := .failed, error }, s.run.2)
  exact ⟨context, onTask_ok hrun⟩

/-- An attempt succeeds, and the task with it, or it raises what is caught. -/
theorem tryCounted_cases (hpublish : Publishes services) (hcaught : Caught dispatched)
    (s : Counted Env) : ∃ context,
      (∃ result, (tryCounted services dispatched).run s =
        .ok () ⟨({ s.run.1 with status := .succeeded, result := some result }, context),
          { s.metrics with tasksSucceeded := s.metrics.tasksSucceeded + 1 },
          s.outcomes ++ [.ok result]⟩) ∨
      ∃ e, e.isException = true ∧ (tryCounted services dispatched).run s =
        .error e ⟨(s.run.1, context), s.metrics, s.outcomes ++ [.error e]⟩ := by
  cases hrun : dispatched s.run.1 s.run.2 with
  | ok result context =>
      obtain ⟨context', hpublished⟩ := publishFinished_ok hpublish
        ({ s.run.1 with status := .succeeded, result := some result }, context)
      refine ⟨context', .inl ⟨result, ?_⟩⟩
      have hrecorded : (recorded (onTask (inContext (dispatched s.run.1)))).run s =
          .ok result ⟨(s.run.1, context), s.metrics, s.outcomes ++ [.ok result]⟩ := by
        show recorded _ s = _
        simp only [recorded, onTask, inContext, EStateM.zoom, hrun]
      rw [tryCounted, EStateM.run_get_bind, EStateM.run_bind_of_ok hrecorded]
      exact onTask_ok hpublished
  | error e context =>
      refine ⟨context, .inr ⟨e, hcaught _ _ _ _ hrun, ?_⟩⟩
      have hrecorded : (recorded (onTask (inContext (dispatched s.run.1)))).run s =
          .error e ⟨(s.run.1, context), s.metrics, s.outcomes ++ [.error e]⟩ := by
        show recorded _ s = _
        simp only [recorded, onTask, inContext, EStateM.zoom, hrun]
      rw [tryCounted, EStateM.run_get_bind, EStateM.run_bind_of_error hrecorded]

/-- The task has ended with the last of these outcomes. -/
def EndedWith (made : List Outcome) (status : TaskStatus) : Prop :=
  (status = .succeeded ∧ ∃ errors result, made = List.map Except.error errors ++ [.ok result]) ∨
    status = .failed ∧ ∃ errors, made = List.map Except.error errors

/-- What the attempts that are left make of a task and the books. -/
structure Attempted (n made : Nat) (new : List Outcome) (s s' : Counted Env) : Prop where
  outcomes : s'.outcomes = s.outcomes ++ new
  some_made : 0 < n → 0 < new.length
  within : new.length ≤ n
  attempts : s'.run.1.attempts = if n = 0 then s.run.1.attempts else made + new.length
  total : s'.metrics.tasksTotal = s.metrics.tasksTotal
  retries : s'.metrics.retries = s.metrics.retries + (new.length - 1)
  ended : EndedWith new s'.run.1.status
  counted : s'.metrics.tasksSucceeded + s'.metrics.tasksFailed =
    s.metrics.tasksSucceeded + s.metrics.tasksFailed + 1

/-- The task fails, after one attempt or none. -/
theorem Attempted.failed {n made : Nat} {s : Counted Env} {task : AgentTask}
    {context : Context Env} {error : Option String} {outcomes new : List Outcome}
    (houtcomes : outcomes = s.outcomes ++ new)
    (hattempts : task.attempts = if n = 0 then s.run.1.attempts else made + new.length)
    (hnew : n = 0 ∧ new = [] ∨ 0 < n ∧ ∃ e, new = [.error e]) :
    Attempted n made new s ⟨({ task with status := .failed, error }, context),
      { s.metrics with tasksFailed := s.metrics.tasksFailed + 1 }, outcomes⟩ := by
  rcases hnew with ⟨rfl, rfl⟩ | ⟨hn, e, rfl⟩
  · exact ⟨houtcomes, fun h => absurd h (Nat.lt_irrefl 0), le_refl _, hattempts, rfl, rfl,
      .inr ⟨rfl, [], rfl⟩, rfl⟩
  · exact ⟨houtcomes, fun _ => Nat.one_pos, hn, hattempts, rfl, rfl, .inr ⟨rfl, [e], rfl⟩, rfl⟩

/-- An attempt that has failed, and what comes of those that are left after it. -/
theorem Attempted.cons {n made : Nat} {e : AgentError} {new : List Outcome}
    {s s₁ s' : Counted Env} (h : Attempted n (made + 1) new s₁ s')
    (houtcomes : s₁.outcomes = s.outcomes ++ [.error e])
    (hattempts : s₁.run.1.attempts = made + 1)
    (hmetrics : s₁.metrics =
      { s.metrics with retries := s.metrics.retries + if n = 0 then 0 else 1 }) :
    Attempted (n + 1) made (.error e :: new) s s' := by
  have hsome := h.some_made
  have hwithin := h.within
  refine ⟨?_, fun _ => Nat.succ_pos _, Nat.succ_le_succ h.within, ?_, ?_, ?_, ?_, ?_⟩
  · rw [h.outcomes, houtcomes, List.append_assoc, List.singleton_append]
  · rw [h.attempts, hattempts, if_neg (Nat.succ_ne_zero n), List.length_cons]
    split <;> omega
  · rw [h.total, hmetrics]
  · rw [h.retries, hmetrics, List.length_cons]
    show s.metrics.retries + (if n = 0 then 0 else 1) + (new.length - 1) = _
    split <;> omega
  · rcases h.ended with ⟨hstatus, errors, result, hnew⟩ | ⟨hstatus, errors, hnew⟩
    · exact .inl ⟨hstatus, e :: errors, result, by rw [hnew]; rfl⟩
    · exact .inr ⟨hstatus, e :: errors, by rw [hnew]; rfl⟩
  · rw [h.counted, hmetrics]

theorem countRetry_ok {made n : Nat} {retries : Int} (hleft : (made : Int) + (n + 1) = retries + 1)
    (s : Counted Env) : (countRetry made retries).run s = .ok () { s with metrics :=
      { s.metrics with retries := s.metrics.retries + if n = 0 then 0 else 1 } } := by
  unfold countRetry
  split
  · rw [if_neg (by omega)]
    rfl
  · rw [if_pos (by omega)]
    rfl

theorem attemptsCounted_ok (hpublish : Publishes services) (hcaught : Caught dispatched)
    (retries : Int) : ∀ (n made : Nat) (error : Option String) (s : Counted Env),
      (made : Int) + n = retries + 1 → ∃ new s',
        (attemptsCounted services policy dispatched retries n made error).run s = .ok () s' ∧
          Attempted n made new s s' := by
  intro n
  induction n with
  | zero =>
      intro made error s _
      obtain ⟨context, hrun⟩ := failCounted_ok hpublish error s
      exact ⟨[], _, hrun, .failed (List.append_nil _).symm rfl (.inl ⟨rfl, rfl⟩)⟩
  | succ n ih =>
      intro made error s hleft
      let s₁ : Counted Env := { s with run := ({ s.run.1 with attempts := made + 1 }, s.run.2) }
      have hwrite : (onTask (writeTask fun task => { task with attempts := made + 1 })).run s =
          .ok () s₁ := onTask_ok rfl
      rw [attemptsCounted, EStateM.run_bind_of_ok hwrite]
      obtain ⟨context, ⟨result, hrun⟩ | ⟨e, he, hrun⟩⟩ := tryCounted_cases hpublish hcaught s₁
      · rw [EStateM.run_bind_of_ok (EStateM.run_handled_of_ok hrun)]
        refine ⟨[.ok result], _, rfl, rfl, fun _ => Nat.one_pos, Nat.succ_le_succ n.zero_le,
          rfl, rfl, rfl, .inl ⟨rfl, [], result, rfl⟩, ?_⟩
        show s.metrics.tasksSucceeded + 1 + s.metrics.tasksFailed = _
        omega
      · rw [EStateM.run_bind_of_ok (EStateM.run_handled_of_error hrun he)]
        dsimp only
        rw [EStateM.run_get_bind]
        split
        · obtain ⟨context', hfail⟩ := failCounted_ok hpublish _ _
          exact ⟨[.error e], _, hfail, .failed rfl rfl (.inr ⟨Nat.succ_pos n, e, rfl⟩)⟩
        · rw [EStateM.run_bind_of_ok (countRetry_ok hleft _)]
          obtain ⟨new, s', hrest, hattempted⟩ := ih (made + 1) _ _ (by omega)
          exact ⟨_, s', hrest, hattempted.cons rfl rfl rfl⟩

/-- The violation that `check_step` raises. -/
def stepLimitExceeded (policy : AgentPolicy) : AgentError :=
  .policyViolation ("Step limit exceeded (" ++ toString policy.maxSteps ++ ").")

theorem checkStep_cases (s : Counted Env) : ∃ context,
    (onTask (inContext (checkStep policy))).run s = .ok () { s with run := (s.run.1, context) } ∨
      (onTask (inContext (checkStep policy))).run s =
        .error (stepLimitExceeded policy) { s with run := (s.run.1, context) } := by
  let context : Context Env :=
    { s.run.2 with policyState.steps := s.run.2.policyState.steps + 1 }
  have hcheck : checkStep policy s.run.2 = if policy.maxSteps < context.policyState.steps then
      .error (stepLimitExceeded policy) context else .ok () context := by
    show (if policy.maxSteps < context.policyState.steps then _ else _ : Action _ _) context = _
    split <;> rfl
  refine ⟨context, ?_⟩
  by_cases hlimit : policy.maxSteps < context.policyState.steps
  · rw [if_pos hlimit] at hcheck
    refine .inr ?_
    show onTask _ s = _
    simp only [onTask, inContext, EStateM.zoom, hcheck]
  · rw [if_neg hlimit] at hcheck
    refine .inl ?_
    show onTask _ s = _
    simp only [onTask, inContext, EStateM.zoom, hcheck]

end

/-! ## Calls one after the other -/

/-- A call of `execute`: the task as it was given, what the call left, and what it raised. -/
structure Executed (Env : Type) where
  given : AgentTask
  after : Counted Env
  raised : Option AgentError

/-- The task as the call left it. -/
def Executed.task (call : Executed Env) : AgentTask := call.after.run.1

section

variable (dispatched : AgentTask → Action (Context Env) String)

def executed (task : AgentTask) (context : Context Env) (metrics : RunMetrics) : Executed Env :=
  match executeCounted services policy dispatched ⟨(task, context), metrics, []⟩ with
  | .ok () after => ⟨task, after, none⟩
  | .error e after => ⟨task, after, some e⟩

/-- The tasks are executed one after the other, whether or not a call raises. -/
def executeEach : List AgentTask → Context Env → RunMetrics → List (Executed Env)
  | [], _, _ => []
  | task :: tasks, context, metrics =>
      let call := executed services policy dispatched task context metrics
      call :: executeEach tasks call.after.run.2 call.after.metrics

end

/-- The call raises the violation of the step limit, with the task and the metrics unchanged. -/
structure StepRefused (policy : AgentPolicy) (metrics : RunMetrics) (call : Executed Env) :
    Prop where
  raised : call.raised = some (stepLimitExceeded policy)
  task : call.task = call.given
  metrics : call.after.metrics = metrics

/-- The task has ended as its attempts have, after one at least and no more than it may have. -/
structure Finished (policy : AgentPolicy) (call : Executed Env) : Prop where
  raised : call.raised = none
  attempts : call.task.attempts = call.after.outcomes.length
  some_made : 1 ≤ call.task.attempts
  within : (call.task.attempts : Int) ≤ min call.given.maxRetries policy.maxRetries + 1
  ended : EndedWith call.after.outcomes call.task.status

/-- The attempts of the task after its first. -/
def Executed.retried (call : Executed Env) : Nat :=
  if call.raised = none then call.task.attempts - 1 else 0

/-- The metrics after these calls. -/
def metricsAfter (metrics : RunMetrics) (calls : List (Executed Env)) : RunMetrics :=
  (calls.getLast?.map fun call => call.after.metrics).getD metrics

section

variable {services policy} {dispatched : AgentTask → Action (Context Env) String}

theorem enterTask_ok (retries : Int) (run : AgentTask × Context Env) :
    ∃ context, (enterTask retries).run run = .ok () (run.1, context) := by
  unfold enterTask
  rw [EStateM.run_get_bind]
  split
  · exact ⟨_, rfl⟩
  · exact ⟨run.2, rfl⟩

/-- Past the step limit, the task is counted and attempted. -/
theorem executeCounted_cases (hpublish : Publishes services) (hcaught : Caught dispatched)
    (hpolicy : 0 ≤ policy.maxRetries) (s : Counted Env) (htask : 0 ≤ s.run.1.maxRetries) :
    (∃ context, (executeCounted services policy dispatched).run s =
      .error (stepLimitExceeded policy) { s with run := (s.run.1, context) }) ∨
    ∃ new s₁ s', (executeCounted services policy dispatched).run s = .ok () s' ∧
      s₁.outcomes = s.outcomes ∧
      s₁.metrics = { s.metrics with tasksTotal := s.metrics.tasksTotal + 1 } ∧
      Attempted (policy.retriesFor s.run.1.maxRetries + 1).toNat 0 new s₁ s' := by
  have hretries : 0 ≤ policy.retriesFor s.run.1.maxRetries := le_min htask hpolicy
  obtain ⟨context, hok | herror⟩ := @checkStep_cases _ policy s
  · refine .inr ?_
    let task : AgentTask := { s.run.1 with status := .running }
    let metrics : RunMetrics := { s.metrics with tasksTotal := s.metrics.tasksTotal + 1 }
    obtain ⟨context', henter⟩ :=
      enterTask_ok (policy.retriesFor s.run.1.maxRetries) (task, context)
    obtain ⟨new, s', hrun, hattempted⟩ := attemptsCounted_ok hpublish hcaught
      (policy.retriesFor s.run.1.maxRetries) (policy.retriesFor s.run.1.maxRetries + 1).toNat 0
      none ⟨(task, context'), metrics, s.outcomes⟩ (by omega)
    refine ⟨new, ⟨(task, context'), metrics, s.outcomes⟩, s', ?_, rfl, rfl, hattempted⟩
    have hentered : (onTask (enterTask (policy.retriesFor s.run.1.maxRetries))).run
        ⟨(task, context), metrics, s.outcomes⟩ = .ok () ⟨(task, context'), metrics, s.outcomes⟩ :=
      onTask_ok henter
    rw [executeCounted, EStateM.run_bind_of_ok hok, EStateM.run_get_bind]
    exact (EStateM.run_bind_of_ok hentered).trans hrun
  · exact .inl ⟨context, EStateM.run_bind_of_error herror⟩

/-- What one call does to its task and the books. -/
theorem executed_spec (hpublish : Publishes services) (hcaught : Caught dispatched)
    (hpolicy : 0 ≤ policy.maxRetries) {task : AgentTask} (htask : 0 ≤ task.maxRetries)
    (context : Context Env) (metrics : RunMetrics) {call : Executed Env}
    (hcall : executed services policy dispatched task context metrics = call) :
    (StepRefused policy metrics call ∨ Finished policy call) ∧
      call.after.metrics.tasksTotal + (metrics.tasksSucceeded + metrics.tasksFailed) =
        metrics.tasksTotal +
          (call.after.metrics.tasksSucceeded + call.after.metrics.tasksFailed) ∧
      call.after.metrics.retries = metrics.retries + call.retried := by
  subst hcall
  unfold executed
  rcases executeCounted_cases hpublish hcaught hpolicy ⟨(task, context), metrics, []⟩ htask with
    ⟨context', hrun⟩ | ⟨new, s₁, s', hrun, houtcomes, hmetrics, h⟩
  · rw [show executeCounted services policy dispatched ⟨(task, context), metrics, []⟩ = _ from hrun]
    exact ⟨.inl ⟨rfl, rfl, rfl⟩, rfl, rfl⟩
  · rw [show executeCounted services policy dispatched ⟨(task, context), metrics, []⟩ = _ from hrun]
    have hretries : 0 ≤ policy.retriesFor task.maxRetries := le_min htask hpolicy
    change Attempted (policy.retriesFor task.maxRetries + 1).toNat 0 new s₁ s' at h
    have hnew := h.some_made (by omega)
    have hwithin := h.within
    have hmade : s'.run.1.attempts = new.length := by
      rw [h.attempts, if_neg (by omega), Nat.zero_add]
    have hall : s'.outcomes = new := by
      rw [h.outcomes, houtcomes]
      rfl
    refine ⟨.inr ⟨rfl, ?_, ?_, ?_, ?_⟩, ?_, ?_⟩
    · exact hmade.trans (congrArg List.length hall.symm)
    · exact hmade ▸ hnew
    · show (s'.run.1.attempts : Int) ≤ policy.retriesFor task.maxRetries + 1
      omega
    · exact hall ▸ h.ended
    · have htotal := h.total
      have hcounted := h.counted
      rw [hmetrics] at htotal hcounted
      dsimp only at htotal hcounted ⊢
      omega
    · show s'.metrics.retries = metrics.retries + (s'.run.1.attempts - 1)
      rw [h.retries, hmetrics, hmade]

/-- After every call, the metrics balance. -/
structure Balanced (calls : List (Executed Env)) (metrics : RunMetrics) : Prop where
  total : metrics.tasksTotal = metrics.tasksSucceeded + metrics.tasksFailed
  retries : metrics.retries = (calls.map Executed.retried).sum

theorem metricsAfter_cons (metrics : RunMetrics) (call : Executed Env)
    (calls : List (Executed Env)) :
    metricsAfter metrics (call :: calls) = metricsAfter call.after.metrics calls := by
  unfold metricsAfter
  rw [List.getLast?_cons]
  cases calls.getLast? <;> rfl

theorem Balanced.append {past : List (Executed Env)} {metrics : RunMetrics} {call : Executed Env}
    (h : Balanced past metrics)
    (htotal : call.after.metrics.tasksTotal + (metrics.tasksSucceeded + metrics.tasksFailed) =
      metrics.tasksTotal + (call.after.metrics.tasksSucceeded + call.after.metrics.tasksFailed))
    (hretries : call.after.metrics.retries = metrics.retries + call.retried) :
    Balanced (past ++ [call]) call.after.metrics where
  total := by
    have hbalanced := h.total
    omega
  retries := by
    rw [hretries, h.retries, List.map_append, List.sum_append]
    rfl

/-- Whatever calls came before, as long as the books balanced. -/
theorem executeEach_spec (hpublish : Publishes services) (hcaught : Caught dispatched)
    (hpolicy : 0 ≤ policy.maxRetries) : ∀ {tasks : List AgentTask} {context : Context Env}
      {metrics : RunMetrics} {past earlier later : List (Executed Env)} {call : Executed Env},
      (∀ task ∈ tasks, 0 ≤ task.maxRetries) → Balanced past metrics →
        executeEach services policy dispatched tasks context metrics = earlier ++ call :: later →
          (StepRefused policy (metricsAfter metrics earlier) call ∨ Finished policy call) ∧
            Balanced (past ++ earlier ++ [call]) call.after.metrics := by
  intro tasks
  induction tasks with
  | nil =>
      intro context metrics past earlier later call _ _ hcalls
      exact absurd hcalls.symm (List.append_ne_nil_of_right_ne_nil _ (List.cons_ne_nil _ _))
  | cons task tasks ih =>
      intro context metrics past earlier later call htasks hpast hcalls
      rw [List.forall_mem_cons] at htasks
      rw [executeEach] at hcalls
      cases earlier with
      | nil =>
          obtain ⟨hcall, -⟩ := List.cons.inj hcalls
          obtain ⟨houtcome, htotal, hretries⟩ :=
            executed_spec hpublish hcaught hpolicy htasks.1 context metrics hcall
          rw [List.append_nil]
          exact ⟨houtcome, hpast.append htotal hretries⟩
      | cons first earlier =>
          obtain ⟨hfirst, hrest⟩ := List.cons.inj hcalls
          obtain ⟨-, htotal, hretries⟩ :=
            executed_spec hpublish hcaught hpolicy htasks.1 context metrics hfirst
          rw [hfirst] at hrest
          obtain ⟨houtcome, hbalanced⟩ :=
            ih htasks.2 (hpast.append htotal hretries) hrest
          rw [metricsAfter_cons]
          rw [List.append_assoc past [first], List.singleton_append] at hbalanced
          exact ⟨houtcome, hbalanced⟩

/-- The executor accounts for every call: it refuses it or finishes the task, and the books
balance. -/
theorem executor_accounts (hpublish : Publishes services) (hcaught : Caught dispatched)
    (hpolicy : 0 ≤ policy.maxRetries) {tasks : List AgentTask}
    (htasks : ∀ task ∈ tasks, 0 ≤ task.maxRetries) (context : Context Env)
    {earlier later : List (Executed Env)} {call : Executed Env}
    (hcalls : executeEach services policy dispatched tasks context .zero =
      earlier ++ call :: later) :
    (StepRefused policy (metricsAfter .zero earlier) call ∨ Finished policy call) ∧
      Balanced (earlier ++ [call]) call.after.metrics := by
  have hspec := @executeEach_spec _ _ _ _ hpublish hcaught hpolicy tasks context .zero [] earlier
    later call htasks ⟨rfl, rfl⟩ hcalls
  rwa [List.nil_append] at hspec

end

/-! ## What the dispatch raises -/

section

open EStateM (Meets)

/-- A call that raises nothing but what `except Exception` catches. -/
def Catchable {World : Type} (m : Action World α) : Prop :=
  Meets (fun _ => True) m (fun _ _ => True) fun e _ => e.isException = true

theorem Catchable.bind {World β : Type} {m : Action World α} {f : α → Action World β}
    (hm : Catchable m) (hf : ∀ a, Catchable (f a)) : Catchable (m >>= f) := Meets.bind hm hf

theorem Catchable.get_bind {World : Type} {f : World → Action World α}
    (hf : ∀ world, Catchable (f world)) : Catchable (get >>= f) :=
  Meets.get_bind fun world _ =>
    (hf world).imp (fun _ _ => True.intro) (fun _ _ h => h) fun _ _ h => h

theorem Catchable.pure {World : Type} (a : α) : Catchable (pure a : Action World α) :=
  Meets.pure fun _ h => h

theorem Catchable.modify {World : Type} (f : World → World) :
    Catchable (modify f : Action World Unit) := Meets.modify fun _ h => h

theorem Catchable.throw {World : Type} {e : AgentError} (h : e.isException = true) :
    Catchable (throw e : Action World α) := Meets.throw fun _ _ => h

theorem Catchable.onEnv {m : Action Env α} (h : Catchable m) : Catchable (onEnv m) := by
  refine Meets.zoom ?_ h
  exact fun _ _ => rfl

/-- The language model, the tools and the bus raise nothing else. -/
structure Services.Catchable (services : Services Env) : Prop where
  complete : ∀ request, AgentCore.Catchable (services.complete request)
  runTool : ∀ name payload, AgentCore.Catchable (services.runTool name payload)
  publish : ∀ event, AgentCore.Catchable (services.publish event)

variable {services policy} {config : AgentConfig} {goal : Goal}

theorem catchable_complete (h : services.Catchable) (prompt : String) (system : Option String) :
    Catchable (complete services policy config prompt system) := by
  refine Catchable.bind (.modify _) fun _ => Catchable.bind (h.complete _).onEnv fun reply => ?_
  refine Catchable.bind ?_ fun _ => .pure _
  refine Catchable.bind (.modify _) fun _ => Catchable.get_bind fun context => ?_
  split
  · exact .throw rfl
  · split
    · exact .throw rfl
    · exact .pure _

theorem catchable_reason (h : services.Catchable) (task : AgentTask) :
    Catchable (reason services policy config goal task) :=
  .get_bind fun _ => .bind (catchable_complete h _ _) fun _ => .bind (.modify _) fun _ => .pure _

theorem catchable_runTool (h : services.Catchable) (task : AgentTask) :
    Catchable (runTool services policy task) := by
  refine Catchable.get_bind fun context => Catchable.bind ?_ fun _ => ?_
  · refine Catchable.get_bind fun context' => ?_
    split
    · exact .throw rfl
    · split
      · exact .throw rfl
      · exact .pure _
  · refine Catchable.bind (h.runTool _ _).onEnv fun outcome => ?_
    refine Catchable.bind (h.publish _).onEnv fun _ => ?_
    split
    · exact .pure _
    · exact .throw rfl

/-- What `_dispatch` raises, the executor catches. -/
theorem caught_dispatch (h : services.Catchable) :
    Caught (dispatch services policy config goal) := by
  have hdispatch : ∀ task, Catchable (dispatch services policy config goal task) := by
    intro task
    unfold dispatch
    cases task.kind with
    | tool => exact catchable_runTool h task
    | llm =>
        exact .get_bind fun _ => .bind (catchable_complete h _ _) fun _ =>
          .bind (.modify _) fun _ => .pure _
    | delegate => exact .pure _
    | reason => exact catchable_reason h task
    | custom => exact catchable_reason h task
    | workflow => exact catchable_reason h task
  exact fun task context e context' hrun => (hdispatch task context trivial).2 e context' hrun

end

end

/-! ## Two tasks and a model that is down now and then -/

theorem counting_catchable (down : List Nat) : (counting down).Catchable where
  complete request := by
    intro calls _
    refine ⟨fun _ _ _ => trivial, fun e calls' hrun => ?_⟩
    change (if calls ∈ down then _ else _) = _ at hrun
    split at hrun
    · cases hrun
      rfl
    · cases hrun
  runTool _ _ := .pure _
  publish _ := .pure _

def countedTasks : List AgentTask :=
  [.planned "Outline the video" .reason "work_0" [] [], .planned "Write it" .llm "work_1" [] []]

/-- The first task succeeds at its third attempt, the second fails at its third. -/
def countedCalls : List (Executed Nat) :=
  executeEach (counting [0, 1, 3, 4, 5]) .default
    (dispatch (counting [0, 1, 3, 4, 5]) .default usualConfig videoGoal) countedTasks
    (.start .empty [] 0) .zero

theorem executor_accounts_two : ∃ first second, countedCalls = [first, second] ∧
    first.task.status = .succeeded ∧ second.task.status = .failed ∧
    second.after.metrics = ⟨2, 1, 1, 4⟩ ∧
    (StepRefused .default (metricsAfter .zero [first]) second ∨ Finished .default second) ∧
    Balanced [first, second] second.after.metrics :=
  ⟨_, _, rfl, by decide +kernel, by decide +kernel, by decide +kernel,
    executor_accounts (fun _ env => ⟨env, rfl⟩) (caught_dispatch (counting_catchable _))
      (by decide) (show ∀ task ∈ countedTasks, 0 ≤ task.maxRetries by decide) (.start .empty [] 0)
      rfl⟩

end YoutubeFactory.AgentCore
