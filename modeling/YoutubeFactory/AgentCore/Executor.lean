import YoutubeFactory.AgentCore.Context

/-!
# The executor

`Executor` of `app/agents/executor/executor.py`, with `Reasoner` of
`app/agents/reasoning/reasoner.py`.  A task is run on its own value and the context; its artifacts
and its log, which nothing reads, are left out.
-/

namespace YoutubeFactory.AgentCore

/-- A task and the context it is run in. -/
abbrev TaskM (Env α : Type) := EStateM AgentError (AgentTask × Context Env) α

/-- `payload.get(key)` -/
def AgentTask.payloadGet (task : AgentTask) (key : String) : Option String := task.payload.lookup key

/-- The failures that are not retried. -/
def AgentError.isPolicy : AgentError → Bool
  | .policyViolation _ => true
  | .approvalRequired _ => true
  | _ => false

/-- The kinds that are dispatched to the language model. -/
def TaskKind.completes : TaskKind → Bool
  | .tool => false
  | .delegate => false
  | _ => true

section

variable {Env α : Type}

def inContext (m : Action (Context Env) α) : TaskM Env α :=
  EStateM.zoom Prod.snd (fun context s => (s.1, context)) m

def writeTask (f : AgentTask → AgentTask) : TaskM Env Unit := modify fun s => (f s.1, s.2)

variable (services : Services Env) (policy : AgentPolicy) (config : AgentConfig) (goal : Goal)

/-! ## Reasoning -/

def bullets (items : List String) : String := "\n".intercalate (items.map ("- " ++ ·))

/-- `Reasoner._system_prompt` -/
def systemPrompt (context : Context Env) : String :=
  (if config.instructions = "" then
      "You are a capable autonomous agent. Reason concisely and " ++
        "practically about how to accomplish the task."
    else config.instructions) ++
  if services.policies context.env = [] then ""
  else "\n\nHonor these policies:\n" ++ bullets (services.policies context.env)

/-- `Reasoner._build_prompt` -/
def reasonPrompt (task : AgentTask) (knowledge : List String) : String :=
  "\n\n".intercalate
    (["Overall goal: " ++ goal.objective, "Current task: " ++ task.description] ++
      (if goal.constraints = [] then []
        else ["Constraints: " ++ "; ".intercalate goal.constraints]) ++
      (if knowledge = [] then [] else ["Relevant knowledge:\n" ++ bullets knowledge]) ++
      ["Explain briefly how to accomplish this task."])

/-- `Reasoner.reason`, of which the thought is used. -/
def reason (task : AgentTask) : Action (Context Env) String := do
  let context ← get
  let prompt := reasonPrompt goal task (services.search task.description context.env)
  let thought ←
    complete services policy config prompt (some (systemPrompt services config context))
  remember "short_term" ("reasoning:" ++ task.key) thought
  pure thought

/-! ## Dispatch -/

/-- `_synthesis_prompt` -/
def synthesisPrompt (task : AgentTask) (notes : List (String × String)) : String :=
  let joined := bullets (notes.map fun note => note.1 ++ ": " ++ note.2)
  let expected := (task.payloadGet "expected_output").getD ""
  "Goal: " ++ goal.objective ++ "\nWork completed:\n" ++
    (if joined = "" then "- (no intermediate notes)" else joined) ++ "\n\n" ++ task.description ++
    if expected = "" then "" else "\nExpected output: " ++ expected

/-- `_run_llm` -/
def runLLM (task : AgentTask) : Action (Context Env) String := do
  let context ← get
  let prompt := ((task.payloadGet "prompt").filter (· ≠ "")).getD
    (synthesisPrompt goal task (context.scopeItems "task"))
  let output ← complete services policy config prompt none
  remember "task" task.key output
  pure output

/-- `_run_tool` -/
def runTool (task : AgentTask) : Action (Context Env) String := do
  let name := (task.payloadGet "tool").getD ""
  let context ← get
  checkTool services policy name ((services.mutating name context.env).getD false)
  let outcome ← onEnv (services.runTool name task.payload)
  onEnv (services.publish (.toolExecuted name outcome.success))
  if outcome.success = true then pure outcome.output
  else throw (.other ((outcome.error.filter (· ≠ "")).getD ("Tool '" ++ name ++ "' failed")))

/-- `_run_delegate` -/
def runDelegate (task : AgentTask) : Action (Context Env) String :=
  pure ("delegated:" ++ (task.payloadGet "agent").getD "unknown")

/-- `_dispatch` -/
def dispatch (task : AgentTask) : Action (Context Env) String :=
  match task.kind with
  | .tool => runTool services policy task
  | .llm => runLLM services policy config goal task
  | .reason => reason services policy config goal task
  | .custom => reason services policy config goal task
  | .delegate => runDelegate task
  | .workflow => reason services policy config goal task

/-! ## Attempts -/

/-- `_publish_finished` -/
def publishFinished : TaskM Env Unit := do
  let s ← get
  inContext (onEnv (services.publish (.taskFinished s.1.key s.1.status)))

/-- The body of the `try`. -/
def tryOnce : TaskM Env Unit := do
  let s ← get
  let result ← inContext (dispatch services policy config goal s.1)
  writeTask fun task => { task with status := .succeeded, result := some result }
  publishFinished services

/-- The task has failed, with its last error. -/
def failTask (lastError : Option String) : TaskM Env Unit := do
  writeTask fun task => { task with status := .failed, error := lastError }
  publishFinished services

/-- What an attempt that has failed leaves as the last error. -/
def lastError (task : AgentTask) : AgentError → String
  | .timeout =>
      let timeout := (task.timeoutSeconds.filter (· ≠ 0)).getD policy.taskTimeoutSeconds
      "timeout after " ++ services.seconds timeout ++ "s"
  | e => e.text

/-- The attempts that are left, with the attempts that have been made and the last error. -/
def attempts : Nat → Nat → Option String → TaskM Env Unit
  | 0, _, error => failTask services error
  | n + 1, made, _ => do
      writeTask fun task => { task with attempts := made + 1 }
      match ← EStateM.handled AgentError.isException (tryOnce services policy config goal) with
      | .ok () => pure ()
      | .error e => do
          let s ← get
          if e.isPolicy = true then failTask services (some (lastError services policy s.1 e))
          else attempts n (made + 1) (some (lastError services policy s.1 e))

/-- A task that will complete, with the retries that it has, is entered. -/
def enterTask (retries : Int) : TaskM Env Unit := do
  let s ← get
  if s.1.kind.completes = true ∧ 0 ≤ retries then inContext enterComponent else pure ()

/-- `execute` -/
def executeTask : TaskM Env Unit := do
  inContext (checkStep policy)
  let s ← get
  let retries := policy.retriesFor s.1.maxRetries
  writeTask fun task => { task with status := .running }
  enterTask retries
  attempts services policy config goal (retries + 1).toNat 0 none

/-- The task of the graph that has the key of this one, run. -/
def runTask (task : AgentTask) : Hook (Context Env) Unit := fun shared =>
  match shared.graph.get task.key with
  | none => .ok () shared
  | some task =>
      match executeTask services policy config goal (task, shared.world) with
      | .ok () (task, world) => .ok () ⟨shared.graph.add task, world⟩
      | .error e (task, world) => .error e ⟨shared.graph.add task, world⟩

/-! ## What becomes of a task -/

open EStateM (Keeps Meets)

variable {services policy config goal}

/-- A reading of tasks that the executor does not write. -/
def Unwritten {γ : Type} (view : AgentTask → γ) : Prop :=
  ∀ (task : AgentTask) (status : TaskStatus) (attempts : Nat) (result error : Option String),
    view { task with status, attempts, result, error } = view task

/-- What of a task the executor does not write. -/
def AgentTask.given (task : AgentTask) : String × TaskKind × List String :=
  (task.key, task.kind, task.dependsOn)

def givenOf (s : AgentTask × Context Env) : String × TaskKind × List String := s.1.given

theorem given_unwritten : Unwritten AgentTask.given := fun _ _ _ _ _ => rfl

theorem inContext_task (m : Action (Context Env) α) : Keeps Prod.fst (inContext m) := by
  refine Keeps.zoom ?_ m
  exact fun _ _ => rfl

theorem publishFinished_task : Keeps Prod.fst (publishFinished services) :=
  Keeps.get_bind fun s => inContext_task _ s

section

variable {γ : Type} {view : AgentTask → γ}

theorem inContext_view (view : AgentTask → γ) (m : Action (Context Env) α) :
    Keeps (fun s => view s.1) (inContext m) := (inContext_task m).map view

theorem writeTask_view {f : AgentTask → AgentTask} (h : ∀ task, view (f task) = view task) :
    Keeps (fun s => view s.1) (writeTask f : TaskM Env Unit) := Keeps.modify fun s => h s.1

theorem publishFinished_view (view : AgentTask → γ) :
    Keeps (fun s => view s.1) (publishFinished services) := publishFinished_task.map view

theorem tryOnce_view (h : Unwritten view) :
    Keeps (fun s => view s.1) (tryOnce services policy config goal) := by
  refine Keeps.get_bind fun s => ?_
  refine Keeps.bind (inContext_view view _) (fun result => ?_) s
  exact Keeps.bind (writeTask_view fun task => h task _ _ _ _) fun _ => publishFinished_view view

theorem failTask_view (h : Unwritten view) (error : Option String) :
    Keeps (fun s => view s.1) (failTask services error) :=
  Keeps.bind (writeTask_view fun task => h task _ _ _ _) fun _ => publishFinished_view view

theorem attempts_view (h : Unwritten view) : ∀ n made error,
    Keeps (fun s => view s.1) (attempts services policy config goal n made error)
  | 0, _, error => failTask_view h error
  | n + 1, made, _ => by
      refine Keeps.bind (writeTask_view fun task => h task _ _ _ _) fun _ => ?_
      refine Keeps.bind (tryOnce_view h).handled fun reply => ?_
      cases reply with
      | ok u => exact Keeps.pure _
      | error e =>
          refine Keeps.get_bind fun s => ?_
          split
          · exact failTask_view h _ s
          · exact attempts_view h n _ _ s

theorem enterTask_view (view : AgentTask → γ) (retries : Int) :
    Keeps (fun s => view s.1) (enterTask retries : TaskM Env Unit) := by
  refine Keeps.get_bind fun s => ?_
  split
  · exact inContext_view view _ s
  · rfl

theorem executeTask_view (h : Unwritten view) :
    Keeps (fun s => view s.1) (executeTask services policy config goal) := by
  refine Keeps.bind (inContext_view view _) fun _ => Keeps.get_bind fun s => ?_
  refine Keeps.bind (writeTask_view fun task => h task _ _ _ _) (fun _ => ?_) s
  exact Keeps.bind (enterTask_view view _) fun _ => attempts_view h _ _ _

end

theorem executeTask_given : Keeps givenOf (executeTask services policy config goal) :=
  executeTask_view given_unwritten

/-- A task has ended. -/
def AgentTask.Ended (task : AgentTask) : Prop :=
  task.status = .succeeded ∨ task.status = .failed

theorem publishFinished_status (status : TaskStatus) :
    Meets (fun s : AgentTask × Context Env => s.1.status = status) (publishFinished services)
      (fun _ s => s.1.status = status) fun _ _ => True := by
  have hkeeps : Keeps (fun s : AgentTask × Context Env => s.1.status) (publishFinished services) :=
    publishFinished_task.map AgentTask.status
  exact (@Meets.of_keeps _ _ _ _ _ (· = status) _ hkeeps).imp (fun _ h => h) (fun _ _ h => h)
    fun _ _ _ => True.intro

theorem failTask_ends (error : Option String) :
    Meets (fun _ => True) (failTask services error) (fun _ s => s.1.Ended) fun _ _ => True := by
  have hwrite : Meets (fun _ => True)
      (writeTask fun task => { task with status := .failed, error } : TaskM Env Unit)
      (fun _ s => s.1.status = .failed) fun _ _ => True := Meets.modify fun _ _ => rfl
  exact Meets.bind hwrite fun _ => (publishFinished_status .failed).imp (fun _ h => h)
    (fun _ _ h => .inr h) fun _ _ h => h

theorem tryOnce_ends :
    Meets (fun _ => True) (tryOnce services policy config goal) (fun _ s => s.1.Ended)
      fun _ _ => True := by
  have hwrite : ∀ result, Meets (fun _ => True)
      (writeTask fun task => { task with status := .succeeded, result := some result } :
        TaskM Env Unit) (fun _ s => s.1.status = .succeeded) fun _ _ => True :=
    fun _ => Meets.modify fun _ _ => rfl
  refine Meets.get_bind fun s hs => ?_
  refine Meets.bind (Meets.trivial _) fun result => Meets.bind (hwrite result) fun _ => ?_
  exact (publishFinished_status .succeeded).imp (fun _ h => h) (fun _ _ h => .inl h)
    fun _ _ h => h

theorem attempts_end : ∀ n made error,
    Meets (fun _ => True) (attempts services policy config goal n made error)
      (fun _ s => s.1.Ended) fun _ _ => True
  | 0, _, error => failTask_ends error
  | n + 1, made, _ => by
      unfold attempts
      refine Meets.bind (Meets.trivial _) fun _ => ?_
      refine Meets.bind (Meets.handled tryOnce_ends) fun reply => ?_
      cases reply with
      | ok u => exact Meets.pure fun _ h => h
      | error e =>
          refine Meets.get_bind fun s _ => ?_
          split
          · exact (failTask_ends _).imp (fun _ _ => True.intro) (fun _ _ h => h) fun _ _ h => h
          · exact (attempts_end n _ _).imp (fun _ _ => True.intro) (fun _ _ h => h)
              fun _ _ h => h

/-- A task that is run, and not left by an exception, succeeds or fails. -/
theorem executeTask_ends :
    Meets (fun _ => True) (executeTask services policy config goal) (fun _ s => s.1.Ended)
      fun _ _ => True := by
  unfold executeTask
  refine Meets.bind (Meets.trivial _) fun _ => Meets.get_bind fun s _ => ?_
  refine Meets.bind (Meets.trivial _) fun _ => ?_
  exact Meets.bind (Meets.trivial _) fun _ => attempts_end _ _ _

/-- The tasks of these keys have been run. -/
structure Ran (keys : List String) (graph graph' : TaskGraph) : Prop where
  fresh : ∀ key, graph.get key = none → graph'.get key = none
  kept : ∀ key task, graph.get key = some task → ∃ task', graph'.get key = some task' ∧
    task'.dependsOn = task.dependsOn ∧ (key ∈ keys → task'.Ended) ∧
    (key ∉ keys → task'.status = task.status)

theorem Ran.refl (graph : TaskGraph) : Ran [] graph graph where
  fresh _ h := h
  kept _ task h := ⟨task, h, rfl, nofun, fun _ => rfl⟩

theorem Ran.trans {keys keys' : List String} {graph graph' graph'' : TaskGraph}
    (h : Ran keys graph graph') (h' : Ran keys' graph' graph'') :
    Ran (keys ++ keys') graph graph'' where
  fresh key hkey := h'.fresh key (h.fresh key hkey)
  kept key task hget := by
    obtain ⟨task', hget', hdeps, hends, hstays⟩ := h.kept key task hget
    obtain ⟨task'', hget'', hdeps', hends', hstays'⟩ := h'.kept key task' hget'
    refine ⟨task'', hget'', hdeps'.trans hdeps, fun hkey => ?_, fun hkey => ?_⟩
    · by_cases hlater : key ∈ keys'
      · exact hends' hlater
      · unfold AgentTask.Ended
        rw [hstays' hlater]
        exact hends ((List.mem_append.mp hkey).resolve_right hlater)
    · rw [List.mem_append, not_or] at hkey
      rw [hstays' hkey.2, hstays hkey.1]

theorem runTask_ran {task : AgentTask} {shared shared' : Shared (Context Env)}
    (h : runTask services policy config goal task shared = .ok () shared') :
    Ran [task.key] shared.graph shared'.graph := by
  unfold runTask at h
  cases hget : shared.graph.get task.key with
  | none =>
      rw [hget] at h
      cases h
      refine ⟨fun _ h => h, fun key task' hkey => ⟨task', hkey, rfl, fun hmem => ?_, fun _ => rfl⟩⟩
      rw [List.mem_singleton.mp hmem, hget] at hkey
      cases hkey
  | some before =>
      rw [hget] at h
      dsimp only at h
      have hgiven := @executeTask_given _ services policy config goal (before, shared.world)
      have hends := @executeTask_ends _ services policy config goal (before, shared.world) trivial
      cases hrun : executeTask services policy config goal (before, shared.world) with
      | error e s =>
          rw [hrun] at h
          cases h
      | ok u s =>
          obtain ⟨after, world⟩ := s
          rw [hrun] at h
          cases h
          rw [show (executeTask services policy config goal).run (before, shared.world) = _
            from hrun] at hgiven
          have hkey : after.key = task.key :=
            (congrArg Prod.fst hgiven).trans (TaskGraph.key_of_get hget)
          have hended : after.Ended := hends.1 u _ hrun
          refine ⟨fun key hnone => ?_, fun key task' hsome => ?_⟩
          · rw [TaskGraph.get_add, if_neg]
            · exact hnone
            · rintro rfl
              rw [hkey, hget] at hnone
              cases hnone
          · by_cases heq : key = after.key
            · subst heq
              rw [hkey, hget] at hsome
              cases hsome
              refine ⟨after, by rw [TaskGraph.get_add, if_pos rfl],
                congrArg (fun g => g.2.2) hgiven, fun _ => hended, fun hnot => ?_⟩
              exact absurd (List.mem_singleton.mpr hkey) hnot
            · refine ⟨task', by rw [TaskGraph.get_add, if_neg heq, hsome], rfl, fun hmem => ?_,
                fun _ => rfl⟩
              exact absurd ((List.mem_singleton.mp hmem).trans hkey.symm) heq

end

end YoutubeFactory.AgentCore
