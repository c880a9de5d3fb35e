import YoutubeFactory.Lib.Stateful
import YoutubeFactory.AgentCore.Tasks

/-!
# A run of an agent

`BaseAgent.run` of `app/agents/base/agent.py` and the state machine of `app/agents/base/lifecycle.py`.

The components (planner, executor, reflector, evaluator), the hooks and the event bus are an
`Engine`: what each does to the task graph and to the rest of the world, and what it returns or
raises.  Requests to pause, resume or cancel arrive where the run waits for one of them, and are
dealt with before it goes on.

A run keeps a record of what it has assigned to `state`.
-/

namespace YoutubeFactory.AgentCore

/-! ## The state machine -/

inductive AgentState where
  | created | initializing | idle | planning | reasoning | executing | reflecting | paused
  | completed | failed | cancelled
deriving DecidableEq, Repr

namespace AgentState

def value : AgentState → String
  | created => "created"
  | initializing => "initializing"
  | idle => "idle"
  | planning => "planning"
  | reasoning => "reasoning"
  | executing => "executing"
  | reflecting => "reflecting"
  | paused => "paused"
  | completed => "completed"
  | failed => "failed"
  | cancelled => "cancelled"

/-- `_TRANSITIONS` -/
def transitions : AgentState → List AgentState
  | created => [initializing, cancelled]
  | initializing => [idle, failed]
  | idle => [planning, paused, cancelled]
  | planning => [reasoning, executing, failed, paused, cancelled]
  | reasoning => [executing, reflecting, failed, paused, cancelled]
  | executing => [reflecting, reasoning, completed, failed, paused, cancelled]
  | reflecting => [idle, planning, completed, failed, paused, cancelled]
  | paused => [idle, cancelled]
  | completed => []
  | failed => []
  | cancelled => []

end AgentState

/-- `can_transition` -/
def canTransition (current target : AgentState) : Bool := target ∈ current.transitions

inductive GoalStatus where
  | pending | active | completed | failed | cancelled
deriving DecidableEq, Repr

/-! ## Exceptions and events -/

inductive AgentError where
  | invalidTransition (current target : AgentState)
  | policyViolation (message : String)
  | approvalRequired (message : String)
  | timeout
  /-- Any other `Exception`. -/
  | other (message : String)
  /-- An exception that is none of `Exception`, such as a cancelled task. -/
  | exit
deriving DecidableEq, Repr

/-- The exceptions that `except Exception` catches. -/
def AgentError.isException : AgentError → Bool
  | .exit => false
  | _ => true

/-- `str(exc)` -/
def AgentError.text : AgentError → String
  | .invalidTransition current target =>
      "Cannot transition from " ++ current.value ++ " to " ++ target.value ++ "."
  | .policyViolation message => message
  | .approvalRequired message => message
  | .timeout => ""
  | .other message => message
  | .exit => ""

inductive AgentEvent where
  | agentStarted | goalCompleted | goalFailed
  | taskFinished (key : String) (status : TaskStatus)
  | toolExecuted (name : String) (success : Bool)
  | agentStopped (state : AgentState)
deriving DecidableEq, Repr

/-! ## The engine -/

inductive Request where
  | pause | resume | cancel
deriving DecidableEq, Repr

/-- What the components work on: the task graph, and a world that is theirs. -/
structure Shared (World : Type) where
  graph : TaskGraph
  world : World

abbrev Hook (World α : Type) := EStateM AgentError (Shared World) α

structure Engine (World : Type) where
  configure : Hook World Unit
  publish : AgentEvent → Hook World Unit
  plan : Hook World TaskGraph
  execute : AgentTask → Hook World Unit
  replan : Hook World Unit
  /-- The reflection, of which the run reads the summary. -/
  reflect : Hook World String
  /-- `memory.remember("agent", "last_reflection", summary)` -/
  remember : String → Hook World Unit
  evaluate : Hook World Unit
  finalOutput : Hook World String
  /-- The requests that have arrived while the run was waiting. -/
  requests : World → List Request × World

structure AgentConfig where
  maxTokens : Int
  maxIterations : Int
  maxTasks : Int
  reflectionEnabled : Bool
  evaluationEnabled : Bool
  systemPrompt : Option String
  instructions : String

/-- An agent with its goal and its graph, while it runs. -/
structure AgentRun (World : Type) where
  state : AgentState
  paused : Bool
  cancelled : Bool
  goalStatus : GoalStatus
  /-- The assignments to `state`, from what to what. -/
  moves : List (AgentState × AgentState)
  shared : Shared World

structure AgentRunResult where
  state : AgentState
  output : String
  goalStatus : GoalStatus
  error : Option String
deriving DecidableEq, Repr

abbrev AgentM (World α : Type) := EStateM AgentError (AgentRun World) α

section

variable {World α : Type}

namespace AgentRun

/-- `self.state = target` -/
def move (run : AgentRun World) (target : AgentState) : AgentRun World :=
  { run with state := target, moves := run.moves ++ [(run.state, target)] }

/-- `pause`, `resume` and `cancel` -/
def request (run : AgentRun World) : Request → AgentRun World
  | .pause => { run with paused := true }
  | .resume => { run with paused := false }
  | .cancel => { run with cancelled := true }

/-- The requests that have arrived. -/
def receive (engine : Engine World) (run : AgentRun World) : AgentRun World :=
  (engine.requests run.shared.world).1.foldl request
    { run with shared := { run.shared with world := (engine.requests run.shared.world).2 } }

end AgentRun

/-- A call of a component that does not wait. -/
def call (hook : Hook World α) : AgentM World α :=
  EStateM.zoom AgentRun.shared (fun shared run => { run with shared }) hook

/-- `await` of a component. -/
def awaited (engine : Engine World) (hook : Hook World α) : AgentM World α := fun run =>
  match call hook run with
  | .ok a run => .ok a (run.receive engine)
  | .error e run => .error e (run.receive engine)

/-! ## The phases -/

/-- `_transition` -/
def transition (target : AgentState) : AgentM World Unit := do
  let run ← get
  if canTransition run.state target = true then set (run.move target)
  else throw (.invalidTransition run.state target)

variable (engine : Engine World) (config : AgentConfig)

def initializeRun : AgentM World Unit := do
  transition .initializing
  awaited engine engine.configure
  awaited engine (engine.publish .agentStarted)
  transition .idle

def plan : AgentM World Unit := do
  transition .planning
  let graph ← awaited engine engine.plan
  modify fun run => { run with shared := { run.shared with graph } }

/-- One round of the loop: the tasks that are ready, and new ones if some have failed. -/
def round : AgentM World Unit := do
  let run ← get
  run.shared.graph.ready.forM fun task => awaited engine (engine.execute task)
  let run ← get
  if run.shared.graph.hasFailure = true ∧ config.reflectionEnabled = true then
    awaited engine engine.replan

/-- The loop of `execute`, with the iterations that are left. -/
def iterate : Nat → AgentM World Unit
  | 0 => pure ()
  | n + 1 => do
      let run ← get
      if run.shared.graph.isComplete = true ∨ run.cancelled = true then pure ()
      else if run.paused = true then set (run.move .paused)
      else if run.shared.graph.ready = [] then pure ()
      else do
        round engine config
        iterate n

def execute : AgentM World Unit := do
  transition .executing
  iterate engine config config.maxIterations.toNat

/-- `reflect` and `learn` -/
def reflect : AgentM World Unit := do
  transition .reflecting
  let summary ← awaited engine engine.reflect
  call (engine.remember summary)

def finish : AgentM World Unit := do
  let run ← get
  if run.shared.graph.hasFailure = true ∧ run.shared.graph.anySucceeded = false then
    set { run with goalStatus := .failed }
    transition .failed
  else
    let run := { run with goalStatus := .completed }
    set (if canTransition run.state .completed = true then run.move .completed else run)

/-- The stage of reflection, where it is enabled. -/
def reflectStage : AgentM World Unit :=
  if config.reflectionEnabled = true then reflect engine else pure ()

/-- The stage of evaluation, where it is enabled. -/
def evaluateStage : AgentM World Unit :=
  if config.evaluationEnabled = true then awaited engine engine.evaluate else pure ()

/-- What `run` does once the loop has been left. -/
def conclude : AgentM World Unit := do
  let run ← get
  if run.cancelled = true then set { run.move .cancelled with goalStatus := .cancelled }
  else do
    reflectStage engine config
    evaluateStage engine config
    finish

/-- The body of the `try`. -/
def lifecycle : AgentM World Unit := do
  initializeRun engine
  plan engine
  execute engine config
  conclude engine config

/-- The event of a goal that has been completed or has failed. -/
def publishGoal : AgentM World Unit := do
  let run ← get
  if run.goalStatus = .completed then awaited engine (engine.publish .goalCompleted)
  else if run.goalStatus = .failed then awaited engine (engine.publish .goalFailed)
  else pure ()

/-- `_publish_terminal` -/
def publishTerminal : AgentM World Unit := do
  publishGoal engine
  let run ← get
  awaited engine (engine.publish (.agentStopped run.state))

/-- The output, if there are tasks. -/
def outputOf : AgentM World String := do
  let run ← get
  if run.shared.graph.tasks.isEmpty then pure "No output." else call engine.finalOutput

/-- The output, the last events and the result. -/
def terminate (error : Option String) : AgentM World AgentRunResult := do
  let output ← outputOf engine
  publishTerminal engine
  let run ← get
  pure ⟨run.state, output, run.goalStatus, error⟩

/-- `except Exception` -/
def AgentRun.fail (run : AgentRun World) : AgentRun World :=
  { run.move .failed with goalStatus := .failed }

/-- A run from its first line: the goal is active, and the graph is empty. -/
def AgentRun.begin (run : AgentRun World) : AgentRun World :=
  { run with
    goalStatus := .active, moves := [], shared := { run.shared with graph := TaskGraph.empty } }

/-- `run` -/
def runGoal : AgentM World AgentRunResult := fun run =>
  match lifecycle engine config run.begin with
  | .ok () run => terminate engine none run
  | .error e run =>
      if e.isException = true then terminate engine (some e.text) run.fail else .error e run

/-! ## What every component preserves -/

/-- A hook that preserves what is said of the world. -/
def HookPreserves (inv : World → Prop) (hook : Hook World α) : Prop :=
  EStateM.Preserves (fun shared => inv shared.world) hook

structure Engine.Preserves (inv : World → Prop) : Prop where
  configure : HookPreserves inv engine.configure
  publish : ∀ event, HookPreserves inv (engine.publish event)
  plan : HookPreserves inv engine.plan
  execute : ∀ task, HookPreserves inv (engine.execute task)
  replan : HookPreserves inv engine.replan
  reflect : HookPreserves inv engine.reflect
  remember : ∀ summary, HookPreserves inv (engine.remember summary)
  evaluate : HookPreserves inv engine.evaluate
  finalOutput : HookPreserves inv engine.finalOutput
  requests : ∀ world, inv world → inv (engine.requests world).2

/-- What is said of the world that a run works on. -/
def OfWorld (inv : World → Prop) (run : AgentRun World) : Prop := inv run.shared.world

variable {engine config} {inv : World → Prop}

open EStateM (Preserves)

theorem call_preserves {hook : Hook World α} (h : HookPreserves inv hook) :
    Preserves (OfWorld inv) (call hook) := by
  refine Preserves.zoom ?_ h
  exact fun _ _ => rfl

/-- The requests that arrive set the flags, and nothing else. -/
theorem receive_eq (engine : Engine World) (run : AgentRun World) :
    ∃ paused cancelled, run.receive engine =
      { run with
        paused, cancelled
        shared := { run.shared with world := (engine.requests run.shared.world).2 } } := by
  have hrequests : ∀ (requests : List Request) (run : AgentRun World), ∃ paused cancelled,
      requests.foldl AgentRun.request run = { run with paused, cancelled } := by
    intro requests
    induction requests with
    | nil => exact fun run => ⟨run.paused, run.cancelled, rfl⟩
    | cons request requests ih =>
        intro run
        obtain ⟨paused, cancelled, heq⟩ := ih (run.request request)
        refine ⟨paused, cancelled, ?_⟩
        rw [List.foldl_cons, heq]
        cases request <;> rfl
  exact hrequests _ _

/-- The run after a call is awaited: that of the call, with the requests that have arrived. -/
theorem awaited_state (engine : Engine World) (hook : Hook World α) (run : AgentRun World) :
    ((awaited engine hook).run run).state = ((call hook).run run).state.receive engine := by
  show (awaited engine hook run).state = (call hook run).state.receive engine
  unfold awaited
  cases call hook run <;> rfl

theorem awaited_preserves (hengine : engine.Preserves inv) {hook : Hook World α}
    (h : HookPreserves inv hook) : Preserves (OfWorld inv) (awaited engine hook) := by
  intro run hrun
  have hcall := call_preserves h run hrun
  rw [awaited_state]
  obtain ⟨paused, cancelled, heq⟩ := receive_eq engine ((call hook).run run).state
  rw [heq]
  exact hengine.requests _ hcall

theorem transition_preserves (target : AgentState) :
    Preserves (OfWorld inv) (transition target) := by
  refine Preserves.get_bind fun run hrun => ?_
  split <;> exact hrun

theorem round_preserves (hengine : engine.Preserves inv) :
    Preserves (OfWorld inv) (round engine config) := by
  refine Preserves.get_bind fun run hrun => ?_
  refine Preserves.bind (Preserves.forM (fun task => ?_) _) (fun _ => ?_) run hrun
  · exact awaited_preserves hengine (hengine.execute task)
  · refine Preserves.get_bind fun run hrun => ?_
    split
    · exact awaited_preserves hengine hengine.replan run hrun
    · exact hrun

theorem iterate_preserves (hengine : engine.Preserves inv) :
    ∀ n, Preserves (OfWorld inv) (iterate engine config n)
  | 0 => Preserves.pure _
  | n + 1 => by
      refine Preserves.get_bind fun run hrun => ?_
      split
      · exact hrun
      · split
        · exact hrun
        · split
          · exact hrun
          · exact Preserves.bind (round_preserves hengine) (fun _ => iterate_preserves hengine n)
              run hrun

theorem finish_preserves : Preserves (OfWorld inv) (finish : AgentM World Unit) := by
  refine Preserves.get_bind fun run hrun => ?_
  split
  · exact transition_preserves .failed { run with goalStatus := .failed } hrun
  · show OfWorld inv (if _ then _ else _)
    split <;> exact hrun

theorem reflectStage_preserves (hengine : engine.Preserves inv) :
    Preserves (OfWorld inv) (reflectStage engine config) := by
  unfold reflectStage
  split
  · refine Preserves.bind (transition_preserves _) fun _ => ?_
    exact Preserves.bind (awaited_preserves hengine hengine.reflect) fun summary =>
      call_preserves (hengine.remember summary)
  · exact Preserves.pure _

theorem evaluateStage_preserves (hengine : engine.Preserves inv) :
    Preserves (OfWorld inv) (evaluateStage engine config) := by
  unfold evaluateStage
  split
  · exact awaited_preserves hengine hengine.evaluate
  · exact Preserves.pure _

theorem conclude_preserves (hengine : engine.Preserves inv) :
    Preserves (OfWorld inv) (conclude engine config) := by
  refine Preserves.get_bind fun run hrun => ?_
  split
  · exact hrun
  · refine Preserves.bind (reflectStage_preserves hengine) (fun _ => ?_) run hrun
    exact Preserves.bind (evaluateStage_preserves hengine) fun _ => finish_preserves

theorem lifecycle_preserves (hengine : engine.Preserves inv) :
    Preserves (OfWorld inv) (lifecycle engine config) := by
  refine Preserves.bind ?_ fun _ => Preserves.bind ?_ fun _ => Preserves.bind ?_ fun _ =>
    conclude_preserves hengine
  · refine Preserves.bind (transition_preserves _) fun _ => ?_
    refine Preserves.bind (awaited_preserves hengine hengine.configure) fun _ => ?_
    refine Preserves.bind (awaited_preserves hengine (hengine.publish _)) fun _ => ?_
    exact transition_preserves _
  · refine Preserves.bind (transition_preserves _) fun _ => ?_
    refine Preserves.bind (awaited_preserves hengine hengine.plan) fun graph => ?_
    exact Preserves.modify fun _ hrun => hrun
  · exact Preserves.bind (transition_preserves _) fun _ => iterate_preserves hengine _

theorem publishTerminal_preserves (hengine : engine.Preserves inv) :
    Preserves (OfWorld inv) (publishTerminal engine) := by
  have hpublish := fun event => awaited_preserves hengine (hengine.publish event)
  refine Preserves.bind (Preserves.get_bind fun run hrun => ?_) fun _ =>
    Preserves.get_bind fun run hrun => hpublish _ run hrun
  split
  · exact hpublish _ run hrun
  · split
    · exact hpublish _ run hrun
    · exact hrun

theorem terminate_preserves (hengine : engine.Preserves inv) (error : Option String) :
    Preserves (OfWorld inv) (terminate engine error) := by
  refine Preserves.bind (Preserves.get_bind fun run hrun => ?_) fun output => ?_
  · split
    · exact hrun
    · exact call_preserves hengine.finalOutput run hrun
  · exact Preserves.bind (publishTerminal_preserves hengine) fun _ =>
      Preserves.get_bind fun _ hrun => hrun

/-- What every component preserves holds of the world after a run, however it ends. -/
theorem runGoal_preserves (hengine : engine.Preserves inv) :
    Preserves (OfWorld inv) (runGoal engine config) := by
  intro run hrun
  have hbody := @lifecycle_preserves _ engine config inv hengine run.begin hrun
  change OfWorld inv (lifecycle engine config run.begin).state at hbody
  show OfWorld inv (runGoal engine config run).state
  unfold runGoal
  cases hresult : lifecycle engine config run.begin with
  | ok u run' =>
      rw [hresult] at hbody
      exact terminate_preserves hengine _ run' hbody
  | error e run' =>
      rw [hresult] at hbody
      dsimp only
      split
      · exact terminate_preserves hengine _ run'.fail hbody
      · exact hbody

end

end YoutubeFactory.AgentCore
