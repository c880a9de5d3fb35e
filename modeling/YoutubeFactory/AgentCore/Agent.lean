import YoutubeFactory.AgentCore.Executor
import YoutubeFactory.AgentCore.Planner

/-!
# An agent with its own components

The engine of a `BaseAgent` that is made of `Planner`, `Executor` and `Reflector`
(`app/agents/reflection/reflector.py`).
-/

namespace YoutubeFactory.AgentCore

section

variable {Env : Type} (services : Services Env) (policy : AgentPolicy) (config : AgentConfig)
  (goal : Goal)

/-! ## Reflection -/

/-- `Reflector._build_prompt` -/
def reflectPrompt (succeeded failed : Nat) : String :=
  "Goal: " ++ goal.objective ++ "\nSucceeded: " ++ toString succeeded ++ " tasks, Failed: " ++
    toString failed ++ " tasks.\n\nList 2-4 concise lessons to improve future runs, one per line."

/-- The lessons of a reply. -/
def lessonsOf (text : String) : List String :=
  let lines := Python.splitLines text
  (lines.map fun line => Python.strip (Python.stripChars "-*0123456789. " line)).filter (· ≠ "")

/-- `Reflector.reflect`, of which the summary is used. -/
def reflectOn (graph : TaskGraph) : Action (Context Env) String := do
  let succeeded := (graph.tasks.filter fun task => task.status = .succeeded).length
  let failed := (graph.tasks.filter fun task => task.status = .failed).length
  enterComponent
  let prompt := reflectPrompt goal succeeded failed
  let reply ← EStateM.handled AgentError.isException
    (complete services policy config prompt (some "You are a reflective post-mortem assistant."))
  let lessons := (reply.toOption.map lessonsOf).getD []
  modify fun context => { context with lessons := (context.lessons ++ lessons).take 50 }
  pure (toString succeeded ++ "/" ++ toString graph.tasks.length ++ " tasks succeeded, " ++
    toString failed ++ " failed.")

/-! ## The engine -/

/-- A call that is given the graph as it stands. -/
def withGraph {α : Type} (m : TaskGraph → Action (Context Env) α) : Hook (Context Env) α := do
  let shared ← get
  onWorld (m shared.graph)

/-- The engine of an agent that decomposes an outline in a given way. -/
def engineWith (decompose : List String → TaskGraph) : Engine (Context Env) where
  configure := onWorld (onEnv services.configure)
  publish event := onWorld (onEnv (services.publish event))
  plan := onWorld (planGoal services policy config goal decompose)
  execute := runTask services policy config goal
  replan := replan services
  reflect := withGraph (reflectOn services policy config goal)
  remember summary := onWorld (remember "agent" "last_reflection" summary)
  evaluate := withGraph fun graph => onEnv (services.evaluate graph)
  finalOutput := withGraph fun graph => onEnv (services.finalOutput graph)
  requests context :=
    let (requests, env) := services.requests context.env
    (requests, { context with env })

/-- The engine of a `BaseAgent`. -/
def baseEngine : Engine (Context Env) :=
  engineWith services policy config goal (decompose config goal)

end

/-- A new agent in a state, before its run. -/
def agentIn {Env : Type} (state : AgentState) (paused cancelled : Bool) (goalStatus : GoalStatus)
    (context : Context Env) : AgentRun (Context Env) where
  state
  paused
  cancelled
  goalStatus
  moves := []
  shared := ⟨TaskGraph.empty, context⟩

end YoutubeFactory.AgentCore
