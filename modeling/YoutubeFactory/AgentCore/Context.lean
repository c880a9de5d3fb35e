import YoutubeFactory.AgentCore.Run
import YoutubeFactory.Python.Text
import YoutubeFactory.Python.Numbers

/-!
# Policies and the context of a run

`AgentPolicy` and `PolicyEnforcer` of `app/agents/policies/policies.py`, and `AgentContext` of
`app/agents/base/context.py`.

The language model, the tools, the knowledge base, the event bus and the hooks of an agent are
`Services`: they return or raise what they will, and may wait.  A context keeps a record of what
had been used when each completion started, and when a component that completes was entered.
-/

namespace YoutubeFactory.AgentCore

abbrev Action (World α : Type) := EStateM AgentError World α

/-! ## Policies -/

structure AgentPolicy where
  /-- `none` allows every tool that is not forbidden. -/
  allowedTools : Option (List String)
  forbiddenTools : List String
  maxCostUsd : ℚ
  maxTokens : Int
  maxSteps : Int
  maxRetries : Int
  taskTimeoutSeconds : ℚ
  requireApprovalForMutations : Bool

namespace AgentPolicy

def default : AgentPolicy where
  allowedTools := none
  forbiddenTools := []
  maxCostUsd := 1
  maxTokens := 100000
  maxSteps := 50
  maxRetries := 3
  taskTimeoutSeconds := 120
  requireApprovalForMutations := true

/-- `tool_allowed` -/
def toolAllowed (policy : AgentPolicy) (name : String) : Bool :=
  !policy.forbiddenTools.contains name && policy.allowedTools.all (·.contains name)

/-- `retries_for` -/
def retriesFor (policy : AgentPolicy) (requested : Int) : Int := min requested policy.maxRetries

end AgentPolicy

structure PolicyState where
  costUsd : ℚ
  tokens : Int
  steps : Int
deriving DecidableEq

/-- What has been used is within the ceilings. -/
def AgentPolicy.Within (policy : AgentPolicy) (state : PolicyState) : Prop :=
  state.costUsd ≤ policy.maxCostUsd ∧ state.tokens ≤ policy.maxTokens

instance (policy : AgentPolicy) (state : PolicyState) : Decidable (policy.Within state) :=
  inferInstanceAs (Decidable (_ ∧ _))

/-- The format `.4f` -/
def fixed4 (x : ℚ) : String :=
  let n := (Python.roundHalfEven (|x| * 10000)).toNat
  let decimals := toString (n % 10000)
  (if x < 0 then "-" else "") ++ toString (n / 10000) ++ "." ++
    String.ofList (List.replicate (4 - decimals.length) '0') ++ decimals

/-! ## Goals, replies and services -/

structure Goal where
  objective : String
  constraints : List String
  expectedOutput : Option String
  /-- The descriptions of `success_criteria`. -/
  successCriteria : List String

structure LLMRequest where
  prompt : String
  system : Option String
  maxTokens : Int

structure LLMReply where
  text : String
  inputTokens : Int
  outputTokens : Int
  costUsd : ℚ

structure ToolOutcome where
  output : String
  success : Bool
  error : Option String

structure Services (Env : Type) where
  complete : LLMRequest → Action Env LLMReply
  configure : Action Env Unit
  publish : AgentEvent → Action Env Unit
  /-- `knowledge.search(query, limit=3)` -/
  search : String → Env → List String
  /-- `knowledge.policies()` -/
  policies : Env → List String
  /-- Whether the tool of a name mutates, if there is one. -/
  mutating : String → Env → Option Bool
  /-- Whether a tool has been approved with `grant_approval`. -/
  approved : String → Env → Bool
  runTool : String → List (String × String) → Action Env ToolOutcome
  /-- The first eight digits of a new identifier, as a number. -/
  newId : Env → Fin (16 ^ 8) × Env
  /-- `str` of a number of seconds -/
  seconds : ℚ → String
  evaluate : TaskGraph → Action Env Unit
  finalOutput : TaskGraph → Action Env String
  requests : Env → List Request × Env

/-! ## The context -/

structure Context (Env : Type) where
  policyState : PolicyState
  /-- The texts in memory, by scope and key. -/
  memory : OrderedMap (String × String) String
  /-- The value in memory of `agent` and `lessons`. -/
  lessons : List String
  /-- What had been used when each completion started. -/
  completions : List PolicyState
  /-- What had been used when each component that completes was entered. -/
  entered : List PolicyState
  env : Env

section

variable {Env World α : Type}

/-- The context of a new run. -/
def Context.start (memory : OrderedMap (String × String) String) (lessons : List String)
    (env : Env) : Context Env where
  policyState := ⟨0, 0, 0⟩
  memory
  lessons
  completions := []
  entered := []
  env

def onEnv (m : Action Env α) : Action (Context Env) α :=
  EStateM.zoom Context.env (fun env context => { context with env }) m

def onWorld (m : Action World α) : Hook World α :=
  EStateM.zoom Shared.world (fun world shared => { shared with world }) m

/-- A component that completes is entered. -/
def enterComponent : Action (Context Env) Unit :=
  modify fun context => { context with entered := context.entered ++ [context.policyState] }

/-- `memory.remember` -/
def remember (scope key value : String) : Action (Context Env) Unit :=
  modify fun context => { context with memory := context.memory.set (scope, key) value }

/-- `memory.scope_items` -/
def Context.scopeItems (context : Context Env) (scope : String) : List (String × String) :=
  (context.memory.entries.filter fun entry => entry.1.1 = scope).map fun entry =>
    (entry.1.2, entry.2)

variable (services : Services Env) (policy : AgentPolicy) (config : AgentConfig)

/-- `check_tool` -/
def checkTool (name : String) (mutating : Bool) : Action (Context Env) Unit := do
  let context ← get
  if policy.toolAllowed name = false then
    throw (.policyViolation ("Tool '" ++ name ++ "' is not permitted by policy."))
  else if mutating = true ∧ policy.requireApprovalForMutations = true ∧
      services.approved name context.env = false then
    throw (.approvalRequired ("Tool '" ++ name ++ "' mutates state and requires approval."))
  else pure ()

/-- `check_step` -/
def checkStep : Action (Context Env) Unit := do
  modify fun context =>
    { context with policyState.steps := context.policyState.steps + 1 }
  let context ← get
  if policy.maxSteps < context.policyState.steps then
    throw (.policyViolation ("Step limit exceeded (" ++ toString policy.maxSteps ++ ")."))
  else pure ()

/-- `add_usage` -/
def addUsage (costUsd : ℚ) (tokens : Int) : Action (Context Env) Unit := do
  modify fun context =>
    { context with
      policyState.costUsd := context.policyState.costUsd + costUsd
      policyState.tokens := context.policyState.tokens + tokens }
  let context ← get
  if policy.maxCostUsd < context.policyState.costUsd then
    throw (.policyViolation ("Cost limit exceeded ($" ++ fixed4 policy.maxCostUsd ++ ")."))
  else if policy.maxTokens < context.policyState.tokens then
    throw (.policyViolation ("Token limit exceeded (" ++ toString policy.maxTokens ++ ")."))
  else pure ()

/-- `AgentContext.complete` -/
def complete (prompt : String) (system : Option String) : Action (Context Env) String := do
  modify fun context =>
    { context with completions := context.completions ++ [context.policyState] }
  let reply ← onEnv (services.complete
    { prompt, system := (system.filter (· ≠ "")).or config.systemPrompt
      maxTokens := config.maxTokens })
  addUsage policy reply.costUsd (reply.inputTokens + reply.outputTokens)
  pure reply.text

end

end YoutubeFactory.AgentCore
