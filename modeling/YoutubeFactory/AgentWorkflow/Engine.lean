import YoutubeFactory.Lib.Run
import YoutubeFactory.Python.Object
import Mathlib.Data.Rat.Defs

/-!
# The step engine of an agent

`AgentWorkflow` of `app/agents/workflows/workflow.py`.  A step is known by its position.

`run` walks over the steps and hands them, alone or as the members of a parallel group, to
`_run_step`.  The members take turns: a turn of a member goes from one place where it waits to the
next, and what its action does there is up to the action.  `gather` lets the other members go on
when one raises.

The value of a context is `none` for Python's `None`.
-/

namespace YoutubeFactory.AgentWorkflow

open Python

/-! ## Steps -/

inductive StepStatus where
  | pending | running | succeeded | failed | skipped | waitingApproval
deriving DecidableEq, Repr

section

variable {Value : Type}

abbrev StepContext (Value : Type) := Context (Option Value)

/-- A test of the context.  It may raise. -/
abbrev StepCondition (Value : Type) := StepContext Value → Except String Bool

structure WorkflowStep (Value : Type) where
  name : String
  condition : Option (StepCondition Value)
  parallelGroup : Option String
  retries : Int
  delaySeconds : Rat
  requiresApproval : Bool
  loopUntil : Option (StepCondition Value)
  maxLoops : Int

/-- What leaves `_run_step` as an exception. -/
inductive StepError where
  /-- `ApprovalPendingError` -/
  | approvalPending (step : String)
  /-- The condition of the step raises. -/
  | condition (message : String)
  /-- The action raises an exception that is none of `Exception`. -/
  | exit
deriving DecidableEq, Repr

/-- Where `_run_step` stands: before it is called, at its first line, in the sleep, in the action
(in an attempt and a pass of the loop), or at its end. -/
inductive Stage where
  | idle | created | delayed
  | acting (attempt loop : Nat)
  | ended
  | raised (error : StepError)
deriving DecidableEq, Repr

/-- What a run writes to a step, where its coroutine stands, and how often its action was
called. -/
structure Member (Value : Type) where
  status : StepStatus
  result : Option Value
  error : Option String
  stage : Stage
  invocations : Nat

/-- What an action does when it has its turn, with the context as it leaves it. -/
inductive Reaction (Value : Type) where
  | waits (ctx : StepContext Value)
  | returns (ctx : StepContext Value) (value : Option Value)
  | raises (ctx : StepContext Value) (message : String)
  | exits (ctx : StepContext Value)

/-! ## One step -/

namespace WorkflowStep

variable (step : WorkflowStep Value)

/-- `_run_step` returns with a result. -/
def succeed (value : Option Value) (ctx : StepContext Value) (m : Member Value) :
    Member Value × StepContext Value :=
  ({ m with result := value, status := .succeeded, stage := .ended },
    ctx.insert step.name value)

/-- The action is called. -/
def call (attempt loop : Nat) (m : Member Value) : Member Value :=
  { m with stage := .acting attempt loop, invocations := m.invocations + 1 }

/-- `_invoke`, up to the call of the action. -/
def invoke (attempt : Nat) (ctx : StepContext Value) (m : Member Value) :
    Member Value × StepContext Value :=
  if step.loopUntil.isSome ∧ step.maxLoops ≤ 0 then step.succeed none ctx m
  else (call attempt 1 m, ctx)

/-- The exception of an attempt is caught. -/
def failAttempt (attempt : Nat) (message : String) (ctx : StepContext Value)
    (m : Member Value) : Member Value × StepContext Value :=
  if (attempt : Int) = step.retries then
    ({ m with error := some message, status := .failed, stage := .ended }, ctx)
  else step.invoke (attempt + 1) ctx { m with error := some message }

/-- The head of the attempts. -/
def attempts (ctx : StepContext Value) (m : Member Value) : Member Value × StepContext Value :=
  if step.retries + 1 ≤ 0 then ({ m with status := .running, stage := .ended }, ctx)
  else step.invoke 0 ctx { m with status := .running }

/-- Approval and delay, once the condition holds. -/
def gate (approvals : List String) (ctx : StepContext Value) (m : Member Value) :
    Member Value × StepContext Value :=
  if step.requiresApproval ∧ step.name ∉ approvals then
    ({ m with
      status := .waitingApproval
      error := some "approval required"
      stage := .raised (.approvalPending step.name) }, ctx)
  else if step.delaySeconds > 0 then ({ m with stage := .delayed }, ctx)
  else step.attempts ctx m

/-- The head of `_run_step`. -/
def enter (approvals : List String) (ctx : StepContext Value) (m : Member Value) :
    Member Value × StepContext Value :=
  match step.condition.elim (.ok true) (· ctx) with
  | .error message => ({ m with stage := .raised (.condition message) }, ctx)
  | .ok false => ({ m with status := .skipped, stage := .ended }, ctx)
  | .ok true => step.gate approvals ctx m

/-- The action has returned: in a loop, the test comes next. -/
def returned (attempt loop : Nat) (value : Option Value) (ctx : StepContext Value)
    (m : Member Value) : Member Value × StepContext Value :=
  match step.loopUntil with
  | none => step.succeed value ctx m
  | some loopUntil =>
      let ctx := ctx.insert step.name value
      match loopUntil ctx with
      | .error message => step.failAttempt attempt message ctx m
      | .ok stop =>
          if stop = true ∨ step.maxLoops ≤ loop then step.succeed value ctx m
          else (call attempt (loop + 1) m, ctx)

def react (attempt loop : Nat) (m : Member Value) :
    Reaction Value → Member Value × StepContext Value
  | .waits ctx => (m, ctx)
  | .returns ctx value => step.returned attempt loop value ctx m
  | .raises ctx message => step.failAttempt attempt message ctx m
  | .exits ctx => ({ m with stage := .raised .exit }, ctx)

/-- A turn of `_run_step`. -/
def turn (approvals : List String) (reaction : Reaction Value) (ctx : StepContext Value)
    (m : Member Value) : Member Value × StepContext Value :=
  match m.stage with
  | .created => step.enter approvals ctx m
  | .delayed => step.attempts ctx m
  | .acting attempt loop => step.react attempt loop m reaction
  | .idle | .ended | .raised _ => (m, ctx)

end WorkflowStep

/-! ## The run -/

/-- The group of a step, if it has one: an empty name is none. -/
def label (steps : List (WorkflowStep Value)) (i : Nat) : Option String :=
  ((steps[i]?).bind (·.parallelGroup)).filter (· ≠ "")

/-- The steps that are handed to `_run_step` together. -/
def batchAt (steps : List (WorkflowStep Value)) (index : Nat) : List Nat :=
  match label steps index with
  | none => [index]
  | some group =>
      (List.range' index (steps.length - index)).filter fun i => label steps i = some group

inductive Outcome where
  | returned (completed : Bool)
  | raised (error : StepError)
deriving DecidableEq, Repr

structure WorkflowRun (Value : Type) where
  index : Nat
  batch : List Nat
  members : Nat → Member Value
  ctx : StepContext Value
  outcome : Option Outcome

/-- `completed` -/
def completed (steps : List (WorkflowStep Value)) (members : Nat → Member Value) : Bool :=
  (List.range steps.length).all fun i =>
    (members i).status = .succeeded ∨ (members i).status = .skipped

namespace WorkflowRun

variable (steps : List (WorkflowStep Value)) (run : WorkflowRun Value)

/-- The loop is left. -/
def leave (index : Nat) : WorkflowRun Value :=
  { run with index, batch := [], outcome := some (.returned (completed steps run.members)) }

/-- The head of the loop. -/
def begin (index : Nat) : WorkflowRun Value :=
  if index < steps.length then
    { run with
      index
      batch := batchAt steps index
      members := fun i =>
        if i ∈ batchAt steps index then { run.members i with stage := .created }
        else run.members i }
  else run.leave steps index

/-- The foot of the loop, when all members have returned. -/
def resume : WorkflowRun Value :=
  if run.outcome = none ∧ ∀ i ∈ run.batch, (run.members i).stage = .ended then
    let index := run.index + run.batch.length
    if (run.members (index - 1)).status = .failed then run.leave steps index
    else run.begin steps index
  else run

/-- The first exception of a member is the one that `run` raises. -/
def raisedBy (outcome : Option Outcome) : Stage → Option Outcome
  | .raised error => outcome.or (some (.raised error))
  | _ => outcome

/-- A turn of the member at a position. -/
def memberTurn (approvals : List String) (i : Nat) (reaction : Reaction Value) :
    WorkflowRun Value :=
  match steps[i]? with
  | none => run
  | some step =>
      let (m, ctx) := step.turn approvals reaction run.ctx (run.members i)
      { run with
        members := Function.update run.members i m
        ctx
        outcome := raisedBy run.outcome m.stage }

end WorkflowRun

/-- A turn: of a member, or of `run` itself. -/
inductive Turn (Value : Type) where
  | member (i : Nat) (reaction : Reaction Value)
  | resume

def Turn.step (steps : List (WorkflowStep Value)) (approvals : List String)
    (run : WorkflowRun Value) : Turn Value → WorkflowRun Value
  | .member i reaction => run.memberTurn steps approvals i reaction
  | .resume => run.resume steps

/-- `run`, up to the first turn.  What an earlier run wrote to the steps is still there. -/
def started (steps : List (WorkflowStep Value)) (context : StepContext Value)
    (left : Nat → StepStatus × Option Value × Option String) : WorkflowRun Value :=
  WorkflowRun.begin steps
    { index := 0
      batch := []
      members := fun i => ⟨(left i).1, (left i).2.1, (left i).2.2, .idle, 0⟩
      ctx := context
      outcome := none } 0

end

end YoutubeFactory.AgentWorkflow
