import YoutubeFactory.Workflow.Expressions
import YoutubeFactory.Workflow.Graph

/-!
# The workflow engine

`WorkflowEngine` of `app/core/workflow/engine.py`.  A run goes through the levels of
its graph: the nodes of a level that are reachable run concurrently, the others are
skipped, and the outputs of the level are then put into the run context.

A handler is asked by node, pass and context.  Nothing else is said about it: two
calls may answer differently for reasons of their own, so the number of the pass
tells the calls of a loop apart.  Concurrent handlers share the dictionary of the
context and may write to it: `seen` is what a call finds there, `left` what a batch
leaves behind.  They also share the lists in it: `listed` is what a loop finds in its
own.
-/

namespace YoutubeFactory.Workflow

open Python

/-! ## Outcomes -/

/-- Ceiling on loop passes. -/
def MAX_LOOP_ITERATIONS : Nat := 1000

inductive NodeRunStatus where
  | pending | running | succeeded | failed | skipped
deriving DecidableEq, Repr

structure NodeOutcome (V : Type) where
  key : String
  type : String
  status : NodeRunStatus
  iteration : Nat
  output : V
  error : Option String
  skipReason : Option String

/-- What leaves the engine: a `WorkflowError` with the outcomes of its details, if it
has any, or another exception. -/
inductive Raised (V : Type) where
  | workflowError (message : String) (outcomes : List (NodeOutcome V))
  | python (exc : PyErr)

/-- `str(exc)` -/
def Raised.text {V : Type} : Raised V → String
  | .workflowError message _ => message
  | .python exc => exc.text

/-- `details["outcomes"]` -/
def Raised.outcomes {V : Type} : Raised V → List (NodeOutcome V)
  | .workflowError _ outcomes => outcomes
  | .python _ => []

/-- `ExpressionError` is a `WorkflowError` without details. -/
def Raised.ofEval {V : Type} : EvalError → Raised V
  | .expressionError message => .workflowError message []
  | .raised exc => .python exc

abbrev Handler (V : Type) := GraphNode V → Nat → Context V → Except PyErr V

structure Engine (V : Type) where
  parse : String → Except String (Node V)
  handlers : String → Option (Handler V)
  /-- The context a call finds.  The pass is missing where a loop evaluates `over`. -/
  seen : GraphNode V → Option Nat → Context V → Context V
  /-- The context after a batch has run. -/
  left : List (GraphNode V) → Context V → Context V
  /-- The items a loop finds, one after the other, in a list that has had these: a handler may
  change it in the meantime. -/
  listed : GraphNode V → List V → List V := fun _ items => items

section

variable {V : Type} [PyObject V]

/-- The outcome of a completed handler call. -/
def succeeded (node : GraphNode V) (iteration : Nat) (output : V) : NodeOutcome V where
  key := node.key
  type := node.type
  status := .succeeded
  iteration
  output
  error := none
  skipReason := none

def failed (node : GraphNode V) (error : String) : NodeOutcome V where
  key := node.key
  type := node.type
  status := .failed
  iteration := 0
  output := PyObject.none
  error := some error
  skipReason := none

def skippedOutcome (node : GraphNode V) (reason : Option String) : NodeOutcome V where
  key := node.key
  type := node.type
  status := .skipped
  iteration := 0
  output := PyObject.none
  error := none
  skipReason := reason

/-! ## Nodes -/

/-- `_default_handler` -/
def defaultHandler : Handler V := fun node _ _ =>
  .ok (PyObject.ofDict [("node", PyObject.ofStr node.key), ("type", PyObject.ofStr node.type)])

namespace Engine

variable (engine : Engine V)

/-- `_handler_for` -/
def handlerFor (node : GraphNode V) : Handler V :=
  (engine.handlers node.type).getD defaultHandler

/-- One handler call. -/
def call (node : GraphNode V) (iteration : Nat) (scope : Context V) :
    Except (Raised V) V :=
  match engine.handlerFor node node iteration scope with
  | .ok output => .ok output
  | .error exc => .error (.python exc)

/-- The scope of a pass: a copy of the context with the loop variables. -/
def scope (node : GraphNode V) (index : Nat) (item : V) (context : Context V) : Context V :=
  ((engine.seen node (some index) context).insert "item" item).insert "index"
    (PyObject.ofInt index)

/-- The passes of a loop, from an index on. -/
def runPasses (node : GraphNode V) (context : Context V) :
    Nat → List V → Except (Raised V) (List (NodeOutcome V))
  | _, [] => .ok []
  | index, item :: items => do
      let output ← engine.call node index (engine.scope node index item context)
      let outcomes ← runPasses node context (index + 1) items
      return succeeded node index output :: outcomes

/-- The items of the list that a loop goes through, at first. -/
def overItems (node : GraphNode V) (context : Context V) : Except (Raised V) (List V) :=
  match (node.config.lookup "over").bind PyObject.str? with
  | none => needsOver node
  | some source =>
      if strip source = "" then needsOver node
      else
        match evaluate engine.parse source (engine.seen node none context) with
        | .error e => .error (.ofEval e)
        | .ok collection =>
            if PyObject.isNone collection then .ok []
            else
              match PyObject.items? collection with
              | none =>
                  let typeName := PyObject.typeName collection
                  let key := node.key
                  .error (.workflowError s!"Loop node '{key}' expected a list, got {typeName}." [])
              | some items =>
                  if items.length > MAX_LOOP_ITERATIONS then
                    let key := node.key
                    .error (.workflowError
                      s!"Loop node '{key}' exceeds {MAX_LOOP_ITERATIONS} iterations." [])
                  else .ok items
where
  needsOver (node : GraphNode V) : Except (Raised V) (List V) :=
    let key := node.key
    .error (.workflowError s!"Loop node '{key}' needs a config.over expression." [])

/-- The items of the passes of a loop.  One over an empty list ends at once. -/
def loopItems (node : GraphNode V) (context : Context V) : Except (Raised V) (List V) :=
  (engine.overItems node context).map fun items =>
    if items.isEmpty then [] else engine.listed node items

/-- `outcomes[-1].output = collected` -/
def setLastOutput (collected : V) : List (NodeOutcome V) → List (NodeOutcome V)
  | [] => []
  | [o] => [{ o with output := collected }]
  | o :: os => o :: setLastOutput collected os

/-- `_run_loop` -/
def runLoop (node : GraphNode V) (context : Context V) :
    Except (Raised V) (List (NodeOutcome V)) := do
  let items ← engine.loopItems node context
  let outcomes ← engine.runPasses node context 0 items
  if outcomes.isEmpty then
    return [succeeded node 0 (PyObject.ofList [])]
  else
    return setLastOutput (PyObject.ofList (outcomes.map (·.output))) outcomes

/-- `_run_node` -/
def runNode (node : GraphNode V) (context : Context V) :
    Except (Raised V) (List (NodeOutcome V)) :=
  if node.type = "loop" then engine.runLoop node context
  else do
    let output ← engine.call node 0 (engine.seen node (some 0) context)
    return [succeeded node 0 output]

/-! ## Reachability -/

/-- The loop of `_is_reachable` over the incoming edges. -/
def checkEdges (node : GraphNode V) (context : Context V) (skipped : List String) :
    List GraphEdge → List String → Except EvalError (Bool × Option String)
  | [], unmet => .ok (false, some ("; ".intercalate unmet))
  | edge :: edges, unmet =>
      let source := edge.source
      let key := node.key
      if edge.source ∈ skipped then
        checkEdges node context skipped edges (unmet ++ [s!"{source} was skipped"])
      else do
        if ← evaluateCondition engine.parse edge.condition context then return (true, none)
        checkEdges node context skipped edges (unmet ++ [s!"{source} -> {key} condition was false"])

/-- `_is_reachable` -/
def isReachable (graph : WorkflowGraph V) (node : GraphNode V) (context : Context V)
    (skipped : List String) : Except EvalError (Bool × Option String) :=
  if graph.incoming node.key = [] then .ok (true, none)
  else engine.checkEdges node context skipped (graph.incoming node.key) []

end Engine

/-! ## Runs -/

/-- The variables of a run. -/
structure RunState (V : Type) where
  context : Context V
  outcomes : List (NodeOutcome V)
  skipped : List String

def RunState.skip (s : RunState V) (node : GraphNode V) (reason : Option String) : RunState V :=
  { s with
    skipped := node.key :: s.skipped
    outcomes := s.outcomes ++ [skippedOutcome node reason] }

/-- `outcomes.extend(result)` and `run_context[node.key] = result[-1].output`. -/
def RunState.record (s : RunState V) (node : GraphNode V) (result : List (NodeOutcome V)) :
    RunState V :=
  { s with
    outcomes := s.outcomes ++ result
    context := s.context.insert node.key ((result.getLast?.map (·.output)).getD PyObject.none) }

/-- `[asdict(o) for o in outcomes]` copies the outputs, which may raise. -/
def asdictAll : List (NodeOutcome V) → Except PyErr (List (NodeOutcome V))
  | [] => .ok []
  | o :: os =>
      match PyObject.deepcopyError? o.output with
      | some exc => .error exc
      | none => (asdictAll os).map (o :: ·)

/-- The exception of a failed node. -/
def nodeFailed (s : RunState V) (node : GraphNode V) (result : Raised V) : Raised V :=
  match asdictAll (s.outcomes ++ [failed node result.text]) with
  | .error exc => .python exc
  | .ok outcomes =>
      let key := node.key
      let text := result.text
      .workflowError s!"Node '{key}' failed: {text}" outcomes

namespace Engine

variable (engine : Engine V) (graph : WorkflowGraph V)

/-- The first loop over a level: the nodes that run, and the state with the others
skipped. -/
def sift : List (GraphNode V) → RunState V →
    Except (Raised V) (List (GraphNode V) × RunState V)
  | [], s => .ok ([], s)
  | node :: nodes, s =>
      match engine.isReachable graph node s.context s.skipped with
      | .error e => .error (.ofEval e)
      | .ok (true, _) => (sift nodes s).map fun (runnable, s') => (node :: runnable, s')
      | .ok (false, reason) => sift nodes (s.skip node reason)

/-- The second loop, over the results that `gather` has collected. -/
def settle : List (GraphNode V × Except (Raised V) (List (NodeOutcome V))) → RunState V →
    Except (Raised V) (RunState V)
  | [], s => .ok s
  | (node, .error result) :: _, s => .error (nodeFailed s node result)
  | (node, .ok result) :: rest, s => settle rest (s.record node result)

/-- One level. -/
def runLevel (level : List (GraphNode V)) (s : RunState V) : Except (Raised V) (RunState V) := do
  let (runnable, s') ← engine.sift graph level s
  if runnable.isEmpty then return s'
  -- Every node of the batch runs to its end before the results are looked at.
  settle (runnable.map fun node => (node, engine.runNode node s'.context))
    { s' with context := engine.left runnable s'.context }

/-- `_run_levels` -/
def runLevels : List (List (GraphNode V)) → RunState V → Except (Raised V) (RunState V)
  | [], s => .ok s
  | level :: levels, s => do
      let s' ← engine.runLevel graph level s
      runLevels levels s'

/-- `run` -/
def run (context : Context V) : Except (Raised V) (Context V × List (NodeOutcome V)) :=
  match graph.levels with
  | .error e => .error (.workflowError e.message [])
  | .ok levels => do
      let s ← engine.runLevels graph levels { context, outcomes := [], skipped := [] }
      return (s.context, s.outcomes)

end Engine

end

end YoutubeFactory.Workflow
