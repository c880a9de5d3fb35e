import YoutubeFactory.AgentCore.Context

/-!
# The planner

`Planner` of `app/agents/planner/planner.py`.  A plan is one task to understand the goal, then the
tasks of the work, then one task to synthesize; a task that recovers from a failure gets a key of
its own, eight hexadecimal digits.
-/

namespace YoutubeFactory.AgentCore

section

variable {Env : Type} (services : Services Env) (policy : AgentPolicy) (config : AgentConfig)
  (goal : Goal)

/-! ## The outline -/

/-- The steps of an outline, at most six. -/
def outlineSteps (text : String) : List String :=
  let lines := (Python.splitLines text).filter fun line => Python.strip line ≠ ""
  let steps := lines.map fun line => Python.strip (Python.stripChars "-*0123456789. " line)
  (steps.filter (· ≠ "")).take 6

def outlinePrompt : String :=
  "Break this goal into 3-6 short imperative steps, one per line:\n" ++ goal.objective

/-- `_outline` -/
def outline : Action (Context Env) (List String) := do
  enterComponent
  let prompt := outlinePrompt goal
  match ← EStateM.handled AgentError.isException
      (complete services policy config prompt (some "You are a planning assistant.")) with
  | .ok text => pure (outlineSteps text)
  | .error _ => pure []

/-! ## The graph -/

def understandKey : String := "understand"

def workKey (index : Nat) : String := "work_" ++ toString index

def synthesizeKey : String := "synthesize"

/-- What a work task is made of: a success criterion, else a step of the outline, else the
objective. -/
def sources (steps : List String) : List String :=
  if goal.successCriteria ≠ [] then goal.successCriteria
  else if steps ≠ [] then steps
  else ["Work towards: " ++ goal.objective]

/-- The work tasks. -/
def workTasks (steps : List String) : List AgentTask :=
  ((sources goal steps).take (max 1 (config.maxTasks - 2)).toNat).mapIdx fun index description =>
    .planned description .reason (workKey index) [understandKey] []

def understandTask : AgentTask :=
  .planned ("Understand the goal: " ++ goal.objective) .reason understandKey [] []

def synthesizeTask (workKeys : List String) : AgentTask :=
  .planned ("Synthesize the final result for: " ++ goal.objective) .llm synthesizeKey
    (if workKeys = [] then [understandKey] else workKeys)
    [("expected_output", goal.expectedOutput.getD "")]

/-- `_decompose` -/
def decompose (steps : List String) : TaskGraph :=
  let works := workTasks config goal steps
  ((TaskGraph.empty.add (understandTask goal)).addAll works).add
    (synthesizeTask goal (works.map AgentTask.key))

/-- `plan`, with the way in which an outline is decomposed. -/
def planGoal (decompose : List String → TaskGraph) : Action (Context Env) TaskGraph := do
  let steps ← outline services policy config goal
  let graph := decompose steps
  remember "agent" "plan_rationale"
    ("Decomposed '" ++ goal.objective ++ "' into " ++ toString graph.tasks.length ++ " tasks (" ++
      toString steps.length ++ " outline steps).")
  pure graph

/-! ## Recovery -/

def hexDigit (n : Nat) : Char := "0123456789abcdef".toList.getD n '0'

/-- A number in eight hexadecimal digits. -/
def hexKey (n : Fin (16 ^ 8)) : String :=
  String.ofList ((List.range 8).map fun i => hexDigit (n.val / 16 ^ (7 - i) % 16))

/-- The task that recovers from a failed one. -/
def recovery (graph : TaskGraph) (task : AgentTask) (key : String) : AgentTask :=
  .planned ("Recover from failed task: " ++ task.description) .reason key
    (task.dependsOn.filter fun d => (graph.get d).isSome)
    [("recovers", task.key), ("reason", (task.error.filter (· ≠ "")).getD "unknown")]

/-- A new key, for a task that has none. -/
def newKey : Action (Context Env) String := fun context =>
  let (n, env) := services.newId context.env
  .ok (hexKey n) { context with env }

/-- The recovery tasks of the failed tasks, added one after the other. -/
def recoverFrom : List AgentTask → TaskGraph → Action (Context Env) TaskGraph
  | [], graph => pure graph
  | task :: failed, graph => do
      let key ← newKey services
      recoverFrom failed (graph.add (recovery graph task key))

/-- `replan` -/
def replan : Hook (Context Env) Unit := do
  let shared ← get
  let failed := shared.graph.tasks.filter fun task => task.status = .failed
  let graph ← onWorld (recoverFrom services failed shared.graph)
  modify fun shared => { shared with graph }

/-! ## Keys -/

variable {services config goal}

theorem head_workKey (index : Nat) : (workKey index).toList.head? = some 'w' := by
  rw [workKey, String.toList_append]
  rfl

theorem workKey_ne_understandKey (index : Nat) : workKey index ≠ understandKey := fun h => by
  have hhead := head_workKey index
  rw [h] at hhead
  exact absurd hhead (by decide)

theorem workKey_ne_synthesizeKey (index : Nat) : workKey index ≠ synthesizeKey := fun h => by
  have hhead := head_workKey index
  rw [h] at hhead
  exact absurd hhead (by decide)

/-- A key of hexadecimal digits does not begin as the keys of a plan do. -/
theorem head_hexKey (n : Fin (16 ^ 8)) :
    (hexKey n).toList.head? ≠ some 'w' ∧ (hexKey n).toList.head? ≠ some 'u' ∧
      (hexKey n).toList.head? ≠ some 's' := by
  have hdigit : ∀ k < 16, hexDigit k ≠ 'w' ∧ hexDigit k ≠ 'u' ∧ hexDigit k ≠ 's' := by decide
  have hhead : (hexKey n).toList.head? = some (hexDigit (n.val / 16 ^ 7 % 16)) := by
    rw [hexKey, String.toList_ofList]
    rfl
  obtain ⟨hw, hu, hs⟩ := hdigit (n.val / 16 ^ 7 % 16) (Nat.mod_lt _ (by decide))
  rw [hhead]
  exact ⟨fun h => hw (Option.some.inj h), fun h => hu (Option.some.inj h),
    fun h => hs (Option.some.inj h)⟩

/-- The keys of the work tasks. -/
def workKeys (config : AgentConfig) (goal : Goal) (steps : List String) : List String :=
  (workTasks config goal steps).map AgentTask.key

theorem mem_workTasks {steps : List String} {task : AgentTask}
    (h : task ∈ workTasks config goal steps) :
    ∃ index description,
      task = .planned description .reason (workKey index) [understandKey] [] := by
  obtain ⟨index, hindex, rfl⟩ := List.mem_mapIdx.mp h
  exact ⟨index, _, rfl⟩

theorem mem_workKeys {steps : List String} {key : String}
    (h : key ∈ workKeys config goal steps) : ∃ index, key = workKey index := by
  obtain ⟨task, htask, rfl⟩ := List.mem_map.mp h
  obtain ⟨index, description, rfl⟩ := mem_workTasks htask
  exact ⟨index, rfl⟩

theorem workKeys_ne_nil (steps : List String) : workKeys config goal steps ≠ [] := by
  have hsources : sources goal steps ≠ [] := by
    unfold sources
    split
    · next h => exact h
    · split
      · next h => exact h
      · exact nofun
  have hlimit : 0 < (max 1 (config.maxTasks - 2)).toNat := by omega
  obtain ⟨first, rest, hcons⟩ := List.exists_cons_of_ne_nil hsources
  obtain ⟨limit, hlimit⟩ := Nat.exists_eq_succ_of_ne_zero (Nat.pos_iff_ne_zero.mp hlimit)
  rw [workKeys, workTasks, hcons, hlimit, List.take_succ_cons, List.mapIdx_cons]
  exact nofun

/-! ## The planned tasks -/

theorem understandKey_notMem_workKeys (steps : List String) :
    understandKey ∉ workKeys config goal steps := fun h => by
  obtain ⟨index, hkey⟩ := mem_workKeys h
  exact workKey_ne_understandKey index hkey.symm

theorem synthesizeKey_notMem_workKeys (steps : List String) :
    synthesizeKey ∉ workKeys config goal steps := fun h => by
  obtain ⟨index, hkey⟩ := mem_workKeys h
  exact workKey_ne_synthesizeKey index hkey.symm

theorem get_decompose_synthesize (steps : List String) :
    ∃ task, (decompose config goal steps).get synthesizeKey = some task ∧
      task.dependsOn = workKeys config goal steps ∧ task.status = .pending :=
  ⟨synthesizeTask goal (workKeys config goal steps), TaskGraph.get_add_self ..,
    if_neg (workKeys_ne_nil steps), rfl⟩

theorem get_decompose_of_ne {steps : List String} {key : String} (h : key ≠ synthesizeKey) :
    (decompose config goal steps).get key =
      ((TaskGraph.empty.add (understandTask goal)).addAll (workTasks config goal steps)).get key :=
  TaskGraph.get_add_of_ne h

theorem get_decompose_understand (steps : List String) :
    ∃ task, (decompose config goal steps).get understandKey = some task ∧
      task.dependsOn = [] ∧ task.status = .pending := by
  refine ⟨understandTask goal, ?_, rfl, rfl⟩
  rw [get_decompose_of_ne (by decide), TaskGraph.get_addAll_of_notMem]
  · exact TaskGraph.get_add_self _ (understandTask goal)
  · intro task htask hkey
    exact understandKey_notMem_workKeys steps (List.mem_map.mpr ⟨task, htask, hkey⟩)

theorem get_decompose_work {steps : List String} {key : String}
    (h : key ∈ workKeys config goal steps) :
    ∃ task, (decompose config goal steps).get key = some task ∧
      task.dependsOn = [understandKey] ∧ task.status = .pending := by
  obtain ⟨task, htask, hkey, hget⟩ := TaskGraph.get_addAll_of_mem h
  obtain ⟨index, description, rfl⟩ := mem_workTasks htask
  have hne : key ≠ synthesizeKey := hkey ▸ workKey_ne_synthesizeKey index
  exact ⟨_, (get_decompose_of_ne hne).trans hget, rfl, rfl⟩

theorem get_decompose_other {steps : List String} {key : String} (hunderstand : key ≠ understandKey)
    (hwork : key ∉ workKeys config goal steps) (hsynthesize : key ≠ synthesizeKey) :
    (decompose config goal steps).get key = none := by
  rw [get_decompose_of_ne hsynthesize, TaskGraph.get_addAll_of_notMem]
  · exact TaskGraph.get_add_of_ne hunderstand
  · exact fun task htask hkey => hwork (List.mem_map.mpr ⟨task, htask, hkey⟩)

/-! ## What replanning leaves -/

/-- Recovery tasks are added under keys of hexadecimal digits. -/
theorem get_recoverFrom {key : String} (hkey : ∀ n, key ≠ hexKey n) :
    ∀ (failed : List AgentTask) {graph graph' : TaskGraph} {context context' : Context Env},
      (recoverFrom services failed graph).run context = .ok graph' context' →
        graph'.get key = graph.get key
  | [], _, _, _, _, h => by
      cases h
      rfl
  | task :: failed, graph, graph', context, context', h => by
      obtain ⟨newKey', context'', hnew, hrest⟩ := EStateM.run_bind_eq_ok h
      cases hnew
      rw [get_recoverFrom hkey failed hrest, TaskGraph.get_add_of_ne]
      exact hkey _

theorem get_replan {key : String} (hkey : ∀ n, key ≠ hexKey n)
    {shared shared' : Shared (Context Env)} (h : (replan services).run shared = .ok () shared') :
    shared'.graph.get key = shared.graph.get key := by
  obtain ⟨graph, shared'', hgraph, hmodify⟩ := EStateM.run_bind_eq_ok (EStateM.get_bind_eq_ok h)
  cases hmodify
  change onWorld (recoverFrom services _ shared.graph) shared = _ at hgraph
  unfold onWorld EStateM.zoom at hgraph
  split at hgraph
  · next recovered context hrun =>
      cases hgraph
      exact get_recoverFrom hkey _ hrun
  · cases hgraph

end

end YoutubeFactory.AgentCore
