import YoutubeFactory.Lib.OrderedMap
import Mathlib.Data.List.Sort
import Mathlib.Data.Rat.Defs

/-!
# Tasks of an agent

`AgentTask` and `TaskGraph` of `app/agents/base/tasks.py`.  A graph is a dictionary, so its tasks
stay in the order in which they were added.
-/

namespace YoutubeFactory.AgentCore

inductive TaskStatus where
  | pending | ready | running | succeeded | failed | skipped | cancelled
deriving DecidableEq, Repr

inductive TaskKind where
  | reason | llm | tool | workflow | delegate | custom
deriving DecidableEq, Repr

structure AgentTask where
  description : String
  kind : TaskKind
  key : String
  priority : Int
  dependsOn : List String
  payload : List (String × String)
  timeoutSeconds : Option ℚ
  maxRetries : Int
  status : TaskStatus
  attempts : Nat
  result : Option String
  error : Option String
deriving DecidableEq, Repr

/-- A task as it is planned, with the defaults of the dataclass. -/
def AgentTask.planned (description : String) (kind : TaskKind) (key : String)
    (dependsOn : List String) (payload : List (String × String)) : AgentTask where
  description
  kind
  key
  priority := 5
  dependsOn
  payload
  timeoutSeconds := none
  maxRetries := 2
  status := .pending
  attempts := 0
  result := none
  error := none

/-- The tasks by their keys. -/
structure TaskGraph where
  byKey : OrderedMap String AgentTask
  keyed : ∀ key task, byKey.get? key = some task → task.key = key

namespace TaskGraph

def empty : TaskGraph where
  byKey := OrderedMap.empty
  keyed := fun key task h => by
    rw [OrderedMap.get?_empty] at h
    cases h

def add (graph : TaskGraph) (task : AgentTask) : TaskGraph where
  byKey := graph.byKey.set task.key task
  keyed := fun key task' h => by
    rw [OrderedMap.get?_set] at h
    split at h
    · next hkey =>
        cases h
        exact hkey.symm
    · exact graph.keyed key task' h

def addAll (graph : TaskGraph) (tasks : List AgentTask) : TaskGraph := tasks.foldl add graph

variable (graph : TaskGraph)

def tasks : List AgentTask := graph.byKey.entries.map Prod.snd

def get (key : String) : Option AgentTask := graph.byKey.get? key

/-- All tasks that the task depends on are there and have succeeded. -/
def depsSucceeded (task : AgentTask) : Bool :=
  task.dependsOn.all fun key => (graph.get key).any fun d => d.status = .succeeded

/-- `ready`: the highest priority first, and else in the order of the graph. -/
def ready : List AgentTask :=
  (graph.tasks.filter fun task => task.status = .pending ∧ graph.depsSucceeded task).insertionSort
    fun t t' => t'.priority ≤ t.priority

/-- `is_complete` -/
def isComplete : Bool :=
  graph.tasks.all fun task =>
    task.status ≠ .pending ∧ task.status ≠ .ready ∧ task.status ≠ .running

/-- `has_failure` -/
def hasFailure : Bool := graph.tasks.any fun task => task.status = .failed

/-- Some task has succeeded. -/
def anySucceeded : Bool := graph.tasks.any fun task => task.status = .succeeded

variable {graph} {task : AgentTask} {key : String}

theorem get_add (task : AgentTask) (key : String) :
    (graph.add task).get key = if key = task.key then some task else graph.get key :=
  OrderedMap.get?_set ..

theorem get_add_self (graph : TaskGraph) (task : AgentTask) :
    (graph.add task).get task.key = some task := by
  rw [get_add, if_pos rfl]

theorem get_add_of_ne (h : key ≠ task.key) : (graph.add task).get key = graph.get key := by
  rw [get_add, if_neg h]

theorem get_addAll_of_notMem : ∀ {tasks : List AgentTask} {graph : TaskGraph},
    (∀ task ∈ tasks, task.key ≠ key) → (graph.addAll tasks).get key = graph.get key
  | [], _, _ => rfl
  | task :: tasks, graph, h => by
      show ((graph.add task).addAll tasks).get key = _
      rw [get_addAll_of_notMem fun t ht => h t (List.mem_cons_of_mem _ ht), get_add_of_ne]
      exact (h task (List.mem_cons_self ..)).symm

/-- A key that tasks are added with leads to one of them. -/
theorem get_addAll_of_mem : ∀ {tasks : List AgentTask} {graph : TaskGraph},
    key ∈ tasks.map AgentTask.key → ∃ task ∈ tasks, task.key = key ∧
      (graph.addAll tasks).get key = some task
  | task :: tasks, graph, h => by
      show ∃ t ∈ task :: tasks, t.key = key ∧ ((graph.add task).addAll tasks).get key = some t
      by_cases hlater : key ∈ tasks.map AgentTask.key
      · obtain ⟨t, ht, hkey, hget⟩ := @get_addAll_of_mem tasks (graph.add task) hlater
        exact ⟨t, List.mem_cons_of_mem _ ht, hkey, hget⟩
      · have hkey : task.key = key := by
          rw [List.map_cons, List.mem_cons] at h
          exact (h.resolve_right hlater).symm
        refine ⟨task, List.mem_cons_self .., hkey, ?_⟩
        rw [get_addAll_of_notMem fun t ht heq => hlater (List.mem_map.mpr ⟨t, ht, heq⟩), ← hkey,
          get_add_self]

theorem mem_tasks : task ∈ graph.tasks ↔ graph.get task.key = some task := by
  constructor
  · intro h
    obtain ⟨entry, hentry, rfl⟩ := List.mem_map.mp h
    have hget := OrderedMap.get?_of_mem hentry
    have hkey := graph.keyed entry.1 entry.2 hget
    unfold get
    rw [hkey]
    exact hget
  · exact fun h => List.mem_map.mpr ⟨_, OrderedMap.mem_of_get? h, rfl⟩

theorem key_of_get (h : graph.get key = some task) : task.key = key := graph.keyed key task h

theorem mem_tasks_of_get (h : graph.get key = some task) : task ∈ graph.tasks :=
  mem_tasks.mpr ((key_of_get h).symm ▸ h)

theorem mem_ready : task ∈ graph.ready ↔
    task ∈ graph.tasks ∧ task.status = .pending ∧ graph.depsSucceeded task = true := by
  rw [ready, List.mem_insertionSort, List.mem_filter, decide_eq_true_eq]

theorem depsSucceeded_iff : graph.depsSucceeded task = true ↔
    ∀ key ∈ task.dependsOn, ∃ d, graph.get key = some d ∧ d.status = .succeeded := by
  simp only [depsSucceeded, List.all_eq_true, Option.any_eq_true, decide_eq_true_eq]

theorem hasFailure_iff :
    graph.hasFailure = true ↔ ∃ key task, graph.get key = some task ∧ task.status = .failed := by
  simp only [hasFailure, List.any_eq_true, decide_eq_true_eq]
  constructor
  · rintro ⟨task, htask, hfailed⟩
    exact ⟨task.key, task, mem_tasks.mp htask, hfailed⟩
  · rintro ⟨key, task, hget, hfailed⟩
    exact ⟨task, mem_tasks_of_get hget, hfailed⟩

end TaskGraph

end YoutubeFactory.AgentCore
