import YoutubeFactory.Access.Membership
import YoutubeFactory.Content.Tables
import Mathlib.Data.Rat.Defs

/-!
# Agent tables

The tables of `app/models/agent.py` that hold what agents work on, the active runs of
`app/agents/manager/manager.py`, and the queries of `app/repositories/agent.py`.

A goal, a workflow run and a knowledge document have an organization.  What a run has
produced belongs to the organizations of the run: of the goals that name it, and of the
active run of that id.
-/

namespace YoutubeFactory.Agents

open Access Content Python

/-! ## Rows -/

structure AgentGoal where
  organizationId : Option Id
  runId : Option Id
  objective : String
  priority : Nat
  constraints : List String
  expectedOutput : Option String
  successCriteria : List String
  status : String
  result : Option String
  createdBy : Option Id
  createdAt : DateTime
  deletedAt : Option DateTime

structure AgentTaskRecord where
  goalId : Option Id
  runId : Option Id
  key : String
  description : String
  kind : String
  status : String
  orderIndex : Nat
  attempts : Nat
  dependsOn : List String
  error : Option String
  result : Option String

structure AgentTaskExecution where
  taskId : Id
  attempt : Nat
  status : String
  output : String
  error : Option String

structure AgentToolExecution where
  runId : Option Id
  taskId : Option Id
  toolName : String
  output : String
  success : Bool
  error : Option String
  createdAt : DateTime

structure AgentReflection where
  runId : Id
  summary : String
  mistakes : List String
  lessons : List String
  improvements : List String
  deletedAt : Option DateTime

structure AgentEvaluation where
  runId : Id
  correctness : ℚ
  completeness : ℚ
  cost : ℚ
  latency : ℚ
  quality : ℚ
  confidence : ℚ
  overall : ℚ
  notes : List String
  deletedAt : Option DateTime

structure WorkflowRun where
  organizationId : Option Id
  runId : Id
  name : String
  status : String
  completed : Bool
  steps : List Json

structure KnowledgeDocument where
  organizationId : Option Id
  title : String
  content : String
  kind : String
  tags : List String
  source : Option String
  createdBy : Option Id
  createdAt : DateTime
  deletedAt : Option DateTime

/-- `ManagedAgent`, with the requests its agent has been sent. -/
structure ManagedAgent where
  runId : Id
  slug : String
  organizationId : Option Id
  objective : String
  state : String
  paused : Bool
  cancelled : Bool

structure AgentDb where
  access : AccessDb
  organizations : List Organization
  goals : List AgentGoal
  tasks : List AgentTaskRecord
  taskExecutions : List AgentTaskExecution
  toolExecutions : List AgentToolExecution
  reflections : List AgentReflection
  evaluations : List AgentEvaluation
  workflowRuns : List WorkflowRun
  documents : List KnowledgeDocument
  active : List ManagedAgent

/-! ## Queries -/

/-- The rows that pass a filter, by a key, each with its id. -/
def inOrder {Row : Type} (key : Row → Int) (passes : Row → Bool) (rows : List Row) :
    List (Row × Id) :=
  (rows.zipIdx.filter fun r => passes r.1).insertionSort fun r r' => key r.1 ≤ key r'.1

section

variable {Row : Type} {key : Row → Int} {createdAt : Row → DateTime} {passes : Row → Bool}
  {rows : List Row} {listed : List (Row × Id)}

theorem mem_inOrder {row : Row} {id : Id} :
    (row, id) ∈ inOrder key passes rows ↔ rows[id]? = some row ∧ passes row = true := by
  rw [inOrder, List.mem_insertionSort, List.mem_filter, List.mem_zipIdx_iff_getElem?]

/-- Rows that pass are listed, and some of them if there are any. -/
structure Lists (passes : Row → Bool) (rows : List Row) (listed : List (Row × Id)) : Prop where
  pass : ∀ r ∈ listed, passes r.1 = true
  ne_nil : listed ≠ [] ↔ ∃ row ∈ rows, passes row = true

theorem lists_of_mem
    (h : ∀ row id, (row, id) ∈ listed ↔ rows[id]? = some row ∧ passes row = true) :
    Lists passes rows listed where
  pass := fun r hr => ((h r.1 r.2).mp hr).2
  ne_nil := by
    constructor
    · intro hne
      obtain ⟨r, hr⟩ := List.exists_mem_of_ne_nil listed hne
      have hrow := (h r.1 r.2).mp hr
      exact ⟨r.1, List.mem_of_getElem? hrow.1, hrow.2⟩
    · rintro ⟨row, hrow, hpasses⟩
      obtain ⟨id, hid⟩ := List.mem_iff_getElem?.mp hrow
      exact List.ne_nil_of_mem ((h row id).mpr ⟨hid, hpasses⟩)

theorem lists_inOrder : Lists passes rows (inOrder key passes rows) :=
  lists_of_mem fun _ _ => mem_inOrder

theorem lists_matching : Lists passes rows (matching createdAt passes rows) :=
  lists_of_mem fun _ _ => mem_matching

theorem Lists.take (h : Lists passes rows listed) (n : Nat) :
    Lists passes rows (listed.take (n + 1)) where
  pass := fun r hr => h.pass r (List.mem_of_mem_take hr)
  ne_nil := by
    rw [← h.ne_nil]
    cases listed <;> simp

end

namespace AgentDb

variable (db : AgentDb)

/-- `AgentGoalRepository.list_for_org` -/
def goalsForOrg (organizationId : Id) : List (AgentGoal × Id) :=
  (matching AgentGoal.createdAt
    (fun g => g.organizationId = some organizationId ∧ g.deletedAt = none) db.goals).take 100

/-- `AgentTaskRepository.list_for_run` -/
def tasksForRun (runId : Id) : List (AgentTaskRecord × Id) :=
  inOrder (fun t => t.orderIndex) (fun t => t.runId = some runId) db.tasks

/-- `AgentTaskExecutionRepository.list_for_task` -/
def executionsForTask (taskId : Id) : List (AgentTaskExecution × Id) :=
  inOrder (fun e => e.attempt) (fun e => e.taskId = taskId) db.taskExecutions

/-- `AgentToolExecutionRepository.list_for_run` -/
def toolExecutionsForRun (runId : Id) : List (AgentToolExecution × Id) :=
  inOrder AgentToolExecution.createdAt (fun e => e.runId = some runId) db.toolExecutions

/-- `AgentReflectionRepository.get_for_run` -/
def reflectionForRun (runId : Id) : Option AgentReflection :=
  db.reflections.find? fun r => r.runId = runId ∧ r.deletedAt = none

/-- `AgentEvaluationRepository.get_for_run` -/
def evaluationForRun (runId : Id) : Option AgentEvaluation :=
  db.evaluations.find? fun e => e.runId = runId ∧ e.deletedAt = none

/-- `KnowledgeDocumentRepository.list_for_org` -/
def documentsForOrg (organizationId : Id) : List (KnowledgeDocument × Id) :=
  matching KnowledgeDocument.createdAt
    (fun d => d.organizationId = some organizationId ∧ d.deletedAt = none) db.documents

/-- The position of a run among the active ones. -/
def activeRun (runId : Id) : Option Nat := db.active.findIdx? fun m => m.runId = runId

/-! ## Organizations -/

/-- The organizations of a run. -/
def runOrganizations (runId : Id) : List Id :=
  (db.goals.filter fun g => g.runId = some runId).filterMap (·.organizationId) ++
    (db.active.filter fun m => m.runId = runId).filterMap (·.organizationId)

end AgentDb

/-- What a request may show or change. -/
inductive AgentItem where
  | goal (row : AgentGoal)
  | run (runId : Id)
  | task (row : AgentTaskRecord)
  | taskExecution (row : AgentTaskExecution)
  | toolExecution (row : AgentToolExecution)
  | reflection (row : AgentReflection)
  | evaluation (row : AgentEvaluation)
  | workflowRun (row : WorkflowRun)
  | document (row : KnowledgeDocument)
  | managed (row : ManagedAgent)

/-- The run an item comes from. -/
def AgentItem.run? (db : AgentDb) : AgentItem → Option Id
  | .run runId => some runId
  | .task t => t.runId
  | .taskExecution e => (db.tasks[e.taskId]?).bind (·.runId)
  | .toolExecution e => e.runId
  | .reflection r => some r.runId
  | .evaluation e => some e.runId
  | _ => none

/-- The organizations an item belongs to. -/
def AgentItem.organizations (db : AgentDb) : AgentItem → List Id
  | .goal g => g.organizationId.toList
  | .workflowRun w => w.organizationId.toList
  | .document d => d.organizationId.toList
  | .managed m => m.organizationId.toList
  | item => ((item.run? db).map db.runOrganizations).getD []

/-- The tables, and the active runs. -/
inductive AgentTable where
  | goals | tasks | taskExecutions | toolExecutions | reflections | evaluations | workflowRuns
  | documents | active

def AgentDb.rows (db : AgentDb) : AgentTable → List AgentItem
  | .goals => db.goals.map .goal
  | .tasks => db.tasks.map .task
  | .taskExecutions => db.taskExecutions.map .taskExecution
  | .toolExecutions => db.toolExecutions.map .toolExecution
  | .reflections => db.reflections.map .reflection
  | .evaluations => db.evaluations.map .evaluation
  | .workflowRuns => db.workflowRuns.map .workflowRun
  | .documents => db.documents.map .document
  | .active => db.active.map .managed

/-! ## Runs that are not there yet -/

/-- The id of the next run: no goal and no active run has it. -/
def AgentDb.freshRunId (db : AgentDb) : Id :=
  ((db.goals.filterMap (·.runId) ++ db.active.map (·.runId)).foldr max 0) + 1

theorem le_foldr_max {ids : List Id} {id : Id} (h : id ∈ ids) : id ≤ ids.foldr max 0 := by
  induction ids with
  | nil => exact absurd h List.not_mem_nil
  | cons first ids ih =>
      rcases List.mem_cons.mp h with rfl | h
      · exact Nat.le_max_left _ _
      · exact (ih h).trans (Nat.le_max_right _ _)

theorem AgentDb.freshRunId_not_mem (db : AgentDb) :
    db.freshRunId ∉ db.goals.filterMap (·.runId) ++ db.active.map (·.runId) := fun h =>
  Nat.not_succ_le_self _ (le_foldr_max h)

/-- A fresh run belongs to nobody. -/
theorem AgentDb.runOrganizations_fresh (db : AgentDb) :
    db.runOrganizations db.freshRunId = [] := by
  have hgoals : (db.goals.filter fun g => g.runId = some db.freshRunId) = [] := by
    rw [List.filter_eq_nil_iff]
    intro g hg hrun
    refine db.freshRunId_not_mem (List.mem_append_left _ ?_)
    exact List.mem_filterMap.mpr ⟨g, hg, of_decide_eq_true hrun⟩
  have hactive : (db.active.filter fun m => m.runId = db.freshRunId) = [] := by
    rw [List.filter_eq_nil_iff]
    intro m hm hrun
    refine db.freshRunId_not_mem (List.mem_append_right _ ?_)
    exact List.mem_map.mpr ⟨m, hm, of_decide_eq_true hrun⟩
  rw [AgentDb.runOrganizations, hgoals, hactive]
  rfl

end YoutubeFactory.Agents
