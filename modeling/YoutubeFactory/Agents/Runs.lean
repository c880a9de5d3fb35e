import YoutubeFactory.Lib.Tenancy
import YoutubeFactory.Agents.Tables

/-!
# Running an agent

`AgentService.run` of `app/services/agent/agent_service.py`.  What the agent does with its
goal is the runtime's; here is what the service gives it and what it stores of the result.
The per-run plan, metrics and memory are not kept: no route shows them.

A run adds rows of its own run, after those that are there (`AddsToRun`).
-/

namespace YoutubeFactory.Agents

open Access Tenancy

/-! ## The runtime -/

structure RunAgentIn where
  slug : String
  objective : String
  organizationId : Option Id
  priority : Nat
  constraints : List String
  expectedOutput : Option String
  successCriteria : List String
  model : Option String
  maxIterations : Option Nat
  objective_ne : objective ≠ ""
  priority_le : priority ≤ 20

/-- `KnowledgeEntry` -/
structure KnowledgeEntry where
  title : String
  content : String
  kind : String
  tags : List String

/-- An artifact of type `tool`. -/
structure ToolArtifact where
  tool : String
  output : String
  success : Bool
  error : Option String

/-- A task of the graph an agent has worked through. -/
structure AgentTask where
  key : String
  description : String
  kind : String
  status : String
  dependsOn : List String
  attempts : Nat
  error : Option String
  result : Option String
  toolArtifacts : List ToolArtifact

structure Reflection where
  summary : String
  mistakes : List String
  lessons : List String
  improvements : List String

structure Evaluation where
  correctness : ℚ
  completeness : ℚ
  cost : ℚ
  latency : ℚ
  quality : ℚ
  confidence : ℚ
  overall : ℚ
  notes : List String

/-- `AgentRunResult`, with the tasks in topological order. -/
structure AgentRunResult where
  state : String
  output : String
  goalStatus : String
  tasks : List AgentTask
  reflection : Option Reflection
  evaluation : Option Evaluation

/-- The registry, and what running an agent on a goal gives or raises. -/
structure AgentRuntime where
  registered : String → Bool
  run : RunAgentIn → Id → List KnowledgeEntry → Except ApiError AgentRunResult

/-- The values of `KnowledgeKind`. -/
def knowledgeKinds : List String :=
  ["policy", "documentation", "template", "fact", "preference", "rule"]

/-- `KnowledgeService.build_base` -/
def AgentDb.buildBase (db : AgentDb) (organizationId : Option Id) : List KnowledgeEntry :=
  match organizationId with
  | none => []
  | some organizationId => (db.documentsForOrg organizationId).map fun d =>
      { title := d.1.title
        content := d.1.content
        kind := if d.1.kind ∈ knowledgeKinds then d.1.kind else "fact"
        tags := d.1.tags }

/-! ## Storing a run -/

def RunAgentIn.goal (body : RunAgentIn) (userId runId : Id) (result : AgentRunResult)
    (now : DateTime) : AgentGoal where
  organizationId := body.organizationId
  runId := some runId
  objective := body.objective
  priority := body.priority
  constraints := body.constraints
  expectedOutput := body.expectedOutput
  successCriteria := body.successCriteria
  status := result.goalStatus
  result := some result.output
  createdBy := some userId
  createdAt := now
  deletedAt := none

def AgentTask.record (task : AgentTask) (goalId runId : Id) (index : Nat) : AgentTaskRecord where
  goalId := some goalId
  runId := some runId
  key := task.key
  description := task.description
  kind := task.kind
  status := task.status
  orderIndex := index
  attempts := task.attempts
  dependsOn := task.dependsOn
  error := task.error
  result := task.result

def AgentTask.execution (task : AgentTask) (taskId : Id) : AgentTaskExecution where
  taskId
  attempt := task.attempts
  status := task.status
  output := task.result.getD ""
  error := task.error

def ToolArtifact.execution (artifact : ToolArtifact) (runId taskId : Id) (now : DateTime) :
    AgentToolExecution where
  runId := some runId
  taskId := some taskId
  toolName := artifact.tool
  output := artifact.output
  success := artifact.success
  error := artifact.error
  createdAt := now

namespace AgentDb

/-- The rows of one task. -/
def persistTask (goalId runId : Id) (now : DateTime) (db : AgentDb) (entry : AgentTask × Nat) :
    AgentDb :=
  { db with
    tasks := db.tasks ++ [entry.1.record goalId runId entry.2]
    taskExecutions := db.taskExecutions ++ [entry.1.execution db.tasks.length]
    toolExecutions := db.toolExecutions ++
      entry.1.toolArtifacts.map (·.execution runId db.tasks.length now) }

def persistReflection (runId : Id) (db : AgentDb) (reflection : Option Reflection) : AgentDb :=
  match reflection with
  | none => db
  | some r =>
      { db with reflections := db.reflections ++
          [⟨runId, r.summary, r.mistakes, r.lessons, r.improvements, none⟩] }

def persistEvaluation (runId : Id) (db : AgentDb) (evaluation : Option Evaluation) : AgentDb :=
  match evaluation with
  | none => db
  | some e =>
      { db with evaluations := db.evaluations ++
          [⟨runId, e.correctness, e.completeness, e.cost, e.latency, e.quality, e.confidence,
            e.overall, e.notes, none⟩] }

/-- `_persist_run` -/
def persistRun (goalId runId : Id) (now : DateTime) (db : AgentDb) (result : AgentRunResult) :
    AgentDb :=
  let db := result.tasks.zipIdx.foldl (persistTask goalId runId now) db
  persistEvaluation runId (persistReflection runId db result.reflection) result.evaluation

end AgentDb

/-- `RunSummary` -/
structure RunSummary where
  runId : Id
  goalId : Id
  agentSlug : String
  state : String
  goalStatus : String
  output : String

/-- `AgentService.run`.  The organization is a foreign key. -/
def AgentDb.run (runtime : AgentRuntime) (db : AgentDb) (userId : Id) (body : RunAgentIn)
    (now : DateTime) : Except ApiError (RunSummary × AgentDb) :=
  if runtime.registered body.slug = false then
    .error (.notFound s!"Agent '{body.slug}' is not registered." [])
  else if body.organizationId.any fun o => db.organizations.length ≤ o then .error .integrity
  else do
    let result ← runtime.run body userId (db.buildBase body.organizationId)
    let runId := db.freshRunId
    let goalId := db.goals.length
    let goals := db.goals ++ [body.goal userId runId result now]
    let summary : RunSummary :=
      { runId
        goalId
        agentSlug := body.slug
        state := result.state
        goalStatus := result.goalStatus
        output := result.output }
    return (summary, AgentDb.persistRun goalId runId now { db with goals } result)

/-! ## What a run adds -/

/-- Rows of one run are added; the rest is as it was. -/
structure AddsToRun (runId : Id) (db db' : AgentDb) : Prop where
  access : db'.access = db.access
  goals : db'.goals = db.goals
  workflowRuns : db'.workflowRuns = db.workflowRuns
  documents : db'.documents = db.documents
  active : db'.active = db.active
  tasks : Adds (fun t => t.runId = some runId) db.tasks db'.tasks
  taskExecutions : Adds
    (fun e => ∃ t, db'.tasks[e.taskId]? = some t ∧ t.runId = some runId)
    db.taskExecutions db'.taskExecutions
  toolExecutions : Adds (fun e => e.runId = some runId) db.toolExecutions db'.toolExecutions
  reflections : Adds (fun r => r.runId = runId) db.reflections db'.reflections
  evaluations : Adds (fun e => e.runId = runId) db.evaluations db'.evaluations

namespace AddsToRun

variable {runId : Id} {db db' db'' : AgentDb}

theorem refl (runId : Id) (db : AgentDb) : AddsToRun runId db db where
  access := rfl
  goals := rfl
  workflowRuns := rfl
  documents := rfl
  active := rfl
  tasks := .refl _
  taskExecutions := .refl _
  toolExecutions := .refl _
  reflections := .refl _
  evaluations := .refl _

theorem trans (h : AddsToRun runId db db') (h' : AddsToRun runId db' db'') :
    AddsToRun runId db db'' where
  access := h'.access.trans h.access
  goals := h'.goals.trans h.goals
  workflowRuns := h'.workflowRuns.trans h.workflowRuns
  documents := h'.documents.trans h.documents
  active := h'.active.trans h.active
  tasks := h.tasks.trans h'.tasks
  taskExecutions := by
    refine .trans (h.taskExecutions.imp ?_) h'.taskExecutions
    rintro e ⟨t, ht, hrun⟩
    exact ⟨t, h'.tasks.getElem? ht, hrun⟩
  toolExecutions := h.toolExecutions.trans h'.toolExecutions
  reflections := h.reflections.trans h'.reflections
  evaluations := h.evaluations.trans h'.evaluations

theorem persistTask (goalId runId : Id) (now : DateTime) (db : AgentDb)
    (entry : AgentTask × Nat) : AddsToRun runId db (db.persistTask goalId runId now entry) where
  access := rfl
  goals := rfl
  workflowRuns := rfl
  documents := rfl
  active := rfl
  tasks := ⟨[_], rfl, fun _ ht => List.mem_singleton.mp ht ▸ rfl⟩
  taskExecutions := by
    refine ⟨[_], rfl, fun e he => ?_⟩
    rw [List.mem_singleton.mp he]
    exact ⟨_, List.getElem?_concat_length, rfl⟩
  toolExecutions := by
    refine ⟨_, rfl, fun e he => ?_⟩
    obtain ⟨artifact, -, rfl⟩ := List.mem_map.mp he
    rfl
  reflections := .refl _
  evaluations := .refl _

theorem persistTasks (goalId runId : Id) (now : DateTime) (entries : List (AgentTask × Nat))
    (db : AgentDb) :
    AddsToRun runId db (entries.foldl (AgentDb.persistTask goalId runId now) db) := by
  induction entries generalizing db with
  | nil => exact .refl runId db
  | cons entry entries ih =>
      rw [List.foldl_cons]
      exact (persistTask goalId runId now db entry).trans (ih _)

theorem persistReflection (runId : Id) (db : AgentDb) (reflection : Option Reflection) :
    AddsToRun runId db (db.persistReflection runId reflection) := by
  cases reflection with
  | none => exact .refl runId db
  | some r =>
      exact { refl runId db with
        reflections := ⟨[_], rfl, fun _ hr => List.mem_singleton.mp hr ▸ rfl⟩ }

theorem persistEvaluation (runId : Id) (db : AgentDb) (evaluation : Option Evaluation) :
    AddsToRun runId db (db.persistEvaluation runId evaluation) := by
  cases evaluation with
  | none => exact .refl runId db
  | some e =>
      exact { refl runId db with
        evaluations := ⟨[_], rfl, fun _ he => List.mem_singleton.mp he ▸ rfl⟩ }

theorem persistRun (goalId runId : Id) (now : DateTime) (db : AgentDb)
    (result : AgentRunResult) : AddsToRun runId db (db.persistRun goalId runId now result) :=
  ((persistTasks goalId runId now _ db).trans (persistReflection runId _ _)).trans
    (persistEvaluation runId _ _)

end AddsToRun

/-- A run adds a goal of its organization and rows of a run that nobody had. -/
theorem run_ok {runtime : AgentRuntime} {db db' : AgentDb} {userId : Id} {body : RunAgentIn}
    {now : DateTime} {summary : RunSummary}
    (h : db.run runtime userId body now = .ok (summary, db')) :
    ∃ goal, goal.organizationId = body.organizationId ∧ goal.runId = some db.freshRunId ∧
      summary.runId = db.freshRunId ∧
      AddsToRun db.freshRunId { db with goals := db.goals ++ [goal] } db' := by
  unfold AgentDb.run at h
  split at h
  · cases h
  · split at h
    · cases h
    · obtain ⟨result, -, h⟩ := Except.bind_eq_ok.mp h
      cases h
      exact ⟨_, rfl, rfl, rfl, .persistRun _ _ _ _ _⟩

end YoutubeFactory.Agents
