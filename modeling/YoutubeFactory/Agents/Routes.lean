import YoutubeFactory.Agents.Runs

/-!
# Agent routes

The routes of `app/api/v1/routes/agents.py` that show or change goals, runs and what runs
have produced, workflow runs and knowledge documents.  Starting a run in an organization
and adding a document check a permission there; the other routes ask for a signed-in user
and no more.
-/

namespace YoutubeFactory.Agents

open Access

/-! ## Operations -/

structure KnowledgeCreateIn where
  organizationId : Id
  title : String
  content : String
  kind : String
  tags : List String
  source : Option String
  title_bounds : 1 ≤ title.length ∧ title.length ≤ 255
  content_ne : content ≠ ""

/-- The row `KnowledgeService.create` adds. -/
def KnowledgeCreateIn.document (body : KnowledgeCreateIn) (userId : Id) (now : DateTime) :
    KnowledgeDocument where
  organizationId := some body.organizationId
  title := body.title
  content := body.content
  kind := body.kind
  tags := body.tags
  source := body.source
  createdBy := some userId
  createdAt := now
  deletedAt := none

namespace AgentDb

variable (db : AgentDb)

/-- A request sent to the agent of an active run, if there is one. -/
def control (runId : Id) (send : ManagedAgent → ManagedAgent) : Bool × AgentDb :=
  match db.activeRun runId with
  | none => (false, db)
  | some position => (true, { db with active := db.active.modify position send })

/-- `AgentManager.pause` -/
def pause (runId : Id) : Bool × AgentDb := db.control runId fun m => { m with paused := true }

/-- `AgentManager.resume` -/
def resume (runId : Id) : Bool × AgentDb := db.control runId fun m => { m with paused := false }

/-- `AgentManager.cancel` -/
def cancel (runId : Id) : Bool × AgentDb := db.control runId fun m => { m with cancelled := true }

/-- `AgentService.get_goal` -/
def getGoal (goalId : Id) : Except ApiError AgentGoal :=
  match (db.goals[goalId]?).filter fun g => g.deletedAt.isNone with
  | none => .error (.notFound "Goal not found." [])
  | some goal => .ok goal

/-- `KnowledgeService.get_or_404` -/
def getDocument (documentId : Id) : Except ApiError KnowledgeDocument :=
  match (db.documents[documentId]?).filter fun d => d.deletedAt.isNone with
  | none => .error (.notFound "Knowledge document not found." [])
  | some document => .ok document

/-- `KnowledgeService.delete` -/
def deleteDocument (documentId : Id) (now : DateTime) : Except ApiError AgentDb := do
  let document ← db.getDocument documentId
  return { db with
    documents := db.documents.set documentId { document with deletedAt := some now } }

/-- `KnowledgeService.create`.  The organization is a foreign key. -/
def createDocument (userId : Id) (body : KnowledgeCreateIn) (now : DateTime) :
    Except ApiError (KnowledgeDocument × AgentDb) :=
  if db.organizations.length ≤ body.organizationId then .error .integrity
  else
    .ok (body.document userId now,
      { db with documents := db.documents ++ [body.document userId now] })

end AgentDb

/-! ## Requests -/

inductive AgentRequest where
  | running
  | start (body : RunAgentIn) (now : DateTime)
  | pause (runId : Id)
  | resume (runId : Id)
  | stop (runId : Id)
  | listGoals (organizationId : Id)
  | getGoal (goalId : Id)
  | listTasks (runId : Id)
  | taskExecutions (taskId : Id)
  | toolExecutions (runId : Id)
  | getReflection (runId : Id)
  | getEvaluation (runId : Id)
  | getWorkflowRun (workflowRunId : Id)
  | listKnowledge (organizationId : Id)
  | createKnowledge (body : KnowledgeCreateIn) (now : DateTime)
  | deleteKnowledge (documentId : Id) (now : DateTime)

inductive AgentResponse where
  | running (runs : List ManagedAgent)
  | summary (run : RunSummary)
  | control (runId : Id) (acted : Bool)
  | goals (rows : List (AgentGoal × Id))
  | goal (row : AgentGoal)
  | tasks (rows : List (AgentTaskRecord × Id))
  | taskExecutions (rows : List (AgentTaskExecution × Id))
  | toolExecutions (rows : List (AgentToolExecution × Id))
  | reflection (row : AgentReflection)
  | evaluation (row : AgentEvaluation)
  | workflowRun (row : WorkflowRun)
  | documents (rows : List (KnowledgeDocument × Id))
  | document (row : KnowledgeDocument)
  | deleted

namespace AgentRequest

/-- What the route checks of the signed-in user. -/
def check (db : AgentDb) (userId : Id) (user : User) : AgentRequest → Except ApiError Unit
  | .start body _ =>
      match body.organizationId with
      | none => .ok ()
      | some organizationId =>
          if user.isSuperuser then .ok ()
          else db.access.requirePermission userId organizationId "agent.run"
  | .createKnowledge body _ =>
      if user.isSuperuser then .ok ()
      else db.access.requirePermission userId body.organizationId "agent.manage"
  | _ => .ok ()

/-- The rest of the route. -/
def body (runtime : AgentRuntime) (db : AgentDb) (userId : Id) :
    AgentRequest → Except ApiError (AgentResponse × AgentDb)
  | .running => .ok (.running db.active, db)
  | .start body now => (db.run runtime userId body now).map fun r => (.summary r.1, r.2)
  | .pause runId => .ok (.control runId (db.pause runId).1, (db.pause runId).2)
  | .resume runId => .ok (.control runId (db.resume runId).1, (db.resume runId).2)
  | .stop runId => .ok (.control runId (db.cancel runId).1, (db.cancel runId).2)
  | .listGoals organizationId => .ok (.goals (db.goalsForOrg organizationId), db)
  | .getGoal goalId => (db.getGoal goalId).map fun g => (.goal g, db)
  | .listTasks runId => .ok (.tasks (db.tasksForRun runId), db)
  | .taskExecutions taskId => .ok (.taskExecutions (db.executionsForTask taskId), db)
  | .toolExecutions runId => .ok (.toolExecutions (db.toolExecutionsForRun runId), db)
  | .getReflection runId =>
      match db.reflectionForRun runId with
      | none => .error (.notFound "No reflection for this run." [])
      | some reflection => .ok (.reflection reflection, db)
  | .getEvaluation runId =>
      match db.evaluationForRun runId with
      | none => .error (.notFound "No evaluation for this run." [])
      | some evaluation => .ok (.evaluation evaluation, db)
  | .getWorkflowRun workflowRunId =>
      match db.workflowRuns[workflowRunId]? with
      | none => .error (.notFound "Workflow run not found." [])
      | some run => .ok (.workflowRun run, db)
  | .listKnowledge organizationId => .ok (.documents (db.documentsForOrg organizationId), db)
  | .createKnowledge body now =>
      (db.createDocument userId body now).map fun r => (.document r.1, r.2)
  | .deleteKnowledge documentId now =>
      (db.deleteDocument documentId now).map fun db' => (.deleted, db')

/-- The route, with the database it leaves. -/
def serve (runtime : AgentRuntime) (db : AgentDb) (userId : Id) (request : AgentRequest) :
    Except ApiError (AgentResponse × AgentDb) := do
  let user ← db.access.getCurrentUser userId
  request.check db userId user
  request.body runtime db userId

end AgentRequest

end YoutubeFactory.Agents
