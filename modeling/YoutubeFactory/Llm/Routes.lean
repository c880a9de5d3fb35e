import YoutubeFactory.Llm.Services

/-!
# LLM routes

The routes of `app/api/v1/routes/llm.py` for chats, prompts and conversations.  A chat in an
organization and a new prompt check a permission there; the other routes ask for a signed-in
user and no more.

A stream has begun to answer when it fails: its events so far are sent, and what it has
written is taken back.
-/

namespace YoutubeFactory.Llm

open Access Python

/-! ## Requests -/

structure ChatRequestIn where
  messages : List Message
  model : Option String
  system : Option String
  maxTokens : Option Nat
  provider : Option String
  organizationId : Option Id
  conversationId : Option Id
  messages_ne : messages ≠ []
  maxTokens_bounds : ∀ n ∈ maxTokens, 1 ≤ n ∧ n ≤ 200000

structure PromptCreateIn where
  organizationId : Id
  name : String
  template : String
  category : Option String
  description : Option String
  /-- `variables` -/
  vars : List PromptVariable
  tags : List String
  name_bounds : 1 ≤ name.length ∧ name.length ≤ 255

structure PromptVersionIn where
  template : String
  /-- `variables` -/
  vars : List PromptVariable

structure PromptRenderIn where
  context : List (String × Json)
  version : Option Int

structure ConversationCreateIn where
  organizationId : Id
  model : Option String
  system : Option String
  title : Option String

inductive LlmRequest where
  | chat (body : ChatRequestIn)
  | stream (body : ChatRequestIn)
  | createPrompt (body : PromptCreateIn)
  | addPromptVersion (templateId : Id) (body : PromptVersionIn)
  | renderPrompt (templateId : Id) (body : PromptRenderIn)
  | rollbackPrompt (templateId : Id) (toVersion : Nat)
  | createConversation (body : ConversationCreateIn)
  | conversationMessages (conversationId : Id)

/-! ## Responses -/

structure PromptTemplateOut where
  id : Id
  organizationId : Id
  name : String
  category : Option String
  status : String
  latestVersion : Int
  createdAt : DateTime

structure ConversationOut where
  id : Id
  organizationId : Id
  title : Option String
  model : String
  createdAt : DateTime

structure ConversationMessageOut where
  id : Id
  sequence : Int
  role : String
  content : String
  tokens : Nat

def PromptTemplate.out (t : PromptTemplate) : PromptTemplateOut where
  id := t.id
  organizationId := t.organizationId
  name := t.name
  category := t.category
  status := t.status
  latestVersion := t.latestVersion
  createdAt := t.createdAt

def Conversation.out (c : Conversation) : ConversationOut where
  id := c.id
  organizationId := c.organizationId
  title := c.title
  model := c.model
  createdAt := c.createdAt

def ConversationMessage.out (m : ConversationMessage) : ConversationMessageOut where
  id := m.id
  sequence := m.sequence
  role := m.role
  content := m.content
  tokens := m.tokens

inductive LlmResponse where
  | chat (outcome : ChatOutcome)
  | stream (events : List Json) (failure : Option LlmError)
  | template (row : Option PromptTemplateOut)
  | rendered (text : String)
  | message (text : String)
  | conversation (row : Option ConversationOut)
  | messages (rows : List ConversationMessageOut)

/-! ## Routes -/

/-- The tables and the state of the manager. -/
structure LlmState (M : Type) where
  db : LlmDb
  manager : M

variable {M : Type} (env : LlmEnv M)

namespace LlmRequest

/-- What the route checks of the signed-in user. -/
def check (db : LlmDb) (userId : Id) (user : User) : LlmRequest → Except ApiError Unit
  | .chat body =>
      match body.organizationId with
      | none => .ok ()
      | some organizationId =>
          if user.isSuperuser then .ok ()
          else db.access.requirePermission userId organizationId "agent.run"
  | .createPrompt body =>
      if user.isSuperuser then .ok ()
      else db.access.requirePermission userId body.organizationId "prompt.edit"
  | _ => .ok ()

def authorize (db : LlmDb) (userId : Id) (request : LlmRequest) : Except ApiError Unit := do
  let user ← db.access.getCurrentUser userId
  request.check db userId user

/-- A chat that the manager has answered. -/
def answerChat (body : ChatRequestIn) (userId : Id) (context : RequestContext)
    (outcome : ChatOutcome) : LlmM LlmResponse := do
  recordTurn body.messages outcome body.organizationId userId body.conversationId context
  return .chat outcome

/-- The end of a stream: what it has written stays if nothing was raised. -/
def closeStream (sent : List Json) (written : Except LlmError LlmDb) (failure : Option LlmError)
    (db : LlmDb) : LlmResponse × LlmDb :=
  match written, failure with
  | .error e, _ => (.stream sent (some e), db)
  | .ok _, some e => (.stream sent (some e), db)
  | .ok db', none => (.stream sent none, db')

/-- A stream that the manager has answered. -/
def answerStream (body : ChatRequestIn) (userId : Id) (context : RequestContext)
    (events : List StreamEvent) (failure : Option LlmError) : LlmM LlmResponse := fun db =>
  let sent := streamEvents
    (fun r => recordStream env r body.provider body.organizationId userId context) events db
  .ok (closeStream sent.1 sent.2 failure db)

/-- The rest of the route, and the state it leaves the manager in. -/
def program (manager : M) (userId : Id) (context : RequestContext) :
    LlmRequest → LlmM LlmResponse × M
  | .chat body =>
      let request := buildRequest env body.messages body.model body.system body.maxTokens
      let answer := env.manager.chat manager request body.provider body.organizationId
      (match answer.1 with
        | .error e => throw e
        | .ok outcome => answerChat body userId context outcome, answer.2)
  | .stream body =>
      -- The route passes no `max_tokens`.
      let request := buildRequest env body.messages body.model body.system none
      let answer := env.manager.stream manager request body.provider body.organizationId
      (answerStream env body userId context answer.1.1 answer.1.2, answer.2)
  | .createPrompt body =>
      (do
        let id ← createTemplate env body.organizationId body.name body.template userId
          body.category body.description body.vars body.tags context
        return .template (((← get).getTemplate id).map (·.out)), manager)
  | .addPromptVersion templateId body =>
      (do
        let _ ← addVersion env templateId body.template userId body.vars []
        return .template (((← get).getTemplate templateId).map (·.out)), manager)
  | .renderPrompt templateId body =>
      (do
        let text ← render env templateId body.context body.version
        return .rendered text, manager)
  | .rollbackPrompt templateId toVersion =>
      (do
        let version ← rollback env templateId toVersion userId
        return .message s!"Rolled back to a new version {version.versionNumber}.", manager)
  | .createConversation body =>
      (do
        let id ← Llm.createConversation env body.organizationId userId body.model body.system
          body.title context
        return .conversation (((← get).getConversation id).map (·.out)), manager)
  | .conversationMessages conversationId =>
      (do
        match ((← get).getConversation conversationId).filter fun c => c.deletedAt.isNone with
        | none => throw (.api (.notFound "Conversation not found." []))
        | some _ =>
            return .messages (((← get).listForConversation conversationId).map (·.out)),
        manager)

end LlmRequest

/-- A request with what it reads of its context. -/
structure LlmCall where
  request : LlmRequest
  context : RequestContext

/-- The request in its transaction: the answer and the state it leaves. -/
def LlmState.serve (userId : Id) (s : LlmState M) (call : LlmCall) :
    Except LlmError LlmResponse × LlmState M :=
  match call.request.authorize s.db userId with
  | .error e => (.error (.api e), s)
  | .ok () =>
      let (program, manager) := call.request.program env s.manager userId call.context
      match program.run s.db with
      | .error e => (.error e, ⟨s.db, manager⟩)
      | .ok (response, db) => (.ok response, ⟨db, manager⟩)

end YoutubeFactory.Llm
