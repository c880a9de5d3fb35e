import YoutubeFactory.Llm.Tables

/-!
# LLM services

`PromptService`, `ConversationService`, `AccountingService` and `LLMService` of
`app/services/llm`.  A service reads and writes the tables in the transaction of its
request.

The LLM manager of `app/core/llm/manager.py` and the rendering of a template by Jinja are
parameters.  The manager has a state of its own, its cache and its limits, which no
transaction takes back.  Amounts of money are exact.
-/

namespace YoutubeFactory.Llm

open Access Python

/-- A service in its transaction. -/
abbrev LlmM := StateT LlmDb (Except LlmError)

/-! ## Messages to and from the manager -/

structure Message where
  role : String
  content : String

structure Usage where
  inputTokens : Nat
  outputTokens : Nat
  cacheReadTokens : Nat
  cacheWriteTokens : Nat

/-- `total_tokens` -/
def Usage.totalTokens (u : Usage) : Nat := u.inputTokens + u.outputTokens

structure ChatRequest where
  messages : List Message
  model : String
  maxTokens : Nat
  system : Option String
  temperature : Option ℚ
  topP : Option ℚ
  topK : Option Nat
  thinking : Bool
  responseSchema : Option Json

structure ChatResponse where
  content : String
  model : String
  stopReason : String
  usage : Usage

structure ChatOutcome where
  response : ChatResponse
  provider : String
  latencyMs : ℚ
  costUsd : ℚ
  cacheHit : Bool

structure StreamEvent where
  kind : String
  text : String
  response : Option ChatResponse
  error : Option String

/-- The payload of `to_sse`. -/
def StreamEvent.toSse (event : StreamEvent) : Json :=
  .dict ([("type", .str event.kind), ("text", .str event.text)] ++
    match event.error with
    | none => []
    | some error => if error = "" then [] else [("error", .str error)])

/-- The manager: what it answers and the state it is left in.  A limit is counted by
organization, or globally.  A stream gives its events and what it may raise after them. -/
structure LlmManager (M : Type) where
  chat : M → ChatRequest → Option String → Option Id → Except LlmError ChatOutcome × M
  stream : M → ChatRequest → Option String → Option Id →
    (List StreamEvent × Option LlmError) × M

/-- What Jinja may raise. -/
inductive JinjaError where
  /-- `TemplateError` -/
  | template (text : String)
  | other (text : String)

structure LlmSettings where
  defaultProvider : String
  defaultModel : String
  maxTokens : Nat
  temperature : Option ℚ
  topP : Option ℚ
  topK : Option Nat
  adaptive : Bool
  systemPrompt : Option String

structure LlmEnv (M : Type) where
  settings : LlmSettings
  manager : LlmManager M
  jinja : String → List (String × Json) → Except JinjaError String

/-- What a request reads of its context.  `dbNow` is the `now()` of the database, the start of
the transaction. -/
structure RequestContext where
  now : DateTime
  dbNow : DateTime
  correlationId : Option String

/-- The day of a moment, in UTC. -/
def dateOf (moment : DateTime) : Date := moment / 86400

/-- `datetime.now(UTC).date()` -/
def RequestContext.today (context : RequestContext) : Date := dateOf context.now

/-- `value or default`, of strings. -/
def orElse (value : Option String) (default : String) : String :=
  match value with
  | none => default
  | some s => if s = "" then default else s

/-! ## Prompts -/

section

variable {M : Type} (env : LlmEnv M)

/-- `PromptEngine.validate_context`: the resolved context and the variables it lacks. -/
def validateContext (declared : List PromptVariable) (context : List (String × Json)) :
    List (String × Json) × List String :=
  declared.foldl (fun (resolved, missing) v =>
    if resolved.any fun e => e.1 = v.name then (resolved, missing)
    else
      match v.default with
      | .null => if v.required then (resolved, missing ++ [v.name]) else (resolved, missing)
      | default => (resolved ++ [(v.name, default)], missing)) (context, [])

/-- `PromptEngine.render` -/
def renderSpec (name : String) (version : PromptVersion) (context : List (String × Json)) :
    Except LlmError String :=
  let (resolved, missing) := validateContext version.vars context
  if missing.isEmpty then
    match env.jinja version.template resolved with
    | .ok text => .ok text
    | .error (.template text) =>
        .error (.llm "prompt_render_error" s!"Failed to render prompt '{name}': {text}"
          [("prompt", .str name), ("version", .int version.versionNumber)])
    | .error (.other text) => .error (.template text)
  else
    .error (.llm "prompt_render_error" "Missing required prompt variables."
      [("missing", .list (missing.map .str)), ("prompt", .str name)])

/-- The check of `add_version` that a template compiles. -/
def compiles (template : String) : Except LlmError Unit :=
  match env.jinja template [] with
  | .error (.other text) => .error (.template text)
  | _ => .ok ()

/-- `PromptService.add_version` -/
def addVersion (templateId : Id) (template : String) (actorId : Id)
    (declared : List PromptVariable) (examples : List Json) : LlmM PromptVersion := do
  match ((← get).getTemplate templateId).filter fun t => t.deletedAt.isNone with
  | none => throw (.api (.notFound "Prompt template not found." []))
  | some _ =>
      let _ ← liftM (compiles env template)
      let next := (((← get).listForTemplate templateId).head?.map (·.versionNumber + 1)).getD 1
      let version : PromptVersion :=
        { templateId
          versionNumber := next
          template
          vars := declared
          examples
          createdBy := some actorId
          updatedBy := some actorId
          deletedAt := none }
      modify fun db => db.insertVersion version
      modify fun db => db.setHead templateId next actorId
      return version

/-- `PromptService.create_template`, with the row it adds. -/
def createTemplate (organizationId : Id) (name template : String) (actorId : Id)
    (category description : Option String) (declared : List PromptVariable)
    (tags : List String) (context : RequestContext) : LlmM Id := do
  if ((← get).getByName organizationId name).isSome then
    throw (.api (.conflict s!"A prompt named '{name}' already exists." []))
  else if (← get).organizationExists organizationId && !(← get).nameTaken organizationId name then
    let id := (← get).nextId
    modify fun db => db.insertTemplate
      { id
        organizationId
        name
        category
        description
        tags
        status := "active"
        latestVersion := 0
        createdBy := some actorId
        updatedBy := some actorId
        createdAt := context.now
        deletedAt := none }
    let _ ← addVersion env id template actorId declared []
    return id
  else throw (.api .integrity)

/-- `PromptService.render` -/
def render (templateId : Id) (context : List (String × Json)) (version : Option Int) :
    LlmM String := do
  match (← get).getTemplate templateId with
  | none => throw (.api (.notFound "Prompt template not found." []))
  | some record =>
      let target := if version.getD 0 = 0 then record.latestVersion else version.getD 0
      match (← get).getVersion templateId target with
      | none => throw (.api (.notFound s!"Prompt version {target} not found." []))
      | some row => liftM (renderSpec env record.name row context)

/-- `PromptService.rollback` -/
def rollback (templateId : Id) (toVersion : Int) (actorId : Id) : LlmM PromptVersion := do
  match (← get).getVersion templateId toVersion with
  | none => throw (.api (.notFound s!"Prompt version {toVersion} not found." []))
  | some source => addVersion env templateId source.template actorId source.vars source.examples

/-! ## Conversations -/

/-- `ConversationService.create`, with the row it adds. -/
def createConversation (organizationId actorId : Id) (model system title : Option String)
    (context : RequestContext) : LlmM Id := do
  if (← get).organizationExists organizationId then
    let id := (← get).nextId
    modify fun db => db.insertConversation
      { id
        organizationId
        userId := some actorId
        title
        model := orElse model env.settings.defaultModel
        system
        createdBy := some actorId
        updatedBy := some actorId
        createdAt := context.now
        deletedAt := none }
    return id
  else throw (.api .integrity)

/-- `ConversationService.append`.  The conversation is a foreign key. -/
def appendMessage (conversationId : Id) (role content : String) (actorId : Id) (tokens : Nat) :
    LlmM Unit := do
  if ((← get).getConversation conversationId).isSome then
    let sequence := (← get).nextSequence conversationId
    let id := (← get).nextId
    modify fun db => db.insertMessage
      { id
        conversationId
        sequence
        role
        content
        toolCalls := []
        tokens
        createdBy := some actorId
        updatedBy := some actorId }
  else throw (.api .integrity)

/-! ## Accounting -/

/-- The prices of `get_model_info`, for a million tokens. -/
def getModelInfo (model : String) : ℚ × ℚ :=
  if model = "claude-sonnet-5" then (3, 15)
  else if model = "claude-haiku-4-5" then (1, 5)
  else (5, 25)

/-- `_roll_up` -/
def rollUp (organizationId : Option Id) (model : String) (usage : Usage) (costUsd : ℚ)
    (today : Date) : LlmM Unit := do
  if 1 < ((← get).usageFor organizationId today model).length then throw .multipleResults
  else
    modify fun db => db.countUsage organizationId today model usage.inputTokens
      usage.outputTokens usage.totalTokens
    if 1 < ((← get).costsFor organizationId today model).length then throw .multipleResults
    else
      let (inputPrice, outputPrice) := getModelInfo model
      modify fun db => db.countCosts organizationId today model
        (usage.inputTokens / 1000000 * inputPrice) (usage.outputTokens / 1000000 * outputPrice)
        costUsd

/-- `AccountingService.record` -/
def record (outcome : ChatOutcome) (organizationId : Option Id) (userId : Id)
    (conversationId : Option Id) (streamed : Bool) (context : RequestContext) : LlmM Unit := do
  if organizationId.all (← get).organizationExists then
    let usage := outcome.response.usage
    modify fun db => db.insertRequest
      { organizationId
        userId := some userId
        conversationId
        provider := outcome.provider
        model := outcome.response.model
        status := if streamed then "streamed" else "succeeded"
        inputTokens := usage.inputTokens
        outputTokens := usage.outputTokens
        cachedTokens := usage.cacheReadTokens
        totalTokens := usage.totalTokens
        costUsd := outcome.costUsd
        latencyMs := outcome.latencyMs
        streamed
        cacheHit := outcome.cacheHit
        correlationId := context.correlationId
        createdAt := context.dbNow }
    rollUp organizationId outcome.response.model usage outcome.costUsd context.today
  else throw (.api .integrity)

/-! ## Chat -/

/-- `_build_request` -/
def buildRequest (messages : List Message) (model system : Option String)
    (maxTokens : Option Nat) : ChatRequest where
  messages
  model := orElse model env.settings.defaultModel
  maxTokens := maxTokens.getD env.settings.maxTokens
  system := if (system.getD "") = "" then env.settings.systemPrompt else system
  temperature := env.settings.temperature
  topP := env.settings.topP
  topK := env.settings.topK
  thinking := env.settings.adaptive
  responseSchema := none

/-- What `chat` does once the manager has answered. -/
def recordTurn (messages : List Message) (outcome : ChatOutcome) (organizationId : Option Id)
    (userId : Id) (conversationId : Option Id) (context : RequestContext) : LlmM Unit := do
  record outcome organizationId userId conversationId false context
  match conversationId, messages.getLast? with
  | some conversationId, some message =>
      appendMessage conversationId "user" message.content userId
        outcome.response.usage.inputTokens
      appendMessage conversationId "assistant" outcome.response.content userId
        outcome.response.usage.outputTokens
  | _, _ => return ()

/-- What `stream` passes on of the events, and the tables it leaves: the one that carries
the response is accounted for before it is passed on. -/
def streamEvents (account : ChatResponse → LlmM Unit) :
    List StreamEvent → LlmDb → List Json × Except LlmError LlmDb
  | [], db => ([], .ok db)
  | event :: events, db =>
      match event.response with
      | none =>
          let rest := streamEvents account events db
          (event.toSse :: rest.1, rest.2)
      | some response =>
          match (account response).run db with
          | .error e => ([], .error e)
          | .ok (_, db') =>
              let rest := streamEvents account events db'
              (event.toSse :: rest.1, rest.2)

/-- What `stream` records of the response. -/
def recordStream (response : ChatResponse) (provider : Option String)
    (organizationId : Option Id) (userId : Id) (context : RequestContext) : LlmM Unit :=
  record
    { response
      provider := orElse provider env.settings.defaultProvider
      latencyMs := 0
      costUsd := 0
      cacheHit := false }
    organizationId userId none true context

end

end YoutubeFactory.Llm
