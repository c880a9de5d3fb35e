import YoutubeFactory.Llm.Routes
import YoutubeFactory.Python.Numbers

/-!
# Turns

`LLMService.chat`, `chat_structured` and `stream` of `app/services/llm/llm_service.py`, over the
manager of `app/core/llm/manager.py` with the price it puts on what a provider or the cache
answers.  What they answer is a parameter.  Both providers, and the cache, name the model that
was asked for.

A turn that raises has left its rows in the session.  Whether they are committed is up to the
caller.
-/

namespace YoutubeFactory.Llm

open Access Python

variable {M : Type}

/-! ## Prices -/

/-- `estimate_cost` -/
def estimateCost (model : String) (inputTokens outputTokens : Nat) : ℚ :=
  let (inputPrice, outputPrice) := getModelInfo model
  roundTo (inputTokens / 1000000 * inputPrice + outputTokens / 1000000 * outputPrice) 6

/-- What a provider or the cache answers. -/
structure Answer where
  provider : String
  content : String
  stopReason : String
  usage : Usage
  latencyMs : ℚ
  cacheHit : Bool

/-- The outcome that `LLMManager.chat` returns. -/
def Answer.outcome (answer : Answer) (request : ChatRequest) : ChatOutcome where
  response :=
    { content := answer.content
      model := request.model
      stopReason := answer.stopReason
      usage := answer.usage }
  provider := answer.provider
  latencyMs := answer.latencyMs
  costUsd := estimateCost request.model answer.usage.inputTokens answer.usage.outputTokens
  cacheHit := answer.cacheHit

/-- The providers with the cache, the limits and the retries around them. -/
structure Providers (M : Type) where
  chat : M → ChatRequest → Option String → Option Id → Except LlmError Answer × M
  stream : M → ChatRequest → Option String → Option Id →
    (List StreamEvent × Option LlmError) × M

def Providers.manager (providers : Providers M) : LlmManager M where
  chat manager request provider organizationId :=
    let answer := providers.chat manager request provider organizationId
    (answer.1.map (·.outcome request), answer.2)
  stream := providers.stream

/-- The environment with the manager over these providers. -/
def LlmEnv.over (env : LlmEnv M) (providers : Providers M) : LlmEnv M :=
  { env with manager := providers.manager }

/-! ## Turns -/

/-- What `parse_structured` makes of the content of a response. -/
inductive Parsed where
  | valid (value : Json)
  /-- `StructuredOutputError` -/
  | malformed (error : LlmError)
  | raises (error : LlmError)

inductive Turn where
  | chat (messages : List Message) (model system : Option String) (maxTokens : Option Nat)
      (provider : Option String) (organizationId : Option Id) (userId : Id)
      (conversationId : Option Id)
  | chatStructured (messages : List Message) (schema : Json) (parse : String → Parsed)
      (model system : Option String) (maxRetries : Nat) (organizationId : Option Id)
      (userId : Id)
  | stream (messages : List Message) (model system : Option String) (maxTokens : Option Nat)
      (provider : Option String) (organizationId : Option Id) (userId : Id)

inductive TurnResult where
  | outcome (outcome : ChatOutcome)
  | value (value : Json)
  | events (events : List Json)

variable (env : LlmEnv M)

/-- `LLMService.chat` -/
def chat (messages : List Message) (model system : Option String) (maxTokens : Option Nat)
    (provider : Option String) (organizationId : Option Id) (userId : Id)
    (conversationId : Option Id) (context : RequestContext) (s : LlmState M) :
    Except LlmError TurnResult × LlmState M :=
  let request := buildRequest env messages model system maxTokens
  let answer := env.manager.chat s.manager request provider organizationId
  match answer.1 with
  | .error e => (.error e, ⟨s.db, answer.2⟩)
  | .ok outcome =>
      match (recordTurn messages outcome organizationId userId conversationId context).run s.db with
      | .error e => (.error e, ⟨s.db, answer.2⟩)
      | .ok (_, db) => (.ok (.outcome outcome), ⟨db, answer.2⟩)

/-- What `chat_structured` asks for after a response that is not valid. -/
def askAgain : String :=
  "Your previous response was not valid JSON for the schema. " ++
    "Respond again with ONLY a valid JSON object."

/-- The loop of `LLMService.chat_structured`, with the retries that are left.  Each attempt reads
the clock anew. -/
def chatStructured (schema : Json) (parse : String → Parsed) (model system : Option String)
    (organizationId : Option Id) (userId : Id) (contexts : Nat → RequestContext) :
    Nat → Nat → List Message → LlmState M → Except LlmError TurnResult × LlmState M
  | retries, attempt, conversation, s =>
      let request :=
        { buildRequest env conversation model system none with responseSchema := some schema }
      let answer := env.manager.chat s.manager request none organizationId
      match answer.1 with
      | .error e => (.error e, ⟨s.db, answer.2⟩)
      | .ok outcome =>
          match (record outcome organizationId userId none false (contexts attempt)).run s.db with
          | .error e => (.error e, ⟨s.db, answer.2⟩)
          | .ok (_, db) =>
              match parse outcome.response.content with
              | .valid value => (.ok (.value value), ⟨db, answer.2⟩)
              | .raises e => (.error e, ⟨db, answer.2⟩)
              | .malformed e =>
                  match retries with
                  | 0 => (.error e, ⟨db, answer.2⟩)
                  | retries + 1 =>
                      chatStructured schema parse model system organizationId userId contexts
                        retries (attempt + 1)
                        (conversation ++
                          [⟨"assistant", outcome.response.content⟩, ⟨"user", askAgain⟩])
                        ⟨db, answer.2⟩

/-- `LLMService.stream`, as far as its events are taken. -/
def stream (messages : List Message) (model system : Option String) (maxTokens : Option Nat)
    (provider : Option String) (organizationId : Option Id) (userId : Id)
    (context : RequestContext) (s : LlmState M) : Except LlmError TurnResult × LlmState M :=
  let request := buildRequest env messages model system maxTokens
  let answer := env.manager.stream s.manager request provider organizationId
  let sent := streamEvents
    (fun response => recordStream env response provider organizationId userId context)
    answer.1.1 s.db
  match sent.2, answer.1.2 with
  | .error e, _ => (.error e, ⟨s.db, answer.2⟩)
  | .ok db, some e => (.error e, ⟨db, answer.2⟩)
  | .ok db, none => (.ok (.events sent.1), ⟨db, answer.2⟩)

/-- `contexts` is what each of its attempts reads. -/
def Turn.take (contexts : Nat → RequestContext) (s : LlmState M) :
    Turn → Except LlmError TurnResult × LlmState M
  | .chat messages model system maxTokens provider organizationId userId conversationId =>
      Llm.chat env messages model system maxTokens provider organizationId userId conversationId
        (contexts 0) s
  | .chatStructured messages schema parse model system maxRetries organizationId userId =>
      Llm.chatStructured env schema parse model system organizationId userId contexts maxRetries 0
        messages s
  | .stream messages model system maxTokens provider organizationId userId =>
      Llm.stream env messages model system maxTokens provider organizationId userId (contexts 0) s

/-- A turn with what it reads of its context, and whether the caller commits it. -/
structure TurnCall where
  turn : Turn
  contexts : Nat → RequestContext
  commits : Bool

/-- The state that a turn leaves.  The manager takes nothing back. -/
def LlmState.take (s : LlmState M) (call : TurnCall) : LlmState M :=
  let s' := (call.turn.take env call.contexts s).2
  if call.commits then s' else ⟨s.db, s'.manager⟩

end YoutubeFactory.Llm
