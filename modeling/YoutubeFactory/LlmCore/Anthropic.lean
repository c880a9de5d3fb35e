import YoutubeFactory.LlmCore.Messages

/-!
# The Anthropic provider's translation

How `AnthropicProvider` of `app/core/llm/providers/anthropic.py` turns a `ChatRequest` into the
parameters of a call of the SDK, and the message that comes back into a `ChatResponse`.
-/

namespace YoutubeFactory.LlmCore

variable {A : Type}

/-! ## Parameters -/

inductive Block (A : Type) where
  | text (text : String)
  | toolUse (id name : String) (input : A)
  | toolResult (toolUseId content : String) (isError : Bool)
deriving DecidableEq, Repr

inductive Content (A : Type) where
  | blocks (blocks : List (Block A))
  | text (text : String)
deriving DecidableEq, Repr

structure RenderedMessage (A : Type) where
  role : String
  content : Content A
deriving DecidableEq, Repr

/-- The keyword arguments of `messages.create`.  `none` is a key that is not there, and
`thinking` is the type of the thinking. -/
structure Params (A : Type) where
  model : String
  maxTokens : Int
  messages : List (RenderedMessage A)
  system : Option String
  stopSequences : Option (List String)
  tools : Option (List A)
  thinking : Option String
  temperature : Option ℚ
  topP : Option ℚ
  topK : Option Int
deriving DecidableEq

/-- `blocks or content` -/
def orContent (content : String) : List (Block A) → Content A
  | [] => .text content
  | blocks => .blocks blocks

/-- `[{"type": "text", ...}] if content` -/
def textBlocks (content : String) : List (Block A) := if content = "" then [] else [.text content]

def ToolCall.block (call : ToolCall A) : Block A := .toolUse call.id call.name call.arguments

def ToolResult.block (result : ToolResult) : Block A :=
  .toolResult result.toolCallId result.content result.isError

/-- `_render_message` -/
def renderMessage (message : Message A) : RenderedMessage A :=
  if message.role = .assistant then
    ⟨"assistant", orContent message.content
      (textBlocks message.content ++ message.toolCalls.map ToolCall.block)⟩
  else
    ⟨"user", orContent message.content
      (message.toolResults.map ToolResult.block ++ textBlocks message.content)⟩

/-- The message belongs to the system text. -/
def Message.isSystem (message : Message A) : Bool :=
  message.role = .system ∨ message.role = .developer

/-- `_split_system` -/
def splitSystem (request : ChatRequest A) : Option String × List (RenderedMessage A) :=
  let parts := (request.system.filter (· ≠ "")).toList ++
    ((request.messages.filter Message.isSystem).map Message.content).filter (· ≠ "")
  let messages := (request.messages.filter fun m => !m.isSystem).map renderMessage
  (if parts = [] then none else some (String.intercalate "\n\n" parts), messages)

/-- `_build_params` -/
def buildParams (request : ChatRequest A) : Params A :=
  let info := getModelInfo request.model
  let (system, messages) := splitSystem request
  { model := request.model
    maxTokens := request.maxTokens
    messages
    system := system.filter (· ≠ "")
    stopSequences := if request.stopSequences = [] then none else some request.stopSequences
    tools := if request.tools.isEmpty then none else some request.tools
    thinking := if request.thinking && info.adaptiveThinkingOnly then some "adaptive" else none
    temperature := if info.acceptsSamplingParams then request.temperature else none
    topP := if info.acceptsSamplingParams then request.topP else none
    topK := if info.acceptsSamplingParams then request.topK else none }

/-! ## Responses -/

inductive SdkBlock (A : Type) where
  | text (text : String)
  | toolUse (id name : String) (input : A)
  | other
deriving DecidableEq, Repr

/-- `none` is an attribute that is missing or `None`. -/
structure SdkUsage where
  inputTokens : Nat
  outputTokens : Nat
  cacheReadInputTokens : Option Nat
deriving DecidableEq, Repr

structure SdkMessage (A : Type) where
  content : List (SdkBlock A)
  stopReason : Option String
  usage : Option SdkUsage
deriving DecidableEq, Repr

/-- `_map_stop_reason` -/
def mapStopReason (value : Option String) : StopReason :=
  match value.getD "" with
  | "end_turn" => .endTurn
  | "max_tokens" => .maxTokens
  | "stop_sequence" => .stopSequence
  | "tool_use" => .toolUse
  | "refusal" => .refusal
  | _ => .endTurn

def SdkBlock.text? : SdkBlock A → Option String
  | text s => some s
  | _ => none

def SdkBlock.toolCall? : SdkBlock A → Option (ToolCall A)
  | toolUse id name input => some ⟨id, name, input⟩
  | _ => none

/-- `_parse_response` -/
def parseResponse (message : SdkMessage A) (model : String) : ChatResponse A where
  content := String.join (message.content.filterMap SdkBlock.text?)
  model
  stopReason := mapStopReason message.stopReason
  toolCalls := message.content.filterMap SdkBlock.toolCall?
  usage :=
    match message.usage with
    | none => ⟨0, 0, 0, 0⟩
    | some usage =>
        ⟨usage.inputTokens, usage.outputTokens, usage.cacheReadInputTokens.getD 0, 0⟩

end YoutubeFactory.LlmCore
