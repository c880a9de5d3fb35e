import YoutubeFactory.Python.Json
import Mathlib.Algebra.Order.Ring.Rat

/-!
# Messages of the LLM framework

The types of `app/core/llm/messages.py`, the exceptions of `exceptions.py` and the catalog of
`models.py`.  `A` is the type of the Python objects that are handed on as they are: the arguments
of tools, their declarations, and schemas.
-/

namespace YoutubeFactory.LlmCore

open Python

inductive Role where
  | system | user | assistant | tool | developer
deriving DecidableEq, Repr

def Role.value : Role → String
  | system => "system"
  | user => "user"
  | assistant => "assistant"
  | tool => "tool"
  | developer => "developer"

theorem Role.value_injective : Function.Injective Role.value := by
  intro a b h
  cases a <;> cases b <;> first | rfl | exact absurd h (by decide)

inductive StopReason where
  | endTurn | maxTokens | stopSequence | toolUse | refusal | error
deriving DecidableEq, Repr

structure ToolCall (A : Type) where
  id : String
  name : String
  arguments : A
deriving DecidableEq, Repr

structure ToolResult where
  toolCallId : String
  content : String
  isError : Bool
deriving DecidableEq, Repr

structure Message (A : Type) where
  role : Role
  content : String
  toolCalls : List (ToolCall A)
  toolResults : List ToolResult
deriving DecidableEq, Repr

/-- `Message.user` -/
def Message.user {A : Type} (content : String) : Message A := ⟨.user, content, [], []⟩

structure Usage where
  inputTokens : Nat
  outputTokens : Nat
  cacheReadTokens : Nat
  cacheWriteTokens : Nat
deriving DecidableEq, Repr

structure ChatRequest (A : Type) where
  messages : List (Message A)
  model : String
  maxTokens : Int
  system : Option String
  temperature : Option ℚ
  topP : Option ℚ
  topK : Option Int
  stopSequences : List String
  tools : List A
  thinking : Bool
  responseSchema : Option A
deriving DecidableEq

structure ChatResponse (A : Type) where
  content : String
  model : String
  stopReason : StopReason
  toolCalls : List (ToolCall A)
  usage : Usage
deriving DecidableEq

/-! ## Exceptions -/

/-- `LLMError` and its subclasses. -/
inductive LlmErrorKind where
  | llmError | providerNotAvailable | rateLimit | timeout | structuredOutput | circuitOpen
  | promptRender
deriving DecidableEq, Repr

/-- The messages of the classes that are raised without one. -/
def LlmErrorKind.message : LlmErrorKind → String
  | llmError => "An LLM request failed."
  | providerNotAvailable => "The requested LLM provider is not available."
  | rateLimit => "LLM rate limit exceeded."
  | timeout => "The LLM request timed out."
  | structuredOutput => "The model response did not match the expected schema."
  | circuitOpen => "The LLM provider is temporarily unavailable (circuit open)."
  | promptRender => "The prompt template could not be rendered."

/-- What a call may raise.  `cancelled` is a `BaseException` and no `Exception`. -/
inductive Exc where
  | llm (kind : LlmErrorKind) (message : String) (details : List (String × Json))
  | timeoutError (text : String)
  | connectionError (text : String)
  | other (text : String)
  | cancelled

/-- `str(exc)` -/
def Exc.text : Exc → String
  | llm _ message _ => message
  | timeoutError text => text
  | connectionError text => text
  | other text => text
  | cancelled => ""

/-- `isinstance(exc, Exception)` -/
def Exc.isException : Exc → Bool
  | cancelled => false
  | _ => true

/-! ## Models -/

/-- `ModelInfo`, without prices and limits. -/
structure ModelInfo where
  id : String
  acceptsSamplingParams : Bool
  adaptiveThinkingOnly : Bool
deriving DecidableEq, Repr

/-- `_CATALOG` -/
def catalog : List ModelInfo :=
  [⟨"claude-opus-4-8", false, true⟩, ⟨"claude-opus-4-7", false, true⟩,
    ⟨"claude-sonnet-5", false, true⟩, ⟨"claude-haiku-4-5", true, false⟩]

/-- `get_model_info` -/
def getModelInfo (model : String) : ModelInfo :=
  (catalog.find? fun info => info.id = model).getD ⟨model, false, true⟩

end YoutubeFactory.LlmCore
