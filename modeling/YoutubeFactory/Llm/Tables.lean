import YoutubeFactory.Access.Membership
import Mathlib.Data.List.Sort
import Mathlib.Data.Rat.Defs

/-!
# LLM tables

The tables of `app/models/llm.py` that the routes read and write, and the queries of
`app/repositories/llm.py`.

Ids of templates, conversations and messages are drawn with `uuid4` and are given to one row
only.  Here the next id is the one after all that have been drawn, so no row has it yet.
-/

namespace YoutubeFactory.Llm

open Access Python

/-- Days since the epoch. -/
abbrev Date := Int

/-! ## Errors -/

inductive LlmError where
  | api (error : ApiError)
  /-- An `LLMError` with its code. -/
  | llm (code message : String) (details : List (String × Json))
  /-- A query for one row that finds more. -/
  | multipleResults
  /-- What a template raises besides `TemplateError`. -/
  | template (text : String)

/-! ## Rows -/

/-- A variable as a version stores it. -/
structure PromptVariable where
  name : String
  required : Bool
  default : Json
  description : Option String

structure PromptTemplate where
  id : Id
  organizationId : Id
  name : String
  category : Option String
  description : Option String
  tags : List String
  status : String
  latestVersion : Int
  createdBy : Option Id
  updatedBy : Option Id
  createdAt : DateTime
  deletedAt : Option DateTime

structure PromptVersion where
  templateId : Id
  versionNumber : Int
  template : String
  /-- `variables` -/
  vars : List PromptVariable
  examples : List Json
  createdBy : Option Id
  updatedBy : Option Id
  deletedAt : Option DateTime

structure Conversation where
  id : Id
  organizationId : Id
  userId : Option Id
  title : Option String
  model : String
  system : Option String
  createdBy : Option Id
  updatedBy : Option Id
  createdAt : DateTime
  deletedAt : Option DateTime

structure ConversationMessage where
  id : Id
  conversationId : Id
  sequence : Int
  role : String
  content : String
  toolCalls : List Json
  tokens : Nat
  createdBy : Option Id
  updatedBy : Option Id

/-- `LLMRequest` -/
structure RequestRecord where
  organizationId : Option Id
  userId : Option Id
  conversationId : Option Id
  provider : String
  model : String
  status : String
  inputTokens : Nat
  outputTokens : Nat
  cachedTokens : Nat
  totalTokens : Nat
  costUsd : ℚ
  latencyMs : ℚ
  streamed : Bool
  cacheHit : Bool
  correlationId : Option String
  createdAt : DateTime

/-- `LLMUsageRollup` -/
structure UsageRollup where
  organizationId : Option Id
  usageDate : Date
  model : String
  inputTokens : Nat
  outputTokens : Nat
  totalTokens : Nat
  requestCount : Nat

/-- `LLMCostRollup` -/
structure CostRollup where
  organizationId : Option Id
  costDate : Date
  model : String
  inputCostUsd : ℚ
  outputCostUsd : ℚ
  totalCostUsd : ℚ

@[ext] structure LlmDb where
  access : AccessDb
  organizations : List Organization
  templates : List PromptTemplate
  versions : List PromptVersion
  conversations : List Conversation
  messages : List ConversationMessage
  requests : List RequestRecord
  usage : List UsageRollup
  costs : List CostRollup
  nextId : Id
  templates_lt : ∀ t ∈ templates, t.id < nextId
  conversations_lt : ∀ c ∈ conversations, c.id < nextId

namespace LlmDb

variable (db : LlmDb)

/-! ## Queries -/

def getTemplate (templateId : Id) : Option PromptTemplate :=
  db.templates.find? fun t => t.id = templateId

/-- `PromptTemplateRepository.get_by_name` -/
def getByName (organizationId : Id) (name : String) : Option PromptTemplate :=
  db.templates.find? fun t =>
    t.organizationId = organizationId ∧ t.name = name ∧ t.deletedAt = none

/-- `PromptVersionRepository.get_version` -/
def getVersion (templateId : Id) (version : Int) : Option PromptVersion :=
  db.versions.find? fun v =>
    v.templateId = templateId ∧ v.versionNumber = version ∧ v.deletedAt = none

/-- `PromptVersionRepository.list_for_template` -/
def listForTemplate (templateId : Id) : List PromptVersion :=
  (db.versions.filter fun v => v.templateId = templateId).insertionSort
    fun v v' => v'.versionNumber ≤ v.versionNumber

def getConversation (conversationId : Id) : Option Conversation :=
  db.conversations.find? fun c => c.id = conversationId

/-- `ConversationMessageRepository.list_for_conversation` -/
def listForConversation (conversationId : Id) : List ConversationMessage :=
  (db.messages.filter fun m => m.conversationId = conversationId).insertionSort
    fun m m' => m.sequence ≤ m'.sequence

/-- `ConversationMessageRepository.next_sequence` -/
def nextSequence (conversationId : Id) : Int :=
  let latest := ((db.messages.filter fun m => m.conversationId = conversationId).insertionSort
    fun m m' => m'.sequence ≤ m.sequence).head?
  ((latest.map (·.sequence)).getD 0) + 1

/-- `LLMUsageRollupRepository.get_for`, as a filter. -/
def usageFor (organizationId : Option Id) (date : Date) (model : String) : List UsageRollup :=
  db.usage.filter fun r =>
    r.organizationId = organizationId ∧ r.usageDate = date ∧ r.model = model

/-- `LLMCostRollupRepository.get_for`, as a filter. -/
def costsFor (organizationId : Option Id) (date : Date) (model : String) : List CostRollup :=
  db.costs.filter fun r =>
    r.organizationId = organizationId ∧ r.costDate = date ∧ r.model = model

/-- The foreign key of a row that names an organization. -/
def organizationExists (organizationId : Id) : Bool := organizationId < db.organizations.length

/-- The unique constraint on the name, deleted rows included. -/
def nameTaken (organizationId : Id) (name : String) : Bool :=
  db.templates.any fun t => t.organizationId = organizationId ∧ t.name = name

/-! ## Writes -/

/-- A template is added under the next id. -/
def insertTemplate (t : PromptTemplate) : LlmDb :=
  { db with
    templates := db.templates ++ [{ t with id := db.nextId }]
    nextId := db.nextId + 1
    templates_lt := by
      intro t' ht'
      rcases List.mem_append.mp ht' with hold | hnew
      · exact Nat.lt_succ_of_lt (db.templates_lt t' hold)
      · rw [List.mem_singleton.mp hnew]
        exact Nat.lt_succ_self _
    conversations_lt := fun c hc => Nat.lt_succ_of_lt (db.conversations_lt c hc) }

/-- The head of a template is moved. -/
def setHead (templateId : Id) (version : Int) (actorId : Id) : LlmDb :=
  { db with
    templates := db.templates.map fun t =>
      if t.id = templateId then { t with latestVersion := version, updatedBy := some actorId }
      else t
    templates_lt := by
      intro t' ht'
      obtain ⟨t, ht, rfl⟩ := List.mem_map.mp ht'
      split
      · exact db.templates_lt t ht
      · exact db.templates_lt t ht }

def insertVersion (v : PromptVersion) : LlmDb := { db with versions := db.versions ++ [v] }

/-- A conversation is added under the next id. -/
def insertConversation (c : Conversation) : LlmDb :=
  { db with
    conversations := db.conversations ++ [{ c with id := db.nextId }]
    nextId := db.nextId + 1
    templates_lt := fun t ht => Nat.lt_succ_of_lt (db.templates_lt t ht)
    conversations_lt := by
      intro c' hc'
      rcases List.mem_append.mp hc' with hold | hnew
      · exact Nat.lt_succ_of_lt (db.conversations_lt c' hold)
      · rw [List.mem_singleton.mp hnew]
        exact Nat.lt_succ_self _ }

/-- A message is added under the next id. -/
def insertMessage (m : ConversationMessage) : LlmDb :=
  { db with
    messages := db.messages ++ [{ m with id := db.nextId }]
    nextId := db.nextId + 1
    templates_lt := fun t ht => Nat.lt_succ_of_lt (db.templates_lt t ht)
    conversations_lt := fun c hc => Nat.lt_succ_of_lt (db.conversations_lt c hc) }

def insertRequest (r : RequestRecord) : LlmDb := { db with requests := db.requests ++ [r] }

/-- The counts are added to the day's row, or to a new one. -/
def countUsage (organizationId : Option Id) (date : Date) (model : String)
    (input output total : Nat) : LlmDb :=
  let counted (r : UsageRollup) : UsageRollup :=
    { r with
      inputTokens := r.inputTokens + input
      outputTokens := r.outputTokens + output
      totalTokens := r.totalTokens + total
      requestCount := r.requestCount + 1 }
  { db with usage :=
      if (db.usageFor organizationId date model).isEmpty then
        db.usage ++ [counted ⟨organizationId, date, model, 0, 0, 0, 0⟩]
      else
        db.usage.map fun r =>
          if r.organizationId = organizationId ∧ r.usageDate = date ∧ r.model = model then
            counted r
          else r }

/-- The costs are added to the day's row, or to a new one. -/
def countCosts (organizationId : Option Id) (date : Date) (model : String)
    (input output total : ℚ) : LlmDb :=
  let counted (r : CostRollup) : CostRollup :=
    { r with
      inputCostUsd := r.inputCostUsd + input
      outputCostUsd := r.outputCostUsd + output
      totalCostUsd := r.totalCostUsd + total }
  { db with costs :=
      if (db.costsFor organizationId date model).isEmpty then
        db.costs ++ [counted ⟨organizationId, date, model, 0, 0, 0⟩]
      else
        db.costs.map fun r =>
          if r.organizationId = organizationId ∧ r.costDate = date ∧ r.model = model then
            counted r
          else r }

end LlmDb

end YoutubeFactory.Llm
