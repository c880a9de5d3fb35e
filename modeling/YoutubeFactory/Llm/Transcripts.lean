import YoutubeFactory.Llm.Versions
import YoutubeFactory.LlmCore.Messages

/-!
# The transcript of a conversation

`ConversationService.append` and `load_runtime` of
`app/services/llm/conversation_service.py`, with the tool calls of a message and with the
runtime conversation of `app/core/llm/conversation.py`.

A message is numbered after the latest one of its conversation, so the rows of a
conversation are numbered from one on in the order of the calls, whatever is appended to
others in between (`Recorded`).  What is loaded is read off these rows, the tool calls
apart: `load_runtime` builds each message from its role and its content alone.
-/

namespace YoutubeFactory.Llm

open Access Python

/-! ## The code -/

/-- The arguments of `append`. -/
structure Appended where
  conversationId : Id
  role : LlmCore.Role
  content : String
  actorId : Option Id
  tokens : Nat
  toolCalls : Option (List Json)

namespace ConversationService

/-- `ConversationService.append`.  The conversation is a foreign key. -/
def append (call : Appended) : LlmM Unit := do
  if ((← get).getConversation call.conversationId).isSome then
    let sequence := (← get).nextSequence call.conversationId
    let id := (← get).nextId
    modify fun db => db.insertMessage
      { id
        conversationId := call.conversationId
        sequence
        role := call.role.value
        content := call.content
        toolCalls := call.toolCalls.getD []
        tokens := call.tokens
        createdBy := call.actorId
        updatedBy := call.actorId }
  else throw (.api .integrity)

/-- What `load_runtime` may raise. -/
inductive LoadError where
  | api (error : ApiError)
  | valueError (text : String)

/-- `Role(value)` -/
def roleOf (value : String) : Except LoadError LlmCore.Role :=
  match [LlmCore.Role.system, .user, .assistant, .tool, .developer].find? fun role =>
      role.value = value with
  | some role => .ok role
  | none => .error (.valueError s!"'{value}' is not a valid Role")

/-- A conversation of `app/core/llm/conversation.py`. -/
structure Runtime where
  id : Id
  system : Option String
  messages : List (LlmCore.Message Json)

/-- The message that `load_runtime` builds from a row. -/
def runtimeMessage (row : ConversationMessage) : Except LoadError (LlmCore.Message Json) := do
  let role ← roleOf row.role
  pure { role, content := row.content, toolCalls := [], toolResults := [] }

/-- `ConversationService.load_runtime` -/
def loadRuntime (db : LlmDb) (conversationId : Id) : Except LoadError Runtime :=
  match (db.getConversation conversationId).filter fun c => c.deletedAt.isNone with
  | none => .error (.api (.notFound "Conversation not found." []))
  | some record => do
      let messages ← (db.listForConversation conversationId).mapM runtimeMessage
      pure { id := record.id, system := record.system, messages }

end ConversationService

open ConversationService

/-- A call in its transaction. -/
def LlmDb.append (db : LlmDb) (call : Appended) : LlmDb :=
  Run.commit db ((ConversationService.append call).run db)

/-- The rows of a conversation, in the order in which they were added. -/
def LlmDb.messagesOf (db : LlmDb) (conversationId : Id) : List ConversationMessage :=
  db.messages.filter fun m => m.conversationId = conversationId

/-- The calls for a conversation. -/
def callsOf (conversationId : Id) (calls : List Appended) : List Appended :=
  calls.filter fun call => call.conversationId = conversationId

/-- A tool call as it is stored. -/
def toolCallDict (call : LlmCore.ToolCall Json) : Json :=
  .dict [("id", .str call.id), ("name", .str call.name), ("arguments", call.arguments)]

/-! ## One call -/

section

variable {db : LlmDb} {conversationId : Id}

/-- The row that `append` adds. -/
def appendedRow (db : LlmDb) (call : Appended) : ConversationMessage where
  id := db.nextId
  conversationId := call.conversationId
  sequence := db.nextSequence call.conversationId
  role := call.role.value
  content := call.content
  toolCalls := call.toolCalls.getD []
  tokens := call.tokens
  createdBy := call.actorId
  updatedBy := call.actorId

theorem append_cases (db : LlmDb) (call : Appended) :
    (db.getConversation call.conversationId = none ∧ db.append call = db) ∨
      db.append call = db.insertMessage (appendedRow db call) := by
  unfold LlmDb.append ConversationService.append
  rw [StateT.run_bind, StateT.run_get, pure_bind]
  cases hrecord : db.getConversation call.conversationId with
  | none => exact .inl ⟨rfl, rfl⟩
  | some record => exact .inr rfl

/-- The turns that the chat records are appended without tool calls. -/
theorem appendMessage_eq (conversationId : Id) (role : LlmCore.Role) (content : String)
    (actorId : Id) (tokens : Nat) :
    appendMessage conversationId role.value content actorId tokens =
      ConversationService.append
        ⟨conversationId, role, content, some actorId, tokens, none⟩ := rfl

theorem getConversation_append (db : LlmDb) (call : Appended) (conversationId : Id) :
    (db.append call).getConversation conversationId = db.getConversation conversationId := by
  rcases append_cases db call with ⟨-, hsame⟩ | hrow
  · rw [hsame]
  · rw [hrow]
    rfl

/-- A call adds a row to its own conversation only. -/
theorem messagesOf_append (hrecord : (db.getConversation conversationId).isSome = true)
    (call : Appended) : (db.append call).messagesOf conversationId =
      db.messagesOf conversationId ++
        if call.conversationId = conversationId then [appendedRow db call] else [] := by
  have hrow : (db.insertMessage (appendedRow db call)).messagesOf conversationId =
      db.messagesOf conversationId ++
        if call.conversationId = conversationId then [appendedRow db call] else [] := by
    show (db.messages ++ [appendedRow db call]).filter _ = _
    rw [List.filter_append, LlmDb.messagesOf]
    by_cases hid : call.conversationId = conversationId
    · simp [appendedRow, hid]
    · simp [appendedRow, hid]
  rcases append_cases db call with ⟨hnone, hsame⟩ | hadded
  · by_cases hid : call.conversationId = conversationId
    · rw [← hid, hnone] at hrecord
      cases hrecord
    · rw [hsame, if_neg hid, List.append_nil]
  · rw [hadded, hrow]

end

/-! ## What is recorded -/

/-- What a row keeps of the call that added it. -/
def Keeps (row : ConversationMessage) (call : Appended) : Prop :=
  row.role = call.role.value ∧ row.content = call.content ∧
    row.toolCalls = call.toolCalls.getD []

/-- The rows of a conversation after these calls for it. -/
structure Recorded (db : LlmDb) (conversationId : Id) (done : List Appended) : Prop where
  numbers : (db.messagesOf conversationId).map (·.sequence) = fromOne done.length
  kept : List.Forall₂ Keeps (db.messagesOf conversationId) done

namespace Recorded

variable {db : LlmDb} {conversationId : Id} {done : List Appended}

theorem nextSequence (h : Recorded db conversationId done) :
    db.nextSequence conversationId = done.length + 1 := by
  have hlatest := latest_of_fromOne h.numbers
  rw [LlmDb.nextSequence]
  exact congrArg (· + 1) hlatest

theorem append (h : Recorded db conversationId done)
    (hrecord : (db.getConversation conversationId).isSome = true) (call : Appended) :
    Recorded (db.append call) conversationId (done ++ callsOf conversationId [call]) := by
  by_cases hid : call.conversationId = conversationId
  · have hcalls : callsOf conversationId [call] = [call] := by simp [callsOf, hid]
    have hrows := messagesOf_append hrecord call
    rw [if_pos hid] at hrows
    rw [hcalls]
    refine ⟨?_, ?_⟩
    · rw [hrows, List.map_append, h.numbers, List.length_append, List.length_singleton,
        fromOne_succ, ← h.nextSequence, ← hid]
      rfl
    · rw [hrows]
      exact List.rel_append h.kept (.cons ⟨rfl, rfl, rfl⟩ .nil)
  · have hcalls : callsOf conversationId [call] = [] := by simp [callsOf, hid]
    have hrows := messagesOf_append hrecord call
    rw [if_neg hid, List.append_nil] at hrows
    rw [hcalls, List.append_nil]
    exact ⟨hrows ▸ h.numbers, hrows ▸ h.kept⟩

/-- After a run. -/
theorem run (calls : List Appended) (h : Recorded db conversationId done)
    (hrecord : (db.getConversation conversationId).isSome = true) :
    Recorded (Run.run LlmDb.append db calls) conversationId
      (done ++ callsOf conversationId calls) := by
  induction calls generalizing db done with
  | nil => rwa [callsOf, List.filter_nil, List.append_nil]
  | cons call calls ih =>
      have hnext : ((db.append call).getConversation conversationId).isSome = true := by
        rwa [getConversation_append]
      have hrun := ih (h.append hrecord call) hnext
      have hsplit : callsOf conversationId (call :: calls) =
          callsOf conversationId [call] ++ callsOf conversationId calls := by
        rw [callsOf, ← List.singleton_append, List.filter_append, callsOf, callsOf]
      rwa [List.append_assoc, ← hsplit] at hrun

/-- The rows are listed in the order in which they were added. -/
theorem listForConversation (h : Recorded db conversationId done) :
    db.listForConversation conversationId = db.messagesOf conversationId := by
  refine List.Pairwise.insertionSort_eq ?_
  have hsorted : ((db.messagesOf conversationId).map (·.sequence)).Pairwise (· ≤ ·) := by
    rw [h.numbers, fromOne, List.pairwise_map]
    exact List.pairwise_lt_range.imp fun hlt => by omega
  exact List.pairwise_map.mp hsorted

end Recorded

/-! ## What is loaded -/

/-- A message as it was appended. -/
def Restores (message : LlmCore.Message Json) (call : Appended) : Prop :=
  message.role = call.role ∧ message.content = call.content ∧
    message.toolCalls.map toolCallDict = call.toolCalls.getD []

/-- The rows are numbered in the order of the calls, and every message is loaded as it was
appended. -/
structure RoundTrips (db : LlmDb) (conversationId : Id) (done : List Appended) : Prop where
  numbered : (db.messagesOf conversationId).map (·.sequence) = fromOne done.length
  loaded : ∃ runtime, loadRuntime db conversationId = .ok runtime ∧
    List.Forall₂ Restores runtime.messages done

/-- What `load_runtime` makes of a call. -/
def loadedMessage (call : Appended) : LlmCore.Message Json where
  role := call.role
  content := call.content
  toolCalls := []
  toolResults := []

theorem roleOf_value (role : LlmCore.Role) : roleOf role.value = .ok role := by
  cases role
  all_goals rfl

theorem runtimeMessage_of_keeps {row : ConversationMessage} {call : Appended}
    (h : Keeps row call) : runtimeMessage row = .ok (loadedMessage call) := by
  obtain ⟨hrole, hcontent, -⟩ := h
  rw [runtimeMessage, hrole, hcontent, roleOf_value]
  rfl

theorem mapM_runtimeMessage {rows : List ConversationMessage} {done : List Appended}
    (h : List.Forall₂ Keeps rows done) :
    rows.mapM runtimeMessage = .ok (done.map loadedMessage) := by
  induction h with
  | nil => rfl
  | cons hrow _ ih =>
      rw [List.mapM_cons, runtimeMessage_of_keeps hrow, ih]
      rfl

section

variable {db : LlmDb} {conversationId : Id} {record : Conversation} {done : List Appended}

theorem Recorded.loadRuntime (h : Recorded db conversationId done)
    (hrecord : db.getConversation conversationId = some record)
    (hlive : record.deletedAt = none) : ConversationService.loadRuntime db conversationId =
      .ok { id := record.id, system := record.system, messages := done.map loadedMessage } := by
  have hfilter : (db.getConversation conversationId).filter (fun c => c.deletedAt.isNone) =
      some record := by
    rw [hrecord, Option.filter_some, if_pos (by rw [hlive]; rfl)]
  unfold ConversationService.loadRuntime
  rw [hfilter, h.listForConversation]
  simp only
  rw [mapM_runtimeMessage h.kept]
  rfl

/-- A message is restored unless it was appended with tool calls. -/
theorem restores_loadedMessage_iff (call : Appended) :
    Restores (loadedMessage call) call ↔ call.toolCalls.getD [] = [] :=
  ⟨fun h => h.2.2.symm, fun h => ⟨rfl, rfl, h.symm⟩⟩

theorem forall₂_loadedMessage_iff : List.Forall₂ Restores (done.map loadedMessage) done ↔
    ∀ call ∈ done, call.toolCalls.getD [] = [] := by
  rw [List.forall₂_map_left_iff, List.forall₂_same]
  exact forall₂_congr fun call _ => restores_loadedMessage_iff call

/-- A conversation without messages gets the messages of a run of calls on any conversations.  It is
numbered and loaded as they were appended if and only if none of its messages has tool calls. -/
theorem conversation_round_trips_iff (hrecord : db.getConversation conversationId = some record)
    (hlive : record.deletedAt = none) (hfresh : db.messagesOf conversationId = [])
    (calls : List Appended) :
    RoundTrips (Run.run LlmDb.append db calls) conversationId (callsOf conversationId calls) ↔
      ∀ call ∈ callsOf conversationId calls, call.toolCalls.getD [] = [] := by
  have hstart : Recorded db conversationId [] := by
    refine ⟨?_, ?_⟩
    · rw [hfresh]
      rfl
    · rw [hfresh]
      exact .nil
  have hexists : (db.getConversation conversationId).isSome = true := by
    rw [hrecord]
    rfl
  have hrun := hstart.run calls hexists
  rw [List.nil_append] at hrun
  have hstays : (Run.run LlmDb.append db calls).getConversation conversationId = some record :=
    @Run.run_invariant _ _ LlmDb.append (fun db => db.getConversation conversationId = some record)
      (fun db call h => (getConversation_append db call conversationId).trans h) calls db hrecord
  have hload := hrun.loadRuntime hstays hlive
  constructor
  · rintro ⟨-, runtime, hruntime, hrestores⟩
    rw [hload] at hruntime
    cases hruntime
    exact forall₂_loadedMessage_iff.mp hrestores
  · intro hnone
    exact ⟨hrun.numbers, _, hload, forall₂_loadedMessage_iff.mpr hnone⟩

end

/-- Two conversations of an organization. -/
def twoConversations : LlmDb where
  access := { users := [], roles := [], members := [] }
  organizations := [⟨"First", none⟩]
  templates := []
  versions := []
  conversations :=
    [⟨0, 0, some 0, none, "claude-opus-4-8", none, some 0, some 0, 60, none⟩,
      ⟨1, 0, some 0, none, "claude-opus-4-8", none, some 0, some 0, 60, none⟩]
  messages := []
  requests := []
  usage := []
  costs := []
  nextId := 2
  templates_lt := nofun
  conversations_lt := by decide

/-- A question and its answer, with a question in another conversation in between. -/
theorem conversation_round_trips_three :
    RoundTrips (Run.run LlmDb.append twoConversations
      [⟨0, .user, "How many videos?", some 0, 3, none⟩, ⟨1, .user, "Hello", some 0, 1, none⟩,
        ⟨0, .assistant, "Seven.", some 0, 2, some []⟩]) 0
      [⟨0, .user, "How many videos?", some 0, 3, none⟩,
        ⟨0, .assistant, "Seven.", some 0, 2, some []⟩] :=
  (@conversation_round_trips_iff twoConversations 0 _ rfl rfl rfl _).mpr (by decide)

/-- An answer that calls a tool is loaded without the call. -/
theorem not_round_trips_tool_call :
    ¬ RoundTrips (Run.run LlmDb.append twoConversations
      [⟨0, .assistant, "", some 0, 2,
        some [toolCallDict ⟨"call-1", "count_videos", .dict []⟩]⟩]) 0
      [⟨0, .assistant, "", some 0, 2,
        some [toolCallDict ⟨"call-1", "count_videos", .dict []⟩]⟩] := by
  rintro ⟨-, runtime, hruntime, hrestores⟩
  cases hruntime
  cases hrestores with
  | cons hfirst _ => cases hfirst.2.2

end YoutubeFactory.Llm
