import YoutubeFactory.LlmCore.Anthropic
import Mathlib.Data.List.Basic
import Mathlib.Data.List.Forall2

/-!
# The response cache

`_request_fingerprint` and `is_cacheable` of `app/core/llm/cache.py`, and when two calls that the
fingerprint takes for one are one to the provider.
-/

namespace YoutubeFactory.LlmCore

variable {A : Type}

structure FingerprintMessage where
  role : String
  content : String
deriving DecidableEq, Repr

/-- The payload of the fingerprint. -/
structure FingerprintPayload where
  model : String
  system : Option String
  maxTokens : Int
  messages : List FingerprintMessage
deriving DecidableEq, Repr

/-- `json.dumps` with sorted keys, and `sha256` with its `hexdigest`. -/
structure Hashing where
  dumps : FingerprintPayload → String
  sha256 : String → String

def Message.fingerprint (message : Message A) : FingerprintMessage :=
  ⟨message.role.value, message.content⟩

def ChatRequest.payload (request : ChatRequest A) : FingerprintPayload where
  model := request.model
  system := request.system
  maxTokens := request.maxTokens
  messages := request.messages.map Message.fingerprint

/-- `_request_fingerprint` -/
def Hashing.requestFingerprint (hashing : Hashing) (request : ChatRequest A) : String :=
  hashing.sha256 (hashing.dumps request.payload)

/-- `is_cacheable` -/
def ChatRequest.isCacheable (cacheEnabled : Bool) (request : ChatRequest A) : Bool :=
  cacheEnabled && request.tools.isEmpty && request.responseSchema.isNone

/-! ## What the fingerprint does not see -/

/-- Messages that are rendered with the same tools. -/
structure SameTools (m m' : Message A) : Prop where
  calls : m.role = .assistant → m.toolCalls = m'.toolCalls
  results : m.role = .user ∨ m.role = .tool → m.toolResults = m'.toolResults

/-- Calls that agree in what the fingerprint leaves out and the provider is given. -/
structure SameBeside (provider provider' : String) (r r' : ChatRequest A) : Prop where
  provider : provider = provider'
  stopSequences : r.stopSequences = r'.stopSequences
  thinking : (getModelInfo r.model).adaptiveThinkingOnly = true → r.thinking = r'.thinking
  sampling : (getModelInfo r.model).acceptsSamplingParams = true →
    r.temperature = r'.temperature ∧ r.topP = r'.topP ∧ r.topK = r'.topK
  tools : List.Forall₂ SameTools r.messages r'.messages

theorem ToolCall.map_block_inj {calls calls' : List (ToolCall A)} :
    calls.map ToolCall.block = calls'.map ToolCall.block ↔ calls = calls' := by
  refine (List.map_injective_iff.mpr ?_).eq_iff
  rintro ⟨_, _, _⟩ ⟨_, _, _⟩ h
  cases h
  rfl

theorem ToolResult.map_block_inj {results results' : List ToolResult} :
    results.map (ToolResult.block : ToolResult → Block A) = results'.map ToolResult.block ↔
      results = results' := by
  refine (List.map_injective_iff.mpr ?_).eq_iff
  rintro ⟨_, _, _⟩ ⟨_, _, _⟩ h
  cases h
  rfl

theorem orContent_inj {content : String} {blocks blocks' : List (Block A)} :
    orContent content blocks = orContent content blocks' ↔ blocks = blocks' := by
  cases blocks <;> cases blocks' <;> simp [orContent]

theorem Message.fingerprint_inj {m m' : Message A} :
    m.fingerprint = m'.fingerprint ↔ m.role = m'.role ∧ m.content = m'.content := by
  unfold Message.fingerprint
  rw [FingerprintMessage.mk.injEq, Role.value_injective.eq_iff]

/-- Two messages that look the same to the fingerprint. -/
theorem renderMessage_inj {m m' : Message A} (h : m.fingerprint = m'.fingerprint)
    (hsystem : m.isSystem = false) :
    renderMessage m = renderMessage m' ↔ SameTools m m' := by
  obtain ⟨hrole, hcontent⟩ := Message.fingerprint_inj.mp h
  unfold renderMessage
  rw [← hrole, ← hcontent]
  by_cases hassistant : m.role = .assistant
  · rw [if_pos hassistant, if_pos hassistant, RenderedMessage.mk.injEq, and_iff_right rfl,
      orContent_inj, List.append_cancel_left_eq, ToolCall.map_block_inj]
    refine ⟨fun hcalls => ⟨fun _ => hcalls, fun hother => ?_⟩, fun hsame => hsame.calls hassistant⟩
    rw [hassistant] at hother
    exact absurd hother (by decide)
  · have hother : m.role = .user ∨ m.role = .tool := by
      unfold Message.isSystem at hsystem
      cases hm : m.role <;> simp_all
    rw [if_neg hassistant, if_neg hassistant, RenderedMessage.mk.injEq, and_iff_right rfl,
      orContent_inj, List.append_cancel_right_eq, ToolResult.map_block_inj]
    exact ⟨fun hresults => ⟨fun h => absurd h hassistant, fun _ => hresults⟩,
      fun hsame => hsame.results hother⟩

theorem isSystem_of_fingerprint {m m' : Message A} (h : m.fingerprint = m'.fingerprint) :
    m.isSystem = m'.isSystem := by
  unfold Message.isSystem
  rw [(Message.fingerprint_inj.mp h).1]

/-- The system texts are in the fingerprint. -/
theorem systemContents_eq : ∀ {ms ms' : List (Message A)},
    ms.map Message.fingerprint = ms'.map Message.fingerprint →
      (ms.filter Message.isSystem).map Message.content =
        (ms'.filter Message.isSystem).map Message.content
  | [], [], _ => rfl
  | m :: ms, m' :: ms', h => by
      obtain ⟨hm, hms⟩ := List.cons.inj h
      have hsystem := isSystem_of_fingerprint hm
      have hrest := systemContents_eq hms
      cases hcase : m.isSystem with
      | false => rwa [List.filter_cons_of_neg (by simp [hcase]),
          List.filter_cons_of_neg (by simp [← hsystem, hcase])]
      | true =>
          rw [List.filter_cons_of_pos hcase, List.filter_cons_of_pos (hsystem ▸ hcase),
            List.map_cons, List.map_cons, (Message.fingerprint_inj.mp hm).2, hrest]

/-- Messages with one fingerprint are rendered alike if their tools are the same. -/
theorem rendered_inj : ∀ {ms ms' : List (Message A)},
    ms.map Message.fingerprint = ms'.map Message.fingerprint →
      ((ms.filter fun m => !m.isSystem).map renderMessage =
          (ms'.filter fun m => !m.isSystem).map renderMessage ↔
        List.Forall₂ SameTools ms ms')
  | [], [], _ => iff_of_true rfl .nil
  | m :: ms, m' :: ms', h => by
      obtain ⟨hm, hms⟩ := List.cons.inj h
      have hsystem := isSystem_of_fingerprint hm
      rw [List.forall₂_cons, ← rendered_inj hms]
      cases hcase : m.isSystem with
      | false =>
          rw [List.filter_cons_of_pos (by simp [hcase]),
            List.filter_cons_of_pos (by simp [← hsystem, hcase]), List.map_cons, List.map_cons,
            List.cons.injEq, renderMessage_inj hm hcase]
      | true =>
          rw [List.filter_cons_of_neg (by simp [hcase]),
            List.filter_cons_of_neg (by simp [← hsystem, hcase])]
          refine (and_iff_right ⟨fun hrole => ?_, fun hrole => ?_⟩).symm
          · simp [Message.isSystem, hrole] at hcase
          · rcases hrole with hrole | hrole <;> simp [Message.isSystem, hrole] at hcase

/-- Requests without tools that the fingerprint takes for one give the provider the same
parameters if they agree beside it. -/
theorem buildParams_inj {r r' : ChatRequest A} (hpayload : r.payload = r'.payload)
    (htools : r.tools = []) (htools' : r'.tools = []) (provider : String) :
    buildParams r = buildParams r' ↔ SameBeside provider provider r r' := by
  rw [ChatRequest.payload, ChatRequest.payload, FingerprintPayload.mk.injEq] at hpayload
  obtain ⟨hmodel, hsystem, htokens, hmessages⟩ := hpayload
  have hparts := systemContents_eq hmessages
  have hrendered := rendered_inj hmessages
  have hstop : ((if r.stopSequences = [] then none else some r.stopSequences) =
      if r'.stopSequences = [] then none else some r'.stopSequences) ↔
        r.stopSequences = r'.stopSequences := by
    cases r.stopSequences <;> cases r'.stopSequences <;> simp
  have hthinking : ∀ adaptive thinking thinking' : Bool,
      ((if thinking && adaptive then some "adaptive" else none) =
        if thinking' && adaptive then some "adaptive" else none) ↔
          (adaptive = true → thinking = thinking') := by decide
  have hsampling : ∀ (accepts : Bool) {B : Type} (value value' : Option B),
      ((if accepts then value else none) = if accepts then value' else none) ↔
        (accepts = true → value = value') := by
    intro accepts B value value'
    cases accepts <;> simp
  unfold buildParams splitSystem
  dsimp only
  rw [← hmodel, ← htokens, ← hsystem, hparts, htools, htools', Params.mk.injEq, hrendered, hstop,
    hthinking, hsampling, hsampling, hsampling]
  constructor
  · rintro ⟨-, -, htools, -, hstop, -, hthinking, htemperature, htopP, htopK⟩
    exact ⟨rfl, hstop, hthinking, fun h => ⟨htemperature h, htopP h, htopK h⟩, htools⟩
  · intro h
    exact ⟨rfl, rfl, h.tools, rfl, h.stopSequences, rfl, h.thinking, fun ha => (h.sampling ha).1,
      fun ha => (h.sampling ha).2.1, fun ha => (h.sampling ha).2.2⟩

/-- Two cacheable calls with one fingerprint are one call to the provider, as long as equal
payloads mean that they agree beside them. -/
theorem fingerprint_sound_iff (hashing : Hashing) (cacheEnabled : Bool)
    (provider provider' : String) (r r' : ChatRequest A)
    (hcacheable : r.isCacheable cacheEnabled = true)
    (hcacheable' : r'.isCacheable cacheEnabled = true)
    (hdistinct : hashing.requestFingerprint r = hashing.requestFingerprint r' →
      r.payload = r'.payload) :
    (hashing.requestFingerprint r = hashing.requestFingerprint r' →
        provider = provider' ∧ buildParams r = buildParams r') ↔
      (r.payload = r'.payload → SameBeside provider provider' r r') := by
  have htools : ∀ {q : ChatRequest A}, q.isCacheable cacheEnabled = true → q.tools = [] := by
    intro q hq
    unfold ChatRequest.isCacheable at hq
    rw [Bool.and_eq_true, Bool.and_eq_true] at hq
    exact List.isEmpty_iff.mp hq.1.2
  constructor
  · intro h hpayload
    obtain ⟨rfl, hparams⟩ := h (by unfold Hashing.requestFingerprint; rw [hpayload])
    exact (buildParams_inj hpayload (htools hcacheable) (htools hcacheable') provider).mp hparams
  · intro h hfingerprint
    have hpayload := hdistinct hfingerprint
    have hsame := h hpayload
    obtain rfl := hsame.provider
    exact ⟨rfl, (buildParams_inj hpayload (htools hcacheable) (htools hcacheable') provider).mpr
      hsame⟩

/-! ## Requests that are taken for one -/

/-- Greetings that differ in what the fingerprint does not see. -/
def greeting (stopSequences : List String) (thinking : Bool) : ChatRequest Unit where
  messages := [.user "hi"]
  model := "claude-haiku-4-5"
  maxTokens := 4096
  system := none
  temperature := none
  topP := none
  topK := none
  stopSequences
  tools := []
  thinking
  responseSchema := none

/-- `json.dumps` of texts that need no escapes, and the digest of the greetings. -/
def plainHashing : Hashing where
  dumps payload :=
    let quote (text : String) := "\"" ++ text ++ "\""
    let message (m : FingerprintMessage) :=
      "\x7b\"content\": " ++ quote m.content ++ ", \"role\": " ++ quote m.role ++ "\x7d"
    "\x7b\"max_tokens\": " ++ toString payload.maxTokens ++ ", \"messages\": [" ++
      String.intercalate ", " (payload.messages.map message) ++ "], \"model\": " ++
      quote payload.model ++ ", \"system\": " ++ (payload.system.map quote).getD "null" ++ "\x7d"
  sha256 raw :=
    if raw =
        "\x7b\"max_tokens\": 4096, " ++
        "\"messages\": [\x7b\"content\": \"hi\", \"role\": \"user\"\x7d], " ++
        "\"model\": \"claude-haiku-4-5\", \"system\": null\x7d" then
      "ffba88d054881f199f170ae3727a73ef8b225d0ef85f4081bcfd7640e87f9c90"
    else raw

/-- Thinking is no parameter of this model. -/
theorem same_greeting :
    "anthropic" = "anthropic" ∧
      buildParams (greeting ["END"] true) = buildParams (greeting ["END"] false) :=
  (fingerprint_sound_iff plainHashing true "anthropic" "anthropic" (greeting ["END"] true)
    (greeting ["END"] false) rfl rfl fun _ => rfl).mpr (fun _ =>
      ⟨rfl, rfl, fun h => absurd h (by decide), fun _ => ⟨rfl, rfl, rfl⟩,
        .cons ⟨fun _ => rfl, fun _ => rfl⟩ .nil⟩) rfl

/-- One fingerprint, two providers and two lists of stop sequences. -/
theorem greetings_confused :
    (greeting [] true).isCacheable true = true ∧ (greeting ["END"] true).isCacheable true = true ∧
      plainHashing.requestFingerprint (greeting [] true) =
        plainHashing.requestFingerprint (greeting ["END"] true) ∧
      ¬ "mock" = "anthropic" ∧
      buildParams (greeting [] true) ≠ buildParams (greeting ["END"] true) :=
  ⟨rfl, rfl, rfl, by decide, by decide⟩

end YoutubeFactory.LlmCore
