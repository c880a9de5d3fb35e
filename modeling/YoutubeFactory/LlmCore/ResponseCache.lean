import YoutubeFactory.Cache.Texts
import YoutubeFactory.LlmCore.Manager
import YoutubeFactory.LlmCore.Memory

/-!
# The LLM cache

`LLMCache` of `app/core/llm/cache.py` in the service that stores texts, and `TokenCounter` of
`app/core/llm/tokenizer.py`.  A string of a response has no surrogate.

What is stored under a fingerprint is a text, and the fingerprint is a digest of a text.  Yet the
cache is a map from the contents of requests (`llmCache_refines`): two requests share an entry if
they have the same model, system, limit of tokens and messages, and an answer that is read is the
one that was stored, without its tool calls.
-/

namespace YoutubeFactory.LlmCore

open Python Cache

variable {A F : Type}

/-! ## Texts -/

/-- A `dict` as `sort_keys` writes it. -/
def sortedDict (entries : List (String × Dumpable F)) : Dumpable F :=
  strDict (entries.insertionSort fun a b => a.1 ≤ b.1)

def systemDump : Option String → Dumpable F
  | none => .none
  | some system => textDump system

def FingerprintMessage.dump (message : FingerprintMessage) : Dumpable F :=
  sortedDict [("role", textDump message.role), ("content", textDump message.content)]

def FingerprintPayload.dump (payload : FingerprintPayload) : Dumpable F :=
  sortedDict [("model", textDump payload.model),
    ("system", systemDump payload.system), ("max_tokens", .int payload.maxTokens),
    ("messages", .list (payload.messages.map FingerprintMessage.dump))]

def StopReason.value : StopReason → String
  | endTurn => "end_turn"
  | maxTokens => "max_tokens"
  | stopSequence => "stop_sequence"
  | toolUse => "tool_use"
  | refusal => "refusal"
  | error => "error"

/-- `StopReason(value)` -/
def StopReason.ofValue? (value : String) : Option StopReason :=
  [endTurn, maxTokens, stopSequence, toolUse, refusal, error].find? fun reason =>
    reason.value = value

/-- `asdict(usage)` -/
def Usage.dump (usage : Usage) : Dumpable F :=
  strDict [("input_tokens", .int usage.inputTokens), ("output_tokens", .int usage.outputTokens),
    ("cache_read_tokens", .int usage.cacheReadTokens),
    ("cache_write_tokens", .int usage.cacheWriteTokens)]

def CachedResponse.dump (response : CachedResponse) : Dumpable F :=
  strDict [("content", textDump response.content), ("model", textDump response.model),
    ("stop_reason", textDump response.stopReason.value), ("usage", response.usage.dump)]

/-- A count of `Usage(**data)`.  It is zero by default. -/
def readCount (data : Loaded F) (name : String) : Option Nat :=
  match data.get? name with
  | none => some 0
  | some (.int (.ofNat count)) => some count
  | some _ => none

/-- `Usage(**data)` -/
def readUsage (data : Loaded F) : Option Usage := do
  let names := ["input_tokens", "output_tokens", "cache_read_tokens", "cache_write_tokens"]
  match data with
  | .dict entries =>
      if entries.all fun entry => names.any fun name => entry.1 = readText name then
        pure ⟨← readCount data "input_tokens", ← readCount data "output_tokens",
          ← readCount data "cache_read_tokens", ← readCount data "cache_write_tokens"⟩
      else none
  | _ => none

/-- The response that `get_response` makes of what it found. -/
def readResponse (data : Loaded F) : Option CachedResponse := do
  let content ← (← data.get? "content").text?
  let model ← (← data.get? "model").text?
  let stopReason ← StopReason.ofValue? (← (← data.get? "stop_reason").text?)
  let usage ← readUsage (← data.get? "usage")
  pure ⟨content, model, stopReason, usage⟩

def CachedResponse.response (cached : CachedResponse) : ChatResponse A :=
  ⟨cached.content, cached.model, cached.stopReason, [], cached.usage⟩

def ChatResponse.cached (response : ChatResponse A) : CachedResponse :=
  ⟨response.content, response.model, response.stopReason, response.usage⟩

/-! ## The cache -/

/-- What is found is no JSON, or nothing that the cache stores. -/
inductive CacheFault where
  | decode (fault : DecodeFault)
  | malformed
deriving DecidableEq

/-- The settings of the cache are `llm_cache_enabled` and `llm_cache_ttl_seconds`. -/
structure LLMCache (F : Type) where
  cache : JsonCache F
  sha256 : String → String
  cacheEnabled : Bool
  ttlSeconds : Int

namespace LLMCache

variable (llm : LLMCache F)

/-- `_RESPONSE_NS` -/
def responseNs : String := "llm:response"

/-- `_TOKENS_NS` -/
def tokensNs : String := "llm:tokens"

def hashing : Hashing where
  dumps payload := String.ofList (llm.cache.text payload.dump)
  sha256 := llm.sha256

/-- `_request_fingerprint` -/
def fingerprint (request : ChatRequest A) : String := llm.hashing.requestFingerprint request

def getResponse (store : TextStore) (now : ℚ) (request : ChatRequest A) :
    Except CacheFault (Option (ChatResponse A)) × TextStore :=
  if !request.isCacheable llm.cacheEnabled then (.ok none, store)
  else
    let (data, store) := llm.cache.get store now responseNs (llm.fingerprint request)
    (match data with
      | .error fault => .error (.decode fault)
      | .ok .null => .ok none
      | .ok data =>
          match readResponse data with
          | none => .error .malformed
          | some cached => .ok (some cached.response), store)

def setResponse (store : TextStore) (now : ℚ) (request : ChatRequest A)
    (response : ChatResponse A) : TextStore :=
  if !request.isCacheable llm.cacheEnabled then store
  else llm.cache.set store now responseNs (llm.fingerprint request) response.cached.dump
    (some llm.ttlSeconds)

def getTokenCount (store : TextStore) (now : ℚ) (request : ChatRequest A) :
    Except CacheFault (Option Int) × TextStore :=
  let (data, store) := llm.cache.get store now tokensNs (llm.fingerprint request)
  (match data with
    | .error fault => .error (.decode fault)
    | .ok .null => .ok none
    | .ok (.int count) => .ok (some count)
    | .ok _ => .error .malformed, store)

def setTokenCount (store : TextStore) (now : ℚ) (request : ChatRequest A) (count : Int) :
    TextStore :=
  llm.cache.set store now tokensNs (llm.fingerprint request) (.int count) (some llm.ttlSeconds)

end LLMCache

/-- `TokenCounter.count`.  The provider counts or raises an exception, and answers `later`. -/
def LLMCache.count (llm : LLMCache F) (store : TextStore) (now later : ℚ)
    (request : ChatRequest A) (counted : Option Int) : Except CacheFault Int × TextStore :=
  match llm.getTokenCount store now request with
  | (.error fault, store) => (.error fault, store)
  | (.ok (some cached), store) => (.ok cached, store)
  | (.ok none, store) =>
      let count := counted.getD (heuristicTokenCount request)
      (.ok count, llm.setTokenCount store later request count)

/-! ## Runs -/

/-- A call of the cache, of the counter, or of others that use the service. -/
inductive LlmCall (A F : Type) where
  | getResponse (request : ChatRequest A)
  | setResponse (request : ChatRequest A) (response : ChatResponse A)
  | getTokenCount (request : ChatRequest A)
  | setTokenCount (request : ChatRequest A) (count : Int)
  | count (request : ChatRequest A) (counted : Option Int) (later : ℚ)
  | other (call : JsonCall F)

inductive LlmAnswer (A : Type) where
  | response (found : Except CacheFault (Option (ChatResponse A)))
  | found (count : Except CacheFault (Option Int))
  | tokens (count : Except CacheFault Int)
  | done
deriving DecidableEq

/-- The request of a call of the cache. -/
def LlmCall.request? : LlmCall A F → Option (ChatRequest A)
  | getResponse request | setResponse request _ | getTokenCount request | setTokenCount request _
  | count request _ _ => some request
  | other _ => none

def LLMCache.step (llm : LLMCache F) (store : TextStore) :
    LlmCall A F × ℚ → LlmAnswer A × TextStore
  | (.getResponse request, now) =>
      let (found, store) := llm.getResponse store now request
      (.response found, store)
  | (.setResponse request response, now) => (.done, llm.setResponse store now request response)
  | (.getTokenCount request, now) =>
      let (count, store) := llm.getTokenCount store now request
      (.found count, store)
  | (.setTokenCount request count, now) => (.done, llm.setTokenCount store now request count)
  | (.count request counted later, now) =>
      let (count, store) := llm.count store now later request counted
      (.tokens count, store)
  | (.other call, now) => (.done, llm.cache.after store now call)

/-! ## A map from payloads -/

/-- What is kept of a payload, and until when. -/
abbrev Kept (V : Type) := FingerprintPayload → Option (V × Option ℚ)

namespace Kept

variable {V : Type} (kept : Kept V)

/-- What is kept until a moment before is no longer kept. -/
def read (now : ℚ) (payload : FingerprintPayload) : Option V × Kept V :=
  match kept payload with
  | none => (none, kept)
  | some (v, expires) =>
      if expires.any (· < now) then (none, Function.update kept payload none) else (some v, kept)

def write (now : ℚ) (ttlSeconds : Int) (payload : FingerprintPayload) (v : V) : Kept V :=
  Function.update kept payload
    (some (v, ((some ttlSeconds).filter (· ≠ 0)).map fun seconds => now + seconds))

end Kept

/-- Responses and counts of tokens by what a request says. -/
structure LlmMap where
  responses : Kept CachedResponse
  counts : Kept Int

/-- The same calls on a map. -/
def LlmMap.step (cacheEnabled : Bool) (ttlSeconds : Int) (map : LlmMap) :
    LlmCall A F × ℚ → LlmAnswer A × LlmMap
  | (.getResponse request, now) =>
      if request.isCacheable cacheEnabled then
        let (found, responses) := map.responses.read now request.payload
        (.response (.ok (found.map CachedResponse.response)), { map with responses })
      else (.response (.ok none), map)
  | (.setResponse request response, now) =>
      if request.isCacheable cacheEnabled then
        (.done, { map with
          responses := map.responses.write now ttlSeconds request.payload response.cached })
      else (.done, map)
  | (.getTokenCount request, now) =>
      let (count, counts) := map.counts.read now request.payload
      (.found (.ok count), { map with counts })
  | (.setTokenCount request count, now) =>
      (.done, { map with counts := map.counts.write now ttlSeconds request.payload count })
  | (.count request counted later, now) =>
      match map.counts.read now request.payload with
      | (some cached, counts) => (.tokens (.ok cached), { map with counts })
      | (none, counts) =>
          let count := counted.getD (heuristicTokenCount request)
          (.tokens (.ok count),
            { map with counts := counts.write later ttlSeconds request.payload count })
  | (.other .clear, _) => (.done, ⟨fun _ => none, fun _ => none⟩)
  | (.other _, _) => (.done, map)

/-! ## What is read of what was written -/

theorem sorted_payload (payload : FingerprintPayload) :
    (payload.dump : Dumpable F) = strDict [("max_tokens", .int payload.maxTokens),
      ("messages", .list (payload.messages.map FingerprintMessage.dump)),
      ("model", textDump payload.model), ("system", systemDump payload.system)] := by
  simp [FingerprintPayload.dump, sortedDict, List.insertionSort, List.orderedInsert]

theorem sorted_message (message : FingerprintMessage) :
    (message.dump : Dumpable F) =
      strDict [("content", textDump message.content), ("role", textDump message.role)] := by
  simp [FingerprintMessage.dump, sortedDict, List.insertionSort, List.orderedInsert]

section

variable {format : FloatFormat F}

/-- The text of a payload says what is in it. -/
theorem FingerprintMessage.loaded_dump_injective {m m' : FingerprintMessage}
    (h : m.dump.loaded format = m'.dump.loaded format) : m = m' := by
  rw [sorted_message, sorted_message, loaded_strDict (by simp), loaded_strDict (by simp)] at h
  simp only [List.map_cons, List.map_nil, loaded_textDump, Loaded.dict.injEq, List.cons.injEq,
    Prod.mk.injEq, Loaded.str.injEq, true_and, and_true] at h
  obtain ⟨content, role⟩ := h
  obtain ⟨_, _⟩ := m
  obtain ⟨_, _⟩ := m'
  rw [FingerprintMessage.mk.injEq]
  exact ⟨readText_injective role, readText_injective content⟩

theorem systemDump_injective {system system' : Option String}
    (h : (systemDump system : Dumpable F).loaded format = (systemDump system').loaded format) :
    system = system' := by
  cases system <;> cases system' <;>
    simp only [systemDump, loaded_textDump, Dumpable.loaded, Loaded.str.injEq, reduceCtorEq] at h
  · rfl
  · rw [readText_injective h]

theorem FingerprintPayload.loaded_dump_injective {p p' : FingerprintPayload}
    (h : p.dump.loaded format = p'.dump.loaded format) : p = p' := by
  rw [sorted_payload, sorted_payload, loaded_strDict (by simp), loaded_strDict (by simp)] at h
  simp only [List.map_cons, List.map_nil, loaded_textDump, Loaded.dict.injEq, List.cons.injEq,
    Prod.mk.injEq, Loaded.str.injEq, true_and, and_true, Dumpable.loaded, Loaded.int.injEq,
    Loaded.list.injEq] at h
  obtain ⟨hmax, hmessages, hmodel, hsystem⟩ := h
  obtain ⟨_, _, _, _⟩ := p
  obtain ⟨_, _, _, _⟩ := p'
  rw [FingerprintPayload.mk.injEq]
  refine ⟨readText_injective hmodel, systemDump_injective hsystem, hmax, ?_⟩
  rw [loadedItems_eq_map, loadedItems_eq_map, List.map_map, List.map_map] at hmessages
  exact List.map_injective_iff.mpr (fun _ _ => FingerprintMessage.loaded_dump_injective) hmessages

/-- A fingerprint is the digest of a text that no other payload has. -/
theorem text_injective {cache : JsonCache F} {p p' : FingerprintPayload}
    (h : cache.text p.dump = cache.text p'.dump) : p = p' := by
  have hloaded := congrArg (loads cache.format.parse) h
  rw [JsonCache.text, JsonCache.text, loads_dumps, loads_dumps, Except.ok.injEq] at hloaded
  exact FingerprintPayload.loaded_dump_injective hloaded

theorem ofValue?_value (reason : StopReason) : StopReason.ofValue? reason.value = some reason := by
  cases reason <;> decide

theorem readUsage_dump (usage : Usage) :
    readUsage ((usage.dump : Dumpable F).loaded format) = some usage := by
  have hcount : ∀ name count, (name, (.int (Int.ofNat count) : Dumpable F)) ∈
      [("input_tokens", (.int usage.inputTokens : Dumpable F)),
        ("output_tokens", .int usage.outputTokens),
        ("cache_read_tokens", .int usage.cacheReadTokens),
        ("cache_write_tokens", .int usage.cacheWriteTokens)] →
      readCount ((usage.dump : Dumpable F).loaded format) name = some count := by
    intro name count hmem
    rw [readCount, Usage.dump, get?_strDict (by simp) hmem]
    rfl
  have hinput := hcount "input_tokens" usage.inputTokens (by simp)
  have houtput := hcount "output_tokens" usage.outputTokens (by simp)
  have hread := hcount "cache_read_tokens" usage.cacheReadTokens (by simp)
  have hwrite := hcount "cache_write_tokens" usage.cacheWriteTokens (by simp)
  rw [Usage.dump, loaded_strDict (by simp)] at hinput houtput hread hwrite ⊢
  simp only [List.map_cons, List.map_nil] at hinput houtput hread hwrite ⊢
  simp [readUsage, hinput, houtput, hread, hwrite]

theorem readResponse_dump (cached : CachedResponse) :
    readResponse ((cached.dump : Dumpable F).loaded format) = some cached := by
  have hfound : ∀ name v, (name, v) ∈
      [("content", textDump cached.content), ("model", textDump cached.model),
        ("stop_reason", textDump cached.stopReason.value), ("usage", cached.usage.dump)] →
      (cached.dump.loaded format).get? name = some (v.loaded format) :=
    fun name v hmem => get?_strDict (by simp) hmem
  simp [readResponse, hfound "content" (textDump cached.content) (by simp),
    hfound "model" (textDump cached.model) (by simp),
    hfound "stop_reason" (textDump cached.stopReason.value) (by simp),
    hfound "usage" cached.usage.dump (by simp), loaded_textDump, text?_readText, ofValue?_value,
    readUsage_dump]

end

/-! ## Keys -/

namespace LLMCache

variable {llm : LLMCache F}

/-- The key of a payload in a namespace of the cache. -/
def key (llm : LLMCache F) (ns : String) (payload : FingerprintPayload) : String :=
  llm.cache.service.key ns (llm.hashing.sha256 (llm.hashing.dumps payload))

/-- The digests tell these payloads apart. -/
def Digests (llm : LLMCache F) (used : FingerprintPayload → Prop) : Prop :=
  ∀ p p', used p → used p' → llm.hashing.sha256 (llm.hashing.dumps p) =
    llm.hashing.sha256 (llm.hashing.dumps p') → llm.hashing.dumps p = llm.hashing.dumps p'

variable {used : FingerprintPayload → Prop} {p p' : FingerprintPayload}

theorem key_injective (hdigests : llm.Digests used) (hp : used p) (hp' : used p') {ns : String}
    (h : llm.key ns p = llm.key ns p') : p = p' := by
  have hlists := congrArg String.toList h
  rw [key, key, toList_key, toList_key, List.append_cancel_left_eq, List.cons.injEq,
    List.append_cancel_left_eq, List.cons.injEq, String.toList_inj] at hlists
  have htexts := congrArg String.toList (hdigests p p' hp hp' hlists.2.2)
  rw [hashing, String.toList_ofList, String.toList_ofList] at htexts
  exact text_injective htexts

theorem responseNs_eq : responseNs.toList = "llm".toList ++ ':' :: "response".toList := by
  simp [responseNs]

theorem tokensNs_eq : tokensNs.toList = "llm".toList ++ ':' :: "tokens".toList := by
  simp [tokensNs]

/-- A response and a count have different keys. -/
theorem key_ne : llm.key responseNs p ≠ llm.key tokensNs p' := by
  intro h
  have hlists := congrArg String.toList h
  rw [key, key, toList_key, toList_key, responseNs_eq, tokensNs_eq] at hlists
  simp at hlists

/-- A call of others, in a namespace of its own. -/
theorem leaves_key {call : JsonCall F} {ns other : String} (hns : ns = responseNs ∨ ns = tokensNs)
    (hcall : call.namespace? = some other) (hother : ':' ∉ other.toList ∧ other ≠ "llm")
    (p : FingerprintPayload) : call.Leaves llm.cache.service (llm.key ns p) := by
  have hother : ':' ∉ other.toList ∧ other.toList ≠ "llm".toList :=
    ⟨hother.1, fun h => hother.2 (String.toList_inj.mp h)⟩
  obtain rfl | rfl := hns
  · exact leaves_of_namespace responseNs_eq (by decide) hcall hother
  · exact leaves_of_namespace tokensNs_eq (by decide) hcall hother

/-! ## The store holds a map -/

variable {V : Type} {ns : String} {dump : V → Dumpable F} {store store' : TextStore}
  {kept : Kept V}

/-- In a namespace, the store holds the texts of what is kept. -/
def Holds (llm : LLMCache F) (used : FingerprintPayload → Prop) (ns : String)
    (dump : V → Dumpable F) (store : TextStore) (kept : Kept V) : Prop :=
  ∀ p, used p → store.lookup (llm.key ns p) =
    (kept p).map fun entry => ⟨llm.cache.text (dump entry.1), entry.2⟩

theorem Holds.of_lookup (h : llm.Holds used ns dump store kept)
    (hsame : ∀ p, used p → store'.lookup (llm.key ns p) = store.lookup (llm.key ns p)) :
    llm.Holds used ns dump store' kept :=
  fun p hp => (hsame p hp).trans (h p hp)

/-- One entry changes. -/
theorem Holds.update (h : llm.Holds used ns dump store kept) (hdigests : llm.Digests used)
    (hp : used p) {entry : Option (V × Option ℚ)}
    (hat : store'.lookup (llm.key ns p) =
      entry.map fun entry => ⟨llm.cache.text (dump entry.1), entry.2⟩)
    (helsewhere : ∀ k, k ≠ llm.key ns p → store'.lookup k = store.lookup k) :
    llm.Holds used ns dump store' (Function.update kept p entry) := by
  intro p' hp'
  by_cases hsame : p' = p
  · rw [hsame, Function.update_self, hat]
  · have hkey : llm.key ns p' ≠ llm.key ns p :=
      fun h => hsame (key_injective hdigests hp' hp h)
    rw [Function.update_of_ne hsame, helsewhere _ hkey, h p' hp']

/-- What is found in a namespace is what is kept, as it is read. -/
theorem Holds.get (h : llm.Holds used ns dump store kept) (now : ℚ)
    (hdigests : llm.Digests used) (hp : used p) :
    ∃ store', llm.cache.get store now ns (llm.hashing.sha256 (llm.hashing.dumps p)) =
        (.ok (((kept.read now p).1.map fun v => (dump v).loaded llm.cache.format).getD .null),
          store') ∧
      llm.Holds used ns dump store' (kept.read now p).2 ∧
      ∀ k, k ≠ llm.key ns p → store'.lookup k = store.lookup k := by
  have hlookup := h p hp
  cases hkept : kept p with
  | none =>
      rw [hkept] at hlookup
      rw [get_of_lookup_none hlookup, Kept.read, hkept]
      exact ⟨store, rfl, h, fun _ _ => rfl⟩
  | some entry =>
      obtain ⟨v, expires⟩ := entry
      rw [hkept] at hlookup
      rw [get_of_lookup_text hlookup, Kept.read, hkept]
      dsimp only
      split
      · refine ⟨_, rfl, ?_, fun k hk => AList.lookup_erase_ne hk⟩
        exact h.update hdigests hp (AList.lookup_erase _ _) fun k hk => AList.lookup_erase_ne hk
      · exact ⟨store, rfl, h, fun _ _ => rfl⟩

theorem Holds.set (h : llm.Holds used ns dump store kept) (now : ℚ)
    (hdigests : llm.Digests used) (hp : used p) (v : V) :
    llm.Holds used ns dump
        (llm.cache.set store now ns (llm.hashing.sha256 (llm.hashing.dumps p)) (dump v)
          (some llm.ttlSeconds))
        (kept.write now llm.ttlSeconds p v) ∧
      ∀ k, k ≠ llm.key ns p →
        (llm.cache.set store now ns (llm.hashing.sha256 (llm.hashing.dumps p)) (dump v)
          (some llm.ttlSeconds)).lookup k = store.lookup k :=
  ⟨h.update hdigests hp (AList.lookup_insert _) fun _ hk => AList.lookup_insert_ne hk,
    fun _ hk => AList.lookup_insert_ne hk⟩

variable {map : LlmMap} {now : ℚ}

/-- The store holds a map. -/
structure Represents (llm : LLMCache F) (used : FingerprintPayload → Prop) (store : TextStore)
    (map : LlmMap) : Prop where
  responses : llm.Holds used responseNs CachedResponse.dump store map.responses
  counts : llm.Holds used tokensNs Dumpable.int store map.counts

/-- What a call of the cache must be like: its request is one of these, and a call of others is
in a namespace of its own. -/
def Allowed (used : FingerprintPayload → Prop) : LlmCall A F → Prop
  | .getResponse request | .setResponse request _ | .getTokenCount request
  | .setTokenCount request _ | .count request _ _ => used request.payload
  | .other call => ∀ ns, call.namespace? = some ns → ':' ∉ ns.toList ∧ ns ≠ "llm"

/-- What was stored is what `get_response` returns. -/
theorem getResponse_of_get {request : ChatRequest A} {found : Option CachedResponse}
    (hcacheable : request.isCacheable llm.cacheEnabled = true)
    (hget : llm.cache.get store now responseNs (llm.fingerprint request) =
      (.ok ((found.map fun cached => cached.dump.loaded llm.cache.format).getD .null), store')) :
    llm.getResponse store now request = (.ok (found.map CachedResponse.response), store') := by
  rw [getResponse, hcacheable, hget]
  cases found with
  | none => rfl
  | some cached =>
      have hread := @readResponse_dump F llm.cache.format cached
      have hdict : ∃ entries, (cached.dump : Dumpable F).loaded llm.cache.format = .dict entries :=
        ⟨_, rfl⟩
      obtain ⟨entries, hdict⟩ := hdict
      rw [hdict] at hread
      rw [Option.map_some, Option.getD_some, hdict]
      simp only [Bool.not_true, Bool.false_eq_true, if_false, hread, Option.map_some]

theorem getTokenCount_of_get {request : ChatRequest A} {found : Option Int}
    (hget : llm.cache.get store now tokensNs (llm.fingerprint request) =
      (.ok ((found.map fun count => (Dumpable.int count).loaded llm.cache.format).getD .null),
        store')) :
    llm.getTokenCount store now request = (.ok found, store') := by
  rw [getTokenCount, hget]
  cases found <;> rfl

/-- What is stored in one of the namespaces does not change the other one. -/
theorem Represents.of_counts (h : llm.Represents used store map) {counts : Kept Int}
    (hholds : llm.Holds used tokensNs Dumpable.int store' counts)
    (hframe : ∀ k, k ≠ llm.key tokensNs p → store'.lookup k = store.lookup k) :
    llm.Represents used store' { map with counts } :=
  ⟨h.responses.of_lookup fun _ _ => hframe _ key_ne, hholds⟩

theorem Represents.of_responses (h : llm.Represents used store map)
    {responses : Kept CachedResponse}
    (hholds : llm.Holds used responseNs CachedResponse.dump store' responses)
    (hframe : ∀ k, k ≠ llm.key responseNs p → store'.lookup k = store.lookup k) :
    llm.Represents used store' { map with responses } :=
  ⟨hholds, h.counts.of_lookup fun _ _ => hframe _ fun h => key_ne h.symm⟩

/-- A call of others changes neither. -/
theorem Represents.after (h : llm.Represents used store map) (now : ℚ) (call : JsonCall F)
    (hcall : call.namespace? = some ns) (hother : ':' ∉ ns.toList ∧ ns ≠ "llm") :
    llm.Represents used (llm.cache.after store now call) map :=
  ⟨h.responses.of_lookup fun p _ => lookup_after (leaves_key (.inl rfl) hcall hother p),
    h.counts.of_lookup fun p _ => lookup_after (leaves_key (.inr rfl) hcall hother p)⟩

/-- One call. -/
theorem step_represents (h : llm.Represents used store map) (hdigests : llm.Digests used)
    {call : LlmCall A F × ℚ} (hcall : Allowed used call.1) :
    (llm.step store call).1 = (map.step llm.cacheEnabled llm.ttlSeconds call).1 ∧
      llm.Represents used (llm.step store call).2
        (map.step llm.cacheEnabled llm.ttlSeconds call).2 := by
  obtain ⟨call, now⟩ := call
  cases call with
  | getResponse request =>
      cases hcacheable : request.isCacheable llm.cacheEnabled with
      | false =>
          simp only [step, getResponse, LlmMap.step, hcacheable]
          exact ⟨rfl, h⟩
      | true =>
          obtain ⟨store', hget, hholds, hframe⟩ := h.responses.get now hdigests hcall
          simp only [step, LlmMap.step, getResponse_of_get hcacheable hget, hcacheable, if_true]
          exact ⟨trivial, h.of_responses hholds hframe⟩
  | setResponse request response =>
      cases hcacheable : request.isCacheable llm.cacheEnabled with
      | false =>
          simp only [step, setResponse, LlmMap.step, hcacheable]
          exact ⟨rfl, h⟩
      | true =>
          obtain ⟨hholds, hframe⟩ := h.responses.set now hdigests hcall response.cached
          simp only [step, setResponse, LlmMap.step, hcacheable, if_true]
          exact ⟨trivial, h.of_responses hholds hframe⟩
  | getTokenCount request =>
      obtain ⟨store', hget, hholds, hframe⟩ := h.counts.get now hdigests hcall
      simp only [step, LlmMap.step, getTokenCount_of_get hget]
      exact ⟨trivial, h.of_counts hholds hframe⟩
  | setTokenCount request count =>
      obtain ⟨hholds, hframe⟩ := h.counts.set now hdigests hcall count
      exact ⟨rfl, h.of_counts hholds hframe⟩
  | count request counted later =>
      obtain ⟨store', hget, hholds, hframe⟩ := h.counts.get now hdigests hcall
      simp only [step, count, LlmMap.step, getTokenCount_of_get hget]
      have hread := h.of_counts hholds hframe
      cases hfound : map.counts.read now request.payload with
      | mk found counts =>
          rw [hfound] at hread
          cases found with
          | some cached => exact ⟨rfl, hread⟩
          | none =>
              obtain ⟨hholds, hframe⟩ := hread.counts.set later hdigests hcall
                (counted.getD (heuristicTokenCount request))
              exact ⟨rfl, hread.of_counts hholds hframe⟩
  | other call =>
      cases call with
      | get ns key => exact ⟨rfl, h.after now (.get ns key) rfl (hcall ns rfl)⟩
      | set ns key value ttl => exact ⟨rfl, h.after now (.set ns key value ttl) rfl (hcall ns rfl)⟩
      | delete ns key => exact ⟨rfl, h.after now (.delete ns key) rfl (hcall ns rfl)⟩
      | invalidateNamespace ns =>
          exact ⟨rfl, h.after now (.invalidateNamespace ns) rfl (hcall ns rfl)⟩
      | clear => exact ⟨rfl, fun _ _ => rfl, fun _ _ => rfl⟩

/-- Every run. -/
theorem outputs_represents (hdigests : llm.Digests used) :
    ∀ {calls : List (LlmCall A F × ℚ)} {store : TextStore} {map : LlmMap},
      llm.Represents used store map → (∀ call ∈ calls, Allowed used call.1) →
      Noninterference.outputs llm.step store calls =
        Noninterference.outputs (LlmMap.step llm.cacheEnabled llm.ttlSeconds) map calls
  | [], _, _, _, _ => rfl
  | call :: calls, store, map, h, hcalls => by
      obtain ⟨hcall, hrest⟩ := List.forall_mem_cons.mp hcalls
      obtain ⟨houtput, hnext⟩ := step_represents h hdigests hcall
      rw [Noninterference.outputs, Noninterference.outputs, houtput,
        outputs_represents hdigests hnext hrest]

end LLMCache

/-- The payloads of the requests of a run. -/
def payloadsOf (calls : List (LlmCall A F × ℚ)) (payload : FingerprintPayload) : Prop :=
  ∃ call ∈ calls, ∃ request, call.1.request? = some request ∧ request.payload = payload

theorem llmCache_refines (llm : LLMCache F) {store : TextStore}
    (hfresh : ∀ ns key, ns = LLMCache.responseNs ∨ ns = LLMCache.tokensNs →
      store.lookup (llm.cache.service.key ns key) = none)
    {calls : List (LlmCall A F × ℚ)} (hdigests : llm.Digests (payloadsOf calls))
    (hothers : ∀ call now ns, (.other call, now) ∈ calls → call.namespace? = some ns →
      ':' ∉ ns.toList ∧ ns ≠ "llm") :
    Noninterference.outputs llm.step store calls =
      Noninterference.outputs (LlmMap.step llm.cacheEnabled llm.ttlSeconds)
        ⟨fun _ => none, fun _ => none⟩ calls := by
  refine LLMCache.outputs_represents hdigests
    ⟨fun _ _ => hfresh _ _ (.inl rfl), fun _ _ => hfresh _ _ (.inr rfl)⟩ fun call hcall => ?_
  obtain ⟨call, now⟩ := call
  cases call with
  | getResponse request => exact ⟨_, hcall, request, rfl, rfl⟩
  | setResponse request response => exact ⟨_, hcall, request, rfl, rfl⟩
  | getTokenCount request => exact ⟨_, hcall, request, rfl, rfl⟩
  | setTokenCount request count => exact ⟨_, hcall, request, rfl, rfl⟩
  | count request counted later => exact ⟨_, hcall, request, rfl, rfl⟩
  | other call => exact fun ns hns => hothers call now ns hcall hns

/-- A question of a user. -/
def question (content : String) : ChatRequest String where
  messages := [⟨.user, content, [], []⟩]
  model := "mock"
  maxTokens := 10
  system := none
  temperature := none
  topP := none
  topK := none
  stopSequences := []
  tools := []
  thinking := false
  responseSchema := none

/-- A cache with the digests of two questions. -/
def questionCache : LLMCache Unit where
  cache := ⟨⟨"ayf"⟩, zeroFormat⟩
  sha256 text :=
    if text = questionText "Why? \\ud83c\\udfac" then
      "2d981081352a842a378a0fae58e77034f91c8311e27458f22f8702e210495f18"
    else "ec1e529601863a18f0fa3b88fa2a99b20c217da94670b66876e8b89641a5b6f0"
  cacheEnabled := true
  ttlSeconds := 3600
where
  questionText (content : String) : String :=
    "\x7b\"max_tokens\": 10, \"messages\": [\x7b\"content\": \"" ++ content ++
      "\", \"role\": \"user\"\x7d], \"model\": \"mock\", \"system\": null\x7d"

/-- The answer to a question. -/
def reply : ChatResponse String :=
  ⟨"Because — yes.", "mock", .endTurn, [⟨"1", "search", "why"⟩], ⟨12, 8, 0, 0⟩⟩

/-- An answer and counts are stored.  The answer is read for a request that differs in what the
cache does not see. -/
def askedAgain : List (LlmCall String Unit × ℚ) :=
  [(.getResponse (question "Why? 🎬"), 0), (.setResponse (question "Why? 🎬") reply, 1),
    (.count (question "Why? 🎬") (some 4) 3, 2),
    (.getResponse { question "Why? 🎬" with temperature := some 1 }, 5),
    (.other (.set "flags" "beta" (.bool true) none), 6), (.getResponse (question "Why?"), 7),
    (.getTokenCount (question "Why? 🎬"), 8), (.setTokenCount (question "Why?") 3, 9),
    (.count (question "Why?") none 11, 10), (.getResponse (question "Why? 🎬"), 4000)]

theorem llmCache_refines_askedAgain :
    Noninterference.outputs questionCache.step ∅ askedAgain =
      [.response (.ok none), .done, .tokens (.ok 4),
        .response (.ok (some { reply with toolCalls := [] })), .done, .response (.ok none),
        .found (.ok (some 4)), .done, .tokens (.ok 3), .response (.ok none)] := by
  refine (llmCache_refines questionCache (fun _ _ _ => rfl) ?_ ?_).trans (by decide +kernel)
  · have hused : ∀ p, payloadsOf askedAgain p →
        p = (question "Why? 🎬").payload ∨ p = (question "Why?").payload := by
      rintro p ⟨call, hcall, request, hrequest, rfl⟩
      simp only [askedAgain, List.mem_cons, List.not_mem_nil, or_false] at hcall
      rcases hcall with rfl | rfl | rfl | rfl | rfl | rfl | rfl | rfl | rfl | rfl
      all_goals
        simp only [LlmCall.request?, Option.some.injEq, reduceCtorEq] at hrequest
      all_goals
        subst hrequest
        first | exact .inl rfl | exact .inr rfl
    intro p p' hp hp'
    rcases hused p hp with rfl | rfl <;> rcases hused p' hp' with rfl | rfl
    all_goals decide +kernel
  · intro call now ns hcall hns
    simp only [askedAgain, List.mem_cons, Prod.mk.injEq, LlmCall.other.injEq, reduceCtorEq,
      false_and, false_or, List.not_mem_nil, or_false] at hcall
    obtain ⟨rfl, -⟩ := hcall
    cases hns
    decide

end YoutubeFactory.LlmCore
