import YoutubeFactory.LlmCore.Cache
import YoutubeFactory.LlmCore.Retry
import YoutubeFactory.Lib.Stateful

/-!
# The LLM manager

`LLMManager.chat` of `app/core/llm/manager.py` with what it puts around a provider: the cache, the
limit of requests per minute, and `with_retry`; and the `chat` of `AnthropicProvider`.  A call keeps
what it has written when it raises.  What the SDK, Redis and the clock answer in a call is given
with it, by the number of the question.
-/

namespace YoutubeFactory.LlmCore

open Python

variable {A T : Type}

/-! ## State -/

/-- The settings that a chat reads. -/
structure LlmSettings where
  defaultProvider : String
  maxRetries : Nat
  cacheEnabled : Bool
  rateLimitRpm : Nat

/-- What is stored of a response. -/
structure CachedResponse where
  content : String
  model : String
  stopReason : StopReason
  usage : Usage
deriving DecidableEq, Repr

/-- The cache holds responses under their fingerprints, and the calls of the SDK are counted. -/
structure LlmState (A : Type) where
  breaker : CircuitBreaker
  cache : List (String × CachedResponse)
  sdkCalls : List (Params A)
  readings : Nat

/-- What the outside answers in a call.  `redis` is the count of the requests in this minute, and
`getRaises` and `setRaises` are what the backend of the cache raises. -/
structure Surroundings (A : Type) where
  clock : Nat → Instant
  create : Nat → Except Exc (SdkMessage A)
  redis : Except Exc Nat
  getRaises : Option Exc
  setRaises : Option Exc
  expired : Bool

abbrev LlmM (A : Type) := EStateM Exc (LlmState A)

/-- `datetime.now` -/
def LlmState.now (around : Surroundings A) (s : LlmState A) : Instant := around.clock s.readings

/-! ## The provider -/

/-- A provider, as the manager sees it. -/
structure BaseLLMProvider (A : Type) where
  slug : String
  chat : ChatRequest A → LlmM A (ChatResponse A)

/-- `AnthropicProvider`.  A client may be injected. -/
structure AnthropicProvider where
  hasClient : Bool
  apiKey : String
  installed : Bool

/-- `client` -/
def AnthropicProvider.client (provider : AnthropicProvider) : Except Exc Unit :=
  if provider.hasClient then .ok ()
  else if !provider.installed then
    .error (.llm .providerNotAvailable "The 'anthropic' package is not installed." [])
  else if provider.apiKey = "" then
    .error (.llm .providerNotAvailable "ANTHROPIC_API_KEY is not configured." [])
  else .ok ()

/-- `messages.create` -/
def createMessage (around : Surroundings A) (params : Params A) : LlmM A (SdkMessage A) := fun s =>
  let called := { s with sdkCalls := s.sdkCalls ++ [params] }
  match around.create s.sdkCalls.length with
  | .ok message => .ok message called
  | .error e => .error e called

/-- `AnthropicProvider.chat`.  Every `Exception` is wrapped. -/
def AnthropicProvider.chat (around : Surroundings A) (provider : AnthropicProvider)
    (request : ChatRequest A) : LlmM A (ChatResponse A) := fun s =>
  let wrap (e : Exc) (s : LlmState A) : EStateM.Result Exc (LlmState A) (ChatResponse A) :=
    if e.isException then .error (.llm .llmError ("Anthropic request failed: " ++ e.text) []) s
    else .error e s
  match provider.client with
  | .error e => wrap e s
  | .ok () =>
      match createMessage around (buildParams request) s with
      | .ok message s => .ok (parseResponse message request.model) s
      | .error e s => wrap e s

def AnthropicProvider.toProvider (around : Surroundings A) (provider : AnthropicProvider) :
    BaseLLMProvider A where
  slug := "anthropic"
  chat := provider.chat around

/-! ## Retries -/

/-- The loop of `with_retry`. -/
def attempts (around : Surroundings A) (policy : RetryPolicy) (key : String) (operation : LlmM A T)
    (attempt : Nat) : LlmM A T := fun s =>
  let (result, s) : Except Exc T × LlmState A :=
    match operation s with
    | .ok result s => (.ok result, s)
    | .error e s => (.error e, s)
  match _h : settle policy key s.breaker (s.now around) attempt result with
  | (breaker, .ends (.ok result)) => .ok result { s with breaker, readings := s.readings + 1 }
  | (breaker, .ends (.error e)) => .error e { s with breaker, readings := s.readings + 1 }
  | (breaker, .retries next) =>
      attempts around policy key operation next { s with breaker, readings := s.readings + 1 }
termination_by (policy.maxRetries - attempt).toNat
decreasing_by
  obtain ⟨hnext, hmax⟩ := settle_retries _h
  omega

/-- `with_retry` -/
def withRetry (around : Surroundings A) (policy : RetryPolicy) (key : String)
    (operation : LlmM A T) : LlmM A T := fun s =>
  match s.breaker.check key (s.now around) with
  | .error e => .error e { s with readings := s.readings + 1 }
  | .ok breaker =>
      attempts around policy key operation 0 { s with breaker, readings := s.readings + 1 }

/-! ## The manager -/

structure ChatOutcome (A : Type) where
  response : ChatResponse A
  provider : String
  cacheHit : Bool

structure LLMManager (A : Type) where
  settings : LlmSettings
  hashing : Hashing
  /-- `get_provider` -/
  registry : String → Option (BaseLLMProvider A)
  /-- `sorted(_REGISTRY)` -/
  available : List String

namespace LLMManager

variable (manager : LLMManager A) (around : Surroundings A)

/-- `_resolve` -/
def resolve (providerSlug : Option String) : Except Exc (BaseLLMProvider A) :=
  let slug := (providerSlug.filter (· ≠ "")).getD manager.settings.defaultProvider
  match manager.registry slug with
  | some provider => .ok provider
  | none =>
      .error (.llm .providerNotAvailable ("No LLM provider registered for '" ++ slug ++ "'.")
        [("available", .list (manager.available.map Json.str))])

/-- `LLMCache.get_response` -/
def getResponse (request : ChatRequest A) : LlmM A (Option (ChatResponse A)) := fun s =>
  if !request.isCacheable manager.settings.cacheEnabled then .ok none s
  else
    match around.getRaises with
    | some e => .error e s
    | none =>
        let fingerprint := manager.hashing.requestFingerprint request
        match s.cache.find? fun entry => entry.1 = fingerprint with
        | none => .ok none s
        | some (_, data) =>
            if around.expired then .ok none s
            else .ok (some ⟨data.content, data.model, data.stopReason, [], data.usage⟩) s

/-- `LLMCache.set_response` -/
def setResponse (request : ChatRequest A) (response : ChatResponse A) : LlmM A Unit := fun s =>
  if !request.isCacheable manager.settings.cacheEnabled then .ok () s
  else
    match around.setRaises with
    | some e => .error e s
    | none =>
        let entry := (manager.hashing.requestFingerprint request,
          ⟨response.content, response.model, response.stopReason, response.usage⟩)
        .ok () { s with cache := entry :: s.cache }

/-- `RateLimiter.check_rpm`.  What Redis raises lets the request pass. -/
def checkRpm (key : String) : Except Exc Unit :=
  if !manager.settings.cacheEnabled then .ok ()
  else
    match around.redis with
    | .ok count =>
        if manager.settings.rateLimitRpm < count then
          .error (.llm .rateLimit LlmErrorKind.rateLimit.message
            [("key", .str key), ("limit", .int manager.settings.rateLimitRpm)])
        else .ok ()
    | .error (.llm .rateLimit message details) => .error (.llm .rateLimit message details)
    | .error e => if e.isException then .ok () else .error e

/-- `chat` -/
def chat (request : ChatRequest A) (providerSlug : Option String) (rateLimitKey : String) :
    LlmM A (ChatOutcome A) := do
  let provider ← liftExcept (manager.resolve providerSlug)
  match ← manager.getResponse around request with
  | some cached => return { response := cached, provider := provider.slug, cacheHit := true }
  | none =>
      liftExcept (manager.checkRpm around rateLimitKey)
      let response ← withRetry around ⟨manager.settings.maxRetries⟩ provider.slug
        (provider.chat request)
      manager.setResponse around request response
      return { response, provider := provider.slug, cacheHit := false }
where
  liftExcept {B : Type} (result : Except Exc B) : LlmM A B := fun s =>
    match result with
    | .ok b => .ok b s
    | .error e => .error e s

end LLMManager

end YoutubeFactory.LlmCore
