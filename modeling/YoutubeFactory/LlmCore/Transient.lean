import YoutubeFactory.LlmCore.Manager

/-!
# Transient failures

`with_retry` knows a transient failure by its class.  It repeats a call of the SDK that raises one,
but it is given the call of the provider, which raises an `LLMError` instead.
-/

namespace YoutubeFactory.LlmCore

variable {A T : Type} {around : Surroundings A} {policy : RetryPolicy} {key : String}

/-- `TimeoutError` and `ConnectionError`. -/
def Exc.isTransient : Exc → Bool
  | .timeoutError _ => true
  | .connectionError _ => true
  | _ => false

theorem Exc.isRetryable_of_isTransient {e : Exc} (h : e.isTransient = true) :
    e.isRetryable = true := by
  cases e <;> first | rfl | cases h

theorem Exc.isException_of_isTransient {e : Exc} (h : e.isTransient = true) :
    e.isException = true := by
  cases e <;> first | rfl | cases h

/-! ## The loop -/

section

variable {operation : LlmM A T} {attempt : Nat} {s s' : LlmState A} {e : Exc}

theorem settle_retryable {breaker : CircuitBreaker} {now : Instant} (h : e.isRetryable = true)
    (hmax : ((attempt + 1 : Nat) : Int) ≤ policy.maxRetries) :
    settle (T := T) policy key breaker now attempt (.error e) =
      (breaker.recordFailure key now, .retries (attempt + 1)) := by
  dsimp only [settle]
  rw [if_pos h, if_neg (not_lt.mpr hmax)]

theorem settle_other {breaker : CircuitBreaker} {now : Instant} (h : e.isRetryable = false) :
    (settle (T := T) policy key breaker now attempt (.error e)).2 = .ends (.error e) := by
  dsimp only [settle]
  rw [if_neg (by rw [h]; exact Bool.false_ne_true)]
  split <;> rfl

theorem attempts_of_ok {result : T} (h : operation s = .ok result s') :
    attempts around policy key operation attempt s =
      .ok result { s' with
        breaker := s'.breaker.recordSuccess key, readings := s'.readings + 1 } := by
  rw [attempts, h]
  rfl

/-- What the loop does with an exception is what `settle` says. -/
theorem attempts_of_error {breaker : CircuitBreaker} {next : Next T}
    (h : operation s = .error e s')
    (hsettle : settle policy key s'.breaker (s'.now around) attempt (.error e) = (breaker, next)) :
    attempts around policy key operation attempt s =
      let settled := { s' with breaker, readings := s'.readings + 1 }
      match next with
      | .ends (.ok result) => .ok result settled
      | .ends (.error raised) => .error raised settled
      | .retries n => attempts around policy key operation n settled := by
  rw [attempts, h]
  dsimp only
  split
  all_goals
    next hnext =>
      rw [hsettle] at hnext
      cases hnext
      rfl

theorem attempts_of_other (h : operation s = .error e s') (hother : e.isRetryable = false) :
    ∃ s'', attempts around policy key operation attempt s = .error e s'' := by
  have hends : settle policy key s'.breaker (s'.now around) attempt (.error e : Except Exc T) =
      (_, .ends (.error e)) := Prod.ext rfl (settle_other hother)
  exact ⟨_, attempts_of_error h hends⟩

theorem attempts_of_retryable (h : operation s = .error e s') (hretryable : e.isRetryable = true)
    (hmax : ((attempt + 1 : Nat) : Int) ≤ policy.maxRetries) :
    attempts around policy key operation attempt s =
      attempts around policy key operation (attempt + 1) { s' with
        breaker := s'.breaker.recordFailure key (s'.now around), readings := s'.readings + 1 } :=
  attempts_of_error h (settle_retryable hretryable hmax)

end

/-- The loop repeats a call of the SDK until it does not raise a transient exception. -/
theorem attempts_createMessage (params : Params A) {message : SdkMessage A} :
    ∀ (k attempt : Nat) (s : LlmState A),
      ((attempt + k : Nat) : Int) ≤ policy.maxRetries →
      (∀ i < k, ∃ e : Exc, around.create (s.sdkCalls.length + i) = .error e ∧
        e.isTransient = true) →
      around.create (s.sdkCalls.length + k) = .ok message →
      ∃ s', attempts around policy key (createMessage around params) attempt s = .ok message s' ∧
        s'.sdkCalls.length = s.sdkCalls.length + k + 1
  | 0, attempt, s, _, _, hok => by
      have hcall : createMessage around params s =
          .ok message { s with sdkCalls := s.sdkCalls ++ [params] } := by
        unfold createMessage
        rw [show around.create s.sdkCalls.length = .ok message from hok]
      exact ⟨_, attempts_of_ok hcall, by simp⟩
  | k + 1, attempt, s, hmax, htransient, hok => by
      obtain ⟨e, hraises, he⟩ := htransient 0 (Nat.succ_pos k)
      have hcall : createMessage around params s =
          .error e { s with sdkCalls := s.sdkCalls ++ [params] } := by
        unfold createMessage
        rw [show around.create s.sdkCalls.length = .error e from hraises]
      rw [attempts_of_retryable hcall (Exc.isRetryable_of_isTransient he) (by omega)]
      have hlength : (s.sdkCalls ++ [params]).length = s.sdkCalls.length + 1 := List.length_append
      obtain ⟨s', hrun, hcount⟩ := attempts_createMessage params k (attempt + 1)
        { s with
          sdkCalls := s.sdkCalls ++ [params]
          breaker := s.breaker.recordFailure key (s.now around)
          readings := s.readings + 1 } (by omega)
        (fun i hi => by
          rw [hlength, Nat.add_right_comm, Nat.add_assoc]
          exact htransient (i + 1) (Nat.succ_lt_succ hi))
        (by
          rw [hlength, Nat.add_right_comm, Nat.add_assoc]
          exact hok)
      exact ⟨s', hrun, by rw [hcount, hlength]; omega⟩

theorem withRetry_of_closed (around : Surroundings A) (policy : RetryPolicy)
    (operation : LlmM A T) {s : LlmState A} (h : s.breaker.openedAt key = none) :
    withRetry around policy key operation s =
      attempts around policy key operation 0 { s with readings := s.readings + 1 } := by
  unfold withRetry CircuitBreaker.check CircuitBreaker.isOpen
  rw [h]

/-- `with_retry` itself repeats a call of the SDK as often as it has to. -/
theorem withRetry_createMessage (params : Params A) {message : SdkMessage A} {k : Nat}
    {s : LlmState A} (hclosed : s.breaker.openedAt key = none)
    (hmax : (k : Int) ≤ policy.maxRetries)
    (htransient : ∀ i < k, ∃ e : Exc, around.create (s.sdkCalls.length + i) = .error e ∧
      e.isTransient = true)
    (hok : around.create (s.sdkCalls.length + k) = .ok message) :
    ∃ s', withRetry around policy key (createMessage around params) s = .ok message s' ∧
      s'.sdkCalls.length = s.sdkCalls.length + k + 1 := by
  rw [withRetry_of_closed around policy _ hclosed]
  exact attempts_createMessage params k 0 { s with readings := s.readings + 1 }
    (by rwa [Nat.zero_add]) htransient hok

/-! ## The provider -/

/-- The provider's call, once the client is there. -/
theorem AnthropicProvider.chat_of_client {provider : AnthropicProvider}
    (around : Surroundings A) (hclient : provider.client = .ok ()) (request : ChatRequest A)
    (s : LlmState A) :
    provider.chat around request s =
      match around.create s.sdkCalls.length with
      | .ok message =>
          .ok (parseResponse message request.model)
            { s with sdkCalls := s.sdkCalls ++ [buildParams request] }
      | .error e =>
          let called := { s with sdkCalls := s.sdkCalls ++ [buildParams request] }
          if e.isException then
            .error (.llm .llmError ("Anthropic request failed: " ++ e.text) []) called
          else .error e called := by
  unfold AnthropicProvider.chat createMessage
  rw [hclient]
  cases around.create s.sdkCalls.length <;> rfl

/-- Through the provider a transient failure is not repeated. -/
theorem attempts_chat_of_transient (policy : RetryPolicy) (key : String) (attempt : Nat)
    {provider : AnthropicProvider} (hclient : provider.client = .ok ()) (request : ChatRequest A)
    {s : LlmState A} {e : Exc} (hraises : around.create s.sdkCalls.length = .error e)
    (he : e.isTransient = true) :
    ∃ raised s', attempts around policy key (provider.chat around request) attempt s =
      .error raised s' := by
  have hchat := provider.chat_of_client around hclient request s
  rw [hraises] at hchat
  dsimp only at hchat
  rw [if_pos (Exc.isException_of_isTransient he)] at hchat
  exact ⟨_, attempts_of_other hchat rfl⟩

/-! ## The manager -/

namespace LLMManager

variable {manager : LLMManager A} {request : ChatRequest A} {providerSlug : Option String}
  {rateLimitKey : String} {s : LlmState A}

/-- A chat that finds its provider and nothing in the cache. -/
theorem chat_uncached {provider : BaseLLMProvider A}
    (hprovider : manager.resolve providerSlug = .ok provider)
    (huncached : manager.getResponse around request s = .ok none s) :
    manager.chat around request providerSlug rateLimitKey s =
      match manager.checkRpm around rateLimitKey with
      | .error e => .error e s
      | .ok () =>
          match withRetry around ⟨manager.settings.maxRetries⟩ provider.slug
              (provider.chat request) s with
          | .error e s => .error e s
          | .ok response s =>
              match manager.setResponse around request response s with
              | .error e s => .error e s
              | .ok () s => .ok ⟨response, provider.slug, false⟩ s := by
  unfold chat chat.liftExcept
  simp only [hprovider, bind, EStateM.bind, huncached]
  cases manager.checkRpm around rateLimitKey with
  | error e => rfl
  | ok _ =>
      dsimp only
      cases withRetry around ⟨manager.settings.maxRetries⟩ provider.slug
        (provider.chat request) s with
      | error e s => rfl
      | ok response s =>
          dsimp only
          cases manager.setResponse around request response s <;> rfl

/-- A transient failure of the first call of the SDK ends the chat. -/
theorem chat_raises_of_transient (rateLimitKey : String) {provider : AnthropicProvider} {e : Exc}
    (hprovider : manager.resolve providerSlug = .ok (provider.toProvider around))
    (hclient : provider.client = .ok ()) (hclosed : s.breaker.openedAt "anthropic" = none)
    (huncached : manager.getResponse around request s = .ok none s)
    (hraises : around.create s.sdkCalls.length = .error e) (he : e.isTransient = true) :
    ∃ raised s', manager.chat around request providerSlug rateLimitKey s = .error raised s' := by
  rw [chat_uncached hprovider huncached]
  cases manager.checkRpm around rateLimitKey with
  | error e => exact ⟨e, s, rfl⟩
  | ok _ =>
      have hstarted : around.create
          { s with readings := s.readings + 1 }.sdkCalls.length = .error e := hraises
      obtain ⟨raised, s', hrun⟩ := attempts_chat_of_transient ⟨manager.settings.maxRetries⟩
        "anthropic" 0 hclient request hstarted he
      dsimp only [AnthropicProvider.toProvider]
      rw [withRetry_of_closed around _ _ hclosed, hrun]
      exact ⟨raised, s', rfl⟩

/-- A response is stored, unless the backend raises. -/
theorem setResponse_cases (manager : LLMManager A) (around : Surroundings A)
    (request : ChatRequest A) (response : ChatResponse A) (s : LlmState A) :
    ((request.isCacheable manager.settings.cacheEnabled = true → around.setRaises = none) ∧
        ∃ s', manager.setResponse around request response s = .ok () s' ∧
          s'.sdkCalls = s.sdkCalls) ∨
      (¬ (request.isCacheable manager.settings.cacheEnabled = true → around.setRaises = none) ∧
        ∃ e s', manager.setResponse around request response s = .error e s') := by
  unfold setResponse
  cases request.isCacheable manager.settings.cacheEnabled with
  | false => exact .inl ⟨nofun, s, rfl, rfl⟩
  | true =>
      cases around.setRaises with
      | none => exact .inl ⟨fun _ => rfl, _, rfl, rfl⟩
      | some e => exact .inr ⟨fun h => Option.some_ne_none e (h rfl), e, s, rfl⟩

end LLMManager

/-- A chat through the Anthropic provider, for which the SDK raises transient exceptions and then
answers, returns the answer if there are none of them, the limit lets the request pass and the
cache takes the response. -/
theorem transient_retried_iff (manager : LLMManager A) (around : Surroundings A)
    (provider : AnthropicProvider) (request : ChatRequest A) (providerSlug : Option String)
    (rateLimitKey : String) (s : LlmState A) (k : Nat) (message : SdkMessage A)
    (hprovider : manager.resolve providerSlug = .ok (provider.toProvider around))
    (hclient : provider.client = .ok ())
    (hclosed : s.breaker.openedAt "anthropic" = none)
    (huncached : manager.getResponse around request s = .ok none s)
    (hmax : k ≤ manager.settings.maxRetries)
    (htransient : ∀ i < k, ∃ e : Exc, around.create (s.sdkCalls.length + i) = .error e ∧
      e.isTransient = true)
    (hok : around.create (s.sdkCalls.length + k) = .ok message) :
    (∃ s', manager.chat around request providerSlug rateLimitKey s =
        .ok ⟨parseResponse message request.model, "anthropic", false⟩ s' ∧
        s'.sdkCalls.length = s.sdkCalls.length + (k + 1)) ↔
      k = 0 ∧ manager.checkRpm around rateLimitKey = .ok () ∧
        (request.isCacheable manager.settings.cacheEnabled = true → around.setRaises = none) := by
  cases k with
  | succ k =>
      obtain ⟨e, hraises, he⟩ := htransient 0 (Nat.succ_pos k)
      obtain ⟨raised, s', hrun⟩ := LLMManager.chat_raises_of_transient rateLimitKey hprovider
        hclient hclosed huncached hraises he
      rw [hrun]
      exact iff_of_false (fun ⟨_, h, _⟩ => by cases h) fun h => by cases h.1
  | zero =>
      rw [LLMManager.chat_uncached hprovider huncached, and_iff_right rfl]
      cases manager.checkRpm around rateLimitKey with
      | error e => exact iff_of_false (fun ⟨_, h, _⟩ => by cases h) fun h => by cases h.1
      | ok _ =>
          have hchat := provider.chat_of_client around hclient request
            { s with readings := s.readings + 1 }
          rw [show around.create s.sdkCalls.length = .ok message from hok] at hchat
          dsimp only [AnthropicProvider.toProvider]
          rw [withRetry_of_closed around _ _ hclosed, attempts_of_ok hchat, and_iff_right rfl]
          dsimp only
          -- what is left to go wrong is the cache
          rcases manager.setResponse_cases around request (parseResponse message request.model) _
            with ⟨hstores, s', hset, hcalls⟩ | ⟨hstores, e, s', hset⟩
          · rw [hset]
            refine iff_of_true ⟨s', rfl, ?_⟩ hstores
            rw [hcalls]
            exact List.length_append
          · rw [hset]
            exact iff_of_false (fun ⟨_, h, _⟩ => by cases h) hstores

/-! ## Timeouts -/

def hello : SdkMessage Unit := ⟨[.text "Hello."], some "end_turn", some ⟨8, 3, none⟩⟩

/-- The SDK times out some times before it answers. -/
def timeouts (k : Nat) : Surroundings Unit where
  clock n := n
  create i := if i < k then .error (.timeoutError "timed out") else .ok hello
  redis := .ok 1
  getRaises := none
  setRaises := none
  expired := false

def injected : AnthropicProvider := ⟨true, "", true⟩

def plainManager (around : Surroundings Unit) : LLMManager Unit where
  settings := ⟨"anthropic", 3, true, 60⟩
  hashing := plainHashing
  registry slug :=
    if slug = "anthropic" ∨ slug = "claude" then some (injected.toProvider around) else none
  available := ["anthropic", "claude"]

/-- `CircuitBreaker()`, and nothing in the cache. -/
def freshState : LlmState Unit := ⟨CircuitBreaker.init 5 30000000, [], [], 0⟩

/-- The call of the SDK has its answer at once. -/
def Answered (k : Nat) : Prop :=
  ∃ s', (plainManager (timeouts k)).chat (timeouts k) (greeting [] true) none "global" freshState =
      .ok ⟨parseResponse hello "claude-haiku-4-5", "anthropic", false⟩ s' ∧
    s'.sdkCalls.length = k + 1

/-- It has no answer after a timeout. -/
theorem answered_at_once : Answered 0 ∧ ¬ Answered 1 := by
  have htransient : ∀ i < 1, ∃ e : Exc,
      (timeouts 1).create (freshState.sdkCalls.length + i) = .error e ∧ e.isTransient = true := by
    intro i hi
    obtain rfl := Nat.lt_one_iff.mp hi
    exact ⟨.timeoutError "timed out", rfl, rfl⟩
  constructor
  · exact (transient_retried_iff (plainManager (timeouts 0)) (timeouts 0) injected
      (greeting [] true) none "global" freshState 0 hello rfl rfl rfl rfl (Nat.zero_le 3)
      (fun i hi => absurd hi (Nat.not_lt_zero i)) rfl).mpr ⟨rfl, rfl, fun _ => rfl⟩
  · intro hanswered
    have hnone := (transient_retried_iff (plainManager (timeouts 1)) (timeouts 1) injected
      (greeting [] true) none "global" freshState 1 hello rfl rfl rfl rfl
      (show 1 ≤ 3 by decide) htransient rfl).mp hanswered
    exact absurd hnone.1 Nat.one_ne_zero

/-- One timeout, and the chat raises. -/
theorem timeout_not_retried : ¬ Answered 1 := by
  rintro ⟨s', hrun, -⟩
  have hprovider : (plainManager (timeouts 1)).resolve none =
      .ok (injected.toProvider (timeouts 1)) := rfl
  have hraises : (timeouts 1).create freshState.sdkCalls.length =
      .error (.timeoutError "timed out") := rfl
  have huncached : (plainManager (timeouts 1)).getResponse (timeouts 1) (greeting [] true)
      freshState = .ok none freshState := rfl
  obtain ⟨raised, s'', hraised⟩ := LLMManager.chat_raises_of_transient "global" hprovider rfl rfl
    huncached hraises rfl
  rw [hraised] at hrun
  cases hrun

end YoutubeFactory.LlmCore
