import YoutubeFactory.LlmCore.Messages
import Mathlib.Logic.Function.Basic

/-!
# Retries and the circuit breaker

`CircuitBreaker` and the steps of `with_retry` of `app/core/llm/retry.py`.  A call gives way to
others while its operation runs and while it sleeps, so `with_retry` is cut there: it begins, an
operation ends, and it wakes up.  The delays and their jitter only take time and are left out.
-/

namespace YoutubeFactory.LlmCore

open Python

/-- A moment, in microseconds. -/
abbrev Instant := Int

/-! ## The breaker -/

/-- `_failures` has zero where there is no entry. -/
structure CircuitBreaker where
  failureThreshold : Int
  resetAfter : Int
  failures : String → Nat
  openedAt : String → Option Instant

namespace CircuitBreaker

/-- `CircuitBreaker()`, with its fields. -/
def init (failureThreshold resetAfter : Int) : CircuitBreaker where
  failureThreshold
  resetAfter
  failures _ := 0
  openedAt _ := none

variable (breaker : CircuitBreaker) (key : String)

/-- `_is_open`.  A breaker that has been open for long enough is cleared. -/
def isOpen (now : Instant) : Bool × CircuitBreaker :=
  match breaker.openedAt key with
  | none => (false, breaker)
  | some opened =>
      if breaker.resetAfter ≤ now - opened then
        (false, { breaker with
          openedAt := Function.update breaker.openedAt key none
          failures := Function.update breaker.failures key 0 })
      else (true, breaker)

/-- `check` -/
def check (now : Instant) : Except Exc CircuitBreaker :=
  match breaker.isOpen key now with
  | (true, _) => .error (.llm .circuitOpen LlmErrorKind.circuitOpen.message [("key", .str key)])
  | (false, breaker) => .ok breaker

/-- `record_success` -/
def recordSuccess : CircuitBreaker :=
  { breaker with
    failures := Function.update breaker.failures key 0
    openedAt := Function.update breaker.openedAt key none }

/-- One more failure reaches the threshold. -/
def trips : Bool := breaker.failureThreshold ≤ (breaker.failures key : Int) + 1

/-- `record_failure` -/
def recordFailure (now : Instant) : CircuitBreaker :=
  { breaker with
    failures := Function.update breaker.failures key (breaker.failures key + 1)
    openedAt :=
      if breaker.trips key then Function.update breaker.openedAt key (some now)
      else breaker.openedAt }

end CircuitBreaker

/-! ## with_retry -/

structure RetryPolicy where
  maxRetries : Int

/-- `_RETRYABLE` -/
def Exc.isRetryable : Exc → Bool
  | .llm .rateLimit _ _ => true
  | .llm .timeout _ _ => true
  | .timeoutError _ => true
  | .connectionError _ => true
  | _ => false

/-- What follows the end of an operation. -/
inductive Next (T : Type) where
  | ends (result : Except Exc T)
  /-- After a sleep. -/
  | retries (attempt : Nat)

variable {T : Type}

/-- The `try` statement of the loop, once the operation has ended. -/
def settle (policy : RetryPolicy) (key : String) (breaker : CircuitBreaker) (now : Instant)
    (attempt : Nat) : Except Exc T → CircuitBreaker × Next T
  | .ok result => (breaker.recordSuccess key, .ends (.ok result))
  | .error e =>
      if e.isRetryable then
        (breaker.recordFailure key now,
          if policy.maxRetries < (attempt + 1 : Nat) then .ends (.error e)
          else .retries (attempt + 1))
      else if e.isException then (breaker.recordFailure key now, .ends (.error e))
      else (breaker, .ends (.error e))

/-- A retry is one of those the policy allows. -/
theorem settle_retries {policy : RetryPolicy} {key : String} {breaker breaker' : CircuitBreaker}
    {now : Instant} {attempt attempt' : Nat} {result : Except Exc T}
    (h : settle policy key breaker now attempt result = (breaker', .retries attempt')) :
    attempt' = attempt + 1 ∧ (attempt' : Int) ≤ policy.maxRetries := by
  cases result with
  | ok result => cases h
  | error e =>
      dsimp only [settle] at h
      split at h
      · split at h
        · simp only [Prod.mk.injEq, reduceCtorEq, and_false] at h
        · next hmax =>
            obtain ⟨-, hnext⟩ := Prod.mk.inj h
            cases hnext
            exact ⟨rfl, not_lt.mp hmax⟩
      · split at h <;> simp only [Prod.mk.injEq, reduceCtorEq, and_false] at h

end YoutubeFactory.LlmCore
