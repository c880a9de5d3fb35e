import YoutubeFactory.LlmCore.Retry
import YoutubeFactory.Lib.Interleaving

/-!
# Calls through an open breaker

Calls of `with_retry` on one breaker, which take turns where they wait: for their operation, and in
the sleep before a retry.  A call asks the breaker before its first attempt only, so that it may
wake up when others, or itself, have opened the breaker in the meantime.

The trace remembers what happened, the latest first: a failure has opened the breaker for a key, a
success has closed it, an operation was started.
-/

namespace YoutubeFactory.LlmCore

open Interleaving

/-! ## The trace -/

inductive BreakerEvent where
  | opened (key : String) (time : Instant)
  | closed (key : String)
  | started (key : String) (time : Instant)
deriving DecidableEq, Repr

/-- When the breaker was opened for a key since a success has last closed it. -/
def openings (key : String) : List BreakerEvent → List Instant
  | [] => []
  | .opened k time :: trace => if k = key then time :: openings key trace else openings key trace
  | .closed k :: trace => if k = key then [] else openings key trace
  | .started _ _ :: trace => openings key trace

/-- No operation was started in the time after an opening. -/
def KeepsOut (resetAfter : Int) : List BreakerEvent → Prop
  | [] => True
  | .started key time :: trace =>
      (∀ opened ∈ openings key trace, opened ≤ time - resetAfter) ∧ KeepsOut resetAfter trace
  | .opened _ _ :: trace => KeepsOut resetAfter trace
  | .closed _ :: trace => KeepsOut resetAfter trace

instance decidableKeepsOut (resetAfter : Int) :
    (trace : List BreakerEvent) → Decidable (KeepsOut resetAfter trace)
  | [] => isTrue trivial
  | .started key time :: trace =>
      @instDecidableAnd _ _
        (inferInstanceAs (Decidable (∀ opened ∈ openings key trace, opened ≤ time - resetAfter)))
        (decidableKeepsOut resetAfter trace)
  | .opened _ _ :: trace => decidableKeepsOut resetAfter trace
  | .closed _ :: trace => decidableKeepsOut resetAfter trace

/-! ## Calls that take turns -/

section

variable {T : Type}

/-- Where a call of `with_retry` waits. -/
inductive Place (T : Type) where
  | called
  | running (attempt : Nat)
  | sleeping (attempt : Nat)
  | ended (result : Except Exc T)

structure RetryCall (T : Type) where
  key : String
  policy : RetryPolicy
  place : Place T

/-- The clock, and what the call was waiting for: how its operation has ended, or whether its
sleep was cancelled. -/
structure RetryInput (T : Type) where
  now : Instant
  reply : Except Exc T

/-- The breaker, with what happened and the readings of the clock. -/
structure BreakerStore where
  breaker : CircuitBreaker
  trace : List BreakerEvent
  readings : List Instant

/-- What the end of an operation means for the breaker. -/
def CircuitBreaker.events (breaker : CircuitBreaker) (key : String) (now : Instant) :
    Except Exc T → List BreakerEvent
  | .ok _ => [.closed key]
  | .error e => if e.isException && breaker.trips key then [.opened key now] else []

def Next.place : Next T → Place T
  | .ends result => .ended result
  | .retries attempt => .sleeping attempt

/-- A turn of a call. -/
def resume (store : BreakerStore) (input : RetryInput T) (call : RetryCall T) :
    BreakerStore × RetryCall T :=
  let readings := input.now :: store.readings
  let started := .started call.key input.now :: store.trace
  match call.place with
  | .called =>
      match store.breaker.check call.key input.now with
      | .error e => ({ store with readings }, { call with place := .ended (.error e) })
      | .ok breaker => (⟨breaker, started, readings⟩, { call with place := .running 0 })
  | .running attempt =>
      let (breaker, next) :=
        settle call.policy call.key store.breaker input.now attempt input.reply
      (⟨breaker, store.breaker.events call.key input.now input.reply ++ store.trace, readings⟩,
        { call with place := next.place })
  | .sleeping attempt =>
      match input.reply with
      | .error e => ({ store with readings }, { call with place := .ended (.error e) })
      | .ok _ => (⟨store.breaker, started, readings⟩, { call with place := .running attempt })
  | .ended _ => ({ store with readings }, call)

abbrev RetrySystem (T : Type) := System BreakerStore (RetryCall T)

abbrev RetryTurn (T : Type) := Turn (RetryInput T)

/-- A new breaker, and calls that have not begun. -/
def RetrySystem.start (failureThreshold resetAfter : Int) (calls : List (String × RetryPolicy)) :
    RetrySystem T :=
  ⟨⟨CircuitBreaker.init failureThreshold resetAfter, [], []⟩,
    calls.map fun call => ⟨call.1, call.2, .called⟩⟩

/-- The call wakes up for a retry. -/
def RetryCall.wakes (call : RetryCall T) (reply : Except Exc T) : Bool :=
  match call.place, reply with
  | .sleeping _, .ok _ => true
  | _, _ => false

/-- A call that wakes up for a retry would find the breaker closed. -/
def WakesClosed (s : RetrySystem T) (turn : RetryTurn T) : Prop :=
  ∀ call ∈ s.procs[turn.proc]?, call.wakes turn.input.reply = true →
    (s.store.breaker.isOpen call.key turn.input.now).1 = false

instance (s : RetrySystem T) (turn : RetryTurn T) : Decidable (WakesClosed s turn) :=
  inferInstanceAs (Decidable (∀ call ∈ s.procs[turn.proc]?,
    call.wakes turn.input.reply = true →
      (s.store.breaker.isOpen call.key turn.input.now).1 = false))

/-- The clock does not go back. -/
def ClockForward (turns : List (RetryTurn T)) : Prop :=
  (turns.map fun turn => turn.input.now).Pairwise (· ≤ ·)

instance (turns : List (RetryTurn T)) : Decidable (ClockForward turns) :=
  inferInstanceAs (Decidable ((turns.map fun turn => turn.input.now).Pairwise (· ≤ ·)))

/-! ## What the breaker knows of the openings -/

/-- The breaker keeps the latest opening.  Where it keeps none, it has seen that all of them are
over. -/
structure Tracks (resetAfter : Int) (readings : List Instant) (opened : Option Instant)
    (times : List Instant) : Prop where
  past : ∀ time ∈ times, time ∈ readings
  latest : ∀ last, opened = some last → last ∈ times ∧ ∀ time ∈ times, time ≤ last
  cleared : opened = none → ∀ time ∈ times, ∃ r ∈ readings, time ≤ r - resetAfter

namespace Tracks

variable {resetAfter : Int} {readings times : List Instant} {opened : Option Instant}

theorem closed : Tracks resetAfter readings none [] :=
  ⟨fun _ h => absurd h List.not_mem_nil, nofun, fun _ _ h => absurd h List.not_mem_nil⟩

theorem read (h : Tracks resetAfter readings opened times) (now : Instant) :
    Tracks resetAfter (now :: readings) opened times where
  past time ht := List.mem_cons_of_mem now (h.past time ht)
  latest := h.latest
  cleared hnone time ht := by
    obtain ⟨r, hr, hle⟩ := h.cleared hnone time ht
    exact ⟨r, List.mem_cons_of_mem now hr, hle⟩

/-- A failure opens the breaker, now. -/
theorem reopened (h : Tracks resetAfter readings opened times) {now : Instant}
    (hnow : ∀ r ∈ readings, r ≤ now) :
    Tracks resetAfter (now :: readings) (some now) (now :: times) where
  past time ht := by
    rcases List.mem_cons.mp ht with rfl | ht
    · exact List.mem_cons_self
    · exact List.mem_cons_of_mem now (h.past time ht)
  latest last hlast := by
    cases hlast
    refine ⟨List.mem_cons_self, fun time ht => ?_⟩
    rcases List.mem_cons.mp ht with rfl | ht
    · exact le_rfl
    · exact hnow time (h.past time ht)
  cleared := nofun

/-- The breaker may be cleared when all openings are over. -/
theorem clear (h : Tracks resetAfter readings opened times) {now : Instant}
    (hover : ∀ time ∈ times, time ≤ now - resetAfter) :
    Tracks resetAfter (now :: readings) none times where
  past time ht := List.mem_cons_of_mem now (h.past time ht)
  latest := nofun
  cleared _ time ht := ⟨now, List.mem_cons_self, hover time ht⟩

/-- All openings are over if the latest is. -/
theorem over_iff (h : Tracks resetAfter readings opened times) {now : Instant}
    (hnow : ∀ r ∈ readings, r ≤ now) :
    (∀ time ∈ times, time ≤ now - resetAfter) ↔
      ∀ last, opened = some last → last ≤ now - resetAfter := by
  constructor
  · intro hover last hlast
    exact hover last (h.latest last hlast).1
  · intro hover time ht
    cases hopened : opened with
    | none =>
        obtain ⟨r, hr, hle⟩ := h.cleared hopened time ht
        exact hle.trans (sub_le_sub_right (hnow r hr) resetAfter)
    | some last => exact ((h.latest last hopened).2 time ht).trans (hover last hopened)

end Tracks

/-! ## The breaker's steps -/

namespace CircuitBreaker

variable {breaker breaker' : CircuitBreaker} {key : String} {now : Instant}

theorem isOpen_eq_false_iff :
    (breaker.isOpen key now).1 = false ↔
      ∀ last, breaker.openedAt key = some last → last ≤ now - breaker.resetAfter := by
  unfold isOpen
  cases breaker.openedAt key with
  | none => exact iff_of_true rfl nofun
  | some opened =>
      dsimp only
      split
      · next hover =>
          refine iff_of_true rfl fun last hlast => ?_
          cases hlast
          exact le_sub_comm.mp hover
      · next hover =>
          exact iff_of_false (fun h => Bool.false_ne_true h.symm) fun h =>
            hover (le_sub_comm.mp (h opened rfl))

/-- A breaker that is asked lets the call pass if it is closed, or open for long enough. -/
theorem check_cases (breaker : CircuitBreaker) (key : String) (now : Instant) :
    (∃ e, breaker.check key now = .error e) ∨
      ∃ breaker', breaker.check key now = .ok breaker' ∧
        (breaker.isOpen key now).1 = false ∧ breaker'.resetAfter = breaker.resetAfter ∧
        breaker'.openedAt = Function.update breaker.openedAt key none := by
  unfold check isOpen
  cases hopened : breaker.openedAt key with
  | none =>
      refine .inr ⟨breaker, rfl, rfl, rfl, ?_⟩
      rw [← hopened, Function.update_eq_self]
  | some opened =>
      dsimp only
      by_cases hover : breaker.resetAfter ≤ now - opened
      · rw [if_pos hover]
        exact .inr ⟨_, rfl, rfl, rfl, rfl⟩
      · rw [if_neg hover]
        exact .inl ⟨_, rfl⟩

end CircuitBreaker

theorem Exc.isException_of_isRetryable {e : Exc} (h : e.isRetryable = true) :
    e.isException = true := by
  cases e <;> first | rfl | cases h

/-- Every `Exception` counts as a failure. -/
theorem settle_error_fst (policy : RetryPolicy) (key : String) (breaker : CircuitBreaker)
    (now : Instant) (attempt : Nat) (e : Exc) :
    (settle policy key breaker now attempt (.error e : Except Exc T)).1 =
      if e.isException then breaker.recordFailure key now else breaker := by
  dsimp only [settle]
  by_cases hretryable : e.isRetryable = true
  · rw [if_pos hretryable, if_pos (Exc.isException_of_isRetryable hretryable)]
  · rw [if_neg hretryable]
    split <;> rfl

theorem settle_resetAfter (policy : RetryPolicy) (key : String) (breaker : CircuitBreaker)
    (now : Instant) (attempt : Nat) (reply : Except Exc T) :
    (settle policy key breaker now attempt reply).1.resetAfter = breaker.resetAfter := by
  cases reply with
  | ok result => rfl
  | error e =>
      rw [settle_error_fst]
      split <;> rfl

/-- Once an operation has ended, the breaker knows what that means. -/
theorem settle_tracks {policy : RetryPolicy} {key k : String} {breaker : CircuitBreaker}
    {now : Instant} {attempt : Nat} {trace : List BreakerEvent} {readings : List Instant}
    (reply : Except Exc T)
    (h : Tracks breaker.resetAfter readings (breaker.openedAt k) (openings k trace))
    (hnow : ∀ r ∈ readings, r ≤ now) :
    Tracks breaker.resetAfter (now :: readings)
      ((settle policy key breaker now attempt reply).1.openedAt k)
      (openings k (breaker.events key now reply ++ trace)) := by
  cases reply with
  | ok result =>
      show Tracks _ _ (Function.update breaker.openedAt key none k)
        (if key = k then [] else openings k trace)
      by_cases hk : key = k
      · subst hk
        rw [Function.update_self, if_pos rfl]
        exact Tracks.closed
      · rw [Function.update_of_ne (Ne.symm hk), if_neg hk]
        exact h.read now
  | error e =>
      rw [settle_error_fst]
      dsimp only [CircuitBreaker.events]
      by_cases hexception : e.isException = true
      · rw [if_pos hexception, hexception, Bool.true_and]
        dsimp only [CircuitBreaker.recordFailure]
        by_cases htrips : breaker.trips key = true
        · rw [if_pos htrips, if_pos htrips]
          show Tracks _ _ (Function.update breaker.openedAt key (some now) k)
            (if key = k then now :: openings k trace else openings k trace)
          by_cases hk : key = k
          · subst hk
            rw [Function.update_self, if_pos rfl]
            exact h.reopened hnow
          · rw [Function.update_of_ne (Ne.symm hk), if_neg hk]
            exact h.read now
        · rw [if_neg htrips, if_neg htrips]
          exact h.read now
      · rw [if_neg hexception, Bool.eq_false_iff.mpr hexception, Bool.false_and,
          if_neg Bool.false_ne_true]
        exact h.read now

/-- What ended operations add to the trace starts nothing. -/
theorem keepsOut_events {resetAfter : Int} {breaker : CircuitBreaker} {key : String}
    {now : Instant} {trace : List BreakerEvent} (reply : Except Exc T) :
    KeepsOut resetAfter (breaker.events key now reply ++ trace) ↔ KeepsOut resetAfter trace := by
  cases reply with
  | ok result => exact Iff.rfl
  | error e =>
      dsimp only [CircuitBreaker.events]
      split <;> exact Iff.rfl

/-! ## One turn -/

/-- The breaker knows of the openings of every key. -/
structure BreakerStore.Tracked (resetAfter : Int) (store : BreakerStore) : Prop where
  resets : store.breaker.resetAfter = resetAfter
  tracks : ∀ key, Tracks resetAfter store.readings (store.breaker.openedAt key)
    (openings key store.trace)

variable {resetAfter : Int} {store : BreakerStore} {input : RetryInput T}

theorem BreakerStore.Tracked.read (h : store.Tracked resetAfter) (now : Instant) :
    BreakerStore.Tracked resetAfter { store with readings := now :: store.readings } :=
  ⟨h.resets, fun key => (h.tracks key).read now⟩

/-- An operation for a key starts in time if the breaker is not open for the key. -/
theorem BreakerStore.Tracked.isOpen_iff (h : store.Tracked resetAfter) {now : Instant}
    (hnow : ∀ r ∈ store.readings, r ≤ now) (key : String) :
    (store.breaker.isOpen key now).1 = false ↔
      ∀ opened ∈ openings key store.trace, opened ≤ now - resetAfter := by
  rw [CircuitBreaker.isOpen_eq_false_iff, h.resets, (h.tracks key).over_iff hnow]

theorem resume_tracked (h : store.Tracked resetAfter) (call : RetryCall T)
    (hnow : ∀ r ∈ store.readings, r ≤ input.now) :
    (resume store input call).1.Tracked resetAfter := by
  unfold resume
  cases hplace : call.place with
  | ended result => exact h.read input.now
  | sleeping attempt =>
      cases hreply : input.reply with
      | error e => exact h.read input.now
      | ok result => exact ⟨h.resets, fun key => (h.tracks key).read input.now⟩
  | running attempt =>
      dsimp only
      refine ⟨(settle_resetAfter _ _ _ _ _ _).trans h.resets, fun key => ?_⟩
      have htracks := h.tracks key
      rw [← h.resets] at htracks ⊢
      exact settle_tracks input.reply htracks hnow
  | called =>
      dsimp only
      rcases store.breaker.check_cases call.key input.now with
        ⟨e, hcheck⟩ | ⟨breaker, hcheck, hclosed, hresets, hopened⟩
      · rw [hcheck]
        exact h.read input.now
      · rw [hcheck]
        refine ⟨hresets.trans h.resets, fun key => ?_⟩
        dsimp only
        rw [hopened]
        by_cases hkey : key = call.key
        · subst hkey
          rw [Function.update_self]
          exact (h.tracks call.key).clear ((h.isOpen_iff hnow call.key).mp hclosed)
        · rw [Function.update_of_ne hkey]
          exact (h.tracks key).read input.now

/-- A turn keeps out of the time after an opening if no retry wakes up to an open breaker. -/
theorem keepsOut_resume_iff (h : store.Tracked resetAfter) (call : RetryCall T)
    (hnow : ∀ r ∈ store.readings, r ≤ input.now) (hkeeps : KeepsOut resetAfter store.trace) :
    KeepsOut resetAfter (resume store input call).1.trace ↔
      (call.wakes input.reply = true →
        (store.breaker.isOpen call.key input.now).1 = false) := by
  unfold resume RetryCall.wakes
  cases hplace : call.place with
  | ended result => exact iff_of_true hkeeps nofun
  | sleeping attempt =>
      cases hreply : input.reply with
      | error e => exact iff_of_true hkeeps nofun
      | ok result =>
          rw [h.isOpen_iff hnow]
          exact ⟨fun hstarted _ => hstarted.1, fun hover => ⟨hover rfl, hkeeps⟩⟩
  | running attempt => exact iff_of_true ((keepsOut_events input.reply).mpr hkeeps) nofun
  | called =>
      refine iff_of_true ?_ nofun
      dsimp only
      rcases store.breaker.check_cases call.key input.now with
        ⟨e, hcheck⟩ | ⟨breaker, hcheck, hclosed, -, -⟩
      · rw [hcheck]
        exact hkeeps
      · rw [hcheck]
        exact ⟨(h.isOpen_iff hnow call.key).mp hclosed, hkeeps⟩

/-! ## Runs -/

theorem resume_readings (store : BreakerStore) (input : RetryInput T) (call : RetryCall T) :
    (resume store input call).1.readings = input.now :: store.readings := by
  unfold resume
  cases call.place with
  | ended result => rfl
  | sleeping attempt => cases input.reply <;> rfl
  | running attempt => rfl
  | called =>
      dsimp only
      cases store.breaker.check call.key input.now <;> rfl

/-- A turn reads the clock once, or not at all. -/
theorem mem_readings_step (s : RetrySystem T) (turn : RetryTurn T) (r : Instant)
    (hr : r ∈ (Interleaving.step resume s turn).store.readings) :
    r = turn.input.now ∨ r ∈ s.store.readings := by
  cases hp : s.procs[turn.proc]? with
  | none =>
      rw [step_of_none hp] at hr
      exact .inr hr
  | some call =>
      rw [step_of_some hp, resume_readings] at hr
      exact List.mem_cons.mp hr

theorem step_tracked (s : RetrySystem T) (turn : RetryTurn T)
    (hnow : ∀ r ∈ s.store.readings, r ≤ turn.input.now) (h : s.store.Tracked resetAfter) :
    (Interleaving.step resume s turn).store.Tracked resetAfter := by
  cases hp : s.procs[turn.proc]? with
  | none =>
      rw [step_of_none hp]
      exact h
  | some call =>
      rw [step_of_some hp]
      exact resume_tracked h call hnow

theorem keepsOut_step_iff (s : RetrySystem T) (turn : RetryTurn T)
    (hnow : ∀ r ∈ s.store.readings, r ≤ turn.input.now) (h : s.store.Tracked resetAfter)
    (hkeeps : KeepsOut resetAfter s.store.trace) :
    KeepsOut resetAfter (Interleaving.step resume s turn).store.trace ↔ WakesClosed s turn := by
  unfold WakesClosed
  cases hp : s.procs[turn.proc]? with
  | none =>
      rw [step_of_none hp]
      exact iff_of_true hkeeps nofun
  | some call =>
      rw [step_of_some hp]
      dsimp only
      rw [keepsOut_resume_iff h call hnow hkeeps]
      exact ⟨fun hwakes c hc => by cases hc; exact hwakes, fun hwakes => hwakes call rfl⟩

/-- On a clock that does not go back, no operation is started in the time after an opening, all
along the run, if and only if no retry wakes up to an open breaker. -/
theorem kept_out_iff (failureThreshold resetAfter : Int) (calls : List (String × RetryPolicy))
    (turns : List (RetryTurn T)) (hforward : ClockForward turns) :
    Run.Always (Interleaving.step resume) (fun s => KeepsOut resetAfter s.store.trace)
        (RetrySystem.start failureThreshold resetAfter calls) turns ↔
      Run.EveryStep (Interleaving.step resume) WakesClosed
        (RetrySystem.start failureThreshold resetAfter calls) turns := by
  have hside : Run.EveryStep (Interleaving.step resume)
      (fun s turn => ∀ r ∈ s.store.readings, r ≤ turn.input.now)
      (RetrySystem.start failureThreshold resetAfter calls) turns :=
    Run.everyStep_of_pairwise mem_readings_step hforward fun r hr => absurd hr List.not_mem_nil
  exact Run.always_iff_everyStep step_tracked keepsOut_step_iff turns hside
    ⟨rfl, fun _ => Tracks.closed⟩ trivial

end

/-! ## A call that wakes up too early -/

/-- A turn of one of the calls, a number of seconds after the start. -/
def turnAt (seconds : Nat) (call : Nat) (reply : Except Exc Unit) : RetryTurn Unit :=
  ⟨call, ⟨seconds * 1000000, reply⟩⟩

def fails : Except Exc Unit := .error (.timeoutError "timed out")

/-- The first failure opens the breaker.  The second call is refused, the third starts after the
reset time and succeeds, and then the first wakes up for its retry. -/
def refusedInBetween : List (RetryTurn Unit) :=
  [turnAt 0 0 (.ok ()), turnAt 1 0 fails, turnAt 5 1 (.ok ()), turnAt 31 2 (.ok ()),
    turnAt 32 2 (.ok ()), turnAt 33 0 (.ok ()), turnAt 34 0 (.ok ())]

theorem opened_breaker_keeps_out :
    Run.Always (Interleaving.step resume) (fun s => KeepsOut 30000000 s.store.trace)
        (RetrySystem.start 1 30000000 (List.replicate 3 ("anthropic", ⟨1⟩))) refusedInBetween ∧
      (Run.run (Interleaving.step resume)
        (RetrySystem.start 1 30000000 (List.replicate 3 ("anthropic", ⟨1⟩)))
        refusedInBetween).store.trace =
        [.closed "anthropic", .started "anthropic" 33000000, .closed "anthropic",
          .started "anthropic" 31000000, .opened "anthropic" 1000000, .started "anthropic" 0] :=
  ⟨(kept_out_iff 1 30000000 (List.replicate 3 ("anthropic", ⟨1⟩)) refusedInBetween (by decide)).mpr
    ⟨by decide, by decide, by decide, by decide, by decide, by decide, by decide, trivial⟩,
    by decide⟩

/-- The first call fails three times and sleeps.  The second call has the fourth and the fifth
failure, which opens the breaker, and then the first wakes up. -/
def earlyWaking : List (RetryTurn Unit) :=
  [turnAt 0 0 (.ok ()), turnAt 1 0 fails, turnAt 2 0 (.ok ()), turnAt 3 0 fails,
    turnAt 4 0 (.ok ()), turnAt 5 0 fails, turnAt 5 1 (.ok ()), turnAt 6 1 fails,
    turnAt 6 1 (.ok ()), turnAt 7 1 fails, turnAt 7 0 (.ok ())]

theorem woke_to_open :
    ClockForward earlyWaking ∧
      ¬ Run.Always (Interleaving.step resume) (fun s => KeepsOut 30000000 s.store.trace)
        (RetrySystem.start 5 30000000 [("anthropic", ⟨3⟩), ("anthropic", ⟨3⟩)]) earlyWaking :=
  ⟨by decide, mt Run.Always.last (by decide +kernel)⟩

end YoutubeFactory.LlmCore
