import YoutubeFactory.LlmCore.Retry
import YoutubeFactory.Lib.Interleaving
import YoutubeFactory.Lib.Semaphore

/-!
# Slots of the LLM manager

`LLMManager.chat` and `LLMManager.stream` of `app/core/llm/manager.py`, called many times at once,
with the concurrency limit of `RateLimiter` and what `record_request` of `app/core/llm/metrics.py`
is given.  A call gives way to others where it waits: for the cache, for the limit per minute, for a
slot, for its provider, in the sleep before a retry, and where a stream has given an event.  In any
of these it may be cancelled.

In every interleaving there are never more calls at the providers than slots, a call that waits for
a slot is preceded by one that has one, all slots are free when all calls have ended, and each call
that has come to its end is recorded as it ended (`slots_kept`).
-/

namespace YoutubeFactory.LlmCore

open Interleaving

/-! ## Calls -/

/-- How a call has ended. -/
inductive Ending where
  /-- Before it had a slot. -/
  | refused (e : Exc)
  | hit (usage : Usage)
  /-- While it had a slot. -/
  | failed (e : Exc)
  | answered (usage : Usage)
  /-- The cache has raised when it was given the response. -/
  | unstored (e : Exc)
  | streamed (final : Option Usage)

/-- Where a call waits. -/
inductive Stage where
  | called
  | caching
  | limiting
  | waiting (ticket : Nat)
  | running (attempt : Nat)
  | sleeping (attempt : Nat)
  | streaming (final : Option Usage)
  | storing (usage : Usage)
  | ended (ending : Ending)

/-- A call of `chat` or of `stream`, with the slug of its provider and what `_resolve` raises. -/
structure ManagedCall where
  slug : String
  resolved : Except Exc Unit
  model : String
  streams : Bool
  stage : Stage

/-- What a call has waited for.  There may be the usage of a response with it, and a stream may have
more to give. -/
structure Reply where
  usage : Option Usage
  more : Bool

structure ManagedInput where
  now : Instant
  reply : Except Exc Reply

/-! ## The manager -/

/-- What is recorded of a request, without its latency and its cost. -/
structure Recorded where
  provider : String
  model : String
  usage : Usage
  streamed : Bool
  outcome : String
deriving DecidableEq

/-- `record_request` -/
def recordRequest (provider model : String) (usage : Usage) (streamed cacheHit : Bool)
    (error : Option String) : Recorded where
  provider
  model
  usage
  streamed
  outcome :=
    if error.getD "" ≠ "" then "error" else if cacheHit then "cache_hit" else "success"

/-- `Usage()` -/
def Usage.none : Usage := ⟨0, 0, 0, 0⟩

structure ManagerStore where
  semaphore : Semaphore
  breaker : CircuitBreaker
  recorded : List Recorded

namespace ManagedCall

variable (call : ManagedCall) (store : ManagerStore) (now : Instant)

/-- The call goes on to wait. -/
def awaits (stage : Stage) : ManagedCall := { call with stage }

/-- A chat records what its provider has raised, unless it is cancelled.  A stream does not. -/
def fail (e : Exc) : ManagerStore × ManagedCall :=
  ({ store with
      semaphore := store.semaphore.release
      recorded :=
        if !call.streams && e.isException then
          store.recorded ++
            [recordRequest call.slug call.model .none false false (some e.text)]
        else store.recorded },
    call.awaits (.ended (.failed e)))

/-- The call has a slot. -/
def begin : ManagerStore × ManagedCall :=
  if call.streams then (store, call.awaits (.streaming none))
  else
    match store.breaker.check call.slug now with
    | .error e => call.fail store e
    | .ok breaker => ({ store with breaker }, call.awaits (.running 0))

/-- The call is within the limit per minute. -/
def acquire : ManagerStore × ManagedCall :=
  match store.semaphore.acquire with
  | (none, semaphore) => call.begin { store with semaphore } now
  | (some ticket, semaphore) => ({ store with semaphore }, call.awaits (.waiting ticket))

/-- The call ends without a slot. -/
def refuse (e : Exc) : ManagerStore × ManagedCall := (store, call.awaits (.ended (.refused e)))

/-- Whether what was waited for is a cancellation. -/
def isCancelled (reply : Except Exc Reply) : Bool :=
  match reply with
  | .ok _ => false
  | .error _ => true

/-- A turn of a call. -/
def resume (policy : RetryPolicy) (store : ManagerStore) (input : ManagedInput)
    (call : ManagedCall) : ManagerStore × ManagedCall :=
  match call.stage, input.reply with
  | .called, _ =>
      match call.resolved with
      | .error e => call.refuse store e
      | .ok () => (store, call.awaits (if call.streams then .limiting else .caching))
  | .caching, .error e => call.refuse store e
  | .caching, .ok reply =>
      match reply.usage with
      | none => (store, call.awaits .limiting)
      | some usage =>
          ({ store with
              recorded := store.recorded ++
                [recordRequest call.slug call.model usage false true none] },
            call.awaits (.ended (.hit usage)))
  | .limiting, .error e => call.refuse store e
  | .limiting, .ok _ => call.acquire store input.now
  | .waiting ticket, reply =>
      match store.semaphore.resume ticket (isCancelled reply) with
      | (.asleep, semaphore) => ({ store with semaphore }, call)
      | (.acquired, semaphore) => call.begin { store with semaphore } input.now
      | (.cancelled, semaphore) => call.refuse { store with semaphore } .cancelled
  | .running attempt, reply =>
      match settle policy call.slug store.breaker input.now attempt reply with
      | (breaker, .ends (.ok reply)) =>
          ({ store with breaker, semaphore := store.semaphore.release },
            call.awaits (.storing (reply.usage.getD .none)))
      | (breaker, .ends (.error e)) => call.fail { store with breaker } e
      | (breaker, .retries attempt) => ({ store with breaker }, call.awaits (.sleeping attempt))
  | .sleeping _, .error e => call.fail store e
  | .sleeping attempt, .ok _ => (store, call.awaits (.running attempt))
  | .streaming _, .error e => call.fail store e
  | .streaming final, .ok reply =>
      let final := (reply.usage <|> final)
      if reply.more then (store, call.awaits (.streaming final))
      else
        ({ store with
            semaphore := store.semaphore.release
            recorded := store.recorded ++
              match final with
              | none => []
              | some usage => [recordRequest call.slug call.model usage true false none] },
          call.awaits (.ended (.streamed final)))
  | .storing _, .error e => (store, call.awaits (.ended (.unstored e)))
  | .storing usage, .ok _ =>
      ({ store with
          recorded := store.recorded ++
            [recordRequest call.slug call.model usage false false none] },
        call.awaits (.ended (.answered usage)))
  | .ended _, _ => (store, call)

end ManagedCall

/-! ## What the calls have -/

namespace ManagedCall

/-- The call has a slot. -/
def holds (call : ManagedCall) : Bool :=
  match call.stage with
  | .running _ | .sleeping _ | .streaming _ => true
  | _ => false

/-- The call is at its provider. -/
def inFlight (call : ManagedCall) : Bool :=
  match call.stage with
  | .running _ | .streaming _ => true
  | _ => false

def ticket? (call : ManagedCall) : Option Nat :=
  match call.stage with
  | .waiting ticket => some ticket
  | _ => none

/-- What is recorded of a call by its end. -/
def records (call : ManagedCall) : List Recorded :=
  match call.stage with
  | .ended (.hit usage) => [recordRequest call.slug call.model usage false true none]
  | .ended (.failed e) =>
      if !call.streams && e.isException then
        [recordRequest call.slug call.model .none false false (some e.text)]
      else []
  | .ended (.answered usage) => [recordRequest call.slug call.model usage false false none]
  | .ended (.streamed (some usage)) =>
      [recordRequest call.slug call.model usage true false none]
  | _ => []

def hasEnded (call : ManagedCall) : Bool :=
  match call.stage with
  | .ended _ => true
  | _ => false

section

variable {call : ManagedCall}

/-- A call with a slot does not wait for one, and nothing of it is recorded yet. -/
theorem bare_of_holds (h : call.holds = true) : call.ticket? = none ∧ call.records = [] := by
  obtain ⟨slug, resolved, model, streams, stage⟩ := call
  cases stage with
  | running | sleeping | streaming => exact ⟨rfl, rfl⟩
  | called | caching | limiting | waiting | storing | ended => cases h

theorem holds_of_inFlight (h : call.inFlight = true) : call.holds = true := by
  obtain ⟨slug, resolved, model, streams, stage⟩ := call
  cases stage with
  | running | streaming => rfl
  | called | caching | limiting | waiting | sleeping | storing | ended => cases h

theorem waiting_of_ticket {ticket : Nat} (h : call.ticket? = some ticket) :
    call.stage = .waiting ticket := by
  obtain ⟨slug, resolved, model, streams, stage⟩ := call
  cases stage with
  | waiting => exact congrArg Stage.waiting (Option.some.inj h)
  | called | caching | limiting | running | sleeping | streaming | storing | ended => cases h

theorem bare_of_hasEnded (h : call.hasEnded = true) :
    call.holds = false ∧ call.ticket? = none := by
  obtain ⟨slug, resolved, model, streams, stage⟩ := call
  cases stage with
  | ended => exact ⟨rfl, rfl⟩
  | called | caching | limiting | waiting | running | sleeping | streaming | storing => cases h

end

end ManagedCall

/-- What a call does to the store is what it does to itself. -/
structure Moves (store : ManagerStore) (call : ManagedCall)
    (next : ManagerStore × ManagedCall) : Prop where
  sound : next.1.semaphore.Sound
  slots : next.1.semaphore.spare + next.2.holds.toNat = store.semaphore.spare + call.holds.toNat
  tickets : ∀ others, store.semaphore.tickets.Perm (call.ticket?.toList ++ others) →
    next.1.semaphore.tickets.Perm (next.2.ticket?.toList ++ others)
  recorded : ∀ others, store.recorded.Perm (call.records ++ others) →
    next.1.recorded.Perm (next.2.records ++ others)

section

variable {store : ManagerStore} {call : ManagedCall}

/-- The call moves on and takes nothing. -/
theorem Moves.idle {call' : ManagedCall} (hsound : store.semaphore.Sound)
    (hslots : call'.holds = call.holds) (htickets : call'.ticket? = call.ticket?)
    (hrecords : call'.records = call.records) : Moves store call (store, call') where
  sound := hsound
  slots := by rw [hslots]
  tickets others h := by rwa [htickets]
  recorded others h := by rwa [hrecords]

/-- From a state of the store in which the call has taken a slot, but has not moved on yet. -/
structure Takes (store : ManagerStore) (call : ManagedCall) (taken : ManagerStore) : Prop where
  sound : taken.semaphore.Sound
  slots : taken.semaphore.spare + 1 = store.semaphore.spare + call.holds.toNat
  tickets : ∀ others, store.semaphore.tickets.Perm (call.ticket?.toList ++ others) →
    taken.semaphore.tickets.Perm others
  recorded : taken.recorded = store.recorded
  records : call.records = []

theorem Takes.of_holds {taken : ManagerStore} (hsound : store.semaphore.Sound)
    (hholds : call.holds = true) (hsemaphore : taken.semaphore = store.semaphore)
    (hrecorded : taken.recorded = store.recorded) : Takes store call taken := by
  obtain ⟨hticket, hrecords⟩ := ManagedCall.bare_of_holds hholds
  refine ⟨hsemaphore ▸ hsound, ?_, fun others h => ?_, hrecorded, hrecords⟩
  · rw [hsemaphore, hholds]
    rfl
  · rw [hsemaphore]
    rwa [hticket] at h

/-- One more record. -/
theorem Takes.record {taken : ManagerStore} (h : Takes store call taken) {others : List Recorded}
    (hrecorded : store.recorded.Perm (call.records ++ others)) (more : List Recorded) :
    (taken.recorded ++ more).Perm (more ++ others) := by
  rw [h.records, List.nil_append] at hrecorded
  rw [h.recorded]
  exact (hrecorded.append_right more).trans List.perm_append_comm

/-- The call moves on with its slot. -/
theorem Takes.keep {taken : ManagerStore} (h : Takes store call taken) {call' : ManagedCall}
    (hholds : call'.holds = true) : Moves store call (taken, call') := by
  obtain ⟨hticket, hrecords⟩ := ManagedCall.bare_of_holds hholds
  refine ⟨h.sound, ?_, fun others ht => ?_, fun others hr => ?_⟩
  · rw [hholds]
    exact h.slots
  · rw [hticket]
    exact h.tickets others ht
  · rw [hrecords]
    simpa using h.record hr []

/-- The call gives its slot back, and what it records then is what it records. -/
theorem Takes.giveBack {taken left : ManagerStore} (h : Takes store call taken)
    {call' : ManagedCall} (hsemaphore : left.semaphore = taken.semaphore.release)
    (hholds : call'.holds = false) (htickets : call'.ticket? = none)
    (hrecorded : left.recorded = taken.recorded ++ call'.records) :
    Moves store call (left, call') := by
  obtain ⟨hsound, hspare, hsame⟩ := h.sound.release
  refine ⟨hsemaphore ▸ hsound, ?_, fun others ht => ?_, fun others hr => ?_⟩
  · rw [hsemaphore, hspare, hholds]
    exact h.slots
  · rw [hsemaphore, hsame, htickets]
    exact h.tickets others ht
  · rw [hrecorded]
    exact h.record hr _

theorem Takes.fail {taken : ManagerStore} (h : Takes store call taken) (e : Exc) :
    Moves store call (call.fail taken e) := by
  refine h.giveBack rfl rfl rfl ?_
  dsimp only [ManagedCall.fail, ManagedCall.awaits, ManagedCall.records]
  split
  · rfl
  · exact (List.append_nil _).symm

/-- A chat asks the breaker, and a stream begins. -/
theorem Takes.begin {taken : ManagerStore} (h : Takes store call taken) (now : Instant) :
    Moves store call (call.begin taken now) := by
  unfold ManagedCall.begin
  split
  · exact h.keep rfl
  · split
    · exact h.fail _
    · next breaker hcheck =>
        have htaken : Takes store call { taken with breaker } :=
          ⟨h.sound, h.slots, h.tickets, h.recorded, h.records⟩
        exact htaken.keep rfl

/-- A call that holds nothing ends without a slot. -/
theorem refuse_moves {left : ManagerStore} (hsound : left.semaphore.Sound)
    (hslots : left.semaphore.spare = store.semaphore.spare) (hholds : call.holds = false)
    (htickets : ∀ others, store.semaphore.tickets.Perm (call.ticket?.toList ++ others) →
      left.semaphore.tickets.Perm others)
    (hrecords : call.records = []) (hrecorded : left.recorded = store.recorded) (e : Exc) :
    Moves store call (call.refuse left e) where
  sound := hsound
  slots := by
    rw [hholds]
    exact hslots
  tickets := htickets
  recorded others h := by
    rw [hrecords] at h
    exact hrecorded ▸ h

/-! ## Turns -/

theorem acquire_moves (hsound : store.semaphore.Sound) (hstage : call.stage = .limiting)
    (now : Instant) : Moves store call (call.acquire store now) := by
  obtain ⟨slug, resolved, model, streams, stage⟩ := call
  subst hstage
  unfold ManagedCall.acquire
  split
  · next semaphore hacquire =>
      obtain ⟨hsound', hspare, hsame⟩ := hsound.acquire_none hacquire
      have htaken : Takes store ⟨slug, resolved, model, streams, .limiting⟩
          { store with semaphore } := by
        refine ⟨hsound', hspare, fun others h => ?_, rfl, rfl⟩
        rw [hsame]
        exact h
      exact htaken.begin now
  · next ticket semaphore hacquire =>
      obtain ⟨hsound', hspare, hsame⟩ := hsound.acquire_some hacquire
      refine ⟨hsound', hspare, fun others h => ?_, fun others h => h⟩
      show semaphore.tickets.Perm ([ticket] ++ others)
      rw [hsame]
      exact (h.append_right [ticket]).trans List.perm_append_comm

/-- A call that has taken and recorded nothing is refused. -/
theorem refuse_bare_moves (hsound : store.semaphore.Sound) (hholds : call.holds = false)
    (htickets : call.ticket? = none) (hrecords : call.records = []) (e : Exc) :
    Moves store call (call.refuse store e) := by
  refine refuse_moves hsound rfl hholds (fun others h => ?_) hrecords rfl e
  rwa [htickets] at h

variable (policy : RetryPolicy) (input : ManagedInput)

theorem called_moves (hsound : store.semaphore.Sound) (hstage : call.stage = .called) :
    Moves store call (call.resume policy store input) := by
  obtain ⟨slug, resolved, model, streams, stage⟩ := call
  subst hstage
  unfold ManagedCall.resume
  cases resolved with
  | error e => exact refuse_bare_moves hsound rfl rfl rfl e
  | ok _ =>
      cases streams with
      | false => exact .idle hsound rfl rfl rfl
      | true => exact .idle hsound rfl rfl rfl

/-- An answer that is found is recorded without a slot. -/
theorem caching_moves (hsound : store.semaphore.Sound) (hstage : call.stage = .caching) :
    Moves store call (call.resume policy store input) := by
  obtain ⟨slug, resolved, model, streams, stage⟩ := call
  obtain ⟨now, reply⟩ := input
  subst hstage
  cases reply with
  | error e => exact refuse_bare_moves hsound rfl rfl rfl e
  | ok reply =>
      obtain ⟨_ | usage, more⟩ := reply
      · exact .idle hsound rfl rfl rfl
      · exact ⟨hsound, rfl, fun others h => h, fun others h =>
          (h.append_right _).trans List.perm_append_comm⟩

theorem limiting_moves (hsound : store.semaphore.Sound) (hstage : call.stage = .limiting) :
    Moves store call (call.resume policy store input) := by
  obtain ⟨slug, resolved, model, streams, stage⟩ := call
  obtain ⟨now, reply⟩ := input
  subst hstage
  cases reply with
  | error e => exact refuse_bare_moves hsound rfl rfl rfl e
  | ok reply => exact acquire_moves hsound rfl now

/-- A waiter sleeps on, has a slot now, or leaves the queue. -/
theorem waiting_moves {ticket : Nat} (hsound : store.semaphore.Sound)
    (hstage : call.stage = .waiting ticket) :
    Moves store call (call.resume policy store input) := by
  obtain ⟨slug, resolved, model, streams, stage⟩ := call
  obtain ⟨now, reply⟩ := input
  subst hstage
  have hresumed := hsound.resume ticket (ManagedCall.isCancelled reply)
  unfold ManagedCall.resume
  dsimp only
  split
  · next semaphore heq =>
      rw [heq] at hresumed
      cases hresumed with
      | asleep hsound' hspare hsame =>
          refine ⟨hsound', congrArg (· + 0) hspare, fun others h => ?_, fun others h => h⟩
          rw [hsame]
          exact h
  · next semaphore heq =>
      rw [heq] at hresumed
      cases hresumed with
      | acquired hsound' hspare hperm =>
          have htaken : Takes store ⟨slug, resolved, model, streams, .waiting ticket⟩
              { store with semaphore } :=
            ⟨hsound', hspare, fun others h => (hperm.symm.trans h).cons_inv, rfl, rfl⟩
          exact htaken.begin now
  · next semaphore heq =>
      rw [heq] at hresumed
      cases hresumed with
      | cancelled hsound' hspare hperm =>
          exact @refuse_moves store ⟨slug, resolved, model, streams, .waiting ticket⟩
            { store with semaphore } hsound' hspare rfl
            (fun others h => (hperm.symm.trans h).cons_inv) rfl rfl .cancelled

/-- An attempt ends the call, or leaves it its slot for the next one. -/
theorem running_moves {attempt : Nat} (hsound : store.semaphore.Sound)
    (hstage : call.stage = .running attempt) :
    Moves store call (call.resume policy store input) := by
  obtain ⟨slug, resolved, model, streams, stage⟩ := call
  subst hstage
  have htaken : ∀ breaker, Takes store ⟨slug, resolved, model, streams, .running attempt⟩
      { store with breaker } := fun breaker => .of_holds hsound rfl rfl rfl
  unfold ManagedCall.resume
  dsimp only
  split
  · exact (htaken _).giveBack rfl rfl rfl (List.append_nil _).symm
  · exact (htaken _).fail _
  · exact (htaken _).keep rfl

theorem sleeping_moves {attempt : Nat} (hsound : store.semaphore.Sound)
    (hstage : call.stage = .sleeping attempt) :
    Moves store call (call.resume policy store input) := by
  obtain ⟨slug, resolved, model, streams, stage⟩ := call
  obtain ⟨now, reply⟩ := input
  subst hstage
  have htaken : Takes store ⟨slug, resolved, model, streams, .sleeping attempt⟩ store :=
    .of_holds hsound rfl rfl rfl
  cases reply with
  | error e => exact htaken.fail e
  | ok reply => exact htaken.keep rfl

theorem streaming_moves {final : Option Usage} (hsound : store.semaphore.Sound)
    (hstage : call.stage = .streaming final) :
    Moves store call (call.resume policy store input) := by
  obtain ⟨slug, resolved, model, streams, stage⟩ := call
  obtain ⟨now, reply⟩ := input
  subst hstage
  have htaken : Takes store ⟨slug, resolved, model, streams, .streaming final⟩ store :=
    .of_holds hsound rfl rfl rfl
  cases reply with
  | error e => exact htaken.fail e
  | ok reply =>
      unfold ManagedCall.resume
      dsimp only
      split
      · exact htaken.keep rfl
      · refine htaken.giveBack rfl rfl rfl ?_
        cases (reply.usage <|> final) <;> rfl

theorem storing_moves {usage : Usage} (hsound : store.semaphore.Sound)
    (hstage : call.stage = .storing usage) :
    Moves store call (call.resume policy store input) := by
  obtain ⟨slug, resolved, model, streams, stage⟩ := call
  obtain ⟨now, reply⟩ := input
  subst hstage
  cases reply with
  | error e => exact .idle hsound rfl rfl rfl
  | ok reply =>
      exact ⟨hsound, rfl, fun others h => h, fun others h =>
        (h.append_right _).trans List.perm_append_comm⟩

theorem ended_moves {ending : Ending} (hsound : store.semaphore.Sound)
    (hstage : call.stage = .ended ending) :
    Moves store call (call.resume policy store input) := by
  obtain ⟨slug, resolved, model, streams, stage⟩ := call
  obtain ⟨now, reply⟩ := input
  subst hstage
  cases reply <;> exact .idle hsound rfl rfl rfl

/-- Every turn. -/
theorem resume_moves (hsound : store.semaphore.Sound) :
    Moves store call (call.resume policy store input) := by
  cases hstage : call.stage with
  | called => exact called_moves policy input hsound hstage
  | caching => exact caching_moves policy input hsound hstage
  | limiting => exact limiting_moves policy input hsound hstage
  | waiting ticket => exact waiting_moves policy input hsound hstage
  | running attempt => exact running_moves policy input hsound hstage
  | sleeping attempt => exact sleeping_moves policy input hsound hstage
  | streaming final => exact streaming_moves policy input hsound hstage
  | storing usage => exact storing_moves policy input hsound hstage
  | ended ending => exact ended_moves policy input hsound hstage

end

/-! ## Runs -/

abbrev ManagerSystem := System ManagerStore ManagedCall

abbrev ManagerTurn := Turn ManagedInput

/-- A manager with this many slots, and calls that have not begun. -/
def ManagerSystem.start (slots : Nat) (breaker : CircuitBreaker)
    (calls : List (String × Except Exc Unit × String × Bool)) : ManagerSystem :=
  ⟨⟨.init slots, breaker, []⟩,
    calls.map fun call => ⟨call.1, call.2.1, call.2.2.1, call.2.2.2, .called⟩⟩

/-- No slot, no ticket and no record gets lost. -/
structure Conserved (slots : Nat) (s : ManagerSystem) : Prop where
  sound : s.store.semaphore.Sound
  slots : s.store.semaphore.spare + s.procs.countP ManagedCall.holds = slots
  tickets : s.store.semaphore.tickets.Perm (s.procs.filterMap ManagedCall.ticket?)
  recorded : s.store.recorded.Perm (s.procs.flatMap ManagedCall.records)

theorem conserved_start (slots : Nat) (breaker : CircuitBreaker)
    (calls : List (String × Except Exc Unit × String × Bool)) :
    Conserved slots (.start slots breaker calls) where
  sound := Semaphore.sound_init slots
  slots := by
    have hnone : (ManagerSystem.start slots breaker calls).procs.countP ManagedCall.holds = 0 := by
      refine List.countP_eq_zero.mpr fun call hcall => ?_
      obtain ⟨_, -, rfl⟩ := List.mem_map.mp hcall
      exact Bool.false_ne_true
    rw [hnone]
    rfl
  tickets := by
    have hnone : (ManagerSystem.start slots breaker calls).procs.filterMap
        ManagedCall.ticket? = [] := by
      refine List.filterMap_eq_nil_iff.mpr fun call hcall => ?_
      obtain ⟨_, -, rfl⟩ := List.mem_map.mp hcall
      rfl
    rw [hnone]
    exact .nil
  recorded := by
    have hnone : (ManagerSystem.start slots breaker calls).procs.flatMap
        ManagedCall.records = [] := by
      refine List.flatMap_eq_nil_iff.mpr fun call hcall => ?_
      obtain ⟨_, -, rfl⟩ := List.mem_map.mp hcall
      rfl
    rw [hnone]
    exact .nil

theorem Conserved.step {slots : Nat} {s : ManagerSystem} (h : Conserved slots s)
    (policy : RetryPolicy) (turn : ManagerTurn) :
    Conserved slots (step (ManagedCall.resume policy) s turn) := by
  cases hp : s.procs[turn.proc]? with
  | none => rwa [step_of_none hp]
  | some call =>
      have hmoves := @resume_moves s.store call policy turn.input h.sound
      rw [step_of_some hp]
      generalize ManagedCall.resume policy s.store turn.input call = next at hmoves ⊢
      obtain ⟨others, hold, hnew⟩ := exists_perm_set hp next.2
      have hticket : ∀ call : ManagedCall, (call :: others).filterMap ManagedCall.ticket? =
          call.ticket?.toList ++ others.filterMap ManagedCall.ticket? := by
        intro call
        cases hcall : call.ticket? with
        | none => exact List.filterMap_cons_none hcall
        | some ticket => exact List.filterMap_cons_some hcall
      have hholds : ∀ call : ManagedCall, (call :: others).countP ManagedCall.holds =
          others.countP ManagedCall.holds + call.holds.toNat := by
        intro call
        rw [List.countP_cons]
        cases call.holds <;> rfl
      refine ⟨hmoves.sound, ?_, ?_, ?_⟩
      · have hslots := h.slots
        have hmove := hmoves.slots
        rw [hold.countP_eq, hholds] at hslots
        show next.1.semaphore.spare + _ = slots
        rw [hnew.countP_eq, hholds]
        omega
      · have htickets := h.tickets.trans (hold.filterMap _)
        rw [hticket] at htickets
        have hafter := (hnew.filterMap ManagedCall.ticket?).symm
        rw [hticket] at hafter
        exact (hmoves.tickets _ htickets).trans hafter
      · have hrecorded := h.recorded.trans (hold.flatMap_right _)
        rw [List.flatMap_cons] at hrecorded
        exact (hmoves.recorded _ hrecorded).trans (hnew.flatMap_right _).symm

theorem conserved_run (slots : Nat) (breaker : CircuitBreaker) (policy : RetryPolicy)
    (calls : List (String × Except Exc Unit × String × Bool)) (turns : List ManagerTurn) :
    Conserved slots
      (Run.run (step (ManagedCall.resume policy)) (.start slots breaker calls) turns) :=
  Run.run_invariant (fun _ turn h => h.step policy turn) turns (conserved_start slots breaker calls)

/-- The call waits for a slot that it has not been granted. -/
def ManagedCall.WaitsIn (call : ManagedCall) (semaphore : Semaphore) : Prop :=
  ∃ ticket, call.stage = .waiting ticket ∧ (ticket, Wait.pending) ∈ semaphore.waiters

/-- The call has a slot, or has been granted one. -/
def ManagedCall.HasSlot (call : ManagedCall) (semaphore : Semaphore) : Prop :=
  call.holds = true ∨
    ∃ ticket, call.stage = .waiting ticket ∧ (ticket, Wait.granted) ∈ semaphore.waiters

/-- As long as a call waits for a slot, another one has one. -/
theorem Conserved.busy {slots : Nat} {s : ManagerSystem} (h : Conserved slots s)
    (hslots : 0 < slots) (hwaits : ∃ call ∈ s.procs, call.WaitsIn s.store.semaphore) :
    ∃ call ∈ s.procs, call.HasSlot s.store.semaphore := by
  obtain ⟨-, -, ticket, -, hpending⟩ := hwaits
  obtain hheld | hgranted := h.sound.busy_of_pending (h.slots ▸ hslots) ⟨_, hpending, rfl⟩
  · obtain ⟨call, hcall, hholds⟩ := List.countP_pos_iff.mp hheld
    exact ⟨call, hcall, .inl hholds⟩
  · obtain ⟨⟨ticket, wait⟩, hw, hgranted⟩ := List.countP_pos_iff.mp hgranted
    obtain rfl : wait = .granted := of_decide_eq_true hgranted
    have hmem : ticket ∈ s.procs.filterMap ManagedCall.ticket? :=
      h.tickets.mem_iff.mp (List.mem_map_of_mem (f := Prod.fst) hw)
    obtain ⟨call, hcall, hticket⟩ := List.mem_filterMap.mp hmem
    exact ⟨call, hcall, .inr ⟨ticket, ManagedCall.waiting_of_ticket hticket, hw⟩⟩

/-- When all calls have ended, all slots are free. -/
theorem Conserved.free {slots : Nat} {s : ManagerSystem} (h : Conserved slots s)
    (hended : ∀ call ∈ s.procs, call.hasEnded = true) :
    s.store.semaphore.value = slots ∧ s.store.semaphore.waiters = [] := by
  have hbare : ∀ call ∈ s.procs, call.holds = false ∧ call.ticket? = none :=
    fun call hcall => ManagedCall.bare_of_hasEnded (hended call hcall)
  have hheld : s.procs.countP ManagedCall.holds = 0 :=
    List.countP_eq_zero.mpr fun call hcall => by simp [(hbare call hcall).1]
  have hnobody : s.procs.filterMap ManagedCall.ticket? = [] :=
    List.filterMap_eq_nil_iff.mpr fun call hcall => (hbare call hcall).2
  have hwaiters : s.store.semaphore.waiters = [] := by
    have htickets := h.tickets
    rw [hnobody] at htickets
    exact List.map_eq_nil_iff.mp htickets.eq_nil
  have hslots := h.slots
  rw [hheld, Semaphore.spare, Semaphore.granted, hwaiters] at hslots
  exact ⟨hslots, hwaiters⟩

/-- In every interleaving, there are never more calls at the providers than slots, a call waits for
a slot only while another one has one, no slot is lost, and each call that has ended is recorded as
it ended. -/
theorem slots_kept (slots : Nat) (breaker : CircuitBreaker) (policy : RetryPolicy)
    (calls : List (String × Except Exc Unit × String × Bool)) (turns : List ManagerTurn) :
    let s := Run.run (step (ManagedCall.resume policy)) (ManagerSystem.start slots breaker calls)
      turns
    s.procs.countP ManagedCall.inFlight ≤ slots ∧
    (0 < slots → (∃ call ∈ s.procs, call.WaitsIn s.store.semaphore) →
      ∃ call ∈ s.procs, call.HasSlot s.store.semaphore) ∧
    ((∀ call ∈ s.procs, call.hasEnded = true) →
      s.store.semaphore.value = slots ∧ s.store.semaphore.waiters = []) ∧
    s.store.recorded.Perm (s.procs.flatMap ManagedCall.records) := by
  intro s
  have hconserved : Conserved slots s := conserved_run slots breaker policy calls turns
  refine ⟨?_, hconserved.busy, hconserved.free, hconserved.recorded⟩
  have hheld : s.procs.countP ManagedCall.inFlight ≤ s.procs.countP ManagedCall.holds :=
    List.countP_mono_left fun call _ hflight => ManagedCall.holds_of_inFlight hflight
  have hslots := hconserved.slots
  omega

end YoutubeFactory.LlmCore
