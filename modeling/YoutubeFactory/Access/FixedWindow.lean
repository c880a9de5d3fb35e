import YoutubeFactory.Access.Windows
import YoutubeFactory.Lib.FixedWindow

/-!
# The rate limit of one bucket

`RateLimitMiddleware` of `app/middleware/rate_limit.py` on the requests of one bucket, while Redis
works: there is a client, and every command is answered.

A counter is created by the first request it counts, expires a minute after the `EXPIRE` of that
request, and is not renewed (`limited_run`).
-/

namespace YoutubeFactory.Access

open FixedWindow

/-! ## Requests of one bucket -/

/-- `dispatch` for a bucket and its budget, where the clock of Redis ticks so often a second. -/
def Middleware.dispatchIn (settings : WindowSettings) (redis : Redis) (middleware : Middleware)
    (request : HttpRequest) (bucket : String × Nat) (ticks : Nat) :
    Redis × Middleware × Dispatched :=
  match middleware.getClient settings request with
  | (middleware, false) => (redis, middleware, .passed none)
  | (middleware, true) =>
      let (key, budget) := bucket
      match redis.countUp request.incr request.expire key (WINDOW_SECONDS * ticks) with
      | (redis, none) => (redis, degrade request.later, .passed none)
      | (redis, some count) =>
          if count > budget then (redis, middleware, .rejected WINDOW_SECONDS budget)
          else (redis, middleware, .passed (some (budget, budget - count)))

theorem Middleware.dispatch_eq (settings : WindowSettings) (redis : Redis) (middleware : Middleware)
    (request : HttpRequest) :
    middleware.dispatch settings redis request =
      middleware.dispatchIn settings redis request (request.headers.bucket settings.digest) 1 :=
  rfl

/-- `X-RateLimit-Remaining`, if there is one. -/
def Dispatched.remaining : Dispatched → Option Nat
  | .passed limitRemaining => limitRemaining.map Prod.snd
  | .rejected _ _ => some 0

/-- A request that was dispatched: when it was counted and in which counter of its bucket. -/
structure Handled where
  time : Int
  counter : Nat
  answer : Dispatched

/-- What has become of the requests so far, and how many counters there have been. -/
structure LimiterState where
  windows : WindowState
  log : List Handled
  created : Nat

namespace LimiterState

variable (settings : WindowSettings) (bucket : String × Nat) (ticks : Nat)

/-- A request of the bucket. -/
def step (s : LimiterState) (request : HttpRequest) : LimiterState :=
  let redis := s.windows.redis
  let time := redis.now + request.incr.wait
  let counter :=
    if (Expiring.get redis.counters time bucket.1).isSome then s.created else s.created + 1
  let (redis, middleware, answer) :=
    (s.windows.workers request.worker).dispatchIn settings redis request bucket ticks
  { windows := ⟨redis, Function.update s.windows.workers request.worker middleware⟩
    log := s.log ++ [⟨time, counter, answer⟩]
    created := counter }

def start (now : Int) : LimiterState := ⟨.start now, [], 0⟩

/-- There is a client, and Redis answers. -/
def Works (s : LimiterState) (request : HttpRequest) : Prop :=
  ((s.windows.workers request.worker).getClient settings request).2 = true ∧
    request.incr.reply = .answered ∧ request.expire.reply = .answered

end LimiterState

/-- What the answer says is left of the budget is what the requests of its counter have left. -/
def Reports (budget : Nat) (before : List Handled) (e : Handled) : Prop :=
  ∃ remaining : Nat, e.answer.remaining = some remaining ∧
    (remaining : Int) =
      max ((budget : Int) - (inWindow Handled.counter before e.counter + 1 : Nat)) 0

/-- A log that keeps to the limit, for a minute of so many ticks. -/
structure Limited (budget : Nat) (minute : Int) (log : List Handled) : Prop where
  per_counter : ∀ counter,
    log.countP (fun e => e.counter = counter ∧ e.answer.admits = true) ≤ budget
  per_minute : ∀ t : Int,
    log.countP (fun e => e.answer.admits = true ∧ t ≤ e.time ∧ e.time ≤ t + minute) ≤ 2 * budget
  reported : Each (Reports budget) log

/-! ## One request -/

/-- A request that finds no counter while Redis answers: it creates one. -/
theorem countUp_created {redis : Redis} {incr expire : Command} {key : String} (seconds : Int)
    (hincr : incr.reply = .answered) (hexpire : expire.reply = .answered)
    (hnone : Expiring.get redis.counters (redis.now + incr.wait) key = none) :
    ∃ counters now, redis.countUp incr expire key seconds = (⟨counters, now⟩, some 1) ∧
      redis.now + incr.wait ≤ now ∧ counters key = some ⟨1, some (now + seconds)⟩ := by
  have hone : Expiring.count redis.counters (redis.now + incr.wait) key + 1 = 1 := by
    unfold Expiring.count
    rw [hnone]
    rfl
  refine ⟨Expiring.expire (Expiring.incr redis.counters (redis.now + incr.wait) key)
      (redis.now + incr.wait + expire.wait) key seconds, redis.now + incr.wait + expire.wait,
    ?_, Redis.le_wait _ _, ?_⟩
  · unfold Redis.countUp Redis.incr Redis.expire Redis.execute
    dsimp only
    rw [hincr, hexpire]
    dsimp only
    rw [if_pos hone, hone]
  · unfold Expiring.expire
    rw [Function.update_self, Expiring.get_incr_of_none hnone]
    rfl

/-- A request that finds a counter: it leaves the time to live as it is. -/
theorem countUp_counted {redis : Redis} {incr : Command} (expire : Command) {key : String}
    (seconds : Int) {c : Expiring.Counter} (hincr : incr.reply = .answered)
    (hc : Expiring.get redis.counters (redis.now + incr.wait) key = some c) (hpos : 1 ≤ c.count) :
    ∃ counters, redis.countUp incr expire key seconds =
        (⟨counters, redis.now + incr.wait⟩, some (c.count + 1)) ∧
      counters key = some ⟨c.count + 1, c.expiresAt⟩ := by
  have hcount : Expiring.count redis.counters (redis.now + incr.wait) key = c.count := by
    unfold Expiring.count
    rw [hc]
    rfl
  refine ⟨Expiring.incr redis.counters (redis.now + incr.wait) key, ?_, ?_⟩
  · unfold Redis.countUp Redis.incr Redis.execute
    dsimp only
    rw [hincr]
    dsimp only
    rw [hcount, if_neg (by omega)]
  · unfold Expiring.incr
    rw [Function.update_self, hcount, hc]
    rfl

/-- The answer to a request that was counted. -/
def answerTo (budget count : Nat) : Dispatched :=
  if count > budget then .rejected WINDOW_SECONDS budget
  else .passed (some (budget, budget - count))

theorem admits_answerTo {budget n : Nat} :
    (answerTo budget (n + 1)).admits = true ↔ n < budget := by
  unfold answerTo
  split
  · next h => exact iff_of_false nofun (by omega)
  · next h => exact iff_of_true rfl (by omega)

theorem remaining_answerTo (budget n : Nat) : ∃ remaining : Nat,
    (answerTo budget n).remaining = some remaining ∧
      (remaining : Int) = max ((budget : Int) - n) 0 := by
  unfold answerTo
  split
  · next h => exact ⟨0, rfl, by omega⟩
  · next h => exact ⟨budget - n, rfl, by omega⟩

theorem dispatchIn_of_counted {settings : WindowSettings} {redis redis' : Redis}
    {middleware : Middleware} {request : HttpRequest} {bucket : String × Nat} {ticks count : Nat}
    (hclient : (middleware.getClient settings request).2 = true)
    (hcount : redis.countUp request.incr request.expire bucket.1 (WINDOW_SECONDS * ticks) =
      (redis', some count)) :
    ∃ middleware', middleware.dispatchIn settings redis request bucket ticks =
      (redis', middleware', answerTo bucket.2 count) := by
  unfold Middleware.dispatchIn
  cases hget : middleware.getClient settings request with
  | mk middleware' client =>
      rw [hget] at hclient
      cases hclient
      refine ⟨middleware', ?_⟩
      dsimp only
      rw [hcount]
      unfold answerTo
      dsimp only
      split
      · rfl
      · rfl

/-! ## Requests one after the other -/

namespace LimiterState

variable {settings : WindowSettings} {bucket : String × Nat} {ticks : Nat} {s : LimiterState}
  {request : HttpRequest}

/-- What is known of the log, and of the counter that Redis has. -/
structure Keeps (bucket : String × Nat) (ticks : Nat) (s : LimiterState) (closes : Int) : Prop where
  windowed :
    Windowed Handled.time Handled.counter (WINDOW_SECONDS * ticks) s.log s.created closes
  past : ∀ e ∈ s.log, e.time ≤ s.windows.redis.now
  counter : (s.windows.redis.counters bucket.1 = none ∧ s.log = [] ∧ closes ≤ s.windows.redis.now) ∨
    ∃ n, s.windows.redis.counters bucket.1 = some ⟨n, some closes⟩ ∧ 1 ≤ n ∧
      n = inWindow Handled.counter s.log s.created
  first : FirstAdmitted Handled.counter (fun e => e.answer.admits) bucket.2 s.log
  reported : Each (Reports bucket.2) s.log

/-- A request that is counted as the next of its counter. -/
theorem Keeps.next {closes closes' now : Int} {counters : Expiring.Counters String} {number n : Nat}
    {workers : Nat → Middleware} (h : s.Keeps bucket ticks closes)
    (hwindowed : Windowed Handled.time Handled.counter (WINDOW_SECONDS * ticks)
      (s.log ++ [⟨s.windows.redis.now + request.incr.wait, number, answerTo bucket.2 (n + 1)⟩])
      number closes')
    (hn : n = inWindow Handled.counter s.log number)
    (hnow : s.windows.redis.now + request.incr.wait ≤ now)
    (hcounter : counters bucket.1 = some ⟨n + 1, some closes'⟩) :
    LimiterState.Keeps bucket ticks
      ⟨⟨⟨counters, now⟩, workers⟩,
        s.log ++ [⟨s.windows.redis.now + request.incr.wait, number, answerTo bucket.2 (n + 1)⟩],
        number⟩ closes' := by
  refine ⟨hwindowed, fun e he => ?_, .inr ⟨n + 1, hcounter, Nat.le_add_left 1 n, ?_⟩,
    h.first.concat ?_, h.reported.concat ?_⟩
  · rcases List.mem_append.mp he with he | he
    · have hlater := Redis.le_wait s.windows.redis.now request.incr.wait
      exact ((h.past e he).trans hlater).trans hnow
    · rw [List.mem_singleton.mp he]
      exact hnow
  · rw [hn]
    exact (@inWindow_concat_self _ _ ⟨_, number, _⟩ Handled.counter).symm
  · rw [← hn]
    exact admits_answerTo
  · unfold Reports
    rw [← hn]
    exact remaining_answerTo bucket.2 (n + 1)

/-- The counter is gone, and the next one is created. -/
theorem Keeps.create {closes : Int} (h : s.Keeps bucket ticks closes)
    (hworks : s.Works settings request)
    (hget : Expiring.get s.windows.redis.counters (s.windows.redis.now + request.incr.wait)
      bucket.1 = none) :
    ∃ closes', (s.step settings bucket ticks request).Keeps bucket ticks closes' := by
  obtain ⟨hclient, hincr, hexpire⟩ := hworks
  obtain ⟨counters, now, hcount, hnow, hcounter⟩ :=
    countUp_created (WINDOW_SECONDS * ticks) hincr hexpire hget
  obtain ⟨middleware, hdispatch⟩ := dispatchIn_of_counted hclient hcount
  have hstep : s.step settings bucket ticks request =
      ⟨⟨⟨counters, now⟩, Function.update s.windows.workers request.worker middleware⟩,
        s.log ++ [⟨s.windows.redis.now + request.incr.wait, s.created + 1,
          answerTo bucket.2 (0 + 1)⟩], s.created + 1⟩ := by
    unfold step
    dsimp only
    rw [hget, hdispatch]
    rfl
  have hlater := Redis.le_wait s.windows.redis.now request.incr.wait
  have hclosed : closes ≤ s.windows.redis.now + request.incr.wait := by
    rcases h.counter with ⟨-, -, hcloses⟩ | ⟨n, hraw, -, -⟩
    · exact hcloses.trans hlater
    · by_contra hopen
      have hlive : Expiring.get s.windows.redis.counters
          (s.windows.redis.now + request.incr.wait) bucket.1 = some ⟨n, some closes⟩ :=
        Expiring.get_eq_some_iff.mpr ⟨hraw, fun moment hmoment => by
          cases hmoment
          exact not_le.mp hopen⟩
      rw [hget] at hlive
      cases hlive
  have hempty : 0 = inWindow Handled.counter s.log (s.created + 1) := by
    refine (List.countP_eq_zero.mpr fun e he hcreated => ?_).symm
    have hle := h.windowed.window_le e he
    rw [of_decide_eq_true hcreated] at hle
    exact Nat.not_succ_le_self _ hle
  rw [hstep]
  refine ⟨now + WINDOW_SECONDS * ticks, h.next ?_ hempty hnow hcounter⟩
  exact h.windowed.opens (fun v hv => (h.past v hv).trans hlater) hclosed rfl
    (Int.add_le_add_right hnow _)

/-- The counter is there. -/
theorem Keeps.count {closes : Int} (h : s.Keeps bucket ticks closes)
    (hworks : s.Works settings request) {c : Expiring.Counter}
    (hget : Expiring.get s.windows.redis.counters (s.windows.redis.now + request.incr.wait)
      bucket.1 = some c) :
    ∃ closes', (s.step settings bucket ticks request).Keeps bucket ticks closes' := by
  obtain ⟨hclient, hincr, -⟩ := hworks
  obtain ⟨hthere, hlive⟩ := Expiring.get_eq_some_iff.mp hget
  obtain ⟨n, hraw, hpos, hn⟩ : ∃ n, s.windows.redis.counters bucket.1 = some ⟨n, some closes⟩ ∧
      1 ≤ n ∧ n = inWindow Handled.counter s.log s.created := by
    refine h.counter.resolve_left fun hnone => ?_
    rw [hnone.1] at hthere
    cases hthere
  cases hraw.symm.trans hthere
  obtain ⟨counters, hcount, hcounter⟩ :=
    countUp_counted request.expire (WINDOW_SECONDS * ticks) hincr hget hpos
  obtain ⟨middleware, hdispatch⟩ := dispatchIn_of_counted hclient hcount
  have hstep : s.step settings bucket ticks request =
      ⟨⟨⟨counters, s.windows.redis.now + request.incr.wait⟩,
          Function.update s.windows.workers request.worker middleware⟩,
        s.log ++ [⟨s.windows.redis.now + request.incr.wait, s.created,
          answerTo bucket.2 (n + 1)⟩], s.created⟩ := by
    unfold step
    dsimp only
    rw [hget, hdispatch]
    rfl
  have hlater := Redis.le_wait s.windows.redis.now request.incr.wait
  rw [hstep]
  refine ⟨closes, h.next ?_ hn le_rfl hcounter⟩
  exact h.windowed.joins (fun v hv => (h.past v hv).trans hlater) (hlive closes rfl) rfl

theorem keeps_step (s : LimiterState) (request : HttpRequest) (hworks : s.Works settings request)
    (h : ∃ closes, s.Keeps bucket ticks closes) :
    ∃ closes, (s.step settings bucket ticks request).Keeps bucket ticks closes := by
  obtain ⟨closes, h⟩ := h
  cases hget : Expiring.get s.windows.redis.counters
      (s.windows.redis.now + request.incr.wait) bucket.1 with
  | none => exact h.create hworks hget
  | some c => exact h.count hworks hget

theorem keeps_start (bucket : String × Nat) (ticks : Nat) (now : Int) :
    (start now).Keeps bucket ticks now where
  windowed := .start now
  past := nofun
  counter := .inl ⟨rfl, rfl, le_rfl⟩
  first := each_nil
  reported := each_nil

theorem Keeps.limited (hticks : 0 < ticks) {closes : Int} (h : s.Keeps bucket ticks closes) :
    Limited bucket.2 (WINDOW_SECONDS * ticks) s.log where
  per_counter := h.first.countP_le
  per_minute := h.windowed.countP_interval_le
    (Int.mul_pos (by decide) (Int.natCast_pos.mpr hticks)) h.first.countP_le
  reported := h.reported

end LimiterState

/-- While Redis works, a bucket is limited to its budget in each of its counters, and to twice its
budget in any minute. -/
theorem limited_run (settings : WindowSettings) (bucket : String × Nat) (ticks : Nat)
    (hticks : 0 < ticks) (now : Int) (requests : List HttpRequest)
    (hworks : Run.EveryStep (LimiterState.step settings bucket ticks)
      (LimiterState.Works settings) (.start now) requests) :
    Limited bucket.2 (WINDOW_SECONDS * ticks)
      (Run.run (LimiterState.step settings bucket ticks) (.start now) requests).log := by
  obtain ⟨closes, hkeeps⟩ := Run.run_invariant_of_everyStep LimiterState.keeps_step requests hworks
    ⟨now, LimiterState.keeps_start bucket ticks now⟩
  exact hkeeps.limited hticks

/-- A request from an address, so many seconds after the one before. -/
def addressed (wait : Nat) : HttpRequest where
  worker := 0
  headers := ⟨none, none, some "203.0.113.7"⟩
  monotonic := 0
  later := 0
  connects := true
  incr := ⟨wait, .answered⟩
  expire := ⟨0, .answered⟩

theorem limited_budget_of_two :
    let s := Run.run (LimiterState.step sampleWindows ("ratelimit:ip:203.0.113.7", 2) 1) (.start 0)
      [addressed 0, addressed 59, addressed 0, addressed 1]
    s.log.map (fun e => e.answer.admits) = [true, true, false, true] ∧
      Limited 2 (WINDOW_SECONDS * (1 : Nat)) s.log := by
  refine ⟨by decide, limited_run sampleWindows ("ratelimit:ip:203.0.113.7", 2) 1 Nat.one_pos 0 _ ?_⟩
  exact ⟨⟨rfl, rfl, rfl⟩, ⟨rfl, rfl, rfl⟩, ⟨rfl, rfl, rfl⟩, ⟨rfl, rfl, rfl⟩, trivial⟩

end YoutubeFactory.Access
