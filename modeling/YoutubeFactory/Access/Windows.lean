import YoutubeFactory.Access.RateLimit
import YoutubeFactory.Auth.LoginGuard

/-!
# Counters of a window

`RateLimitMiddleware` of `app/middleware/rate_limit.py`, `LoginGuard` of
`app/services/login_guard.py` and `RateLimiter` of `app/core/llm/manager.py` count in Redis, each
with the same two commands: `INCR`, and `EXPIRE` when the count is one.  A command that fails
raises, whether it was carried out or not, and each of the three then lets the request pass.

A counter that was created and not given its time to live never gets it, since its count is not
one again.  So the counters all expire in the runs in which each `INCR` that creates one is
answered and the `EXPIRE` after it carried out, and in no others (`windows_expire_iff`).
-/

namespace YoutubeFactory.Access

open Expiring

/-! ## Redis -/

/-- What becomes of a command.  It raises unless it is answered. -/
inductive Reply where
  | answered
  /-- It is carried out, and the answer is lost. -/
  | lost
  | refused
deriving DecidableEq, Repr

/-- How long a command is on its way, in seconds, and what becomes of it. -/
structure Command where
  wait : Nat
  reply : Reply

structure Redis where
  counters : Counters String
  now : Int

namespace Redis

/-- A command that writes the counters and answers. -/
def execute {α : Type} (redis : Redis) (command : Command)
    (effect : Counters String → Int → Counters String × α) : Redis × Option α :=
  let now := redis.now + command.wait
  match command.reply with
  | .refused => (⟨redis.counters, now⟩, none)
  | .lost => (⟨(effect redis.counters now).1, now⟩, none)
  | .answered => (⟨(effect redis.counters now).1, now⟩, some (effect redis.counters now).2)

/-- `GET` -/
def get (redis : Redis) (command : Command) (key : String) : Redis × Option (Option Nat) :=
  redis.execute command fun counters now =>
    (counters, (Expiring.get counters now key).map Counter.count)

/-- `INCR` -/
def incr (redis : Redis) (command : Command) (key : String) : Redis × Option Nat :=
  redis.execute command fun counters now =>
    (Expiring.incr counters now key, count counters now key + 1)

/-- `EXPIRE` -/
def expire (redis : Redis) (command : Command) (key : String) (seconds : Int) :
    Redis × Option Unit :=
  redis.execute command fun counters now => (Expiring.expire counters now key seconds, ())

/-- `DEL` -/
def delete (redis : Redis) (command : Command) (key : String) : Redis × Option Unit :=
  redis.execute command fun counters _ => (Expiring.delete counters key, ())

/-- A request is counted: the count, unless a command raises. -/
def countUp (redis : Redis) (incr expire : Command) (key : String) (seconds : Int) :
    Redis × Option Nat :=
  match redis.incr incr key with
  | (redis, none) => (redis, none)
  | (redis, some count) =>
      if count = 1 then
        match redis.expire expire key seconds with
        | (redis, none) => (redis, none)
        | (redis, some ()) => (redis, some count)
      else (redis, some count)

end Redis

structure WindowSettings where
  rateLimitEnabled : Bool
  guard : Auth.GuardSettings
  llmCacheEnabled : Bool
  llmRateLimitRpm : Nat
  rpm_pos : 1 ≤ llmRateLimitRpm
  /-- The start of the SHA-256 of a credential. -/
  digest : String → String
  env : Auth.AuthEnv

/-! ## The rate-limit middleware -/

/-- `_WINDOW_SECONDS` -/
def WINDOW_SECONDS : Int := 60

/-- `_COOLDOWN_SECONDS` -/
def COOLDOWN_SECONDS : Int := 30

/-- The fields of the middleware of one worker. -/
structure Middleware where
  cooldownUntil : Int
  /-- `_client is not None` -/
  hasClient : Bool

/-- A request, with the readings of the monotonic clock, and whether the client can be made. -/
structure HttpRequest where
  worker : Nat
  headers : RequestHeaders
  monotonic : Int
  later : Int
  connects : Bool
  incr : Command
  expire : Command

inductive Dispatched where
  /-- Passed on, with `X-RateLimit-Limit` and `X-RateLimit-Remaining` if it was counted. -/
  | passed (limitRemaining : Option (Nat × Nat))
  /-- 429, with `Retry-After` and `X-RateLimit-Limit`. -/
  | rejected (retryAfter : Int) (limit : Nat)
deriving DecidableEq, Repr

def Dispatched.admits : Dispatched → Bool
  | passed _ => true
  | rejected _ _ => false

namespace Middleware

/-- `_degrade` -/
def degrade (later : Int) : Middleware := ⟨later + COOLDOWN_SECONDS, false⟩

/-- `_get_client`: whether there is one. -/
def getClient (settings : WindowSettings) (middleware : Middleware) (request : HttpRequest) :
    Middleware × Bool :=
  if settings.rateLimitEnabled = false then (middleware, false)
  else if request.monotonic < middleware.cooldownUntil then (middleware, false)
  else if middleware.hasClient = true then (middleware, true)
  else if request.connects = true then ({ middleware with hasClient := true }, true)
  else (degrade request.later, false)

/-- `dispatch` -/
def dispatch (settings : WindowSettings) (redis : Redis) (middleware : Middleware)
    (request : HttpRequest) : Redis × Middleware × Dispatched :=
  match middleware.getClient settings request with
  | (middleware, false) => (redis, middleware, .passed none)
  | (middleware, true) =>
      let (key, budget) := request.headers.bucket settings.digest
      match redis.countUp request.incr request.expire key WINDOW_SECONDS with
      | (redis, none) => (redis, degrade request.later, .passed none)
      | (redis, some count) =>
          if count > budget then (redis, middleware, .rejected WINDOW_SECONDS budget)
          else (redis, middleware, .passed (some (budget, budget - count)))

end Middleware

/-! ## The login guard -/

/-- How a login ends that the guard lets through. -/
inductive LoginEnding where
  | failed | disabled | accepted
deriving DecidableEq, Repr

/-- A login, and whether the guard's client can be made when it is asked and when it is told. -/
structure LoginAttempt where
  email : String
  ending : LoginEnding
  connects : Bool
  connectsLater : Bool
  get : Command
  incr : Command
  expire : Command
  delete : Command

namespace LoginAttempt

variable (settings : WindowSettings) (redis : Redis) (attempt : LoginAttempt)

def key : String := Auth.LoginGuard.key settings.env attempt.email

/-- `check`: whether it raises. -/
def check : Redis × Bool :=
  if settings.rateLimitEnabled = true ∧ attempt.connects = true then
    match redis.get attempt.get (attempt.key settings) with
    | (redis, none) => (redis, false)
    | (redis, some attempts) =>
        (redis, attempts.any fun count => settings.guard.loginMaxAttempts ≤ count)
  else (redis, false)

/-- There is a client when the guard is told how the login ended. -/
def hasClient : Bool :=
  settings.rateLimitEnabled && (attempt.connects || attempt.connectsLater)

/-- `record_failure` -/
def recordFailure : Redis :=
  if attempt.hasClient settings then
    (redis.countUp attempt.incr attempt.expire (attempt.key settings)
      settings.guard.loginLockoutSeconds).1
  else redis

/-- `reset` -/
def reset : Redis :=
  if attempt.hasClient settings then (redis.delete attempt.delete (attempt.key settings)).1
  else redis

/-- The calls of the guard in `login`, and whether the guard lets the login through. -/
def run : Redis × Bool :=
  match attempt.check settings redis with
  | (redis, true) => (redis, false)
  | (redis, false) =>
      match attempt.ending with
      | .failed => (attempt.recordFailure settings redis, true)
      | .disabled => (redis, true)
      | .accepted => (attempt.reset settings redis, true)

end LoginAttempt

/-! ## The requests-per-minute limiter -/

/-- A call of the LLM manager, whether the client can be made, and whether it closes. -/
structure RpmCheck where
  key : String
  connects : Bool
  incr : Command
  expire : Command
  closes : Bool

/-- The counter of a key. -/
def RpmCheck.bucket (check : RpmCheck) : String := "llm:rpm:" ++ check.key

/-- `check_rpm`: whether it returns. -/
def RpmCheck.run (settings : WindowSettings) (redis : Redis) (check : RpmCheck) : Redis × Bool :=
  if settings.llmCacheEnabled = true ∧ check.connects = true then
    match redis.countUp check.incr check.expire check.bucket 60 with
    | (redis, none) => (redis, true)
    | (redis, some count) =>
        if check.closes = true then (redis, decide (count ≤ settings.llmRateLimitRpm))
        else (redis, true)
  else (redis, true)

/-! ## Requests -/

inductive CounterRequest where
  | http (request : HttpRequest)
  | login (attempt : LoginAttempt)
  | llm (check : RpmCheck)

structure WindowState where
  redis : Redis
  workers : Nat → Middleware

namespace WindowState

variable (settings : WindowSettings) (s : WindowState)

/-- A request: what it leaves, and whether it is admitted. -/
def serve : CounterRequest → WindowState × Bool
  | .http request =>
      let (redis, middleware, dispatched) :=
        (s.workers request.worker).dispatch settings s.redis request
      (⟨redis, Function.update s.workers request.worker middleware⟩, dispatched.admits)
  | .login attempt =>
      let (redis, admitted) := attempt.run settings s.redis
      (⟨redis, s.workers⟩, admitted)
  | .llm check =>
      let (redis, admitted) := check.run settings s.redis
      (⟨redis, s.workers⟩, admitted)

def step (request : CounterRequest) : WindowState := (s.serve settings request).1

/-- No counters, and workers that have not been asked for anything. -/
def start (now : Int) : WindowState where
  redis := ⟨fun _ => none, now⟩
  workers _ := ⟨0, false⟩

end WindowState

/-- The window of a key. -/
def WindowSettings.window (settings : WindowSettings) (key : String) : Int :=
  if Python.startsWith key "login:attempts:" = true then settings.guard.loginLockoutSeconds
  else WINDOW_SECONDS

/-- The key of a request, and how long its first command is on its way. -/
def CounterRequest.keyWait (settings : WindowSettings) : CounterRequest → String × Nat
  | http request => ((request.headers.bucket settings.digest).1, request.incr.wait)
  | login attempt => (attempt.key settings, attempt.get.wait)
  | llm check => (check.bucket, check.incr.wait)

/-- Every counter has a time to live within its window, and a request whose key was left alone for
its window is admitted, whatever was asked for other keys in the meantime. -/
structure WindowState.Expires (settings : WindowSettings) (s : WindowState) : Prop where
  bounded : Bounded settings.window s.redis.now s.redis.counters
  idle : ∀ (others : List CounterRequest) (request : CounterRequest),
    (∀ other ∈ others, (other.keyWait settings).1 ≠ (request.keyWait settings).1) →
      s.redis.now + settings.window (request.keyWait settings).1 ≤
        (Run.run (step settings) s others).redis.now + (request.keyWait settings).2 →
      ((Run.run (step settings) s others).serve settings request).2 = true

/-- If the `INCR` creates the counter, it is answered and the `EXPIRE` is carried out. -/
def Redis.CountsSoundly (redis : Redis) (incr expire : Command) (key : String) : Prop :=
  incr.reply ≠ .refused → Expiring.get redis.counters (redis.now + incr.wait) key = none →
    incr.reply = .answered ∧ expire.reply ≠ .refused

/-- The request counts soundly, if it gets to count. -/
def CounterRequest.Sound (settings : WindowSettings) (s : WindowState) : CounterRequest → Prop
  | http request => ((s.workers request.worker).getClient settings request).2 = true →
      s.redis.CountsSoundly request.incr request.expire (request.headers.bucket settings.digest).1
  | login attempt => (attempt.check settings s.redis).2 = false → attempt.ending = .failed →
      attempt.hasClient settings = true →
        (attempt.check settings s.redis).1.CountsSoundly attempt.incr attempt.expire
          (attempt.key settings)
  | llm check => settings.llmCacheEnabled = true → check.connects = true →
      s.redis.CountsSoundly check.incr check.expire check.bucket

/-! ## Counting -/

namespace Redis

variable {redis : Redis} {window : String → Int} {incr expire : Command} {key : String}
  {seconds : Int}

theorem le_wait (now : Int) (wait : Nat) : now ≤ now + wait :=
  Int.le_add_of_nonneg_right (Int.natCast_nonneg wait)

/-- The counters keep to their windows when a request is counted, if and only if it is counted
soundly. -/
theorem bounded_countUp_iff (h : Bounded window redis.now redis.counters)
    (hseconds : seconds = window key) :
    Bounded window (redis.countUp incr expire key seconds).1.now
        (redis.countUp incr expire key seconds).1.counters ↔
      redis.CountsSoundly incr expire key := by
  have hlater : Bounded window (redis.now + incr.wait) redis.counters :=
    h.mono (le_wait redis.now incr.wait)
  -- A counter that was there still has its time to live; a new one has none yet.
  have hincr : ∀ now, redis.now + incr.wait ≤ now →
      (Bounded window now (Expiring.incr redis.counters (redis.now + incr.wait) key) ↔
        Expiring.get redis.counters (redis.now + incr.wait) key ≠ none) := by
    intro now hle
    constructor
    · exact fun hbounded hnone => Bounded.not_incr hnone hbounded
    · exact fun hthere => (hlater.incr (Option.isSome_iff_ne_none.mpr hthere)).mono hle
  unfold countUp Redis.incr execute CountsSoundly
  dsimp only
  cases hreply : incr.reply with
  | refused => exact iff_of_true hlater fun hrefused => absurd rfl hrefused
  | lost =>
      refine (hincr _ le_rfl).trans ⟨fun hthere _ hnone => absurd hnone hthere, fun hsound => ?_⟩
      intro hnone
      cases (hsound (by decide) hnone).1
  | answered =>
      dsimp only
      split
      · unfold Redis.expire execute
        dsimp only
        cases hexpire : expire.reply with
        | refused =>
            refine (hincr _ (le_wait _ expire.wait)).trans ⟨fun hthere _ hnone =>
              absurd hnone hthere, fun hsound hnone => ?_⟩
            exact (hsound (by decide) hnone).2 rfl
        | lost | answered =>
            refine iff_of_true ?_ fun _ _ => ⟨rfl, by decide⟩
            exact (hlater.mono (le_wait _ expire.wait)).incr_expire hseconds.le
      · next hcount =>
          have hthere : Expiring.get redis.counters (redis.now + incr.wait) key ≠ none := by
            intro hnone
            refine hcount ?_
            unfold count
            rw [hnone]
            rfl
          exact iff_of_true ((hincr _ le_rfl).mpr hthere) fun _ hnone => absurd hnone hthere

/-- The counters of other keys are left alone. -/
theorem countUp_of_ne {other : String} (hne : other ≠ key) :
    (redis.countUp incr expire key seconds).1.counters other = redis.counters other := by
  unfold countUp Redis.incr execute
  dsimp only
  cases incr.reply with
  | refused => rfl
  | lost => exact Function.update_of_ne hne ..
  | answered =>
      dsimp only
      split
      · unfold Redis.expire execute
        dsimp only
        cases expire.reply with
        | refused => exact Function.update_of_ne hne ..
        | lost | answered =>
            exact (Function.update_of_ne hne ..).trans (Function.update_of_ne hne ..)
      · exact Function.update_of_ne hne ..

/-- A key without a counter is counted as one. -/
theorem countUp_of_none {count : Nat}
    (hnone : Expiring.get redis.counters (redis.now + incr.wait) key = none)
    (hcount : (redis.countUp incr expire key seconds).2 = some count) : count = 1 := by
  have hone : Expiring.count redis.counters (redis.now + incr.wait) key + 1 = 1 := by
    unfold Expiring.count
    rw [hnone]
    rfl
  unfold countUp Redis.incr execute at hcount
  dsimp only at hcount
  cases hreply : incr.reply with
  | refused | lost => simp [hreply] at hcount
  | answered =>
      simp only [hreply, hone, if_true] at hcount
      split at hcount <;> cases hcount
      rfl

end Redis

/-! ## The windows of the keys -/

theorem startsWith_append (start rest : String) :
    Python.startsWith (start ++ rest) start = true := by
  unfold Python.startsWith
  rw [String.toList_append, List.isPrefixOf_iff_prefix]
  exact List.prefix_append _ _

section

variable {settings : WindowSettings}

theorem window_http (headers : RequestHeaders) :
    settings.window (headers.bucket settings.digest).1 = WINDOW_SECONDS := by
  have hbucket : ∃ rest, (headers.bucket settings.digest).1 = "ratelimit:" ++ rest := by
    have haddress : ∃ rest,
        (RequestHeaders.bucket.byAddress headers).1 = "ratelimit:" ++ rest :=
      ⟨"ip:" ++ headers.clientHost.getD "anonymous", String.toList_inj.mp (by
        simp [RequestHeaders.bucket.byAddress])⟩
    unfold RequestHeaders.bucket
    split
    · split
      · exact haddress
      · next presented _ _ =>
          exact ⟨"key:" ++ settings.digest presented,
            String.toList_inj.mp (by simp [keyBucket_eq])⟩
    · exact haddress
  obtain ⟨rest, hrest⟩ := hbucket
  have hother : ¬ Python.startsWith ("ratelimit:" ++ rest) "login:attempts:" = true := by
    unfold Python.startsWith
    rw [String.toList_append]
    exact Bool.false_ne_true
  rw [WindowSettings.window, hrest, if_neg hother]

theorem one_le_budget (digest : String → String) (headers : RequestHeaders) :
    1 ≤ (headers.bucket digest).2 := by
  have haddress : 1 ≤ (RequestHeaders.bucket.byAddress headers).2 :=
    show 1 ≤ MAX_REQUESTS by decide
  unfold RequestHeaders.bucket
  split
  · split
    · exact haddress
    · exact show 1 ≤ API_KEY_MAX_REQUESTS by decide
  · exact haddress

theorem window_login (attempt : LoginAttempt) :
    settings.window (attempt.key settings) = settings.guard.loginLockoutSeconds :=
  if_pos (startsWith_append _ _)

theorem window_llm (check : RpmCheck) : settings.window check.bucket = WINDOW_SECONDS := by
  have hother : ¬ Python.startsWith ("llm:rpm:" ++ check.key) "login:attempts:" = true := by
    unfold Python.startsWith
    rw [String.toList_append]
    exact Bool.false_ne_true
  exact if_neg hother

theorem window_pos (key : String) : 0 ≤ settings.window key := by
  unfold WindowSettings.window
  split
  · exact Int.zero_le_ofNat 1 |>.trans settings.guard.lockout_pos
  · decide

/-! ## One request -/

theorem dispatch_redis (redis : Redis) (middleware : Middleware) (request : HttpRequest) :
    (middleware.dispatch settings redis request).1 =
      if (middleware.getClient settings request).2 = true then
        (redis.countUp request.incr request.expire (request.headers.bucket settings.digest).1
          WINDOW_SECONDS).1
      else redis := by
  unfold Middleware.dispatch
  cases middleware.getClient settings request with
  | mk middleware' client =>
      cases client with
      | false => rfl
      | true =>
          dsimp only
          cases redis.countUp request.incr request.expire
              (request.headers.bucket settings.digest).1 WINDOW_SECONDS with
          | mk redis' result =>
              cases result with
              | none => rfl
              | some count =>
                  dsimp only
                  split <;> rfl

theorem rpmCheck_redis (redis : Redis) (check : RpmCheck) :
    (check.run settings redis).1 =
      if settings.llmCacheEnabled = true ∧ check.connects = true then
        (redis.countUp check.incr check.expire check.bucket WINDOW_SECONDS).1
      else redis := by
  unfold RpmCheck.run WINDOW_SECONDS
  split
  · cases redis.countUp check.incr check.expire check.bucket 60 with
    | mk redis' result =>
        cases result with
        | none => rfl
        | some count =>
            dsimp only
            split <;> rfl
  · rfl

/-- Asking the guard takes time, and leaves the counters. -/
theorem check_redis (redis : Redis) (attempt : LoginAttempt) :
    (attempt.check settings redis).1.counters = redis.counters ∧
      redis.now ≤ (attempt.check settings redis).1.now := by
  unfold LoginAttempt.check Redis.get Redis.execute
  split
  · dsimp only
    cases attempt.get.reply <;> exact ⟨rfl, Redis.le_wait _ _⟩
  · exact ⟨rfl, le_rfl⟩

/-- A login leaves the counters bounded if it counts its failure soundly. -/
theorem bounded_login_iff {redis : Redis} (attempt : LoginAttempt)
    (h : Bounded settings.window redis.now redis.counters) :
    Bounded settings.window (attempt.run settings redis).1.now
        (attempt.run settings redis).1.counters ↔
      ((attempt.check settings redis).2 = false → attempt.ending = .failed →
        attempt.hasClient settings = true →
        (attempt.check settings redis).1.CountsSoundly attempt.incr attempt.expire
          (attempt.key settings)) := by
  obtain ⟨hcounters, hnow⟩ : (attempt.check settings redis).1.counters = redis.counters ∧
      redis.now ≤ (attempt.check settings redis).1.now := check_redis redis attempt
  have hasked : Bounded settings.window (attempt.check settings redis).1.now
      (attempt.check settings redis).1.counters := by
    rw [hcounters]
    exact h.mono hnow
  unfold LoginAttempt.run
  cases hasks : attempt.check settings redis with
  | mk redis refused =>
      rw [hasks] at hasked
      cases refused with
      | true => exact iff_of_true hasked nofun
      | false =>
          dsimp only at hasked ⊢
          cases hending : attempt.ending with
          | disabled => exact iff_of_true hasked nofun
          | accepted =>
              refine iff_of_true ?_ nofun
              unfold LoginAttempt.reset Redis.delete Redis.execute
              dsimp only
              split
              · have hlater := hasked.mono (Redis.le_wait redis.now attempt.delete.wait)
                cases attempt.delete.reply with
                | refused => exact hlater
                | lost | answered => exact hlater.delete
              · exact hasked
          | failed =>
              unfold LoginAttempt.recordFailure
              dsimp only
              by_cases hclient : attempt.hasClient settings = true
              · rw [if_pos hclient, Redis.bounded_countUp_iff hasked (window_login attempt).symm]
                exact ⟨fun hsound _ _ _ => hsound, fun hsound => hsound rfl rfl hclient⟩
              · rw [if_neg hclient]
                exact iff_of_true hasked fun _ _ hgot => absurd hgot hclient

theorem bounded_serve_iff {s : WindowState} (request : CounterRequest)
    (h : Bounded settings.window s.redis.now s.redis.counters) :
    Bounded settings.window (s.step settings request).redis.now
        (s.step settings request).redis.counters ↔ request.Sound settings s := by
  cases request with
  | http request =>
      have hredis : (s.step settings (.http request)).redis =
          ((s.workers request.worker).dispatch settings s.redis request).1 := rfl
      rw [hredis, dispatch_redis]
      by_cases hclient : ((s.workers request.worker).getClient settings request).2 = true
      · rw [if_pos hclient, Redis.bounded_countUp_iff h (window_http request.headers).symm]
        exact ⟨fun hsound _ => hsound, fun hsound => hsound hclient⟩
      · rw [if_neg hclient]
        exact iff_of_true h fun hgot => absurd hgot hclient
  | login attempt =>
      have hredis : (s.step settings (.login attempt)).redis = (attempt.run settings s.redis).1 :=
        rfl
      rw [hredis]
      exact bounded_login_iff attempt h
  | llm check =>
      have hredis : (s.step settings (.llm check)).redis = (check.run settings s.redis).1 := rfl
      rw [hredis, rpmCheck_redis]
      by_cases hcounts : settings.llmCacheEnabled = true ∧ check.connects = true
      · rw [if_pos hcounts, Redis.bounded_countUp_iff h (window_llm check).symm]
        exact ⟨fun hsound _ _ => hsound, fun hsound => hsound hcounts.1 hcounts.2⟩
      · rw [if_neg hcounts]
        exact iff_of_true h fun henabled hconnects => absurd ⟨henabled, hconnects⟩ hcounts

/-- A request whose bucket has no counter is within its budget. -/
theorem dispatch_admits (redis : Redis) (middleware : Middleware) (request : HttpRequest)
    (hgone : Expiring.get redis.counters (redis.now + request.incr.wait)
      (request.headers.bucket settings.digest).1 = none) :
    (middleware.dispatch settings redis request).2.2.admits = true := by
  unfold Middleware.dispatch
  cases middleware.getClient settings request with
  | mk middleware client =>
      cases client with
      | false => rfl
      | true =>
          dsimp only
          cases hcount : redis.countUp request.incr request.expire
              (request.headers.bucket settings.digest).1 WINDOW_SECONDS with
          | mk redis result =>
              cases result with
              | none => rfl
              | some count =>
                  have hone : count = 1 := Redis.countUp_of_none hgone (congrArg Prod.snd hcount)
                  have hbudget := one_le_budget settings.digest request.headers
                  dsimp only
                  rw [if_neg (by omega)]
                  rfl

/-- A login whose key has no counter passes the guard. -/
theorem login_admits (redis : Redis) (attempt : LoginAttempt)
    (hgone : Expiring.get redis.counters (redis.now + attempt.get.wait)
      (attempt.key settings) = none) : (attempt.run settings redis).2 = true := by
  have hpasses : (attempt.check settings redis).2 = false := by
    unfold LoginAttempt.check Redis.get Redis.execute
    split
    · dsimp only
      cases attempt.get.reply with
      | refused | lost => rfl
      | answered =>
          dsimp only
          rw [hgone]
          rfl
    · rfl
  unfold LoginAttempt.run
  cases hasks : attempt.check settings redis with
  | mk redis refused =>
      rw [hasks] at hpasses
      cases hpasses
      dsimp only
      cases attempt.ending <;> rfl

/-- A chat whose key has no counter is within the limit. -/
theorem rpmCheck_admits (redis : Redis) (check : RpmCheck)
    (hgone : Expiring.get redis.counters (redis.now + check.incr.wait) check.bucket = none) :
    (check.run settings redis).2 = true := by
  unfold RpmCheck.run
  split
  · cases hcount : redis.countUp check.incr check.expire check.bucket 60 with
    | mk redis result =>
        cases result with
        | none => rfl
        | some count =>
            have hone : count = 1 := Redis.countUp_of_none hgone (congrArg Prod.snd hcount)
            dsimp only
            split
            · rw [hone]
              exact decide_eq_true settings.rpm_pos
            · rfl
  · rfl

/-- A request leaves the counters of other keys alone. -/
theorem counters_step_of_ne {s : WindowState} {request : CounterRequest} {key : String}
    (hne : key ≠ (request.keyWait settings).1) :
    (s.step settings request).redis.counters key = s.redis.counters key := by
  cases request with
  | http request =>
      have hredis : (s.step settings (.http request)).redis =
          ((s.workers request.worker).dispatch settings s.redis request).1 := rfl
      rw [hredis, dispatch_redis]
      split
      · exact Redis.countUp_of_ne hne
      · rfl
  | login attempt =>
      have hne : key ≠ attempt.key settings := hne
      have hcounters : (attempt.check settings s.redis).1.counters = s.redis.counters :=
        (check_redis s.redis attempt).1
      show (attempt.run settings s.redis).1.counters key = _
      unfold LoginAttempt.run
      cases hasks : attempt.check settings s.redis with
      | mk redis refused =>
          rw [hasks] at hcounters
          dsimp only at hcounters
          rw [← hcounters]
          cases refused with
          | true => rfl
          | false =>
              dsimp only
              cases attempt.ending with
              | disabled => rfl
              | accepted =>
                  unfold LoginAttempt.reset Redis.delete Redis.execute
                  dsimp only
                  split
                  · cases attempt.delete.reply with
                    | refused => rfl
                    | lost | answered => exact Function.update_of_ne hne ..
                  · rfl
              | failed =>
                  unfold LoginAttempt.recordFailure
                  dsimp only
                  split
                  · exact Redis.countUp_of_ne hne
                  · rfl
  | llm check =>
      have hredis : (s.step settings (.llm check)).redis = (check.run settings s.redis).1 := rfl
      rw [hredis, rpmCheck_redis]
      split
      · exact Redis.countUp_of_ne hne
      · rfl

/-- So do several. -/
theorem counters_run_of_ne {key : String} :
    ∀ {requests : List CounterRequest} {s : WindowState},
      (∀ request ∈ requests, (request.keyWait settings).1 ≠ key) →
      (Run.run (WindowState.step settings) s requests).redis.counters key = s.redis.counters key
  | [], _, _ => rfl
  | request :: requests, s, h => by
      obtain ⟨hfirst, hrest⟩ := List.forall_mem_cons.mp h
      rw [Run.run_cons, counters_run_of_ne hrest, counters_step_of_ne hfirst.symm]

/-- A request whose key has no counter is admitted. -/
theorem serve_admits {s : WindowState} (request : CounterRequest)
    (hgone : Expiring.get s.redis.counters (s.redis.now + (request.keyWait settings).2)
      (request.keyWait settings).1 = none) : (s.serve settings request).2 = true := by
  cases request with
  | http request => exact dispatch_admits s.redis (s.workers request.worker) request hgone
  | login attempt => exact login_admits s.redis attempt hgone
  | llm check => exact rpmCheck_admits s.redis check hgone

/-- A request whose key was left alone for its window is admitted. -/
theorem idle_admitted {s : WindowState} {others : List CounterRequest} (request : CounterRequest)
    (h : Bounded settings.window s.redis.now s.redis.counters)
    (hothers : ∀ other ∈ others, (other.keyWait settings).1 ≠ (request.keyWait settings).1)
    (hidle : s.redis.now + settings.window (request.keyWait settings).1 ≤
      (Run.run (WindowState.step settings) s others).redis.now +
        (request.keyWait settings).2) :
    ((Run.run (WindowState.step settings) s others).serve settings request).2 = true := by
  refine serve_admits request ?_
  have hgone := h.gone hidle (window_pos _)
  unfold Expiring.get at hgone ⊢
  rw [counters_run_of_ne hothers]
  exact hgone

end

/-- The counters expire all along a run, if and only if each request that creates a counter is
counted soundly. -/
theorem windows_expire_iff (settings : WindowSettings) (now : Int)
    (requests : List CounterRequest) :
    Run.Always (WindowState.step settings) (WindowState.Expires settings) (WindowState.start now)
        requests ↔
      Run.EveryStep (WindowState.step settings)
        (fun s request => CounterRequest.Sound settings s request) (WindowState.start now)
        requests := by
  have hexpires : ∀ s : WindowState, s.Expires settings ↔
      Bounded settings.window s.redis.now s.redis.counters :=
    fun s => ⟨fun h => h.bounded,
      fun h => ⟨h, fun _ request hothers hidle => idle_admitted request h hothers hidle⟩⟩
  have hstep : ∀ (s : WindowState) request, True → True → s.Expires settings →
      ((s.step settings request).Expires settings ↔ request.Sound settings s) := by
    intro s request _ _ h
    rw [hexpires]
    exact bounded_serve_iff request h.bounded
  exact @Run.always_iff_everyStep _ _ _ (fun _ => True) _ (fun _ _ => True) _
    (fun _ _ _ _ => trivial) hstep requests _ (Run.everyStep_of_forall fun _ _ => trivial) trivial
    ((hexpires _).mpr fun key c hc => nomatch hc)

def sampleWindows : WindowSettings where
  rateLimitEnabled := true
  guard := Auth.defaultGuard
  llmCacheEnabled := true
  llmRateLimitRpm := 60
  rpm_pos := Nat.succ_pos 59
  digest credential := credential
  env := Auth.plainEnv

/-- A login with a wrong password, so many seconds after the one before. -/
def wrongPassword (wait : Nat) (expire : Reply) : CounterRequest :=
  .login
    { email := "ada@example.com"
      ending := .failed
      connects := true
      connectsLater := true
      get := ⟨wait, .answered⟩
      incr := ⟨0, .answered⟩
      expire := ⟨0, expire⟩
      delete := ⟨0, .answered⟩ }

/-- One `EXPIRE` fails.  Five wrong passwords, each a day after the other, then lock the account
for good: a year later the guard still refuses it. -/
theorem locked_for_good :
    let requests := wrongPassword 0 .refused :: List.replicate 4 (wrongPassword 86400 .answered)
    ¬ Run.Always (WindowState.step sampleWindows) (WindowState.Expires sampleWindows)
        (WindowState.start 0) requests ∧
      ((Run.run (WindowState.step sampleWindows) (WindowState.start 0) requests).serve
        sampleWindows (wrongPassword 31536000 .answered)).2 = false := by
  intro requests
  have hlocked : ((Run.run (WindowState.step sampleWindows) (WindowState.start 0) requests).serve
      sampleWindows (wrongPassword 31536000 .answered)).2 = false := by
    decide
  refine ⟨fun halways => ?_, hlocked⟩
  have hadmitted := halways.last.idle [] (wrongPassword 31536000 .answered) nofun (by decide)
  rw [Run.run_nil, hlocked] at hadmitted
  cases hadmitted

end YoutubeFactory.Access
