import YoutubeFactory.Lib.Expiring
import YoutubeFactory.Lib.Interleaving
import YoutubeFactory.Auth.AccountCalls

/-!
# The login guard against logins in flight

`LoginGuard` of `app/services/login_guard.py` and its calls in `AuthService.login`, with a Redis
that works.  A login gives way at each command and when it looks for the user: it asks the guard
first, and counts its failure last.

So a counter bounds the passwords that are compared while it is there if each login that passes
the guard finds room for one more failure, beside those counted and those of the logins that have
passed and not yet been counted (`lockout_bounds_guessing`).  The guard looks at those counted.
-/

namespace YoutubeFactory.Auth

open Interleaving Expiring

/-! ## The guard -/

/-- The settings of the guard, which are at least one. -/
structure GuardSettings where
  loginMaxAttempts : Nat
  loginLockoutSeconds : Int
  attempts_pos : 1 ≤ loginMaxAttempts
  lockout_pos : 1 ≤ loginLockoutSeconds

namespace LoginGuard

/-- `_key` -/
def key (env : AuthEnv) (identifier : String) : String := "login:attempts:" ++ env.lower identifier

theorem key_eq (env : AuthEnv) (identifier : String) :
    key env identifier = "login:attempts:" ++ env.lower identifier := rfl

/-- `check` raises. -/
def refuses (settings : GuardSettings) (counters : Counters String) (now : Int) (key : String) :
    Bool :=
  (get counters now key).any fun c => settings.loginMaxAttempts ≤ c.count

theorem refuses_eq_false_iff {settings : GuardSettings} {counters : Counters String} {now : Int}
    {key : String} :
    refuses settings counters now key = false ↔
      count counters now key < settings.loginMaxAttempts := by
  unfold refuses count
  cases get counters now key with
  | none => exact iff_of_true rfl settings.attempts_pos
  | some c => simp

end LoginGuard

/-! ## Logins in flight -/

/-- Where a login gives way. -/
inductive LoginStage where
  /-- It is about to ask the guard. -/
  | requested (email password : String)
  /-- It has passed, and is about to look for the user. -/
  | checked (email password : String)
  /-- It has compared a wrong password, and is about to count it. -/
  | failed (email : String)
  /-- It has created the counter, and is about to give it its time to live. -/
  | counted (email : String)
  /-- It has compared the right password, and is about to clear the counter. -/
  | accepted (email : String)
  | ended
deriving DecidableEq, Repr

/-- The counters, the clock of Redis, and how many wrong passwords were compared for a key while
its counter was there. -/
structure GuardStore where
  counters : Counters String
  now : Int
  compared : String → Nat

/-- How long the login waits for its turn, and the accounts it finds then. -/
structure LoginInput where
  elapsed : Nat
  db : AccountDb

abbrev Logins := System GuardStore LoginStage

abbrev LoginTurn := Turn LoginInput

/-- Time passes.  Nothing has been compared under a counter that is gone. -/
def GuardStore.advance (store : GuardStore) (elapsed : Nat) : GuardStore where
  counters := store.counters
  now := store.now + elapsed
  compared key :=
    if (get store.counters (store.now + elapsed) key).isSome then store.compared key else 0

/-- A wrong password is compared. -/
def GuardStore.compare (store : GuardStore) (key : String) : GuardStore :=
  if (get store.counters store.now key).isSome then
    { store with compared := Function.update store.compared key (store.compared key + 1) }
  else store

/-- What `login` does when it has found the user, or none. -/
def LoginStage.verify (env : AuthEnv) (email password : String)
    (user : Option (Account × Id)) : LoginStage :=
  let candidate := (user.bind fun u => given u.1.passwordHash).getD env.dummyHash
  match user.bind fun u => (given u.1.passwordHash).map fun hash => (u.1, hash) with
  | none => .failed email
  | some (u, hash) =>
      if env.verifyPassword password candidate = false then .failed email
      else if u.isActive = false then .ended
      else if env.needsRehash hash = true ∧ (env.hashPassword password).toOption = none then .ended
      else .accepted email

/-- One turn of a login. -/
def LoginStage.resume (settings : GuardSettings) (env : AuthEnv) (store : GuardStore)
    (input : LoginInput) (stage : LoginStage) : GuardStore × LoginStage :=
  let store := store.advance input.elapsed
  match stage with
  | requested email password =>
      if LoginGuard.refuses settings store.counters store.now (LoginGuard.key env email) then
        (store, .ended)
      else (store, .checked email password)
  | checked email password =>
      match input.db.userByEmail env email with
      | .error _ => (store, .ended)
      | .ok user =>
          match verify env email password user with
          | .failed email => (store.compare (LoginGuard.key env email), .failed email)
          | stage => (store, stage)
  | failed email =>
      let key := LoginGuard.key env email
      let count := count store.counters store.now key + 1
      let counters := incr store.counters store.now key
      if count = 1 then
        ({ store with counters, compared := Function.update store.compared key 0 },
          .counted email)
      else ({ store with counters }, .ended)
  | counted email =>
      ({ store with
          counters := expire store.counters store.now (LoginGuard.key env email)
            settings.loginLockoutSeconds },
        .ended)
  | accepted email =>
      let key := LoginGuard.key env email
      ({ store with
          counters := delete store.counters key
          compared := Function.update store.compared key 0 },
        .ended)
  | ended => (store, .ended)

/-- The login has passed the guard for the key, and its failure may still be counted. -/
def LoginStage.passed (env : AuthEnv) (key : String) : LoginStage → Bool
  | checked email _ => LoginGuard.key env email = key
  | failed email => LoginGuard.key env email = key
  | _ => false

/-- The login has compared a wrong password for the key, and not counted it. -/
def LoginStage.uncounted (env : AuthEnv) (key : String) : LoginStage → Bool
  | failed email => LoginGuard.key env email = key
  | _ => false

section

variable {env : AuthEnv} {key email password : String}

@[simp] theorem passed_requested : (LoginStage.requested email password).passed env key = false :=
  rfl

@[simp] theorem passed_checked : (LoginStage.checked email password).passed env key =
    decide (LoginGuard.key env email = key) := rfl

@[simp] theorem passed_failed : (LoginStage.failed email).passed env key =
    decide (LoginGuard.key env email = key) := rfl

@[simp] theorem passed_ended : LoginStage.ended.passed env key = false := rfl

@[simp] theorem uncounted_checked : (LoginStage.checked email password).uncounted env key = false :=
  rfl

@[simp] theorem uncounted_failed : (LoginStage.failed email).uncounted env key =
    decide (LoginGuard.key env email = key) := rfl

@[simp] theorem uncounted_ended : LoginStage.ended.uncounted env key = false := rfl

/-- A password is wrong, or right, or right and of no use. -/
theorem LoginStage.verify_cases (user : Option (Account × Id)) :
    verify env email password user = .failed email ∨
      verify env email password user = .ended ∨
      verify env email password user = .accepted email := by
  unfold verify
  dsimp only
  split
  · exact .inl rfl
  · split_ifs
    · exact .inl rfl
    · exact .inr (.inl rfl)
    · exact .inr (.inl rfl)
    · exact .inr (.inr rfl)

end

namespace Logins

variable (settings : GuardSettings) (env : AuthEnv)

def step (s : Logins) (turn : LoginTurn) : Logins :=
  Interleaving.step (LoginStage.resume settings env) s turn

/-- Logins that have not begun, and no counters. -/
def start (now : Int) (requests : List (String × String)) : Logins where
  store := ⟨fun _ => none, now, fun _ => 0⟩
  procs := requests.map fun r => .requested r.1 r.2

/-- Under no counter more wrong passwords are compared than the settings allow. -/
def Bounds (s : Logins) : Prop := ∀ key, s.store.compared key ≤ settings.loginMaxAttempts

/-- If the login of the turn passes the guard, there is room for one more failure beside those
counted and those that may still be counted. -/
def FindsRoom (s : Logins) (turn : LoginTurn) : Prop :=
  ∀ email password, s.procs[turn.proc]? = some (.requested email password) →
    let counted := count s.store.counters (s.store.now + turn.input.elapsed)
      (LoginGuard.key env email)
    counted < settings.loginMaxAttempts →
      counted + s.procs.countP (LoginStage.passed env (LoginGuard.key env email)) <
        settings.loginMaxAttempts

/-! ## What a turn leaves -/

/-- What is counted and what may still be counted fits the settings, and what has been compared
is among it. -/
structure Within (s : Logins) : Prop where
  room : ∀ key, count s.store.counters s.store.now key +
    s.procs.countP (LoginStage.passed env key) ≤ settings.loginMaxAttempts
  compared : ∀ key, s.store.compared key ≤ count s.store.counters s.store.now key +
    s.procs.countP (LoginStage.uncounted env key)

namespace Within

variable {settings : GuardSettings} {env : AuthEnv} {s : Logins} {store store' : GuardStore}
  {procs : List LoginStage}

theorem start (settings : GuardSettings) (env : AuthEnv) (now : Int)
    (requests : List (String × String)) : Within settings env (Logins.start now requests) where
  room key := by
    have hnone : (requests.map fun r => LoginStage.requested r.1 r.2).countP
        (LoginStage.passed env key) = 0 := by
      rw [List.countP_eq_zero]
      intro stage hstage
      obtain ⟨r, -, rfl⟩ := List.mem_map.mp hstage
      exact Bool.false_ne_true
    exact (Nat.add_le_add_left hnone.le _).trans (Nat.zero_le _)
  compared key := Nat.zero_le _

theorem bounds (h : Within settings env s) : s.Bounds settings := by
  intro key
  have hmono : s.procs.countP (LoginStage.uncounted env key) ≤
      s.procs.countP (LoginStage.passed env key) := by
    refine List.countP_mono_left fun stage _ huncounted => ?_
    cases stage with
    | failed email => exact huncounted
    | requested | checked | counted | accepted | ended => cases huncounted
  exact (h.compared key).trans ((Nat.add_le_add_left hmono _).trans (h.room key))

/-- Time passes. -/
theorem advance (h : Within settings env ⟨store, procs⟩) (elapsed : Nat) :
    Within settings env ⟨store.advance elapsed, procs⟩ where
  room key := by
    have hle : store.now ≤ store.now + elapsed := Int.le_add_of_nonneg_right (Int.natCast_nonneg _)
    exact (Nat.add_le_add_right (count_later hle) _).trans (h.room key)
  compared key := by
    have hle : store.now ≤ store.now + elapsed := Int.le_add_of_nonneg_right (Int.natCast_nonneg _)
    unfold GuardStore.advance
    dsimp only
    split
    · next hthere =>
        rw [count_of_get hle hthere]
        exact h.compared key
    · exact Nat.zero_le _

/-- One login goes on. -/
theorem replace {i : Nat} {p p' : LoginStage} (h : Within settings env ⟨store, procs⟩)
    (hp : procs[i]? = some p)
    (hroom : ∀ key,
      count store'.counters store'.now key + (if p'.passed env key then 1 else 0) ≤
        count store.counters store.now key + (if p.passed env key then 1 else 0) ∨
      count store'.counters store'.now key + procs.countP (LoginStage.passed env key) <
        settings.loginMaxAttempts)
    (hcompared : ∀ key, store'.compared key = 0 ∨
      store'.compared key + count store.counters store.now key +
          (if p.uncounted env key then 1 else 0) ≤
        store.compared key + count store'.counters store'.now key +
          (if p'.uncounted env key then 1 else 0)) :
    Within settings env ⟨store', procs.set i p'⟩ where
  room key := by
    have hset := @countP_set _ procs i p p' (LoginStage.passed env key) hp
    have hold := h.room key
    dsimp only at hold ⊢
    rcases hroom key with hless | hfits
    · omega
    · have : (if p'.passed env key then 1 else 0) ≤ 1 := by split <;> omega
      omega
  compared key := by
    have hset := @countP_set _ procs i p p' (LoginStage.uncounted env key) hp
    have hold := h.compared key
    dsimp only at hold ⊢
    rcases hcompared key with hzero | hless
    · omega
    · omega

/-- A login that leaves the counters alone, and that may not be counted any more. -/
theorem replace_of_store {i : Nat} {p p' : LoginStage} (h : Within settings env ⟨store, procs⟩)
    (hp : procs[i]? = some p)
    (hpassed : ∀ key, p'.passed env key = true → p.passed env key = true)
    (huncounted : ∀ key, p.uncounted env key = true → p'.uncounted env key = true) :
    Within settings env ⟨store, procs.set i p'⟩ := by
  refine h.replace hp (fun key => .inl ?_) fun key => .inr ?_
  · have := hpassed key
    split <;> split <;> simp_all
  · have := huncounted key
    split <;> split <;> simp_all

/-- A wrong password is compared. -/
theorem replace_compare {i : Nat} {email password : String}
    (h : Within settings env ⟨store, procs⟩)
    (hp : procs[i]? = some (.checked email password)) :
    Within settings env
      ⟨store.compare (LoginGuard.key env email), procs.set i (.failed email)⟩ := by
  have hcounters : (store.compare (LoginGuard.key env email)).counters = store.counters ∧
      (store.compare (LoginGuard.key env email)).now = store.now := by
    unfold GuardStore.compare
    split <;> exact ⟨rfl, rfl⟩
  refine h.replace hp (fun key => .inl ?_) fun key => .inr ?_
  · rw [hcounters.1, hcounters.2]
    exact le_rfl
  · rw [hcounters.1, hcounters.2, uncounted_checked, uncounted_failed]
    unfold GuardStore.compare
    split
    · by_cases hkey : LoginGuard.key env email = key
      · simp [hkey]
        omega
      · simp [hkey, Function.update_of_ne (Ne.symm hkey)]
    · simp

/-- A failure is counted. -/
theorem replace_incr {i : Nat} {email : String} {p' : LoginStage}
    (h : Within settings env ⟨store, procs⟩) (hp : procs[i]? = some (.failed email))
    (hpassed : ∀ key, p'.passed env key = false) (huncounted : ∀ key, p'.uncounted env key = false)
    {compared : String → Nat} (hcompared : ∀ key, compared key = 0 ∨
      compared key = store.compared key) :
    Within settings env ⟨⟨incr store.counters store.now (LoginGuard.key env email), store.now,
      compared⟩, procs.set i p'⟩ := by
  have hcount : ∀ key, count (incr store.counters store.now (LoginGuard.key env email)) store.now
      key = count store.counters store.now key +
        if LoginGuard.key env email = key then 1 else 0 := by
    intro key
    by_cases hkey : LoginGuard.key env email = key
    · subst hkey
      rw [count_incr_self, if_pos rfl]
    · unfold count incr
      rw [get_update_of_ne (Ne.symm hkey), if_neg hkey]
      rfl
  refine h.replace hp (fun key => .inl ?_) fun key => ?_
  · simp [hcount, hpassed]
  · refine (hcompared key).imp (fun hzero => hzero) fun hsame => ?_
    simp [hcount, huncounted, hsame, Nat.add_assoc]

/-- A counter is written for another purpose than to count. -/
theorem replace_write {i : Nat} {p : LoginStage} (key : String) {counters : Counters String}
    {compared : String → Nat} (h : Within settings env ⟨store, procs⟩) (hp : procs[i]? = some p)
    (hother : ∀ other, other ≠ key → count counters store.now other =
      count store.counters store.now other ∧ compared other = store.compared other)
    (hcount : count counters store.now key ≤ count store.counters store.now key)
    (hcompared : compared key = 0 ∨ (compared key = store.compared key ∧
      count counters store.now key = count store.counters store.now key))
    (huncounted : ∀ key, p.uncounted env key = false) :
    Within settings env ⟨⟨counters, store.now, compared⟩, procs.set i .ended⟩ := by
  refine h.replace hp (fun other => .inl ?_) fun other => ?_
  · rw [passed_ended]
    by_cases hkey : other = key
    · subst hkey
      exact hcount.trans (Nat.le_add_right _ _)
    · simp [(hother other hkey).1]
  · by_cases hkey : other = key
    · subst hkey
      refine hcompared.imp (fun hzero => hzero) fun hsame => ?_
      simp [hsame.1, hsame.2, huncounted]
    · refine .inr ?_
      simp [(hother other hkey).1, (hother other hkey).2, huncounted]

theorem step (h : Within settings env s) (turn : LoginTurn)
    (hroom : s.FindsRoom settings env turn) :
    Within settings env (s.step settings env turn) := by
  cases hp : s.procs[turn.proc]? with
  | none =>
      rw [Logins.step, step_of_none hp]
      exact h
  | some p =>
      have hadvanced : Within settings env ⟨s.store.advance turn.input.elapsed, s.procs⟩ :=
        h.advance turn.input.elapsed
      rw [Logins.step, step_of_some hp]
      cases p with
      | requested email password =>
          unfold LoginStage.resume
          dsimp only
          split
          · exact hadvanced.replace_of_store hp (fun _ h => h) fun _ h => h
          · next hpasses =>
              have hcount := LoginGuard.refuses_eq_false_iff.mp (Bool.eq_false_iff.mpr hpasses)
              refine hadvanced.replace hp (fun key => ?_) fun key => .inr le_rfl
              by_cases hkey : LoginGuard.key env email = key
              · subst hkey
                exact .inr (hroom email password hp hcount)
              · exact .inl (by simp [hkey])
      | checked email password =>
          unfold LoginStage.resume
          dsimp only
          split
          · exact hadvanced.replace_of_store hp nofun nofun
          · next user _ =>
              rcases @LoginStage.verify_cases env email password user with h | h | h
              · rw [h]
                exact hadvanced.replace_compare hp
              · rw [h]
                exact hadvanced.replace_of_store hp nofun nofun
              · rw [h]
                exact hadvanced.replace_of_store hp nofun nofun
      | failed email =>
          unfold LoginStage.resume
          dsimp only
          split
          · refine hadvanced.replace_incr hp (fun _ => rfl) (fun _ => rfl) fun key => ?_
            by_cases hkey : key = LoginGuard.key env email
            · subst hkey
              exact .inl (Function.update_self ..)
            · exact .inr (Function.update_of_ne hkey ..)
          · exact hadvanced.replace_incr hp (fun _ => rfl) (fun _ => rfl) fun _ => .inr rfl
      | counted email =>
          have hcount : count (expire (s.store.advance turn.input.elapsed).counters
              (s.store.advance turn.input.elapsed).now (LoginGuard.key env email)
              settings.loginLockoutSeconds) (s.store.advance turn.input.elapsed).now
              (LoginGuard.key env email) = count (s.store.advance turn.input.elapsed).counters
              (s.store.advance turn.input.elapsed).now (LoginGuard.key env email) :=
            count_expire (lt_of_lt_of_le Int.zero_lt_one settings.lockout_pos)
          refine hadvanced.replace_write (LoginGuard.key env email) hp
            (fun other hother => ⟨?_, rfl⟩) hcount.le (.inr ⟨rfl, hcount⟩) fun _ => rfl
          unfold count expire
          rw [get_update_of_ne hother]
      | accepted email =>
          refine hadvanced.replace_write (LoginGuard.key env email) hp
            (fun other hother => ⟨?_, ?_⟩) ?_ ?_ fun _ => rfl
          · unfold count delete
            rw [get_update_of_ne hother]
          · exact Function.update_of_ne hother ..
          · rw [count_delete_self]
            exact Nat.zero_le _
          · exact .inl (Function.update_self ..)
      | ended => exact hadvanced.replace_of_store hp (fun _ h => h) fun _ h => h

end Within

end Logins

/-- The logins that find one account are counted under one key. -/
theorem LoginGuard.key_of_found {env : AuthEnv} {db : AccountDb} {email : String} {u : Account}
    {userId : Id} (h : db.userByEmail env email = .ok (some (u, userId))) :
    LoginGuard.key env email = "login:attempts:" ++ env.sqlLower u.email := by
  have hboth := of_decide_eq_true (scalarOneOrNone_some h).2
  rw [LoginGuard.key_eq, hboth.1]

/-- In the runs in which each login that passes the guard finds room for one more failure, no
more wrong passwords are compared under a counter than the settings allow, and the logins that
find one account have one counter. -/
theorem lockout_bounds_guessing (settings : GuardSettings) (env : AuthEnv) (now : Int)
    (requests : List (String × String)) (turns : List LoginTurn)
    (hroom : Run.EveryStep (Logins.step settings env) (Logins.FindsRoom settings env)
      (Logins.start now requests) turns) :
    Run.Always (Logins.step settings env) (Logins.Bounds settings) (Logins.start now requests)
        turns ∧
      ∀ (db : AccountDb) email u userId, db.userByEmail env email = .ok (some (u, userId)) →
        LoginGuard.key env email = "login:attempts:" ++ env.sqlLower u.email := by
  have hwithin : Run.Always (Logins.step settings env) (Logins.Within settings env)
      (Logins.start now requests) turns :=
    Run.always_of_everyStep (fun s turn hroom h => h.step turn hroom) turns hroom
      (Logins.Within.start settings env now requests)
  exact ⟨hwithin.imp fun _ h => h.bounds, fun _ _ _ _ => LoginGuard.key_of_found⟩

/-- The defaults of the settings. -/
def defaultGuard : GuardSettings where
  loginMaxAttempts := 5
  loginLockoutSeconds := 900
  attempts_pos := by decide
  lockout_pos := by decide

def loginTurn (login : Nat) : LoginTurn := ⟨login, ⟨0, oneAccount⟩⟩

/-- Three attempts in a quarter of an hour. -/
def tightGuard : GuardSettings where
  loginMaxAttempts := 3
  loginLockoutSeconds := 900
  attempts_pos := by decide
  lockout_pos := by decide

def fiveLogins : List (String × String) := List.replicate 5 ("ada@example.com", "Wrong-Horse-7")

/-- The first three logins pass the guard, and count their failures between each other's turns; the
fourth finds them counted, and the fifth comes when the counter is gone. -/
def interleavedTurns : List LoginTurn :=
  [0, 1, 2, 0, 0, 1, 0, 2, 1, 2, 3].map loginTurn ++ [⟨4, ⟨900, oneAccount⟩⟩, loginTurn 4]

theorem interleaved_logins_bounded :
    Run.Always (Logins.step tightGuard plainEnv) (Logins.Bounds tightGuard)
        (Logins.start 0 fiveLogins) interleavedTurns ∧
      (let s := Run.run (Logins.step tightGuard plainEnv) (Logins.start 0 fiveLogins)
        (interleavedTurns.take 11)
      count s.store.counters 0 "login:attempts:ada@example.com" = 3 ∧
        s.store.compared "login:attempts:ada@example.com" = 2 ∧ s.procs[3]? = some .ended) ∧
      (Run.run (Logins.step tightGuard plainEnv) (Logins.start 0 fiveLogins)
        interleavedTurns).procs[4]? = some (.failed "ada@example.com") := by
  refine ⟨(lockout_bounds_guessing tightGuard plainEnv 0 fiveLogins interleavedTurns
    ⟨?_, ?_, ?_, ?_, ?_, ?_, ?_, ?_, ?_, ?_, ?_, ?_, ?_, trivial⟩).1,
    ⟨by decide, by decide, by decide⟩, by decide⟩
  -- The first three find room.
  · intro email password h counted hcounted
    cases h
    decide
  · intro email password h counted hcounted
    cases h
    decide
  · intro email password h counted hcounted
    cases h
    decide
  · intro email password h
    cases h
  · intro email password h
    cases h
  · intro email password h
    cases h
  · intro email password h
    cases h
  · intro email password h
    cases h
  · intro email password h
    cases h
  · intro email password h
    cases h
  -- The guard refuses the fourth.
  · intro email password h counted hcounted
    cases h
    exact absurd hcounted (by decide)
  · intro email password h counted hcounted
    cases h
    decide
  · intro email password h
    cases h

/-- Seven logins pass the guard before the first of them fails. -/
theorem seven_guesses :
    let requests := List.replicate 7 ("ada@example.com", "Wrong-Horse-7")
    let turns := (List.range 7).map loginTurn ++ List.replicate 3 (loginTurn 0) ++
      [1, 2, 3, 4, 5, 6].map loginTurn
    ¬ Run.Always (Logins.step defaultGuard plainEnv) (Logins.Bounds defaultGuard)
      (Logins.start 0 requests) turns := by
  intro requests turns halways
  have hlast := halways.last "login:attempts:ada@example.com"
  revert hlast
  decide

end YoutubeFactory.Auth
