import YoutubeFactory.Workflow.TriggerIsolation
import YoutubeFactory.Lib.Run

/-!
# Polling

`fire_due` is called again and again, with the moment of the poll.  What it writes in
`last_fired_at` is the moment at which the execution has finished, and that may lie in a later
minute than the poll: then the trigger counts as fired in the wrong minute.

The state of the polls remembers their moments, and the firings with the moments of their polls.
-/

namespace YoutubeFactory.Workflow

open Python

section

variable {V : Type}

/-- A call of `fire_due`: its moment, what the handlers do in it, and when each firing has
finished. -/
structure Poll (V : Type) where
  now : Moment
  engine : Engine V
  clock : Id → Moment

/-- The latest polls and firings come first. -/
structure PollState (V : Type) where
  db : TriggerDb V
  polls : List Moment
  firings : List (Id × Moment)

/-- A poll that raises fires nothing. -/
def poll [PyObject V] (env : TriggerEnv V) (s : PollState V) (p : Poll V) : PollState V :=
  match s.db.fireDue { env with engine := p.engine } p.now p.clock with
  | .ok (fired, db) =>
      { db, polls := p.now :: s.polls, firings := (fired.map fun f => (f.1, p.now)) ++ s.firings }
  | .error _ => { s with polls := p.now :: s.polls }

/-- A schedule trigger that is enabled. -/
def WorkflowTrigger.isScheduled (trigger : WorkflowTrigger V) : Bool :=
  trigger.deletedAt = none ∧ trigger.kind = TriggerKind.schedule.value ∧ trigger.isActive = true

namespace TriggerDb

/-- There is an enabled schedule trigger whose cron expression matches the minute. -/
def matchesIn (digits : Digits) (db : TriggerDb V) (id : Id) (minute : Minute) : Bool :=
  db.triggers[id]?.any fun t => t.isScheduled = true ∧ t.matchesAt digits minute = .ok true

/-- By `last_fired_at`, the trigger was fired in the minute. -/
def recordedIn (db : TriggerDb V) (id : Id) (minute : Minute) : Bool :=
  db.triggers[id]?.any fun t => firedIn t minute

end TriggerDb

namespace PollState

variable (s : PollState V)

def PolledIn (minute : Minute) : Prop := ∃ q ∈ s.polls, q.minute = minute

instance (minute : Minute) : Decidable (s.PolledIn minute) :=
  inferInstanceAs (Decidable (∃ q ∈ s.polls, q.minute = minute))

/-- The firings of a trigger in the polls of a minute. -/
def firingsIn (id : Id) (minute : Minute) : Nat :=
  s.firings.countP fun f => f.1 = id ∧ f.2.minute = minute

/-- Every trigger was fired once for each minute that matches and was polled, and for no other. -/
def OncePerMinute (digits : Digits) : Prop :=
  ∀ id minute, s.firingsIn id minute =
    if s.db.matchesIn digits id minute = true ∧ s.PolledIn minute then 1 else 0

/-- The last firing of a trigger was in a poll of the minute. -/
def LastFiredIn (id : Id) (minute : Minute) : Prop :=
  ∃ f, (s.firings.find? fun f => f.1 = id) = some f ∧ f.2.minute = minute

/-- For the triggers that match, `last_fired_at` lies in the minute of the poll if and only if the
poll of the last firing does.  Where the poll raises, they had their firing before. -/
def InStep (digits : Digits) (p : Poll V) : Prop :=
  ∀ id, s.db.matchesIn digits id p.now.minute = true →
    (s.db.Polls digits p.now →
      (s.db.recordedIn id p.now.minute = true ↔ s.LastFiredIn id p.now.minute)) ∧
    (¬ s.db.Polls digits p.now → s.LastFiredIn id p.now.minute)

/-- The firings were in polls, and the latest come first. -/
structure Ordered : Prop where
  polled : ∀ f ∈ s.firings, f.2 ∈ s.polls
  sorted : s.firings.Pairwise fun f g => g.2.minute ≤ f.2.minute

end PollState

/-! ## One poll -/

namespace TriggerDb

variable {digits : Digits} {db db' : TriggerDb V} {clock : Id → Moment} {ids : List Id}

/-- A firing leaves what decides whether a trigger matches. -/
theorem Fired.matchesIn (h : Fired db clock ids db') (id : Id) (minute : Minute) :
    db'.matchesIn digits id minute = db.matchesIn digits id minute := by
  unfold TriggerDb.matchesIn
  rw [h.triggers id]
  cases db.triggers[id]? with
  | none => rfl
  | some t =>
      by_cases hmem : id ∈ ids
      · simp only [Option.map_some, if_pos hmem]
        rfl
      · simp only [Option.map_some, if_neg hmem]

/-- What `fire_due` fires. -/
theorem mem_dueNow_iff {now : Moment} {id : Id} :
    id ∈ (db.dueNow digits now).map Prod.fst ↔
      db.matchesIn digits id now.minute = true ∧ ¬ db.recordedIn id now.minute = true := by
  unfold TriggerDb.matchesIn recordedIn
  rw [List.mem_map]
  constructor
  · rintro ⟨⟨i, t⟩, hmem, rfl⟩
    obtain ⟨hactive, hdue⟩ := List.mem_filter.mp hmem
    obtain ⟨hget, hscheduled⟩ := mem_select.mp hactive
    obtain ⟨hmatches, hfired⟩ := of_decide_eq_true hdue
    simp only [hget, Option.any_some]
    refine ⟨decide_eq_true ⟨hscheduled, hmatches⟩, ?_⟩
    rw [hfired]
    exact Bool.false_ne_true
  · rintro ⟨hmatches, hfired⟩
    cases hget : db.triggers[id]? with
    | none =>
        rw [hget] at hmatches
        cases hmatches
    | some t =>
        rw [hget, Option.any_some] at hmatches hfired
        obtain ⟨hscheduled, hmatches⟩ := of_decide_eq_true hmatches
        have hdue : t.isDue digits now.minute = true :=
          decide_eq_true ⟨hmatches, Bool.eq_false_iff.mpr hfired⟩
        exact ⟨(id, t), List.mem_filter.mpr ⟨mem_select.mpr ⟨hget, hscheduled⟩, hdue⟩, rfl⟩

theorem nodup_dueNow (digits : Digits) (db : TriggerDb V) (now : Moment) :
    ((db.dueNow digits now).map Prod.fst).Nodup :=
  (nodup_select _).sublist (List.filter_sublist.map _)

end TriggerDb

namespace PollState

section

variable {s : PollState V}

/-- The latest of some entries is the one that is found. -/
theorem find?_latest {entries : List (Id × Moment)} {id : Id} {f : Id × Moment}
    (hsorted : entries.Pairwise fun f g => g.2.minute ≤ f.2.minute) (hmem : f ∈ entries)
    (hid : f.1 = id) :
    ∃ g, (entries.find? fun f => f.1 = id) = some g ∧ g ∈ entries ∧
      f.2.minute ≤ g.2.minute := by
  induction entries with
  | nil => exact absurd hmem List.not_mem_nil
  | cons e entries ih =>
      obtain ⟨hfirst, hrest⟩ := List.pairwise_cons.mp hsorted
      by_cases he : e.1 = id
      · refine ⟨e, List.find?_cons_of_pos (by simp [he]), List.mem_cons_self, ?_⟩
        rcases List.mem_cons.mp hmem with rfl | hlater
        · exact le_rfl
        · exact hfirst f hlater
      · have hlater : f ∈ entries := by
          rcases List.mem_cons.mp hmem with rfl | hlater
          · exact absurd hid he
          · exact hlater
        obtain ⟨g, hfound, hg, hle⟩ := ih hrest hlater
        refine ⟨g, ?_, List.mem_cons_of_mem e hg, hle⟩
        rw [List.find?_cons_of_neg (by simp [he])]
        exact hfound

/-- The firings of one poll. -/
theorem countP_firings {ids : List Id} (hnodup : ids.Nodup) (now : Moment) (id : Id)
    (minute : Minute) :
    ((ids.map (·, now)).countP fun f => f.1 = id ∧ f.2.minute = minute) =
      if now.minute = minute ∧ id ∈ ids then 1 else 0 := by
  rw [List.countP_map]
  by_cases hminute : now.minute = minute
  · have hcount : (ids.countP fun i => i = id) = if id ∈ ids then 1 else 0 := by
      rw [← hnodup.count, List.count_eq_countP]
      rfl
    simpa [Function.comp_def, hminute] using hcount
  · simp [Function.comp_def, hminute]

theorem firingsIn_pos_iff {id : Id} {minute : Minute} :
    0 < s.firingsIn id minute ↔ ∃ f ∈ s.firings, f.1 = id ∧ f.2.minute = minute := by
  unfold firingsIn
  rw [List.countP_pos_iff]
  exact exists_congr fun f => and_congr_right fun _ => decide_eq_true_iff

/-- As the polls go forward in time, a firing in the minute of the next poll is the last. -/
theorem lastFiredIn_iff {now : Moment} {id : Id} (h : s.Ordered) (hnow : ∀ q ∈ s.polls, q ≤ now) :
    s.LastFiredIn id now.minute ↔ 0 < s.firingsIn id now.minute := by
  rw [firingsIn_pos_iff]
  constructor
  · rintro ⟨f, hfound, hminute⟩
    have hid : decide (f.1 = id) = true :=
      @List.find?_some _ (fun f : Id × Moment => decide (f.1 = id)) _ _ hfound
    exact ⟨f, List.mem_of_find?_eq_some hfound, of_decide_eq_true hid, hminute⟩
  · rintro ⟨f, hmem, hid, hminute⟩
    obtain ⟨g, hfound, hg, hle⟩ := find?_latest h.sorted hmem hid
    have hbefore : g.2.minute ≤ now.minute := Moment.minute_le (hnow _ (h.polled g hg))
    exact ⟨g, hfound, le_antisymm hbefore (hminute ▸ hle)⟩

/-- Where all was fired once so far, the last firing of a trigger that matches was in this
minute if the minute was polled. -/
theorem lastFiredIn_iff_polledIn {digits : Digits} {now : Moment} {id : Id} (h : s.Ordered)
    (hnow : ∀ q ∈ s.polls, q ≤ now) (honce : s.OncePerMinute digits)
    (hmatches : s.db.matchesIn digits id now.minute = true) :
    s.LastFiredIn id now.minute ↔ s.PolledIn now.minute := by
  rw [lastFiredIn_iff h hnow, honce id now.minute]
  by_cases hpolled : s.PolledIn now.minute
  · simp [hmatches, hpolled]
  · simp [hpolled]

end

variable [PyObject V] {env : TriggerEnv V} {s : PollState V}

/-- A poll fires all that is due, or raises. -/
theorem poll_cases (env : TriggerEnv V) (s : PollState V) (p : Poll V) :
    (poll env s p).polls = p.now :: s.polls ∧
    (∀ id minute, (poll env s p).db.matchesIn env.digits id minute =
      s.db.matchesIn env.digits id minute) ∧
    (s.db.Polls env.digits p.now ∧ (poll env s p).firings =
        ((s.db.dueNow env.digits p.now).map Prod.fst).map (·, p.now) ++ s.firings ∨
      ¬ s.db.Polls env.digits p.now ∧ (poll env s p).firings = s.firings) := by
  unfold poll
  rcases s.db.fireDue_spec { env with engine := p.engine } p.now p.clock with
    ⟨hpolls, fired, db', heq, hids, hfired⟩ | ⟨hpolls, e, heq⟩
  · rw [heq]
    refine ⟨rfl, fun id minute => hfired.matchesIn id minute, .inl ⟨hpolls, ?_⟩⟩
    dsimp only
    rw [← hids, List.map_map]
    rfl
  · rw [heq]
    exact ⟨rfl, fun _ _ => rfl, .inr ⟨hpolls, rfl⟩⟩

theorem Ordered.poll {p : Poll V} (h : s.Ordered) (hnow : ∀ q ∈ s.polls, q ≤ p.now) :
    (poll env s p).Ordered := by
  obtain ⟨hpolls, -, hcases⟩ := poll_cases env s p
  constructor
  · intro f hf
    rw [hpolls]
    rcases hcases with ⟨-, hfirings⟩ | ⟨-, hfirings⟩
    · rw [hfirings, List.mem_append, List.mem_map] at hf
      rcases hf with ⟨id, -, rfl⟩ | hf
      · exact List.mem_cons_self
      · exact List.mem_cons_of_mem _ (h.polled f hf)
    · rw [hfirings] at hf
      exact List.mem_cons_of_mem _ (h.polled f hf)
  · rcases hcases with ⟨-, hfirings⟩ | ⟨-, hfirings⟩
    · rw [hfirings, List.pairwise_append, List.pairwise_map]
      refine ⟨List.pairwise_of_forall fun _ _ => le_rfl, h.sorted, fun f hf g hg => ?_⟩
      obtain ⟨id, -, rfl⟩ := List.mem_map.mp hf
      exact Moment.minute_le (hnow _ (h.polled g hg))
    · rw [hfirings]
      exact h.sorted

/-- The minutes that were polled after a poll. -/
theorem polledIn_poll (p : Poll V) (minute : Minute) :
    (poll env s p).PolledIn minute ↔ p.now.minute = minute ∨ s.PolledIn minute := by
  unfold PolledIn
  rw [(poll_cases env s p).1]
  simp only [List.mem_cons, exists_eq_or_imp]

/-- The firings after a poll that does not raise. -/
theorem firingsIn_poll {p : Poll V} (hfirings : (poll env s p).firings =
      ((s.db.dueNow env.digits p.now).map Prod.fst).map (·, p.now) ++ s.firings)
    (id : Id) (minute : Minute) :
    (poll env s p).firingsIn id minute =
      (if p.now.minute = minute ∧ s.db.matchesIn env.digits id p.now.minute = true ∧
        ¬ s.db.recordedIn id p.now.minute = true then 1 else 0) + s.firingsIn id minute := by
  unfold firingsIn
  rw [hfirings, List.countP_append,
    countP_firings (TriggerDb.nodup_dueNow env.digits s.db p.now)]
  simp only [TriggerDb.mem_dueNow_iff]

/-- Only the minute of the poll is in question. -/
theorem oncePerMinute_poll_iff {p : Poll V} (honce : s.OncePerMinute env.digits) :
    (poll env s p).OncePerMinute env.digits ↔
      ∀ id, (poll env s p).firingsIn id p.now.minute =
        if s.db.matchesIn env.digits id p.now.minute = true then 1 else 0 := by
  obtain ⟨-, hmatches, hcases⟩ := poll_cases env s p
  constructor
  · intro h id
    rw [h id p.now.minute, hmatches]
    simp only [polledIn_poll, true_or, and_true]
  · intro h id minute
    by_cases hminute : p.now.minute = minute
    · subst hminute
      rw [h id, hmatches]
      simp only [polledIn_poll, true_or, and_true]
    · have hsame : (poll env s p).firingsIn id minute = s.firingsIn id minute := by
        rcases hcases with ⟨-, hfirings⟩ | ⟨-, hfirings⟩
        · rw [firingsIn_poll hfirings, if_neg fun h => hminute h.1, Nat.zero_add]
        · unfold firingsIn
          rw [hfirings]
      rw [hsame, honce id minute, hmatches]
      simp only [polledIn_poll, hminute, false_or]

/-- A poll keeps the property if it is in step. -/
theorem oncePerMinute_poll_iff_inStep {p : Poll V} (h : s.Ordered)
    (hnow : ∀ q ∈ s.polls, q ≤ p.now) (honce : s.OncePerMinute env.digits) :
    (poll env s p).OncePerMinute env.digits ↔ s.InStep env.digits p := by
  rw [oncePerMinute_poll_iff honce]
  refine forall_congr' fun id => ?_
  have hbefore := honce id p.now.minute
  by_cases hmatches : s.db.matchesIn env.digits id p.now.minute = true
  · have hlast := lastFiredIn_iff_polledIn h hnow honce hmatches
    obtain ⟨-, -, ⟨hpolls, hfirings⟩ | ⟨hpolls, hfirings⟩⟩ := poll_cases env s p
    · rw [firingsIn_poll hfirings, hbefore, hlast]
      by_cases hrecorded : s.db.recordedIn id p.now.minute = true
      · by_cases hpolled : s.PolledIn p.now.minute <;> simp [hmatches, hpolls, hrecorded, hpolled]
      · by_cases hpolled : s.PolledIn p.now.minute <;> simp [hmatches, hpolls, hrecorded, hpolled]
    · have hsame : (poll env s p).firingsIn id p.now.minute = s.firingsIn id p.now.minute := by
        unfold firingsIn
        rw [hfirings]
      rw [hsame, hbefore, hlast]
      by_cases hpolled : s.PolledIn p.now.minute <;> simp [hmatches, hpolls, hpolled]
  · refine iff_of_true ?_ fun hyes => absurd hyes hmatches
    have hnone : s.firingsIn id p.now.minute = 0 := by rw [hbefore, if_neg fun h => hmatches h.1]
    rw [if_neg hmatches]
    obtain ⟨-, -, ⟨-, hfirings⟩ | ⟨-, hfirings⟩⟩ := poll_cases env s p
    · rw [firingsIn_poll hfirings, if_neg fun h => hmatches h.2.1, hnone]
    · unfold firingsIn at hnone ⊢
      rw [hfirings, hnone]

end PollState

/-! ## Runs -/

/-- Polls whose moments do not go back. -/
def Forward (polls : List (Poll V)) : Prop := (polls.map Poll.now).Pairwise (· ≤ ·)

instance (polls : List (Poll V)) : Decidable (Forward polls) :=
  inferInstanceAs (Decidable ((polls.map Poll.now).Pairwise (· ≤ ·)))

variable [PyObject V]

/-- Polls that go forward in time fire every trigger once for each minute that matches and was
polled, all along the run, if and only if every poll is in step. -/
theorem once_per_minute_iff (env : TriggerEnv V) (db : TriggerDb V) (polls : List (Poll V))
    (hforward : Forward polls) :
    Run.Always (poll env) (PollState.OncePerMinute · env.digits) ⟨db, [], []⟩ polls ↔
      Run.EveryStep (poll env) (PollState.InStep · env.digits) ⟨db, [], []⟩ polls := by
  have hside : Run.EveryStep (poll env) (fun s p => ∀ q ∈ s.polls, q ≤ p.now) ⟨db, [], []⟩ polls :=
    Run.everyStep_of_pairwise (fun s p q hq => by
      rw [(PollState.poll_cases env s p).1] at hq
      exact List.mem_cons.mp hq) hforward fun q hq => absurd hq List.not_mem_nil
  have hordered : ∀ (s : PollState V) p, (∀ q ∈ s.polls, q ≤ p.now) → s.Ordered →
      (poll env s p).Ordered := fun s p hnow hordered => hordered.poll hnow
  have honce : PollState.OncePerMinute (⟨db, [], []⟩ : PollState V) env.digits := by
    intro id minute
    rw [if_neg fun h => h.2.elim fun q hq => absurd hq.1 List.not_mem_nil]
    rfl
  exact Run.always_iff_everyStep hordered
    (fun s p hnow hordered honce => PollState.oncePerMinute_poll_iff_inStep hordered hnow honce)
    polls hside ⟨fun f hf => absurd hf List.not_mem_nil, List.Pairwise.nil⟩ honce

end

/-! ## Polls on one trigger -/

/-- One trigger for every minute. -/
def everyMinute : Except TriggerError (TriggerDb (Value Empty)) := do
  let (_, db) ← twoWorkflows.create 0 "schedule" (some "* * * * *") none ∅
  pure db

/-- A poll some seconds after 9:45, whose firings take some seconds. -/
def pollAt (seconds duration : Nat) : Poll (Value Empty) where
  now := clockAt seconds
  engine := failingEngine fun _ _ => false
  clock _ := clockAt (seconds + duration)
where
  clockAt (seconds : Nat) : Moment := ⟨⟨2025, 3, 3, 9, 45 + seconds / 60⟩, seconds % 60, 0⟩

/-- With firings that end in the minute of their polls, two polls in one minute fire once, and a
poll in the next minute fires again. -/
theorem minutes_fired_once : ∃ db, everyMinute = .ok db ∧
    Run.Always (poll plainTriggerEnv) (PollState.OncePerMinute · asciiDigits) ⟨db, [], []⟩
      [pollAt 0 10, pollAt 30 1, pollAt 60 5] := by
  have hpolls : ∀ (last : Option Moment) executions now,
      TriggerDb.Polls asciiDigits
        ⟨twoWorkflows.workflows,
          [⟨0, "schedule", true, some "* * * * *", none, last, ∅, none⟩], executions⟩ now := by
    intro last executions now
    refine ⟨List.forall_mem_singleton.mpr ⟨true, rfl⟩, fun t ht => ?_⟩
    obtain rfl := List.mem_singleton.mp (List.mem_filter.mp ht).1
    exact ⟨_, rfl, rfl⟩
  refine ⟨_, rfl, (once_per_minute_iff plainTriggerEnv _ _ (by decide)).mpr
    ⟨?_, ?_, ?_, trivial⟩⟩
  all_goals
    intro id hmatches
    obtain rfl : id = 0 := by
      cases id with
      | zero => rfl
      | succ id => cases hmatches
    refine ⟨fun _ => ?_, fun hnot => absurd (hpolls _ _ _) hnot⟩
  · refine iff_of_false (by decide) fun ⟨f, hf, _⟩ => ?_
    cases hf
  · exact iff_of_true (by decide) ⟨_, rfl, rfl⟩
  · refine iff_of_false (by decide) fun ⟨f, hf, hminute⟩ => ?_
    cases hf
    revert hminute
    decide

/-- The poll at 9:45:50 finishes at 9:46:05, and the one at 9:46:30 fires nothing. -/
theorem minute_skipped : ∃ db, everyMinute = .ok db ∧
    Forward [pollAt 50 15, pollAt 90 1] ∧
      ¬ Run.Always (poll plainTriggerEnv) (PollState.OncePerMinute · asciiDigits) ⟨db, [], []⟩
        [pollAt 50 15, pollAt 90 1] := by
  refine ⟨_, rfl, by decide, fun h => ?_⟩
  have hcount := h.last 0 ⟨2025, 3, 3, 9, 46⟩
  revert hcount
  decide

end YoutubeFactory.Workflow
