import YoutubeFactory.AgentWorkflow.Failure

/-!
# Each step once, in order

Steps that need no approval, have no loop and succeed at their first attempt.  A run that returns
has called each of them once if the groups stand together and every step has an attempt.
Otherwise it has not called one of them at all: the index has gone by it
(`left_behind_of_not_contiguous`), or there is no attempt (`turn_of_no_attempt`).
-/

namespace YoutubeFactory.AgentWorkflow

section

variable {Value : Type} {steps : List (WorkflowStep Value)} {approvals : List String}
  {run : WorkflowRun Value}

/-! ## The law -/

/-- The first member of a group, and with it the group. -/
def FirstOfGroup (steps : List (WorkflowStep Value)) (i : Nat) : Prop :=
  (label steps i).isSome = true ∧ ∀ j < i, ¬ SameGroup steps j i

/-- When a group has started, the steps before its first member have finished. -/
def Ordered (steps : List (WorkflowStep Value)) (run : WorkflowRun Value) : Prop :=
  ∀ i k, FirstOfGroup steps i → SameGroup steps i k → (run.members k).stage ≠ .idle →
    ∀ j < i, (run.members j).stage = .ended

structure OnceInOrder (steps : List (WorkflowStep Value)) (approvals : List String)
    (run : WorkflowRun Value) (turns : List (Turn Value)) : Prop where
  once : ∀ i < steps.length,
    ((Run.run (Turn.step steps approvals) run turns).members i).invocations = 1
  ordered : Run.Always (Turn.step steps approvals) (Ordered steps) run turns
  succeeded : ∀ i < steps.length,
    ((Run.run (Turn.step steps approvals) run turns).members i).status = .succeeded
  completed : (Run.run (Turn.step steps approvals) run turns).outcome = some (.returned true)

/-! ## What is given -/

/-- No approval and no loop. -/
def Plain (steps : List (WorkflowStep Value)) : Prop :=
  ∀ step ∈ steps, step.requiresApproval = false ∧ step.loopUntil = none

instance (steps : List (WorkflowStep Value)) : Decidable (Plain steps) :=
  inferInstanceAs (Decidable (∀ step ∈ steps, _))

def Reaction.succeeds : Reaction Value → Bool
  | .waits _ | .returns .. => true
  | .raises .. | .exits _ => false

/-- The condition of a step holds when it is asked, and its action does not raise. -/
def SucceedsAtOnce (steps : List (WorkflowStep Value)) (run : WorkflowRun Value) :
    Turn Value → Prop
  | .member i reaction => ∀ step ∈ steps[i]?,
      ((run.members i).stage = .created →
        step.condition.elim (.ok true) (· run.ctx) = .ok true) ∧
      (∀ attempt loop, (run.members i).stage = .acting attempt loop → reaction.succeeds = true)
  | .resume => True

/-- Every step has an attempt. -/
def HasAttempts (steps : List (WorkflowStep Value)) : Prop := ∀ step ∈ steps, 0 ≤ step.retries

instance (steps : List (WorkflowStep Value)) : Decidable (HasAttempts steps) :=
  inferInstanceAs (Decidable (∀ step ∈ steps, _))

/-! ## Groups that stand together -/

/-- A member that is on its way to success. -/
def Member.OnTrack (m : Member Value) : Prop :=
  match m.stage with
  | .created | .delayed => m.invocations = 0
  | .acting .. => m.invocations = 1
  | .ended => m.status = .succeeded ∧ m.invocations = 1
  | .idle | .raised _ => False

theorem onTrack_attempts {step : WorkflowStep Value} {ctx : StepContext Value} {m : Member Value}
    (hloop : step.loopUntil = none) (hretries : 0 ≤ step.retries) (hzero : m.invocations = 0) :
    (step.attempts ctx m).1.OnTrack := by
  unfold WorkflowStep.attempts WorkflowStep.invoke
  rw [if_neg (by omega), hloop, if_neg (by simp)]
  exact congrArg (· + 1) hzero

theorem onTrack_turn {step : WorkflowStep Value} {reaction : Reaction Value}
    {ctx : StepContext Value} {m : Member Value} (hplain : step.requiresApproval = false)
    (hloop : step.loopUntil = none) (hretries : 0 ≤ step.retries)
    (hcondition : m.stage = .created → step.condition.elim (.ok true) (· ctx) = .ok true)
    (hreaction : ∀ attempt loop, m.stage = .acting attempt loop → reaction.succeeds = true)
    (h : m.OnTrack) : (step.turn approvals reaction ctx m).1.OnTrack := by
  unfold WorkflowStep.turn
  cases hstage : m.stage with
  | created =>
      have hzero : m.invocations = 0 := by
        rw [Member.OnTrack, hstage] at h
        exact h
      dsimp only
      rw [WorkflowStep.enter, hcondition hstage]
      dsimp only
      unfold WorkflowStep.gate
      rw [hplain, if_neg (by simp)]
      split
      · exact hzero
      · exact onTrack_attempts hloop hretries hzero
  | delayed =>
      have hzero : m.invocations = 0 := by
        rw [Member.OnTrack, hstage] at h
        exact h
      exact onTrack_attempts hloop hretries hzero
  | acting attempt loop =>
      have hone : m.invocations = 1 := by
        rw [Member.OnTrack, hstage] at h
        exact h
      dsimp only
      cases reaction with
      | waits ctx' => exact h
      | returns ctx' value =>
          rw [WorkflowStep.react, WorkflowStep.returned, hloop]
          exact ⟨rfl, hone⟩
      | raises ctx' message => cases hreaction attempt loop hstage
      | exits ctx' => cases hreaction attempt loop hstage
  | ended => exact h
  | idle =>
      rw [Member.OnTrack, hstage] at h
      exact h.elim
  | raised error =>
      rw [Member.OnTrack, hstage] at h
      exact h.elim

/-- The steps before `lo` have succeeded, those from there to `hi` are on their way, and the others
have not been looked at. -/
structure Progress (steps : List (WorkflowStep Value)) (lo hi : Nat) (run : WorkflowRun Value) :
    Prop where
  boundary : Boundary steps lo
  before : ∀ i < lo, (run.members i).stage = .ended ∧ (run.members i).status = .succeeded ∧
    (run.members i).invocations = 1
  inside : ∀ i, lo ≤ i → i < hi → (run.members i).OnTrack
  after : ∀ i, hi ≤ i → (run.members i).stage = .idle ∧ (run.members i).invocations = 0
  loop : run.outcome = none ∧ lo < steps.length ∧ run.index = lo ∧
      run.batch = batchAt steps lo ∧ hi = next steps lo ∨
    run.outcome = some (.returned true) ∧ lo = steps.length ∧ hi = lo

theorem Progress.ordered (hcontiguous : Contiguous steps) {lo hi : Nat}
    (h : Progress steps lo hi run) : Ordered steps run := by
  rintro i k ⟨-, hfirst⟩ hgroup hstarted j hj
  have hk : k < hi := by
    refine Nat.lt_of_not_le fun hle => ?_
    exact hstarted (h.after k hle).1
  have hik : i ≤ k := by
    refine Nat.le_of_not_lt fun hlt => ?_
    exact hfirst k hlt hgroup.symm
  have hi : i ≤ lo := by
    refine Nat.le_of_not_lt fun hlt => ?_
    rcases h.loop with ⟨-, -, -, -, hnext⟩ | ⟨-, -, hsame⟩
    · rcases mem_batchAt.mp ((segment_of_contiguous hcontiguous lo i).mpr ⟨hlt.le, by omega⟩) with
        rfl | ⟨-, hstart⟩
      · exact Nat.lt_irrefl _ hlt
      · exact hfirst lo hlt hstart
    · omega
  exact (h.before j (Nat.lt_of_lt_of_le hj hi)).1

theorem progress_begin (hcontiguous : Contiguous steps) {lo : Nat} (hlo : lo ≤ steps.length)
    (hboundary : Boundary steps lo) (hnone : run.outcome = none)
    (hbefore : ∀ i < lo, (run.members i).stage = .ended ∧ (run.members i).status = .succeeded ∧
      (run.members i).invocations = 1)
    (hafter : ∀ i, lo ≤ i → (run.members i).stage = .idle ∧ (run.members i).invocations = 0) :
    ∃ lo' hi, Progress steps lo' hi (run.begin steps lo) := by
  have hsegment := segment_of_contiguous hcontiguous lo
  by_cases hlt : lo < steps.length
  · refine ⟨lo, next steps lo, hboundary, fun i hi => ?_, fun i hi hi' => ?_, fun i hi => ?_, ?_⟩
    · rw [begin_members hlt, if_neg fun hmem => Nat.not_lt.mpr (le_of_mem_batchAt hmem) hi]
      exact hbefore i hi
    · rw [begin_members hlt, if_pos ((hsegment i).mpr ⟨hi, hi'⟩)]
      exact (hafter i hi).2
    · rw [begin_members hlt, if_neg fun hmem => Nat.not_lt.mpr hi ((hsegment i).mp hmem).2]
      exact hafter i ((lt_next steps lo).le.trans hi)
    · unfold WorkflowRun.begin
      rw [if_pos hlt]
      exact .inl ⟨hnone, hlt, rfl, rfl, rfl⟩
  · obtain rfl : lo = steps.length := by omega
    unfold WorkflowRun.begin
    rw [if_neg hlt]
    have hcompleted : completed steps run.members = true := by
      refine List.all_eq_true.mpr fun i hi => decide_eq_true (.inl ?_)
      exact (hbefore i (List.mem_range.mp hi)).2.1
    refine ⟨steps.length, steps.length, hboundary, hbefore, ?_, hafter, .inr ⟨?_, rfl, rfl⟩⟩
    · exact fun i hi hi' => absurd hi' (Nat.not_lt.mpr hi)
    · exact congrArg (fun c => some (Outcome.returned c)) hcompleted

/-- A member that is on its way goes on, and raises nothing. -/
theorem memberTurn_of_onTrack (hplain : Plain steps) (hattempts : HasAttempts steps) {i : Nat}
    {reaction : Reaction Value} (hsucceeds : SucceedsAtOnce steps run (.member i reaction))
    (h : (run.members i).OnTrack) :
    ((run.memberTurn steps approvals i reaction).members i).OnTrack ∧
      (run.memberTurn steps approvals i reaction).outcome = run.outcome := by
  unfold WorkflowRun.memberTurn
  cases hstep : steps[i]? with
  | none => exact ⟨h, rfl⟩
  | some step =>
      have hmem : step ∈ steps := List.mem_of_getElem? hstep
      obtain ⟨hcondition, hreaction⟩ := hsucceeds step hstep
      have htrack := @onTrack_turn _ approvals step reaction run.ctx (run.members i)
        (hplain step hmem).1 (hplain step hmem).2 (hattempts step hmem) hcondition hreaction h
      dsimp only
      rw [Function.update_self]
      refine ⟨htrack, ?_⟩
      unfold WorkflowRun.raisedBy
      split
      · next error hstage =>
          rw [Member.OnTrack, hstage] at htrack
          exact htrack.elim
      · rfl

/-- A member at rest raises nothing. -/
theorem memberTurn_of_resting {i : Nat} {reaction : Reaction Value}
    (h : (run.members i).stage = .ended ∨ (run.members i).stage = .idle) :
    (run.memberTurn steps approvals i reaction).outcome = run.outcome := by
  unfold WorkflowRun.memberTurn
  cases hstep : steps[i]? with
  | none => rfl
  | some step =>
      dsimp only
      rw [turn_of_resting h]
      rcases h with h | h <;> rw [h] <;> rfl

theorem Progress.memberTurn (hplain : Plain steps) (hattempts : HasAttempts steps) {lo hi i : Nat}
    (h : Progress steps lo hi run) {reaction : Reaction Value}
    (hsucceeds : SucceedsAtOnce steps run (.member i reaction)) :
    Progress steps lo hi (run.memberTurn steps approvals i reaction) := by
  obtain ⟨hindex, hbatch, -⟩ := @memberTurn_loop _ steps approvals run i reaction
  have hwhere : ((run.members i).stage = .ended ∨ (run.members i).stage = .idle) ∨
      (run.members i).OnTrack := by
    rcases Nat.lt_or_ge i lo with hlt | hlo
    · exact .inl (.inl (h.before i hlt).1)
    · rcases Nat.lt_or_ge i hi with hlt | hhi
      · exact .inr (h.inside i hlo hlt)
      · exact .inl (.inr (h.after i hhi).1)
  have houtcome : (run.memberTurn steps approvals i reaction).outcome = run.outcome := by
    rcases hwhere with hresting | htrack
    · exact memberTurn_of_resting hresting
    · exact (memberTurn_of_onTrack hplain hattempts hsucceeds htrack).2
  refine ⟨h.boundary, fun j hj => ?_, fun j hj hj' => ?_, fun j hj => ?_, ?_⟩
  · rw [memberTurn_members (.inr (.inl (h.before j hj).1))]
    exact h.before j hj
  · by_cases hij : j = i
    · subst hij
      exact (memberTurn_of_onTrack hplain hattempts hsucceeds (h.inside j hj hj')).1
    · rw [memberTurn_members (.inl hij)]
      exact h.inside j hj hj'
  · rw [memberTurn_members (.inr (.inr (h.after j hj).1))]
    exact h.after j hj
  · rw [houtcome, hindex, hbatch]
    exact h.loop

theorem Progress.resume (hcontiguous : Contiguous steps) {lo hi : Nat}
    (h : Progress steps lo hi run) : ∃ lo hi, Progress steps lo hi (run.resume steps) := by
  unfold WorkflowRun.resume
  split
  · next hready =>
      obtain ⟨hnone, hended⟩ := hready
      rcases h.loop with ⟨-, hlt, rfl, hbatch, rfl⟩ | ⟨hreturned, -, -⟩
      · have hsegment := segment_of_contiguous hcontiguous run.index
        have hdone : ∀ i, run.index ≤ i → i < next steps run.index →
            (run.members i).stage = .ended ∧ (run.members i).status = .succeeded ∧
              (run.members i).invocations = 1 := by
          intro i hi hi'
          have hstage := hended i (by rw [hbatch]; exact (hsegment i).mpr ⟨hi, hi'⟩)
          have htrack := h.inside i hi hi'
          rw [Member.OnTrack, hstage] at htrack
          exact ⟨hstage, htrack⟩
        have hnext := lt_next steps run.index
        have hlast := (hdone (next steps run.index - 1) (by omega) (by omega)).2.1
        rw [hbatch]
        dsimp only
        rw [if_neg (by unfold next at hlast; rw [hlast]; exact nofun)]
        refine progress_begin hcontiguous (next_le_length hlt) (h.boundary.next hsegment) hnone
          (fun i hi => ?_) h.after
        rcases Nat.lt_or_ge i run.index with hbefore | hge
        · exact h.before i hbefore
        · exact hdone i hge hi
      · rw [hnone] at hreturned
        cases hreturned
  · exact ⟨lo, hi, h⟩

/-! ## Steps that are not called -/

/-- The step is at rest, and the loop has only batches without it to come. -/
structure LeftBehind (steps : List (WorkflowStep Value)) (b : Nat) (run : WorkflowRun Value) :
    Prop where
  idle : (run.members b).stage = .idle
  never : (run.members b).invocations = 0
  loop : run.outcome = none → ∃ n, run.index = indexAfter steps n ∧
    run.batch = batchAt steps run.index

theorem leftBehind_begin {b n : Nat} (hb : ∀ n, b ∉ batchAt steps (indexAfter steps n))
    (hidle : (run.members b).stage = .idle) (hnever : (run.members b).invocations = 0) :
    LeftBehind steps b (run.begin steps (indexAfter steps n)) := by
  by_cases hlt : indexAfter steps n < steps.length
  · refine ⟨?_, ?_, fun _ => ⟨n, ?_⟩⟩
    · rw [begin_members hlt, if_neg (hb n)]
      exact hidle
    · rw [begin_members hlt, if_neg (hb n)]
      exact hnever
    · unfold WorkflowRun.begin
      rw [if_pos hlt]
      exact ⟨rfl, rfl⟩
  · unfold WorkflowRun.begin
    rw [if_neg hlt]
    exact ⟨hidle, hnever, nofun⟩

theorem LeftBehind.step {b : Nat} (hb : ∀ n, b ∉ batchAt steps (indexAfter steps n))
    (h : LeftBehind steps b run) (turn : Turn Value) :
    LeftBehind steps b (Turn.step steps approvals run turn) := by
  cases turn with
  | member i reaction =>
      obtain ⟨hindex, hbatch, houtcome⟩ := @memberTurn_loop _ steps approvals run i reaction
      have hsame : (run.memberTurn steps approvals i reaction).members b = run.members b :=
        memberTurn_members (.inr (.inr h.idle))
      refine ⟨?_, ?_, fun hnone => ?_⟩
      · exact (congrArg Member.stage hsame).trans h.idle
      · exact (congrArg Member.invocations hsame).trans h.never
      · obtain ⟨n, hn⟩ := h.loop (houtcome hnone)
        refine ⟨n, ?_⟩
        rw [Turn.step, hindex, hbatch]
        exact hn
  | resume =>
      rw [Turn.step, WorkflowRun.resume]
      split
      · next hready =>
          obtain ⟨n, hindex, hbatch⟩ := h.loop hready.1
          dsimp only
          split
          · exact ⟨h.idle, h.never, nofun⟩
          · have hnext : run.index + run.batch.length = indexAfter steps (n + 1) := by
              rw [indexAfter_succ, hbatch, hindex]
              rfl
            rw [hnext]
            exact leftBehind_begin hb h.idle h.never
      · exact h

/-- A step without an attempt is not called. -/
def NotCalled (i : Nat) (run : WorkflowRun Value) : Prop :=
  (∀ attempt loop, (run.members i).stage ≠ .acting attempt loop) ∧
    (run.members i).invocations = 0

theorem turn_of_no_attempt {step : WorkflowStep Value} {reaction : Reaction Value}
    {ctx : StepContext Value} {m : Member Value} (hretries : step.retries < 0)
    (hstage : ∀ attempt loop, m.stage ≠ .acting attempt loop) (hnever : m.invocations = 0) :
    (∀ attempt loop, (step.turn approvals reaction ctx m).1.stage ≠ .acting attempt loop) ∧
      (step.turn approvals reaction ctx m).1.invocations = 0 := by
  have hattempts : ∀ m : Member Value, m.invocations = 0 →
      (∀ attempt loop, (step.attempts ctx m).1.stage ≠ .acting attempt loop) ∧
        (step.attempts ctx m).1.invocations = 0 := by
    intro m hnever
    unfold WorkflowStep.attempts
    rw [if_pos (by omega)]
    exact ⟨nofun, hnever⟩
  unfold WorkflowStep.turn
  cases h : m.stage with
  | created =>
      dsimp only
      unfold WorkflowStep.enter
      split
      · exact ⟨nofun, hnever⟩
      · exact ⟨nofun, hnever⟩
      · unfold WorkflowStep.gate
        split
        · exact ⟨nofun, hnever⟩
        · split
          · exact ⟨nofun, hnever⟩
          · exact hattempts m hnever
  | delayed => exact hattempts m hnever
  | acting attempt loop => exact absurd h (hstage attempt loop)
  | idle | ended | raised => exact ⟨hstage, hnever⟩

/-- At the foot of the loop a step is left as it is, or handed to `_run_step`. -/
theorem resume_members (steps : List (WorkflowStep Value)) (run : WorkflowRun Value) (i : Nat) :
    (run.resume steps).members i = run.members i ∨
      (run.resume steps).members i = { run.members i with stage := .created } := by
  unfold WorkflowRun.resume
  split
  · dsimp only
    split
    · exact .inl rfl
    · by_cases hlt : run.index + run.batch.length < steps.length
      · rw [begin_members hlt]
        split
        · exact .inr rfl
        · exact .inl rfl
      · unfold WorkflowRun.begin
        rw [if_neg hlt]
        exact .inl rfl
  · exact .inl rfl

theorem NotCalled.step {i : Nat} {step : WorkflowStep Value} (hstep : steps[i]? = some step)
    (hretries : step.retries < 0) (h : NotCalled i run) (turn : Turn Value) :
    NotCalled i (Turn.step steps approvals run turn) := by
  unfold NotCalled
  cases turn with
  | member j reaction =>
      by_cases hij : i = j
      · subst hij
        rw [Turn.step, WorkflowRun.memberTurn, hstep]
        dsimp only
        rw [Function.update_self]
        exact turn_of_no_attempt hretries h.1 h.2
      · rw [Turn.step, memberTurn_members (.inl hij)]
        exact h
  | resume =>
      rw [Turn.step]
      rcases resume_members steps run i with hsame | hcreated
      · rw [hsame]
        exact h
      · rw [hcreated]
        exact ⟨nofun, h.2⟩

theorem notCalled_started {i : Nat} (context : StepContext Value)
    (left : Nat → StepStatus × Option Value × Option String) :
    NotCalled i (started steps context left) := by
  unfold NotCalled started
  by_cases hlt : 0 < steps.length
  · rw [begin_members hlt]
    split
    · exact ⟨nofun, rfl⟩
    · exact ⟨nofun, rfl⟩
  · unfold WorkflowRun.begin
    rw [if_neg hlt]
    exact ⟨nofun, rfl⟩

/-! ## The whole law -/

/-- A run of steps that succeed at once, once it has returned, has called each of them once and in
order if the groups stand together and every step has an attempt, and else not. -/
theorem once_in_order_iff (hplain : Plain steps) (approvals : List String)
    (context : StepContext Value) (left : Nat → StepStatus × Option Value × Option String)
    (turns : List (Turn Value))
    (hsucceeds : Run.EveryStep (Turn.step steps approvals) (SucceedsAtOnce steps)
      (started steps context left) turns)
    (hreturned : ∃ completed, (Run.run (Turn.step steps approvals) (started steps context left)
      turns).outcome = some (.returned completed)) :
    OnceInOrder steps approvals (started steps context left) turns ↔
      Contiguous steps ∧ HasAttempts steps := by
  constructor
  · intro h
    constructor
    · by_contra hnot
      obtain ⟨b, hlt, hb⟩ := left_behind_of_not_contiguous hnot
      have hstart : LeftBehind steps b (started steps context left) :=
        @leftBehind_begin _ _ _ _ 0 hb rfl rfl
      have hnever := (@Run.run_invariant _ _ (Turn.step steps approvals) (LeftBehind steps b)
        (fun _ turn h => h.step hb turn) turns (started steps context left) hstart).never
      rw [h.once b hlt] at hnever
      cases hnever
    · intro step hmem
      by_contra hnot
      obtain ⟨i, hi, hstep⟩ := List.mem_iff_getElem.mp hmem
      have hget : steps[i]? = some step := List.getElem?_eq_some_iff.mpr ⟨hi, hstep⟩
      have hnever := (@Run.run_invariant _ _ (Turn.step steps approvals) (NotCalled i)
        (fun _ turn h => h.step hget (Int.not_le.mp hnot) turn) turns
        (started steps context left) (notCalled_started context left)).2
      rw [h.once i hi] at hnever
      cases hnever
  · rintro ⟨hcontiguous, hattempts⟩
    have hstep : ∀ run turn, SucceedsAtOnce steps run turn →
        (∃ lo hi, Progress steps lo hi run) →
          ∃ lo hi, Progress steps lo hi (Turn.step steps approvals run turn) := by
      rintro run turn hturn ⟨lo, hi, h⟩
      cases turn with
      | member i reaction => exact ⟨lo, hi, h.memberTurn hplain hattempts hturn⟩
      | resume => exact h.resume hcontiguous
    have hstart : ∃ lo hi, Progress steps lo hi (started steps context left) :=
      progress_begin hcontiguous (Nat.zero_le _) (boundary_zero steps) rfl
        (fun _ hi => absurd hi (Nat.not_lt_zero _)) fun _ _ => ⟨rfl, rfl⟩
    have halways := Run.always_of_everyStep hstep turns hsucceeds hstart
    obtain ⟨lo, hi, hend⟩ := halways.last
    obtain ⟨completed, hreturned⟩ := hreturned
    rcases hend.loop with ⟨hnone, -⟩ | ⟨htrue, rfl, -⟩
    · rw [hnone] at hreturned
      cases hreturned
    · exact
        { once := fun i hi => (hend.before i hi).2.2
          ordered := halways.imp fun _ ⟨_, _, h⟩ => h.ordered hcontiguous
          succeeded := fun i hi => (hend.before i hi).2.1
          completed := htrue }

end

/-! ## Two members, side by side and apart -/

def Turn.succeeds {Value : Type} : Turn Value → Bool
  | .member _ reaction => reaction.succeeds
  | .resume => true

/-- Steps without conditions succeed where their actions do. -/
theorem everyStep_succeedsAtOnce {Value : Type} {steps : List (WorkflowStep Value)}
    {approvals : List String} {run : WorkflowRun Value} {turns : List (Turn Value)}
    (hsteps : ∀ step ∈ steps, step.condition = none) (hturns : turns.all Turn.succeeds = true) :
    Run.EveryStep (Turn.step steps approvals) (SucceedsAtOnce steps) run turns := by
  refine Run.everyStep_iff.mpr fun earlier turn later hsplit => ?_
  have hturn := List.all_eq_true.mp hturns turn (by rw [hsplit]; simp)
  cases turn with
  | member i reaction =>
      intro step hstep
      rw [hsteps step (List.mem_of_getElem? hstep)]
      exact ⟨fun _ => rfl, fun _ _ _ => hturn⟩
  | resume => exact trivial

/-- The members side by side, and a step after them. -/
theorem once_in_order_twoAndOne : OnceInOrder twoAndOne [] (started twoAndOne ∅ neverRun)
    [.member 1 (.waits ∅), .member 0 (.waits ∅), .member 0 (.returns ∅ none),
      .member 1 (.returns ∅ none), .resume, .member 2 (.waits ∅), .member 2 (.returns ∅ none),
      .resume] :=
  (once_in_order_iff (by decide) [] ∅ neverRun _ (everyStep_succeedsAtOnce (by decide) rfl)
    ⟨true, rfl⟩).mpr ⟨contiguous_twoAndOne, by decide⟩

/-- A step between the members. -/
def oneBetweenTwo : List (WorkflowStep String) :=
  [plainStep "gather" (some "g"), plainStep "write" none, plainStep "verify" (some "g")]

/-- The members take their turns, and the run goes on. -/
def bothReturn : List (Turn String) :=
  [.member 0 (.waits ∅), .member 2 (.waits ∅), .member 0 (.returns ∅ none),
    .member 2 (.returns ∅ none), .resume, .member 2 (.waits ∅), .member 2 (.returns ∅ none),
    .resume]

/-- The step between them is not called, and the member after it is called twice. -/
theorem step_between_not_called :
    Run.EveryStep (Turn.step oneBetweenTwo []) (SucceedsAtOnce oneBetweenTwo)
      (started oneBetweenTwo ∅ neverRun) bothReturn ∧
    (Run.run (Turn.step oneBetweenTwo []) (started oneBetweenTwo ∅ neverRun)
      bothReturn).outcome = some (.returned false) ∧
    ¬ OnceInOrder oneBetweenTwo [] (started oneBetweenTwo ∅ neverRun) bothReturn := by
  refine ⟨everyStep_succeedsAtOnce (by decide) rfl, rfl, fun h => ?_⟩
  have hone := h.once 1 (by decide)
  cases hone

end YoutubeFactory.AgentWorkflow
