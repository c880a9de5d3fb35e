import YoutubeFactory.AgentWorkflow.Batches

/-!
# Nothing runs after a failure

The run stops at the foot of the loop if the step before the new index has failed.  That is the
last member of the batch.  A failure of another member does not stop the run.
-/

namespace YoutubeFactory.AgentWorkflow

section

variable {Value : Type} {steps : List (WorkflowStep Value)} {approvals : List String}
  {run : WorkflowRun Value}

/-- The step has ended in failure in this run. -/
def Member.HasFailed (m : Member Value) : Prop := m.stage = .ended ∧ m.status = .failed

/-- After a step that has failed, only steps of its group have been called. -/
def NothingAfterFailure (steps : List (WorkflowStep Value)) (run : WorkflowRun Value) : Prop :=
  ∀ i j, (run.members i).HasFailed → i < j → ¬ SameGroup steps i j →
    (run.members j).invocations = 0

/-- Where the loop goes on or stops, a batch with a failed member has a last one that failed. -/
def LastFails (run : WorkflowRun Value) : Turn Value → Prop
  | .member .. => True
  | .resume => run.outcome = none → (∀ i ∈ run.batch, (run.members i).stage = .ended) →
      (∃ i ∈ run.batch, (run.members i).status = .failed) →
        (run.members (run.index + run.batch.length - 1)).status = .failed

/-! ## What the turns keep -/

/-- The steps before `lo` have ended, and not in failure; those before `hi` are a batch; the others
have not been looked at. -/
structure Reached (steps : List (WorkflowStep Value)) (lo hi : Nat) (run : WorkflowRun Value) :
    Prop where
  boundary : Boundary steps lo
  together : ∀ i j, lo ≤ i → i < hi → lo ≤ j → j < hi → i = j ∨ SameGroup steps i j
  before : ∀ i < lo, (run.members i).stage = .ended ∧ (run.members i).status ≠ .failed
  after : ∀ i, hi ≤ i → (run.members i).stage = .idle ∧ (run.members i).invocations = 0
  running : run.outcome = none → run.index = lo ∧ run.batch = batchAt steps lo ∧
    hi = next steps lo

theorem Reached.nothingAfterFailure {lo hi : Nat} (h : Reached steps lo hi run) :
    NothingAfterFailure steps run := by
  intro i j hfailed hij hgroup
  have hlo : lo ≤ i := by
    refine Nat.le_of_not_lt fun hlt => ?_
    exact (h.before i hlt).2 hfailed.2
  have hhi : hi ≤ j := by
    refine Nat.le_of_not_lt fun hlt => ?_
    rcases h.together i j hlo (by omega) (by omega) hlt with rfl | hsame
    · exact Nat.lt_irrefl _ hij
    · exact hgroup hsame
  exact (h.after j hhi).2

/-- A step that has no turn is left as it is. -/
theorem turn_of_resting {step : WorkflowStep Value} {reaction : Reaction Value}
    {ctx : StepContext Value} {m : Member Value} (h : m.stage = .ended ∨ m.stage = .idle) :
    step.turn approvals reaction ctx m = (m, ctx) := by
  unfold WorkflowStep.turn
  rcases h with h | h <;> rw [h]

/-- The other steps do not see a turn of a member, and neither does a member at rest. -/
theorem memberTurn_members {i j : Nat} {reaction : Reaction Value}
    (h : j ≠ i ∨ (run.members j).stage = .ended ∨ (run.members j).stage = .idle) :
    (run.memberTurn steps approvals i reaction).members j = run.members j := by
  unfold WorkflowRun.memberTurn
  cases hstep : steps[i]? with
  | none => rfl
  | some step =>
      dsimp only
      rcases h with hne | hresting
      · exact Function.update_of_ne hne _ _
      · by_cases hij : j = i
        · subst hij
          rw [Function.update_self, turn_of_resting hresting]
        · exact Function.update_of_ne hij _ _

/-- A turn of a member does not take the loop further. -/
theorem memberTurn_loop {i : Nat} {reaction : Reaction Value} :
    (run.memberTurn steps approvals i reaction).index = run.index ∧
    (run.memberTurn steps approvals i reaction).batch = run.batch ∧
    ((run.memberTurn steps approvals i reaction).outcome = none → run.outcome = none) := by
  unfold WorkflowRun.memberTurn
  cases hstep : steps[i]? with
  | none => exact ⟨rfl, rfl, id⟩
  | some step =>
      refine ⟨rfl, rfl, fun hnone => ?_⟩
      dsimp only at hnone
      unfold WorkflowRun.raisedBy at hnone
      split at hnone
      · exact (Option.or_eq_none_iff.mp hnone).1
      · exact hnone

theorem Reached.memberTurn {lo hi : Nat} (h : Reached steps lo hi run) (i : Nat)
    (reaction : Reaction Value) :
    Reached steps lo hi (run.memberTurn steps approvals i reaction) where
  boundary := h.boundary
  together := h.together
  before := fun j hj => by
    rw [memberTurn_members (.inr (.inl (h.before j hj).1))]
    exact h.before j hj
  after := fun j hj => by
    rw [memberTurn_members (.inr (.inr (h.after j hj).1))]
    exact h.after j hj
  running := fun hnone => by
    obtain ⟨hindex, hbatch, houtcome⟩ := @memberTurn_loop _ steps approvals run i reaction
    rw [hindex, hbatch]
    exact h.running (houtcome hnone)

theorem Reached.leave {lo hi : Nat} (h : Reached steps lo hi run) (index : Nat) :
    Reached steps lo hi (run.leave steps index) where
  boundary := h.boundary
  together := h.together
  before := h.before
  after := h.after
  running := nofun

/-- The members at the head of the loop. -/
theorem begin_members {index : Nat} (hlt : index < steps.length) (j : Nat) :
    (run.begin steps index).members j =
      if j ∈ batchAt steps index then { run.members j with stage := .created }
      else run.members j := by
  unfold WorkflowRun.begin
  rw [if_pos hlt]

/-- The next batch, if there is one. -/
theorem reached_begin (hcontiguous : Contiguous steps) {lo : Nat}
    (hboundary : Boundary steps lo)
    (hbefore : ∀ i < lo, (run.members i).stage = .ended ∧ (run.members i).status ≠ .failed)
    (hafter : ∀ i, lo ≤ i → (run.members i).stage = .idle ∧ (run.members i).invocations = 0) :
    ∃ lo' hi, Reached steps lo' hi (run.begin steps lo) := by
  have hsegment := segment_of_contiguous hcontiguous lo
  by_cases hlt : lo < steps.length
  · refine ⟨lo, next steps lo, hboundary, ?_, ?_, ?_, ?_⟩
    · exact fun i j hi hi' hj hj' =>
        together_of_mem ((hsegment i).mpr ⟨hi, hi'⟩) ((hsegment j).mpr ⟨hj, hj'⟩)
    · intro i hi
      rw [begin_members hlt, if_neg fun hmem => Nat.not_lt.mpr (le_of_mem_batchAt hmem) hi]
      exact hbefore i hi
    · intro i hi
      rw [begin_members hlt, if_neg fun hmem => Nat.not_lt.mpr hi ((hsegment i).mp hmem).2]
      exact hafter i ((lt_next steps lo).le.trans hi)
    · intro _
      unfold WorkflowRun.begin
      rw [if_pos hlt]
      exact ⟨rfl, rfl, rfl⟩
  · refine ⟨lo, lo, ?_⟩
    unfold WorkflowRun.begin
    rw [if_neg hlt]
    exact
      { boundary := hboundary
        together := fun i j hi hi' _ _ => absurd hi' (Nat.not_lt.mpr hi)
        before := hbefore
        after := hafter
        running := nofun }

theorem Reached.resume (hcontiguous : Contiguous steps) {lo hi : Nat}
    (h : Reached steps lo hi run) (hlast : LastFails run .resume) :
    ∃ lo hi, Reached steps lo hi (run.resume steps) := by
  unfold WorkflowRun.resume
  split
  · next hready =>
      obtain ⟨hnone, hended⟩ := hready
      obtain ⟨rfl, hbatch, rfl⟩ := h.running hnone
      dsimp only
      split
      · exact ⟨_, _, h.leave _⟩
      · next hsucceeded =>
          have hsegment := segment_of_contiguous hcontiguous run.index
          rw [hbatch] at hended ⊢
          refine reached_begin hcontiguous (h.boundary.next hsegment) (fun i hi => ?_) h.after
          rcases Nat.lt_or_ge i run.index with hlt | hge
          · exact h.before i hlt
          · have hmem := (hsegment i).mpr ⟨hge, hi⟩
            refine ⟨hended i hmem, fun hfailed => hsucceeded ?_⟩
            exact hlast hnone (by rw [hbatch]; exact hended)
              ⟨i, by rw [hbatch]; exact hmem, hfailed⟩
  · exact ⟨lo, hi, h⟩

theorem reached_started (hcontiguous : Contiguous steps) (context : StepContext Value)
    (left : Nat → StepStatus × Option Value × Option String) :
    ∃ lo hi, Reached steps lo hi (started steps context left) :=
  reached_begin hcontiguous (boundary_zero steps) (fun _ hi => absurd hi (Nat.not_lt_zero _))
    fun _ _ => ⟨rfl, rfl⟩

/-- In the runs in which the last member of a batch fails if one does, nothing runs after a
failure. -/
theorem nothing_after_failure (hcontiguous : Contiguous steps) (approvals : List String)
    (context : StepContext Value) (left : Nat → StepStatus × Option Value × Option String)
    (turns : List (Turn Value))
    (hlast : Run.EveryStep (Turn.step steps approvals) LastFails (started steps context left)
      turns) :
    Run.Always (Turn.step steps approvals) (NothingAfterFailure steps)
      (started steps context left) turns := by
  have hstep : ∀ run turn, LastFails run turn → (∃ lo hi, Reached steps lo hi run) →
      ∃ lo hi, Reached steps lo hi (Turn.step steps approvals run turn) := by
    rintro run turn hturn ⟨lo, hi, h⟩
    cases turn with
    | member i reaction => exact ⟨lo, hi, h.memberTurn i reaction⟩
    | resume => exact h.resume hcontiguous hturn
  have halways := Run.always_of_everyStep hstep turns hlast
    (reached_started hcontiguous context left)
  exact halways.imp fun _ ⟨_, _, h⟩ => h.nothingAfterFailure

end

/-! ## Two members and a step after them -/

/-- A step with an action and nothing else. -/
def plainStep (name : String) (parallelGroup : Option String) : WorkflowStep String where
  name
  condition := none
  parallelGroup
  retries := 0
  delaySeconds := 0
  requiresApproval := false
  loopUntil := none
  maxLoops := 10

def twoAndOne : List (WorkflowStep String) :=
  [plainStep "gather" (some "g"), plainStep "verify" (some "g"), plainStep "write" none]

def neverRun : Nat → StepStatus × Option String × Option String := fun _ => (.pending, none, none)

theorem contiguous_twoAndOne : Contiguous twoAndOne := by
  intro a b c hab hbc hgroup
  have hc : c < 2 := by
    refine Nat.lt_of_not_le fun hle => ?_
    have hlength : c < 3 := lt_length_of_label hgroup.symm.1
    obtain rfl : c = 2 := by omega
    exact absurd hgroup.symm.1 (by decide)
  match a, b with
  | 0, 0 => exact ⟨rfl, rfl⟩
  | 0, 1 => exact ⟨rfl, rfl⟩
  | 1, 1 => exact ⟨rfl, rfl⟩
  | 1, 0 => omega
  | _ + 2, _ => omega
  | _, _ + 2 => omega

/-- The last member of the group fails, and the run ends. -/
theorem nothing_after_last_member : Run.Always (Turn.step twoAndOne [])
    (NothingAfterFailure twoAndOne) (started twoAndOne ∅ neverRun)
    [.member 0 (.waits ∅), .member 1 (.waits ∅), .member 1 (.raises ∅ "boom"),
      .member 0 (.returns ∅ none), .resume, .member 2 (.waits ∅)] :=
  nothing_after_failure contiguous_twoAndOne [] ∅ neverRun _
    ⟨trivial, trivial, trivial, trivial, fun _ _ _ => rfl, trivial, trivial⟩

/-- The first one fails, and the step after them is called. -/
theorem called_after_first_member : ¬ Run.Always (Turn.step twoAndOne [])
    (NothingAfterFailure twoAndOne) (started twoAndOne ∅ neverRun)
    [.member 0 (.waits ∅), .member 1 (.waits ∅), .member 0 (.raises ∅ "boom"),
      .member 1 (.returns ∅ none), .resume, .member 2 (.waits ∅)] := by
  intro h
  have hnone := h.last 0 2 ⟨rfl, rfl⟩ (by decide) nofun
  cases hnone

end YoutubeFactory.AgentWorkflow
