import YoutubeFactory.AgentCore.Run

/-!
# The lifecycle of a run

The phases move from state to state as the table says.  A pause that is honoured takes the run to
`PAUSED`, and `run` goes on from there as after any other end of the loop: the next transition is
refused, and the run is assigned `FAILED`, or there is none, and the goal is `COMPLETED`.
-/

namespace YoutubeFactory.AgentCore

open EStateM (Meets Keeps)

section

variable {World α : Type} {engine : Engine World} {config : AgentConfig}

/-! ## The law -/

/-- A pause has been honoured. -/
def Honoured (moves : List (AgentState × AgentState)) : Prop := (.executing, .paused) ∈ moves

instance (moves : List (AgentState × AgentState)) : Decidable (Honoured moves) :=
  inferInstanceAs (Decidable (_ ∈ moves))

/-- All assignments are moves of the table. -/
def Legal (moves : List (AgentState × AgentState)) : Prop :=
  ∀ m ∈ moves, canTransition m.1 m.2 = true

/-- State and goal have ended alike. -/
def EndedAlike (state : AgentState) (goalStatus : GoalStatus) : Prop :=
  (state, goalStatus) = (.completed, .completed) ∨ (state, goalStatus) = (.failed, .failed) ∨
    (state, goalStatus) = (.cancelled, .cancelled)

structure Lawful (outcome : EStateM.Result AgentError (AgentRun World) AgentRunResult) : Prop where
  legal : Legal outcome.state.moves
  ended : ∀ result run, outcome = .ok result run → EndedAlike result.state result.goalStatus ∨
    Honoured outcome.state.moves ∧ result.state = .paused ∧ result.goalStatus ≠ .completed ∧
      result.goalStatus ≠ .failed

/-! ## What the components leave alone -/

/-- What the components cannot write. -/
def AgentRun.record (run : AgentRun World) :
    AgentState × List (AgentState × AgentState) × GoalStatus :=
  (run.state, run.moves, run.goalStatus)

theorem call_keeps (hook : Hook World α) : Keeps AgentRun.record (call hook) := by
  refine Keeps.zoom ?_ hook
  exact fun _ _ => rfl

theorem awaited_keeps (engine : Engine World) (hook : Hook World α) :
    Keeps AgentRun.record (awaited engine hook) := by
  intro run
  rw [awaited_state]
  obtain ⟨paused, cancelled, heq⟩ := receive_eq engine ((call hook).run run).state
  rw [heq]
  exact call_keeps hook run

/-! ## Phases -/

/-- The run is in a state, by legal moves and without a pause. -/
def At (state : AgentState) (run : AgentRun World) : Prop :=
  run.state = state ∧ Legal run.moves ∧ ¬ Honoured run.moves

/-- The run has been paused, by legal moves. -/
def Paused (run : AgentRun World) : Prop :=
  run.state = .paused ∧ Legal run.moves ∧ Honoured run.moves

/-- Where an exception is met: the run may fail, unless it has been paused. -/
def Raised (run : AgentRun World) : Prop :=
  (∃ state, At state run ∧ canTransition state .failed = true) ∨ Paused run

theorem legal_append {moves : List (AgentState × AgentState)} {m : AgentState × AgentState} :
    Legal (moves ++ [m]) ↔ Legal moves ∧ canTransition m.1 m.2 = true := by
  simp [Legal, or_imp, forall_and]

theorem At.move {state target : AgentState} {run : AgentRun World} (h : At state run)
    (hlegal : canTransition state target = true) (htarget : target ≠ .paused) :
    At target (run.move target) := by
  obtain ⟨rfl, hmoves, hpause⟩ := h
  refine ⟨rfl, legal_append.mpr ⟨hmoves, hlegal⟩, fun hhonoured => ?_⟩
  rcases List.mem_append.mp hhonoured with hbefore | hnow
  · exact hpause hbefore
  · exact htarget (Prod.mk.inj (List.mem_singleton.mp hnow)).2.symm

/-- A transition that the table allows. -/
theorem transition_of_legal {target : AgentState} {run : AgentRun World}
    {raised : AgentError → AgentRun World → Prop}
    (hlegal : canTransition run.state target = true) :
    Meets (· = run) (transition target) (fun _ run' => run' = run.move target) raised := by
  refine Meets.get_bind fun run' hrun => ?_
  subst hrun
  rw [if_pos hlegal]
  exact Meets.set fun _ _ => rfl

theorem transition_meets {state target : AgentState} {raised : AgentError → AgentRun World → Prop}
    (hlegal : canTransition state target = true) (htarget : target ≠ .paused) :
    Meets (At state) (transition target) (fun _ => At target) raised := by
  intro run hrun
  refine (transition_of_legal (hrun.1 ▸ hlegal)).imp (fun _ h => h) ?_ (fun _ _ h => h) run rfl
  rintro _ _ rfl
  exact hrun.move hlegal htarget

/-- A component leaves what is said of state, moves and goal. -/
theorem awaited_leaves (hook : Hook World α) (p : AgentState → List (AgentState × AgentState) →
    GoalStatus → Prop) :
    Meets (fun run => p run.state run.moves run.goalStatus) (awaited engine hook)
      (fun _ run => p run.state run.moves run.goalStatus)
      fun _ run => p run.state run.moves run.goalStatus :=
  @Meets.of_keeps _ _ _ _ AgentRun.record (fun r => p r.1 r.2.1 r.2.2) _ (awaited_keeps engine hook)

theorem call_leaves (hook : Hook World α) (p : AgentState → List (AgentState × AgentState) →
    GoalStatus → Prop) :
    Meets (fun run => p run.state run.moves run.goalStatus) (call hook)
      (fun _ run => p run.state run.moves run.goalStatus)
      fun _ run => p run.state run.moves run.goalStatus :=
  @Meets.of_keeps _ _ _ _ AgentRun.record (fun r => p r.1 r.2.1 r.2.2) _ (call_keeps hook)

/-- A component in a state from which the run may fail. -/
theorem awaited_meets {state : AgentState} (hook : Hook World α)
    (hfail : canTransition state .failed = true) :
    Meets (At state) (awaited engine hook) (fun _ => At state) (fun _ => Raised) :=
  (awaited_leaves hook fun s moves _ => s = state ∧ Legal moves ∧ ¬ Honoured moves).imp
    (fun _ h => h) (fun _ _ h => h) fun _ _ h => .inl ⟨state, h, hfail⟩

theorem initializeRun_meets :
    Meets (At .created) (initializeRun engine) (fun _ => At .idle) (fun _ => Raised) := by
  unfold initializeRun
  refine Meets.bind (transition_meets rfl nofun) fun _ => ?_
  refine Meets.bind (awaited_meets _ rfl) fun _ => ?_
  refine Meets.bind (awaited_meets _ rfl) fun _ => ?_
  exact transition_meets rfl nofun

theorem plan_meets :
    Meets (At .idle) (plan engine) (fun _ => At .planning) (fun _ => Raised) := by
  unfold plan
  refine Meets.bind (transition_meets rfl nofun) fun _ => ?_
  refine Meets.bind (awaited_meets _ rfl) fun graph => ?_
  exact Meets.modify fun _ h => h

/-- Where the loop has been left: working, or paused and not cancelled. -/
def Left (run : AgentRun World) : Prop :=
  At .executing run ∨ Paused run ∧ run.cancelled = false

theorem round_meets :
    Meets (At .executing) (round engine config) (fun _ => At .executing) fun _ => Raised := by
  unfold round
  refine Meets.get_bind fun run hrun => ?_
  refine Meets.bind ((Meets.forM (fun task => ?_) _).imp (fun _ h => h ▸ hrun)
    (fun _ _ h => h) fun _ _ h => h) fun _ => ?_
  · exact awaited_meets _ rfl
  · refine Meets.get_bind fun run hrun => ?_
    split
    · exact (awaited_meets _ rfl).imp (fun _ h => h ▸ hrun) (fun _ _ h => h) fun _ _ h => h
    · exact Meets.pure fun _ h => h ▸ hrun

theorem iterate_meets : ∀ n,
    Meets (At .executing) (iterate engine config n) (fun _ => Left) (fun _ => Raised)
  | 0 => Meets.pure fun _ h => .inl h
  | n + 1 => by
      unfold iterate
      refine Meets.get_bind fun run hrun => ?_
      by_cases hstop : run.shared.graph.isComplete = true ∨ run.cancelled = true
      · rw [if_pos hstop]
        exact Meets.pure fun _ h => .inl (h ▸ hrun)
      · rw [if_neg hstop]
        obtain ⟨-, hcancelled⟩ := not_or.mp hstop
        by_cases hpaused : run.paused = true
        · rw [if_pos hpaused]
          refine Meets.set fun _ _ => .inr ⟨⟨rfl, ?_, ?_⟩, Bool.eq_false_iff.mpr hcancelled⟩
          · exact legal_append.mpr ⟨hrun.2.1, by rw [hrun.1]; rfl⟩
          · exact List.mem_append_right _ (by rw [hrun.1]; exact List.mem_singleton.mpr rfl)
        · rw [if_neg hpaused]
          split
          · exact Meets.pure fun _ h => .inl (h ▸ hrun)
          · exact Meets.bind (round_meets.imp (fun _ h => h ▸ hrun) (fun _ _ h => h) fun _ _ h => h)
              fun _ => iterate_meets n

theorem execute_meets :
    Meets (At .planning) (execute engine config) (fun _ => Left) (fun _ => Raised) := by
  unfold execute
  exact Meets.bind (transition_meets rfl nofun) fun _ => iterate_meets _

/-- The body of the `try` at its end. -/
def Ended (run : AgentRun World) : Prop :=
  Legal run.moves ∧ (¬ Honoured run.moves ∧ EndedAlike run.state run.goalStatus ∨
    Honoured run.moves ∧ run.state = .paused ∧ run.goalStatus = .completed)

/-- A run from which `finish` may complete the goal or fail it, or one that has been paused. -/
def Live (run : AgentRun World) : Prop :=
  (∃ state, At state run ∧ canTransition state .failed = true ∧
    canTransition state .completed = true) ∨ Paused run

theorem Left.live {run : AgentRun World} (h : Left run) : Live run :=
  h.imp (fun hexecuting => ⟨.executing, hexecuting, rfl, rfl⟩) And.left

theorem Live.raised {run : AgentRun World} (h : Live run) : Raised run :=
  h.imp_left fun ⟨state, hstate, hfail, _⟩ => ⟨state, hstate, hfail⟩

theorem live_leaves (m : AgentM World α)
    (h : ∀ p : AgentState → List (AgentState × AgentState) → GoalStatus → Prop,
      Meets (fun run => p run.state run.moves run.goalStatus) m
        (fun _ run => p run.state run.moves run.goalStatus)
        fun _ run => p run.state run.moves run.goalStatus) :
    Meets Live m (fun _ => Live) fun _ => Raised :=
  (h fun s moves _ => (∃ state, (s = state ∧ Legal moves ∧ ¬ Honoured moves) ∧
    canTransition state .failed = true ∧ canTransition state .completed = true) ∨
      s = .paused ∧ Legal moves ∧ Honoured moves).imp (fun _ h => h) (fun _ _ h => h)
        fun _ _ h => Live.raised h

/-- A transition that a paused run is refused. -/
theorem transition_of_paused {run : AgentRun World} (h : Paused run) {target : AgentState}
    (hrefused : canTransition .paused target = false) {post : Unit → AgentRun World → Prop} :
    Meets (· = run) (transition target) post fun _ => Raised := by
  refine Meets.get_bind fun run' hrun => ?_
  subst hrun
  rw [if_neg (by rw [h.1, hrefused]; exact Bool.false_ne_true)]
  exact Meets.throw fun _ heq => .inr (heq ▸ h)

theorem reflect_meets : Meets (fun run : AgentRun World => Left run) (reflect engine)
    (fun _ => Live) fun _ => Raised := by
  unfold reflect
  have hreflecting : Meets (fun run : AgentRun World => Left run) (transition .reflecting)
      (fun _ => At .reflecting) fun _ => Raised := by
    intro run hrun
    rcases hrun with hexecuting | ⟨hpaused, -⟩
    · exact @transition_meets _ .executing .reflecting _ rfl nofun run hexecuting
    · exact @transition_of_paused _ run hpaused .reflecting rfl _ run rfl
  refine Meets.bind hreflecting fun _ => ?_
  refine Meets.bind (awaited_meets _ rfl) fun summary => ?_
  exact (live_leaves _ (call_leaves _)).imp (fun _ h => .inl ⟨.reflecting, h, rfl, rfl⟩)
    (fun _ _ h => h) fun _ _ h => h

theorem finish_meets : Meets Live (finish : AgentM World Unit) (fun _ => Ended) fun _ => Raised := by
  unfold finish
  refine Meets.get_bind fun run hrun => ?_
  split
  · refine Meets.set_bind ?_
    rcases hrun with ⟨state, hstate, hfail, -⟩ | hpaused
    · have hcan : canTransition run.state .failed = true := hstate.1 ▸ hfail
      refine (@transition_of_legal _ .failed { run with goalStatus := .failed } _ hcan).imp
        (fun _ h => h) ?_ fun _ _ h => h
      rintro _ _ rfl
      obtain ⟨-, hlegal, hpause⟩ := hstate.move hfail nofun
      exact ⟨hlegal, .inl ⟨hpause, .inr (.inl rfl)⟩⟩
    · exact @transition_of_paused _ { run with goalStatus := .failed } hpaused .failed rfl _
  · refine Meets.set fun _ _ => ?_
    rcases hrun with ⟨state, hstate, -, hcomplete⟩ | ⟨hstate, hlegal, hpause⟩
    · have hcan : canTransition run.state .completed = true := hstate.1 ▸ hcomplete
      rw [if_pos hcan]
      obtain ⟨-, hlegal, hpause⟩ := hstate.move hcomplete nofun
      exact ⟨hlegal, .inl ⟨hpause, .inl rfl⟩⟩
    · have hcannot : ¬ canTransition run.state .completed = true := by
        rw [hstate]
        exact nofun
      rw [if_neg hcannot]
      exact ⟨hlegal, .inr ⟨hpause, hstate, rfl⟩⟩

theorem reflectStage_meets : Meets (fun run : AgentRun World => Left run)
    (reflectStage engine config) (fun _ => Live) fun _ => Raised := by
  unfold reflectStage
  split
  · exact reflect_meets
  · exact Meets.pure fun _ => Left.live

theorem evaluateStage_meets :
    Meets Live (evaluateStage engine config) (fun _ => Live) fun _ => Raised := by
  unfold evaluateStage
  split
  · exact live_leaves _ (awaited_leaves _)
  · exact Meets.pure fun _ h => h

theorem conclude_meets :
    Meets (fun run : AgentRun World => Left run) (conclude engine config) (fun _ => Ended)
      fun _ => Raised := by
  unfold conclude
  refine Meets.get_bind fun run hrun => ?_
  split
  · next hcancelled =>
      rcases hrun with hexecuting | ⟨-, hnot⟩
      · refine Meets.set fun _ _ => ?_
        obtain ⟨-, hlegal, hpause⟩ := hexecuting.move (rfl : canTransition _ .cancelled = _) nofun
        exact ⟨hlegal, .inl ⟨hpause, .inr (.inr rfl)⟩⟩
      · rw [hnot] at hcancelled
        cases hcancelled
  · refine Meets.bind (reflectStage_meets.imp (fun _ h => h ▸ hrun) (fun _ _ h => h)
      fun _ _ h => h) fun _ => ?_
    exact Meets.bind evaluateStage_meets fun _ => finish_meets

theorem lifecycle_meets :
    Meets (At .created) (lifecycle engine config) (fun _ => Ended) fun _ => Raised := by
  unfold lifecycle
  refine Meets.bind initializeRun_meets fun _ => ?_
  refine Meets.bind plan_meets fun _ => ?_
  exact Meets.bind execute_meets fun _ => conclude_meets

theorem canTransition_initializing {state : AgentState} :
    canTransition state .initializing = true ↔ state = .created := by
  cases state <;> decide

/-- A run that does not begin in `CREATED` is refused its first transition. -/
theorem lifecycle_of_ne {run : AgentRun World} (h : run.state ≠ .created) :
    (lifecycle engine config).run run =
      .error (.invalidTransition run.state .initializing) run := by
  unfold lifecycle initializeRun
  refine EStateM.run_bind_of_error (EStateM.run_bind_of_error ?_)
  unfold transition
  rw [EStateM.run_get_bind, if_neg fun hcan => h (canTransition_initializing.mp hcan)]
  rfl

theorem outputOf_keeps : Keeps AgentRun.record (outputOf engine) := by
  refine Keeps.get_bind fun run => ?_
  split
  · rfl
  · exact call_keeps _ run

theorem publishTerminal_keeps : Keeps AgentRun.record (publishTerminal engine) := by
  refine Keeps.bind (Keeps.get_bind fun run => ?_) fun _ =>
    Keeps.get_bind fun run => awaited_keeps engine _ run
  split
  · exact awaited_keeps engine _ run
  · split
    · exact awaited_keeps engine _ run
    · rfl

/-- The end of a run writes nothing, and the result tells where it was. -/
theorem terminate_meets (error : Option String)
    (r : AgentState × List (AgentState × AgentState) × GoalStatus) :
    Meets (fun run : AgentRun World => run.record = r) (terminate engine error)
      (fun result run => run.record = r ∧ result.state = r.1 ∧ result.goalStatus = r.2.2)
      fun _ run => run.record = r := by
  refine Meets.bind (@Meets.of_keeps _ _ _ _ _ (· = r) _ outputOf_keeps) fun output => ?_
  refine Meets.bind (@Meets.of_keeps _ _ _ _ _ (· = r) _ publishTerminal_keeps) fun _ => ?_
  refine Meets.get_bind fun run hrun => ?_
  refine Meets.pure fun _ h => ?_
  subst h
  exact ⟨hrun, congrArg Prod.fst hrun, congrArg (fun r => r.2.2) hrun⟩

/-! ## Pauses that the loop finds -/

/-- At no head of the loop is there a pause that it honours. -/
def Unpaused (engine : Engine World) (config : AgentConfig) : Nat → AgentRun World → Prop
  | 0, _ => True
  | n + 1, run => run.shared.graph.isComplete = true ∨ run.cancelled = true ∨
      run.paused = false ∧ (run.shared.graph.ready = [] ∨
        ∀ run', (round engine config).run run = .ok () run' → Unpaused engine config n run')

/-- The run until the loop begins. -/
def enter (engine : Engine World) : AgentM World Unit := do
  initializeRun engine
  plan engine
  transition .executing

/-- A run begins where it is created and the loop finds no pause, or else where it may fail. -/
def Proper (engine : Engine World) (config : AgentConfig) (run : AgentRun World) : Prop :=
  run.state = .created ∧ (∀ run', (enter engine).run run.begin = .ok () run' →
    Unpaused engine config config.maxIterations.toNat run') ∨
  canTransition run.state .failed = true

theorem lifecycle_eq : lifecycle engine config = (do
    enter engine
    iterate engine config config.maxIterations.toNat
    conclude engine config) := by
  simp only [lifecycle, enter, execute, bind_assoc]

/-- Whether a pause has been honoured. -/
def AgentRun.honoured (run : AgentRun World) : Prop := Honoured run.moves

theorem honoured_move {run : AgentRun World} {target : AgentState} (h : target ≠ .paused) :
    (run.move target).honoured = run.honoured := by
  refine propext ⟨fun hhonoured => ?_, List.mem_append_left _⟩
  rcases List.mem_append.mp hhonoured with hbefore | hnow
  · exact hbefore
  · exact absurd (Prod.mk.inj (List.mem_singleton.mp hnow)).2.symm h

theorem awaited_honoured (hook : Hook World α) : Keeps AgentRun.honoured (awaited engine hook) :=
  (awaited_keeps engine hook).map fun r => Honoured r.2.1

theorem call_honoured (hook : Hook World α) : Keeps AgentRun.honoured (call hook) :=
  (call_keeps hook).map fun r => Honoured r.2.1

theorem transition_honoured {target : AgentState} (h : target ≠ .paused) :
    Keeps AgentRun.honoured (transition target : AgentM World Unit) := by
  refine Keeps.get_bind fun run => ?_
  split
  · exact honoured_move h
  · rfl

theorem enter_honoured : Keeps AgentRun.honoured (enter engine) := by
  unfold enter initializeRun plan
  refine Keeps.bind (Keeps.bind (transition_honoured nofun) fun _ => ?_) fun _ => ?_
  · refine Keeps.bind (awaited_honoured _) fun _ => ?_
    exact Keeps.bind (awaited_honoured _) fun _ => transition_honoured nofun
  · refine Keeps.bind (Keeps.bind (transition_honoured nofun) fun _ => ?_) fun _ =>
      transition_honoured nofun
    exact Keeps.bind (awaited_honoured _) fun graph => Keeps.modify fun _ => rfl

theorem reflect_honoured : Keeps AgentRun.honoured (reflect engine) := by
  unfold reflect
  refine Keeps.bind (transition_honoured nofun) fun _ => ?_
  exact Keeps.bind (awaited_honoured _) fun summary => call_honoured _

theorem finish_honoured : Keeps AgentRun.honoured (finish : AgentM World Unit) := by
  refine Keeps.get_bind fun run => ?_
  split
  · have hset : Keeps AgentRun.honoured (transition .failed : AgentM World Unit) :=
      transition_honoured nofun
    exact hset { run with goalStatus := .failed }
  · show AgentRun.honoured (if _ then _ else _) = _
    split
    · exact honoured_move nofun
    · rfl

theorem conclude_honoured : Keeps AgentRun.honoured (conclude engine config) := by
  have hreflect : Keeps AgentRun.honoured (reflectStage engine config) := by
    unfold reflectStage
    split
    · exact reflect_honoured
    · exact Keeps.pure _
  have hevaluate : Keeps AgentRun.honoured (evaluateStage engine config) := by
    unfold evaluateStage
    split
    · exact awaited_honoured _
    · exact Keeps.pure _
  refine Keeps.get_bind fun run => ?_
  split
  · exact honoured_move nofun
  · exact Keeps.bind hreflect (fun _ => Keeps.bind hevaluate fun _ => finish_honoured) run

theorem round_honoured : Keeps AgentRun.honoured (round engine config) := by
  refine Keeps.get_bind fun run => ?_
  refine Keeps.bind (Keeps.forM (fun task => awaited_honoured _) _) (fun _ => ?_) run
  refine Keeps.get_bind fun run => ?_
  split
  · exact awaited_honoured _ run
  · rfl

theorem round_state (run run' : AgentRun World)
    (h : (round engine config).run run = .ok () run') (hrun : At .executing run) :
    At .executing run' := (round_meets run hrun).1 () run' h

theorem unpaused_succ {n : Nat} {run : AgentRun World}
    (hstop : ¬ (run.shared.graph.isComplete = true ∨ run.cancelled = true)) :
    Unpaused engine config (n + 1) run ↔ run.paused = false ∧ (run.shared.graph.ready = [] ∨
      ∀ run', (round engine config).run run = .ok () run' → Unpaused engine config n run') := by
  obtain ⟨hcomplete, hcancelled⟩ := not_or.mp hstop
  exact ⟨fun h => (h.resolve_left hcomplete).resolve_left hcancelled, fun h => .inr (.inr h)⟩

/-- The loop honours a pause exactly where it finds one. -/
theorem honoured_iterate_iff : ∀ n (run : AgentRun World), At .executing run →
    (((iterate engine config n).run run).state.honoured ↔ ¬ Unpaused engine config n run)
  | 0, run, hrun => ⟨fun h => absurd h hrun.2.2, fun h => absurd trivial h⟩
  | n + 1, run, hrun => by
      have hnot : ¬ run.honoured := hrun.2.2
      unfold iterate
      rw [EStateM.run_get_bind]
      by_cases hstop : run.shared.graph.isComplete = true ∨ run.cancelled = true
      · rw [if_pos hstop]
        exact ⟨fun h => absurd h hnot, fun h => absurd (hstop.imp_right .inl) h⟩
      · rw [if_neg hstop, unpaused_succ hstop]
        by_cases hpaused : run.paused = true
        · rw [if_pos hpaused, hpaused]
          have hhonoured : (run.move .paused).honoured :=
            List.mem_append_right _ (by rw [hrun.1]; exact List.mem_singleton.mpr rfl)
          exact ⟨fun _ h => Bool.noConfusion h.1, fun _ => hhonoured⟩
        · rw [if_neg hpaused]
          by_cases hready : run.shared.graph.ready = []
          · rw [if_pos hready]
            refine ⟨fun h => absurd h hnot, fun h => absurd ?_ h⟩
            exact ⟨Bool.eq_false_iff.mpr hpaused, .inl hready⟩
          · rw [if_neg hready]
            have hround := @round_honoured _ engine config run
            cases hrun' : (round engine config).run run with
            | ok u run' =>
                rw [EStateM.run_bind_of_ok hrun',
                  honoured_iterate_iff n run' (round_state run run' hrun' hrun)]
                refine not_congr ⟨fun h => ⟨Bool.eq_false_iff.mpr hpaused, .inr ?_⟩, fun h => ?_⟩
                · rintro _ hok
                  cases hok
                  exact h
                · exact h.2.resolve_left hready run' rfl
            | error e run' =>
                rw [hrun'] at hround
                rw [EStateM.run_bind_of_error hrun']
                refine ⟨fun h => absurd (hround.mp h) hnot, fun h => absurd ?_ h⟩
                exact ⟨Bool.eq_false_iff.mpr hpaused, .inr fun _ hok => by cases hok⟩

theorem enter_meets :
    Meets (At .created) (enter engine) (fun _ => At .executing) fun _ => Raised := by
  unfold enter
  refine Meets.bind initializeRun_meets fun _ => ?_
  refine Meets.bind plan_meets fun _ => ?_
  exact transition_meets rfl nofun

theorem loop_honoured (n : Nat) (run : AgentRun World) :
    ((do iterate engine config n; conclude engine config : AgentM World Unit).run
      run).state.honoured = ((iterate engine config n).run run).state.honoured := by
  cases hloop : (iterate engine config n).run run with
  | ok u run' =>
      rw [EStateM.run_bind_of_ok hloop]
      exact conclude_honoured run'
  | error e run' => rw [EStateM.run_bind_of_error hloop]

/-- The body of a run honours a pause exactly where its loop finds one. -/
theorem honoured_lifecycle_iff {run : AgentRun World} (hrun : At .created run) :
    ((lifecycle engine config).run run).state.honoured ↔
      ¬ ∀ run', (enter engine).run run = .ok () run' →
        Unpaused engine config config.maxIterations.toNat run' := by
  have hnot : ¬ run.honoured := hrun.2.2
  have henter := @enter_honoured _ engine run
  have hmeets := @enter_meets _ engine run hrun
  rw [lifecycle_eq]
  cases hrun' : (enter engine).run run with
  | ok u run' =>
      rw [EStateM.run_bind_of_ok hrun', loop_honoured,
        honoured_iterate_iff _ run' (hmeets.1 u run' hrun')]
      refine not_congr ⟨fun h _ hok => ?_, fun h => h run' rfl⟩
      cases hok
      exact h
  | error e run' =>
      rw [hrun'] at henter
      rw [EStateM.run_bind_of_error hrun']
      refine ⟨fun h => absurd (henter.mp h) hnot, fun h => absurd ?_ h⟩
      exact fun _ hok => by cases hok

/-- What the end of a run makes of what the body has left. -/
theorem lawful_terminate_iff {error : Option String} (run : AgentRun World) :
    (Legal run.moves ∧ EndedAlike run.state run.goalStatus →
      Lawful ((terminate engine error).run run)) ∧
    ((terminate engine error).run run).state.moves = run.moves ∧
    (∀ result run', (terminate engine error).run run = .ok result run' →
      result.state = run.state ∧ result.goalStatus = run.goalStatus) := by
  have hmeets := @terminate_meets _ engine error run.record run rfl
  cases hrun : (terminate engine error).run run with
  | ok result run' =>
      obtain ⟨hrecord, hstate, hgoal⟩ := hmeets.1 result run' hrun
      have hmoves : run'.moves = run.moves := congrArg (fun r => r.2.1) hrecord
      refine ⟨fun h => ⟨?_, ?_⟩, hmoves, ?_⟩
      · show Legal run'.moves
        rw [hmoves]
        exact h.1
      · rintro _ _ hok
        cases hok
        rw [hstate, hgoal]
        exact .inl h.2
      · rintro _ _ hok
        cases hok
        exact ⟨hstate, hgoal⟩
  | error e run' =>
      have hmoves : run'.moves = run.moves := congrArg (fun r => r.2.1) (hmeets.2 e run' hrun)
      refine ⟨fun h => ⟨?_, fun _ _ hok => by cases hok⟩, hmoves, fun _ _ hok => by cases hok⟩
      show Legal run'.moves
      rw [hmoves]
      exact h.1

/-- What the end of a run makes of a body that has ended. -/
theorem runGoal_of_ok {run run' : AgentRun World}
    (h : (lifecycle engine config).run run.begin = .ok () run') :
    (runGoal engine config).run run = (terminate engine none).run run' := by
  show runGoal engine config run = _
  unfold runGoal
  rw [show lifecycle engine config run.begin = _ from h]
  rfl

theorem runGoal_of_exception {run run' : AgentRun World} {e : AgentError}
    (h : (lifecycle engine config).run run.begin = .error e run') (he : e.isException = true) :
    (runGoal engine config).run run = (terminate engine (some e.text)).run run'.fail := by
  show runGoal engine config run = _
  unfold runGoal
  rw [show lifecycle engine config run.begin = _ from h]
  exact if_pos he

theorem runGoal_of_exit {run run' : AgentRun World} {e : AgentError}
    (h : (lifecycle engine config).run run.begin = .error e run') (he : e.isException = false) :
    (runGoal engine config).run run = .error e run' := by
  show runGoal engine config run = _
  unfold runGoal
  rw [show lifecycle engine config run.begin = _ from h]
  exact if_neg (by rw [he]; exact Bool.false_ne_true)

/-- A failure after an exception is lawful exactly where the table has it. -/
theorem lawful_fail_iff {error : Option String} {run : AgentRun World} (hlegal : Legal run.moves) :
    Lawful ((terminate engine error).run run.fail) ↔ canTransition run.state .failed = true := by
  obtain ⟨hlawful, hmoves, -⟩ := @lawful_terminate_iff _ engine error run.fail
  refine ⟨fun h => ?_, fun hfail =>
    hlawful ⟨legal_append.mpr ⟨hlegal, hfail⟩, .inr (.inl rfl)⟩⟩
  have hafter := h.legal
  rw [hmoves] at hafter
  exact (legal_append.mp hafter).2

theorem proper_iff {run : AgentRun World} (h : run.state = .created) :
    Proper engine config run ↔ ¬ ((lifecycle engine config).run run.begin).state.honoured := by
  have hbegin : At .created run.begin := ⟨h, nofun, nofun⟩
  rw [honoured_lifecycle_iff hbegin, not_not]
  refine ⟨fun hproper => ?_, fun hpause => .inl ⟨h, hpause⟩⟩
  rcases hproper with ⟨-, hpause⟩ | hfail
  · exact hpause
  · rw [h] at hfail
    cases hfail

/-- A run keeps to the state machine, and ends as it says, if it begins where it may and finds no
pause.  A run that returns does so only then. -/
theorem lawful_iff (engine : Engine World) (config : AgentConfig) (run : AgentRun World) :
    (Proper engine config run → Lawful ((runGoal engine config).run run)) ∧
    ∀ result run', (runGoal engine config).run run = .ok result run' →
      Lawful ((runGoal engine config).run run) → Proper engine config run := by
  by_cases hcreated : run.state = .created
  · rw [proper_iff hcreated]
    have hmeets := @lifecycle_meets _ engine config run.begin ⟨hcreated, nofun, nofun⟩
    cases hbody : (lifecycle engine config).run run.begin with
    | ok u run₁ =>
        rw [runGoal_of_ok hbody]
        obtain ⟨hlawful, -, hresult⟩ := @lawful_terminate_iff _ engine none run₁
        obtain ⟨hlegal, ⟨hpause, halike⟩ | ⟨hpause, hpaused, hcompleted⟩⟩ := hmeets.1 u run₁ hbody
        · exact ⟨fun _ => hlawful ⟨hlegal, halike⟩, fun _ _ _ _ => hpause⟩
        · refine ⟨fun h => absurd hpause h, fun result run' hok h => ?_⟩
          obtain ⟨hstate, hgoal⟩ := hresult result run' hok
          rw [hpaused] at hstate
          rw [hcompleted] at hgoal
          rcases h.ended result run' hok with halike | ⟨-, -, hnot, -⟩
          · rw [EndedAlike, hstate] at halike
            simp at halike
          · exact absurd hgoal hnot
    | error e run₁ =>
        have hraised := hmeets.2 e run₁ hbody
        have hlegal : Legal run₁.moves := by
          rcases hraised with ⟨state, hstate, -⟩ | hpaused
          · exact hstate.2.1
          · exact hpaused.2.1
        cases he : e.isException with
        | false =>
            rw [runGoal_of_exit hbody he]
            exact ⟨fun _ => ⟨hlegal, fun _ _ hok => by cases hok⟩, fun _ _ hok => by cases hok⟩
        | true =>
            rw [runGoal_of_exception hbody he, lawful_fail_iff hlegal]
            rcases hraised with ⟨state, ⟨rfl, -, hpause⟩, hcan⟩ | ⟨hstate, -, hpause⟩
            · exact ⟨fun _ => hcan, fun _ _ _ _ => hpause⟩
            · refine ⟨fun h => absurd hpause h, fun _ _ _ h => ?_⟩
              rw [hstate] at h
              cases h
  · have hbody := @lifecycle_of_ne _ engine config run.begin hcreated
    rw [runGoal_of_exception hbody rfl, @lawful_fail_iff _ engine _ run.begin nofun]
    exact ⟨fun h => h.resolve_left fun ⟨hstate, _⟩ => hcreated hstate, fun _ _ _ h => .inr h⟩

end

/-- A request to pause arrives at every wait, and one task is planned. -/
def pausing : Engine Unit where
  configure := pure ()
  publish _ := pure ()
  plan := pure (TaskGraph.empty.add (.planned "Write the script" .reason "work_0" [] []))
  execute _ := pure ()
  replan := pure ()
  reflect := pure ""
  remember _ := pure ()
  evaluate := pure ()
  finalOutput := pure "No output produced."
  requests _ := ([.pause], ())

def created : AgentRun Unit where
  state := .created
  paused := false
  cancelled := false
  goalStatus := .pending
  moves := []
  shared := ⟨TaskGraph.empty, ()⟩

/-- The pause is honoured; then `REFLECTING` is refused, and the run goes from `PAUSED` to
`FAILED`. -/
theorem paused_run_failed :
    ¬ Lawful ((runGoal pausing ⟨4096, 6, 25, true, true, none, ""⟩).run created) := by
  intro h
  have hmove : (.paused, .failed) ∈
      ((runGoal pausing ⟨4096, 6, 25, true, true, none, ""⟩).run created).state.moves := by decide
  have hlegal := h.legal _ hmove
  cases hlegal

end YoutubeFactory.AgentCore
