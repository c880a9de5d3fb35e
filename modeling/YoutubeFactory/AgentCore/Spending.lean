import YoutubeFactory.AgentCore.Agent

/-!
# The budget of a run

`add_usage` refuses what goes over a ceiling after it has been used, and the component that
completes at that moment ends.  Nothing else does: the planner goes on without an outline, the
executor with the next task.
-/

namespace YoutubeFactory.AgentCore

open EStateM (Meets Keeps Preserves)

section

variable {Env World α : Type} {services : Services Env} {policy : AgentPolicy}
  {config : AgentConfig} {goal : Goal}

/-! ## What the record of a context says -/

/-- If every component was entered within the ceilings, every completion has started so. -/
def Guarded (policy : AgentPolicy) (context : Context Env) : Prop :=
  (∀ used ∈ context.entered, policy.Within used) →
    ∀ used ∈ context.completions, policy.Within used

/-- Between two components: each one that was entered has started a completion. -/
structure Settled (policy : AgentPolicy) (context : Context Env) : Prop where
  guarded : Guarded policy context
  reached : ∀ used ∈ context.entered, used ∈ context.completions

/-- What holds where a completion may start. -/
def Allows (policy : AgentPolicy) (context : Context Env) : Prop :=
  (∀ used ∈ context.entered, policy.Within used) → policy.Within context.policyState

/-- A component that has been entered and may complete. -/
structure Open (policy : AgentPolicy) (context : Context Env) : Prop where
  guarded : Guarded policy context
  allows : Allows policy context
  reached : ∀ used ∈ context.entered, used ∈ context.completions ∨ used = context.policyState

/-- A component that has completed, and may again. -/
def Working (policy : AgentPolicy) (context : Context Env) : Prop :=
  Settled policy context ∧ Allows policy context

/-- A component that has failed may complete again, unless its policy has refused. -/
def Refused (policy : AgentPolicy) (e : AgentError) (context : Context Env) : Prop :=
  Settled policy context ∧ (e.isPolicy = false → Allows policy context)

theorem Working.isOpen {context : Context Env} (h : Working policy context) :
    Open policy context := ⟨h.1.guarded, h.2, fun used hused => .inl (h.1.reached used hused)⟩

theorem Working.refused {context : Context Env} (h : Working policy context) (e : AgentError) :
    Refused policy e context := ⟨h.1, fun _ => h.2⟩

/-- What the record says of a context. -/
def Context.record (context : Context Env) : PolicyState × List PolicyState × List PolicyState :=
  (context.policyState, context.completions, context.entered)

theorem onEnv_keeps (m : Action Env α) : Keeps Context.record (onEnv m) := by
  refine Keeps.zoom ?_ m
  exact fun _ _ => rfl

theorem remember_keeps (scope key value : String) :
    Keeps Context.record (remember scope key value : Action (Context Env) Unit) :=
  Keeps.modify fun _ => rfl

theorem settled_of_keeps {m : Action (Context Env) α} (h : Keeps Context.record m) :
    Preserves (Settled policy) m := by
  intro context hcontext
  have hrecord := h context
  obtain ⟨hguarded, hreached⟩ := hcontext
  have hcompletions := congrArg (fun r => r.2.1) hrecord
  have hentered := congrArg (fun r => r.2.2) hrecord
  simp only [Context.record] at hcompletions hentered
  refine ⟨?_, ?_⟩
  · unfold Guarded
    rw [hentered, hcompletions]
    exact hguarded
  · rw [hentered, hcompletions]
    exact hreached

theorem working_of_keeps {m : Action (Context Env) α} (h : Keeps Context.record m) :
    Preserves (Working policy) m := by
  intro context hcontext
  have hrecord := h context
  refine ⟨settled_of_keeps h context hcontext.1, ?_⟩
  have hstate := congrArg Prod.fst hrecord
  have hentered := congrArg (fun r => r.2.2) hrecord
  simp only [Context.record] at hstate hentered
  unfold Allows
  rw [hentered, hstate]
  exact hcontext.2

/-- A call that the record is none of, where a component works. -/
theorem working_meets {m : Action (Context Env) α} (h : Keeps Context.record m) :
    Meets (Working policy) m (fun _ => Working policy) (Refused policy) :=
  (Meets.of_preserves (working_of_keeps h)).imp (fun _ h => h) (fun _ _ h => h) fun e _ h =>
    h.refused e

/-! ## One completion -/

/-- A component is entered. -/
theorem enterComponent_meets {raised : AgentError → Context Env → Prop} :
    Meets (Settled policy) enterComponent (fun _ => Open policy) raised := by
  refine Meets.modify fun context h => ⟨fun hentered => h.guarded fun used hused => ?_,
    fun hentered => ?_, fun used hused => ?_⟩
  · exact hentered used (List.mem_append_left _ hused)
  · exact hentered _ (List.mem_append_right _ (List.mem_singleton.mpr rfl))
  · rcases List.mem_append.mp hused with hbefore | hnow
    · exact .inl (h.reached used hbefore)
    · exact .inr (List.mem_singleton.mp hnow)

/-- A completion starts. -/
theorem start_meets {raised : AgentError → Context Env → Prop} :
    Meets (Open policy) (modify fun context =>
      { context with completions := context.completions ++ [context.policyState] })
      (fun _ => Working policy) raised := by
  refine Meets.modify fun context h => ⟨⟨fun hentered used hused => ?_, fun used hused => ?_⟩,
    h.allows⟩
  · rcases List.mem_append.mp hused with hbefore | hnow
    · exact h.guarded hentered used hbefore
    · rw [List.mem_singleton.mp hnow]
      exact h.allows hentered
  · rcases h.reached used hused with hbefore | hnow
    · exact List.mem_append_left _ hbefore
    · exact List.mem_append_right _ (List.mem_singleton.mpr hnow)

/-- What is used up is refused, or else within the ceilings. -/
theorem addUsage_meets (costUsd : ℚ) (tokens : Int) :
    Meets (Settled policy) (addUsage policy costUsd tokens : Action (Context Env) Unit)
      (fun _ => Working policy) (Refused policy) := by
  unfold addUsage
  have hused : Meets (Settled policy) (modify fun context : Context Env =>
      { context with
        policyState.costUsd := context.policyState.costUsd + costUsd
        policyState.tokens := context.policyState.tokens + tokens })
      (fun _ => Settled policy) (Refused policy) :=
    Meets.modify fun context h => ⟨h.guarded, h.reached⟩
  refine Meets.bind hused fun _ => ?_
  refine Meets.get_bind fun context hcontext => ?_
  split
  · exact Meets.throw fun _ h => ⟨h ▸ hcontext, nofun⟩
  · next hcost =>
      split
      · exact Meets.throw fun _ h => ⟨h ▸ hcontext, nofun⟩
      · next htokens =>
          refine Meets.pure fun _ h => ?_
          subst h
          exact ⟨hcontext, fun _ => ⟨not_lt.mp hcost, not_lt.mp htokens⟩⟩

theorem complete_meets (prompt : String) (system : Option String) :
    Meets (Open policy) (complete services policy config prompt system)
      (fun _ => Working policy) (Refused policy) := by
  unfold complete
  refine Meets.bind start_meets fun _ => ?_
  refine Meets.bind (working_meets (onEnv_keeps _)) fun reply => ?_
  refine Meets.bind ((addUsage_meets _ _).imp (fun _ h => h.1) (fun _ _ h => h) fun _ _ h => h)
    fun _ => Meets.pure fun _ h => h

/-- A component that completes once, and handles the exceptions. -/
theorem handled_complete_preserves (prompt : String) (system : Option String) {β : Type}
    {rest : Except AgentError String → Action (Context Env) β}
    (hrest : ∀ reply, Preserves (Settled policy) (rest reply)) :
    Preserves (Settled policy) (do
      enterComponent
      let reply ← EStateM.handled AgentError.isException
        (complete services policy config prompt system)
      rest reply) := by
  refine Meets.preserves (Meets.bind enterComponent_meets fun _ => ?_)
  have hhandled := @Meets.handled _ _ _ _ _ _ AgentError.isException _
    (@complete_meets _ services policy config prompt system)
  refine Meets.bind (hhandled.imp (fun _ h => h) (fun reply _ h => ?_) fun _ _ h => h.1)
    fun reply => Meets.of_preserves (hrest reply)
  cases reply with
  | ok text => exact h.1
  | error e => exact h.1

/-! ## The executor -/

theorem dispatch_meets {task : AgentTask} (h : task.kind.completes = true) :
    Meets (Open policy) (dispatch services policy config goal task) (fun _ => Working policy)
      (Refused policy) := by
  have hcomplete := @complete_meets _ services policy config
  have hreason : Meets (Open policy) (reason services policy config goal task)
      (fun _ => Working policy) (Refused policy) := by
    unfold reason
    refine Meets.get_bind fun context hcontext => ?_
    refine Meets.bind ((hcomplete _ _).imp (fun _ h => h ▸ hcontext) (fun _ _ h => h)
      fun _ _ h => h) fun thought => ?_
    exact Meets.bind (working_meets (remember_keeps _ _ _)) fun _ => Meets.pure fun _ h => h
  have hllm : Meets (Open policy) (runLLM services policy config goal task)
      (fun _ => Working policy) (Refused policy) := by
    unfold runLLM
    refine Meets.get_bind fun context hcontext => ?_
    refine Meets.bind ((hcomplete _ _).imp (fun _ h => h ▸ hcontext) (fun _ _ h => h)
      fun _ _ h => h) fun output => ?_
    exact Meets.bind (working_meets (remember_keeps _ _ _)) fun _ => Meets.pure fun _ h => h
  unfold dispatch
  cases hkind : task.kind with
  | reason => exact hreason
  | llm => exact hllm
  | workflow => exact hreason
  | custom => exact hreason
  | tool => rw [hkind] at h; cases h
  | delegate => rw [hkind] at h; cases h

/-- A task that does not complete leaves the record. -/
theorem dispatch_keeps {task : AgentTask} (h : task.kind.completes = false) :
    Keeps Context.record (dispatch services policy config goal task) := by
  have htool : Keeps Context.record (runTool services policy task) := by
    refine Keeps.get_bind fun context => ?_
    refine Keeps.bind (Keeps.get_bind fun context => ?_) (fun _ => ?_) context
    · split
      · rfl
      · split <;> rfl
    · refine Keeps.bind (onEnv_keeps _) fun outcome => Keeps.bind (onEnv_keeps _) fun _ => ?_
      split
      · exact Keeps.pure _
      · exact Keeps.throw _
  unfold dispatch
  cases hkind : task.kind with
  | tool => exact htool
  | delegate => exact Keeps.pure _
  | reason => rw [hkind] at h; cases h
  | llm => rw [hkind] at h; cases h
  | workflow => rw [hkind] at h; cases h
  | custom => rw [hkind] at h; cases h

/-- The kind of the task that is run. -/
def kindOf (s : AgentTask × Context Env) : TaskKind := s.1.kind

theorem inContext_kind (m : Action (Context Env) α) : Keeps kindOf (inContext m) :=
  inContext_view AgentTask.kind m

theorem inContext_meets {m : Action (Context Env) α} {pre : Context Env → Prop}
    {post : α → Context Env → Prop} {raised : AgentError → Context Env → Prop}
    (h : Meets pre m post raised) :
    Meets (fun s => pre s.2) (inContext m) (fun a s => post a s.2) fun e s => raised e s.2 := by
  refine Meets.zoom ?_ h
  exact fun _ _ => rfl

theorem writeTask_context (f : AgentTask → AgentTask) (inv : Context Env → Prop) :
    Preserves (fun s => inv s.2) (writeTask f : TaskM Env Unit) := Preserves.modify fun _ h => h

theorem tryOnce_kind : Keeps kindOf (tryOnce services policy config goal) :=
  tryOnce_view fun _ _ _ _ _ => rfl

theorem publishFinished_meets {pre : Context Env → Prop}
    {raised : AgentError → Context Env → Prop}
    (h : ∀ m : Action Env Unit, Meets pre (onEnv m) (fun _ => pre) raised) :
    Meets (fun s => pre s.2) (publishFinished services) (fun _ s => pre s.2)
      fun e s => raised e s.2 := by
  refine Meets.get_bind fun s hs => ?_
  exact (inContext_meets (h _)).imp (fun _ h => h ▸ hs) (fun _ _ h => h) fun _ _ h => h

theorem onEnv_settled (m : Action Env α) :
    Meets (Settled policy) (onEnv m) (fun _ => Settled policy) fun _ => Settled policy :=
  Meets.of_preserves (settled_of_keeps (onEnv_keeps m))

theorem failTask_settled (error : Option String) :
    Meets (fun s => Settled policy s.2) (failTask services error)
      (fun _ s => Settled policy s.2) fun _ s => Settled policy s.2 := by
  refine Meets.bind (Meets.of_preserves (writeTask_context _ _)) fun _ => ?_
  exact publishFinished_meets onEnv_settled

theorem tryOnce_meets :
    Meets (fun s => (kindOf s).completes = true ∧ Open policy s.2)
      (tryOnce services policy config goal) (fun _ s => Settled policy s.2)
      fun e s => Settled policy s.2 ∧ (e.isPolicy = false → Open policy s.2) := by
  have hwrite : ∀ result, Meets (fun s => Working policy s.2)
      (writeTask fun task => { task with status := .succeeded, result := some result } :
        TaskM Env Unit) (fun _ s => Working policy s.2) fun e s => Refused policy e s.2 :=
    fun _ => Meets.modify fun _ h => h
  have hbody : Meets (fun s => (kindOf s).completes = true ∧ Open policy s.2)
      (tryOnce services policy config goal) (fun _ s => Working policy s.2)
      fun e s => Refused policy e s.2 := by
    refine Meets.get_bind fun s hs => ?_
    refine Meets.bind ((inContext_meets (dispatch_meets hs.1)).imp (fun _ h => h ▸ hs.2)
      (fun _ _ h => h) fun _ _ h => h) fun result => ?_
    exact Meets.bind (hwrite result) fun _ =>
      publishFinished_meets fun m => working_meets (onEnv_keeps m)
  refine hbody.imp (fun _ h => h) (fun _ _ h => h.1) fun e s h => ⟨h.1, fun he => ?_⟩
  exact Working.isOpen ⟨h.1, h.2 he⟩

/-- An attempt at a task that does not complete. -/
theorem tryOnce_other_meets :
    Meets (fun s => (kindOf s).completes = false ∧ Settled policy s.2)
      (tryOnce services policy config goal) (fun _ s => Settled policy s.2)
      fun e s => Settled policy s.2 ∧ (e.isPolicy = false → Settled policy s.2) := by
  have hbody : Meets (fun s => (kindOf s).completes = false ∧ Settled policy s.2)
      (tryOnce services policy config goal) (fun _ s => Settled policy s.2)
      fun _ s => Settled policy s.2 := by
    refine Meets.get_bind fun s hs => ?_
    have hdispatch := Meets.of_preserves (@settled_of_keeps _ _ policy _
      (@dispatch_keeps _ services policy config goal _ hs.1))
    refine Meets.bind ((inContext_meets hdispatch).imp (fun _ h => h ▸ hs.2)
      (fun _ _ h => h) fun _ _ h => h) fun result => ?_
    exact Meets.bind (Meets.of_preserves (writeTask_context _ _)) fun _ =>
      publishFinished_meets onEnv_settled
  exact hbody.imp (fun _ h => h) (fun _ _ h => h) fun _ _ h => ⟨h, fun _ => h⟩

/-- The attempts end where the policy refuses; what holds before an attempt holds again before the
next. -/
theorem attempts_meets {completes : Bool} {pre : Context Env → Prop}
    (htry : Meets (fun s => (kindOf s).completes = completes ∧ pre s.2) (tryOnce services policy config goal)
      (fun _ s => Settled policy s.2)
      fun e s => Settled policy s.2 ∧ (e.isPolicy = false → pre s.2)) :
    ∀ n made error, Meets
      (fun s => (kindOf s).completes = completes ∧ pre s.2 ∧ (n = 0 → Settled policy s.2))
      (attempts services policy config goal n made error)
      (fun _ s => Settled policy s.2) fun _ s => Settled policy s.2
  | 0, made, error => (failTask_settled error).imp (fun _ h => h.2.2 rfl) (fun _ _ h => h)
      fun _ _ h => h
  | n + 1, made, error => by
      have hkinds := @Meets.and_keeps _ _ _ _ _ _ _ _ (fun kind => kind.completes = completes) _
        (@tryOnce_kind _ services policy config goal) htry
      have hwrite : Meets
          (fun s => (kindOf s).completes = completes ∧ pre s.2 ∧ (n + 1 = 0 → Settled policy s.2))
          (writeTask fun task => { task with attempts := made + 1 } : TaskM Env Unit)
          (fun _ s => (kindOf s).completes = completes ∧ pre s.2) fun _ s => Settled policy s.2 :=
        Meets.modify fun _ h => ⟨h.1, h.2.1⟩
      unfold attempts
      refine Meets.bind hwrite fun _ => ?_
      refine Meets.bind ((Meets.handled hkinds).imp (fun _ h => ⟨h.1, h⟩) (fun _ _ h => h)
        fun _ _ h => h.2.1) fun reply => ?_
      cases reply with
      | ok u => exact Meets.pure fun _ h => h.2
      | error e =>
          refine Meets.get_bind fun s hs => ?_
          obtain ⟨hkind, hsettled, hagain⟩ := hs
          split
          · exact (failTask_settled _).imp (fun _ h => h ▸ hsettled) (fun _ _ h => h)
              fun _ _ h => h
          · next he =>
              exact (attempts_meets htry n _ _).imp
                (fun _ h => h ▸ ⟨hkind, hagain (Bool.eq_false_iff.mpr he), fun _ => hsettled⟩)
                (fun _ _ h => h) fun _ _ h => h

theorem checkStep_settled : Preserves (Settled policy) (checkStep policy : Action (Context Env) _) := by
  refine Preserves.bind (Preserves.modify fun _ h => ⟨h.guarded, h.reached⟩) fun _ => ?_
  refine Preserves.get_bind fun context h => ?_
  split <;> exact h

/-- A task leaves a settled record, however it ends. -/
theorem executeTask_meets :
    Meets (fun s => Settled policy s.2) (executeTask services policy config goal)
      (fun _ s => Settled policy s.2) fun _ s => Settled policy s.2 := by
  unfold executeTask
  refine Meets.bind (inContext_meets (Meets.of_preserves checkStep_settled)) fun _ => ?_
  refine Meets.get_bind fun s hs => ?_
  have hwrite : Meets (· = s)
      (writeTask fun task => { task with status := .running } : TaskM Env Unit)
      (fun _ s' => kindOf s' = kindOf s ∧ Settled policy s'.2) fun _ s => Settled policy s.2 :=
    Meets.modify fun _ h => by
      subst h
      exact ⟨rfl, hs⟩
  refine Meets.bind hwrite fun _ => ?_
  unfold enterTask
  rw [bind_assoc]
  refine Meets.get_bind fun s' hs' => ?_
  split
  · next hcompletes =>
      have henter := @Meets.and_keeps _ _ _ _ _ _ _ _ (fun kind => kind = kindOf s') _
        (inContext_kind (@enterComponent Env))
        (inContext_meets (@enterComponent_meets _ policy fun _ => Settled policy))
      have hstart : ∀ s, s = s' → kindOf s = kindOf s' ∧ Settled policy s.2 := by
        rintro _ rfl
        exact ⟨rfl, hs'.2⟩
      refine Meets.bind (henter.imp hstart (fun _ _ h => h) fun _ _ h => h.2) fun _ => ?_
      refine (attempts_meets tryOnce_meets _ _ _).imp (fun s'' h => ⟨?_, h.2, ?_⟩)
        (fun _ _ h => h) fun _ _ h => h
      · rw [h.1]
        exact hcompletes.1
      · intro hzero
        have := hcompletes.2
        omega
  · next hcompletes =>
      rw [pure_bind]
      by_cases hkind : s'.1.kind.completes = true
      · have hretries : (policy.retriesFor s.1.maxRetries + 1).toNat = 0 := by
          have hnot : ¬ 0 ≤ policy.retriesFor s.1.maxRetries := fun h => hcompletes ⟨hkind, h⟩
          omega
        rw [hretries]
        exact (failTask_settled _).imp (fun _ h => h ▸ hs'.2) (fun _ _ h => h) fun _ _ h => h
      · refine (attempts_meets tryOnce_other_meets _ _ _).imp
          (fun s'' h => h ▸ ⟨Bool.eq_false_iff.mpr hkind, hs'.2, fun _ => hs'.2⟩)
          (fun _ _ h => h) fun _ _ h => h

theorem runTask_preserves (task : AgentTask) :
    HookPreserves (Settled policy) (runTask services policy config goal task) := by
  intro shared hshared
  show Settled policy (runTask services policy config goal task shared).state.world
  unfold runTask
  cases shared.graph.get task.key with
  | none => exact hshared
  | some task =>
      have htask := Meets.preserves (@executeTask_meets _ services policy config goal)
        (task, shared.world) hshared
      change Settled policy (executeTask services policy config goal
        (task, shared.world)).state.2 at htask
      dsimp only
      cases hrun : executeTask services policy config goal (task, shared.world) with
      | ok u s =>
          rw [hrun] at htask
          exact htask
      | error e s =>
          rw [hrun] at htask
          exact htask

/-! ## The other components -/

theorem onWorld_preserves {inv : World → Prop} {m : Action World α} (h : Preserves inv m) :
    HookPreserves inv (onWorld m) := by
  refine Preserves.zoom ?_ h
  exact fun _ _ => rfl

theorem withGraph_preserves {inv : Context Env → Prop} {m : TaskGraph → Action (Context Env) α}
    (h : ∀ graph, Preserves inv (m graph)) : HookPreserves inv (withGraph m) :=
  Preserves.get_bind fun shared hshared => onWorld_preserves (h _) shared hshared

theorem planGoal_settled (decompose : List String → TaskGraph) :
    Preserves (Settled policy) (planGoal services policy config goal decompose) := by
  have houtline : Preserves (Settled policy) (outline services policy config goal) := by
    refine handled_complete_preserves _ _ fun reply => ?_
    cases reply <;> exact Preserves.pure _
  refine Preserves.bind houtline fun steps => ?_
  exact Preserves.bind (settled_of_keeps (remember_keeps _ _ _)) fun _ => Preserves.pure _

theorem reflectOn_settled (graph : TaskGraph) :
    Preserves (Settled policy) (reflectOn services policy config goal graph) :=
  handled_complete_preserves _ _ fun _ =>
    Preserves.bind (Preserves.modify fun _ h => ⟨h.guarded, h.reached⟩) fun _ => Preserves.pure _

theorem recoverFrom_settled : ∀ failed graph,
    Preserves (Settled policy) (recoverFrom services failed graph)
  | [], _ => Preserves.pure _
  | _ :: failed, _ => Preserves.bind (fun _ h => ⟨h.guarded, h.reached⟩) fun _ =>
      recoverFrom_settled failed _

theorem replan_preserves : HookPreserves (Settled policy) (replan services) := by
  refine Preserves.get_bind fun shared hshared => ?_
  refine Preserves.bind (onWorld_preserves (recoverFrom_settled _ _)) (fun graph => ?_) shared
    hshared
  exact Preserves.modify fun _ h => h

theorem engineWith_preserves (decompose : List String → TaskGraph) :
    (engineWith services policy config goal decompose).Preserves (Settled policy) where
  configure := onWorld_preserves (settled_of_keeps (onEnv_keeps _))
  publish _ := onWorld_preserves (settled_of_keeps (onEnv_keeps _))
  plan := onWorld_preserves (planGoal_settled decompose)
  execute := runTask_preserves
  replan := replan_preserves
  reflect := withGraph_preserves reflectOn_settled
  remember _ := onWorld_preserves (settled_of_keeps (remember_keeps _ _ _))
  evaluate := withGraph_preserves fun _ => settled_of_keeps (onEnv_keeps _)
  finalOutput := withGraph_preserves fun _ => settled_of_keeps (onEnv_keeps _)
  requests _ h := ⟨h.guarded, h.reached⟩

/-- Every completion of a run starts within the ceilings exactly if every component that completes
is entered within them. -/
theorem within_ceilings_iff (services : Services Env) (policy : AgentPolicy)
    (config : AgentConfig) (goal : Goal) (decompose : List String → TaskGraph)
    (state : AgentState) (paused cancelled : Bool) (goalStatus : GoalStatus)
    (memory : OrderedMap (String × String) String) (lessons : List String) (env : Env) :
    let run := agentIn state paused cancelled goalStatus (Context.start memory lessons env)
    let context := ((runGoal (engineWith services policy config goal decompose) config).run
      run).state.shared.world
    (∀ used ∈ context.completions, policy.Within used) ↔
      ∀ used ∈ context.entered, policy.Within used := by
  intro run context
  have hsettled : Settled policy context :=
    @runGoal_preserves _ _ config _ (engineWith_preserves decompose) run ⟨nofun, nofun⟩
  exact ⟨fun h used hused => h used (hsettled.reached used hused), hsettled.guarded⟩

end

/-- Every reply has used more than the ceiling on tokens. -/
def wordy : Services Unit where
  complete _ := pure ⟨"", 100001, 0, 0⟩
  configure := pure ()
  publish _ := pure ()
  search _ _ := []
  policies _ := []
  mutating _ _ := none
  approved _ _ := false
  runTool _ _ := pure ⟨"", true, none⟩
  newId env := (0, env)
  seconds _ := "120.0"
  evaluate _ := pure ()
  finalOutput _ := pure "No output produced."
  requests env := ([], env)

/-- The outline is refused and forgotten, and the first task completes over the ceiling. -/
theorem completes_over_ceiling :
    ¬ ∀ used ∈ ((runGoal (baseEngine wordy .default ⟨4096, 6, 25, true, true, none, ""⟩
        ⟨"Make a video", [], none, []⟩) ⟨4096, 6, 25, true, true, none, ""⟩).run
      (agentIn .created false false .pending
        (Context.start .empty [] ()))).state.shared.world.completions,
      AgentPolicy.default.Within used := by decide +kernel

end YoutubeFactory.AgentCore
