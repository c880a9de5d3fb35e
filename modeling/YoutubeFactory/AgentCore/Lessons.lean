import YoutubeFactory.AgentCore.Agent
import YoutubeFactory.Lib.Bookkeeping
import YoutubeFactory.Lib.FirstKept
import YoutubeFactory.Lib.Run

/-!
# The lessons of several runs

Runs that share one agent memory reflect one after the other, each on its own graph, under its own
policy and with its own model.

A reflection appends its lessons to those in memory and keeps the first fifty.  So what does not
fit is what has just been learned (`fresh_lessons_iff`).
-/

namespace YoutubeFactory.AgentCore

open EStateM FirstKept

/-- A call of `Reflector.reflect`: its run, and the context of that run but for the lessons. -/
structure ReflectCall (Env : Type) where
  services : Services Env
  policy : AgentPolicy
  config : AgentConfig
  goal : Goal
  graph : TaskGraph
  context : Context Env

/-- A context with the lessons of a memory. -/
def Context.withLessons {Env : Type} (stored : List String) (context : Context Env) :
    Context Env :=
  { context with lessons := stored }

namespace ReflectCall

variable {Env : Type}

/-- The call, with lessons in memory. -/
def reflect (call : ReflectCall Env) (stored : List String) :
    EStateM.Result AgentError (Context Env) String :=
  (reflectOn call.services call.policy call.config call.goal call.graph).run
    (call.context.withLessons stored)

/-- The lessons in memory after the call. -/
def step (stored : List String) (call : ReflectCall Env) : List String :=
  (call.reflect stored).state.lessons

/-- The question to the model, with its reply or the exception that is handled. -/
def ask (call : ReflectCall Env) : Action (Context Env) (Except AgentError String) := do
  let succeeded := (call.graph.tasks.filter fun task => task.status = .succeeded).length
  let failed := (call.graph.tasks.filter fun task => task.status = .failed).length
  enterComponent
  let prompt := reflectPrompt call.goal succeeded failed
  EStateM.handled AgentError.isException
    (complete call.services call.policy call.config prompt
      (some "You are a reflective post-mortem assistant."))

/-- The lessons of the reply. -/
def produced (call : ReflectCall Env) : List String :=
  match call.ask.run call.context with
  | .ok reply _ => (reply.toOption.map lessonsOf).getD []
  | .error _ _ => []

/-- After a reflection that returns, the memory is within its bound and has the latest lessons. -/
def Remembers (stored : List String) (call : ReflectCall Env) : Prop :=
  ∀ summary context, call.reflect stored = .ok summary context →
    context.lessons.length ≤ 50 ∧ ∀ lesson ∈ latest 50 call.produced, lesson ∈ context.lessons

/-- Each of the latest lessons that falls on no free place is stored, or repeats one that does. -/
def Fits (stored : List String) (call : ReflectCall Env) : Prop :=
  let free := 50 - stored.length
  ∀ (i : Nat) (lesson : String), free ≤ i → call.produced.length ≤ i + 50 →
    call.produced[i]? = some lesson → lesson ∈ stored ∨ lesson ∈ call.produced.take free

/-! ## What a reflection does to the memory -/

section

variable {stored : List String}

theorem onEnv_withLessons {α : Type} (m : Action Env α) :
    Erases (Context.withLessons stored) (onEnv m) (onEnv m) := by
  intro context
  have henv : (context.withLessons stored).env = context.env := rfl
  change (onEnv m context).mapState _ = onEnv m (context.withLessons stored)
  unfold onEnv EStateM.zoom
  rw [henv]
  cases m context.env with
  | ok a env => rfl
  | error e env => rfl

theorem addUsage_withLessons (policy : AgentPolicy) (costUsd : ℚ) (tokens : Int) :
    Erases (Context.withLessons stored) (addUsage policy costUsd tokens : Action (Context Env) Unit)
      (addUsage policy costUsd tokens) := by
  unfold addUsage
  refine Erases.bind (Erases.modify fun _ => rfl) fun _ => Erases.get_bind fun context => ?_
  show (EStateM.run (if policy.maxCostUsd < context.policyState.costUsd then _ else _) _).mapState _
    = EStateM.run (if policy.maxCostUsd < context.policyState.costUsd then _ else _) _
  split
  · rfl
  · show (EStateM.run (if policy.maxTokens < context.policyState.tokens then _ else _) _).mapState _
      = EStateM.run (if policy.maxTokens < context.policyState.tokens then _ else _) _
    split
    · rfl
    · rfl

/-- A completion does not look at the lessons. -/
theorem complete_withLessons (services : Services Env) (policy : AgentPolicy)
    (config : AgentConfig) (prompt : String) (system : Option String) :
    Erases (Context.withLessons stored) (complete services policy config prompt system)
      (complete services policy config prompt system) := by
  unfold complete
  refine Erases.bind (Erases.modify fun _ => rfl) fun _ => ?_
  refine Erases.bind (onEnv_withLessons _) fun reply => ?_
  exact Erases.bind (addUsage_withLessons policy _ _) fun _ => Erases.pure _

theorem ask_withLessons (call : ReflectCall Env) :
    Erases (Context.withLessons stored) call.ask call.ask := by
  unfold ask
  refine Erases.bind (Erases.modify fun _ => rfl) fun _ => ?_
  exact Erases.handled (complete_withLessons _ _ _ _ _)

/-- A reflection asks, and adds the lessons of the reply. -/
theorem reflect_eq (call : ReflectCall Env) (stored : List String) :
    (∃ summary context, call.reflect stored = .ok summary context ∧
      context.lessons = add 50 stored call.produced) ∨
    ∃ e context, call.reflect stored = .error e context ∧
      context.lessons = stored ∧ call.produced = [] := by
  have hask : (call.ask.run call.context).mapState (Context.withLessons stored) =
      call.ask.run (call.context.withLessons stored) := ask_withLessons call call.context
  have hreflect : call.reflect stored = (call.ask >>= fun reply => do
      let lessons := (reply.toOption.map lessonsOf).getD []
      modify fun context => { context with lessons := (context.lessons ++ lessons).take 50 }
      pure _).run (call.context.withLessons stored) := rfl
  unfold produced
  cases hrun : call.ask.run call.context with
  | ok reply context =>
      rw [hrun] at hask
      rw [hreflect, run_bind_of_ok hask.symm]
      exact .inl ⟨_, _, rfl, rfl⟩
  | error e context =>
      rw [hrun] at hask
      rw [hreflect, run_bind_of_error hask.symm]
      exact .inr ⟨_, _, rfl, rfl, rfl⟩

theorem step_eq (stored : List String) (call : ReflectCall Env) (h : stored.length ≤ 50) :
    step stored call = add 50 stored call.produced := by
  rcases reflect_eq call stored with ⟨summary, context, hrun, hlessons⟩ |
    ⟨e, context, hrun, hlessons, hnone⟩
  · rw [step, hrun]
    exact hlessons
  · rw [step, hrun, hnone, add_nil h]
    exact hlessons

theorem length_step_le (stored : List String) (call : ReflectCall Env) (h : stored.length ≤ 50) :
    (step stored call).length ≤ 50 := by
  rw [step_eq stored call h]
  exact length_add_le 50 stored call.produced

/-- A memory that is full learns nothing any more. -/
theorem run_of_full (h : stored.length = 50) (calls : List (ReflectCall Env)) :
    Run.run step stored calls = stored := by
  have hstep : ∀ s (call : ReflectCall Env), s = stored → step s call = stored := by
    rintro s call rfl
    rw [step_eq s call h.le]
    exact add_of_full h
  exact Run.run_invariant hstep calls rfl

theorem remembers_iff (call : ReflectCall Env) (h : stored.length ≤ 50) :
    Remembers stored call ↔ Fits stored call := by
  unfold Fits
  rw [← latest_kept_iff h]
  rcases reflect_eq call stored with ⟨summary, context, hrun, hlessons⟩ |
    ⟨e, context, hrun, -, hnone⟩
  · constructor
    · intro hremembers
      rw [← hlessons]
      exact (hremembers summary context hrun).2
    · intro hkept summary' context' hrun'
      cases hrun.symm.trans hrun'
      rw [hlessons]
      exact ⟨length_add_le 50 stored call.produced, hkept⟩
  · refine iff_of_true (fun summary context' hrun' => ?_) fun lesson hlesson => ?_
    · cases hrun.symm.trans hrun'
    · rw [hnone] at hlesson
      cases hlesson

/-- The latest lessons are remembered in a run whose new ones fall on free places, and in no
other. -/
theorem fresh_lessons_iff (calls : List (ReflectCall Env)) :
    Run.EveryStep step Remembers [] calls ↔ Run.EveryStep step Fits [] calls := by
  refine Run.everyStep_congr_of_invariant length_step_le ?_ (Nat.zero_le 50)
  exact fun stored call h => remembers_iff call h

end

/-- A model that always replies the same. -/
def replying (text : String) : Services Unit where
  complete _ := pure ⟨text, 0, 0, 0⟩
  configure := pure ()
  publish _ := pure ()
  search _ _ := []
  policies _ := []
  mutating _ _ := none
  approved _ _ := false
  runTool _ _ := pure ⟨"", true, none⟩
  newId env := (⟨0, Nat.pow_pos (Nat.succ_pos 15)⟩, env)
  seconds _ := "120.0"
  evaluate _ := pure ()
  finalOutput _ := pure "No output produced."
  requests env := ([], env)

/-- A reflection on nothing. -/
def onReply (text : String) : ReflectCall Unit where
  services := replying text
  policy := .default
  config := ⟨4096, 6, 25, true, true, none, ""⟩
  goal := ⟨"Make a video", [], none, []⟩
  graph := TaskGraph.empty
  context := Context.start .empty [] ()

/-- What is free is within every ceiling. -/
theorem addUsage_free (context : Context Unit) (hcost : context.policyState.costUsd = 0)
    (htokens : context.policyState.tokens = 0) :
    ∃ context', (addUsage AgentPolicy.default 0 (0 + 0)).run context = .ok ⟨⟩ context' := by
  refine ⟨{ context with
    policyState.costUsd := context.policyState.costUsd + 0
    policyState.tokens := context.policyState.tokens + (0 + 0) }, ?_⟩
  have hcheap : ¬ (1 : ℚ) < context.policyState.costUsd + 0 := by
    rw [hcost]
    norm_num
  have hshort : ¬ (100000 : Int) < context.policyState.tokens + (0 + 0) := by
    rw [htokens]
    norm_num
  unfold addUsage
  show EStateM.run (if (1 : ℚ) < context.policyState.costUsd + 0 then _ else
    if (100000 : Int) < context.policyState.tokens + (0 + 0) then _ else _) _ = _
  rw [if_neg hcheap, if_neg hshort]
  rfl

theorem produced_onReply (text : String) : (onReply text).produced = lessonsOf text := by
  obtain ⟨context, husage⟩ := addUsage_free { (onReply text).context with
    entered := [⟨0, 0, 0⟩], completions := [⟨0, 0, 0⟩] } rfl rfl
  have hask : (onReply text).ask.run (onReply text).context = .ok (.ok text) context := by
    refine run_handled_of_ok (m := complete _ _ _ _ _) ?_
    show (addUsage AgentPolicy.default 0 (0 + 0) >>= fun _ => pure text).run _ = _
    exact run_bind_of_ok husage
  rw [produced, hask]
  rfl

/-- A reply of some lines, each of the same letter. -/
def lines (letter : Char) (n : Nat) : String :=
  String.ofList (List.replicate n [letter, '\n']).flatten

theorem lessonsOf_lines {letter : Char} (h : letter = 'a' ∨ letter = 'b') (n : Nat) :
    lessonsOf (lines letter n) = List.replicate n (String.ofList [letter]) := by
  have hlines : Python.splitLines (lines letter n) = List.replicate n (String.ofList [letter]) := by
    rw [Python.splitLines, lines, String.toList_ofList]
    induction n with
    | zero => rfl
    | succ n ih =>
        rw [List.replicate_succ, List.flatten_cons, List.replicate_succ, ← ih]
        rcases h with rfl | rfl
        · rfl
        · rfl
  have hcleaned : Python.strip (Python.stripChars "-*0123456789. " (String.ofList [letter])) =
      String.ofList [letter] := by
    rw [Python.strip, Python.stripChars, String.toList_ofList, String.toList_ofList]
    rcases h with rfl | rfl
    · rfl
    · rfl
  have hne : String.ofList [letter] ≠ "" := by
    rcases h with rfl | rfl
    · decide
    · decide
  unfold lessonsOf
  dsimp only
  rw [hlines, List.map_replicate, hcleaned, List.filter_replicate, if_pos (decide_eq_true hne)]

/-- The lesson of a second run, behind the fifty of the first. -/
theorem new_lesson_lost :
    let calls := [onReply (lines 'a' 50), onReply (lines 'b' 1)]
    (onReply (lines 'b' 1)).produced = ["b"] ∧
      Run.run step [] calls = List.replicate 50 "a" ∧ ¬ Run.EveryStep step Remembers [] calls := by
  have hfirst : step [] (onReply (lines 'a' 50)) = List.replicate 50 "a" := by
    rw [step_eq [] _ (Nat.zero_le 50), produced_onReply, lessonsOf_lines (.inl rfl)]
    rfl
  have hnew : (onReply (lines 'b' 1)).produced = ["b"] := by
    rw [produced_onReply, lessonsOf_lines (.inr rfl)]
    rfl
  refine ⟨hnew, ?_, ?_⟩
  · rw [Run.run_cons, hfirst]
    exact run_of_full rfl _
  · rintro ⟨-, hremembers, -⟩
    rw [hfirst, remembers_iff _ le_rfl] at hremembers
    have hfits := hremembers 0 "b"
    rw [hnew] at hfits
    rcases hfits (Nat.zero_le _) (by decide) rfl with hstored | hfree
    · exact absurd (List.eq_of_mem_replicate hstored) (by decide)
    · cases hfree

end ReflectCall

end YoutubeFactory.AgentCore
