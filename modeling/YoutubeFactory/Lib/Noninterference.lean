import YoutubeFactory.Lib.Run

/-!
# Noninterference

A view takes from a state what an observer must not depend on.  A program is confined at a
state when it does the same on the view, and leaves alone what the view has taken away.
Confined programs compose.

A system answers each call.  When every step of a run does the same on the view of its
state, the answers of the run are those of the view's run (`outputs_view`), and two states of
one view give the same answers (`outputs_eq`).
-/

namespace Noninterference

/-! ## Programs -/

section

variable {σ ε α β κ : Type} {view : σ → σ} {kept : σ → κ} {s : σ}

/-- The program does the same on the view, and what is kept is as it was. -/
structure Confined (view : σ → σ) (kept : σ → κ) (m : StateT σ (Except ε) α) (s : σ) : Prop where
  hidden : m.run (view s) = (m.run s).map fun r => (r.1, view r.2)
  kept : ∀ a s', m.run s = .ok (a, s') → kept s' = kept s

namespace Confined

theorem pure (a : α) : Confined view kept (Pure.pure a : StateT σ (Except ε) α) s where
  hidden := rfl
  kept := by
    intro b s' h
    cases h
    rfl

theorem throw (e : ε) : Confined view kept (MonadExcept.throw e : StateT σ (Except ε) α) s where
  hidden := rfl
  kept := by
    intro b s' h
    cases h

/-- A program that looks at the state first, and goes on alike on the view. -/
theorem get_bind {f : σ → StateT σ (Except ε) α} (hview : f (view s) = f s)
    (hf : Confined view kept (f s) s) : Confined view kept (MonadState.get >>= f) s where
  hidden := by
    show (f (view s)).run (view s) = _
    rw [hview]
    exact hf.hidden
  kept := hf.kept

/-- A computation that does not look at the state. -/
theorem lift (x : Except ε α) : Confined view kept (liftM x : StateT σ (Except ε) α) s := by
  cases x with
  | error e => exact throw e
  | ok a => exact pure a

theorem modify {f : σ → σ} (hview : f (view s) = view (f s)) (hkept : kept (f s) = kept s) :
    Confined view kept (modify f : StateT σ (Except ε) PUnit) s where
  hidden := by
    show Except.ok (PUnit.unit, f (view s)) = _
    rw [hview]
    rfl
  kept := by
    intro b s' hrun
    cases hrun
    exact hkept

theorem bind {m : StateT σ (Except ε) α} {f : α → StateT σ (Except ε) β}
    (hm : Confined view kept m s)
    (hf : ∀ a s', m.run s = .ok (a, s') → kept s' = kept s → Confined view kept (f a) s') :
    Confined view kept (m >>= f) s := by
  have hview : (m >>= f).run (view s) =
      (m.run s).map (fun r => (r.1, view r.2)) >>= fun r => (f r.1).run r.2 := by
    rw [StateT.run_bind, hm.hidden]
  cases hrun : m.run s with
  | error e =>
      rw [hrun] at hview
      constructor
      · rw [hview, StateT.run_bind, hrun]
        rfl
      · intro b s' h
        rw [StateT.run_bind, hrun] at h
        cases h
  | ok r =>
      obtain ⟨a, s'⟩ := r
      rw [hrun] at hview
      have hnext := hf a s' hrun (hm.kept a s' hrun)
      constructor
      · rw [hview, StateT.run_bind, hrun]
        exact hnext.hidden
      · intro b s'' h
        rw [StateT.run_bind, hrun] at h
        exact (hnext.kept b s'' h).trans (hm.kept a s' hrun)

end Confined

end

/-! ## Systems -/

variable {State Call Out : Type}

/-- The answers to the calls of a run. -/
def outputs (step : State → Call → Out × State) : State → List Call → List Out
  | _, [] => []
  | s, call :: calls => (step s call).1 :: outputs step (step s call).2 calls

section

variable {step : State → Call → Out × State} {view : State → State}
  {allowed : State → Call → Prop} {Inv : State → Prop}

/-- The calls are answered as on the view of the state. -/
theorem outputs_view
    (hstep : ∀ s call, Inv s → allowed s call →
      step (view s) call = ((step s call).1, view (step s call).2) ∧ Inv (step s call).2) :
    ∀ (calls : List Call) {s : State}, Inv s →
      Run.EveryStep (fun s call => (step s call).2) allowed s calls →
      outputs step (view s) calls = outputs step s calls := by
  intro calls
  induction calls with
  | nil => exact fun _ _ => rfl
  | cons call calls ih =>
      intro s hs hsteps
      obtain ⟨hsame, hinv⟩ := hstep s call hs hsteps.1
      rw [outputs, outputs, hsame, ih hinv hsteps.2]

/-- Two states that differ only in what the view takes away give the same answers. -/
theorem outputs_eq
    (hstep : ∀ s call, Inv s → allowed s call →
      step (view s) call = ((step s call).1, view (step s call).2) ∧ Inv (step s call).2)
    {calls : List Call} {s s' : State} (hview : view s' = view s) (hs : Inv s) (hs' : Inv s')
    (hsteps : Run.EveryStep (fun s call => (step s call).2) allowed s calls)
    (hsteps' : Run.EveryStep (fun s call => (step s call).2) allowed s' calls) :
    outputs step s' calls = outputs step s calls := by
  rw [← outputs_view hstep calls hs hsteps, ← outputs_view hstep calls hs' hsteps', hview]

end

end Noninterference
