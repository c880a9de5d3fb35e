import YoutubeFactory.Lib.Stateful

/-!
# Calls that keep books

A call may keep books beside the state that it works on: counters, a history, a log.  Where it
erases to a call without them, the books change nothing else (`Erases`).
-/

namespace EStateM

variable {ε σ τ α β : Type}

theorem run_handled_of_ok {handles : ε → Bool} {m : EStateM ε σ α} {s s' : σ} {a : α}
    (h : m.run s = .ok a s') : (handled handles m).run s = .ok (.ok a) s' := by
  show handled handles m s = _
  rw [handled, show m s = .ok a s' from h]

theorem run_handled_of_error {handles : ε → Bool} {m : EStateM ε σ α} {s s' : σ} {e : ε}
    (h : m.run s = .error e s') (he : handles e = true) :
    (handled handles m).run s = .ok (.error e) s' := by
  show handled handles m s = _
  rw [handled, show m s = .error e s' from h]
  exact if_pos he

def Result.mapState (view : τ → σ) : Result ε τ α → Result ε σ α
  | .ok a t => .ok a (view t)
  | .error e t => .error e (view t)

/-- Seen through the view, the one call does what the other does. -/
def Erases (view : τ → σ) (m : EStateM ε τ α) (m' : EStateM ε σ α) : Prop :=
  ∀ t, (m.run t).mapState view = m'.run (view t)

namespace Erases

variable {view : τ → σ} {m : EStateM ε τ α} {m' : EStateM ε σ α}

theorem pure (a : α) : Erases view (Pure.pure a) (Pure.pure a : EStateM ε σ α) := fun _ => rfl

theorem throw (e : ε) :
    Erases view (MonadExcept.throw e) (MonadExcept.throw e : EStateM ε σ α) := fun _ => rfl

theorem modify {f : τ → τ} {f' : σ → σ} (h : ∀ t, view (f t) = f' (view t)) :
    Erases view (modifyThe τ f : EStateM ε τ PUnit) (modifyThe σ f') := fun t =>
  congrArg (Result.ok _) (h t)

theorem get_bind {f : τ → EStateM ε τ β} {f' : σ → EStateM ε σ β}
    (h : ∀ t, ((f t).run t).mapState view = (f' (view t)).run (view t)) :
    Erases view (MonadState.get >>= f) (MonadState.get >>= f') := h

theorem bind {f : α → EStateM ε τ β} {f' : α → EStateM ε σ β} (hm : Erases view m m')
    (hf : ∀ a, Erases view (f a) (f' a)) : Erases view (m >>= f) (m' >>= f') := by
  intro t
  have hfirst := hm t
  cases hrun : m.run t with
  | ok a t' =>
      rw [hrun] at hfirst
      rw [run_bind_of_ok hrun, run_bind_of_ok hfirst.symm]
      exact hf a t'
  | error e t' =>
      rw [hrun] at hfirst
      rw [run_bind_of_error hrun, run_bind_of_error hfirst.symm]
      rfl

/-- A call that only keeps books, before the others. -/
theorem bind_left {n : EStateM ε τ PUnit} (hn : ∀ t, ∃ t', n.run t = .ok ⟨⟩ t' ∧ view t' = view t)
    (hm : Erases view m m') : Erases view (n >>= fun _ => m) m' := by
  intro t
  obtain ⟨t', hrun, hview⟩ := hn t
  rw [run_bind_of_ok hrun, hm t', hview]

theorem zoom {put : σ → τ → τ} (hput : ∀ s t, view (put s t) = s) (m' : EStateM ε σ α) :
    Erases view (EStateM.zoom view put m') m' := by
  intro t
  show (EStateM.zoom view put m' t).mapState view = m' (view t)
  unfold EStateM.zoom
  split
  · next a s hrun => rw [Result.mapState, hput, hrun]
  · next e s hrun => rw [Result.mapState, hput, hrun]

theorem handled {handles : ε → Bool} (h : Erases view m m') :
    Erases view (handled handles m) (EStateM.handled handles m') := by
  intro t
  have hrun := h t
  change (m t).mapState view = m' (view t) at hrun
  show (EStateM.handled handles m t).mapState view = EStateM.handled handles m' (view t)
  unfold EStateM.handled
  rw [← hrun]
  cases m t with
  | ok a t' => rfl
  | error e t' =>
      show (if handles e = true then _ else _ : Result ε τ _).mapState view =
        if handles e = true then _ else _
      split <;> rfl

end Erases

end EStateM
