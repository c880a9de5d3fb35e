import Mathlib.Init

/-!
# Calls that write and may raise

A call of `EStateM` keeps what it has written when it raises.  A sequence of calls
is run one call at a time, by the result of the first.
-/

namespace EStateM

variable {ε σ α β γ : Type}

/-- What a call has written when it ends. -/
def Result.state : Result ε σ α → σ
  | .ok _ s => s
  | .error _ s => s

/-- What a call has returned, if it has. -/
def Result.value? : Result ε σ α → Option α
  | .ok a _ => some a
  | .error _ _ => none

theorem Result.eq_ok_of_value? {result : Result ε σ α} {a : α} (h : result.value? = some a) :
    result = .ok a result.state := by
  cases result with
  | ok b s =>
      cases h
      rfl
  | error e s => cases h

theorem run_bind_of_ok {m : EStateM ε σ α} {f : α → EStateM ε σ β} {s s' : σ} {a : α}
    (h : m.run s = .ok a s') : (m >>= f).run s = (f a).run s' := by
  rw [run_bind, h]

theorem run_bind_of_error {m : EStateM ε σ α} {f : α → EStateM ε σ β} {s s' : σ} {e : ε}
    (h : m.run s = .error e s') : (m >>= f).run s = .error e s' := by
  rw [run_bind, h]

/-- A sequence that returns: both calls do. -/
theorem run_bind_eq_ok {m : EStateM ε σ α} {f : α → EStateM ε σ β} {s s'' : σ} {b : β}
    (h : (m >>= f).run s = .ok b s'') :
    ∃ a s', m.run s = .ok a s' ∧ (f a).run s' = .ok b s'' := by
  cases hrun : m.run s with
  | ok a s' =>
      rw [run_bind_of_ok hrun] at h
      exact ⟨a, s', rfl, h⟩
  | error e s' =>
      rw [run_bind_of_error hrun] at h
      cases h

theorem run_get_bind (f : σ → EStateM ε σ β) (s : σ) :
    (MonadState.get >>= f).run s = (f s).run s := rfl

/-- A sequence that looks at the state first. -/
theorem get_bind_eq_ok {f : σ → EStateM ε σ β} {s s' : σ} {b : β}
    (h : (MonadState.get >>= f).run s = .ok b s') : (f s).run s = .ok b s' := h

/-- A sequence that changes the state first. -/
theorem modify_bind_eq_ok {g : σ → σ} {f : PUnit → EStateM ε σ β} {s s' : σ} {b : β}
    (h : (modifyThe σ g >>= f).run s = .ok b s') : (f ⟨⟩).run (g s) = .ok b s' := h

theorem run_discard_of_ok {m : EStateM ε σ α} {s s' : σ} {a : α} (h : m.run s = .ok a s') :
    (discard m).run s = .ok () s' := by
  show (EStateM.map _ m) s = _
  rw [EStateM.map, show m s = .ok a s' from h]

theorem run_discard_of_error {m : EStateM ε σ α} {s s' : σ} {e : ε}
    (h : m.run s = .error e s') : (discard m).run s = .error e s' := by
  show (EStateM.map _ m) s = _
  rw [EStateM.map, show m s = .error e s' from h]

/-! ## Calls on a part of the state, and exceptions that are handled -/

/-- A call on the part of the state that `get` reads and `put` writes. -/
def zoom {τ : Type} (get : σ → τ) (put : τ → σ → σ) (m : EStateM ε τ α) : EStateM ε σ α := fun s =>
  match m (get s) with
  | .ok a t => .ok a (put t s)
  | .error e t => .error e (put t s)

/-- What a call returns or raises, if the exception is one that is handled. -/
def handled (handles : ε → Bool) (m : EStateM ε σ α) : EStateM ε σ (Except ε α) := fun s =>
  match m s with
  | .ok a s => .ok (.ok a) s
  | .error e s => if handles e = true then .ok (.error e) s else .error e s

/-- A call after which a view of the state is what it was, returned or raised. -/
def Keeps (view : σ → γ) (m : EStateM ε σ α) : Prop := ∀ s, view (m.run s).state = view s

namespace Keeps

variable {view : σ → γ}

theorem map {δ : Type} {m : EStateM ε σ α} (h : Keeps view m) (g : γ → δ) :
    Keeps (fun s => g (view s)) m := fun s => congrArg g (h s)

theorem pure (a : α) : Keeps view (Pure.pure a : EStateM ε σ α) := fun _ => rfl

theorem throw (e : ε) : Keeps view (MonadExcept.throw e : EStateM ε σ α) := fun _ => rfl

theorem modify {f : σ → σ} (h : ∀ s, view (f s) = view s) :
    Keeps view (modifyThe σ f : EStateM ε σ PUnit) := h

theorem bind {m : EStateM ε σ α} {f : α → EStateM ε σ β} (hm : Keeps view m)
    (hf : ∀ a, Keeps view (f a)) : Keeps view (m >>= f) := by
  intro s
  have hfirst := hm s
  cases hrun : m.run s with
  | ok a s' =>
      rw [run_bind_of_ok hrun, hf a s']
      rwa [hrun] at hfirst
  | error e s' =>
      rw [run_bind_of_error hrun]
      rwa [hrun] at hfirst

theorem discard {m : EStateM ε σ α} (hm : Keeps view m) : Keeps view (discard m) := by
  intro s
  have hfirst := hm s
  cases hrun : m.run s with
  | ok a s' =>
      rw [run_discard_of_ok hrun]
      rwa [hrun] at hfirst
  | error e s' =>
      rw [run_discard_of_error hrun]
      rwa [hrun] at hfirst

/-- A call that looks at the state first. -/
theorem get_bind {f : σ → EStateM ε σ β} (h : ∀ s, view ((f s).run s).state = view s) :
    Keeps view (MonadState.get >>= f) := h

/-- A view that the part which is written is no part of. -/
theorem zoom {τ : Type} {get : σ → τ} {put : τ → σ → σ} (h : ∀ t s, view (put t s) = view s)
    (m : EStateM ε τ α) : Keeps view (zoom get put m) := by
  intro s
  show view (EStateM.zoom get put m s).state = _
  unfold EStateM.zoom
  split <;> exact h ..

/-- A view of the part that a call is on, if the call keeps it. -/
theorem part {τ : Type} {get : σ → τ} {put : τ → σ → σ} (hput : ∀ t s, get (put t s) = t)
    {view : τ → γ} {m : EStateM ε τ α} (h : Keeps view m) :
    Keeps (fun s => view (get s)) (EStateM.zoom get put m) := by
  intro s
  have hview := h (get s)
  change view (m (get s)).state = _ at hview
  show view (get (EStateM.zoom get put m s).state) = _
  unfold EStateM.zoom
  cases hrun : m (get s) with
  | ok a t =>
      rw [hrun] at hview
      exact (congrArg view (hput t s)).trans hview
  | error e t =>
      rw [hrun] at hview
      exact (congrArg view (hput t s)).trans hview

theorem handled {handles : ε → Bool} {m : EStateM ε σ α} (h : Keeps view m) :
    Keeps view (handled handles m) := by
  intro s
  have hview := h s
  change view (m s).state = _ at hview
  show view (EStateM.handled handles m s).state = _
  unfold EStateM.handled
  cases hrun : m s with
  | ok a s' =>
      rw [hrun] at hview
      exact hview
  | error e s' =>
      rw [hrun] at hview
      dsimp only
      split <;> exact hview

theorem forM {f : β → EStateM ε σ PUnit} (h : ∀ b, Keeps view (f b)) :
    ∀ bs : List β, Keeps view (bs.forM f)
  | [] => pure _
  | b :: bs => bind (h b) fun _ => forM h bs

end Keeps

/-- A call that preserves what is said of the state, returned or raised. -/
def Preserves (inv : σ → Prop) (m : EStateM ε σ α) : Prop := ∀ s, inv s → inv (m.run s).state

namespace Preserves

variable {inv : σ → Prop}

theorem of_keeps {view : σ → γ} {p : γ → Prop} {m : EStateM ε σ α} (h : Keeps view m) :
    Preserves (fun s => p (view s)) m := by
  intro s hs
  rw [h s]
  exact hs

theorem pure (a : α) : Preserves inv (Pure.pure a : EStateM ε σ α) := fun _ hs => hs

theorem throw (e : ε) : Preserves inv (MonadExcept.throw e : EStateM ε σ α) := fun _ hs => hs

theorem modify {f : σ → σ} (h : ∀ s, inv s → inv (f s)) :
    Preserves inv (modifyThe σ f : EStateM ε σ PUnit) := h

theorem bind {m : EStateM ε σ α} {f : α → EStateM ε σ β} (hm : Preserves inv m)
    (hf : ∀ a, Preserves inv (f a)) : Preserves inv (m >>= f) := by
  intro s hs
  have hfirst := hm s hs
  cases hrun : m.run s with
  | ok a s' =>
      rw [hrun] at hfirst
      rw [run_bind_of_ok hrun]
      exact hf a s' hfirst
  | error e s' =>
      rw [hrun] at hfirst
      rw [run_bind_of_error hrun]
      exact hfirst

/-- A call that looks at the state first. -/
theorem get_bind {f : σ → EStateM ε σ β} (h : ∀ s, inv s → inv ((f s).run s).state) :
    Preserves inv (MonadState.get >>= f) := h

theorem zoom {τ : Type} {get : σ → τ} {put : τ → σ → σ} (hput : ∀ t s, get (put t s) = t)
    {inv : τ → Prop} {m : EStateM ε τ α} (h : Preserves inv m) :
    Preserves (fun s => inv (get s)) (zoom get put m) := by
  intro s hs
  have hpart := h (get s) hs
  change inv (m (get s)).state at hpart
  show inv (get (EStateM.zoom get put m s).state)
  unfold EStateM.zoom
  cases hrun : m (get s) with
  | ok a t =>
      rw [hrun] at hpart
      exact (hput t s).symm ▸ hpart
  | error e t =>
      rw [hrun] at hpart
      exact (hput t s).symm ▸ hpart

theorem forM {f : β → EStateM ε σ PUnit} (h : ∀ b, Preserves inv (f b)) :
    ∀ bs : List β, Preserves inv (bs.forM f)
  | [] => pure _
  | b :: bs => bind (h b) fun _ => forM h bs

end Preserves

/-! ## What a call leaves -/

/-- From the states of `pre` a call returns as `post` says, or raises as `raised` says. -/
def Meets (pre : σ → Prop) (m : EStateM ε σ α) (post : α → σ → Prop) (raised : ε → σ → Prop) :
    Prop :=
  ∀ s, pre s → (∀ a s', m.run s = .ok a s' → post a s') ∧ ∀ e s', m.run s = .error e s' → raised e s'

namespace Meets

variable {pre pre' : σ → Prop} {post post' : α → σ → Prop} {raised raised' : ε → σ → Prop}

theorem pure {a : α} (h : ∀ s, pre s → post a s) :
    Meets pre (Pure.pure a : EStateM ε σ α) post raised := by
  refine fun s hs => ⟨fun b s' hrun => ?_, fun e s' hrun => ?_⟩
  · cases hrun
    exact h s hs
  · cases hrun

theorem throw {e : ε} (h : ∀ s, pre s → raised e s) :
    Meets pre (MonadExcept.throw e : EStateM ε σ α) post raised := by
  refine fun s hs => ⟨fun b s' hrun => ?_, fun e' s' hrun => ?_⟩
  · cases hrun
  · cases hrun
    exact h s hs

theorem set {s' : σ} {post : PUnit → σ → Prop} (h : ∀ s, pre s → post ⟨⟩ s') :
    Meets pre (MonadState.set s' : EStateM ε σ PUnit) post raised := by
  refine fun s hs => ⟨fun b s'' hrun => ?_, fun e s'' hrun => ?_⟩
  · cases hrun
    exact h s hs
  · cases hrun

theorem modify {f : σ → σ} {post : PUnit → σ → Prop} (h : ∀ s, pre s → post ⟨⟩ (f s)) :
    Meets pre (modifyThe σ f : EStateM ε σ PUnit) post raised := by
  refine fun s hs => ⟨fun b s' hrun => ?_, fun e s' hrun => ?_⟩
  · cases hrun
    exact h s hs
  · cases hrun

theorem bind {m : EStateM ε σ α} {f : α → EStateM ε σ β} {mid : α → σ → Prop}
    {post : β → σ → Prop} (hm : Meets pre m mid raised)
    (hf : ∀ a, Meets (mid a) (f a) post raised) : Meets pre (m >>= f) post raised := by
  intro s hs
  obtain ⟨hok, herror⟩ := hm s hs
  cases hrun : m.run s with
  | ok a s' =>
      rw [run_bind_of_ok hrun]
      exact hf a s' (hok a s' hrun)
  | error e s' =>
      rw [run_bind_of_error hrun]
      refine ⟨fun b s'' h => ?_, fun e' s'' h => ?_⟩
      · cases h
      · cases h
        exact herror e s' hrun

/-- A call that looks at the state first. -/
theorem get_bind {f : σ → EStateM ε σ β} {post : β → σ → Prop}
    (h : ∀ s, pre s → Meets (· = s) (f s) post raised) :
    Meets pre (MonadState.get >>= f) post raised := fun s hs => h s hs s rfl

/-- A call that sets the state first. -/
theorem set_bind {s' : σ} {f : PUnit → EStateM ε σ β} {post : β → σ → Prop}
    (h : Meets (· = s') (f ⟨⟩) post raised) :
    Meets pre (MonadState.set s' >>= f) post raised := fun _ _ => h s' rfl

theorem trivial (m : EStateM ε σ α) : Meets pre m (fun _ _ => True) fun _ _ => True :=
  fun _ _ => ⟨fun _ _ _ => True.intro, fun _ _ _ => True.intro⟩

theorem imp {m : EStateM ε σ α} (h : Meets pre m post raised) (hpre : ∀ s, pre' s → pre s)
    (hpost : ∀ a s, post a s → post' a s) (hraised : ∀ e s, raised e s → raised' e s) :
    Meets pre' m post' raised' := fun s hs =>
  ⟨fun a s' hrun => hpost a s' ((h s (hpre s hs)).1 a s' hrun),
    fun e s' hrun => hraised e s' ((h s (hpre s hs)).2 e s' hrun)⟩

theorem preserves {inv : σ → Prop} {m : EStateM ε σ α}
    (h : Meets inv m (fun _ => inv) fun _ => inv) : Preserves inv m := by
  intro s hs
  obtain ⟨hok, herror⟩ := h s hs
  cases hrun : m.run s with
  | ok a s' => exact hok a s' hrun
  | error e s' => exact herror e s' hrun

theorem of_preserves {inv : σ → Prop} {m : EStateM ε σ α} (h : Preserves inv m) :
    Meets inv m (fun _ => inv) fun _ => inv := by
  intro s hs
  have hinv := h s hs
  refine ⟨fun a s' hrun => ?_, fun e s' hrun => ?_⟩
  · rwa [hrun] at hinv
  · rwa [hrun] at hinv

/-- What is said of a view that the call keeps. -/
theorem of_keeps {view : σ → γ} {p : γ → Prop} {m : EStateM ε σ α} (h : Keeps view m) :
    Meets (fun s => p (view s)) m (fun _ s => p (view s)) fun _ s => p (view s) := by
  intro s hs
  have hview := h s
  refine ⟨fun a s' hrun => ?_, fun e s' hrun => ?_⟩
  · rw [hrun] at hview
    exact hview ▸ hs
  · rw [hrun] at hview
    exact hview ▸ hs

/-- What is said of the part that a call is on. -/
theorem zoom {τ : Type} {get : σ → τ} {put : τ → σ → σ} (hput : ∀ t s, get (put t s) = t)
    {pre : τ → Prop} {m : EStateM ε τ α} {post : α → τ → Prop} {raised : ε → τ → Prop}
    (h : Meets pre m post raised) :
    Meets (fun s => pre (get s)) (zoom get put m) (fun a s => post a (get s))
      fun e s => raised e (get s) := by
  intro s hs
  obtain ⟨hok, herror⟩ := h (get s) hs
  refine ⟨fun a s' hrun => ?_, fun e s' hrun => ?_⟩
  all_goals
    change EStateM.zoom get put m s = _ at hrun
    unfold EStateM.zoom at hrun
    split at hrun
  · next b t hm =>
      cases hrun
      exact (hput t s).symm ▸ hok _ t hm
  · cases hrun
  · cases hrun
  · next b t hm =>
      cases hrun
      exact (hput t s).symm ▸ herror _ t hm

/-- What is left where an exception may have been handled. -/
def Settles (post : α → σ → Prop) (raised : ε → σ → Prop) : Except ε α → σ → Prop
  | .ok a => post a
  | .error e => raised e

theorem handled {handles : ε → Bool} {m : EStateM ε σ α} (h : Meets pre m post raised) :
    Meets pre (handled handles m) (Settles post raised) raised := by
  intro s hs
  obtain ⟨hok, herror⟩ := h s hs
  show (∀ a s', EStateM.handled handles m s = .ok a s' → _) ∧
    ∀ e s', EStateM.handled handles m s = .error e s' → _
  unfold EStateM.handled
  cases hrun : m.run s with
  | ok a s' =>
      rw [show m s = .ok a s' from hrun]
      refine ⟨fun r s'' hr => ?_, fun e s'' hr => by cases hr⟩
      cases hr
      exact hok a s' hrun
  | error e s' =>
      rw [show m s = .error e s' from hrun]
      dsimp only
      split
      · refine ⟨fun r s'' hr => ?_, fun e s'' hr => by cases hr⟩
        cases hr
        exact herror e s' hrun
      · refine ⟨fun r s'' hr => (by cases hr), fun e s'' hr => ?_⟩
        cases hr
        exact herror e s' hrun

/-- What is said of a view that the call keeps, besides. -/
theorem and_keeps {view : σ → γ} {p : γ → Prop} {m : EStateM ε σ α} (hview : Keeps view m)
    (h : Meets pre m post raised) :
    Meets (fun s => p (view s) ∧ pre s) m (fun a s => p (view s) ∧ post a s)
      fun e s => p (view s) ∧ raised e s := by
  intro s hs
  obtain ⟨hok, herror⟩ := of_keeps hview s hs.1
  exact ⟨fun a s' hrun => ⟨hok a s' hrun, (h s hs.2).1 a s' hrun⟩,
    fun e s' hrun => ⟨herror e s' hrun, (h s hs.2).2 e s' hrun⟩⟩

theorem forM {f : β → EStateM ε σ PUnit} (h : ∀ b, Meets pre (f b) (fun _ => pre) raised) :
    ∀ bs : List β, Meets pre (bs.forM f) (fun _ => pre) raised
  | [] => pure fun _ hs => hs
  | b :: bs => bind (h b) fun _ => forM h bs

end Meets

end EStateM
