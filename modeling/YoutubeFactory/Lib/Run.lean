import Mathlib.Tactic.ByContra

/-!
# Runs of a system that takes one call after the other

A system is a step function.  A run is a list of calls, and its state is the one
after the last call.  A property that every step preserves holds after every run;
a property that only some steps preserve holds after the runs that take no others.

A call may raise.  It runs in a transaction, so a call that raises leaves the state
as it was.
-/

namespace Run

variable {State Call : Type}

/-- The state after a run. -/
def run (step : State → Call → State) (s : State) (calls : List Call) : State :=
  calls.foldl step s

@[simp] theorem run_nil (step : State → Call → State) (s : State) : run step s [] = s := rfl

@[simp] theorem run_cons (step : State → Call → State) (s : State) (call : Call)
    (calls : List Call) : run step s (call :: calls) = run step (step s call) calls := rfl

@[simp] theorem run_append (step : State → Call → State) (s : State) (xs ys : List Call) :
    run step s (xs ++ ys) = run step (run step s xs) ys :=
  List.foldl_append

/-- What every step preserves holds after every run. -/
theorem run_invariant {step : State → Call → State} {Inv : State → Prop}
    (hstep : ∀ s call, Inv s → Inv (step s call)) :
    ∀ (calls : List Call) {s : State}, Inv s → Inv (run step s calls) := by
  intro calls
  induction calls with
  | nil => exact fun h => h
  | cons call calls ih => exact fun h => ih (hstep _ call h)

/-- Every call of the run is made in a state that allows it. -/
def EveryStep (step : State → Call → State) (allowed : State → Call → Prop) :
    State → List Call → Prop
  | _, [] => True
  | s, call :: calls => allowed s call ∧ EveryStep step allowed (step s call) calls

/-- A condition on the calls alone. -/
theorem everyStep_of_forall {step : State → Call → State} {allowed : Call → Prop} :
    ∀ {calls : List Call} {s : State}, (∀ call ∈ calls, allowed call) →
      EveryStep step (fun _ call => allowed call) s calls
  | [], _, _ => trivial
  | call :: _, _, h =>
      ⟨h call List.mem_cons_self,
        everyStep_of_forall fun c hc => h c (List.mem_cons_of_mem call hc)⟩

/-- Two conditions that agree on every step. -/
theorem everyStep_congr {step : State → Call → State} {allowed allowed' : State → Call → Prop}
    (h : ∀ s call, allowed s call ↔ allowed' s call) :
    ∀ {calls : List Call} {s : State},
      EveryStep step allowed s calls ↔ EveryStep step allowed' s calls
  | [], _ => Iff.rfl
  | call :: _, s => and_congr (h s call) (everyStep_congr h)

/-- Two conditions that agree on every step from a state of the invariant. -/
theorem everyStep_congr_of_invariant {step : State → Call → State} {Inv : State → Prop}
    {allowed allowed' : State → Call → Prop} (hinv : ∀ s call, Inv s → Inv (step s call))
    (h : ∀ s call, Inv s → (allowed s call ↔ allowed' s call)) :
    ∀ {calls : List Call} {s : State}, Inv s →
      (EveryStep step allowed s calls ↔ EveryStep step allowed' s calls)
  | [], _, _ => Iff.rfl
  | call :: _, s, hs =>
      and_congr (h s call hs) (everyStep_congr_of_invariant hinv h (hinv s call hs))

theorem everyStep_and {step : State → Call → State} {allowed allowed' : State → Call → Prop} :
    ∀ {calls : List Call} {s : State},
      EveryStep step (fun s call => allowed s call ∧ allowed' s call) s calls ↔
        EveryStep step allowed s calls ∧ EveryStep step allowed' s calls
  | [], _ => (and_iff_right trivial).symm
  | _ :: _, _ => (and_congr_right fun _ => everyStep_and).trans and_and_and_comm

/-- Each call comes after what the state has seen, if the calls come in order and the state sees
nothing but their moments. -/
theorem everyStep_of_pairwise {Moment : Type} {step : State → Call → State}
    {after : Moment → Moment → Prop} {seen : State → List Moment} {moment : Call → Moment}
    (hseen : ∀ s call, ∀ m ∈ seen (step s call), m = moment call ∨ m ∈ seen s) :
    ∀ {calls : List Call} {s : State}, (calls.map moment).Pairwise after →
      (∀ m ∈ seen s, ∀ call ∈ calls, after m (moment call)) →
      EveryStep step (fun s call => ∀ m ∈ seen s, after m (moment call)) s calls := by
  intro calls
  induction calls with
  | nil => exact fun _ _ => trivial
  | cons call calls ih =>
      intro s hordered hstart
      obtain ⟨hfirst, hrest⟩ := List.pairwise_cons.mp hordered
      refine ⟨fun m hm => hstart m hm call List.mem_cons_self, ih hrest fun m hm later hlater => ?_⟩
      rcases hseen s call m hm with rfl | hm
      · exact hfirst _ (List.mem_map_of_mem hlater)
      · exact hstart m hm later (List.mem_cons_of_mem call hlater)

/-- What every allowed step preserves holds after every run of allowed steps. -/
theorem run_invariant_of_everyStep {step : State → Call → State}
    {allowed : State → Call → Prop} {Inv : State → Prop}
    (hstep : ∀ s call, allowed s call → Inv s → Inv (step s call)) :
    ∀ (calls : List Call) {s : State}, EveryStep step allowed s calls → Inv s →
      Inv (run step s calls) := by
  intro calls
  induction calls with
  | nil => exact fun _ h => h
  | cons call calls ih => exact fun hsteps h => ih hsteps.2 (hstep _ call hsteps.1 h)

/-- Where a step that is not allowed breaks something for good, a run that ends with it
whole has taken allowed steps only. -/
theorem everyStep_of_not_broken {step : State → Call → State} {allowed : State → Call → Prop}
    {Inv Broken : State → Prop} (hinv : ∀ s call, Inv s → Inv (step s call))
    (hbreaks : ∀ s call, Inv s → ¬ allowed s call → Broken (step s call))
    (hstays : ∀ s call, Inv s → Broken s → Broken (step s call)) :
    ∀ (calls : List Call) {s : State}, Inv s → ¬ Broken (run step s calls) →
      EveryStep step allowed s calls := by
  intro calls
  induction calls with
  | nil => exact fun _ _ => trivial
  | cons call calls ih =>
      intro s hs hwhole
      refine ⟨?_, ih (hinv s call hs) hwhole⟩
      by_contra hnot
      have hboth : ∀ s call, Inv s ∧ Broken s → Inv (step s call) ∧ Broken (step s call) :=
        fun s call h => ⟨hinv s call h.1, hstays s call h.1 h.2⟩
      have hfirst : Inv (step s call) ∧ Broken (step s call) :=
        ⟨hinv s call hs, hbreaks s call hs hnot⟩
      exact hwhole (@run_invariant _ _ _ (fun s => Inv s ∧ Broken s) hboth calls _ hfirst).2

/-- Every state of the run, the first and the last included. -/
def Always (step : State → Call → State) (P : State → Prop) : State → List Call → Prop
  | s, [] => P s
  | s, call :: calls => P s ∧ Always step P (step s call) calls

/-- The first state of the run. -/
theorem Always.head {step : State → Call → State} {P : State → Prop} {s : State}
    {calls : List Call} (h : Always step P s calls) : P s := by
  cases calls with
  | nil => exact h
  | cons call calls => exact h.1

/-- The last state of the run. -/
theorem Always.last {step : State → Call → State} {P : State → Prop} {s : State}
    {calls : List Call} (h : Always step P s calls) : P (run step s calls) := by
  induction calls generalizing s with
  | nil => exact h
  | cons call calls ih => exact ih h.2

theorem Always.imp {step : State → Call → State} {P Q : State → Prop} {s : State}
    {calls : List Call} (h : Always step P s calls) (hPQ : ∀ s, P s → Q s) :
    Always step Q s calls := by
  induction calls generalizing s with
  | nil => exact hPQ s h
  | cons call calls ih => exact ⟨hPQ s h.1, ih h.2⟩

/-- What every step preserves holds all along every run. -/
theorem always_of_invariant {step : State → Call → State} {Inv : State → Prop}
    (hstep : ∀ s call, Inv s → Inv (step s call)) :
    ∀ (calls : List Call) {s : State}, Inv s → Always step Inv s calls := by
  intro calls
  induction calls with
  | nil => exact fun h => h
  | cons call calls ih => exact fun h => ⟨h, ih (hstep _ call h)⟩

/-- What every allowed step preserves holds all along the runs of allowed steps. -/
theorem always_of_everyStep {step : State → Call → State} {allowed : State → Call → Prop}
    {Inv : State → Prop} (hstep : ∀ s call, allowed s call → Inv s → Inv (step s call)) :
    ∀ (calls : List Call) {s : State}, EveryStep step allowed s calls → Inv s →
      Always step Inv s calls := by
  intro calls
  induction calls with
  | nil => exact fun _ h => h
  | cons call calls ih => exact fun hsteps h => ⟨h, ih hsteps.2 (hstep _ call hsteps.1 h)⟩

/-- A property that the allowed steps keep and the others break holds all along the
runs of allowed steps, and no others.  `side` is what all steps satisfy, and `Inv`
an invariant that all of them keep. -/
theorem always_iff_everyStep {step : State → Call → State} {Inv P : State → Prop}
    {side allowed : State → Call → Prop}
    (hinv : ∀ s call, side s call → Inv s → Inv (step s call))
    (hstep : ∀ s call, side s call → Inv s → P s → (P (step s call) ↔ allowed s call)) :
    ∀ (calls : List Call) {s : State}, EveryStep step side s calls → Inv s → P s →
      (Always step P s calls ↔ EveryStep step allowed s calls) := by
  intro calls
  induction calls with
  | nil => exact fun _ _ hp => ⟨fun _ => trivial, fun _ => hp⟩
  | cons call calls ih =>
      intro s hside hi hp
      have hfirst := hstep s call hside.1 hi hp
      constructor
      · intro halways
        have hnext : P (step s call) := halways.2.head
        exact ⟨hfirst.mp hnext, (ih hside.2 (hinv s call hside.1 hi) hnext).mp halways.2⟩
      · intro hevery
        exact ⟨hp, (ih hside.2 (hinv s call hside.1 hi) (hfirst.mpr hevery.1)).mpr hevery.2⟩

/-- A property of the states and one of the steps hold all along the runs of allowed steps, and no
others, if they tell for one step whether it is allowed.  `Inv` is what the allowed steps keep. -/
theorem always_and_everyStep_iff {step : State → Call → State} {Inv P : State → Prop}
    {R allowed : State → Call → Prop} (hP : ∀ s, Inv s → P s)
    (hkeep : ∀ s call, Inv s → allowed s call → Inv (step s call))
    (hstep : ∀ s call, Inv s → (P (step s call) ∧ R s call ↔ allowed s call)) :
    ∀ (calls : List Call) {s : State}, Inv s →
      (Always step P s calls ∧ EveryStep step R s calls ↔ EveryStep step allowed s calls) := by
  intro calls
  induction calls with
  | nil => exact fun h => ⟨fun _ => trivial, fun _ => ⟨hP _ h, trivial⟩⟩
  | cons call calls ih =>
      intro s h
      constructor
      · rintro ⟨⟨-, halways⟩, hfirst, hrest⟩
        have hallowed : allowed s call := (hstep s call h).mp ⟨halways.head, hfirst⟩
        exact ⟨hallowed, (ih (hkeep s call h hallowed)).mp ⟨halways, hrest⟩⟩
      · rintro ⟨hallowed, hrest⟩
        obtain ⟨halways, hevery⟩ := (ih (hkeep s call h hallowed)).mpr hrest
        exact ⟨⟨hP s h, halways⟩, ((hstep s call h).mpr hallowed).2, hevery⟩

/-! ## Earlier and later states -/

theorem everyStep_append {step : State → Call → State} {allowed : State → Call → Prop} :
    ∀ {xs ys : List Call} {s : State}, EveryStep step allowed s (xs ++ ys) ↔
      EveryStep step allowed s xs ∧ EveryStep step allowed (run step s xs) ys
  | [], _, _ => (and_iff_right trivial).symm
  | _ :: _, _, _ => (and_congr_right fun _ => everyStep_append).trans and_assoc.symm

theorem everyStep_iff {step : State → Call → State} {allowed : State → Call → Prop} {s : State}
    {calls : List Call} : EveryStep step allowed s calls ↔
      ∀ earlier call later, calls = earlier ++ call :: later →
        allowed (run step s earlier) call := by
  constructor
  · rintro h earlier call later rfl
    exact (everyStep_append.mp h).2.1
  · induction calls generalizing s with
    | nil => exact fun _ => trivial
    | cons call calls ih =>
        intro h
        refine ⟨h [] call calls rfl, ih fun earlier next later hsplit => ?_⟩
        exact h (call :: earlier) next later (congrArg (call :: ·) hsplit)

/-- Any two states of the run are related, the earlier one to the later one. -/
def Evolves (step : State → Call → State) (R : State → State → Prop) (s : State)
    (calls : List Call) : Prop :=
  ∀ earlier between later, calls = earlier ++ between ++ later →
    R (run step s earlier) (run step s (earlier ++ between))

/-- What the steps do one by one, they do together. -/
theorem evolves_iff_everyStep {step : State → Call → State} {R : State → State → Prop}
    (hrefl : ∀ s, R s s) (htrans : ∀ s t u, R s t → R t u → R s u) {s : State}
    {calls : List Call} :
    Evolves step R s calls ↔ EveryStep step (fun s call => R s (step s call)) s calls := by
  constructor
  · induction calls generalizing s with
    | nil => exact fun _ => trivial
    | cons call calls ih =>
        intro h
        refine ⟨h [] [call] calls rfl, ih fun earlier between later hsplit => ?_⟩
        exact h (call :: earlier) between later (congrArg (call :: ·) hsplit)
  · rintro hevery earlier between later rfl
    obtain ⟨hfirst, -⟩ := everyStep_append.mp hevery
    obtain ⟨-, hbetween⟩ := everyStep_append.mp hfirst
    rw [run_append]
    exact run_invariant_of_everyStep (fun t call ht h => htrans _ t _ h ht) between hbetween
      (hrefl _)

/-! ## Transactions -/

variable {Exc Result : Type}

/-- The state a call leaves behind: its own if it returns, the one before if it raises. -/
def commit (s : State) : Except Exc (Result × State) → State
  | .ok (_, s') => s'
  | .error _ => s

@[simp] theorem commit_ok (s s' : State) (r : Result) :
    commit s (.ok (r, s') : Except Exc (Result × State)) = s' := rfl

@[simp] theorem commit_error (s : State) (e : Exc) :
    commit s (.error e : Except Exc (Result × State)) = s := rfl

/-- What a call returns with the state is of no account to the state. -/
theorem commit_bind {s : State} {Result' : Type} (r : Except Exc (Result × State))
    {k : Result × State → Except Exc (Result' × State)} (hk : ∀ p, commit s (k p) = p.2) :
    commit s (r >>= k) = commit s r := by
  cases r with
  | error e => rfl
  | ok p => exact hk p

theorem commit_map {s : State} {Result' : Type} (r : Except Exc (Result × State))
    (f : Result → Result') : commit s (r.map fun p => (f p.1, p.2)) = commit s r := by
  cases r with
  | error e => rfl
  | ok p => rfl

/-- A call that raises keeps every property of the state. -/
theorem commit_invariant {Inv : State → Prop} {s : State} {r : Except Exc (Result × State)}
    (h : Inv s) (hok : ∀ result s', r = .ok (result, s') → Inv s') : Inv (commit s r) := by
  cases r with
  | error e => exact h
  | ok p => exact hok p.1 p.2 rfl

end Run
