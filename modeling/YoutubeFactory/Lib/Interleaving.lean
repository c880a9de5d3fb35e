import YoutubeFactory.Lib.Run
import YoutubeFactory.Lib.Table
import Mathlib.Data.List.Perm.Basic
import Mathlib.Logic.Function.Iterate

/-!
# Processes that take turns on one store

A system is a store and a list of processes.  A turn resumes one of the processes:
it runs until it gives way again, and leaves the store and its own place changed.
What it does depends on the two and on what the turn brings from outside.

An assertion about a system speaks of the store, of each process with the store, and
of any two processes.  A turn keeps it if the process keeps its own part and does not
disturb the parts of the others (`Holds.step`).
-/

namespace Interleaving

variable {Store Proc Input : Type}

structure System (Store Proc : Type) where
  store : Store
  procs : List Proc

structure Turn (Input : Type) where
  proc : Nat
  input : Input

/-- One turn.  A process that does not exist does nothing. -/
def step (resume : Store → Input → Proc → Store × Proc) (s : System Store Proc)
    (turn : Turn Input) : System Store Proc :=
  match s.procs[turn.proc]? with
  | none => s
  | some p =>
      let next := resume s.store turn.input p
      ⟨next.1, s.procs.set turn.proc next.2⟩

section

variable {resume : Store → Input → Proc → Store × Proc} {s : System Store Proc}
  {turn : Turn Input} {p : Proc}

theorem step_of_none (h : s.procs[turn.proc]? = none) : step resume s turn = s := by
  unfold step
  rw [h]

theorem step_of_some (h : s.procs[turn.proc]? = some p) :
    step resume s turn =
      ⟨(resume s.store turn.input p).1, s.procs.set turn.proc (resume s.store turn.input p).2⟩ := by
  unfold step
  rw [h]

end

/-- The turns of a process that is alone. -/
theorem run_alone (resume : Store → Input → Proc → Store × Proc) (input : Input) :
    ∀ (n : Nat) (store : Store) (p : Proc),
      Run.run (step resume) ⟨store, [p]⟩ (List.replicate n ⟨0, input⟩) =
        let last := (fun place => resume place.1 input place.2)^[n] (store, p)
        ⟨last.1, [last.2]⟩
  | 0, _, _ => rfl
  | n + 1, _, _ => run_alone resume input n _ _

/-- The processes after one of them was replaced. -/
theorem getElem?_set_some {procs : List Proc} {i j : Nat} {p p' q : Proc}
    (hp : procs[i]? = some p) (hq : (procs.set i p')[j]? = some q) :
    (j = i ∧ q = p') ∨ (j ≠ i ∧ procs[j]? = some q) := by
  have hlt : i < procs.length := (List.getElem?_eq_some_iff.mp hp).1
  by_cases hj : j = i
  · subst hj
    rw [List.getElem?_set_self hlt, Option.some.injEq] at hq
    exact .inl ⟨rfl, hq.symm⟩
  · rw [List.getElem?_set_ne (Ne.symm hj)] at hq
    exact .inr ⟨hj, hq⟩

/-- The others stay as they are. -/
theorem exists_perm_set {procs : List Proc} {i : Nat} {p : Proc} (hp : procs[i]? = some p)
    (p' : Proc) : ∃ others, procs.Perm (p :: others) ∧ (procs.set i p').Perm (p' :: others) := by
  obtain ⟨hi, rfl⟩ := List.getElem?_eq_some_iff.mp hp
  exact ⟨procs.eraseIdx i, (List.getElem_cons_eraseIdx_perm hi).symm,
    List.set_perm_cons_eraseIdx hi p'⟩

/-- How many processes are of a kind, after one of them was replaced. -/
theorem countP_set {procs : List Proc} {i : Nat} {p p' : Proc} (kind : Proc → Bool)
    (hp : procs[i]? = some p) :
    (procs.set i p').countP kind + (if kind p then 1 else 0) =
      procs.countP kind + if kind p' then 1 else 0 := by
  obtain ⟨hlt, hget⟩ := List.getElem?_eq_some_iff.mp hp
  have hmem : kind p = true → 0 < procs.countP kind := fun hkind =>
    List.countP_pos_iff.mpr ⟨p, List.mem_of_getElem? hp, hkind⟩
  rw [List.countP_set hlt, hget]
  split
  · next hkind =>
      have := hmem hkind
      omega
  · omega

/-- What the processes hold, after one that held nothing was replaced. -/
theorem filterMap_set_perm {Held : Type} {held : Proc → Option Held} {procs : List Proc}
    {i : Nat} {p p' : Proc} (hp : procs[i]? = some p) (hnone : held p = none) :
    ((procs.set i p').filterMap held).Perm (procs.filterMap held ++ (held p').toList) := by
  induction procs generalizing i with
  | nil => cases hp
  | cons q procs ih =>
      cases i with
      | zero =>
          obtain rfl : q = p := Option.some.inj hp
          rw [List.set_cons_zero, List.filterMap_cons_none hnone]
          cases hheld : held p' with
          | none => rw [List.filterMap_cons_none hheld, Option.toList_none, List.append_nil]
          | some a =>
              rw [List.filterMap_cons_some hheld]
              exact (List.perm_append_singleton a _).symm
      | succ i =>
          have hrest := ih hp
          rw [List.set_cons_succ]
          cases hheld : held q with
          | none => rwa [List.filterMap_cons_none hheld, List.filterMap_cons_none hheld]
          | some a =>
              rw [List.filterMap_cons_some hheld, List.filterMap_cons_some hheld]
              exact hrest.cons a

/-! ## Processes that do not read the store -/

/-- What the turns of a process bring. -/
def inputsOf (i : Nat) (turns : List (Turn Input)) : List Input :=
  (turns.filter fun turn => turn.proc = i).map (·.input)

section

variable {resume : Store → Input → Proc → Store × Proc} {next : Proc → Input → Proc}
  {s : System Store Proc}

theorem getElem?_step (hnext : ∀ store input p, (resume store input p).2 = next p input)
    (turn : Turn Input) (i : Nat) : (step resume s turn).procs[i]? =
      s.procs[i]?.map fun p => if turn.proc = i then next p turn.input else p := by
  cases hp : s.procs[turn.proc]? with
  | none =>
      rw [step_of_none hp]
      by_cases hi : turn.proc = i
      · rw [← hi, hp]
        rfl
      · simp [hi]
  | some p =>
      have hlt : turn.proc < s.procs.length := (List.getElem?_eq_some_iff.mp hp).1
      rw [step_of_some hp, hnext]
      by_cases hi : turn.proc = i
      · subst hi
        rw [List.getElem?_set_self hlt, hp]
        simp
      · rw [List.getElem?_set_ne hi]
        simp [hi]

/-- A process that does not read the store goes the way of its own turns. -/
theorem getElem?_run (hnext : ∀ store input p, (resume store input p).2 = next p input)
    (turns : List (Turn Input)) (i : Nat) : (Run.run (step resume) s turns).procs[i]? =
      s.procs[i]?.map fun p => (inputsOf i turns).foldl next p := by
  induction turns generalizing s with
  | nil => simp [inputsOf]
  | cons turn turns ih =>
      rw [Run.run_cons, ih, getElem?_step hnext, Option.map_map]
      congr 1
      funext p
      by_cases hi : turn.proc = i
      · simp [inputsOf, hi]
      · simp [inputsOf, hi]

theorem length_run (turns : List (Turn Input)) :
    (Run.run (step resume) s turns).procs.length = s.procs.length := by
  induction turns generalizing s with
  | nil => rfl
  | cons turn turns ih =>
      rw [Run.run_cons, ih]
      unfold step
      split
      · rfl
      · exact List.length_set

end

/-! ## Assertions -/

/-- The parts of an assertion. -/
structure Assertion (Store Proc : Type) where
  store : Store → Prop
  proc : Store → Proc → Prop
  pair : Proc → Proc → Prop
  symm : ∀ p q, pair p q → pair q p

/-- The assertion holds of a system. -/
structure Holds (A : Assertion Store Proc) (s : System Store Proc) : Prop where
  store : A.store s.store
  proc : ∀ (i : Nat) p, s.procs[i]? = some p → A.proc s.store p
  pair : ∀ (i j : Nat) p q, i ≠ j → s.procs[i]? = some p → s.procs[j]? = some q → A.pair p q

/-- The process that moves to `p'` and leaves `store'` keeps its own part. -/
structure KeepsOwn (A : Assertion Store Proc) (store' : Store) (p' : Proc) : Prop where
  store : A.store store'
  proc : A.proc store' p'

/-- It disturbs the process `q` in nothing. -/
structure KeepsOther (A : Assertion Store Proc) (store' : Store) (p' q : Proc) : Prop where
  proc : A.proc store' q
  pair : A.pair p' q

/-- A turn keeps an assertion that its process keeps, for itself and for the others. -/
theorem Holds.step {A : Assertion Store Proc} {resume : Store → Input → Proc → Store × Proc}
    {s : System Store Proc} {turn : Turn Input} (h : Holds A s)
    (hown : ∀ p, s.procs[turn.proc]? = some p → A.proc s.store p →
      KeepsOwn A (resume s.store turn.input p).1 (resume s.store turn.input p).2)
    (hother : ∀ p (j : Nat) q, s.procs[turn.proc]? = some p → A.proc s.store p → j ≠ turn.proc →
      s.procs[j]? = some q → A.proc s.store q → A.pair p q →
      KeepsOther A (resume s.store turn.input p).1 (resume s.store turn.input p).2 q) :
    Holds A (step resume s turn) := by
  cases hp : s.procs[turn.proc]? with
  | none =>
      rw [step_of_none hp]
      exact h
  | some p =>
      have hproc : A.proc s.store p := h.proc _ p hp
      have hkeeps : ∀ j q, j ≠ turn.proc → s.procs[j]? = some q →
          KeepsOther A (resume s.store turn.input p).1 (resume s.store turn.input p).2 q :=
        fun j q hj hq => hother p j q hp hproc hj hq (h.proc j q hq)
          (h.pair _ j p q (Ne.symm hj) hp hq)
      rw [step_of_some hp]
      refine ⟨(hown p hp hproc).store, fun j q hq => ?_, fun i j q r hij hq hr => ?_⟩
      · rcases getElem?_set_some hp hq with ⟨-, rfl⟩ | ⟨hj, hq⟩
        · exact (hown p hp hproc).proc
        · exact (hkeeps j q hj hq).proc
      · rcases getElem?_set_some hp hq with ⟨rfl, rfl⟩ | ⟨hi, hq⟩
        · rcases getElem?_set_some hp hr with ⟨rfl, -⟩ | ⟨hj, hr⟩
          · exact absurd rfl hij
          · exact (hkeeps j r hj hr).pair
        · rcases getElem?_set_some hp hr with ⟨rfl, rfl⟩ | ⟨hj, hr⟩
          · exact A.symm _ _ (hkeeps i q hi hq).pair
          · exact h.pair i j q r hij hq hr

end Interleaving
