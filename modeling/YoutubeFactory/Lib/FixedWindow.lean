import Mathlib.Algebra.Order.Group.Defs
import Mathlib.Data.List.Induction
import Mathlib.Data.Nat.Find

/-!
# Fixed windows

What happens is told of in a log, and each entry falls into a window.  A window opens with the
first entry after the one before it has closed.  It is open for some length at least, which is not
known beforehand, and no entry renews it.

Windows are numbered.  An entry of one window and an entry two windows later are more than the
length apart (`Windowed.apart`).  So if so many entries of each window are admitted, at most twice
as many are in any interval of that length (`Windowed.countP_interval_le`).
-/

namespace FixedWindow

variable {E T : Type}

/-! ## Entries after others -/

/-- Each entry is so, after the ones before it. -/
def Each (P : List E → E → Prop) (log : List E) : Prop :=
  ∀ before e after, log = before ++ e :: after → P before e

variable {P : List E → E → Prop} {log : List E} {e : E}

theorem each_nil : Each P [] := fun before e after h =>
  absurd h.symm (List.append_ne_nil_of_right_ne_nil before (List.cons_ne_nil e after))

theorem Each.concat (h : Each P log) (he : P log e) : Each P (log ++ [e]) := by
  intro before e' after hsplit
  rcases List.eq_nil_or_concat after with rfl | ⟨after', last, rfl⟩
  · obtain ⟨rfl, hlast⟩ := List.append_inj' hsplit rfl
    cases hlast
    exact he
  · rw [List.concat_eq_append, ← List.cons_append, ← List.append_assoc] at hsplit
    obtain ⟨rfl, -⟩ := List.append_inj' hsplit rfl
    exact h before e' after' rfl

/-! ## Entries of a window -/

variable (window : E → Nat) (admitted : E → Bool) (budget : Nat)

/-- How many entries of a window there are. -/
def inWindow (log : List E) (k : Nat) : Nat := log.countP fun e => window e = k

/-- The first entries of each window are admitted, so many of them, and no others. -/
def FirstAdmitted : List E → Prop :=
  Each fun before e => admitted e = true ↔ inWindow window before (window e) < budget

variable {window} {admitted} {budget}

theorem inWindow_concat_self : inWindow window (log ++ [e]) (window e) =
    inWindow window log (window e) + 1 := by
  unfold inWindow
  rw [List.countP_append, List.countP_singleton, if_pos (decide_eq_true rfl)]

theorem inWindow_concat_of_ne {k : Nat} (h : window e ≠ k) :
    inWindow window (log ++ [e]) k = inWindow window log k := by
  unfold inWindow
  rw [List.countP_append, List.countP_singleton,
    if_neg (by exact fun he => h (of_decide_eq_true he)), Nat.add_zero]

theorem Each.of_concat (h : Each P (log ++ [e])) : Each P log ∧ P log e := by
  refine ⟨fun before e' after hsplit => h before e' (after ++ [e]) ?_, h log e [] rfl⟩
  rw [hsplit, List.append_assoc, List.cons_append]

/-- No more than the budget are admitted in a window. -/
theorem FirstAdmitted.countP_le (h : FirstAdmitted window admitted budget log) (k : Nat) :
    log.countP (fun e => window e = k ∧ admitted e = true) ≤ budget := by
  have hboth : log.countP (fun e => window e = k ∧ admitted e = true) ≤ inWindow window log k ∧
      log.countP (fun e => window e = k ∧ admitted e = true) ≤ budget := by
    induction log using List.reverseRecOn with
    | nil => exact ⟨Nat.zero_le _, Nat.zero_le _⟩
    | append_singleton log e ih =>
        obtain ⟨hlog, he⟩ := h.of_concat
        obtain ⟨hin, hbudget⟩ := ih hlog
        rw [List.countP_append, List.countP_singleton]
        by_cases hk : window e = k
        · subst hk
          rw [inWindow_concat_self]
          by_cases hadmitted : admitted e = true
          · have hfree := he.mp hadmitted
            rw [if_pos (decide_eq_true ⟨rfl, hadmitted⟩)]
            omega
          · rw [if_neg (by exact fun hmem => hadmitted (of_decide_eq_true hmem).2)]
            omega
        · rw [inWindow_concat_of_ne hk,
            if_neg (by exact fun hmem => hk (of_decide_eq_true hmem).1)]
          exact ⟨hin, hbudget⟩
  exact hboth.2

/-! ## Windows in time -/

variable [AddCommGroup T] [LinearOrder T]

/-- A log, the number of the window that was the last to open, and when it closes. -/
inductive Windowed (time : E → T) (window : E → Nat) (length : T) : List E → Nat → T → Prop where
  | start (closes : T) : Windowed time window length [] 0 closes
  /-- An entry while the window is open. -/
  | joins {log : List E} {e : E} {number : Nat} {closes : T} :
      Windowed time window length log number closes → (∀ v ∈ log, time v ≤ time e) →
      time e < closes → window e = number → Windowed time window length (log ++ [e]) number closes
  /-- An entry after it has closed opens the next one. -/
  | opens {log : List E} {e : E} {number : Nat} {closes later : T} :
      Windowed time window length log number closes → (∀ v ∈ log, time v ≤ time e) →
      closes ≤ time e → window e = number + 1 → time e + length ≤ later →
      Windowed time window length (log ++ [e]) (number + 1) later

namespace Windowed

variable {time : E → T} {length : T} {number : Nat} {closes : T}

theorem window_le (h : Windowed time window length log number closes) :
    ∀ v ∈ log, window v ≤ number := by
  induction h with
  | start => exact nofun
  | joins _ _ _ he ih =>
      intro v hv
      rcases List.mem_append.mp hv with hv | hv
      · exact ih v hv
      · rw [List.mem_singleton.mp hv, he]
  | opens _ _ _ he _ ih =>
      intro v hv
      rcases List.mem_append.mp hv with hv | hv
      · exact Nat.le_succ_of_le (ih v hv)
      · rw [List.mem_singleton.mp hv, he]

/-- Every window but the first has been opened. -/
theorem exists_opened (h : Windowed time window length log number closes) :
    number = 0 ∨ ∃ v ∈ log, window v = number := by
  induction h with
  | start => exact .inl rfl
  | joins _ _ _ he _ => exact .inr ⟨_, List.mem_append_right _ (List.mem_singleton_self _), he⟩
  | opens _ _ _ he _ _ => exact .inr ⟨_, List.mem_append_right _ (List.mem_singleton_self _), he⟩

variable [IsOrderedAddMonoid T]

theorem time_lt (hlength : 0 < length) (h : Windowed time window length log number closes) :
    ∀ v ∈ log, time v < closes := by
  induction h with
  | start => exact nofun
  | joins _ hlast hopen _ _ =>
      intro v hv
      rcases List.mem_append.mp hv with hv | hv
      · exact (hlast v hv).trans_lt hopen
      · rw [List.mem_singleton.mp hv]
        exact hopen
  | opens _ hlast _ _ hlater _ =>
      intro v hv
      have hnew := (lt_add_of_pos_right _ hlength).trans_le hlater
      rcases List.mem_append.mp hv with hv | hv
      · exact (hlast v hv).trans_lt hnew
      · rw [List.mem_singleton.mp hv]
        exact hnew

/-- An entry of a window that has closed is its length before the end of the one that is open. -/
theorem add_length_lt (hlength : 0 < length) (h : Windowed time window length log number closes) :
    ∀ v ∈ log, window v < number → time v + length < closes := by
  induction h with
  | start => exact nofun
  | joins _ _ _ he ih =>
      intro v hv hbefore
      rcases List.mem_append.mp hv with hv | hv
      · exact ih v hv hbefore
      · rw [List.mem_singleton.mp hv, he] at hbefore
        exact absurd hbefore (Nat.lt_irrefl _)
  | opens h _ hclosed he hlater _ =>
      intro v hv hbefore
      rcases List.mem_append.mp hv with hv | hv
      · exact (add_lt_add_left ((h.time_lt hlength v hv).trans_le hclosed) _).trans_le hlater
      · rw [List.mem_singleton.mp hv, he] at hbefore
        exact absurd hbefore (Nat.lt_irrefl _)

/-- Two windows on, more than the length has passed. -/
theorem apart (hlength : 0 < length) (h : Windowed time window length log number closes) :
    ∀ u ∈ log, ∀ v ∈ log, window u + 2 ≤ window v → time u + length < time v := by
  induction h with
  | start => exact nofun
  | @joins log e number closes h hlast hopen he ih =>
      intro u hu v hv hon
      have hle := h.window_le
      rcases List.mem_append.mp hv with hv | hv
      · rcases List.mem_append.mp hu with hu | hu
        · exact ih u hu v hv hon
        · rw [List.mem_singleton.mp hu, he] at hon
          exact absurd (hle v hv) (by omega)
      · rw [List.mem_singleton.mp hv] at hon ⊢
        rcases List.mem_append.mp hu with hu | hu
        · rcases h.exists_opened with hzero | ⟨o, ho, hopened⟩
          · omega
          · exact (ih u hu o ho (by omega)).trans_le (hlast o ho)
        · rw [List.mem_singleton.mp hu] at hon
          omega
  | @opens log e number closes later h hlast hclosed he hlater ih =>
      intro u hu v hv hon
      have hle := h.window_le
      rcases List.mem_append.mp hv with hv | hv
      · rcases List.mem_append.mp hu with hu | hu
        · exact ih u hu v hv hon
        · rw [List.mem_singleton.mp hu, he] at hon
          exact absurd (hle v hv) (by omega)
      · rw [List.mem_singleton.mp hv] at hon ⊢
        rcases List.mem_append.mp hu with hu | hu
        · exact (h.add_length_lt hlength u hu (by omega)).trans_le hclosed
        · rw [List.mem_singleton.mp hu] at hon
          omega

end Windowed

theorem countP_le_add {p q r : E → Bool} (h : ∀ e ∈ log, p e = true → q e = true ∨ r e = true) :
    log.countP p ≤ log.countP q + log.countP r := by
  induction log with
  | nil => exact Nat.zero_le _
  | cons e log ih =>
      rw [List.forall_mem_cons] at h
      have hrest := ih h.2
      have hfirst := h.1
      rw [List.countP_cons, List.countP_cons, List.countP_cons]
      split
      · next hp =>
          rcases hfirst hp with hq | hr
          · rw [if_pos hq]
            omega
          · rw [if_pos hr]
            omega
      · omega

/-- Two windows at most reach into an interval of the length. -/
theorem Windowed.countP_interval_le [IsOrderedAddMonoid T] {time : E → T} {length closes : T}
    {number : Nat} (hlength : 0 < length) (h : Windowed time window length log number closes)
    (hbudget : ∀ k, log.countP (fun e => window e = k ∧ admitted e = true) ≤ budget) (t : T) :
    log.countP (fun e => admitted e = true ∧ t ≤ time e ∧ time e ≤ t + length) ≤ 2 * budget := by
  classical
  by_cases hsome : ∃ k, ∃ e ∈ log, (t ≤ time e ∧ time e ≤ t + length) ∧ window e = k
  · obtain ⟨first, hfirst, ⟨hfrom, -⟩, hk⟩ := Nat.find_spec hsome
    have htwo : ∀ e ∈ log,
        decide (admitted e = true ∧ t ≤ time e ∧ time e ≤ t + length) = true →
        decide (window e = Nat.find hsome ∧ admitted e = true) = true ∨
          decide (window e = Nat.find hsome + 1 ∧ admitted e = true) = true := by
      intro e he hin
      obtain ⟨hadmitted, hinterval⟩ := of_decide_eq_true hin
      rw [decide_eq_true_iff, decide_eq_true_iff]
      have hmin : Nat.find hsome ≤ window e := Nat.find_min' hsome ⟨e, he, hinterval, rfl⟩
      have hnear : ¬ window first + 2 ≤ window e := by
        intro hon
        have hapart := h.apart hlength first hfirst e he hon
        exact absurd (hapart.trans_le hinterval.2) (not_lt.mpr (add_le_add_left hfrom length))
      rcases Nat.lt_or_ge (Nat.find hsome) (window e) with hlt | hge
      · exact .inr ⟨by omega, hadmitted⟩
      · exact .inl ⟨by omega, hadmitted⟩
    have hfewer := countP_le_add htwo
    have hone := hbudget (Nat.find hsome)
    have hnext := hbudget (Nat.find hsome + 1)
    omega
  · rw [List.countP_eq_zero.mpr]
    · exact Nat.zero_le _
    · intro e he hin
      exact hsome ⟨_, e, he, (of_decide_eq_true hin).2, rfl⟩

end FixedWindow
