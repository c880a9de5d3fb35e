import YoutubeFactory.AgentWorkflow.Engine
import Mathlib.Data.List.Perm.Subperm
import Mathlib.Data.Nat.Find
import Mathlib.Order.Iterate

/-!
# The batches of a run

The loop of `run` takes the index forward by the length of the batch.  That is where the batch ends
if the members of the group stand next to each other: then the batch is a segment of the steps
(`segment_of_contiguous`).  Otherwise a step that is not in the batch is left behind
(`segment_or_gap`).
-/

namespace YoutubeFactory.AgentWorkflow

section

variable {Value : Type} {steps : List (WorkflowStep Value)} {i j : Nat}

/-! ## Groups -/

/-- Two steps with one label. -/
def SameGroup (steps : List (WorkflowStep Value)) (i j : Nat) : Prop :=
  (label steps i).isSome = true ∧ label steps i = label steps j

/-- What stands between two members of a group is a member. -/
def Contiguous (steps : List (WorkflowStep Value)) : Prop :=
  ∀ a b c, a ≤ b → b ≤ c → SameGroup steps a c → SameGroup steps a b

namespace SameGroup

variable {k : Nat}

theorem symm (h : SameGroup steps i j) : SameGroup steps j i := ⟨h.2 ▸ h.1, h.2.symm⟩

theorem trans (h : SameGroup steps i j) (h' : SameGroup steps j k) : SameGroup steps i k :=
  ⟨h.1, h.2.trans h'.2⟩

theorem refl_left (h : SameGroup steps i j) : SameGroup steps i i := ⟨h.1, rfl⟩

end SameGroup

theorem lt_length_of_label (h : (label steps i).isSome = true) : i < steps.length := by
  refine Nat.lt_of_not_le fun hle => ?_
  rw [label, List.getElem?_eq_none hle] at h
  cases h

/-! ## Batches -/

/-- The index after a batch. -/
def next (steps : List (WorkflowStep Value)) (i : Nat) : Nat := i + (batchAt steps i).length

theorem mem_batchAt : j ∈ batchAt steps i ↔ j = i ∨ i ≤ j ∧ SameGroup steps i j := by
  unfold batchAt SameGroup
  cases hlabel : label steps i with
  | none => simp
  | some group =>
      have hi : i < steps.length := lt_length_of_label (by rw [hlabel]; rfl)
      simp only [List.mem_filter, List.mem_range'_1, decide_eq_true_eq, Option.isSome_some,
        true_and]
      constructor
      · rintro ⟨⟨hle, -⟩, hgroup⟩
        exact .inr ⟨hle, hgroup.symm⟩
      · rintro (rfl | ⟨hle, hgroup⟩)
        · exact ⟨⟨Nat.le_refl _, by omega⟩, hlabel⟩
        · have hj : j < steps.length := lt_length_of_label (by rw [← hgroup]; rfl)
          exact ⟨⟨hle, by omega⟩, hgroup.symm⟩

theorem self_mem_batchAt (steps : List (WorkflowStep Value)) (i : Nat) : i ∈ batchAt steps i :=
  mem_batchAt.mpr (.inl rfl)

theorem le_of_mem_batchAt (h : j ∈ batchAt steps i) : i ≤ j := by
  rcases mem_batchAt.mp h with rfl | ⟨hle, -⟩
  · exact Nat.le_refl _
  · exact hle

theorem lt_next (steps : List (WorkflowStep Value)) (i : Nat) : i < next steps i :=
  Nat.lt_add_of_pos_right (List.length_pos_of_mem (self_mem_batchAt steps i))

/-- A batch of more than one does not reach over the end. -/
theorem next_le (steps : List (WorkflowStep Value)) (i : Nat) :
    next steps i = i + 1 ∨ next steps i ≤ steps.length := by
  unfold next batchAt
  cases hlabel : label steps i with
  | none => exact .inl rfl
  | some group =>
      have hi : i < steps.length := lt_length_of_label (by rw [hlabel]; rfl)
      have hfilter := List.length_filter_le (fun i => decide (label steps i = some group))
        (List.range' i (steps.length - i))
      rw [List.length_range'] at hfilter
      exact .inr (by dsimp only; omega)

theorem next_le_length (hi : i < steps.length) : next steps i ≤ steps.length := by
  rcases next_le steps i with hone | hlength
  · rw [hone]
    exact hi
  · exact hlength

/-- Two members of a batch are of one group. -/
theorem together_of_mem {k : Nat} (hj : j ∈ batchAt steps i) (hk : k ∈ batchAt steps i) :
    j = k ∨ SameGroup steps j k := by
  rcases mem_batchAt.mp hj with rfl | ⟨-, hj⟩ <;> rcases mem_batchAt.mp hk with rfl | ⟨-, hk⟩
  · exact .inl rfl
  · exact .inr hk
  · exact .inr hj.symm
  · exact .inr (hj.symm.trans hk)

theorem nodup_batchAt (steps : List (WorkflowStep Value)) (i : Nat) :
    (batchAt steps i).Nodup := by
  unfold batchAt
  split
  · exact List.nodup_singleton i
  · exact List.Nodup.filter _ List.nodup_range'

/-! ## Segments -/

/-- The batch is what the index is taken forward by. -/
def Segment (steps : List (WorkflowStep Value)) (i : Nat) : Prop :=
  ∀ j, j ∈ batchAt steps i ↔ i ≤ j ∧ j < next steps i

/-- A batch that takes all steps up to the next index takes no others. -/
theorem segment_or_gap (steps : List (WorkflowStep Value)) (i : Nat) :
    Segment steps i ∨ ∃ b, i < b ∧ b < next steps i ∧ b ∉ batchAt steps i := by
  by_cases hgap : ∃ b, i < b ∧ b < next steps i ∧ b ∉ batchAt steps i
  · exact .inr hgap
  · have hsubset : List.range' i (batchAt steps i).length ⊆ batchAt steps i := by
      intro b hb
      obtain ⟨hle, hlt⟩ := List.mem_range'_1.mp hb
      by_contra hnot
      have hne : i ≠ b := by
        rintro rfl
        exact hnot (self_mem_batchAt steps i)
      exact hgap ⟨b, Nat.lt_of_le_of_ne hle hne, hlt, hnot⟩
    have hperm : (List.range' i (batchAt steps i).length).Perm (batchAt steps i) := by
      refine (List.subperm_of_subset List.nodup_range' hsubset).perm_of_length_le ?_
      rw [List.length_range']
    refine .inl fun j => ?_
    rw [← hperm.mem_iff, List.mem_range'_1]
    rfl

theorem segment_of_contiguous (h : Contiguous steps) (i : Nat) : Segment steps i := by
  rcases segment_or_gap steps i with hsegment | ⟨b, hlt, hbefore, hnot⟩
  · exact hsegment
  -- The members would all stand before the gap.
  · have hsubset : batchAt steps i ⊆ List.range' i (b - i) := by
      intro c hc
      have hcb : c < b := by
        refine Nat.lt_of_not_le fun hbc => ?_
        rcases mem_batchAt.mp hc with rfl | ⟨-, hgroup⟩
        · exact Nat.lt_irrefl _ (Nat.lt_of_lt_of_le hlt hbc)
        · exact hnot (mem_batchAt.mpr (.inr ⟨hlt.le, h i b c hlt.le hbc hgroup⟩))
      exact List.mem_range'_1.mpr ⟨le_of_mem_batchAt hc, by omega⟩
    have hlength := (List.subperm_of_subset (nodup_batchAt steps i) hsubset).length_le
    rw [List.length_range'] at hlength
    unfold next at hbefore
    omega

/-! ## The indices of the loop -/

/-- No group has members on both sides. -/
def Boundary (steps : List (WorkflowStep Value)) (i : Nat) : Prop :=
  ∀ a b, a < i → i ≤ b → ¬ SameGroup steps a b

theorem boundary_zero (steps : List (WorkflowStep Value)) : Boundary steps 0 :=
  fun _ _ ha _ => absurd ha (Nat.not_lt_zero _)

theorem Boundary.next (h : Boundary steps i) (hsegment : Segment steps i) :
    Boundary steps (next steps i) := by
  intro a b ha hb hgroup
  rcases Nat.lt_or_ge a i with hai | hia
  · exact h a b hai ((lt_next steps i).le.trans hb) hgroup
  · have hbatch : b ∈ batchAt steps i := by
      rcases mem_batchAt.mp ((hsegment a).mpr ⟨hia, ha⟩) with rfl | ⟨-, hi⟩
      · exact mem_batchAt.mpr (.inr ⟨(lt_next steps a).le.trans hb, hgroup⟩)
      · exact mem_batchAt.mpr (.inr ⟨(lt_next steps i).le.trans hb, hi.trans hgroup⟩)
    exact absurd ((hsegment b).mp hbatch).2 (Nat.not_lt.mpr hb)

/-- The indices that the loop goes through. -/
def indexAfter (steps : List (WorkflowStep Value)) (n : Nat) : Nat := (next steps)^[n] 0

theorem indexAfter_succ (steps : List (WorkflowStep Value)) (n : Nat) :
    indexAfter steps (n + 1) = next steps (indexAfter steps n) :=
  Function.iterate_succ_apply' (next steps) n 0

theorem indexAfter_strictMono (steps : List (WorkflowStep Value)) :
    StrictMono (indexAfter steps) :=
  strictMono_nat_of_lt_succ fun n => by
    rw [indexAfter_succ]
    exact lt_next steps _

/-- Every step stands between two of them. -/
theorem exists_indexAfter_le (steps : List (WorkflowStep Value)) :
    ∀ a, ∃ n, indexAfter steps n ≤ a ∧ a < indexAfter steps (n + 1)
  | 0 => ⟨0, Nat.le_refl _, by rw [indexAfter_succ]; exact lt_next steps 0⟩
  | a + 1 => by
      obtain ⟨n, hle, hlt⟩ := exists_indexAfter_le steps a
      rcases Nat.lt_or_ge (a + 1) (indexAfter steps (n + 1)) with hbefore | hafter
      · exact ⟨n, Nat.le_succ_of_le hle, hbefore⟩
      · refine ⟨n + 1, hafter, Nat.lt_of_le_of_lt hlt ?_⟩
        exact indexAfter_strictMono steps (Nat.lt_succ_self _)

/-- If all batches of the loop are segments, the groups stand together. -/
theorem contiguous_of_segments (h : ∀ n, Segment steps (indexAfter steps n)) :
    Contiguous steps := by
  intro a b c hab hbc hgroup
  obtain ⟨n, hle, hlt⟩ := exists_indexAfter_le steps a
  rw [indexAfter_succ] at hlt
  have ha : a ∈ batchAt steps (indexAfter steps n) := (h n a).mpr ⟨hle, hlt⟩
  have hc : c ∈ batchAt steps (indexAfter steps n) := by
    rcases mem_batchAt.mp ha with heq | ⟨-, hi⟩
    · exact mem_batchAt.mpr (.inr ⟨by omega, heq ▸ hgroup⟩)
    · exact mem_batchAt.mpr (.inr ⟨by omega, hi.trans hgroup⟩)
  have hb : b ∈ batchAt steps (indexAfter steps n) :=
    (h n b).mpr ⟨hle.trans hab, Nat.lt_of_le_of_lt hbc ((h n c).mp hc).2⟩
  rcases together_of_mem ha hb with rfl | hsame
  · exact hgroup.refl_left
  · exact hsame

/-- If they do not, the loop goes by a step for good: none of its batches has it. -/
theorem left_behind_of_not_contiguous (h : ¬ Contiguous steps) :
    ∃ b, b < steps.length ∧ ∀ n, b ∉ batchAt steps (indexAfter steps n) := by
  have hsome : ∃ n, ¬ Segment steps (indexAfter steps n) := by
    by_contra hall
    push Not at hall
    exact h (contiguous_of_segments hall)
  classical
  -- The first batch that is not a segment.
  have hfirst : ∀ n < Nat.find hsome, Segment steps (indexAfter steps n) := fun n hn =>
    not_not.mp (Nat.find_min hsome hn)
  obtain ⟨b, hlt, hbefore, hnot⟩ :=
    (segment_or_gap steps (indexAfter steps (Nat.find hsome))).resolve_left (Nat.find_spec hsome)
  rw [← indexAfter_succ] at hbefore
  refine ⟨b, ?_, fun n hb => ?_⟩
  · rw [indexAfter_succ] at hbefore
    rcases next_le steps (indexAfter steps (Nat.find hsome)) with hone | hlength
    · omega
    · omega
  · rcases Nat.lt_trichotomy n (Nat.find hsome) with hn | rfl | hn
    · have hend := ((hfirst n hn b).mp hb).2
      rw [← indexAfter_succ] at hend
      have hle : indexAfter steps (n + 1) ≤ indexAfter steps (Nat.find hsome) :=
        (indexAfter_strictMono steps).monotone hn
      omega
    · exact hnot hb
    · have hstart := le_of_mem_batchAt hb
      have hle : indexAfter steps (Nat.find hsome + 1) ≤ indexAfter steps n :=
        (indexAfter_strictMono steps).monotone hn
      omega

end

end YoutubeFactory.AgentWorkflow
