import Mathlib.Logic.Relation
import Mathlib.Tactic.ByContra

/-!
# Rounds

Things are done rank by rank.  Each needs things of lower ranks, and one of the rank right below
it.  In a round all that wait while everything they need is done come to an end: they are done, or
they fail.

While nothing fails, the things of a rank are done after as many rounds as there are ranks up to it
(`After.done_iff`).  What is done has everything done that it needs, directly or not
(`After.done_of_reaches`).
-/

namespace Rounds

inductive Progress where
  | waiting | done | failed
deriving DecidableEq, Repr

/-- The ranks, for the things that have one, and what each needs. -/
structure Ranking (κ : Type) where
  rank : κ → Option Nat
  needs : κ → List κ
  below : ∀ k r, rank k = some r → ∀ l ∈ needs k, ∃ r' < r, rank l = some r'
  next : ∀ k r, rank k = some (r + 1) → ∃ l ∈ needs k, rank l = some r

variable {κ : Type} {ranking : Ranking κ} {before after progress : κ → Progress} {n : Nat}

/-- One that waits for nothing. -/
def Ready (ranking : Ranking κ) (progress : κ → Progress) (k : κ) : Prop :=
  progress k = .waiting ∧ ∀ l ∈ ranking.needs k, progress l = .done

/-- All that are ready come to an end, and the others stay what they are. -/
structure Round (ranking : Ranking κ) (before after : κ → Progress) : Prop where
  ends : ∀ k r, ranking.rank k = some r → Ready ranking before k → after k ≠ .waiting
  stays : ∀ k r, ranking.rank k = some r → ¬ Ready ranking before k → after k = before k

/-- One that has a rank has failed. -/
def Failed (ranking : Ranking κ) (progress : κ → Progress) : Prop :=
  ∃ k r, ranking.rank k = some r ∧ progress k = .failed

/-- Where everything stands after some rounds. -/
structure After (ranking : Ranking κ) (n : Nat) (progress : κ → Progress) : Prop where
  ordered : ∀ k r, ranking.rank k = some r → progress k = .done →
    ∀ l ∈ ranking.needs k, progress l = .done
  ranks : ¬ Failed ranking progress → ∀ k r, ranking.rank k = some r →
    progress k = if r < n then .done else .waiting

/-- What has ended stays what it is. -/
theorem Round.stays_of_ne (h : Round ranking before after) {k : κ} {r : Nat}
    (hk : ranking.rank k = some r) (hends : before k ≠ .waiting) : after k = before k :=
  h.stays k r hk fun hready => hends hready.1

theorem Failed.round (hfailed : Failed ranking before) (h : Round ranking before after) :
    Failed ranking after := by
  obtain ⟨k, r, hk, hfail⟩ := hfailed
  refine ⟨k, r, hk, ?_⟩
  rw [h.stays_of_ne hk (by rw [hfail]; exact nofun), hfail]

theorem After.start (h : ∀ k r, ranking.rank k = some r → progress k = .waiting) :
    After ranking 0 progress where
  ordered k r hk hdone := by
    rw [h k r hk] at hdone
    cases hdone
  ranks _ k r hk := h k r hk

/-- One that is ready is of the rank of the round, while nothing has failed. -/
theorem After.ready_iff (h : After ranking n progress) (hfailed : ¬ Failed ranking progress)
    {k : κ} {r : Nat} (hk : ranking.rank k = some r) : Ready ranking progress k ↔ r = n := by
  have hranks := h.ranks hfailed
  constructor
  · rintro ⟨hwaiting, hneeds⟩
    rw [hranks k r hk] at hwaiting
    have hle : n ≤ r := by
      by_contra hlt
      rw [if_pos (Nat.lt_of_not_le hlt)] at hwaiting
      cases hwaiting
    cases r with
    | zero => omega
    | succ r =>
        -- what it needs of the rank below is done
        obtain ⟨l, hl, hrank⟩ := ranking.next k r hk
        have hdone := hneeds l hl
        rw [hranks l r hrank] at hdone
        by_contra hne
        rw [if_neg (by omega)] at hdone
        cases hdone
  · rintro rfl
    refine ⟨by rw [hranks k r hk, if_neg (Nat.lt_irrefl r)], fun l hl => ?_⟩
    obtain ⟨r', hlt, hrank⟩ := ranking.below k r hk l hl
    rw [hranks l r' hrank, if_pos hlt]

theorem After.round (h : After ranking n before) (hround : Round ranking before after) :
    After ranking (n + 1) after where
  ordered k r hk hdone l hl := by
    obtain ⟨r', -, hl'⟩ := ranking.below k r hk l hl
    have hneeds : before l = .done := by
      by_cases hready : Ready ranking before k
      · exact hready.2 l hl
      · rw [hround.stays k r hk hready] at hdone
        exact h.ordered k r hk hdone l hl
    rw [hround.stays_of_ne hl' (by rw [hneeds]; exact nofun), hneeds]
  ranks hfailed k r hk := by
    have hbefore : ¬ Failed ranking before := fun hfail => hfailed (hfail.round hround)
    by_cases hready : Ready ranking before k
    · have hrank := (h.ready_iff hbefore hk).mp hready
      rw [if_pos (by omega)]
      cases hafter : after k with
      | waiting => exact absurd hafter (hround.ends k r hk hready)
      | done => rfl
      | failed => exact absurd ⟨k, r, hk, hafter⟩ hfailed
    · have hrank : r ≠ n := fun heq => hready ((h.ready_iff hbefore hk).mpr heq)
      have hsame : (r < n + 1) = (r < n) := propext (by omega)
      rw [hround.stays k r hk hready, h.ranks hbefore k r hk]
      simp only [hsame]

/-- What is said of those that have a rank is all that matters. -/
theorem Failed.congr (hfailed : Failed ranking before)
    (h : ∀ k r, ranking.rank k = some r → after k = before k) : Failed ranking after := by
  obtain ⟨k, r, hk, hfail⟩ := hfailed
  exact ⟨k, r, hk, (h k r hk).trans hfail⟩

theorem After.congr (hafter : After ranking n before)
    (h : ∀ k r, ranking.rank k = some r → after k = before k) : After ranking n after where
  ordered k r hk hdone l hl := by
    obtain ⟨r', -, hl'⟩ := ranking.below k r hk l hl
    rw [h l r' hl']
    exact hafter.ordered k r hk ((h k r hk).symm.trans hdone) l hl
  ranks hfailed k r hk := by
    rw [h k r hk]
    exact hafter.ranks (fun hfail => hfailed (hfail.congr h)) k r hk

/-- While nothing fails, a rank is done when it has had its round. -/
theorem After.done_iff (h : After ranking n progress) (hfailed : ¬ Failed ranking progress)
    {k : κ} {r : Nat} (hk : ranking.rank k = some r) : progress k = .done ↔ r < n := by
  rw [h.ranks hfailed k r hk]
  split <;> simp_all

/-- What is done has everything done that it needs, directly or not. -/
theorem After.done_of_reaches (h : After ranking n progress) {k l : κ} {r : Nat}
    (hk : ranking.rank k = some r) (hdone : progress k = .done)
    (hreaches : Relation.ReflTransGen (fun k l => l ∈ ranking.needs k) k l) :
    progress l = .done := by
  have hboth : (∃ r, ranking.rank l = some r) ∧ progress l = .done := by
    induction hreaches with
    | refl => exact ⟨⟨r, hk⟩, hdone⟩
    | tail _ hneeds ih =>
        obtain ⟨⟨r', hrank⟩, hmid⟩ := ih
        obtain ⟨r'', -, hrank'⟩ := ranking.below _ r' hrank _ hneeds
        exact ⟨⟨r'', hrank'⟩, h.ordered _ r' hrank hmid _ hneeds⟩
  exact hboth.2

end Rounds
