import Mathlib.Data.List.Infix
import Mathlib.Data.Option.Basic

/-!
# Matchers that backtrack

A matcher takes what it can of a list and hands the rest to what is to match after it.
If that fails, it takes its next choice.  The order of the choices is that of a
backtracking engine for regular expressions: `optional` and `greedy` take as much as
they can first, and `lazily` as little.  The result is that of the first way through.
-/

namespace Backtracking

variable {α R : Type} {k m : List α → Option R} {s : List α} {x : R}

/-- The given elements. -/
def literal [DecidableEq α] (word : List α) (k : List α → Option R) (s : List α) : Option R :=
  if word.isPrefixOf s then k (s.drop word.length) else none

/-- The given elements, or nothing. -/
def optional [DecidableEq α] (word : List α) (k : List α → Option R) (s : List α) : Option R :=
  literal word k s <|> k s

/-- Any number of elements of a kind, the most first. -/
def greedy (kind : α → Bool) (k : List α → Option R) : List α → Option R
  | [] => k []
  | a :: s => if kind a then greedy kind k s <|> k (a :: s) else k (a :: s)

/-- Any number of elements, the fewest first.  `taken` are those taken so far, and what
matches afterwards gets them. -/
def lazily (k : List α → List α → Option R) (taken : List α) : List α → Option R
  | [] => k taken []
  | a :: s => k taken (a :: s) <|> lazily k (taken ++ [a]) s

/-- The first place at which a matcher succeeds. -/
def search (m : List α → Option R) (s : List α) : Option R := lazily (fun _ rest => m rest) [] s

/-! ## Literals -/

section

variable [DecidableEq α]

theorem literal_append (word : List α) (k : List α → Option R) (s : List α) :
    literal word k (word ++ s) = k s := by
  rw [literal, if_pos (List.isPrefixOf_iff_prefix.mpr (List.prefix_append word s)),
    List.drop_left]

theorem literal_of_not_start {word : List α} (h : ¬ word <+: s) : literal word k s = none := by
  rw [literal, if_neg fun hstart => h (List.isPrefixOf_iff_prefix.mp hstart)]

theorem literal_eq_some {word : List α} (h : literal word k s = some x) :
    ∃ rest, s = word ++ rest ∧ k rest = some x := by
  by_cases hstart : word <+: s
  · obtain ⟨rest, rfl⟩ := hstart
    exact ⟨rest, rfl, (literal_append word k rest).symm.trans h⟩
  · rw [literal_of_not_start hstart] at h
    cases h

theorem optional_eq_some {word : List α} (h : optional word k s = some x) :
    ∃ taken rest, s = taken ++ rest ∧ (taken = word ∨ taken = []) ∧ k rest = some x := by
  rcases (Option.orElse_eq_some _ _ _).mp h with hword | ⟨-, hnone⟩
  · obtain ⟨rest, rfl, hrest⟩ := literal_eq_some hword
    exact ⟨word, rest, rfl, .inl rfl, hrest⟩
  · exact ⟨[], s, rfl, .inr rfl, hnone⟩

theorem optional_of_not_start {word : List α} (h : ¬ word <+: s) : optional word k s = k s := by
  rw [optional, literal_of_not_start h]
  rfl

end

/-! ## Elements of a kind -/

section

variable {kind : α → Bool}

theorem greedy_eq_none (h : greedy kind k s = none) : k s = none := by
  cases s with
  | nil => exact h
  | cons a s =>
      rw [greedy] at h
      split at h
      · exact ((Option.orElse_eq_none _ _).mp h).2
      · exact h

theorem greedy_eq_some (h : greedy kind k s = some x) :
    ∃ taken rest, s = taken ++ rest ∧ (∀ a ∈ taken, kind a = true) ∧ k rest = some x := by
  induction s with
  | nil => exact ⟨[], [], rfl, nofun, h⟩
  | cons a s ih =>
      have hnow : k (a :: s) = some x →
          ∃ taken rest, a :: s = taken ++ rest ∧ (∀ a ∈ taken, kind a = true) ∧ k rest = some x :=
        fun hk => ⟨[], a :: s, rfl, nofun, hk⟩
      rw [greedy] at h
      split at h
      · next ha =>
          rcases (Option.orElse_eq_some _ _ _).mp h with hmore | ⟨-, hk⟩
          · obtain ⟨taken, rest, rfl, htaken, hk⟩ := ih hmore
            exact ⟨a :: taken, rest, rfl, List.forall_mem_cons.mpr ⟨ha, htaken⟩, hk⟩
          · exact hnow hk
      · exact hnow h

/-- Nothing is taken where the next element is not of the kind. -/
theorem greedy_of_head (h : ∀ a ∈ s.head?, kind a = false) : greedy kind k s = k s := by
  cases s with
  | nil => rfl
  | cons a s => rw [greedy, if_neg (by rw [h a rfl]; exact Bool.false_ne_true)]

/-- The elements of the kind are taken, all of them, if the rest succeeds after them. -/
theorem greedy_append {taken : List α} (htaken : ∀ a ∈ taken, kind a = true)
    (hhead : ∀ a ∈ s.head?, kind a = false) (hk : k s = some x) :
    greedy kind k (taken ++ s) = some x := by
  induction taken with
  | nil => rw [List.nil_append, greedy_of_head hhead, hk]
  | cons a taken ih =>
      obtain ⟨ha, hrest⟩ := List.forall_mem_cons.mp htaken
      rw [List.cons_append, greedy, if_pos ha, ih hrest]
      rfl

end

/-! ## The fewest elements -/

section

variable {k : List α → List α → Option R} {taken : List α}

theorem lazily_eq_none (h : lazily k taken s = none) (front rest : List α)
    (hs : s = front ++ rest) : k (taken ++ front) rest = none := by
  induction s generalizing taken front with
  | nil =>
      obtain ⟨rfl, rfl⟩ := List.nil_eq_append_iff.mp hs
      rw [List.append_nil]
      exact h
  | cons a s ih =>
      obtain ⟨hnow, hlater⟩ := (Option.orElse_eq_none _ _).mp h
      cases front with
      | nil =>
          rw [List.append_nil, ← hs.trans (List.nil_append rest)]
          exact hnow
      | cons b front =>
          obtain ⟨rfl, htail⟩ := List.cons_eq_cons.mp (hs.trans List.cons_append)
          have := ih hlater front htail
          rwa [List.append_assoc, List.singleton_append] at this

/-- What is taken is the shortest front part after which the rest succeeds. -/
theorem lazily_eq_some (h : lazily k taken s = some x) :
    ∃ front rest, s = front ++ rest ∧ k (taken ++ front) rest = some x ∧
      ∀ earlier more, s = earlier ++ more → earlier.length < front.length →
        k (taken ++ earlier) more = none := by
  induction s generalizing taken with
  | nil => exact ⟨[], [], rfl, by rwa [List.append_nil], fun _ _ _ hlt => absurd hlt (by simp)⟩
  | cons a s ih =>
      rcases (Option.orElse_eq_some _ _ _).mp h with hnow | ⟨hnot, hlater⟩
      · exact ⟨[], a :: s, rfl, by rwa [List.append_nil], fun _ _ _ hlt => absurd hlt (by simp)⟩
      · obtain ⟨front, rest, rfl, hk, hearlier⟩ := ih hlater
        rw [List.append_assoc, List.singleton_append] at hk
        refine ⟨a :: front, rest, rfl, hk, fun earlier more hs hlt => ?_⟩
        cases earlier with
        | nil =>
            rw [List.append_nil, ← hs.trans (List.nil_append more)]
            exact hnot
        | cons b earlier =>
            obtain ⟨rfl, htail⟩ := List.cons_eq_cons.mp (hs.trans List.cons_append)
            have := hearlier earlier more htail (Nat.lt_of_succ_lt_succ hlt)
            rwa [List.append_assoc, List.singleton_append] at this

theorem lazily_append {front : List α} (hk : k (taken ++ front) s = some x)
    (hearlier : ∀ earlier more, more ≠ [] → front = earlier ++ more →
      k (taken ++ earlier) (more ++ s) = none) :
    lazily k taken (front ++ s) = some x := by
  induction front generalizing taken with
  | nil =>
      rw [List.append_nil] at hk
      cases s with
      | nil => exact hk
      | cons a s => exact (Option.orElse_eq_some _ _ _).mpr (.inl hk)
  | cons a front ih =>
      have hnow := hearlier [] (a :: front) (List.cons_ne_nil a front) rfl
      rw [List.append_nil] at hnow
      refine (Option.orElse_eq_some _ _ _).mpr (.inr ⟨hnow, ih ?_ fun earlier more hmore hs => ?_⟩)
      · rwa [List.append_assoc, List.singleton_append]
      · rw [List.append_assoc, List.singleton_append]
        exact hearlier (a :: earlier) more hmore (congrArg (a :: ·) hs)

end

/-! ## Searches -/

theorem search_eq_none (h : search m s = none) (front rest : List α) (hs : s = front ++ rest) :
    m rest = none :=
  @lazily_eq_none α R s (fun _ rest => m rest) [] h front rest hs

theorem search_eq_some (h : search m s = some x) : ∃ front rest, s = front ++ rest ∧
    m rest = some x := by
  obtain ⟨front, rest, hs, hm, -⟩ := lazily_eq_some h
  exact ⟨front, rest, hs, hm⟩

theorem search_append {front : List α} (hm : m s = some x)
    (hearlier : ∀ earlier more, more ≠ [] → front = earlier ++ more → m (more ++ s) = none) :
    search m (front ++ s) = some x :=
  @lazily_append α R s x (fun _ rest => m rest) [] front hm hearlier

end Backtracking
