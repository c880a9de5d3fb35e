import Mathlib.Data.Fintype.Card
import Mathlib.Data.List.Basic
import Mathlib.Data.List.Nodup
import Mathlib.Data.Set.Finite.List
import Mathlib.Logic.Relation
import Mathlib.Order.WellFounded

/-!
# Layers

Elements are placed level by level.  Whatever has to come before an element stands
in an earlier level, so the elements of one level do not depend on each other.
Elements are told apart by their keys, and `before k l` says that the element of
key `k` has to come before that of key `l`.

If every element stands as early as that allows, its level is the length of the longest path that
ends in it (`longest`).

Where the elements are placed one after the other, all of them can be placed exactly if there is no
cycle (`Sequenced.acyclic`, `exists_cycle`).
-/

namespace Layers

variable {α κ : Type} {key : α → κ} {before : κ → κ → Prop}

/-- Levels on top of what is placed already. -/
def Layered (key : α → κ) (before : κ → κ → Prop) : List κ → List (List α) → Prop
  | _, [] => True
  | placed, level :: levels =>
      (level.map key).Nodup ∧
      (∀ a ∈ level, key a ∉ placed ∧ ∀ k, before k (key a) → k ∈ placed) ∧
      Layered key before (placed ++ level.map key) levels

namespace Layered

variable {placed : List κ} {levels : List (List α)}

/-- No key is placed twice. -/
theorem notPlaced :
    ∀ {levels : List (List α)} {placed : List κ}, Layered key before placed levels →
      ∀ a ∈ levels.flatten, key a ∉ placed
  | level :: levels, placed, ⟨_, hlevel, hrest⟩, a, ha => by
      rw [List.flatten_cons, List.mem_append] at ha
      rcases ha with hhere | hlater
      · exact (hlevel a hhere).1
      · intro hplaced
        exact notPlaced hrest a hlater (List.mem_append_left _ hplaced)

theorem nodup_keys :
    ∀ {levels : List (List α)} {placed : List κ}, Layered key before placed levels →
      (levels.flatten.map key).Nodup
  | [], _, _ => List.nodup_nil
  | level :: levels, placed, ⟨hnodup, _, hrest⟩ => by
      rw [List.flatten_cons, List.map_append, List.nodup_append]
      refine ⟨hnodup, nodup_keys hrest, ?_⟩
      rintro k hk l hl rfl
      obtain ⟨a, ha, rfl⟩ := List.mem_map.mp hl
      exact notPlaced hrest a ha (List.mem_append_right _ hk)

/-- What comes before an element stands in an earlier level. -/
theorem before_mem :
    ∀ {levels : List (List α)} {placed : List κ}, Layered key before placed levels →
      ∀ {i : Nat} {level : List α}, levels[i]? = some level → ∀ a ∈ level, ∀ k,
        before k (key a) → k ∈ placed ++ (levels.take i).flatten.map key
  | level :: levels, placed, ⟨_, hlevel, _⟩, 0, _, h, a, ha, k, hk => by
      cases h
      rw [List.take_zero, List.flatten_nil, List.map_nil, List.append_nil]
      exact (hlevel a ha).2 k hk
  | level :: levels, placed, ⟨_, _, hrest⟩, i + 1, _, h, a, ha, k, hk => by
      have hmem := before_mem hrest (i := i) h a ha k hk
      rwa [List.append_assoc, ← List.map_append] at hmem

/-- What comes before an element stands in a level of its own. -/
theorem before_level {levels : List (List α)} (h : Layered key before [] levels) {i : Nat}
    {level : List α} (hi : levels[i]? = some level) {a : α} (ha : a ∈ level) {k : κ}
    (hk : before k (key a)) : ∃ j < i, ∃ level', levels[j]? = some level' ∧ ∃ b ∈ level',
      key b = k := by
  have hmem := before_mem h hi a ha k hk
  rw [List.nil_append] at hmem
  obtain ⟨b, hb, hbk⟩ := List.mem_map.mp hmem
  obtain ⟨level', hlevel', hb'⟩ := List.mem_flatten.mp hb
  obtain ⟨j, hj⟩ := List.mem_iff_getElem?.mp hlevel'
  rw [List.getElem?_take] at hj
  split at hj
  · next hlt => exact ⟨j, hlt, level', hj, b, hb', hbk⟩
  · cases hj

end Layered

/-! ## Longest paths -/

/-- A path of so many edges that ends in this key. -/
inductive PathTo (before : κ → κ → Prop) : Nat → κ → Prop
  | single (k : κ) : PathTo before 0 k
  | step {n : Nat} {k l : κ} (path : PathTo before n k) (edge : before k l) :
      PathTo before (n + 1) l

/-- The longest path that ends in this key has so many edges. -/
structure LongestPath (before : κ → κ → Prop) (n : Nat) (k : κ) : Prop where
  path : PathTo before n k
  longest : ∀ m, PathTo before m k → m ≤ n

/-- A path goes on along more edges. -/
theorem PathTo.trans {n : Nat} {k l : κ} (path : PathTo before n k)
    (h : Relation.TransGen before k l) : ∃ m, n < m ∧ PathTo before m l := by
  induction h with
  | single hkl => exact ⟨n + 1, Nat.lt_succ_self n, path.step hkl⟩
  | tail _ hlm ih =>
      obtain ⟨m, hm, hpath⟩ := ih
      exact ⟨m + 1, Nat.lt_succ_of_lt hm, hpath.step hlm⟩

/-- No longest path ends in a key on a cycle. -/
theorem LongestPath.no_cycle {n : Nat} {k : κ} (h : LongestPath before n k) :
    ¬ Relation.TransGen before k k := by
  intro hcycle
  obtain ⟨m, hm, hpath⟩ := h.path.trans hcycle
  exact absurd (h.longest m hpath) (Nat.not_le.mpr hm)

/-- What stands in a later level waits for something that this level has not seen. -/
def Early (key : α → κ) (before : κ → κ → Prop) : List κ → List (List α) → Prop
  | _, [] => True
  | placed, level :: levels =>
      (∀ a ∈ levels.flatten, ∃ k, before k (key a) ∧ k ∉ placed) ∧
        Early key before (placed ++ level.map key) levels

theorem Early.waits :
    ∀ {levels : List (List α)} {placed : List κ}, Early key before placed levels →
      ∀ {i : Nat} {level : List α}, levels[i + 1]? = some level → ∀ a ∈ level,
        ∃ k, before k (key a) ∧ k ∉ placed ++ (levels.take i).flatten.map key
  | level :: levels, placed, ⟨hwaits, _⟩, 0, level', h, a, ha => by
      obtain ⟨k, hk, hnot⟩ := hwaits a (List.mem_flatten.mpr ⟨level', List.mem_of_getElem? h, ha⟩)
      refine ⟨k, hk, ?_⟩
      rwa [List.take_zero, List.flatten_nil, List.map_nil, List.append_nil]
  | level :: levels, placed, ⟨_, hrest⟩, i + 1, level', h, a, ha => by
      obtain ⟨k, hk, hnot⟩ := Early.waits hrest (i := i) h a ha
      refine ⟨k, hk, ?_⟩
      rwa [List.append_assoc, ← List.map_append] at hnot

/-- An element after the first level has an edge from the level before its own. -/
theorem edge_from_level {levels : List (List α)} (h : Layered key before [] levels)
    (hearly : Early key before [] levels) {i : Nat} {level : List α}
    (hi : levels[i + 1]? = some level) {a : α} (ha : a ∈ level) :
    ∃ level', levels[i]? = some level' ∧ ∃ b ∈ level', before (key b) (key a) := by
  obtain ⟨k, hk, hnot⟩ := hearly.waits hi a ha
  obtain ⟨j, hj, level', hlevel', b, hb, rfl⟩ := h.before_level hi ha hk
  rw [List.nil_append] at hnot
  have hij : i ≤ j := by
    refine Nat.le_of_not_lt fun hlt => hnot (List.mem_map_of_mem (List.mem_flatten.mpr
      ⟨level', List.mem_of_getElem? (i := j) ?_, hb⟩))
    rw [List.getElem?_take, if_pos hlt, hlevel']
  have heq : j = i := Nat.le_antisymm (Nat.le_of_lt_succ hj) hij
  exact ⟨level', heq ▸ hlevel', b, hb, hk⟩

/-- The level of an element is the length of the longest path that ends in it. -/
theorem longest {levels : List (List α)} (h : Layered key before [] levels)
    (hearly : Early key before [] levels) :
    ∀ {i : Nat} {level : List α}, levels[i]? = some level → ∀ {a : α}, a ∈ level →
      LongestPath before i (key a) := by
  intro i
  induction i using Nat.strongRecOn with
  | ind i ih =>
      intro level hi a ha
      constructor
      · cases i with
        | zero => exact .single _
        | succ i =>
            obtain ⟨level', hlevel', b, hb, hedge⟩ := edge_from_level h hearly hi ha
            exact (ih i (Nat.lt_succ_self i) hlevel' hb).path.step hedge
      · intro m hpath
        cases hpath with
        | single => exact Nat.zero_le _
        | step hprefix hedge =>
            obtain ⟨j, hj, level', hlevel', b, hb, rfl⟩ := h.before_level hi ha hedge
            exact Nat.lt_of_le_of_lt ((ih j hj hlevel' hb).longest _ hprefix) hj

/-- Where each of finitely many elements has another one of them before it, there is a cycle. -/
theorem exists_cycle {keys : List κ} (hne : keys ≠ [])
    (hbefore : ∀ l ∈ keys, ∃ k ∈ keys, before k l) : ∃ k, Relation.TransGen before k k := by
  by_contra hnone
  have : Finite {k // k ∈ keys} := (List.finite_toSet keys).to_subtype
  let after : {k // k ∈ keys} → {k // k ∈ keys} → Prop := fun k l =>
    Relation.TransGen before k.1 l.1
  have : IsTrans {k // k ∈ keys} after := ⟨fun _ _ _ h h' => h.trans h'⟩
  have : Std.Irrefl after := ⟨fun k hk => hnone ⟨k.1, hk⟩⟩
  obtain ⟨first, hfirst⟩ := List.exists_mem_of_ne_nil keys hne
  obtain ⟨m, -, hmin⟩ := (Finite.wellFounded_of_trans_of_irrefl after).has_min Set.univ
    ⟨⟨first, hfirst⟩, trivial⟩
  obtain ⟨k, hk, hkm⟩ := hbefore m.1 m.2
  exact hmin ⟨k, hk⟩ trivial (.single hkm)

/-- Where every edge goes up, there is no cycle. -/
theorem no_cycle_of_rank {r : κ → κ → Prop} {rank : κ → Nat}
    (h : ∀ j k, r j k → rank j < rank k) (k : κ) : ¬ Relation.TransGen r k k := by
  intro hcycle
  have hlift : Relation.TransGen (fun a b : Nat => a < b) (rank k) (rank k) := hcycle.lift rank h
  rw [Relation.transGen_eq_self] at hlift
  exact lt_irrefl _ hlift

/-- A cycle keeps to the edges that others follow. -/
theorem cycle_of_followed {r s : κ → κ → Prop} (h : ∀ j k l, r j k → r k l → s j k) {k : κ}
    (hcycle : Relation.TransGen r k k) : Relation.TransGen s k k := by
  have hpath : ∀ {j k : κ}, Relation.TransGen r j k → ∀ l, r k l → Relation.TransGen s j k := by
    intro j k hjk
    induction hjk with
    | single hedge => exact fun l hl => .single (h _ _ l hedge hl)
    | tail _ hedge ih => exact fun l hl => .tail (ih _ hedge) (h _ _ l hedge hl)
  obtain ⟨l, hl, -⟩ := Relation.TransGen.head'_iff.mp hcycle
  exact hpath hcycle l hl

/-! ## Sequences -/

/-- Whatever has to come before a key stands before it. -/
def Sequenced (before : κ → κ → Prop) (order : List κ) : Prop :=
  ∀ i k, order[i]? = some k → ∀ j, before j k → j ∈ order.take i

namespace Sequenced

variable {order : List κ}

theorem nil : Sequenced before [] := fun _ _ h => nomatch h

theorem append {k : κ} (h : Sequenced before order) (hk : ∀ j, before j k → j ∈ order) :
    Sequenced before (order ++ [k]) := by
  intro i l hl j hj
  rcases Nat.lt_or_ge i order.length with hi | hi
  · rw [List.getElem?_append_left hi] at hl
    rw [List.take_append_of_le_length hi.le]
    exact h i l hl j hj
  · rw [List.getElem?_append_right hi] at hl
    obtain ⟨hzero, rfl⟩ : i - order.length = 0 ∧ k = l := by
      cases hsub : i - order.length with
      | zero =>
          rw [hsub] at hl
          exact ⟨rfl, Option.some.inj hl⟩
      | succ n =>
          rw [hsub] at hl
          cases hl
    rw [Nat.le_antisymm (Nat.sub_eq_zero_iff_le.mp hzero) hi, List.take_left]
    exact hk j hj

/-- What comes before a key has a smaller place. -/
theorem idxOf_lt [DecidableEq κ] (h : Sequenced before order) {j k : κ} (hk : k ∈ order)
    (hjk : before j k) : order.idxOf j < order.idxOf k := by
  have hget : order[order.idxOf k]? = some k := List.getElem?_idxOf hk
  have hmem := h _ k hget j hjk
  have hlt := ((List.take_prefix _ _).mem_iff_idxOf_lt_length j).mp hmem
  exact hlt.trans_le (List.length_take_le _ _)

/-- Where every key that something comes before is placed, there is no cycle. -/
theorem acyclic (h : Sequenced before order) (hall : ∀ j k, before j k → k ∈ order) (k : κ) :
    ¬ Relation.TransGen before k k := by
  classical
  exact no_cycle_of_rank (fun j k hjk => h.idxOf_lt (hall j k hjk) hjk) k

end Sequenced

end Layers
