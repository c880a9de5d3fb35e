import YoutubeFactory.Lib.Except
import Mathlib.Order.Lattice

/-!
# The first of the greatest

`max` of a list by a key: of the values whose key is greatest it gives the one that comes first.
A key may raise, and then there is no greatest value.

The value depends on the order of the list where two values have the greatest key, and nowhere else
(`firstMax_of_head`, `firstMax_eq_iff`).
-/

namespace FirstMax

variable {α β K ε : Type} [LinearOrder K] {key : α → Except ε K}

/-- The best so far, and its key, against the rest. -/
def keepBest (key : α → Except ε K) (best : α) (k : K) : List α → Except ε α
  | [] => .ok best
  | x :: xs => do
      let l ← key x
      if k < l then keepBest key x l xs else keepBest key best k xs

/-- `max(x, *xs)` with a key. -/
def firstMax (key : α → Except ε K) (x : α) (xs : List α) : Except ε α := do
  let k ← key x
  keepBest key x k xs

/-- Every value has a key, and none has a greater one. -/
structure Greatest (key : α → Except ε K) (xs : List α) (x : α) : Prop where
  mem : x ∈ xs
  greatest : ∃ k, key x = .ok k ∧ ∀ y ∈ xs, ∃ l, key y = .ok l ∧ l ≤ k

theorem Greatest.of_subset {xs ys : List α} {x : α} (h : Greatest key xs x)
    (hsame : ∀ y, y ∈ xs ↔ y ∈ ys) : Greatest key ys x := by
  obtain ⟨k, hk, hall⟩ := h.greatest
  exact ⟨(hsame x).mp h.mem, k, hk, fun y hy => hall y ((hsame y).mpr hy)⟩

theorem greatest_of_keepBest :
    ∀ {xs : List α} {best x : α} {k : K}, key best = .ok k → keepBest key best k xs = .ok x →
      Greatest key (best :: xs) x
  | [], best, x, k, hbest, h => by
      cases h
      refine ⟨List.mem_cons_self, k, hbest, fun y hy => ?_⟩
      rw [List.mem_singleton.mp hy]
      exact ⟨k, hbest, le_rfl⟩
  | y :: ys, best, x, k, hbest, h => by
      obtain ⟨l, hy, hrest⟩ := Except.bind_eq_ok.mp h
      split at hrest
      · next hlt =>
          obtain ⟨hmem, m, hx, hall⟩ := greatest_of_keepBest hy hrest
          obtain ⟨l', hl', hle⟩ := hall y List.mem_cons_self
          cases hy.symm.trans hl'
          refine ⟨List.mem_cons_of_mem best hmem, m, hx, List.forall_mem_cons.mpr ⟨?_, hall⟩⟩
          exact ⟨k, hbest, hlt.le.trans hle⟩
      · next hnot =>
          obtain ⟨hmem, m, hx, hall⟩ := greatest_of_keepBest hbest hrest
          obtain ⟨⟨k', hk', hle⟩, hys⟩ := List.forall_mem_cons.mp hall
          cases hbest.symm.trans hk'
          refine ⟨?_, m, hx, ?_⟩
          · rcases List.mem_cons.mp hmem with rfl | hmem
            · exact List.mem_cons_self
            · exact List.mem_cons_of_mem best (List.mem_cons_of_mem y hmem)
          · refine List.forall_mem_cons.mpr ⟨⟨k, hbest, hle⟩, ?_⟩
            exact List.forall_mem_cons.mpr ⟨⟨l, hy, (not_lt.mp hnot).trans hle⟩, hys⟩

theorem greatest_of_firstMax {x y : α} {xs : List α} (h : firstMax key x xs = .ok y) :
    Greatest key (x :: xs) y := by
  obtain ⟨k, hk, hrest⟩ := Except.bind_eq_ok.mp h
  exact greatest_of_keepBest hk hrest

theorem keepBest_of_le {best : α} {k : K} :
    ∀ {xs : List α}, (∀ y ∈ xs, ∃ l, key y = .ok l ∧ l ≤ k) → keepBest key best k xs = .ok best
  | [], _ => rfl
  | y :: ys, h => by
      obtain ⟨⟨l, hy, hle⟩, hys⟩ := List.forall_mem_cons.mp h
      rw [keepBest, hy, Except.ok_bind, if_neg (not_lt.mpr hle)]
      exact keepBest_of_le hys

/-- A value with the greatest key that comes first. -/
theorem firstMax_of_head {x : α} {xs : List α} (h : Greatest key (x :: xs) x) :
    firstMax key x xs = .ok x := by
  obtain ⟨k, hk, hall⟩ := h.greatest
  rw [firstMax, hk, Except.ok_bind]
  exact keepBest_of_le (List.forall_mem_cons.mp hall).2

theorem exists_keepBest :
    ∀ {xs : List α} {best : α} {k : K}, (∀ y ∈ xs, ∃ l, key y = .ok l) →
      ∃ x, keepBest key best k xs = .ok x
  | [], best, _, _ => ⟨best, rfl⟩
  | y :: ys, best, k, h => by
      obtain ⟨⟨l, hy⟩, hys⟩ := List.forall_mem_cons.mp h
      rw [keepBest, hy, Except.ok_bind]
      split
      · exact exists_keepBest hys
      · exact exists_keepBest hys

/-- Where one value alone has the greatest key, it is the one. -/
theorem firstMax_eq_iff {x y : α} {xs : List α}
    (hunique : ∀ y z, Greatest key (x :: xs) y → Greatest key (x :: xs) z → y = z) :
    firstMax key x xs = .ok y ↔ Greatest key (x :: xs) y := by
  refine ⟨greatest_of_firstMax, fun h => ?_⟩
  obtain ⟨k, -, hall⟩ := h.greatest
  obtain ⟨⟨l, hx, -⟩, hxs⟩ := List.forall_mem_cons.mp hall
  have hkeys : ∀ y ∈ xs, ∃ l, key y = .ok l := fun y hy => by
    obtain ⟨m, hm, -⟩ := hxs y hy
    exact ⟨m, hm⟩
  obtain ⟨z, hz⟩ : ∃ z, keepBest key x l xs = .ok z := exists_keepBest hkeys
  have hfirst : firstMax key x xs = .ok z := by
    rw [firstMax, hx, Except.ok_bind, hz]
  rw [hunique y z h (greatest_of_firstMax hfirst)]
  exact hfirst

theorem keepBest_map {f : β → α} {best : β} {k : K} :
    ∀ {xs : List β}, keepBest key (f best) k (xs.map f) =
      (keepBest (fun x => key (f x)) best k xs).map f
  | [] => rfl
  | x :: xs => by
      rw [List.map_cons, keepBest, keepBest]
      cases key (f x) with
      | error e => rfl
      | ok l =>
          rw [Except.ok_bind, Except.ok_bind, keepBest_map, keepBest_map]
          split
          · rfl
          · rfl

theorem firstMax_map {f : β → α} {x : β} {xs : List β} :
    firstMax key (f x) (xs.map f) = (firstMax (fun x => key (f x)) x xs).map f := by
  rw [firstMax, firstMax]
  cases key (f x) with
  | error e => rfl
  | ok k => exact keepBest_map

end FirstMax
