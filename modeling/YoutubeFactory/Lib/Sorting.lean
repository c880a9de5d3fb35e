import Mathlib.Data.List.Sort

/-!
# Sorting by a key that tells elements apart

A total and transitive relation sorts every list.  Where elements that stand below
each other are equal, the sorted list does not depend on the order of the input.
-/

namespace Sorting

variable {α : Type} {r : α → α → Prop} [DecidableRel r]

theorem pairwise_insertionSort (htotal : ∀ a b, r a b ∨ r b a)
    (htrans : ∀ a b c, r a b → r b c → r a c) (l : List α) : (l.insertionSort r).Pairwise r :=
  haveI : Std.Total r := ⟨htotal⟩
  haveI : IsTrans α r := ⟨htrans⟩
  List.pairwise_insertionSort r l

/-- The sorted list starts with an element that comes before all. -/
theorem head_insertionSort (htotal : ∀ a b, r a b ∨ r b a)
    (htrans : ∀ a b c, r a b → r b c → r a c) {l : List α} {a : α}
    (h : (l.insertionSort r).head? = some a) : a ∈ l ∧ ∀ b ∈ l, r a b := by
  obtain ⟨rest, hsorted⟩ := List.head?_eq_some_iff.mp h
  have hpairs := pairwise_insertionSort htotal htrans l
  rw [hsorted, List.pairwise_cons] at hpairs
  have hmem : ∀ b, b ∈ l ↔ b = a ∨ b ∈ rest := fun b => by
    rw [← List.mem_insertionSort r, hsorted, List.mem_cons]
  refine ⟨(hmem a).mpr (.inl rfl), fun b hb => ?_⟩
  rcases (hmem b).mp hb with rfl | hrest
  · exact (htotal b b).elim id id
  · exact hpairs.1 b hrest

/-- Two orders of the same elements are sorted alike. -/
theorem insertionSort_eq_of_perm (htotal : ∀ a b, r a b ∨ r b a)
    (htrans : ∀ a b c, r a b → r b c → r a c) {l l' : List α}
    (hantisymm : ∀ a ∈ l, ∀ b ∈ l, r a b → r b a → a = b) (h : l.Perm l') :
    l.insertionSort r = l'.insertionSort r := by
  have hperm : (l.insertionSort r).Perm (l'.insertionSort r) :=
    ((List.perm_insertionSort r l).trans h).trans (List.perm_insertionSort r l').symm
  refine hperm.eq_of_pairwise (fun a b ha hb => ?_) (pairwise_insertionSort htotal htrans l)
    (pairwise_insertionSort htotal htrans l')
  rw [List.mem_insertionSort] at ha hb
  exact hantisymm a ha b (h.mem_iff.mpr hb)

/-- Taking elements out before the sort or after it. -/
theorem insertionSort_filter (htotal : ∀ a b, r a b ∨ r b a)
    (htrans : ∀ a b c, r a b → r b c → r a c) (p : α → Bool) {l : List α}
    (hantisymm : ∀ a ∈ l, ∀ b ∈ l, r a b → r b a → a = b) :
    (l.filter p).insertionSort r = (l.insertionSort r).filter p := by
  have hperm : ((l.filter p).insertionSort r).Perm ((l.insertionSort r).filter p) :=
    (List.perm_insertionSort r _).trans ((List.perm_insertionSort r l).symm.filter p)
  refine hperm.eq_of_pairwise (fun a b ha hb => ?_) (pairwise_insertionSort htotal htrans _)
    ((pairwise_insertionSort htotal htrans l).sublist List.filter_sublist)
  rw [List.mem_insertionSort] at ha
  exact hantisymm a (List.mem_of_mem_filter ha) b
    ((List.mem_insertionSort r).mp (List.mem_of_mem_filter hb))

/-- A list that sorting leaves as it is was in order, element by element. -/
theorem isChain_of_insertionSort_eq (hrefl : ∀ a, r a a) {l : List α}
    (h : l.insertionSort r = l) : l.IsChain r := by
  induction l with
  | nil => exact .nil
  | cons a l ih =>
      rw [List.insertionSort_cons] at h
      cases hrest : l.insertionSort r with
      | nil =>
          rw [hrest] at h
          obtain rfl : [] = l := (List.cons.inj h).2
          exact .singleton a
      | cons b rest =>
          rw [hrest, List.orderedInsert_cons] at h
          split at h
          · next hab =>
              obtain rfl : b :: rest = l := (List.cons.inj h).2
              exact .cons_cons hab (ih hrest)
          · next hab =>
              obtain rfl : b = a := (List.cons.inj h).1
              exact absurd (hrefl b) hab

end Sorting
