import YoutubeFactory.Lib.Sorting
import Mathlib.Data.List.Flatten
import Mathlib.Data.List.Lattice
import Mathlib.Data.List.Perm.Basic
import Mathlib.Tactic.ByContra

/-!
# Pages of an ordered list

A list is shown page by page in an order that may leave ties, and each page may resolve them
anew.  Elements that are tied stand on consecutive places, and which of them stands where is open.
So the pages show every element once, whatever the orders, exactly if no ties stand on two pages
(`walk_iff`).
-/

namespace Paging

variable {α : Type} {r : α → α → Prop} [DecidableRel r]

/-! ## Orders -/

/-- An order of the elements. -/
structure Orders (r : α → α → Prop) (l order : List α) : Prop where
  perm : order.Perm l
  sorted : order.Pairwise r

/-- The number of elements that come before all that are tied with `a`. -/
def before (r : α → α → Prop) [DecidableRel r] (l : List α) (a : α) : Nat :=
  l.countP fun x => r x a ∧ ¬ r a x

/-- The number of elements that come before `a` or are tied with it, `a` included. -/
def upTo (r : α → α → Prop) [DecidableRel r] (l : List α) (a : α) : Nat :=
  l.countP fun x => r x a

/-- Where what comes before an element of a kind is of the kind, the elements of the kind come
first. -/
theorem kind_iff_lt_countP {P : α → Bool} {a : α} :
    ∀ {l : List α} {i : Nat}, l.Pairwise (fun x y => P y = true → P x = true) → l[i]? = some a →
      (P a = true ↔ i < l.countP P)
  | [], i, _, h => by cases h
  | b :: l, i, hkind, h => by
      obtain ⟨hfirst, hrest⟩ := List.pairwise_cons.mp hkind
      by_cases hb : P b = true
      · rw [List.countP_cons, if_pos hb]
        cases i with
        | zero =>
            cases h
            exact ⟨fun _ => Nat.succ_pos _, fun _ => hb⟩
        | succ i =>
            rw [List.getElem?_cons_succ] at h
            rw [kind_iff_lt_countP hrest h, Nat.succ_lt_succ_iff]
      · have hnone : ∀ x ∈ b :: l, ¬ P x = true := by
          intro x hx hPx
          rcases List.mem_cons.mp hx with rfl | hx
          · exact hb hPx
          · exact hb (hfirst x hx hPx)
        rw [List.countP_eq_zero.mpr hnone]
        exact ⟨fun ha => absurd ha (hnone a (List.mem_of_getElem? h)), fun hlt => by cases hlt⟩

section

variable {l order : List α} {a : α} {i : Nat}

/-- An element stands among those that it is tied with. -/
theorem Orders.before_le (htrans : ∀ a b c, r a b → r b c → r a c) (h : Orders r l order)
    (ha : order[i]? = some a) : before r l a ≤ i := by
  have hkind : order.Pairwise fun x y => decide (r y a ∧ ¬ r a y) = true →
      decide (r x a ∧ ¬ r a x) = true := h.sorted.imp fun {x y} hxy hy => by
    rw [decide_eq_true_eq] at hy ⊢
    exact ⟨htrans _ _ _ hxy hy.1, fun hax => hy.2 (htrans _ _ _ hax hxy)⟩
  have hiff := kind_iff_lt_countP hkind ha
  rw [h.perm.countP_eq, decide_eq_true_eq] at hiff
  exact not_lt.mp fun hlt => (hiff.mpr hlt).2 (hiff.mpr hlt).1

theorem Orders.lt_upTo (htotal : ∀ a b, r a b ∨ r b a) (htrans : ∀ a b c, r a b → r b c → r a c)
    (h : Orders r l order) (ha : order[i]? = some a) : i < upTo r l a := by
  have hkind : order.Pairwise fun x y => decide (r y a) = true → decide (r x a) = true :=
    h.sorted.imp fun {x y} hxy hy => by
      rw [decide_eq_true_eq] at hy ⊢
      exact htrans _ _ _ hxy hy
  have hiff := kind_iff_lt_countP hkind ha
  rw [h.perm.countP_eq, decide_eq_true_eq] at hiff
  exact hiff.mp ((htotal a a).elim id id)

/-! ## Pages -/

/-- A page, counted from zero. -/
def page (size k : Nat) (l : List α) : List α := (l.drop (k * size)).take size

/-- The number of pages of `n` elements. -/
def pageCount (size n : Nat) : Nat := (n + size - 1) / size

variable {size k : Nat}

theorem lt_pageCount (hsize : 0 < size) {n : Nat} : k < pageCount size n ↔ k * size < n := by
  rw [pageCount, Nat.lt_div_iff_mul_lt hsize]
  omega

theorem mem_page (hsize : 0 < size) :
    a ∈ page size k l ↔ ∃ i, l[i]? = some a ∧ i / size = k := by
  rw [page, List.mem_iff_getElem?]
  constructor
  · rintro ⟨j, hj⟩
    obtain ⟨hlt, hget⟩ : j < size ∧ l[k * size + j]? = some a := by
      rw [List.getElem?_take] at hj
      split at hj
      · next hlt => exact ⟨hlt, by rwa [List.getElem?_drop] at hj⟩
      · cases hj
    refine ⟨k * size + j, hget, ?_⟩
    rw [Nat.mul_comm, Nat.mul_add_div hsize, Nat.div_eq_of_lt hlt, Nat.add_zero]
  · rintro ⟨i, hget, rfl⟩
    refine ⟨i % size, ?_⟩
    rw [List.getElem?_take, if_pos (Nat.mod_lt i hsize), List.getElem?_drop, Nat.mul_comm,
      Nat.div_add_mod, hget]

/-- The elements that are tied stand on one page. -/
def TiesOnOnePage (r : α → α → Prop) [DecidableRel r] (size : Nat) (l : List α) : Prop :=
  ∀ a ∈ l, before r l a / size = (upTo r l a - 1) / size

instance : Decidable (TiesOnOnePage r size l) :=
  inferInstanceAs (Decidable (∀ a ∈ l, _))

/-- Then each page shows the same elements in every order. -/
theorem Orders.page_perm (htotal : ∀ a b, r a b ∨ r b a)
    (htrans : ∀ a b c, r a b → r b c → r a c) (hsize : 0 < size) (hnodup : l.Nodup)
    (hties : TiesOnOnePage r size l) (h : Orders r l order) (k : Nat) :
    (page size k order).Perm (l.filter fun a => before r l a / size = k) := by
  have hplace : ∀ i a, order[i]? = some a → i / size = before r l a / size := by
    intro i a ha
    have hmem : a ∈ l := h.perm.mem_iff.mp (List.mem_of_getElem? ha)
    have hlow : before r l a / size ≤ i / size := Nat.div_le_div_right (h.before_le htrans ha)
    have hhigh : i / size ≤ (upTo r l a - 1) / size :=
      Nat.div_le_div_right (Nat.le_sub_one_of_lt (h.lt_upTo htotal htrans ha))
    rw [← hties a hmem] at hhigh
    exact Nat.le_antisymm hhigh hlow
  have hpage : (page size k order).Nodup :=
    (h.perm.nodup_iff.mpr hnodup).sublist
      ((List.take_sublist _ _).trans (List.drop_sublist _ _))
  refine (List.perm_ext_iff_of_nodup hpage (hnodup.filter _)).mpr fun a => ?_
  rw [mem_page hsize, List.mem_filter, decide_eq_true_eq]
  constructor
  · rintro ⟨i, ha, hi⟩
    exact ⟨h.perm.mem_iff.mp (List.mem_of_getElem? ha), hplace i a ha ▸ hi⟩
  · rintro ⟨hmem, hk⟩
    obtain ⟨i, ha⟩ := List.mem_iff_getElem?.mp (h.perm.mem_iff.mpr hmem)
    exact ⟨i, ha, (hplace i a ha).trans hk⟩

/-! ## Walking the pages -/

/-- The elements by the values of a function. -/
theorem flatMap_filter_perm (f : α → Nat) (l : List α) :
    ∀ n : Nat, ((List.range n).flatMap fun k => l.filter fun a => f a = k).Perm
      (l.filter fun a => f a < n)
  | 0 => by simp
  | n + 1 => by
      have hsplit := List.filter_append_perm (fun a => decide (f a < n))
        (l.filter fun a => f a < n + 1)
      have hlow : (l.filter fun a => f a < n + 1).filter (fun a => decide (f a < n)) =
          l.filter fun a => f a < n := by
        rw [List.filter_filter]
        refine List.filter_congr fun a _ => ?_
        rw [← Bool.decide_and, decide_eq_decide]
        omega
      have hhigh : (l.filter fun a => f a < n + 1).filter (fun a => !decide (f a < n)) =
          l.filter fun a => f a = n := by
        rw [List.filter_filter]
        refine List.filter_congr fun a _ => ?_
        rw [← decide_not, ← Bool.decide_and, decide_eq_decide]
        omega
      rw [hlow, hhigh] at hsplit
      rw [List.range_succ, List.flatMap_append, List.flatMap_singleton]
      exact ((flatMap_filter_perm f l n).append_right _).trans hsplit

/-- The pages, each in an order of its own. -/
def walk (size : Nat) (l : List α) (orders : Nat → List α) : List α :=
  (List.range (pageCount size l.length)).flatMap fun k => page size k (orders k)

theorem walk_perm (htotal : ∀ a b, r a b ∨ r b a) (htrans : ∀ a b c, r a b → r b c → r a c)
    (hsize : 0 < size) (hnodup : l.Nodup) (hties : TiesOnOnePage r size l) {orders : Nat → List α}
    (horders : ∀ k, Orders r l (orders k)) : (walk size l orders).Perm l := by
  have hpages : (walk size l orders).Perm ((List.range (pageCount size l.length)).flatMap fun k =>
      l.filter fun a => before r l a / size = k) :=
    List.Perm.flatMap_left _ fun k _ => (horders k).page_perm htotal htrans hsize hnodup hties k
  refine (hpages.trans (flatMap_filter_perm _ l _)).trans (List.Perm.of_eq ?_)
  refine List.filter_eq_self.mpr fun a ha => ?_
  have hlt : before r l a < l.length := by
    refine lt_of_le_of_ne List.countP_le_length fun heq => ?_
    have hself := List.countP_eq_length.mp heq a ha
    rw [decide_eq_true_eq] at hself
    exact hself.2 hself.1
  rw [decide_eq_true_eq, lt_pageCount hsize]
  exact Nat.lt_of_le_of_lt (Nat.div_mul_le_self _ _) hlt

/-! ## Ties on two pages -/

/-- What comes before `a` or is tied with it. -/
theorem perm_upTo (r : α → α → Prop) [DecidableRel r] (l : List α) (a : α) :
    ((l.filter fun x => r x a ∧ ¬ r a x) ++ l.filter fun x => r x a ∧ r a x).Perm
      (l.filter fun x => r x a) := by
  have hsplit := List.filter_append_perm (fun x => decide (¬ r a x)) (l.filter fun x => r x a)
  have hbefore : (l.filter fun x => r x a).filter (fun x => decide (¬ r a x)) =
      l.filter fun x => r x a ∧ ¬ r a x := by
    rw [List.filter_filter]
    refine List.filter_congr fun x _ => ?_
    rw [← Bool.decide_and, decide_eq_decide]
    exact and_comm
  have htied : (l.filter fun x => r x a).filter (fun x => !decide (¬ r a x)) =
      l.filter fun x => r x a ∧ r a x := by
    rw [List.filter_filter]
    refine List.filter_congr fun x _ => ?_
    rw [← decide_not, ← Bool.decide_and, decide_eq_decide, not_not]
    exact and_comm
  rwa [hbefore, htied] at hsplit

variable [DecidableEq α]

/-- The other elements that are tied with `a`. -/
def ties (r : α → α → Prop) [DecidableRel r] (l : List α) (a : α) : List α :=
  (l.filter fun x => r x a ∧ r a x).erase a

/-- The order in which `a` stands after `j` of the elements that it is tied with. -/
def placed (r : α → α → Prop) [DecidableRel r] (l : List α) (a : α) (j : Nat) : List α :=
  (l.filter fun x => r x a ∧ ¬ r a x).insertionSort r ++
    ((ties r l a).take j ++ a :: (ties r l a).drop j) ++
      (l.filter fun x => ¬ r x a).insertionSort r

theorem perm_ties (htotal : ∀ a b, r a b ∨ r b a) (ha : a ∈ l) (j : Nat) :
    ((ties r l a).take j ++ a :: (ties r l a).drop j).Perm
      (l.filter fun x => r x a ∧ r a x) := by
  have hself : r a a := (htotal a a).elim id id
  have hmem : a ∈ l.filter fun x => r x a ∧ r a x :=
    List.mem_filter.mpr ⟨ha, decide_eq_true ⟨hself, hself⟩⟩
  refine List.perm_middle.trans ?_
  rw [List.take_append_drop]
  exact (List.perm_cons_erase hmem).symm

theorem length_ties (htotal : ∀ a b, r a b ∨ r b a) (ha : a ∈ l) :
    before r l a + (ties r l a).length + 1 = upTo r l a := by
  have htied := (perm_ties htotal ha 0).length_eq
  have hsplit := (perm_upTo r l a).length_eq
  rw [List.length_append, ← htied] at hsplit
  rw [before, upTo, List.countP_eq_length_filter, List.countP_eq_length_filter, ← hsplit]
  simp only [List.take_zero, List.nil_append, List.drop_zero, List.length_cons]
  omega

theorem placed_orders (htotal : ∀ a b, r a b ∨ r b a)
    (htrans : ∀ a b c, r a b → r b c → r a c) (ha : a ∈ l) (j : Nat) :
    Orders r l (placed r l a j) := by
  constructor
  · have hfirst : ((l.filter fun x => r x a ∧ ¬ r a x).insertionSort r ++
        ((ties r l a).take j ++ a :: (ties r l a).drop j)).Perm (l.filter fun x => r x a) :=
      ((List.perm_insertionSort r _).append (perm_ties htotal ha j)).trans (perm_upTo r l a)
    have hlast : (l.filter fun x => ¬ r x a).insertionSort r |>.Perm
        (l.filter fun x => !decide (r x a)) := by
      simp only [← decide_not]
      exact List.perm_insertionSort r _
    exact (hfirst.append hlast).trans (List.filter_append_perm _ l)
  · have hbefore : ∀ x ∈ (l.filter fun x => r x a ∧ ¬ r a x).insertionSort r, r x a := by
      intro x hx
      rw [List.mem_insertionSort, List.mem_filter, decide_eq_true_eq] at hx
      exact hx.2.1
    have htied : ∀ x ∈ (ties r l a).take j ++ a :: (ties r l a).drop j, r x a ∧ r a x := by
      intro x hx
      have hmem := (perm_ties htotal ha j).mem_iff.mp hx
      rw [List.mem_filter, decide_eq_true_eq] at hmem
      exact hmem.2
    have hafter : ∀ x ∈ (l.filter fun x => ¬ r x a).insertionSort r, r a x := by
      intro x hx
      rw [List.mem_insertionSort, List.mem_filter, decide_eq_true_eq] at hx
      exact (htotal a x).resolve_right hx.2
    refine List.pairwise_append.mpr ⟨List.pairwise_append.mpr
      ⟨Sorting.pairwise_insertionSort htotal htrans _, ?_, fun x hx y hy => ?_⟩,
      Sorting.pairwise_insertionSort htotal htrans _, fun x hx y hy => ?_⟩
    · exact List.pairwise_of_forall_mem_list fun x hx y hy =>
        htrans _ _ _ (htied x hx).1 (htied y hy).2
    · exact htrans _ _ _ (hbefore x hx) (htied y hy).2
    · rcases List.mem_append.mp hx with hx | hx
      · exact htrans _ _ _ (hbefore x hx) (hafter y hy)
      · exact htrans _ _ _ (htied x hx).1 (hafter y hy)

theorem placed_getElem? {j : Nat} (hj : j ≤ (ties r l a).length) :
    (placed r l a j)[before r l a + j]? = some a := by
  have hlength : ((l.filter fun x => r x a ∧ ¬ r a x).insertionSort r).length = before r l a := by
    rw [List.length_insertionSort, before, List.countP_eq_length_filter]
  have htake : ((ties r l a).take j).length = j := List.length_take_of_le hj
  rw [placed, List.append_assoc, List.append_assoc, List.getElem?_append_right (by omega), hlength,
    List.getElem?_append_right (by omega), htake]
  simp

/-- One of the pages shows the element, in whatever orders they come, exactly if it stands on one page
with all that it is tied with: else it stands last on the first of their pages, and first on every
other one. -/
theorem shown_always_iff (htotal : ∀ a b, r a b ∨ r b a)
    (htrans : ∀ a b c, r a b → r b c → r a c) (hsize : 0 < size) (hnodup : l.Nodup) (ha : a ∈ l) :
    (∀ orders : Nat → List α, (∀ k, Orders r l (orders k)) → ∃ k, a ∈ page size k (orders k)) ↔
      before r l a / size = (upTo r l a - 1) / size := by
  constructor
  · intro hshown
    by_contra hne
    have hcount := length_ties htotal ha
    have horders : ∀ i, Orders r l
        (placed r l a (if i = before r l a / size then (ties r l a).length else 0)) :=
      fun i => placed_orders htotal htrans ha _
    obtain ⟨k, hk⟩ := hshown _ horders
    obtain ⟨i, hi, rfl⟩ := (mem_page hsize).mp hk
    have hplace : ∀ j, j ≤ (ties r l a).length → (placed r l a j)[i]? = some a →
        i = before r l a + j := by
      intro j hj hplaced
      have hsame := (placed_orders htotal htrans ha j).perm.nodup_iff.mpr hnodup
      have hlt := (List.getElem?_eq_some_iff.mp hplaced).1
      exact (List.getElem?_inj hlt hsame).mp (hplaced.trans (placed_getElem? hj).symm)
    split at hi
    · next hfirst =>
        have hlast := hplace _ (le_refl _) hi
        exact hne (by rw [← hfirst, hlast, ← hcount]; simp)
    · next hother =>
        have hfirst := hplace 0 (Nat.zero_le _) hi
        exact hother (by rw [hfirst, Nat.add_zero])
  · intro htied orders horders
    have hmem : a ∈ orders (before r l a / size) := (horders _).perm.mem_iff.mpr ha
    obtain ⟨i, hi⟩ := List.mem_iff_getElem?.mp hmem
    have hlow : before r l a / size ≤ i / size :=
      Nat.div_le_div_right ((horders _).before_le htrans hi)
    have hhigh : i / size ≤ (upTo r l a - 1) / size :=
      Nat.div_le_div_right (Nat.le_sub_one_of_lt ((horders _).lt_upTo htotal htrans hi))
    exact ⟨_, (mem_page hsize).mpr ⟨i, hi, by omega⟩⟩

/-- The pages show every element once, in whatever orders they come, exactly if no ties stand on
two pages. -/
theorem walk_iff (htotal : ∀ a b, r a b ∨ r b a) (htrans : ∀ a b c, r a b → r b c → r a c)
    (hsize : 0 < size) (hnodup : l.Nodup) :
    (∀ orders : Nat → List α, (∀ k, Orders r l (orders k)) → (walk size l orders).Perm l) ↔
      TiesOnOnePage r size l := by
  constructor
  · intro hwalk a ha
    refine (shown_always_iff htotal htrans hsize hnodup ha).mp fun orders horders => ?_
    obtain ⟨k, -, hk⟩ := List.mem_flatMap.mp ((hwalk orders horders).mem_iff.mpr ha)
    exact ⟨k, hk⟩
  · exact fun hties orders horders => walk_perm htotal htrans hsize hnodup hties horders

end

end Paging
