import Mathlib.Algebra.BigOperators.Group.List.Lemmas
import Mathlib.Algebra.Order.BigOperators.Group.List

/-!
# The rows of a table

A table is a list of rows, and a row is replaced at its position.  These are the
rows after one is modified, and the sums of a quantity over the rows, or over the
rows of one kind, after one is replaced.
-/

namespace Table

variable {α M : Type}

/-! ## The rows after a row is modified -/

theorem mem_modify {f : α → α} :
    ∀ {rows : List α} {k : Nat} {a : α}, a ∈ rows.modify k f → a ∈ rows ∨ ∃ b ∈ rows, f b = a
  | [], k, a, h => by
      rw [List.modify_nil] at h
      exact .inl h
  | row :: rows, 0, a, h => by
      rw [List.modify_zero_cons, List.mem_cons] at h
      rcases h with rfl | h
      · exact .inr ⟨row, List.mem_cons_self, rfl⟩
      · exact .inl (List.mem_cons_of_mem row h)
  | row :: rows, k + 1, a, h => by
      rw [List.modify_succ_cons, List.mem_cons] at h
      rcases h with rfl | h
      · exact .inl List.mem_cons_self
      · rcases mem_modify h with h | ⟨b, hb, hfb⟩
        · exact .inl (List.mem_cons_of_mem row h)
        · exact .inr ⟨b, List.mem_cons_of_mem row hb, hfb⟩

/-- A column that the modification leaves alone. -/
theorem map_modify {β : Type} {f : α → α} {column : α → β} (rows : List α)
    (h : ∀ a, column (f a) = column a) (k : Nat) :
    (rows.modify k f).map column = rows.map column := by
  induction rows generalizing k with
  | nil => rw [List.modify_nil]
  | cons row rows ih =>
      cases k with
      | zero => rw [List.modify_zero_cons, List.map_cons, List.map_cons, h]
      | succ k => rw [List.modify_succ_cons, List.map_cons, List.map_cons, ih]

/-- A column that the modification maps. -/
theorem map_modify_map {β : Type} {f : α → α} {column : α → β} {g : β → β} (rows : List α)
    (h : ∀ a, column (f a) = g (column a)) (k : Nat) :
    (rows.modify k f).map column = (rows.map column).modify k g := by
  induction rows generalizing k with
  | nil => simp
  | cons row rows ih =>
      cases k with
      | zero => simp [h]
      | succ k => simp [ih]

theorem modify_eq_set {f : α → α} {rows : List α} {k : Nat} {row : α} (h : rows[k]? = some row) :
    rows.modify k f = rows.set k (f row) := by
  obtain ⟨hlt, hrow⟩ := List.getElem?_eq_some_iff.mp h
  apply List.ext_getElem?
  intro i
  rw [List.getElem?_modify, List.getElem?_set]
  by_cases hi : k = i
  · subst hi
    simp [hlt, hrow]
  · simp [hi]

/-- Replacing a row by itself. -/
theorem set_same {a : α} :
    ∀ {rows : List α} {k : Nat}, rows[k]? = some a → rows.set k a = rows
  | row :: rows, 0, h => by
      cases h
      rfl
  | row :: rows, k + 1, h => congrArg (row :: ·) (set_same h)

/-! ## The first row that gives something -/

section

variable {β : Type} {f : α → Option β} {g : α → α}

/-- A modified row that gives nothing gave nothing before: the first row that gives
something is the one it was, or the modified one. -/
theorem findSome?_modify (hg : ∀ a, f (g a) = none → f a = none) {b : β} :
    ∀ {rows : List α} {k : Nat}, (rows.modify k g).findSome? f = some b →
      rows.findSome? f = some b ∨ ∃ a, rows[k]? = some a ∧ f (g a) = some b
  | [], k, h => by
      rw [List.modify_nil] at h
      exact .inl h
  | row :: rows, 0, h => by
      rw [List.modify_zero_cons, List.findSome?_cons] at h
      rw [List.findSome?_cons]
      cases hgive : f (g row) with
      | none =>
          rw [hgive] at h
          rw [hg row hgive]
          exact .inl h
      | some c =>
          rw [hgive] at h
          exact .inr ⟨row, rfl, hgive.trans h⟩
  | row :: rows, k + 1, h => by
      rw [List.modify_succ_cons, List.findSome?_cons] at h
      rw [List.findSome?_cons]
      cases hgive : f row with
      | none =>
          rw [hgive] at h
          exact findSome?_modify hg h
      | some c =>
          rw [hgive] at h
          exact .inl h

/-- The modified row is the first one that gives something. -/
theorem findSome?_modify_first {b : β} :
    ∀ {rows : List α} {k : Nat} {a : α}, rows[k]? = some a → f (g a) = some b →
      (∀ i < k, ∀ a', rows[i]? = some a' → f a' = none) →
      (rows.modify k g).findSome? f = some b
  | row :: rows, 0, a, hrow, hgives, _ => by
      cases hrow
      rw [List.modify_zero_cons, List.findSome?_cons, hgives]
  | row :: rows, k + 1, a, hrow, hgives, hbefore => by
      rw [List.modify_succ_cons, List.findSome?_cons, hbefore 0 (Nat.succ_pos k) row rfl]
      exact findSome?_modify_first hrow hgives fun i hi =>
        hbefore (i + 1) (Nat.succ_lt_succ hi)

/-- A modification that the function does not see. -/
theorem findSome?_modify_of_eq :
    ∀ {rows : List α} {k : Nat}, (∀ a, rows[k]? = some a → f (g a) = f a) →
      (rows.modify k g).findSome? f = rows.findSome? f
  | [], k, _ => by rw [List.modify_nil]
  | row :: rows, 0, h => by
      rw [List.modify_zero_cons, List.findSome?_cons, List.findSome?_cons, h row rfl]
  | row :: rows, k + 1, h => by
      have ih : (rows.modify k g).findSome? f = rows.findSome? f := findSome?_modify_of_eq h
      rw [List.modify_succ_cons, List.findSome?_cons, List.findSome?_cons, ih]

end

/-! ## Sums -/

section

variable [AddCommMonoid M]

/-- Replacing a row changes a sum by the difference of the two rows. -/
theorem sum_map_set (f : α → M) (b : α) :
    ∀ {rows : List α} {k : Nat} {a : α}, rows[k]? = some a →
      ((rows.set k b).map f).sum + f a = (rows.map f).sum + f b
  | row :: rows, 0, a, h => by
      cases h
      simp only [List.set_cons_zero, List.map_cons, List.sum_cons]
      rw [add_comm (f b), add_comm (f row), add_assoc, add_assoc, add_comm (f b)]
  | row :: rows, k + 1, a, h => by
      have ih := @sum_map_set f b rows k a h
      simp only [List.set_cons_succ, List.map_cons, List.sum_cons]
      rw [add_assoc, ih, add_assoc]

/-- The sum over the rows of one kind, as a sum over all rows. -/
theorem sum_map_filter (p : α → Bool) (f : α → M) (rows : List α) :
    ((rows.filter p).map f).sum = (rows.map fun a => if p a then f a else 0).sum := by
  induction rows with
  | nil => rfl
  | cons row rows ih =>
      cases hp : p row with
      | true => simp [hp, ih]
      | false => simp [hp, ih]

/-- The sum over what some of the rows are made into, as a sum over all rows. -/
theorem sum_map_filterMap {β : Type} (g : α → Option β) (f : β → M) (rows : List α) :
    ((rows.filterMap g).map f).sum = (rows.map fun a => ((g a).map f).getD 0).sum := by
  induction rows with
  | nil => rfl
  | cons row rows ih =>
      rw [List.filterMap_cons, List.map_cons, List.sum_cons]
      cases g row with
      | none => simp [ih]
      | some b => simp [ih]

end

/-- Replacing a row by one of the same kind changes the sum over the rows of a kind
by the difference of the two, or not at all. -/
theorem sum_map_filter_set [AddCommGroup M] (p : α → Bool) (f : α → M) {a b : α}
    (hp : p b = p a) {rows : List α} {k : Nat} (h : rows[k]? = some a) :
    (((rows.set k b).filter p).map f).sum =
      ((rows.filter p).map f).sum + if p a then f b - f a else 0 := by
  have hset := sum_map_set (fun a => if p a then f a else 0) b h
  rw [sum_map_filter, sum_map_filter, eq_sub_of_add_eq hset, hp]
  cases p a with
  | true => simp [add_sub_assoc]
  | false => simp

end Table
