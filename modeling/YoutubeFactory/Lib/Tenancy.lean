import Mathlib.Data.List.Basic

/-!
# Changes to the rows of one owner

A table is a list of rows that stay at their positions.  It changes only in rows of a
kind when every position holds what it held, or held and holds rows of that kind.
Replacing a row of the kind and adding one are such changes, and they compose.

Taken by themselves, the rows of a kind answer the queries for rows of the kind.
-/

namespace Tenancy

variable {α : Type} {owned : α → Prop} {rows rows' rows'' : List α}

/-- Every row that was changed or added is of the kind, and was before. -/
def ChangesOnly (owned : α → Prop) (rows rows' : List α) : Prop :=
  ∀ i : Nat, rows'[i]? = rows[i]? ∨
    (∀ a, rows[i]? = some a → owned a) ∧ ∀ a, rows'[i]? = some a → owned a

namespace ChangesOnly

theorem refl (rows : List α) : ChangesOnly owned rows rows := fun _ => .inl rfl

theorem trans (h : ChangesOnly owned rows rows') (h' : ChangesOnly owned rows' rows'') :
    ChangesOnly owned rows rows'' := by
  intro i
  rcases h i with hsame | ⟨hold, hnew⟩
  · rcases h' i with hsame' | hchanged
    · exact .inl (hsame'.trans hsame)
    · rw [hsame] at hchanged
      exact .inr hchanged
  · rcases h' i with hsame' | ⟨-, hnew'⟩
    · rw [← hsame'] at hnew
      exact .inr ⟨hold, hnew⟩
    · exact .inr ⟨hold, hnew'⟩

/-- A row of the kind is replaced by one of the kind. -/
theorem set {a b : α} {k : Nat} (hrow : rows[k]? = some a) (ha : owned a) (hb : owned b) :
    ChangesOnly owned rows (rows.set k b) := by
  intro i
  by_cases hi : k = i
  · subst hi
    refine .inr ⟨fun c hc => ?_, fun c hc => ?_⟩
    · rw [hrow] at hc
      cases hc
      exact ha
    · rw [List.getElem?_set_self (List.getElem?_eq_some_iff.mp hrow).1] at hc
      cases hc
      exact hb
  · exact .inl (List.getElem?_set_ne hi)

/-- A row of the kind is added. -/
theorem append {b : α} (hb : owned b) : ChangesOnly owned rows (rows ++ [b]) := by
  intro i
  rcases Nat.lt_or_ge i rows.length with hlt | hge
  · exact .inl (List.getElem?_append_left hlt)
  · refine .inr ⟨fun a ha => ?_, fun a ha => ?_⟩
    · rw [List.getElem?_eq_none hge] at ha
      cases ha
    · rw [List.getElem?_append_right hge] at ha
      rw [List.mem_singleton.mp (List.mem_of_getElem? ha)]
      exact hb

/-- A row that has changed is of the kind. -/
theorem owned_of_ne (h : ChangesOnly owned rows rows') {a b : α} {i : Nat}
    (ha : rows[i]? = some a) (hb : rows'[i]? = some b) (hne : b ≠ a) : owned a := by
  rcases h i with hsame | ⟨hold, -⟩
  · rw [ha, hb, Option.some.injEq] at hsame
    exact absurd hsame hne
  · exact hold a ha

/-- Rows of the kind alone are changed by what changes rows of a narrower kind alone. -/
theorem imp {owned' : α → Prop} (h : ChangesOnly owned rows rows')
    (himp : ∀ a, owned a → owned' a) : ChangesOnly owned' rows rows' := fun i =>
  (h i).imp_right fun hchanged =>
    ⟨fun a ha => himp a (hchanged.1 a ha), fun a ha => himp a (hchanged.2 a ha)⟩

end ChangesOnly

/-- Rows of a kind are added, after the rows that are there. -/
def Adds (kind : α → Prop) (rows rows' : List α) : Prop :=
  ∃ added, rows' = rows ++ added ∧ ∀ a ∈ added, kind a

namespace Adds

variable {kind kind' : α → Prop}

theorem refl (rows : List α) : Adds kind rows rows :=
  ⟨[], (List.append_nil rows).symm, fun _ h => absurd h List.not_mem_nil⟩

theorem trans (h : Adds kind rows rows') (h' : Adds kind rows' rows'') :
    Adds kind rows rows'' := by
  obtain ⟨added, rfl, hadded⟩ := h
  obtain ⟨more, rfl, hmore⟩ := h'
  refine ⟨added ++ more, List.append_assoc rows added more, fun a ha => ?_⟩
  rcases List.mem_append.mp ha with ha | ha
  · exact hadded a ha
  · exact hmore a ha

theorem imp (h : Adds kind rows rows') (himp : ∀ a, kind a → kind' a) :
    Adds kind' rows rows' := by
  obtain ⟨added, hrows, hadded⟩ := h
  exact ⟨added, hrows, fun a ha => himp a (hadded a ha)⟩

theorem map {β : Type} {kindOf : β → Prop} {f : α → β} (h : Adds kind rows rows')
    (hkind : ∀ a, kind a → kindOf (f a)) : Adds kindOf (rows.map f) (rows'.map f) := by
  obtain ⟨added, rfl, hadded⟩ := h
  refine ⟨added.map f, List.map_append, fun b hb => ?_⟩
  obtain ⟨a, ha, rfl⟩ := List.mem_map.mp hb
  exact hkind a (hadded a ha)

/-- The rows that are there stay at their positions. -/
theorem getElem? (h : Adds kind rows rows') {a : α} {i : Nat} (ha : rows[i]? = some a) :
    rows'[i]? = some a := by
  obtain ⟨added, rfl, -⟩ := h
  rw [List.getElem?_append_left (List.getElem?_eq_some_iff.mp ha).1]
  exact ha

/-- A position that has changed was empty, and holds a row that was added. -/
theorem of_ne (h : Adds kind rows rows') {i : Nat} (hne : rows'[i]? ≠ rows[i]?) :
    rows[i]? = none ∧ ∀ a, rows'[i]? = some a → kind a := by
  have hnone : rows[i]? = none := by
    cases ha : rows[i]? with
    | none => rfl
    | some a => exact absurd ((h.getElem? ha).trans ha.symm) hne
  refine ⟨hnone, fun a ha => ?_⟩
  obtain ⟨added, rfl, hadded⟩ := h
  rw [List.getElem?_append_right (List.getElem?_eq_none_iff.mp hnone)] at ha
  exact hadded a (List.mem_of_getElem? ha)

end Adds

/-! ## The rows of a kind -/

section

variable {p q : α → Bool} {f : α → α}

theorem filter_filter_of_imp (h : ∀ a ∈ rows, q a = true → p a = true) :
    (rows.filter p).filter q = rows.filter q := by
  rw [List.filter_filter]
  refine List.filter_congr fun a ha => ?_
  cases hq : q a with
  | false => rfl
  | true => rw [h a ha hq, Bool.and_true]

/-- A query for rows of the kind finds the same among them. -/
theorem find?_filter_of_imp (h : ∀ a ∈ rows, q a = true → p a = true) :
    (rows.filter p).find? q = rows.find? q := by
  rw [← List.head?_filter, filter_filter_of_imp h, List.head?_filter]

theorem any_filter_of_imp (h : ∀ a ∈ rows, q a = true → p a = true) :
    (rows.filter p).any q = rows.any q := by
  rw [← List.isSome_find?, find?_filter_of_imp h, List.isSome_find?]

/-- A row of the kind is added. -/
theorem filter_append_of {a : α} (h : p a = true) :
    (rows ++ [a]).filter p = rows.filter p ++ [a] := by
  simp [h]

/-- A row of another kind is added. -/
theorem filter_append_of_not {a : α} (h : p a = false) :
    (rows ++ [a]).filter p = rows.filter p := by
  simp [h]

/-- Rows are changed, and each stays of its kind. -/
theorem filter_map_of_same (h : ∀ a, p (f a) = p a) :
    (rows.map f).filter p = (rows.filter p).map f := by
  rw [List.filter_map]
  exact congrArg (List.map f) (List.filter_congr fun a _ => h a)

/-- The rows of the kind are not among those that are changed. -/
theorem filter_map_of_fixed (h : ∀ a, p (f a) = p a)
    (hfixed : ∀ a ∈ rows, p a = true → f a = a) : (rows.map f).filter p = rows.filter p := by
  rw [filter_map_of_same h]
  have hid : (rows.filter p).map f = (rows.filter p).map id :=
    List.map_congr_left fun a ha =>
      hfixed a (List.mem_filter.mp ha).1 (List.mem_filter.mp ha).2
  rw [hid, List.map_id]

end

end Tenancy
