import YoutubeFactory.Lib.Keyed
import Mathlib.Data.List.Nodup
import Mathlib.Data.List.Perm.Basic

/-!
# Batches of pending rows

The pending rows of a table are taken in some order, at most so many at a time, and those that
were taken are settled.  A batch that is full may leave rows pending (`pending_settle`).

Rows are told apart by a key, which settling a row keeps.
-/

namespace Batches

variable {Row Key : Type} {key : Row → Key} {pending : Row → Bool} {settled : Row → Row}
  {limit : Nat} {rows batch : List Row}

/-- The rows of the batch are settled, the others stay. -/
def settle [DecidableEq Key] (key : Row → Key) (settled : Row → Row) (batch rows : List Row) :
    List Row :=
  rows.map fun a => if key a ∈ batch.map key then settled a else a

/-- The first rows of those that are pending, in some order. -/
def IsBatch (pending : Row → Bool) (limit : Nat) (rows batch : List Row) : Prop :=
  ∃ order : List Row, order.Perm (rows.filter pending) ∧ batch = order.take limit

namespace IsBatch

theorem length_eq (h : IsBatch pending limit rows batch) :
    batch.length = min limit (rows.countP pending) := by
  obtain ⟨order, hperm, rfl⟩ := h
  rw [List.length_take, hperm.length_eq, List.countP_eq_length_filter]

theorem mem (h : IsBatch pending limit rows batch) {a : Row} (ha : a ∈ batch) :
    a ∈ rows ∧ pending a = true := by
  obtain ⟨order, hperm, rfl⟩ := h
  exact List.mem_filter.mp (hperm.mem_iff.mp (List.mem_of_mem_take ha))

theorem nodup (h : IsBatch pending limit rows batch) (hnodup : rows.Nodup) : batch.Nodup := by
  obtain ⟨order, hperm, rfl⟩ := h
  exact (hperm.nodup_iff.mpr (hnodup.filter _)).sublist (List.take_sublist _ _)

end IsBatch

variable [DecidableEq Key]

theorem map_key_settle (hkey : ∀ a, key (settled a) = key a) (batch rows : List Row) :
    (settle key settled batch rows).map key = rows.map key := by
  rw [settle, List.map_map]
  refine List.map_congr_left fun a _ => ?_
  show key (if _ then _ else _) = _
  split
  · exact hkey a
  · rfl

/-- A selection that the batch does not meet, neither before it is settled nor after. -/
theorem filter_settle {selects : Row → Bool} (hnodup : (rows.map key).Nodup)
    (hmem : ∀ a ∈ batch, a ∈ rows) (hbefore : ∀ a ∈ batch, selects a = false)
    (hafter : ∀ a ∈ batch, selects (settled a) = false) :
    (settle key settled batch rows).filter selects = rows.filter selects := by
  have hselects : ∀ a ∈ rows,
      (selects ∘ fun a => if key a ∈ batch.map key then settled a else a) a = selects a := by
    intro a ha
    rw [Function.comp_apply]
    split
    · next hkey =>
        have hin := (Keyed.key_mem_iff hnodup hmem ha).mp hkey
        rw [hafter a hin, hbefore a hin]
    · rfl
  rw [settle, List.filter_map, List.filter_congr hselects]
  refine (List.map_congr_left fun a ha => ?_).trans (List.map_id _)
  obtain ⟨hrow, hselected⟩ := List.mem_filter.mp ha
  refine if_neg fun hkey => ?_
  rw [hbefore a ((Keyed.key_mem_iff hnodup hmem hrow).mp hkey)] at hselected
  cases hselected

/-- The pending rows of a batch are pending no more. -/
theorem countP_settle (hnodup : (rows.map key).Nodup) (hbatch : batch.Nodup)
    (hmem : ∀ a ∈ batch, a ∈ rows) (hsettled : ∀ a, pending (settled a) = false) :
    (settle key settled batch rows).countP pending + batch.countP pending =
      rows.countP pending := by
  have hrest : (settle key settled batch rows).countP pending =
      (rows.filter fun a => ¬ key a ∈ batch.map key).countP pending := by
    rw [settle, List.countP_map, List.countP_filter]
    refine List.countP_congr fun a _ => ?_
    by_cases hin : key a ∈ batch.map key
    · simp [-List.mem_map, hin, hsettled]
    · simp [-List.mem_map, hin]
  have htaken : (rows.filter fun a => key a ∈ batch.map key).Perm batch := by
    refine (List.perm_ext_iff_of_nodup (hnodup.of_map.filter _) hbatch).mpr fun a => ?_
    rw [List.mem_filter, decide_eq_true_eq]
    constructor
    · rintro ⟨hrow, hin⟩
      exact (Keyed.key_mem_iff hnodup hmem hrow).mp hin
    · intro hin
      exact ⟨hmem a hin, List.mem_map_of_mem hin⟩
  rw [hrest, ← htaken.countP_eq, Nat.add_comm,
    List.countP_eq_countP_filter_add rows pending fun a => key a ∈ batch.map key]
  congr 3
  funext a
  exact decide_not

/-- What a batch leaves pending. -/
theorem pending_settle (hnodup : (rows.map key).Nodup)
    (hsettled : ∀ a, pending (settled a) = false) (h : IsBatch pending limit rows batch) :
    (settle key settled batch rows).countP pending = rows.countP pending - limit := by
  have hcount := countP_settle hnodup (h.nodup hnodup.of_map) (fun _ ha => (h.mem ha).1) hsettled
  rw [List.countP_eq_length.mpr fun _ ha => (h.mem ha).2, h.length_eq] at hcount
  omega

end Batches
