import Mathlib.Data.List.Chain
import Mathlib.Data.List.Nodup

/-!
# Paths along a successor function

A simple path meets no element twice, each element is followed by its successor, and the
last one has none.  It grows at its end only: there a new element may become the
successor of the last (`IsPath.extend`).
-/

namespace LinkedPath

variable {α : Type}

/-- A simple path from its first element to one without a successor. -/
structure IsPath (next : α → Option α) (path : List α) : Prop where
  nodup : path.Nodup
  linked : path.IsChain fun a b => next a = some b
  ends : ∀ a ∈ path.getLast?, next a = none

variable {next next' : α → Option α} {path : List α}

theorem isPath_nil (next : α → Option α) : IsPath next [] where
  nodup := List.nodup_nil
  linked := List.isChain_nil
  ends _ h := by cases h

theorem isPath_singleton {a : α} (h : next a = none) : IsPath next [a] where
  nodup := List.nodup_singleton a
  linked := List.isChain_singleton a
  ends b hb := by
    rw [List.getLast?_singleton, Option.mem_some_iff] at hb
    exact hb ▸ h

namespace IsPath

/-- A path depends on the successors of its own elements only. -/
theorem congr (h : IsPath next path) (hsame : ∀ a ∈ path, next' a = next a) :
    IsPath next' path where
  nodup := h.nodup
  linked := h.linked.imp_of_mem_imp fun a _ ha _ hab => (hsame a ha).trans hab
  ends a ha := (hsame a (List.mem_of_getLast? ha)).trans (h.ends a ha)

/-- Every element but the last has a successor. -/
theorem exists_next (h : IsPath next path) {a : α} (ha : a ∈ path.dropLast) :
    ∃ b, next a = some b := by
  obtain ⟨before, rest, hsplit⟩ := List.append_of_mem ha
  have hne : path ≠ [] := by
    rintro rfl
    cases ha
  have hpath : path = before ++ a :: (rest ++ [path.getLast hne]) := by
    rw [← List.cons_append, ← List.append_assoc, ← hsplit, List.dropLast_append_getLast]
  have hlinked := h.linked
  rw [hpath] at hlinked
  have hrest := (List.isChain_append.mp hlinked).2.1
  cases rest with
  | nil => exact ⟨_, (List.isChain_cons_cons.mp hrest).1⟩
  | cons b rest => exact ⟨_, (List.isChain_cons_cons.mp hrest).1⟩

/-- An element without a successor is the last. -/
theorem eq_append_of_next_none (h : IsPath next path) {a : α} (ha : a ∈ path)
    (hnext : next a = none) : ∃ before, path = before ++ [a] := by
  have hne : path ≠ [] := List.ne_nil_of_mem ha
  have hpath : path.dropLast ++ [path.getLast hne] = path := List.dropLast_append_getLast hne
  rw [← hpath] at ha
  rcases List.mem_append.mp ha with hearly | hlast
  · obtain ⟨b, hb⟩ := h.exists_next hearly
    rw [hnext] at hb
    cases hb
  · refine ⟨path.dropLast, ?_⟩
    rw [List.mem_singleton.mp hlast, hpath]

/-- At most one element has no successor. -/
theorem eq_of_next_none (h : IsPath next path) {a b : α} (ha : a ∈ path) (hb : b ∈ path)
    (hnexta : next a = none) (hnextb : next b = none) : a = b := by
  obtain ⟨before, hbefore⟩ := h.eq_append_of_next_none ha hnexta
  obtain ⟨before', hbefore'⟩ := h.eq_append_of_next_none hb hnextb
  exact List.singleton_inj.mp (List.append_inj' (hbefore.symm.trans hbefore') rfl).2

/-- A new element behind the last. -/
theorem extend {before : List α} {last new : α} (h : IsPath next (before ++ [last]))
    (hnew : new ∉ before ++ [last]) (hkept : ∀ a ∈ before, next' a = next a)
    (hlast : next' last = some new) (hend : next' new = none) :
    IsPath next' (before ++ [last] ++ [new]) where
  nodup := by
    rw [List.nodup_append_comm, List.singleton_append, List.nodup_cons]
    exact ⟨hnew, h.nodup⟩
  linked := by
    obtain ⟨hbefore, -, hjoin⟩ := List.isChain_append.mp h.linked
    have hkeep : (before ++ [last]).IsChain fun a b => next' a = some b := by
      refine List.isChain_append.mpr ⟨hbefore.imp_of_mem_imp fun a _ ha _ hab =>
        (hkept a ha).trans hab, List.isChain_singleton last, fun a ha b hb => ?_⟩
      exact (hkept a (List.mem_of_getLast? ha)).trans (hjoin a ha b hb)
    refine List.isChain_append.mpr ⟨hkeep, List.isChain_singleton new, fun a ha b hb => ?_⟩
    rw [List.getLast?_concat, Option.mem_some_iff] at ha
    rw [List.head?_singleton, Option.mem_some_iff] at hb
    rw [← ha, ← hb, hlast]
  ends a ha := by
    rw [List.getLast?_concat, Option.mem_some_iff] at ha
    exact ha ▸ hend

end IsPath

end LinkedPath
