import Mathlib.Data.List.Basic

/-!
# Lists that keep what came first

New entries are appended to a list, and what does not fit is cut off at its end.  So a list that is
full never changes again (`add_of_full`), and an entry that is not there yet is kept if and only if
it falls on a free place (`latest_kept_iff`).
-/

namespace FirstKept

variable {α : Type} {cap : Nat} {stored new : List α}

/-- The first entries of the old ones and the new ones. -/
def add (cap : Nat) (stored new : List α) : List α := (stored ++ new).take cap

/-- The last entries of a list. -/
def latest (cap : Nat) (new : List α) : List α := new.drop (new.length - cap)

theorem length_add_le (cap : Nat) (stored new : List α) : (add cap stored new).length ≤ cap :=
  List.length_take_le _ _

theorem add_nil (h : stored.length ≤ cap) : add cap stored [] = stored := by
  rw [add, List.append_nil]
  exact List.take_of_length_le h

/-- A full list learns nothing. -/
theorem add_of_full (h : stored.length = cap) : add cap stored new = stored := by
  subst h
  exact List.take_left

theorem add_eq (h : stored.length ≤ cap) :
    add cap stored new = stored ++ new.take (cap - stored.length) := by
  rw [add, List.take_append, List.take_of_length_le h]

theorem mem_latest_iff {x : α} :
    x ∈ latest cap new ↔ ∃ i, new.length ≤ i + cap ∧ new[i]? = some x := by
  unfold latest
  rw [List.mem_iff_getElem?]
  constructor
  · rintro ⟨i, hi⟩
    rw [List.getElem?_drop] at hi
    exact ⟨new.length - cap + i, by omega, hi⟩
  · rintro ⟨i, hle, hi⟩
    refine ⟨i - (new.length - cap), ?_⟩
    rw [List.getElem?_drop, Nat.add_sub_cancel' (by omega)]
    exact hi

/-- The latest entries are there if and only if each that falls on no free place is stored, or
repeats one that falls on a free place. -/
theorem latest_kept_iff (h : stored.length ≤ cap) :
    (∀ x ∈ latest cap new, x ∈ add cap stored new) ↔
      ∀ i x, cap - stored.length ≤ i → new.length ≤ i + cap → new[i]? = some x →
        x ∈ stored ∨ x ∈ new.take (cap - stored.length) := by
  rw [add_eq h]
  constructor
  · intro hkept i x _ hlate hx
    exact List.mem_append.mp (hkept x (mem_latest_iff.mpr ⟨i, hlate, hx⟩))
  · intro hfits x hx
    obtain ⟨i, hlate, hi⟩ := mem_latest_iff.mp hx
    rw [List.mem_append]
    by_cases hfree : cap - stored.length ≤ i
    · exact hfits i x hfree hlate hi
    · refine .inr (List.mem_of_getElem? (i := i) ?_)
      rw [List.getElem?_take_of_lt (Nat.not_le.mp hfree)]
      exact hi

end FirstKept
