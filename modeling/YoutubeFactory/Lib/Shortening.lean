import Mathlib.Data.List.Infix

/-!
# Texts shortened to a limit

A text that is longer than a limit is cut there, some more of its end may go, and a mark stands
in the place of what is gone.

The mark has a length too.  So the text that is left keeps to the limit if and only if more goes
than what is behind the limit (`length_shorten_le_iff`).  To shorten it again changes nothing in
either case (`shorten_shorten`).
-/

/-- A cut leaves a start of a text. -/
structure Cut (α : Type) where
  cut : List α → List α
  isPrefix : ∀ text, cut text <+: text

namespace Cut

variable {α : Type} (c : Cut α) (limit : Nat) (mark : α) {text : List α}

/-- The text, or what a cut leaves of it and the mark. -/
def shorten (text : List α) : List α :=
  if text.length ≤ limit then text else c.cut (text.take limit) ++ [mark]

variable {limit}

@[simp] theorem shorten_of_le (h : text.length ≤ limit) : c.shorten limit mark text = text :=
  if_pos h

theorem shorten_of_lt (h : limit < text.length) :
    c.shorten limit mark text = c.cut (text.take limit) ++ [mark] :=
  if_neg (Nat.not_le.mpr h)

/-- A cut that loses no character leaves the text. -/
theorem cut_eq_iff : c.cut text = text ↔ text.length ≤ (c.cut text).length := by
  constructor
  · intro h
    rw [h]
  · exact (c.isPrefix text).eq_of_length_le

theorem length_shorten_le_iff :
    (c.shorten limit mark text).length ≤ limit ↔
      text.length ≤ limit ∨ c.cut (text.take limit) ≠ text.take limit := by
  by_cases h : text.length ≤ limit
  · rw [c.shorten_of_le mark h]
    exact iff_of_true h (.inl h)
  · have hlt := Nat.not_le.mp h
    rw [c.shorten_of_lt mark hlt, or_iff_right h, ne_eq, cut_eq_iff, List.length_append,
      List.length_singleton, List.length_take_of_le hlt.le]
    exact Nat.not_le.symm

theorem shorten_shorten (text : List α) :
    c.shorten limit mark (c.shorten limit mark text) = c.shorten limit mark text := by
  by_cases hfits : (c.shorten limit mark text).length ≤ limit
  · exact c.shorten_of_le mark hfits
  · -- nothing but the mark is behind the limit, and the cut was left as it was
    have hover := mt (c.length_shorten_le_iff mark).mpr hfits
    obtain ⟨hlong, hcut⟩ := not_or.mp hover
    have hlt := Nat.not_le.mp hlong
    have hkept := not_not.mp hcut
    have htake : (c.shorten limit mark text).take limit = text.take limit := by
      rw [c.shorten_of_lt mark hlt, hkept]
      exact List.take_left' (List.length_take_of_le hlt.le)
    rw [c.shorten_of_lt mark (Nat.not_le.mp hfits), htake, ← c.shorten_of_lt mark hlt]

end Cut
