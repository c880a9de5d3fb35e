import Mathlib.Data.List.Forall2

/-!
# Five-field schedules

The standard meaning of a cron expression.  A field is a list of parts, and a step counts from the
lowest value of its field.  Of day of month and day of week, when both are restricted, either may
match.

`Part.Writes` is how a part is written.  The parts of a field are joined by commas, and a comma is
in none of them (`splitOn_intercalate_texts`).
-/

namespace Cron

/-! ## Fields -/

inductive Part where
  | every
  | step (n : Nat)
  | number (v : Nat)
  | range (low high : Nat)
deriving DecidableEq, Repr

/-- The values that a part selects, if steps count from `origin`. -/
def Part.Selects (origin : Nat) : Part → Nat → Prop
  | .every, _ => True
  | .step n, value => ∃ k, value = origin + k * n
  | .number v, value => v = value
  | .range low high, value => low ≤ value ∧ value ≤ high

instance (origin : Nat) : (part : Part) → (value : Nat) → Decidable (part.Selects origin value)
  | .every, _ => .isTrue trivial
  | .step n, value =>
      decidable_of_iff (origin ≤ value ∧ n ∣ value - origin)
        ⟨fun ⟨hle, k, hk⟩ => ⟨k, by rw [Nat.mul_comm, ← hk]; omega⟩,
          fun ⟨k, hk⟩ => ⟨by omega, k, by rw [Nat.mul_comm, hk]; omega⟩⟩
  | .number v, value => decidable_of_iff (v = value) Iff.rfl
  | .range low high, value => decidable_of_iff (low ≤ value ∧ value ≤ high) Iff.rfl

/-- The part is within the values of its field. -/
def Part.Fits (low high : Nat) : Part → Prop
  | .every => True
  | .step n => 1 ≤ n
  | .number v => low ≤ v ∧ v ≤ high
  | .range a b => (low ≤ a ∧ a ≤ high) ∧ low ≤ b ∧ b ≤ high

instance (low high : Nat) : (part : Part) → Decidable (part.Fits low high)
  | .every => .isTrue trivial
  | .step n => decidable_of_iff (1 ≤ n) Iff.rfl
  | .number v => decidable_of_iff (low ≤ v ∧ v ≤ high) Iff.rfl
  | .range a b => decidable_of_iff ((low ≤ a ∧ a ≤ high) ∧ low ≤ b ∧ b ≤ high) Iff.rfl

/-- The part is written with a star. -/
def Part.starred : Part → Bool
  | .every => true
  | .step _ => true
  | .number _ => false
  | .range _ _ => false

/-- Some part of the field selects the value. -/
def Selects (origin : Nat) (field : List Part) (value : Nat) : Prop :=
  ∃ part ∈ field, part.Selects origin value

instance (origin : Nat) (field : List Part) (value : Nat) :
    Decidable (Selects origin field value) :=
  inferInstanceAs (Decidable (∃ part ∈ field, part.Selects origin value))

/-- The field does not start with a star. -/
def Restricted (field : List Part) : Prop := ∀ part ∈ field.head?, part.starred = false

instance (field : List Part) : Decidable (Restricted field) :=
  inferInstanceAs (Decidable (∀ part ∈ field.head?, part.starred = false))

/-- A field where every value has a star or none counts the same from any origin. -/
theorem selects_of_no_step {field : List Part} (h : ∀ part ∈ field, ∀ n, part ≠ .step n)
    (a b value : Nat) : Selects a field value ↔ Selects b field value := by
  refine exists_congr fun part => and_congr_right fun hpart => ?_
  cases part with
  | step n => exact absurd rfl (h _ hpart n)
  | _ => exact Iff.rfl

/-! ## Expressions -/

/-- Minute, hour, day of month, month and day of week. -/
structure Expression where
  minute : List Part
  hour : List Part
  dom : List Part
  month : List Part
  dow : List Part

namespace Expression

variable (e : Expression)

/-- Every field has a part, and its parts are in range. -/
structure Fits : Prop where
  minute : e.minute ≠ [] ∧ ∀ part ∈ e.minute, part.Fits 0 59
  hour : e.hour ≠ [] ∧ ∀ part ∈ e.hour, part.Fits 0 23
  dom : e.dom ≠ [] ∧ ∀ part ∈ e.dom, part.Fits 1 31
  month : e.month ≠ [] ∧ ∀ part ∈ e.month, part.Fits 1 12
  dow : e.dow ≠ [] ∧ ∀ part ∈ e.dow, part.Fits 0 6

/-- The standard meaning of the two day fields. -/
def DayMatches (day weekday : Nat) : Prop :=
  if Restricted e.dom ∧ Restricted e.dow then Selects 1 e.dom day ∨ Selects 0 e.dow weekday
  else Selects 1 e.dom day ∧ Selects 0 e.dow weekday

instance (day weekday : Nat) : Decidable (e.DayMatches day weekday) :=
  inferInstanceAs (Decidable (if Restricted e.dom ∧ Restricted e.dow then
    Selects 1 e.dom day ∨ Selects 0 e.dow weekday
    else Selects 1 e.dom day ∧ Selects 0 e.dow weekday))

/-- The standard meaning of an expression. -/
def Matches (minute hour day month weekday : Nat) : Prop :=
  Selects 0 e.minute minute ∧ Selects 0 e.hour hour ∧ Selects 1 e.month month ∧
    e.DayMatches day weekday

instance (minute hour day month weekday : Nat) :
    Decidable (e.Matches minute hour day month weekday) :=
  inferInstanceAs (Decidable (_ ∧ _ ∧ _ ∧ e.DayMatches day weekday))

end Expression

/-! ## Texts -/

/-- The value of a decimal numeral. -/
def numeral (text : List Char) : Nat :=
  text.foldl (fun v c => v * 10 + (c.toNat - '0'.toNat)) 0

/-- The text is a decimal numeral of the number. -/
def Numeral (text : List Char) (n : Nat) : Prop :=
  text ≠ [] ∧ (∀ c ∈ text, c.isDigit = true) ∧ numeral text = n

instance (text : List Char) (n : Nat) : Decidable (Numeral text n) :=
  decidable_of_iff (text ≠ [] ∧ text.all Char.isDigit = true ∧ numeral text = n)
    (by rw [List.all_eq_true]; rfl)

/-- The text is a way to write the part. -/
inductive Part.Writes : Part → List Char → Prop
  | every : Writes .every ['*']
  | step {n : Nat} {text : List Char} (numeral : Numeral text n) :
      Writes (.step n) ('*' :: '/' :: text)
  | number {v : Nat} {text : List Char} (numeral : Numeral text v) : Writes (.number v) text
  | range {low high : Nat} {first last : List Char} (lower : Numeral first low)
      (upper : Numeral last high) : Writes (.range low high) (first ++ '-' :: last)

/-- The text is a way to write the field: its parts, joined by commas. -/
def WritesField (field : List Part) (text : List Char) : Prop :=
  ∃ texts, List.Forall₂ Part.Writes field texts ∧ text = [','].intercalate texts

theorem writesField_singleton {part : Part} {text : List Char} (h : part.Writes text) :
    WritesField [part] text :=
  ⟨[text], .cons h .nil, by simp [List.intercalate]⟩

theorem Numeral.starts {text : List Char} {n : Nat} (h : Numeral text n) :
    ∃ c rest, text = c :: rest ∧ c.isDigit = true := by
  obtain ⟨c, rest, rfl⟩ := List.exists_cons_of_ne_nil h.1
  exact ⟨c, rest, rfl, h.2.1 c List.mem_cons_self⟩

theorem Numeral.not_mem {text : List Char} {n : Nat} (h : Numeral text n) {c : Char}
    (hc : c.isDigit = false) : c ∉ text := by
  intro hmem
  rw [h.2.1 c hmem] at hc
  cases hc

theorem Part.Writes.no_comma {part : Part} {text : List Char} (h : part.Writes text) :
    ',' ∉ text := by
  cases h with
  | every => decide
  | step hn =>
      simp only [List.mem_cons, not_or]
      exact ⟨by decide, by decide, hn.not_mem rfl⟩
  | number hn => exact hn.not_mem rfl
  | range hlow hhigh =>
      simp only [List.mem_append, List.mem_cons, not_or]
      exact ⟨hlow.not_mem rfl, by decide, hhigh.not_mem rfl⟩

theorem no_comma_of_writes {field : List Part} {texts : List (List Char)}
    (h : List.Forall₂ Part.Writes field texts) : ∀ text ∈ texts, ',' ∉ text := by
  induction h with
  | nil => exact fun text htext => absurd htext List.not_mem_nil
  | cons hwrites _ ih => exact List.forall_mem_cons.mpr ⟨hwrites.no_comma, ih⟩

/-- The parts of a field can be read back. -/
theorem splitOn_intercalate_texts {field : List Part} {texts : List (List Char)}
    (hfield : field ≠ []) (h : List.Forall₂ Part.Writes field texts) :
    ([','].intercalate texts).splitOn ',' = texts := by
  refine List.splitOn_intercalate ',' (no_comma_of_writes h) fun hnil => ?_
  rw [hnil] at h
  cases h
  exact hfield rfl

end Cron
