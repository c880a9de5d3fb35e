import YoutubeFactory.Workflow.CronMeaning
import Mathlib.Tactic.IntervalCases

/-!
# The calendar

The minutes since the first day follow the order of the dates (`Minute.minutes_le`), so the
difference of two `datetime`s has the sign of their order.
-/

namespace YoutubeFactory.Workflow.Minute

/-- A month begins where the month before it ends. -/
theorem daysBeforeMonth_succ (year : Nat) {month : Nat} (hpos : 1 ≤ month) (hlt : month < 12) :
    daysBeforeMonth year (month + 1) = daysBeforeMonth year month + daysInMonth year month := by
  unfold daysBeforeMonth daysInMonth Leap
  by_cases hleap : year % 4 = 0 ∧ (year % 100 ≠ 0 ∨ year % 400 = 0)
  · interval_cases month <;> simp [hleap]
  · interval_cases month <;> simp [hleap]

theorem daysBeforeMonth_add_le (year : Nat) {month later : Nat} (hpos : 1 ≤ month)
    (hlt : month < later) (hle : later ≤ 12) :
    daysBeforeMonth year month + daysInMonth year month ≤ daysBeforeMonth year later := by
  induction later, hlt using Nat.le_induction with
  | base => exact (daysBeforeMonth_succ year hpos hle).ge
  | succ later hlt ih =>
      have hstep := daysBeforeMonth_succ year (hpos.trans (Nat.le_of_lt hlt)) hle
      have hbefore := ih (Nat.le_of_lt hle)
      omega

/-- December ends where the next year begins. -/
theorem daysBeforeYear_succ {year : Nat} (h : 1 ≤ year) :
    daysBeforeMonth year 12 + daysInMonth year 12 + daysBeforeYear year =
      daysBeforeYear (year + 1) := by
  obtain ⟨k, rfl⟩ : ∃ k, year = k + 1 := ⟨year - 1, (Nat.sub_add_cancel h).symm⟩
  have hdecember : daysBeforeMonth (k + 1) 12 + daysInMonth (k + 1) 12 =
      365 + if Leap (k + 1) then 1 else 0 := by
    by_cases hleap : Leap (k + 1)
    · have hleap' := hleap
      unfold Leap at hleap'
      simp [daysBeforeMonth, daysInMonth, hleap, hleap']
    · have hleap' := hleap
      unfold Leap at hleap'
      simp [daysBeforeMonth, daysInMonth, hleap, hleap']
  have hcenturies := Nat.div_le_self k 100
  rw [hdecember]
  unfold daysBeforeYear Leap
  simp only [Nat.add_sub_cancel, Nat.succ_div, Nat.dvd_iff_mod_eq_zero]
  -- every fourth year but the hundredth, and every four hundredth
  by_cases h400 : (k + 1) % 400 = 0
  · have h100 : (k + 1) % 100 = 0 := by omega
    have h4 : (k + 1) % 4 = 0 := by omega
    simp [h400, h100, h4]
    omega
  · by_cases h100 : (k + 1) % 100 = 0
    · have h4 : (k + 1) % 4 = 0 := by omega
      simp [h400, h100, h4]
      omega
    · by_cases h4 : (k + 1) % 4 = 0
      · simp [h400, h100, h4]
        omega
      · simp [h400, h100, h4]
        omega

theorem daysBeforeYear_le {year later : Nat} (hpos : 1 ≤ year) (h : year ≤ later) :
    daysBeforeYear year ≤ daysBeforeYear later := by
  induction later, h using Nat.le_induction with
  | base => exact Nat.le_refl _
  | succ later hle ih =>
      have hstep := daysBeforeYear_succ (hpos.trans hle)
      omega

variable {a b : Minute}

theorem ordinal_eq (m : Minute) :
    m.ordinal = daysBeforeYear m.year + daysBeforeMonth m.year m.month + m.day := rfl

/-- A date lies in its year. -/
theorem IsDate.ordinal_le (h : a.IsDate) : a.ordinal ≤ daysBeforeYear (a.year + 1) := by
  have hday := h.day.2
  rw [← daysBeforeYear_succ h.year.1, ordinal_eq]
  rcases Nat.eq_or_lt_of_le h.month.2 with heq | hlt
  · rw [heq] at hday ⊢
    omega
  · have hmonth := daysBeforeMonth_add_le a.year h.month.1 hlt (Nat.le_refl 12)
    omega

theorem ordinal_lt_of_year (ha : a.IsDate) (hb : b.IsDate) (h : a.year < b.year) :
    a.ordinal < b.ordinal := by
  have hyear : daysBeforeYear (a.year + 1) ≤ daysBeforeYear b.year :=
    daysBeforeYear_le (Nat.succ_pos _) h
  have hday := hb.day.1
  have hend := ha.ordinal_le
  rw [ordinal_eq b]
  omega

theorem ordinal_lt_of_month (ha : a.IsDate) (hb : b.IsDate) (hyear : a.year = b.year)
    (h : a.month < b.month) : a.ordinal < b.ordinal := by
  have hmonth := daysBeforeMonth_add_le b.year ha.month.1 h hb.month.2
  have hday := ha.day.2
  have hfirst := hb.day.1
  rw [ordinal_eq, ordinal_eq, hyear]
  rw [hyear] at hday
  omega

/-- The minutes since the first day. -/
def minutes (m : Minute) : Nat := (m.ordinal * 24 + m.hour) * 60 + m.minute

theorem minutes_le (ha : a.IsDate) (hb : b.IsDate) (h : a ≤ b) : a.minutes ≤ b.minutes := by
  have hhour := ha.hour
  have hminute := ha.minute
  have hfields : a.fields ≤ b.fields := h
  unfold minutes
  rcases Prod.Lex.le_iff.mp hfields with hyear | ⟨hyear, hrest⟩
  · have hlt := ordinal_lt_of_year ha hb hyear
    omega
  have hyear : a.year = b.year := hyear
  rcases Prod.Lex.le_iff.mp hrest with hmonth | ⟨hmonth, hrest⟩
  · have hlt := ordinal_lt_of_month ha hb hyear hmonth
    omega
  have hmonth : a.month = b.month := hmonth
  rw [ordinal_eq, ordinal_eq, hyear, hmonth]
  rcases Prod.Lex.le_iff.mp hrest with hday | ⟨hday, hrest⟩
  · have hday : a.day < b.day := hday
    omega
  have hday : a.day = b.day := hday
  rcases Prod.Lex.le_iff.mp hrest with hhour' | ⟨hhour', hminute'⟩
  · have hhour' : a.hour < b.hour := hhour'
    omega
  · have hhour' : a.hour = b.hour := hhour'
    have hminute' : a.minute ≤ b.minute := hminute'
    omega

end YoutubeFactory.Workflow.Minute
