import YoutubeFactory.Lib.CronFields
import YoutubeFactory.Lib.Except
import YoutubeFactory.Workflow.Cron
import Mathlib.Tactic.ByContra

/-!
# What cron expressions mean

`cron_matches` reads every field from zero and asks of every field that it matches
(`cronMatches_iff`).  The standard meaning counts the steps of day of month and month from one, and
is content with either day field when both are restricted.  `ReadAlike` says for which expressions
the two are the same at every moment.
-/

namespace YoutubeFactory.Workflow

open Python Cron

/-! ## Numerals -/

/-- The digits of ASCII are decimal digits with their values. -/
structure Digits.Ascii (digits : Digits) : Prop where
  decimal : ∀ c, c.isDigit = true → digits.decimal c = some (c.toNat - '0'.toNat)
  isDigit : ∀ c, c.isDigit = true → digits.isDigit c = true

namespace Digits

variable {digits : Digits}

theorem ne_of_isDigit {c d : Char} (hc : c.isDigit = true) (hd : d.isDigit = false) : c ≠ d := by
  rintro rfl
  rw [hc] at hd
  cases hd

theorem parseDigits_numeral (hdigits : digits.Ascii) :
    ∀ (text : List Char) (value : Nat), (∀ c ∈ text, c.isDigit = true) →
      digits.parseDigits value text =
        some (text.foldl (fun v c => v * 10 + (c.toNat - '0'.toNat)) value)
  | [], _, _ => rfl
  | c :: rest, value, h => by
      rw [List.forall_mem_cons] at h
      have hstep : digits.parseDigits value (c :: rest) =
          (digits.decimal c).bind fun d => digits.parseDigits (value * 10 + d) rest := by
        rw [parseDigits.eq_def]
        split
        · next heq => cases heq
        · next heq =>
            cases heq
            exact absurd h.1 (by decide)
        · next heq =>
            cases heq
            rfl
      rw [hstep, hdigits.decimal c h.1, Option.bind_some, parseDigits_numeral hdigits rest _ h.2]
      rfl

theorem parseNat_numeral (hdigits : digits.Ascii) {text : List Char} {n : Nat}
    (h : Numeral text n) : digits.parseNat text = some n := by
  obtain ⟨hne, hdigit, rfl⟩ := h
  cases text with
  | nil => exact absurd rfl hne
  | cons c rest =>
      rw [List.forall_mem_cons] at hdigit
      rw [parseNat, hdigits.decimal c hdigit.1, Option.bind_some,
        parseDigits_numeral hdigits rest _ hdigit.2, numeral, List.foldl_cons, Nat.zero_mul,
        Nat.zero_add]

theorem int_numeral (hdigits : digits.Ascii) {text : List Char} {n : Nat} (h : Numeral text n) :
    digits.int text = .ok (n : Int) := by
  have hparse := parseNat_numeral hdigits h
  obtain ⟨hne, hdigit, -⟩ := h
  unfold int
  split
  · exact absurd (hdigit '-' List.mem_cons_self) (by decide)
  · exact absurd (hdigit '+' List.mem_cons_self) (by decide)
  · rw [hparse]
    rfl

/-! ## Fields -/

/-- A step of at least one selects the multiples of it. -/
theorem mod_eq_zero_iff {n value : Nat} (hn : 1 ≤ n) :
    (0 < (n : Int) ∧ (value : Int) % (n : Int) = 0) ↔ (Part.step n).Selects 0 value := by
  have hdvd : (value : Int) % (n : Int) = 0 ↔ n ∣ value := by
    rw [← Int.dvd_iff_emod_eq_zero, Int.natCast_dvd_natCast]
  rw [hdvd]
  constructor
  · rintro ⟨-, k, rfl⟩
    exact ⟨k, by rw [Nat.zero_add, Nat.mul_comm]⟩
  · rintro ⟨k, hk⟩
    exact ⟨by omega, k, by rw [hk, Nat.zero_add, Nat.mul_comm]⟩

/-- What starts with a digit is no star and no step. -/
theorem not_starred {c : Char} (hc : c.isDigit = true) (rest : List Char) :
    c :: rest ≠ ['*'] ∧ ¬ ['*', '/'].isPrefixOf (c :: rest) = true := by
  constructor
  · intro h
    exact ne_of_isDigit hc rfl (List.cons.inj h).1
  · intro hpre
    obtain ⟨tail, htail⟩ := List.isPrefixOf_iff_prefix.mp hpre
    exact ne_of_isDigit hc rfl (List.cons.inj htail).1.symm

/-- A part is read from zero. -/
theorem matchesPart_writes (hdigits : digits.Ascii) {part : Part} {text : List Char}
    (h : part.Writes text) (hstep : ∀ n, part = .step n → 1 ≤ n) (value : Nat) :
    ∃ b, digits.matchesPart text value = .ok b ∧ (b = true ↔ part.Selects 0 value) := by
  cases h with
  | every => exact ⟨true, rfl, iff_of_true rfl trivial⟩
  | @step n text hn =>
      refine ⟨_, ?_, decide_eq_true_iff.trans (mod_eq_zero_iff (hstep n rfl))⟩
      have hne : ('*' :: '/' :: text) ≠ ['*'] := by simp
      have hpre : ['*', '/'].isPrefixOf ('*' :: '/' :: text) = true := by simp
      unfold matchesPart
      rw [if_neg hne, if_pos hpre]
      simp only [List.drop_succ_cons, List.drop_zero, int_numeral hdigits hn, Except.ok_bind]
      rfl
  | @number v _ hn =>
      obtain ⟨hstar, hslash⟩ : text ≠ ['*'] ∧ ¬ ['*', '/'].isPrefixOf text = true := by
        obtain ⟨c, rest, rfl, hc⟩ := hn.starts
        exact not_starred hc rest
      have hall : text ≠ [] ∧ text.all digits.isDigit = true :=
        ⟨hn.1, List.all_eq_true.mpr fun c hc => hdigits.isDigit c (hn.2.1 c hc)⟩
      refine ⟨decide ((v : Int) = value), ?_, ?_⟩
      · unfold matchesPart
        rw [if_neg hstar, if_neg hslash, if_neg (hn.not_mem rfl), if_pos hall,
          int_numeral hdigits hn, Except.ok_bind, Except.pure_eq_ok]
      · rw [decide_eq_true_iff, Part.Selects, Int.natCast_inj]
  | @range low high first last hlow hhigh =>
      have hfirst : ∀ c ∈ first, c ≠ '-' := fun c hc => ne_of_isDigit (hlow.2.1 c hc) rfl
      have htake : (first ++ '-' :: last).takeWhile (· ≠ '-') = first := by
        rw [List.takeWhile_append_of_pos (by simpa using hfirst)]
        simp
      have hdrop : (first ++ '-' :: last).dropWhile (· ≠ '-') = '-' :: last := by
        rw [List.dropWhile_append_of_pos (by simpa using hfirst)]
        simp
      obtain ⟨hstar, hslash⟩ : first ++ '-' :: last ≠ ['*'] ∧
          ¬ ['*', '/'].isPrefixOf (first ++ '-' :: last) = true := by
        obtain ⟨c, rest, rfl, hc⟩ := hlow.starts
        exact not_starred hc _
      have hmem : '-' ∈ first ++ '-' :: last := List.mem_append_right _ List.mem_cons_self
      unfold matchesPart
      rw [if_neg hstar, if_neg hslash, if_pos hmem, htake, int_numeral hdigits hlow, hdrop,
        List.drop_succ_cons, List.drop_zero, int_numeral hdigits hhigh]
      simp only [Except.ok_bind]
      by_cases hle : low ≤ value
      · refine ⟨decide ((value : Int) ≤ high), ?_, ?_⟩
        · rw [if_pos (Int.ofNat_le.mpr hle)]
          rfl
        · rw [decide_eq_true_iff, Int.ofNat_le, Part.Selects, and_iff_right hle]
      · refine ⟨false, ?_, iff_of_false Bool.false_ne_true fun h => hle h.1⟩
        rw [if_neg fun h => hle (Int.ofNat_le.mp h)]
        rfl

/-- A field is read from zero. -/
theorem matchesParts_writes (hdigits : digits.Ascii) (value : Nat) {field : List Part}
    {texts : List (List Char)} (h : List.Forall₂ Part.Writes field texts) :
    (∀ part ∈ field, ∀ n, part = .step n → 1 ≤ n) →
      ∃ b, digits.matchesParts value texts = .ok b ∧ (b = true ↔ Selects 0 field value) := by
  induction h with
  | nil => exact fun _ => ⟨false, rfl, iff_of_false Bool.false_ne_true nofun⟩
  | @cons part text field texts hwrites _ ih =>
      intro hstep
      rw [List.forall_mem_cons] at hstep
      obtain ⟨found, hfound, hselects⟩ := matchesPart_writes hdigits hwrites hstep.1 value
      obtain ⟨later, hlater, hrest⟩ := ih hstep.2
      have hcons : Selects 0 (part :: field) value ↔
          part.Selects 0 value ∨ Selects 0 field value := by
        unfold Selects
        simp only [List.mem_cons, or_and_right, exists_or, exists_eq_left]
      rw [matchesParts, hfound, Except.ok_bind, hcons, ← hselects, ← hrest]
      cases found with
      | true => exact ⟨true, rfl, iff_of_true rfl (.inl rfl)⟩
      | false => exact ⟨later, hlater, by simp⟩

/-- The expression is five texts that write its fields, with blanks between and around them. -/
def WritesExpression (e : Expression) (text : String) : Prop :=
  ∃ minute hour dom month dow,
    (text.toList.splitOnP isSpace).filter (· ≠ []) = [minute, hour, dom, month, dow] ∧
      WritesField e.minute minute ∧ WritesField e.hour hour ∧ WritesField e.dom dom ∧
        WritesField e.month month ∧ WritesField e.dow dow

theorem matchesField_writes (hdigits : digits.Ascii) (value : Nat) {field : List Part}
    {low high : Nat} {text : List Char} (hfits : field ≠ [] ∧ ∀ part ∈ field, part.Fits low high)
    (h : WritesField field text) :
    ∃ b, digits.matchesField text value = .ok b ∧ (b = true ↔ Selects 0 field value) := by
  obtain ⟨texts, hwrites, rfl⟩ := h
  rw [matchesField, splitOn_intercalate_texts hfits.1 hwrites]
  exact matchesParts_writes hdigits value hwrites fun part hpart n hn => by
    have hfit := hfits.2 part hpart
    rwa [hn] at hfit

/-- Fields that do not raise match together if each of them does. -/
theorem matchesFields_cons {expr : List Char} {value : Nat} {fields : List (List Char × Nat)}
    {p q : Prop} (hfield : ∃ b, digits.matchesField expr value = .ok b ∧ (b = true ↔ p))
    (hfields : ∃ b, digits.matchesFields fields = .ok b ∧ (b = true ↔ q)) :
    ∃ b, digits.matchesFields ((expr, value) :: fields) = .ok b ∧ (b = true ↔ p ∧ q) := by
  obtain ⟨found, hfound, hp⟩ := hfield
  obtain ⟨later, hlater, hq⟩ := hfields
  rw [matchesFields, hfound, Except.ok_bind, ← hp, ← hq]
  cases found with
  | true => exact ⟨later, hlater, by simp⟩
  | false => exact ⟨false, rfl, by simp⟩

theorem matchesFields_nil : ∃ b, digits.matchesFields [] = .ok b ∧ (b = true ↔ True) :=
  ⟨true, rfl, iff_of_true rfl trivial⟩

/-- `cron_matches` asks of every field that it matches, and counts every step from zero. -/
theorem cronMatches_iff (hdigits : digits.Ascii) {e : Expression} (hfits : e.Fits)
    {text : String} (hwrites : WritesExpression e text) (m : Minute) :
    digits.cronMatches text m = .ok true ↔
      Selects 0 e.minute m.minute ∧ Selects 0 e.hour m.hour ∧ Selects 0 e.dom m.day ∧
        Selects 0 e.month m.month ∧ Selects 0 e.dow m.weekday := by
  obtain ⟨minute, hour, dom, month, dow, hsplit, hminute, hhour, hdom, hmonth, hdow⟩ := hwrites
  unfold cronMatches
  rw [hsplit]
  obtain ⟨b, hb, hiff⟩ :=
    matchesFields_cons (matchesField_writes hdigits m.minute hfits.minute hminute)
      (matchesFields_cons (matchesField_writes hdigits m.hour hfits.hour hhour)
        (matchesFields_cons (matchesField_writes hdigits m.day hfits.dom hdom)
          (matchesFields_cons (matchesField_writes hdigits m.month hfits.month hmonth)
            (matchesFields_cons (matchesField_writes hdigits m.weekday hfits.dow hdow)
              matchesFields_nil))))
  rw [and_true] at hiff
  rw [← hiff]
  dsimp only
  rw [hb, Except.ok.injEq]

end Digits

/-! ## Dates -/

namespace Minute

def Leap (year : Nat) : Prop := year % 4 = 0 ∧ (year % 100 ≠ 0 ∨ year % 400 = 0)

instance (year : Nat) : Decidable (Leap year) :=
  inferInstanceAs (Decidable (year % 4 = 0 ∧ (year % 100 ≠ 0 ∨ year % 400 = 0)))

def daysInMonth (year month : Nat) : Nat :=
  if month = 2 then if Leap year then 29 else 28
  else if month ∈ [4, 6, 9, 11] then 30
  else 31

/-- What the constructor of `datetime` accepts. -/
structure IsDate (m : Minute) : Prop where
  year : 1 ≤ m.year ∧ m.year ≤ 9999
  month : 1 ≤ m.month ∧ m.month ≤ 12
  day : 1 ≤ m.day ∧ m.day ≤ daysInMonth m.year m.month
  hour : m.hour ≤ 23
  minute : m.minute ≤ 59

/-- A day that its month has in some year. -/
def OccursTogether (month day : Nat) : Prop :=
  (1 ≤ month ∧ month ≤ 12) ∧ 1 ≤ day ∧ day ≤ daysInMonth 2000 month

/-- The days before a year, and one day for the leap years after February. -/
def daysBeforeYear (year : Nat) : Nat :=
  (year - 1) * 365 + (year - 1) / 4 - (year - 1) / 100 + (year - 1) / 400

/-- Seven leap years in a row start on the seven weekdays. -/
theorem exists_leap_weekday (days : Nat) {w : Nat} (hw : w < 7) :
    ∃ k < 7, (daysBeforeYear (2000 + 4 * k) + days) % 7 = w := by
  have hall : ∀ r < 7, ∀ w < 7, ∃ k < 7, (daysBeforeYear (2000 + 4 * k) + r) % 7 = w := by decide
  obtain ⟨k, hk, hweekday⟩ := hall (days % 7) (Nat.mod_lt _ (by decide)) w hw
  refine ⟨k, hk, ?_⟩
  rw [← hweekday, Nat.add_mod_mod]

theorem leap_of_lt {k : Nat} (hk : k < 7) : Leap (2000 + 4 * k) := by
  unfold Leap
  omega

theorem weekday_lt (m : Minute) : m.weekday < 7 := Nat.mod_lt _ (by decide)

theorem weekday_of_leap {year month day hour minute : Nat} (h : Leap year) :
    weekday ⟨year, month, day, hour, minute⟩ =
      (daysBeforeYear year + (daysBeforeMonth 2000 month + day)) % 7 := by
  have hmonth : daysBeforeMonth year month = daysBeforeMonth 2000 month := by
    have hleap : Leap 2000 := by decide
    unfold daysBeforeMonth
    exact congrArg _ (if_congr (and_congr (iff_of_true h hleap) Iff.rfl) rfl rfl)
  unfold weekday ordinal
  dsimp only
  rw [hmonth, Nat.add_assoc]
  rfl

/-- A day and a month that occur together do so on every weekday. -/
theorem exists_date {month day w hour minute : Nat} (hdate : OccursTogether month day) (hw : w < 7)
    (hhour : hour ≤ 23) (hminute : minute ≤ 59) :
    ∃ year, IsDate ⟨year, month, day, hour, minute⟩ ∧
      weekday ⟨year, month, day, hour, minute⟩ = w := by
  obtain ⟨k, hk, hweekday⟩ := exists_leap_weekday (daysBeforeMonth 2000 month + day) hw
  have hleap := leap_of_lt hk
  have hdays : daysInMonth (2000 + 4 * k) month = daysInMonth 2000 month := by
    unfold daysInMonth
    rw [if_pos hleap, if_pos (show Leap 2000 by decide)]
  refine ⟨2000 + 4 * k, ⟨⟨?_, ?_⟩, hdate.1, ⟨hdate.2.1, ?_⟩, hhour, hminute⟩,
    (weekday_of_leap hleap).trans hweekday⟩
  · show 1 ≤ 2000 + 4 * k
    omega
  · show 2000 + 4 * k ≤ 9999
    omega
  · rw [hdays]
    exact hdate.2.2

/-- A date has a day that its month has in some year. -/
theorem IsDate.occursTogether {m : Minute} (h : m.IsDate) : OccursTogether m.month m.day := by
  refine ⟨h.month, h.day.1, h.day.2.trans ?_⟩
  unfold daysInMonth
  rw [if_pos (show Leap 2000 by decide)]
  split
  · split <;> decide
  · exact Nat.le_refl _

end Minute

/-! ## The two meanings -/

def SelectsNone (field : List Part) (bound : Nat) : Prop := ∀ v < bound, ¬ Selects 0 field v

def SelectsAll (field : List Part) (bound : Nat) : Prop := ∀ v < bound, Selects 0 field v

/-- The steps of month and day of month, counted from `origin`, select the date. -/
def SelectsDate (e : Expression) (origin month day : Nat) : Prop :=
  Selects origin e.month month ∧ Selects origin e.dom day

/-- On a date the two meanings agree, whatever its weekday is.  With both day fields restricted,
either every weekday or no day is selected, and all selected days are selected from zero too. -/
def DatesAlike (e : Expression) (month day : Nat) : Prop :=
  if Restricted e.dom ∧ Restricted e.dow then
    if Selects 1 e.month month then
      (SelectsNone e.dow 7 ∧ ¬ Selects 1 e.dom day) ∨
        (SelectsDate e 0 month day ∧ (Selects 1 e.dom day → SelectsAll e.dow 7))
    else SelectsNone e.dow 7 ∨ ¬ SelectsDate e 0 month day
  else SelectsNone e.dow 7 ∨ (SelectsDate e 0 month day ↔ SelectsDate e 1 month day)

/-- The expressions that `cron_matches` gives the standard meaning: no minute or no hour is
selected at all, or the two meanings agree on every date. -/
def ReadAlike (e : Expression) : Prop :=
  SelectsNone e.minute 60 ∨ SelectsNone e.hour 24 ∨
    ∀ month day, Minute.OccursTogether month day → DatesAlike e month day

theorem forall_weekday_and {p q : Prop} {selects : Nat → Prop} :
    (∀ w < 7, (p ∧ selects w ↔ q ∧ selects w)) ↔ (∀ w < 7, ¬ selects w) ∨ (p ↔ q) := by
  constructor
  · intro h
    by_cases hnone : ∀ w < 7, ¬ selects w
    · exact .inl hnone
    · push Not at hnone
      obtain ⟨w, hw, hselects⟩ := hnone
      have hiff := h w hw
      rw [and_iff_left hselects, and_iff_left hselects] at hiff
      exact .inr hiff
  · rintro (hnone | hiff) w hw
    · exact iff_of_false (fun h => hnone w hw h.2) fun h => hnone w hw h.2
    · exact and_congr_left fun _ => hiff

theorem forall_weekday_or {p q r : Prop} [Decidable q] {selects : Nat → Prop} :
    (∀ w < 7, (p ∧ selects w ↔ q ∧ (r ∨ selects w))) ↔
      if q then ((∀ w < 7, ¬ selects w) ∧ ¬ r) ∨ (p ∧ (r → ∀ w < 7, selects w))
      else (∀ w < 7, ¬ selects w) ∨ ¬ p := by
  by_cases hq : q
  · rw [if_pos hq]
    simp only [hq, true_and]
    constructor
    · intro h
      by_cases hr : r
      · have hall : ∀ w < 7, p ∧ selects w := fun w hw => (h w hw).mpr (.inl hr)
        exact .inr ⟨(hall 0 (by decide)).1, fun _ w hw => (hall w hw).2⟩
      · by_cases hp : p
        · exact .inr ⟨hp, fun h => absurd h hr⟩
        · exact .inl ⟨fun w hw hselects => hp ((h w hw).mpr (.inr hselects)).1, hr⟩
    · rintro (⟨hnone, hr⟩ | ⟨hp, hall⟩) w hw
      · exact iff_of_false (fun h => hnone w hw h.2) fun h => h.elim hr (hnone w hw)
      · exact ⟨fun h => .inr h.2, fun h => ⟨hp, h.elim (fun hr => hall hr w hw) id⟩⟩
  · rw [if_neg hq]
    simp only [hq, false_and, iff_false, not_and]
    constructor
    · intro h
      by_cases hp : p
      · exact .inl fun w hw => h w hw hp
      · exact .inr hp
    · rintro (hnone | hp) w hw hp'
      · exact hnone w hw
      · exact absurd hp' hp

/-- What the meanings say of a date, whatever its weekday is. -/
theorem datesAlike_iff (e : Expression) (month day : Nat) :
    (∀ w < 7, (Selects 0 e.dom day ∧ Selects 0 e.month month ∧ Selects 0 e.dow w ↔
      Selects 1 e.month month ∧ e.DayMatches day w)) ↔ DatesAlike e month day := by
  have hzero : ∀ w, (Selects 0 e.dom day ∧ Selects 0 e.month month ∧ Selects 0 e.dow w ↔
      SelectsDate e 0 month day ∧ Selects 0 e.dow w) := fun w => by
    unfold SelectsDate
    rw [and_left_comm, and_assoc]
  unfold DatesAlike Expression.DayMatches
  simp only [hzero]
  by_cases hboth : Restricted e.dom ∧ Restricted e.dow
  · simp only [if_pos hboth]
    exact forall_weekday_or
  · simp only [if_neg hboth, ← and_assoc]
    exact forall_weekday_and

/-- At every moment `cron_matches` has the standard meaning exactly for the expressions that are
read alike. -/
theorem cron_standard_iff {digits : Digits} (hdigits : digits.Ascii) {e : Expression}
    (hfits : e.Fits) {text : String} (hwrites : Digits.WritesExpression e text) :
    (∀ m : Minute, m.IsDate →
      (digits.cronMatches text m = .ok true ↔
        e.Matches m.minute m.hour m.day m.month m.weekday)) ↔ ReadAlike e := by
  unfold Expression.Matches
  simp only [Digits.cronMatches_iff hdigits hfits hwrites]
  constructor
  · intro h
    by_cases hminute : SelectsNone e.minute 60
    · exact .inl hminute
    by_cases hhour : SelectsNone e.hour 24
    · exact .inr (.inl hhour)
    unfold SelectsNone at hminute hhour
    push Not at hminute hhour
    obtain ⟨minute, hminute, hselminute⟩ := hminute
    obtain ⟨hour, hhour, hselhour⟩ := hhour
    refine .inr (.inr fun month day hdate => (datesAlike_iff e month day).mp fun w hw => ?_)
    obtain ⟨year, hisdate, rfl⟩ := Minute.exists_date hdate hw (Nat.le_of_lt_succ hhour)
      (Nat.le_of_lt_succ hminute)
    have hiff := h _ hisdate
    simp only [hselminute, hselhour, true_and] at hiff
    exact hiff
  · intro h m hdate
    refine and_congr_right fun hminute => and_congr_right fun hhour => ?_
    rcases h with hnone | hnone | hdates
    · exact absurd hminute (hnone _ (Nat.lt_succ_of_le hdate.minute))
    · exact absurd hhour (hnone _ (Nat.lt_succ_of_le hdate.hour))
    · exact (datesAlike_iff e m.month m.day).mpr (hdates _ _ hdate.occursTogether) _
        m.weekday_lt

/-- Without steps in month and day of month, and with one of the day fields left open, the two
meanings are the same. -/
theorem readAlike_of_no_step {e : Expression} (hmonth : ∀ part ∈ e.month, ∀ n, part ≠ .step n)
    (hdom : ∀ part ∈ e.dom, ∀ n, part ≠ .step n) (hopen : ¬ (Restricted e.dom ∧ Restricted e.dow)) :
    ReadAlike e := by
  refine .inr (.inr fun month day _ => ?_)
  unfold DatesAlike
  rw [if_neg hopen]
  exact .inr (and_congr (selects_of_no_step hmonth 0 1 month) (selects_of_no_step hdom 0 1 day))

/-! ## Weekday mornings, every other month, and the thirteenth or a Friday -/

theorem asciiDigits_ascii : asciiDigits.Ascii where
  decimal _ hc := if_pos hc
  isDigit _ hc := hc

def weekdayMornings : Expression where
  minute := [.number 0]
  hour := [.number 9]
  dom := [.every]
  month := [.every]
  dow := [.range 1 5]

theorem weekdayMornings_standard :
    ReadAlike weekdayMornings ∧ ∀ m : Minute, m.IsDate →
      (asciiDigits.cronMatches "0 9 * * 1-5" m = .ok true ↔
        weekdayMornings.Matches m.minute m.hour m.day m.month m.weekday) := by
  have halike : ReadAlike weekdayMornings := by
    refine readAlike_of_no_step ?_ ?_ (by decide)
    · rintro part hpart n rfl
      simp [weekdayMornings] at hpart
    · rintro part hpart n rfl
      simp [weekdayMornings] at hpart
  refine ⟨halike, (cron_standard_iff asciiDigits_ascii ?_ ?_).mpr halike⟩
  · exact ⟨by decide, by decide, by decide, by decide, by decide⟩
  · exact ⟨['0'], ['9'], ['*'], ['*'], ['1', '-', '5'], by decide,
      writesField_singleton (.number (by decide)),
      writesField_singleton (.number (by decide)),
      writesField_singleton .every, writesField_singleton .every,
      writesField_singleton (@Part.Writes.range 1 5 ['1'] ['5'] (by decide) (by decide))⟩

def everyOtherMonth : Expression where
  minute := [.number 0]
  hour := [.number 0]
  dom := [.number 1]
  month := [.step 2]
  dow := [.every]

def thirteenthOrFriday : Expression where
  minute := [.number 0]
  hour := [.number 0]
  dom := [.number 13]
  month := [.every]
  dow := [.number 5]

/-- `0 0 1 */2 *` does not match the first of January, nor `0 0 13 * 5` a Friday the sixth. -/
theorem dates_missed :
    (everyOtherMonth.Fits ∧ Digits.WritesExpression everyOtherMonth "0 0 1 */2 *" ∧
      Minute.IsDate ⟨2025, 1, 1, 0, 0⟩ ∧
      asciiDigits.cronMatches "0 0 1 */2 *" ⟨2025, 1, 1, 0, 0⟩ = .ok false ∧
      everyOtherMonth.Matches 0 0 1 1 (Minute.weekday ⟨2025, 1, 1, 0, 0⟩)) ∧
    (thirteenthOrFriday.Fits ∧ Digits.WritesExpression thirteenthOrFriday "0 0 13 * 5" ∧
      Minute.IsDate ⟨2025, 6, 6, 0, 0⟩ ∧
      asciiDigits.cronMatches "0 0 13 * 5" ⟨2025, 6, 6, 0, 0⟩ = .ok false ∧
      thirteenthOrFriday.Matches 0 0 6 6 (Minute.weekday ⟨2025, 6, 6, 0, 0⟩)) := by
  refine ⟨⟨⟨by decide, by decide, by decide, by decide, by decide⟩, ?_,
      ⟨by decide, by decide, by decide, by decide, by decide⟩, by decide, by decide⟩,
    ⟨⟨by decide, by decide, by decide, by decide, by decide⟩, ?_,
      ⟨by decide, by decide, by decide, by decide, by decide⟩, by decide, by decide⟩⟩
  · exact ⟨['0'], ['0'], ['1'], ['*', '/', '2'], ['*'], by decide,
      writesField_singleton (.number (by decide)),
      writesField_singleton (.number (by decide)),
      writesField_singleton (.number (by decide)),
      writesField_singleton (.step (by decide)), writesField_singleton .every⟩
  · exact ⟨['0'], ['0'], ['1', '3'], ['*'], ['5'], by decide,
      writesField_singleton (.number (by decide)),
      writesField_singleton (.number (by decide)),
      writesField_singleton (.number (by decide)), writesField_singleton .every,
      writesField_singleton (.number (by decide))⟩

end YoutubeFactory.Workflow
