import YoutubeFactory.Billing.BilledOnce

/-!
# Invoice numbers

`_next_number` of `app/services/billing.py` numbers an invoice after the count of all invoices, not
of those of its month.  So over a history that begins without invoices the numbers are distinct
(`nodup_numbers`), and they are sequential in each month exactly where there is only one month
(`sequential_per_month_iff`).
-/

namespace YoutubeFactory.Billing

open Python

/-! ## The sequence of a number -/

/-- What stands after the last hyphen, read as a number. -/
def sequenceOf (number : String) : Nat :=
  Nat.ofDigitChars 10 (number.toList.reverse.takeWhile (· ≠ '-')).reverse 0

theorem toList_zeroPadded (width n : Nat) :
    ∃ zeros, (zeroPadded width n).toList = List.replicate zeros '0' ++ Nat.toDigits 10 n := by
  refine ⟨width - (toString (n : Int)).length, ?_⟩
  have hdigits : (toString (n : Int)).toList = Nat.toDigits 10 n := Nat.toList_repr
  unfold zeroPadded
  dsimp only
  rw [String.toList_append, String.toList_ofList, hdigits]

theorem hyphen_notMem_zeroPadded (width n : Nat) : '-' ∉ (zeroPadded width n).toList := by
  obtain ⟨zeros, hzeros⟩ := toList_zeroPadded width n
  rw [hzeros, List.mem_append, List.mem_replicate]
  rintro (⟨-, h⟩ | h)
  · exact absurd h (by decide)
  · exact absurd (Nat.isDigit_of_mem_toDigits (by decide) (by decide) h) (by decide)

/-- The sequence can be read back. -/
theorem sequenceOf_numberFor (moment : DateTime) (n : Nat) :
    sequenceOf (numberFor moment n) = n := by
  obtain ⟨zeros, hzeros⟩ := toList_zeroPadded 6 n
  have hhyphen := hyphen_notMem_zeroPadded 6 n
  unfold sequenceOf numberFor
  dsimp only
  rw [String.toList_append, String.toList_append, List.reverse_append, List.reverse_append,
    List.takeWhile_append_of_pos]
  · have hstop : ("-".toList.reverse ++ ("INV-" ++ toString (yearAndMonth moment.date).1 ++
        zeroPadded 2 (yearAndMonth moment.date).2).toList.reverse).takeWhile (· ≠ '-') = [] := rfl
    rw [hstop, List.append_nil, List.reverse_reverse, hzeros, Nat.ofDigitChars_append,
      Nat.ofDigitChars_replicate_zero, Nat.mul_zero, Nat.ofDigitChars_ten_toDigits]
  · intro c hc
    rw [List.mem_reverse] at hc
    exact decide_eq_true fun heq => hhyphen (heq ▸ hc)

theorem numberFor_inj {moment moment' : DateTime} {n n' : Nat}
    (h : numberFor moment n = numberFor moment' n') : n = n' := by
  rw [← sequenceOf_numberFor moment n, h, sequenceOf_numberFor]

/-! ## Months -/

/-- The calendar month of a moment. -/
def monthOf (moment : DateTime) : Int × Int := yearAndMonth moment.date

/-- The invoice was issued in the month. -/
def Invoice.issuedIn (month : Int × Int) (invoice : Invoice) : Bool :=
  invoice.issuedAt.any fun moment => monthOf moment = month

/-- The invoices of each month are numbered one after the other, and no two have one number. -/
structure SequentialPerMonth (invoices : List Invoice) : Prop where
  numbered : ∀ month i invoice, (invoices.filter (Invoice.issuedIn month))[i]? = some invoice →
    ∀ moment ∈ invoice.issuedAt, invoice.number = numberFor moment (i + 1)
  distinct : (invoices.map Invoice.number).Nodup

/-- The invoices are numbered one after the other, whatever their months. -/
def Sequential (invoices : List Invoice) : Prop :=
  ∀ i invoice, invoices[i]? = some invoice →
    invoice.deletedAt = none ∧
      ∃ moment, invoice.issuedAt = some moment ∧ invoice.number = numberFor moment (i + 1)

namespace Sequential

variable {invoices : List Invoice}

theorem nodup_numbers (h : Sequential invoices) : (invoices.map Invoice.number).Nodup := by
  rw [List.nodup_iff_getElem?_ne_getElem?]
  intro i j hij hj heq
  rw [List.length_map] at hj
  rw [List.getElem?_map, List.getElem?_map, List.getElem?_eq_getElem hj,
    List.getElem?_eq_getElem (hij.trans hj), Option.map_some, Option.map_some] at heq
  obtain ⟨-, moment, -, hnumber⟩ := h i _ (List.getElem?_eq_getElem (hij.trans hj))
  obtain ⟨-, moment', -, hnumber'⟩ := h j _ (List.getElem?_eq_getElem hj)
  rw [Option.some.injEq, hnumber, hnumber'] at heq
  have hsame := numberFor_inj heq
  omega

end Sequential

theorem Invoice.issuedIn_iff {month : Int × Int} {invoice : Invoice} {moment : DateTime}
    (h : invoice.issuedAt = some moment) :
    invoice.issuedIn month = true ↔ monthOf moment = month := by
  simp [Invoice.issuedIn, h]

namespace Sequential

variable {invoices : List Invoice}

/-- The first invoice of any month is the first of all, if the numbers are sequential in each
month. -/
theorem eq_first (h : Sequential invoices) (hmonths : SequentialPerMonth invoices)
    {month : Int × Int} {invoice : Invoice}
    (hfirst : (invoices.filter (Invoice.issuedIn month))[0]? = some invoice) :
    invoices[0]? = some invoice := by
  have hmem := (List.mem_filter.mp (List.mem_of_getElem? hfirst)).1
  obtain ⟨i, hi⟩ := List.mem_iff_getElem?.mp hmem
  obtain ⟨-, moment, hissued, hnumber⟩ := h i invoice hi
  have hone := hmonths.numbered month 0 invoice hfirst moment hissued
  rw [hnumber] at hone
  have hzero : i = 0 := Nat.succ.inj (numberFor_inj hone)
  rwa [hzero] at hi

/-- Numbers are sequential in each month exactly where all invoices are of one month. -/
theorem sequentialPerMonth_iff (h : Sequential invoices) :
    SequentialPerMonth invoices ↔
      ∀ invoice ∈ invoices, ∀ invoice' ∈ invoices, ∀ moment ∈ invoice.issuedAt,
        ∀ moment' ∈ invoice'.issuedAt, monthOf moment = monthOf moment' := by
  constructor
  · intro hmonths
    -- each month has a first invoice, and these are all the same
    have hsame : ∀ invoice ∈ invoices, ∀ moment ∈ invoice.issuedAt,
        ∃ first moment₀, invoices[0]? = some first ∧ first.issuedAt = some moment₀ ∧
          monthOf moment₀ = monthOf moment := by
      intro invoice hinvoice moment hmoment
      have hmem : invoice ∈ invoices.filter (Invoice.issuedIn (monthOf moment)) :=
        List.mem_filter.mpr ⟨hinvoice, (Invoice.issuedIn_iff hmoment).mpr rfl⟩
      have hlength := List.length_pos_of_mem hmem
      have hhead := List.getElem?_eq_getElem hlength
      have hfirst := h.eq_first hmonths hhead
      obtain ⟨-, moment₀, hissued, -⟩ := h 0 _ hfirst
      have hmonth := (List.mem_filter.mp (List.mem_of_getElem? hhead)).2
      exact ⟨_, moment₀, hfirst, hissued, (Invoice.issuedIn_iff hissued).mp hmonth⟩
    intro invoice hinvoice invoice' hinvoice' moment hmoment moment' hmoment'
    obtain ⟨first, moment₀, hfirst, hissued, hmonth⟩ := hsame invoice hinvoice moment hmoment
    obtain ⟨first', moment₁, hfirst', hissued', hmonth'⟩ :=
      hsame invoice' hinvoice' moment' hmoment'
    rw [hfirst] at hfirst'
    cases hfirst'
    rw [hissued] at hissued'
    cases hissued'
    exact hmonth.symm.trans hmonth'
  · intro hone
    refine ⟨fun month i invoice hi moment hmoment => ?_, h.nodup_numbers⟩
    obtain ⟨hmem, hissued⟩ := List.mem_filter.mp (List.mem_of_getElem? hi)
    have hmonth := (Invoice.issuedIn_iff hmoment).mp hissued
    have hall : invoices.filter (Invoice.issuedIn month) = invoices := by
      rw [List.filter_eq_self]
      intro other hother
      obtain ⟨j, hj⟩ := List.mem_iff_getElem?.mp hother
      obtain ⟨-, moment', hissued', -⟩ := h j other hj
      rw [Invoice.issuedIn_iff hissued', ← hmonth]
      exact hone other hother invoice hmem moment' hissued' moment hmoment
    rw [hall] at hi
    obtain ⟨-, moment', hissued', hnumber⟩ := h i invoice hi
    rw [Option.mem_def.mp hmoment] at hissued'
    cases hissued'
    exact hnumber

end Sequential

/-! ## Histories -/

theorem nextNumber_of_sequential {books : Books} {moment : DateTime} {number : String}
    (h : Sequential books.invoices) (hnumber : books.nextNumber moment = .ok number) :
    number = numberFor moment (books.invoices.length + 1) := by
  have hkept : books.invoices.filter (fun i => i.deletedAt = none) = books.invoices := by
    rw [List.filter_eq_self]
    intro invoice hinvoice
    obtain ⟨i, hi⟩ := List.mem_iff_getElem?.mp hinvoice
    exact decide_eq_true (h i invoice hi).1
  unfold Books.nextNumber at hnumber
  rw [hkept] at hnumber
  dsimp only at hnumber
  split at hnumber
  · cases hnumber
  · cases hnumber
    rfl

/-- The invoices of a history are those of its closes, in their order and numbered throughout. -/
structure History.Numbered (h : History) : Prop where
  sequential : Sequential h.books.invoices
  issued : h.books.invoices.map Invoice.issuedAt = h.closings.map fun c => some c.now

theorem History.Numbered.close {h : History} (hnumbered : h.Numbered) {c : Closing}
    (hbefore : c.before = h.books) :
    Numbered { books := c.after, closings := h.closings ++ [c] } := by
  obtain ⟨subscription, hsubscription, plan, hplan⟩ := c.subscribed
  obtain ⟨-, -, -, -, invoice, hinvoices, -, hnumber, hissued, hkept, -⟩ :=
    closePeriod_ok hsubscription hplan c.returned
  rw [hbefore] at hinvoices hnumber
  have hnext := nextNumber_of_sequential hnumbered.sequential hnumber
  constructor
  · intro i other hi
    rw [hinvoices] at hi
    rcases lt_or_ge i h.books.invoices.length with hold | hnew
    · rw [List.getElem?_append_left hold] at hi
      exact hnumbered.sequential i other hi
    · rw [List.getElem?_append_right hnew] at hi
      rw [List.getElem?_singleton, Option.ite_none_right_eq_some] at hi
      obtain ⟨hindex, hother⟩ := hi
      cases hother
      have hlast : i = h.books.invoices.length := by omega
      rw [hlast]
      exact ⟨hkept, c.now, hissued, hnext⟩
  · rw [hinvoices, List.map_append, List.map_append, hnumbered.issued, List.map_singleton,
      List.map_singleton, hissued]

theorem History.numbered_after {books : Books} (hnone : books.invoices = [])
    (calls : List UsageCall) : (History.after books calls).Numbered := by
  refine Run.run_invariant ?_ calls ⟨?_, ?_⟩
  · intro h call hnumbered
    rcases h.step_cases call with hstep | ⟨row, hstep⟩ | ⟨c, hbefore, hstep⟩
    · rw [hstep]
      exact hnumbered
    · rw [hstep]
      exact ⟨hnumbered.sequential, hnumbered.issued⟩
    · rw [hstep]
      exact hnumbered.close hbefore
  · intro i invoice hi
    rw [hnone] at hi
    cases hi
  · rw [hnone]
    rfl

/-- The invoices that a history issues are numbered sequentially in each month if all its closes
that issue one are of one month, and else not. -/
theorem sequential_per_month_iff (books : Books) (hnone : books.invoices = [])
    (calls : List UsageCall) :
    SequentialPerMonth (History.after books calls).books.invoices ↔
      ∀ c ∈ (History.after books calls).closings, ∀ c' ∈ (History.after books calls).closings,
        monthOf c.now = monthOf c'.now := by
  have hnumbered := History.numbered_after hnone calls
  rw [hnumbered.sequential.sequentialPerMonth_iff]
  have hmem : ∀ moment, (∃ invoice ∈ (History.after books calls).books.invoices,
      invoice.issuedAt = some moment) ↔
      ∃ c ∈ (History.after books calls).closings, c.now = moment := by
    intro moment
    have hiff : some moment ∈ (History.after books calls).books.invoices.map Invoice.issuedAt ↔
        some moment ∈ (History.after books calls).closings.map fun c => some c.now := by
      rw [hnumbered.issued]
    simpa only [List.mem_map, Option.some.injEq] using hiff
  constructor
  · intro h c hc c' hc'
    obtain ⟨invoice, hinvoice, hissued⟩ := (hmem c.now).mpr ⟨c, hc, rfl⟩
    obtain ⟨invoice', hinvoice', hissued'⟩ := (hmem c'.now).mpr ⟨c', hc', rfl⟩
    exact h invoice hinvoice invoice' hinvoice' c.now hissued c'.now hissued'
  · intro h invoice hinvoice invoice' hinvoice' moment hmoment moment' hmoment'
    obtain ⟨c, hc, rfl⟩ := (hmem moment).mp ⟨invoice, hinvoice, hmoment⟩
    obtain ⟨c', hc', rfl⟩ := (hmem moment').mp ⟨invoice', hinvoice', hmoment'⟩
    exact h c hc c' hc'

/-! ## The turn of a month -/

/-- The end of January 2025, and the first day of February. -/
def closeOn31January : UsageCall := .closePeriod 0 1738281600

def closeOn1February : UsageCall := .closePeriod 0 1738368000

/-- Two closes on one day. -/
theorem sequential_in_january :
    SequentialPerMonth (History.after tenRenders.books
      [closeOn31January, closeOn31January]).books.invoices := by
  refine (sequential_per_month_iff tenRenders.books rfl _).mpr ?_
  have hdays : ∀ c ∈ (History.after tenRenders.books
      [closeOn31January, closeOn31January]).closings, monthOf c.now = (2025, 1) := by
    decide +kernel
  intro c hc c' hc'
  rw [hdays c hc, hdays c' hc']

/-- The first invoice of February has the number two. -/
theorem not_sequential_in_february :
    (History.after tenRenders.books [closeOn31January, closeOn1February]).books.invoices.map
      Invoice.number = ["INV-202501-000001", "INV-202502-000002"] ∧
    ¬ SequentialPerMonth (History.after tenRenders.books
      [closeOn31January, closeOn1February]).books.invoices := by
  refine ⟨by decide +kernel, fun h => ?_⟩
  have hfirst : ∃ invoice, ((History.after tenRenders.books
      [closeOn31January, closeOn1February]).books.invoices.filter
        (Invoice.issuedIn (2025, 2)))[0]? = some invoice ∧
      invoice.issuedAt = some 1738368000 ∧ invoice.number = "INV-202502-000002" :=
    ⟨_, rfl, rfl, rfl⟩
  obtain ⟨invoice, hinvoice, hissued, hnumber⟩ := hfirst
  have hone := h.numbered (2025, 2) 0 invoice hinvoice _ hissued
  rw [hnumber] at hone
  exact absurd hone (by decide +kernel)

end YoutubeFactory.Billing
