import YoutubeFactory.Billing.Overage

/-!
# Exact invoices

What `close_period` bills is a function of the usage of each metric (`Plan.sum_overageItems`): the
order of the rows does not count, nor how usage is split over them.  Over a history of recordings
and closes no row is billed by two invoices, for the close that bills a row stamps it
(`history_billed_once`).

A metric without a row has no line.  That only matters where its allowance is negative.
-/

namespace YoutubeFactory.Billing

open Python

/-! ## The usage of a metric -/

/-- The usage of a metric in some rows. -/
def usedOf (metric : String) (rows : List UsageRecord) : ℚ :=
  ((rows.filter fun row => row.metric = metric).map UsageRecord.quantity).sum

def HasUsage (metric : String) (rows : List UsageRecord) : Prop := ∃ row ∈ rows, row.metric = metric

instance (metric : String) (rows : List UsageRecord) : Decidable (HasUsage metric rows) :=
  inferInstanceAs (Decidable (∃ row ∈ rows, row.metric = metric))

/-- Rows for the same metrics, with the same usage of each. -/
def SameUsage (rows rows' : List UsageRecord) : Prop :=
  ∀ metric,
    usedOf metric rows = usedOf metric rows' ∧ (HasUsage metric rows ↔ HasUsage metric rows')

theorem SameUsage.of_perm {rows rows' : List UsageRecord} (h : rows.Perm rows') :
    SameUsage rows rows' := by
  intro metric
  constructor
  · exact ((h.filter _).map _).sum_eq
  · unfold HasUsage
    simp only [h.mem_iff]

/-- A row may be cut into two rows of its metric. -/
theorem SameUsage.split {row first second : UsageRecord} (rows : List UsageRecord)
    (hfirst : first.metric = row.metric) (hsecond : second.metric = row.metric)
    (hquantity : first.quantity + second.quantity = row.quantity) :
    SameUsage (row :: rows) (first :: second :: rows) := by
  intro metric
  unfold usedOf HasUsage
  by_cases hmetric : row.metric = metric
  · simp [hmetric, hfirst, hsecond, ← hquantity, add_assoc]
  · simp [hmetric, hfirst, hsecond]

/-! ## What is billed -/

/-- The charge for the usage of a metric at a rate. -/
def Plan.charge (plan : Plan) (metric : String) (rate used : ℚ) : Int :=
  roundHalfUp (max 0 (used - plan.allowance metric) * rate)

/-- The metric is one that `close_period` looks at, or its charge without usage is nothing. -/
def Plan.Counts (plan : Plan) (rows : List UsageRecord) (metric : String) : Prop :=
  0 ≤ plan.allowance metric ∨ HasUsage metric rows

instance (plan : Plan) (rows : List UsageRecord) (metric : String) :
    Decidable (plan.Counts rows metric) :=
  inferInstanceAs (Decidable (0 ≤ plan.allowance metric ∨ HasUsage metric rows))

/-- The charges for the metrics with a rate. -/
def Plan.charges (plan : Plan) (rows : List UsageRecord) : Int :=
  ((plan.overageRates.entries.filter fun e => plan.Counts rows e.1).map fun e =>
    plan.charge e.1 e.2 (usedOf e.1 rows)).sum

theorem roundHalfUp_zero : roundHalfUp 0 = 0 := by
  unfold roundHalfUp
  norm_num

theorem Plan.charge_of_le {plan : Plan} {metric : String} {used : ℚ}
    (h : used ≤ plan.allowance metric) (rate : ℚ) : plan.charge metric rate used = 0 := by
  unfold Plan.charge
  rw [max_eq_left (sub_nonpos.mpr h), zero_mul, roundHalfUp_zero]

theorem Plan.overageAmount_eq (plan : Plan) (metric : String) (used : ℚ) :
    plan.overageAmount metric used =
      ((plan.overageRates.lookup metric).map fun rate => plan.charge metric rate used).getD 0 := by
  unfold Plan.overageAmount Plan.overageItem
  dsimp only
  cases plan.overageRates.lookup metric with
  | none => rfl
  | some rate =>
      rw [Option.map_some, Option.getD_some]
      dsimp only
      by_cases hle : used - plan.allowance metric ≤ 0
      · rw [if_pos hle, Plan.charge_of_le (sub_nonpos.mp hle)]
        rfl
      · rw [if_neg hle, Plan.charge, max_eq_right (not_le.mp hle).le]
        rfl

/-- Two dictionaries are joined at their common keys, starting from either. -/
theorem sum_join (f : String → ℚ → ℚ → Int) {others : List (Sigma fun _ : String => ℚ)}
    (hothers : others.NodupKeys) :
    ∀ {entries : List (Sigma fun _ : String => ℚ)}, entries.NodupKeys →
      (entries.map fun e => ((others.dlookup e.1).map (f e.1 e.2)).getD 0).sum =
        (others.map fun o => ((entries.dlookup o.1).map fun v => f o.1 v o.2).getD 0).sum
  | [], _ => by simp
  | ⟨key, value⟩ :: entries, h => by
      have hkey : entries.dlookup key = none :=
        List.dlookup_eq_none.mpr (List.notMem_keys_of_nodupKeys_cons h)
      have hterm : ∀ o : Sigma fun _ : String => ℚ,
          (((⟨key, value⟩ :: entries).dlookup o.1).map fun v => f o.1 v o.2).getD 0 =
            (if o.1 = key then f key value o.2 else 0) +
              ((entries.dlookup o.1).map fun v => f o.1 v o.2).getD 0 := by
        rintro ⟨other, x⟩
        by_cases hother : other = key
        · subst hother
          simp [hkey]
        · rw [List.dlookup_cons_ne _ _ hother, if_neg hother, zero_add]
      rw [List.map_cons, List.sum_cons, sum_join f hothers (List.nodupKeys_of_nodupKeys_cons h)]
      simp only [hterm]
      rw [List.sum_map_add, sum_entries_eq_lookup key (f key value) hothers]

/-- Where no allowance is negative, the charges are those for all metrics with a rate. -/
theorem Plan.charges_of_nonneg {plan : Plan} (h : ∀ metric, 0 ≤ plan.allowance metric)
    (rows : List UsageRecord) :
    plan.charges rows = (plan.overageRates.entries.map fun e =>
      plan.charge e.1 e.2 (usedOf e.1 rows)).sum := by
  unfold Plan.charges
  rw [List.filter_eq_self.mpr fun e _ => decide_eq_true (.inl (h e.1))]

theorem filter_eq_nil_iff_hasUsage {metric : String} {rows : List UsageRecord} :
    rows.filter (fun row => row.metric = metric) = [] ↔ ¬ HasUsage metric rows := by
  simp [HasUsage, List.filter_eq_nil_iff]

theorem usedOf_of_not_hasUsage {metric : String} {rows : List UsageRecord}
    (h : ¬ HasUsage metric rows) : usedOf metric rows = 0 := by
  rw [usedOf, filter_eq_nil_iff_hasUsage.mpr h]
  rfl

/-- The running totals have the usage of the metrics that occur. -/
theorem dlookup_totals (metric : String) (rows : List UsageRecord) :
    (rows.foldl addUsage ∅).entries.dlookup metric =
      if HasUsage metric rows then some (usedOf metric rows) else none := by
  refine (lookup_foldl_addUsage metric rows ∅).trans ?_
  by_cases husage : HasUsage metric rows
  · rw [if_neg (mt filter_eq_nil_iff_hasUsage.mp (not_not.mpr husage)), if_pos husage]
    simp [usedOf]
  · rw [if_pos (filter_eq_nil_iff_hasUsage.mpr husage), if_neg husage]
    rfl

/-- The lines bill the charges of the plan. -/
theorem Plan.sum_overageItems (plan : Plan) (rows : List UsageRecord) :
    ((plan.overageItems rows).map LineItem.amountCents).sum = plan.charges rows := by
  have hamount : (fun e : String × ℚ => ((plan.overageItem e.1 e.2).map
      LineItem.amountCents).getD 0) ∘ (fun e : Sigma fun _ : String => ℚ => (e.1, e.2)) =
      fun e => ((plan.overageRates.entries.dlookup e.1).map
        fun rate => plan.charge e.1 rate e.2).getD 0 := by
    funext e
    exact plan.overageAmount_eq e.1 e.2
  unfold Plan.overageItems Plan.charges
  dsimp only
  rw [Table.sum_map_filterMap, ((List.perm_insertionSort _ _).map _).sum_eq, List.map_map,
    Table.sum_map_filter, hamount,
    sum_join (fun metric used rate => plan.charge metric rate used)
      plan.overageRates.nodupKeys (rows.foldl addUsage ∅).nodupKeys]
  refine congrArg List.sum (List.map_congr_left fun e _ => ?_)
  rw [dlookup_totals]
  simp only [decide_eq_true_eq]
  by_cases husage : HasUsage e.1 rows
  · rw [if_pos husage, if_pos (.inr husage)]
    rfl
  · rw [if_neg husage]
    by_cases hcounts : plan.Counts rows e.1
    · rw [if_pos hcounts, usedOf_of_not_hasUsage husage,
        Plan.charge_of_le (hcounts.resolve_right husage)]
      rfl
    · rw [if_neg hcounts]
      rfl

theorem SameUsage.charges {rows rows' : List UsageRecord} (h : SameUsage rows rows')
    (plan : Plan) : plan.charges rows = plan.charges rows' := by
  have hcounts : ∀ metric, plan.Counts rows metric ↔ plan.Counts rows' metric :=
    fun metric => or_congr_right (h metric).2
  unfold Plan.charges
  simp only [hcounts, (h _).1]

/-- The invoice is exact: its total is that of its lines, the fee and the charges for the rows, and
what the lines would be on any rows with the same usage. -/
structure Invoice.Exact (plan : Plan) (rows : List UsageRecord) (invoice : Invoice) : Prop where
  lines : invoice.totalCents = (invoice.lineItems.map LineItem.amountCents).sum
  total : invoice.totalCents = plan.priceCents + plan.charges rows
  anyRows : ∀ rows', SameUsage rows rows' →
    invoice.totalCents = ((plan.feeItem :: plan.overageItems rows').map LineItem.amountCents).sum

theorem Invoice.Exact.of_lines {plan : Plan} {rows : List UsageRecord} {invoice : Invoice}
    (hlines : invoice.lineItems = plan.feeItem :: plan.overageItems rows)
    (htotal : invoice.totalCents =
      plan.priceCents + ((plan.overageItems rows).map LineItem.amountCents).sum) :
    invoice.Exact plan rows where
  lines := by
    rw [htotal, hlines]
    rfl
  total := by rw [htotal, plan.sum_overageItems]
  anyRows := by
    intro rows' hsame
    rw [htotal, List.map_cons, List.sum_cons, plan.sum_overageItems, plan.sum_overageItems,
      hsame.charges]
    rfl

/-! ## Closes -/

/-- A call of `close_period` that returned, with the tables before it and after it. -/
structure Closing where
  subscriptionId : Id
  now : DateTime
  before : Books
  invoiceId : Id
  after : Books
  returned : before.closePeriod subscriptionId now = .ok (invoiceId, after)

namespace Closing

/-- A row that `list_uninvoiced` returns to the call. -/
def billable (c : Closing) (row : UsageRecord) : Bool :=
  (c.before.subscriptions[c.subscriptionId]?).any fun subscription =>
    row.uninvoiced subscription.organizationId subscription.currentPeriodEnd.date

/-- The row enters the totals of the invoice. -/
def Bills (c : Closing) (row : Id) : Prop := ∃ r ∈ c.before.usage[row]?, c.billable r = true

instance (c : Closing) (row : Id) : Decidable (c.Bills row) :=
  inferInstanceAs (Decidable (∃ r ∈ c.before.usage[row]?, c.billable r = true))

/-- The row has no stamp before the issue of the invoice, and its moment after it. -/
def Stamps (c : Closing) (row : Id) : Prop :=
  (∃ r ∈ c.before.usage[row]?, r.invoicedAt = none) ∧
    ∃ r ∈ c.after.usage[row]?, r.invoicedAt = some c.now

theorem invoicedAt_of_billable {c : Closing} {r : UsageRecord} (h : c.billable r = true) :
    r.invoicedAt = none := by
  obtain ⟨subscription, -, h⟩ := Option.any_eq_true _ _ |>.mp h
  exact (of_decide_eq_true h).2.2.1

/-- A close that returned has found the subscription and its plan. -/
theorem subscribed (c : Closing) :
    ∃ subscription, c.before.subscriptions[c.subscriptionId]? = some subscription ∧
      ∃ plan, c.before.plans[subscription.planId]? = some plan := by
  have hreturned := c.returned
  unfold Books.closePeriod at hreturned
  cases hsubscription : c.before.subscriptions[c.subscriptionId]? with
  | none =>
      rw [hsubscription] at hreturned
      cases hreturned
  | some subscription =>
      rw [hsubscription] at hreturned
      cases hplan : c.before.plans[subscription.planId]? with
      | none =>
          simp only [hplan] at hreturned
          cases hreturned
      | some plan => exact ⟨subscription, rfl, plan, hplan⟩

/-- The invoice of a close is exact, and the rows that it bills are stamped. -/
theorem issues (c : Closing) :
    ∃ subscription plan invoice,
      c.before.subscriptions[c.subscriptionId]? = some subscription ∧
      c.before.plans[subscription.planId]? = some plan ∧
      c.invoiceId = c.before.invoices.length ∧
      c.after.invoices = c.before.invoices ++ [invoice] ∧
      c.after.usage = c.before.usage.map (fun r => if c.billable r then r.stamp c.now else r) ∧
      invoice.Exact plan (c.before.usage.filter (UsageRecord.uninvoiced
        subscription.organizationId subscription.currentPeriodEnd.date)) := by
  unfold billable
  obtain ⟨subscription, hsubscription, plan, hplan⟩ := c.subscribed
  obtain ⟨-, -, husage, hid, invoice, hinvoices, -, -, -, -, hlines, htotal⟩ :=
    closePeriod_ok hsubscription hplan c.returned
  rw [hsubscription]
  exact ⟨subscription, plan, invoice, rfl, hplan, hid, hinvoices, husage,
    .of_lines hlines htotal⟩

theorem bills_iff_stamps (c : Closing) (row : Id) : c.Bills row ↔ c.Stamps row := by
  obtain ⟨_, _, _, _, _, _, _, husage, _⟩ := c.issues
  unfold Bills Stamps
  rw [husage, List.getElem?_map]
  constructor
  · rintro ⟨r, hr, hbillable⟩
    refine ⟨⟨r, hr, invoicedAt_of_billable hbillable⟩, r.stamp c.now, ?_, rfl⟩
    rw [Option.mem_def.mp hr, Option.map_some, if_pos hbillable]
    exact Option.mem_some_self _
  · rintro ⟨⟨r, hr, hopen⟩, r', hr', hstamp⟩
    refine ⟨r, hr, ?_⟩
    rw [Option.mem_def.mp hr, Option.map_some] at hr'
    cases hr'
    by_contra hbillable
    rw [if_neg hbillable, hopen] at hstamp
    cases hstamp

end Closing

/-! ## Histories -/

/-- Usage of any organization is recorded, and periods of any subscription are closed. -/
inductive UsageCall where
  | record (organizationId : Id) (metric : String) (quantity : ℚ) (on : Option Date)
      (now : DateTime)
  | closePeriod (subscriptionId : Id) (now : DateTime)

/-- The tables, and the closes that have returned. -/
structure History where
  books : Books
  closings : List Closing

namespace History

def step (h : History) : UsageCall → History
  | .record organizationId metric quantity on now =>
      let books := Run.commit h.books (h.books.record organizationId metric quantity on now)
      { h with books }
  | .closePeriod subscriptionId now =>
      match hreturned : h.books.closePeriod subscriptionId now with
      | .error _ => h
      | .ok (invoiceId, after) =>
          { books := after
            closings := h.closings ++
              [{ subscriptionId, now, before := h.books, invoiceId, after,
                 returned := hreturned }] }

def after (books : Books) (calls : List UsageCall) : History :=
  Run.run step { books, closings := [] } calls

/-- A call that changes something adds a row without a stamp, or closes a period. -/
theorem step_cases (h : History) (call : UsageCall) :
    h.step call = h ∨
    (∃ row : UsageRecord,
      h.step call = { h with books := { h.books with usage := h.books.usage ++ [row] } }) ∨
    ∃ c : Closing, c.before = h.books ∧
      h.step call = { books := c.after, closings := h.closings ++ [c] } := by
  cases call with
  | record organizationId metric quantity on now =>
      unfold step
      dsimp only
      cases hrecord : h.books.record organizationId metric quantity on now with
      | error e => exact .inl rfl
      | ok r =>
          obtain ⟨-, row, hbooks, -⟩ := record_ok hrecord
          rw [Run.commit_ok, hbooks]
          exact .inr (.inl ⟨row, rfl⟩)
  | closePeriod subscriptionId now =>
      unfold step
      dsimp only
      split
      · exact .inl rfl
      · next invoiceId after hreturned =>
          exact .inr (.inr ⟨⟨subscriptionId, now, h.books, invoiceId, after, hreturned⟩, rfl, rfl⟩)

/-- A row is billed by one close at most and keeps its stamp, and invoices stay. -/
structure BilledOnce (h : History) : Prop where
  once : ∀ row, (h.closings.filter fun c => c.Bills row).length ≤ 1
  stamped : ∀ c ∈ h.closings, ∀ row, c.Bills row →
    ∃ r ∈ h.books.usage[row]?, r.invoicedAt = some c.now
  kept : ∀ c ∈ h.closings, c.after.invoices <+: h.books.invoices

theorem BilledOnce.record {h : History} (hbilled : h.BilledOnce) (row : UsageRecord) :
    BilledOnce { h with books := { h.books with usage := h.books.usage ++ [row] } } where
  once := hbilled.once
  stamped := by
    intro c hc id hbills
    obtain ⟨r, hr, hstamp⟩ := hbilled.stamped c hc id hbills
    exact ⟨r, List.getElem?_append_left (List.getElem?_eq_some_iff.mp hr).1 ▸ hr, hstamp⟩
  kept := hbilled.kept

theorem BilledOnce.close {h : History} (hbilled : h.BilledOnce) {c : Closing}
    (hbefore : c.before = h.books) :
    BilledOnce { books := c.after, closings := h.closings ++ [c] } := by
  obtain ⟨_, _, invoice, _, _, _, hinvoices, husage, _⟩ := c.issues
  rw [hbefore] at hinvoices husage
  -- a row that was billed before has its stamp, so the close leaves it alone
  have hold : ∀ c' ∈ h.closings, ∀ row, c'.Bills row → ¬ c.Bills row := by
    intro c' hc' row hbills' hbills
    obtain ⟨r, hr, hstamp⟩ := hbilled.stamped c' hc' row hbills'
    obtain ⟨r', hr', hbillable⟩ := hbills
    rw [hbefore, Option.mem_def.mp hr] at hr'
    cases hr'
    rw [Closing.invoicedAt_of_billable hbillable] at hstamp
    cases hstamp
  constructor
  · intro row
    rw [List.filter_append, List.length_append]
    by_cases hbills : c.Bills row
    · have hnil : h.closings.filter (fun c => c.Bills row) = [] := by
        rw [List.filter_eq_nil_iff]
        intro c' hc' hbills'
        exact hold c' hc' row (of_decide_eq_true hbills') hbills
      rw [hnil, List.length_nil, Nat.zero_add]
      exact List.length_filter_le _ _
    · rw [List.filter_cons_of_neg (by simpa using hbills), List.filter_nil, List.length_nil,
        Nat.add_zero]
      exact hbilled.once row
  · intro c' hc' row hbills
    rw [husage, List.getElem?_map]
    rcases List.mem_append.mp hc' with hc' | hc'
    · obtain ⟨r, hr, hstamp⟩ := hbilled.stamped c' hc' row hbills
      have hbillable : ¬ c.billable r = true := by
        intro hbillable
        rw [Closing.invoicedAt_of_billable hbillable] at hstamp
        cases hstamp
      refine ⟨r, ?_, hstamp⟩
      rw [Option.mem_def.mp hr, Option.map_some, if_neg hbillable]
      exact Option.mem_some_self _
    · cases List.mem_singleton.mp hc'
      obtain ⟨r, hr, hbillable⟩ := hbills
      refine ⟨r.stamp c.now, ?_, rfl⟩
      rw [← hbefore, Option.mem_def.mp hr, Option.map_some, if_pos hbillable]
      exact Option.mem_some_self _
  · intro c' hc'
    rcases List.mem_append.mp hc' with hc' | hc'
    · refine (hbilled.kept c' hc').trans ?_
      rw [hinvoices]
      exact List.prefix_append _ _
    · cases List.mem_singleton.mp hc'
      exact List.prefix_rfl

theorem billedOnce_after (books : Books) (calls : List UsageCall) :
    (after books calls).BilledOnce := by
  refine Run.run_invariant ?_ calls ⟨fun _ => Nat.zero_le 1, ?_, ?_⟩
  · intro h call hbilled
    rcases h.step_cases call with hstep | ⟨row, hstep⟩ | ⟨c, hbefore, hstep⟩
    · rw [hstep]
      exact hbilled
    · rw [hstep]
      exact hbilled.record row
    · rw [hstep]
      exact hbilled.close hbefore
  · intro c hc
    cases hc
  · intro c hc
    cases hc

end History

/-- In every history each invoice is exact for the rows that were uninvoiced at its call, and a row
enters the totals of one invoice at most: the one at whose issue it is stamped. -/
theorem history_billed_once (books : Books) (calls : List UsageCall) :
    (∀ c ∈ (History.after books calls).closings, ∃ subscription plan invoice,
      c.before.subscriptions[c.subscriptionId]? = some subscription ∧
      c.before.plans[subscription.planId]? = some plan ∧
      (History.after books calls).books.invoices[c.invoiceId]? = some invoice ∧
      invoice.Exact plan (c.before.usage.filter (UsageRecord.uninvoiced
        subscription.organizationId subscription.currentPeriodEnd.date))) ∧
    ∀ row,
      ((History.after books calls).closings.filter fun c => c.Bills row).length ≤ 1 ∧
      ∀ c ∈ (History.after books calls).closings,
        (c.Bills row ↔ c.Stamps row) ∧
        (c.Bills row → ∃ r ∈ (History.after books calls).books.usage[row]?,
          r.invoicedAt = some c.now) := by
  have hbilled := History.billedOnce_after books calls
  refine ⟨fun c hc => ?_, fun row => ⟨hbilled.once row, fun c hc =>
    ⟨c.bills_iff_stamps row, hbilled.stamped c hc row⟩⟩⟩
  obtain ⟨subscription, plan, invoice, hsubscription, hplan, hid, hinvoices, -, hexact⟩ := c.issues
  refine ⟨subscription, plan, invoice, hsubscription, hplan, ?_, hexact⟩
  obtain ⟨later, hlater⟩ := hbilled.kept c hc
  rw [← hlater, hinvoices, hid]
  simp

/-- The second close finds nothing left to bill. -/
example : (History.after tenRenders.books
    [.record 0 "renders" 7 (some 20100) 1736640000, .record 0 "renders" 5 (some 20101) 1736640000,
      .closePeriod 0 1738281600, .closePeriod 0 1738281600]).books.invoices.map
        Invoice.totalCents = [2910, 2900] := by
  decide +kernel

/-- Five renders are owed from the start. -/
def owing : Plan := { studio with quotas := AList.singleton "renders" (-5) }

def owingBooks : Books := { tenRenders.books with plans := [owing] }

/-- Without a row the metric has no line, although its usage is above its allowance. -/
theorem owing_not_charged :
    (History.after owingBooks [.closePeriod 0 1738281600]).books.invoices.map
      Invoice.totalCents = [2900] ∧
    owing.priceCents + (owing.overageRates.entries.map fun e =>
      owing.charge e.1 e.2 (usedOf e.1 owingBooks.usage)).sum = 2925 := by
  decide +kernel

end YoutubeFactory.Billing
