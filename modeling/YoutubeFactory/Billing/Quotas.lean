import YoutubeFactory.Billing.BilledOnce
import YoutubeFactory.Pipeline.Metering

/-!
# Quotas and overage

`quota_remaining` and `close_period` of `app/services/billing.py` each compute an allowance and a
usage.  The quota path looks at the active subscription of the organization and at the rows since
its start, and a metric that the plan does not list is unlimited to it.  A close looks at the
subscription that is closed and at the rows without an invoice, and to it a metric that the plan
does not list has an allowance of zero.

So the two agree about overage where they look at the same figures (`quota_agrees_iff`), and a plan
with a rate for a metric that it does not list charges what it calls unlimited
(`unlimited_charged`).
-/

namespace YoutubeFactory.Billing

open Python

/-! ## Lines -/

/-- The metric has a row, and its usage is above the allowance. -/
def Plan.Exceeded (plan : Plan) (rows : List UsageRecord) (metric : String) : Prop :=
  HasUsage metric rows ∧ plan.allowance metric < usedOf metric rows

instance (plan : Plan) (rows : List UsageRecord) (metric : String) :
    Decidable (plan.Exceeded rows metric) :=
  inferInstanceAs (Decidable (HasUsage metric rows ∧ plan.allowance metric < usedOf metric rows))

/-- One of the lines is the overage line of the metric. -/
def OverageLine (metric : String) (lines : List LineItem) : Prop :=
  ∃ item ∈ lines, item.description = metric ++ " overage"

instance (metric : String) (lines : List LineItem) : Decidable (OverageLine metric lines) :=
  inferInstanceAs (Decidable (∃ item ∈ lines, item.description = metric ++ " overage"))

theorem exists_overageItem_iff {plan : Plan} {metric : String} {used : ℚ} :
    (∃ item, plan.overageItem metric used = some item) ↔
      (∃ rate, plan.overageRates.lookup metric = some rate) ∧ plan.allowance metric < used := by
  unfold Plan.overageItem
  cases plan.overageRates.lookup metric with
  | none => simp
  | some rate =>
      by_cases hle : used - plan.allowance metric ≤ 0
      · simp [hle, not_lt.mpr (sub_nonpos.mp hle)]
      · simp [hle, sub_pos.mp (not_le.mp hle)]

theorem mem_totals_iff {metric : String} {used : ℚ} {rows : List UsageRecord} :
    ⟨metric, used⟩ ∈ (rows.foldl addUsage ∅).entries ↔
      HasUsage metric rows ∧ used = usedOf metric rows := by
  rw [← List.mem_dlookup_iff (rows.foldl addUsage ∅).nodupKeys, dlookup_totals]
  by_cases husage : HasUsage metric rows
  · simp [husage, eq_comm]
  · simp [husage]

/-- The lines for the rows have one for the metric where it has a rate and its usage is above the
allowance. -/
theorem overageLine_overageItems_iff {plan : Plan} {rows : List UsageRecord} {metric : String} :
    OverageLine metric (plan.overageItems rows) ↔
      (∃ rate, plan.overageRates.lookup metric = some rate) ∧ plan.Exceeded rows metric := by
  have hmem : ∀ item, item ∈ plan.overageItems rows ↔
      ∃ e ∈ (rows.foldl addUsage ∅).entries, plan.overageItem e.1 e.2 = some item := by
    intro item
    unfold Plan.overageItems
    simp only [List.mem_filterMap, List.mem_insertionSort, List.mem_map]
    constructor
    · rintro ⟨_, ⟨e, he, rfl⟩, hitem⟩
      exact ⟨e, he, hitem⟩
    · rintro ⟨e, he, hitem⟩
      exact ⟨_, ⟨e, he, rfl⟩, hitem⟩
  constructor
  · rintro ⟨item, hitem, hdescription⟩
    obtain ⟨⟨name, used⟩, he, hitem⟩ := (hmem item).mp hitem
    rw [overageItem_description hitem, String.append_left_inj] at hdescription
    subst hdescription
    obtain ⟨husage, rfl⟩ := mem_totals_iff.mp he
    obtain ⟨hrate, habove⟩ := exists_overageItem_iff.mp ⟨item, hitem⟩
    exact ⟨hrate, husage, habove⟩
  · rintro ⟨hrate, husage, habove⟩
    obtain ⟨item, hitem⟩ := exists_overageItem_iff.mpr ⟨hrate, habove⟩
    refine ⟨item, (hmem item).mpr ⟨⟨metric, usedOf metric rows⟩, ?_, hitem⟩,
      overageItem_description hitem⟩
    exact mem_totals_iff.mpr ⟨husage, rfl⟩

/-- The line of the fee ends in a bracket. -/
theorem feeItem_description_ne (plan : Plan) (metric : String) :
    plan.feeItem.description ≠ metric ++ " overage" := by
  intro h
  have hfee : plan.feeItem.description = plan.name ++ " (" ++ plan.interval ++ ")" := rfl
  rw [hfee] at h
  have hlast := congrArg (fun s : String => s.toList.getLast?) h
  simp only [String.toList_append, List.getLast?_append] at hlast
  exact absurd hlast (by simp)

/-! ## Agreement -/

/-- The usage of the organization is of the period and without an invoice. -/
def Books.OnlyThisPeriod (books : Books) (subscription : Subscription) : Prop :=
  ∀ row ∈ books.usage, row.organizationId = subscription.organizationId → row.deletedAt = none →
    subscription.currentPeriodStart.date ≤ row.recordedFor ∧
      row.recordedFor ≤ subscription.currentPeriodEnd.date ∧ row.invoicedAt = none

/-- An invoice has an overage line for the metrics with a rate whose quota is used up and more. -/
def QuotaAgrees (decimal : ℚ → ℚ) (books : Books) (organizationId : Id) (plan : Plan)
    (invoice : Invoice) : Prop :=
  ∀ metric, OverageLine metric invoice.lineItems ↔
    (∃ remaining, books.quotaRemaining organizationId metric decimal = some remaining ∧
      remaining < 0) ∧
    ∃ rate, plan.overageRates.lookup metric = some rate

/-- The rows that a close of the subscription bills. -/
def Books.billable (books : Books) (subscription : Subscription) : List UsageRecord :=
  books.usage.filter (UsageRecord.uninvoiced subscription.organizationId
    subscription.currentPeriodEnd.date)

/-- The quota path and the close see the metric on the same side of its allowance.  Without a figure
of the quota path, that is within the close's own allowance.  If the active subscription is the one
that is closed, a listed allowance is the same for both, so it only matters that the float of the
usage has not crossed it, and that the allowance of an unused metric is not negative.  If it is
another one, its allowance and the rows since its start have to compare as the plan's do. -/
def Books.SameSide (decimal : ℚ → ℚ) (books : Books) (subscriptionId : Id)
    (subscription : Subscription) (plan : Plan) (metric : String) : Prop :=
  let rows := books.billable subscription
  match books.allowance subscription.organizationId metric with
  | none => ¬ plan.Exceeded rows metric
  | some (active, limit) =>
      if books.activeSubscription subscription.organizationId = some subscriptionId then
        if HasUsage metric rows then
          limit < decimal (usedOf metric rows) ↔ limit < usedOf metric rows
        else 0 ≤ limit
      else
        limit < books.totalForMetric subscription.organizationId metric decimal
            active.currentPeriodStart.date ↔
          plan.Exceeded rows metric

section

variable {decimal : ℚ → ℚ} {books : Books} {subscriptionId : Id} {subscription active : Subscription}
  {plan : Plan} {metric : String} {limit : ℚ}

theorem Books.quotaRemaining_neg_iff {organizationId : Id} :
    (∃ remaining, books.quotaRemaining organizationId metric decimal = some remaining ∧
        remaining < 0) ↔
      ∃ active limit, books.allowance organizationId metric = some (active, limit) ∧
        limit < books.totalForMetric organizationId metric decimal
          active.currentPeriodStart.date := by
  unfold quotaRemaining
  cases books.allowance organizationId metric with
  | none => simp
  | some allowed =>
      obtain ⟨active, limit⟩ := allowed
      simp [sub_neg]

/-- In its own period, the quota path counts the rows that a close bills. -/
theorem Books.quantities_eq (honly : books.OnlyThisPeriod subscription) :
    books.quantities subscription.organizationId metric subscription.currentPeriodStart.date =
      ((books.billable subscription).filter fun row => row.metric = metric).map
        UsageRecord.quantity := by
  unfold quantities billable
  rw [List.filter_filter]
  refine congrArg (List.map UsageRecord.quantity) (List.filter_congr fun row hrow => ?_)
  unfold UsageRecord.uninvoiced
  have hperiod := honly row hrow
  by_cases hours : row.organizationId = subscription.organizationId ∧ row.deletedAt = none
  · obtain ⟨hsince, huntil, hopen⟩ := hperiod hours.1 hours.2
    simp [hours.1, hours.2, hsince, huntil, hopen]
  · grind

theorem Books.totalForMetric_eq (honly : books.OnlyThisPeriod subscription) :
    books.totalForMetric subscription.organizationId metric decimal
        subscription.currentPeriodStart.date =
      if HasUsage metric (books.billable subscription) then
        decimal (usedOf metric (books.billable subscription))
      else 0 := by
  unfold totalForMetric
  rw [quantities_eq honly]
  dsimp only
  by_cases husage : HasUsage metric (books.billable subscription)
  · have hrows := mt filter_eq_nil_iff_hasUsage.mp (not_not.mpr husage)
    rw [if_neg (by simpa using hrows), if_pos husage]
    rfl
  · rw [filter_eq_nil_iff_hasUsage.mpr husage, if_neg husage]
    rfl

/-- The quota path reads the plan of the active subscription. -/
theorem Books.allowance_of_active {organizationId : Id}
    (hsubscription : books.subscriptions[subscriptionId]? = some subscription)
    (hplan : books.plans[subscription.planId]? = some plan)
    (hactive : books.activeSubscription organizationId = some subscriptionId) :
    books.allowance organizationId metric =
      (plan.quotas.lookup metric).map fun limit => (subscription, limit) := by
  unfold allowance
  rw [hactive, Option.bind_eq_bind, Option.bind_some, hsubscription, Option.bind_eq_bind,
    Option.bind_some, hplan, Option.bind_eq_bind, Option.bind_some]
  cases plan.quotas.lookup metric <;> rfl

/-- Then a quota is used up and more where the plan lists it below the usage. -/
theorem Books.quotaRemaining_neg_of_active (honly : books.OnlyThisPeriod subscription)
    (hallowance : books.allowance subscription.organizationId metric =
      (plan.quotas.lookup metric).map fun limit => (subscription, limit)) :
    (∃ remaining, books.quotaRemaining subscription.organizationId metric decimal =
        some remaining ∧ remaining < 0) ↔
      ∃ limit, plan.quotas.lookup metric = some limit ∧
        limit < if HasUsage metric (books.billable subscription) then
            decimal (usedOf metric (books.billable subscription))
          else 0 := by
  rw [quotaRemaining_neg_iff, hallowance]
  constructor
  · rintro ⟨active, limit, hlisted, hbelow⟩
    obtain ⟨limit', hlimit, heq⟩ := Option.map_eq_some_iff.mp hlisted
    cases heq
    exact ⟨limit, hlimit, totalForMetric_eq honly ▸ hbelow⟩
  · rintro ⟨limit, hlimit, hbelow⟩
    exact ⟨subscription, limit, by rw [hlimit, Option.map_some], totalForMetric_eq honly ▸ hbelow⟩

/-- A metric is charged exactly when its quota is used up and more, if both see it on the same side
of its allowance. -/
theorem Books.sameSide_iff (honly : books.OnlyThisPeriod subscription)
    (hsubscription : books.subscriptions[subscriptionId]? = some subscription)
    (hplan : books.plans[subscription.planId]? = some plan) :
    books.SameSide decimal subscriptionId subscription plan metric ↔
      (plan.Exceeded (books.billable subscription) metric ↔
        ∃ remaining, books.quotaRemaining subscription.organizationId metric decimal =
          some remaining ∧ remaining < 0) := by
  unfold SameSide
  dsimp only
  by_cases hactive : books.activeSubscription subscription.organizationId = some subscriptionId
  · have hallowance : books.allowance subscription.organizationId metric = _ :=
      allowance_of_active hsubscription hplan hactive
    rw [quotaRemaining_neg_of_active honly hallowance, hallowance]
    cases hlimit : plan.quotas.lookup metric with
    | none => simp
    | some limit =>
        have hplans : plan.allowance metric = limit := by
          unfold Plan.allowance
          rw [hlimit, Option.getD_some]
        simp only [Option.map_some, if_pos hactive, Option.some.injEq, exists_eq_left',
          Plan.Exceeded, hplans]
        by_cases husage : HasUsage metric (books.billable subscription)
        · rw [if_pos husage, if_pos husage, and_iff_right husage]
          exact iff_comm
        · have hnot : ¬ (HasUsage metric (books.billable subscription) ∧
              limit < usedOf metric (books.billable subscription)) := fun h => husage h.1
          rw [if_neg husage, if_neg husage, iff_false_left hnot, not_lt]
  · rw [quotaRemaining_neg_iff]
    cases hallowance : books.allowance subscription.organizationId metric with
    | none => simp
    | some allowed =>
        obtain ⟨active, limit⟩ := allowed
        simp [hactive, iff_comm]

/-- A quota that the plan of the active subscription lists, on exact usage. -/
theorem Books.sameSide_of_listed
    (hactive : books.activeSubscription subscription.organizationId = some subscriptionId)
    (hallowance : books.allowance subscription.organizationId metric = some (active, limit))
    (hexact : decimal (usedOf metric (books.billable subscription)) =
      usedOf metric (books.billable subscription)) (hlimit : 0 ≤ limit) :
    books.SameSide decimal subscriptionId subscription plan metric := by
  unfold SameSide
  rw [hallowance]
  dsimp only
  rw [if_pos hactive, hexact]
  split
  · rfl
  · exact hlimit

end

/-- `close_period` adds an overage line exactly for the metrics with a rate whose quota is used up
and more, if for each metric with a rate the quota path and the close see it on the same side of its
allowance, and else not. -/
theorem quota_agrees_iff (decimal : ℚ → ℚ) (c : Closing) {subscription : Subscription} {plan : Plan}
    {invoice : Invoice}
    (hsubscription : c.before.subscriptions[c.subscriptionId]? = some subscription)
    (hplan : c.before.plans[subscription.planId]? = some plan)
    (hinvoice : c.after.invoices[c.invoiceId]? = some invoice)
    (honly : c.before.OnlyThisPeriod subscription) :
    QuotaAgrees decimal c.before subscription.organizationId plan invoice ↔
      ∀ metric rate, plan.overageRates.lookup metric = some rate →
        c.before.SameSide decimal c.subscriptionId subscription plan metric := by
  have hlines : ∀ metric, OverageLine metric invoice.lineItems ↔
      (∃ rate, plan.overageRates.lookup metric = some rate) ∧
        plan.Exceeded (c.before.billable subscription) metric := by
    obtain ⟨-, -, -, hid, invoice', hinvoices, -, -, -, -, hlines, -⟩ :=
      closePeriod_ok hsubscription hplan c.returned
    rw [hinvoices, hid, List.getElem?_concat_length] at hinvoice
    cases hinvoice
    intro metric
    rw [← overageLine_overageItems_iff, hlines]
    simp [OverageLine, feeItem_description_ne, Books.billable]
  unfold QuotaAgrees
  refine forall_congr' fun metric => ?_
  rw [hlines, Books.sameSide_iff honly hsubscription hplan]
  cases plan.overageRates.lookup metric with
  | none => simp
  | some rate => simp

/-! ## Three renders in January -/

/-- A month of a plan in which three renders were used. -/
def threeRenders (plan : Plan) : Books where
  invoices := []
  payments := []
  plans := [plan]
  subscriptions := [january]
  usage := [⟨0, some 0, "renders", 3, 20100, none, none⟩]

theorem threeRenders_onlyThisPeriod (plan : Plan) :
    (threeRenders plan).OnlyThisPeriod january := by
  intro row hrow _ _
  rw [threeRenders, List.mem_singleton] at hrow
  subst hrow
  exact ⟨by decide, by decide, rfl⟩

/-- Two renders are included and each one above costs five cents. -/
def twoIncluded : Plan := { studio with quotas := AList.singleton "renders" 2 }

/-- Each render costs five cents, and no quota is listed. -/
def unlisted : Plan := { studio with quotas := ∅ }

def closeTwoIncluded : Closing := ⟨0, 1738281600, threeRenders twoIncluded, 0, _, rfl⟩

def closeUnlisted : Closing := ⟨0, 1738281600, threeRenders unlisted, 0, _, rfl⟩

/-- A listed quota is exceeded and charged. -/
theorem quota_agrees_twoIncluded :
    ∃ invoice, closeTwoIncluded.after.invoices[closeTwoIncluded.invoiceId]? = some invoice ∧
      QuotaAgrees id closeTwoIncluded.before 0 twoIncluded invoice := by
  refine ⟨_, rfl, (@quota_agrees_iff id closeTwoIncluded january twoIncluded _ rfl rfl rfl
    (threeRenders_onlyThisPeriod _)).mpr ?_⟩
  intro metric rate hrate
  by_cases hmetric : metric = "renders"
  · subst hmetric
    have hallowance : closeTwoIncluded.before.allowance january.organizationId "renders" =
        some (january, 2) := rfl
    exact Books.sameSide_of_listed rfl hallowance rfl (by decide)
  · have hnone : twoIncluded.overageRates.lookup metric = none :=
      List.dlookup_cons_ne [] _ hmetric
    rw [hnone] at hrate
    cases hrate

/-- A metric that the quota path calls unlimited is charged. -/
theorem unlimited_charged :
    closeUnlisted.before.OnlyThisPeriod january ∧
      closeUnlisted.before.quotaRemaining 0 "renders" id = none ∧
      ∃ invoice, closeUnlisted.after.invoices[closeUnlisted.invoiceId]? = some invoice ∧
        OverageLine "renders" invoice.lineItems ∧
        ¬ QuotaAgrees id closeUnlisted.before 0 unlisted invoice := by
  have hnone : closeUnlisted.before.quotaRemaining 0 "renders" id = none := rfl
  have hline : ∃ invoice,
      closeUnlisted.after.invoices[closeUnlisted.invoiceId]? = some invoice ∧
        OverageLine "renders" invoice.lineItems := ⟨_, rfl, by decide +kernel⟩
  obtain ⟨invoice, hinvoice, hcharged⟩ := hline
  refine ⟨threeRenders_onlyThisPeriod _, hnone, invoice, hinvoice, hcharged, fun h => ?_⟩
  obtain ⟨⟨remaining, hremaining, -⟩, -⟩ := (h "renders").mp hcharged
  rw [hnone] at hremaining
  cases hremaining

end YoutubeFactory.Billing
