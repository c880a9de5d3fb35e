import YoutubeFactory.Lib.Excess
import YoutubeFactory.Lib.Run
import YoutubeFactory.Lib.Table
import YoutubeFactory.Billing.Periods
import Mathlib.Algebra.BigOperators.Ring.List
import Mathlib.Tactic.Ring

/-!
# Closing a period more than once

Each close bills the usage recorded since the close before, its window, and grants
the whole allowance to it.  `Meter` keeps the windows of a history beside the
tables.  The overage billed in all is the sum over the windows
(`Meter.Tracks.billed`), which is the overage of the whole usage only when the
windows are trivial (`overage_billed_iff`).
-/

namespace YoutubeFactory.Billing

open Python Excess

/-! ## What a list of lines bills for a metric -/

/-- The overage billed for a metric by the lines of an invoice. -/
def overageFor (metric : String) (items : List LineItem) : Int :=
  ((items.filter fun item => item.description = metric ++ " overage").map
    LineItem.amountCents).sum

/-- The amount of the overage line of a metric, if there is one. -/
def Plan.overageAmount (plan : Plan) (metric : String) (used : ℚ) : Int :=
  ((plan.overageItem metric used).map LineItem.amountCents).getD 0

theorem overageItem_description {plan : Plan} {metric : String} {used : ℚ} {item : LineItem}
    (h : plan.overageItem metric used = some item) :
    item.description = metric ++ " overage" := by
  unfold Plan.overageItem at h
  dsimp only at h
  split at h
  · cases h
  · split at h
    · cases h
    · cases h
      rfl

/-- The lines of one metric are told from those of another by their description. -/
theorem overageFor_filterMap (plan : Plan) (metric : String) (totals : List (String × ℚ)) :
    overageFor metric (totals.filterMap fun e => plan.overageItem e.1 e.2) =
      (totals.map fun e => if e.1 = metric then plan.overageAmount metric e.2 else 0).sum := by
  unfold overageFor
  rw [Table.sum_map_filter, Table.sum_map_filterMap]
  refine congrArg List.sum (List.map_congr_left fun e _ => ?_)
  cases hitem : plan.overageItem e.1 e.2 with
  | none =>
      by_cases hmetric : e.1 = metric
      · rw [if_pos hmetric, Plan.overageAmount, ← hmetric, hitem]
        rfl
      · rw [if_neg hmetric]
        rfl
  | some item =>
      have hdescription : item.description = metric ++ " overage" ↔ e.1 = metric := by
        rw [overageItem_description hitem, String.append_left_inj]
      rw [Option.map_some, Option.getD_some]
      simp only [hdescription, decide_eq_true_eq]
      by_cases hmetric : e.1 = metric
      · rw [if_pos hmetric, if_pos hmetric, Plan.overageAmount, ← hmetric, hitem]
        rfl
      · rw [if_neg hmetric, if_neg hmetric]

/-- A sum over the entries of a dictionary that counts one key only. -/
theorem sum_entries_eq_lookup (metric : String) (amount : ℚ → Int) :
    ∀ {entries : List (Sigma fun _ : String => ℚ)}, entries.NodupKeys →
      (entries.map fun e => if e.1 = metric then amount e.2 else 0).sum =
        ((entries.dlookup metric).map amount).getD 0
  | [], _ => rfl
  | ⟨key, value⟩ :: entries, h => by
      have hrest := sum_entries_eq_lookup metric amount (List.nodupKeys_of_nodupKeys_cons h)
      rw [List.map_cons, List.sum_cons, hrest]
      by_cases hkey : key = metric
      · subst hkey
        have hnone : entries.dlookup key = none :=
          List.dlookup_eq_none.mpr (List.notMem_keys_of_nodupKeys_cons h)
        rw [List.dlookup_cons_eq, hnone]
        simp
      · rw [List.dlookup_cons_ne _ _ (Ne.symm hkey)]
        simp [hkey]

/-- The total of a metric is the sum of its rows, once it has a row. -/
theorem lookup_foldl_addUsage (metric : String) (rows : List UsageRecord) (totals : Dict ℚ) :
    (rows.foldl addUsage totals).lookup metric =
      if rows.filter (fun row => row.metric = metric) = [] then totals.lookup metric
      else some ((totals.lookup metric).getD 0 +
        ((rows.filter fun row => row.metric = metric).map UsageRecord.quantity).sum) := by
  induction rows generalizing totals with
  | nil => rfl
  | cons row rows ih =>
      rw [List.foldl_cons, ih]
      by_cases hmetric : row.metric = metric
      · rw [List.filter_cons_of_pos (by simpa using hmetric), if_neg (List.cons_ne_nil _ _),
          List.map_cons, List.sum_cons]
        have hlookup : (addUsage totals row).lookup metric =
            some ((totals.lookup metric).getD 0 + row.quantity) := by
          rw [addUsage, hmetric, AList.lookup_insert]
        rw [hlookup]
        split
        · next hnil => simp [hnil]
        · simp [add_assoc]
      · rw [List.filter_cons_of_neg (by simpa using hmetric)]
        have hlookup : (addUsage totals row).lookup metric = totals.lookup metric := by
          rw [addUsage, AList.lookup_insert_ne (Ne.symm hmetric)]
        rw [hlookup]

/-- What the lines of a close bill for a metric: the amount of the metric's total, if
the metric has a row. -/
theorem overageFor_overageItems (plan : Plan) (metric : String) (rows : List UsageRecord) :
    overageFor metric (plan.overageItems rows) =
      if rows.filter (fun row => row.metric = metric) = [] then 0
      else plan.overageAmount metric
        ((rows.filter fun row => row.metric = metric).map UsageRecord.quantity).sum := by
  unfold Plan.overageItems
  dsimp only
  rw [overageFor_filterMap, ((List.perm_insertionSort _ _).map _).sum_eq, List.map_map]
  have hsum := sum_entries_eq_lookup metric (plan.overageAmount metric)
    (rows.foldl addUsage ∅).nodupKeys
  have hlookup : (rows.foldl addUsage ∅).entries.dlookup metric =
      (rows.foldl addUsage ∅).lookup metric := rfl
  refine hsum.trans ?_
  rw [hlookup, lookup_foldl_addUsage]
  split
  · rfl
  · simp

/-! ## A period and its calls -/

/-- A subscription at the start of a period: no usage of its organization is recorded
and no invoice of it is issued. -/
structure Account where
  books : Books
  subscriptionId : Id
  subscription : Subscription
  plan : Plan
  subscribed : books.subscriptions[subscriptionId]? = some subscription
  planned : books.plans[subscription.planId]? = some plan
  unused : ∀ row ∈ books.usage, row.organizationId ≠ subscription.organizationId
  unbilled : ∀ invoice ∈ books.invoices, invoice.subscriptionId ≠ some subscriptionId

/-- The calls of the period: usage of the organization, and closes. -/
inductive PeriodCall where
  | record (metric : String) (quantity : Int) (on : Option Date) (now : DateTime)
  | closePeriod (now : DateTime)

namespace Account

def attempt (account : Account) (books : Books) : PeriodCall → Except BillingError (Id × Books)
  | .record metric quantity on now =>
      books.record account.subscription.organizationId metric quantity on now
  | .closePeriod now => books.closePeriod account.subscriptionId now

/-- The usage is recorded for a day of the current period. -/
def InPeriod (account : Account) : PeriodCall → Prop
  | .record _ _ on now =>
      account.subscription.currentPeriodStart.date ≤ on.getD now.date ∧
        on.getD now.date ≤ account.subscription.currentPeriodEnd.date
  | .closePeriod _ => True

def step (account : Account) (books : Books) (call : PeriodCall) : Books :=
  Run.commit books (account.attempt books call)

/-- The tables after a history of calls. -/
def after (account : Account) (calls : List PeriodCall) : Books :=
  Run.run account.step account.books calls

/-- The usage recorded for a metric. -/
def used (account : Account) (books : Books) (metric : String) : ℚ :=
  ((books.usage.filter fun row =>
    row.organizationId = account.subscription.organizationId ∧ row.metric = metric).map
      UsageRecord.quantity).sum

/-- The overage billed for a metric over all invoices. -/
def billed (account : Account) (books : Books) (metric : String) : Int :=
  ((books.invoices.filter fun i => i.subscriptionId = some account.subscriptionId).map
    fun i => overageFor metric i.lineItems.tail).sum

/-- The rows of a metric a close would bill. -/
def pending (account : Account) (books : Books) (metric : String) : List UsageRecord :=
  (books.usage.filter (UsageRecord.uninvoiced account.subscription.organizationId
    account.subscription.currentPeriodEnd.date)).filter fun row => row.metric = metric

end Account

/-! ## Windows -/

/-- The tables with the usage of one metric cut at the closes: the windows that are
closed and the one that is not. -/
structure Meter where
  books : Books
  closed : List (List Int)
  current : List Int

namespace Meter

/-- One call, and what it means for the windows if it returns. -/
def step (account : Account) (metric : String) (m : Meter) (call : PeriodCall) : Meter :=
  match account.attempt m.books call with
  | .error _ => m
  | .ok (_, books) =>
      match call with
      | .record metric' quantity _ _ =>
          { books
            closed := m.closed
            current := if metric' = metric then m.current ++ [quantity] else m.current }
      | .closePeriod _ => { books, closed := m.closed ++ [m.current], current := [] }

def start (account : Account) : Meter := ⟨account.books, [], []⟩

/-- The windows are only watched: the tables are those of the history. -/
theorem books_run (account : Account) (metric : String) (calls : List PeriodCall) (m : Meter) :
    (Run.run (step account metric) m calls).books = Run.run account.step m.books calls := by
  induction calls generalizing m with
  | nil => rfl
  | cons call calls ih =>
      rw [Run.run_cons, Run.run_cons, ih]
      congr 1
      unfold step Account.step
      cases account.attempt m.books call with
      | error e => rfl
      | ok r => cases call <;> rfl

end Meter

/-- The windows a history cuts the usage of a metric into. -/
def Account.windows (account : Account) (metric : String) (calls : List PeriodCall) :
    List (List Int) :=
  (Run.run (Meter.step account metric) (Meter.start account) calls).closed

/-- What a close bills for a window. -/
def Plan.windowBill (plan : Plan) (metric : String) (window : List Int) : Int :=
  if window = [] then 0 else plan.overageAmount metric (window.sum : ℚ)

/-- What the tables say about the windows. -/
structure Meter.Tracks (account : Account) (metric : String) (m : Meter) : Prop where
  subscriptions : m.books.subscriptions = account.books.subscriptions
  plans : m.books.plans = account.books.plans
  current : (account.pending m.books metric).map UsageRecord.quantity =
    m.current.map (Int.cast : Int → ℚ)
  used : account.used m.books metric =
    (((m.closed.map List.sum).sum + m.current.sum : Int) : ℚ)
  billed : account.billed m.books metric =
    (m.closed.map (account.plan.windowBill metric)).sum
  nonneg : ∀ window ∈ m.current :: m.closed, ∀ q ∈ window, 0 ≤ q

theorem Meter.tracks_start (account : Account) (metric : String) :
    (Meter.start account).Tracks account metric where
  subscriptions := rfl
  plans := rfl
  current := by
    have hnil : account.pending account.books metric = [] := by
      rw [Account.pending, List.filter_filter, List.filter_eq_nil_iff]
      intro row hrow
      simp [UsageRecord.uninvoiced, account.unused row hrow]
    exact congrArg _ hnil
  used := by
    have hnil : account.books.usage.filter (fun row =>
        row.organizationId = account.subscription.organizationId ∧ row.metric = metric) = [] := by
      rw [List.filter_eq_nil_iff]
      intro row hrow
      simp [account.unused row hrow]
    unfold Account.used Meter.start
    rw [hnil]
    simp
  billed := by
    have hnil : account.books.invoices.filter (fun i =>
        i.subscriptionId = some account.subscriptionId) = [] := by
      rw [List.filter_eq_nil_iff]
      intro i hi
      simpa using account.unbilled i hi
    unfold Account.billed Meter.start
    rw [hnil]
    rfl
  nonneg := by
    intro window hwindow q hq
    rw [List.mem_singleton.mp hwindow] at hq
    cases hq

/-! ## One call -/

/-- What a recorded row is. -/
theorem record_ok {books books' : Books} {organizationId id : Id} {metric : String}
    {quantity : ℚ} {on : Option Date} {now : DateTime}
    (h : books.record organizationId metric quantity on now = .ok (id, books')) :
    0 ≤ quantity ∧ ∃ row : UsageRecord,
      books' = { books with usage := books.usage ++ [row] } ∧
      row.organizationId = organizationId ∧ row.metric = metric ∧ row.quantity = quantity ∧
      row.recordedFor = on.getD now.date ∧ row.invoicedAt = none ∧ row.deletedAt = none := by
  unfold Books.record at h
  split at h
  · cases h
  · next hquantity =>
      cases h
      exact ⟨not_lt.mp hquantity, _, rfl, rfl, rfl, rfl, rfl, rfl, rfl⟩

/-- What a close leaves: one more invoice, and the billed rows stamped. -/
theorem closePeriod_ok {books books' : Books} {subscriptionId id : Id} {now : DateTime}
    {subscription : Subscription} {plan : Plan}
    (hsubscription : books.subscriptions[subscriptionId]? = some subscription)
    (hplan : books.plans[subscription.planId]? = some plan)
    (h : books.closePeriod subscriptionId now = .ok (id, books')) :
    let billable := UsageRecord.uninvoiced subscription.organizationId
      subscription.currentPeriodEnd.date
    books'.subscriptions = books.subscriptions ∧ books'.plans = books.plans ∧
    books'.usage = books.usage.map (fun row => if billable row then row.stamp now else row) ∧
    id = books.invoices.length ∧
    ∃ invoice, books'.invoices = books.invoices ++ [invoice] ∧
      invoice.subscriptionId = some subscriptionId ∧
      books.nextNumber now = .ok invoice.number ∧ invoice.issuedAt = some now ∧
      invoice.deletedAt = none ∧
      invoice.lineItems = plan.feeItem :: plan.overageItems (books.usage.filter billable) ∧
      invoice.totalCents = plan.priceCents +
        ((plan.overageItems (books.usage.filter billable)).map LineItem.amountCents).sum := by
  unfold Books.closePeriod at h
  rw [hsubscription] at h
  dsimp only at h
  rw [hplan] at h
  obtain ⟨number, hnumber, h⟩ := Except.bind_eq_ok.mp h
  split at h
  · cases h
  · cases h
    exact ⟨rfl, rfl, rfl, rfl, _, rfl, rfl, hnumber, rfl, rfl, rfl, rfl⟩

/-- A recorded row joins the current window of its metric. -/
theorem Meter.Tracks.record {account : Account} {metric metric' : String} {m : Meter}
    {quantity : Int} {row : UsageRecord} (h : m.Tracks account metric) (hquantity : 0 ≤ quantity)
    (horganization : row.organizationId = account.subscription.organizationId)
    (hmetric : row.metric = metric') (hrow : row.quantity = quantity)
    (hperiod : row.recordedFor ≤ account.subscription.currentPeriodEnd.date)
    (hopen : row.invoicedAt = none) (hkept : row.deletedAt = none) :
    Meter.Tracks account metric
      { books := { m.books with usage := m.books.usage ++ [row] }
        closed := m.closed
        current := if metric' = metric then m.current ++ [quantity] else m.current } where
  subscriptions := h.subscriptions
  plans := h.plans
  current := by
    have hpending : account.pending { m.books with usage := m.books.usage ++ [row] } metric =
        account.pending m.books metric ++ if metric' = metric then [row] else [] := by
      unfold Account.pending
      rw [List.filter_append, List.filter_append]
      congr 1
      rw [List.filter_cons_of_pos
        (by simp [UsageRecord.uninvoiced, horganization, hperiod, hopen, hkept])]
      by_cases hm : metric' = metric <;> simp [hmetric, hm]
    rw [hpending, List.map_append, h.current]
    by_cases hm : metric' = metric <;> simp [hm, hrow]
  used := by
    have hused : account.used { m.books with usage := m.books.usage ++ [row] } metric =
        account.used m.books metric + if metric' = metric then (quantity : ℚ) else 0 := by
      unfold Account.used
      rw [List.filter_append, List.map_append, List.sum_append]
      congr 1
      by_cases hm : metric' = metric <;> simp [horganization, hmetric, hm, hrow]
    rw [hused, h.used]
    by_cases hm : metric' = metric
    · simp only [hm, if_true, List.sum_append, List.sum_singleton]
      push_cast
      ring
    · simp only [hm, if_false, add_zero]
  billed := h.billed
  nonneg := by
    have hold := h.nonneg
    rw [List.forall_mem_cons] at hold ⊢
    refine ⟨?_, hold.2⟩
    split
    · rw [List.forall_mem_append, List.forall_mem_singleton]
      exact ⟨hold.1, hquantity⟩
    · exact hold.1

theorem UsageRecord.not_uninvoiced_stamp (organizationId : Id) (until' : Date) (now : DateTime)
    (row : UsageRecord) : (row.stamp now).uninvoiced organizationId until' = false := by
  simp [UsageRecord.uninvoiced, UsageRecord.stamp]

/-- The rows after a close of the account's period: those it could bill are stamped. -/
def Account.stamped (account : Account) (now : DateTime) (usage : List UsageRecord) :
    List UsageRecord :=
  usage.map fun row =>
    if row.uninvoiced account.subscription.organizationId
      account.subscription.currentPeriodEnd.date then row.stamp now else row

/-- No row is pending after a close. -/
theorem Account.pending_stamped {account : Account} {books books' : Books} {now : DateTime}
    (husage : books'.usage = account.stamped now books.usage) (metric : String) :
    account.pending books' metric = [] := by
  unfold Account.pending
  rw [husage, Account.stamped, List.filter_filter, List.filter_eq_nil_iff]
  intro row hrow
  obtain ⟨old, -, rfl⟩ := List.mem_map.mp hrow
  split
  · rw [UsageRecord.not_uninvoiced_stamp]
    simp
  · next hbilled =>
      rw [Bool.not_eq_true] at hbilled
      rw [hbilled]
      simp

/-- A close leaves the usage as it is. -/
theorem Account.used_stamped {account : Account} {books books' : Books} {now : DateTime}
    (husage : books'.usage = account.stamped now books.usage) (metric : String) :
    account.used books' metric = account.used books metric := by
  unfold Account.used
  rw [husage, Account.stamped, List.filter_map, List.map_map]
  have hkind : ∀ row : UsageRecord,
      ((fun row : UsageRecord => decide (row.organizationId =
        account.subscription.organizationId ∧ row.metric = metric)) ∘
        fun row => if row.uninvoiced account.subscription.organizationId
          account.subscription.currentPeriodEnd.date then row.stamp now else row) row =
      decide (row.organizationId = account.subscription.organizationId ∧
        row.metric = metric) := by
    intro row
    simp only [Function.comp_apply]
    split <;> rfl
  rw [List.filter_congr fun row _ => hkind row]
  congr 1
  refine List.map_congr_left fun row _ => ?_
  simp only [Function.comp_apply]
  split <;> rfl

/-- What a close bills for the metric is the bill of the current window. -/
theorem Meter.Tracks.overageFor_eq {account : Account} {metric : String} {m : Meter}
    (h : m.Tracks account metric) :
    overageFor metric (account.plan.overageItems (m.books.usage.filter (UsageRecord.uninvoiced
      account.subscription.organizationId account.subscription.currentPeriodEnd.date))) =
        account.plan.windowBill metric m.current := by
  have hpending := h.current
  unfold Account.pending at hpending
  rw [overageFor_overageItems, hpending]
  unfold Plan.windowBill
  have hempty : (m.books.usage.filter (UsageRecord.uninvoiced
      account.subscription.organizationId
      account.subscription.currentPeriodEnd.date)).filter
        (fun row => row.metric = metric) = [] ↔ m.current = [] := by
    rw [← List.map_eq_nil_iff (f := UsageRecord.quantity), hpending, List.map_eq_nil_iff]
  have hcast : (m.current.map (Int.cast : Int → ℚ)).sum = (m.current.sum : ℚ) :=
    (map_list_sum (Int.castAddHom ℚ) m.current).symm
  simp only [hempty, hcast]

/-- A close ends the current window. -/
theorem Meter.Tracks.closePeriod {account : Account} {metric : String} {m : Meter}
    {books : Books} {id : Id} {now : DateTime} (h : m.Tracks account metric)
    (hclose : m.books.closePeriod account.subscriptionId now = .ok (id, books)) :
    Meter.Tracks account metric
      { books, closed := m.closed ++ [m.current], current := [] } := by
  have hsubscription : m.books.subscriptions[account.subscriptionId]? =
      some account.subscription := by rw [h.subscriptions, account.subscribed]
  have hplan : m.books.plans[account.subscription.planId]? = some account.plan := by
    rw [h.plans, account.planned]
  obtain ⟨hs, hp, husage, -, invoice, hinvoices, hof, -, -, -, hlines, -⟩ :=
    closePeriod_ok hsubscription hplan hclose
  have hitems : invoice.lineItems.tail = account.plan.overageItems _ := congrArg List.tail hlines
  exact {
    subscriptions := hs.trans h.subscriptions
    plans := hp.trans h.plans
    current := by
      rw [Account.pending_stamped husage metric]
      rfl
    used := by
      rw [Account.used_stamped husage metric, h.used]
      simp
    billed := by
      have hbilled : account.billed books metric =
          account.billed m.books metric + overageFor metric invoice.lineItems.tail := by
        unfold Account.billed
        rw [hinvoices, List.filter_append, List.map_append, List.sum_append]
        simp [hof]
      rw [hbilled, h.billed, hitems, h.overageFor_eq]
      simp
    nonneg := by
      have hold := h.nonneg
      rw [List.forall_mem_cons] at hold ⊢
      refine ⟨nofun, ?_⟩
      rw [List.forall_mem_append, List.forall_mem_singleton]
      exact ⟨hold.2, hold.1⟩ }

theorem Meter.Tracks.step {account : Account} {metric : String} {m : Meter} {call : PeriodCall}
    (hperiod : account.InPeriod call) (h : m.Tracks account metric) :
    (m.step account metric call).Tracks account metric := by
  unfold Meter.step
  cases hcall : account.attempt m.books call with
  | error e => exact h
  | ok r =>
      obtain ⟨id, books⟩ := r
      cases call with
      | record metric' quantity on now =>
          obtain ⟨hquantity, row, hbooks, horganization, hmetric, hrow, hday, hopen, hkept⟩ :=
            record_ok hcall
          subst hbooks
          exact h.record (by exact_mod_cast hquantity) horganization hmetric hrow
            (by rw [hday]; exact hperiod.2) hopen hkept
      | closePeriod now => exact h.closePeriod hcall

/-! ## What the windows bill -/

theorem roundHalfUp_intCast (k : Int) : roundHalfUp (k : ℚ) = k := by
  have hfloor : ∀ n : Int, ⌊(n : ℚ) + 1 / 2⌋ = n := by
    intro n
    rw [Int.floor_eq_iff]
    constructor <;> norm_num
  unfold roundHalfUp
  split
  · exact hfloor k
  · have hneg := hfloor (-k)
    push_cast at hneg
    rw [hneg, neg_neg]

theorem overageAmount_eq {plan : Plan} {metric : String} {rate : ℚ}
    (hrate : plan.overageRates.lookup metric = some rate) (used : ℚ) :
    plan.overageAmount metric used =
      if used - plan.allowance metric ≤ 0 then 0
      else roundHalfUp ((used - plan.allowance metric) * rate) := by
  unfold Plan.overageAmount Plan.overageItem
  rw [hrate]
  dsimp only
  split <;> rfl

/-- Where the rate times the allowance is a whole number nothing is rounded. -/
theorem overageAmount_eq_excess {plan : Plan} {metric : String} {rate k used : Int}
    (hrate : plan.overageRates.lookup metric = some (rate : ℚ))
    (hwhole : (rate : ℚ) * plan.allowance metric = k) :
    (plan.overageAmount metric (used : ℚ) : ℚ) =
      rate * excess (plan.allowance metric) (used : ℚ) := by
  rw [overageAmount_eq hrate]
  split
  · next hle => rw [excess_of_le (sub_nonpos.mp hle), mul_zero, Int.cast_zero]
  · next hgt =>
      have hover : ((used : ℚ) - plan.allowance metric) * rate = ((rate * used - k : Int) : ℚ) := by
        push_cast
        rw [← hwhole]
        ring
      rw [hover, roundHalfUp_intCast, excess_of_ge (sub_nonneg.mp (not_le.mp hgt).le)]
      push_cast
      rw [← hwhole]
      ring

/-- The windows bill what one close over all of them would: the rate is zero, or the
usage stays within the allowance, or no part of a cent is lost and only one window
counts.  A window counts above a positive allowance when it has usage; below zero,
where a plan charges for nothing, when it has a row. -/
def Plan.FairlyCut (plan : Plan) (metric : String) (rate : Int) (windows : List (List Int)) :
    Prop :=
  rate = 0 ∨
    (0 ≤ plan.allowance metric ∧
      (((windows.map List.sum).sum : Int) : ℚ) ≤ plan.allowance metric) ∨
    ((∃ k : Int, (rate : ℚ) * plan.allowance metric = k) ∧
      (plan.allowance metric = 0 ∨
        (0 < plan.allowance metric ∧ (windows.filter fun w => w.sum ≠ 0).length = 1) ∨
        (plan.allowance metric < 0 ∧ (windows.filter fun w => w ≠ []).length = 1)))

theorem cast_sum_map {α : Type} (f : α → Int) (xs : List α) :
    (((xs.map f).sum : Int) : ℚ) = (xs.map fun x => (f x : ℚ)).sum := by
  refine (map_list_sum (Int.castAddHom ℚ) _).trans ?_
  rw [List.map_map]
  rfl

theorem sum_map_zero {α : Type} (xs : List α) : (xs.map fun _ => (0 : Int)).sum = 0 := by
  induction xs with
  | nil => rfl
  | cons x xs ih => rw [List.map_cons, List.sum_cons, ih, Int.add_zero]

theorem windowBill_of_rate_zero {plan : Plan} {metric : String}
    (hrate : plan.overageRates.lookup metric = some 0) (window : List Int) :
    plan.windowBill metric window = 0 := by
  unfold Plan.windowBill
  split
  · rfl
  · rw [overageAmount_eq hrate, mul_zero]
    split
    · rfl
    · exact roundHalfUp_intCast 0

theorem windowBill_of_le {plan : Plan} {metric : String} {rate : ℚ} {window : List Int}
    (hrate : plan.overageRates.lookup metric = some rate)
    (hle : (window.sum : ℚ) ≤ plan.allowance metric) : plan.windowBill metric window = 0 := by
  unfold Plan.windowBill
  split
  · rfl
  · rw [overageAmount_eq hrate, if_pos (sub_nonpos.mpr hle)]

/-- With an allowance, an empty window bills nothing anyway. -/
theorem windowBill_eq_excess {plan : Plan} {metric : String} {rate k : Int}
    (hrate : plan.overageRates.lookup metric = some (rate : ℚ))
    (hwhole : (rate : ℚ) * plan.allowance metric = k) (hallowance : 0 ≤ plan.allowance metric)
    (window : List Int) :
    (plan.windowBill metric window : ℚ) =
      rate * excess (plan.allowance metric) (window.sum : ℚ) := by
  unfold Plan.windowBill
  split
  · next hnil =>
      rw [hnil, List.sum_nil, Int.cast_zero, excess_zero hallowance, mul_zero]
  · exact overageAmount_eq_excess hrate hwhole

/-- With a negative allowance, every window that has a row is charged for it. -/
theorem windowBill_of_neg {plan : Plan} {metric : String} {rate k : Int} {window : List Int}
    (hrate : plan.overageRates.lookup metric = some (rate : ℚ))
    (hwhole : (rate : ℚ) * plan.allowance metric = k) (hallowance : plan.allowance metric < 0)
    (hnonneg : ∀ q ∈ window, 0 ≤ q) :
    (plan.windowBill metric window : ℚ) =
      rate * (window.sum - if window ≠ [] then plan.allowance metric else 0) := by
  unfold Plan.windowBill
  by_cases hnil : window = []
  · simp [hnil]
  · rw [if_neg hnil, if_pos hnil, overageAmount_eq_excess hrate hwhole]
    have hsum : (0 : ℚ) ≤ window.sum := by exact_mod_cast List.sum_nonneg hnonneg
    rw [excess_of_ge (hallowance.le.trans hsum)]

/-- Below zero, the windows together charge the allowance once for each that has a
row. -/
theorem sum_windowBill_of_neg {plan : Plan} {metric : String} {rate k : Int}
    (hrate : plan.overageRates.lookup metric = some (rate : ℚ))
    (hwhole : (rate : ℚ) * plan.allowance metric = k) (hallowance : plan.allowance metric < 0) :
    ∀ {windows : List (List Int)}, (∀ w ∈ windows, ∀ q ∈ w, 0 ≤ q) →
      (((windows.map (plan.windowBill metric)).sum : Int) : ℚ) =
        rate * (((windows.map List.sum).sum : Int) -
          (windows.filter fun w => w ≠ []).length * plan.allowance metric)
  | [], _ => by simp
  | w :: windows, h => by
      rw [List.forall_mem_cons] at h
      have ih := sum_windowBill_of_neg hrate hwhole hallowance h.2
      have hbill := windowBill_of_neg hrate hwhole hallowance h.1
      simp only [List.map_cons, List.sum_cons, Int.cast_add, hbill, ih]
      by_cases hnil : w = []
      · rw [List.filter_cons_of_neg (by simpa using hnil), if_neg (by simpa using hnil)]
        ring
      · rw [List.filter_cons_of_pos (by simpa using hnil), if_pos hnil, List.length_cons]
        push_cast
        ring

section

variable {plan : Plan} {metric : String} {rate k : Int} {windows : List (List Int)}

theorem sums_nonneg (hnonneg : ∀ w ∈ windows, ∀ q ∈ w, 0 ≤ q) :
    ∀ u ∈ windows.map fun w => (w.sum : ℚ), 0 ≤ u := by
  intro u hu
  obtain ⟨w, hw, rfl⟩ := List.mem_map.mp hu
  exact_mod_cast List.sum_nonneg (hnonneg w hw)

/-- With an allowance and whole cents, the windows bill their excesses. -/
theorem sum_windowBill_eq (hrate : plan.overageRates.lookup metric = some (rate : ℚ))
    (hwhole : (rate : ℚ) * plan.allowance metric = k) (hallowance : 0 ≤ plan.allowance metric) :
    (((windows.map (plan.windowBill metric)).sum : Int) : ℚ) =
      rate * ((windows.map fun w => (w.sum : ℚ)).map (excess (plan.allowance metric))).sum := by
  rw [cast_sum_map, List.map_map, ← List.sum_map_mul_left]
  exact congrArg _ (List.map_congr_left fun w _ => windowBill_eq_excess hrate hwhole hallowance w)

/-- Below zero, the bill is right exactly when one window has a row. -/
theorem sum_windowBill_negative_iff
    (hrate : plan.overageRates.lookup metric = some (rate : ℚ)) (hzero : (rate : ℚ) ≠ 0)
    (hwhole : (rate : ℚ) * plan.allowance metric = k) (hnegative : plan.allowance metric < 0)
    (hnonneg : ∀ w ∈ windows, ∀ q ∈ w, 0 ≤ q) :
    (((windows.map (plan.windowBill metric)).sum : Int) : ℚ) =
        rate * ((((windows.map List.sum).sum : Int) : ℚ) - plan.allowance metric) ↔
      (windows.filter fun w => w ≠ []).length = 1 := by
  rw [sum_windowBill_of_neg hrate hwhole hnegative hnonneg, mul_right_inj' hzero, sub_right_inj,
    mul_eq_right₀ hnegative.ne]
  exact_mod_cast Iff.rfl

/-- Without an allowance, it is right always. -/
theorem sum_windowBill_zero (hrate : plan.overageRates.lookup metric = some (rate : ℚ))
    (hwhole : (rate : ℚ) * plan.allowance metric = k) (hnone : plan.allowance metric = 0)
    (hnonneg : ∀ w ∈ windows, ∀ q ∈ w, 0 ≤ q) :
    (((windows.map (plan.windowBill metric)).sum : Int) : ℚ) =
      rate * ((((windows.map List.sum).sum : Int) : ℚ) - plan.allowance metric) := by
  have hall : (windows.map fun w => (w.sum : ℚ)).map (excess (plan.allowance metric)) =
      windows.map fun w => (w.sum : ℚ) := by
    refine (List.map_congr_left fun u hu => ?_).trans (List.map_id _)
    rw [hnone, excess_of_ge (sums_nonneg hnonneg u hu), sub_zero]
    rfl
  rw [sum_windowBill_eq hrate hwhole hnone.ge, hall, cast_sum_map, hnone, sub_zero]

/-- Above a positive allowance, it is right exactly when one window has usage. -/
theorem sum_windowBill_positive_iff
    (hrate : plan.overageRates.lookup metric = some (rate : ℚ)) (hzero : (rate : ℚ) ≠ 0)
    (hwhole : (rate : ℚ) * plan.allowance metric = k) (hpositive : 0 < plan.allowance metric)
    (habove : plan.allowance metric < (((windows.map List.sum).sum : Int) : ℚ))
    (hnonneg : ∀ w ∈ windows, ∀ q ∈ w, 0 ≤ q) :
    (((windows.map (plan.windowBill metric)).sum : Int) : ℚ) =
        rate * ((((windows.map List.sum).sum : Int) : ℚ) - plan.allowance metric) ↔
      (windows.filter fun w => w.sum ≠ 0).length = 1 := by
  rw [cast_sum_map List.sum] at habove ⊢
  rw [sum_windowBill_eq hrate hwhole hpositive.le, mul_right_inj' hzero,
    sum_excess_eq_iff hpositive (sums_nonneg hnonneg) habove, List.filter_map, List.length_map]
  have hcount : windows.filter ((fun u : ℚ => decide (u ≠ 0)) ∘ fun w => (w.sum : ℚ)) =
      windows.filter fun w => w.sum ≠ 0 :=
    List.filter_congr fun w _ => decide_eq_decide.mpr Int.cast_ne_zero
  rw [hcount]

/-- The bill of windows over some usage without a whole allowance: it is a whole number, and
the overage of the whole usage is not. -/
theorem sum_windowBill_ne (hwhole : ¬ ∃ k : Int, (rate : ℚ) * plan.allowance metric = k) :
    (((windows.map (plan.windowBill metric)).sum : Int) : ℚ) ≠
      rate * ((((windows.map List.sum).sum : Int) : ℚ) - plan.allowance metric) := by
  intro heq
  refine hwhole ⟨rate * (windows.map List.sum).sum -
    (windows.map (plan.windowBill metric)).sum, ?_⟩
  push_cast [heq]
  ring

/-- The windows bill the overage of the whole usage exactly when it is fairly cut. -/
theorem sum_windowBill_iff (hrate : plan.overageRates.lookup metric = some (rate : ℚ))
    (hnonneg : ∀ w ∈ windows, ∀ q ∈ w, 0 ≤ q) :
    (((windows.map (plan.windowBill metric)).sum : Int) : ℚ) =
        rate * excess (plan.allowance metric) (((windows.map List.sum).sum : Int) : ℚ) ↔
      plan.FairlyCut metric rate windows := by
  have hsums := sums_nonneg hnonneg
  have htotal := cast_sum_map List.sum windows
  unfold Plan.FairlyCut
  by_cases hzero : rate = 0
  · subst hzero
    have hbill : windows.map (plan.windowBill metric) = windows.map fun _ => 0 :=
      List.map_congr_left fun w _ => windowBill_of_rate_zero (by simpa using hrate) w
    rw [hbill, sum_map_zero, Int.cast_zero, zero_mul]
    exact ⟨fun _ => .inl rfl, fun _ => rfl⟩
  by_cases hwithin : 0 ≤ plan.allowance metric ∧
      (((windows.map List.sum).sum : Int) : ℚ) ≤ plan.allowance metric
  · have hbill : windows.map (plan.windowBill metric) = windows.map fun _ => 0 := by
      refine List.map_congr_left fun w hw => windowBill_of_le hrate (le_trans ?_ hwithin.2)
      rw [htotal]
      exact List.single_le_sum hsums _ (List.mem_map_of_mem hw)
    rw [excess_of_le hwithin.2, hbill, sum_map_zero, Int.cast_zero, mul_zero]
    exact ⟨fun _ => .inr (.inl hwithin), fun _ => rfl⟩
  -- From here on the usage is above the allowance.
  have habove : plan.allowance metric < (((windows.map List.sum).sum : Int) : ℚ) := by
    by_contra hle
    rw [not_lt] at hle
    have hneg : plan.allowance metric < 0 := not_le.mp fun h => hwithin ⟨h, hle⟩
    have hpos : (0 : ℚ) ≤ (((windows.map List.sum).sum : Int) : ℚ) := by
      rw [htotal]
      exact List.sum_nonneg hsums
    exact absurd (hpos.trans hle) (not_le.mpr hneg)
  have hrate0 : (rate : ℚ) ≠ 0 := by exact_mod_cast hzero
  rw [excess_of_ge habove.le, or_iff_right hzero, or_iff_right hwithin]
  by_cases hwhole : ∃ k : Int, (rate : ℚ) * plan.allowance metric = k
  · rw [and_iff_right hwhole]
    obtain ⟨k, hk⟩ := hwhole
    rcases lt_trichotomy (plan.allowance metric) 0 with hneg | hnone | hsome
    · rw [sum_windowBill_negative_iff hrate hrate0 hk hneg hnonneg, or_iff_right hneg.ne,
        or_iff_right fun h => lt_asymm hneg h.1, and_iff_right hneg]
    · exact iff_of_true (sum_windowBill_zero hrate hk hnone hnonneg) (.inl hnone)
    · rw [sum_windowBill_positive_iff hrate hrate0 hk hsome habove hnonneg,
        or_iff_right hsome.ne', or_iff_left fun h => lt_asymm hsome h.1, and_iff_right hsome]
  · exact iff_of_false (sum_windowBill_ne hwhole) fun h => hwhole h.1

end

/-! ## Histories -/

theorem Account.tracks (account : Account) (metric : String) {calls : List PeriodCall}
    (hperiod : ∀ call ∈ calls, account.InPeriod call) :
    (Run.run (Meter.step account metric) (Meter.start account) calls).Tracks account metric := by
  refine Run.run_invariant_of_everyStep ?_ calls (Run.everyStep_of_forall hperiod)
    (Meter.tracks_start account metric)
  exact fun m call hcall h => h.step hcall

/-- A close that returns leaves no open window. -/
theorem Meter.current_closePeriod {account : Account} {metric : String} {m : Meter}
    {now : DateTime} {r : Id × Books}
    (h : account.attempt m.books (.closePeriod now) = .ok r) :
    (m.step account metric (.closePeriod now)).current = [] := by
  unfold Meter.step
  rw [h]

/-- Over every history of usage and closes that ends with a close, the overage billed
for a metric in all is the overage of the whole usage exactly when the closes cut the
usage fairly. -/
theorem overage_billed_iff (account : Account) (metric : String) (rate : Int)
    (calls : List PeriodCall) (last : DateTime)
    (hrate : account.plan.overageRates.lookup metric = some (rate : ℚ))
    (hperiod : ∀ call ∈ calls, account.InPeriod call)
    (hlast : ∃ r, account.attempt (account.after calls) (.closePeriod last) = .ok r) :
    ((account.billed (account.after (calls ++ [.closePeriod last])) metric : Int) : ℚ) =
        rate * max (account.used (account.after (calls ++ [.closePeriod last])) metric -
          account.plan.allowance metric) 0 ↔
      account.plan.FairlyCut metric rate
        (account.windows metric (calls ++ [.closePeriod last])) := by
  have hall : ∀ call ∈ calls ++ [.closePeriod last], account.InPeriod call := by
    rw [List.forall_mem_append, List.forall_mem_singleton]
    exact ⟨hperiod, trivial⟩
  have htracks := account.tracks metric hall
  have hbooks := Meter.books_run account metric (calls ++ [.closePeriod last])
    (Meter.start account)
  have hcurrent : (Run.run (Meter.step account metric) (Meter.start account)
      (calls ++ [.closePeriod last])).current = [] := by
    obtain ⟨r, hr⟩ := hlast
    have hbefore := Meter.books_run account metric calls (Meter.start account)
    have hattempt : account.attempt (Run.run (Meter.step account metric) (Meter.start account)
        calls).books (.closePeriod last) = .ok r := by
      rw [hbefore]
      exact hr
    rw [Run.run_append, Run.run_cons, Run.run_nil]
    exact Meter.current_closePeriod hattempt
  have hused := htracks.used
  have hbilled := htracks.billed
  rw [hcurrent, List.sum_nil, Int.add_zero] at hused
  rw [hbooks] at hused hbilled
  have hwindows : ∀ window ∈ account.windows metric (calls ++ [.closePeriod last]),
      ∀ q ∈ window, 0 ≤ q :=
    (List.forall_mem_cons.mp htracks.nonneg).2
  have hiff := sum_windowBill_iff hrate hwindows
  rw [← hiff]
  change ((account.billed (Run.run account.step account.books _) metric : Int) : ℚ) =
    rate * excess _ (account.used (Run.run account.step account.books _) metric) ↔ _
  have hstart : (Meter.start account).books = account.books := rfl
  rw [hstart] at hused hbilled
  rw [hbilled, hused]
  rfl

/-! ## Twenty renders under an allowance of ten -/

/-- Ten renders are included and each one above costs five cents. -/
def studio : Plan where
  name := "Studio"
  interval := "monthly"
  priceCents := 2900
  currency := "USD"
  quotas := AList.singleton "renders" 10
  overageRates := AList.singleton "renders" 5

/-- The 30 days from 2025-01-01. -/
def january : Subscription where
  organizationId := 0
  planId := 0
  status := .active
  currentPeriodStart := 1735689600
  currentPeriodEnd := 1738281600
  createdAt := 1735689600
  deletedAt := none

def tenRenders : Account where
  books :=
    { invoices := []
      payments := []
      plans := [studio]
      subscriptions := [january]
      usage := [] }
  subscriptionId := 0
  subscription := january
  plan := studio
  subscribed := rfl
  planned := rfl
  unused _ h := absurd h List.not_mem_nil
  unbilled _ h := absurd h List.not_mem_nil

def renderTen : PeriodCall := .record "renders" 10 (some 20100) 1736640000

theorem renderTen_inPeriod : tenRenders.InPeriod renderTen :=
  ⟨by decide, by decide⟩

def closeMidway : PeriodCall := .closePeriod 1736640000

/-- Closed once at the end, the twenty renders cost fifty cents. -/
theorem overage_billed_once :
    ((tenRenders.billed (tenRenders.after ([renderTen, renderTen] ++ [.closePeriod 1738281600]))
        "renders" : Int) : ℚ) =
      (5 : Int) * max (tenRenders.used
        (tenRenders.after ([renderTen, renderTen] ++ [.closePeriod 1738281600])) "renders" -
          tenRenders.plan.allowance "renders") 0 := by
  refine (overage_billed_iff tenRenders "renders" 5 [renderTen, renderTen] 1738281600 rfl
    ?_ ⟨_, rfl⟩).mpr ?_
  · rw [List.forall_mem_cons, List.forall_mem_singleton]
    exact ⟨renderTen_inPeriod, renderTen_inPeriod⟩
  · refine .inr (.inr ⟨⟨50, ?_⟩, .inr (.inl ⟨?_, ?_⟩)⟩)
    · decide +kernel
    · decide +kernel
    · decide +kernel

/-- Closed midway too, they cost nothing: each half is within the allowance. -/
theorem overage_lost_midway :
    tenRenders.windows "renders" ([renderTen, closeMidway, renderTen] ++
        [.closePeriod 1738281600]) = [[10], [10]] ∧
      tenRenders.billed (tenRenders.after ([renderTen, closeMidway, renderTen] ++
        [.closePeriod 1738281600])) "renders" = 0 ∧
      (5 : ℚ) * max (tenRenders.used (tenRenders.after ([renderTen, closeMidway, renderTen] ++
        [.closePeriod 1738281600])) "renders" - tenRenders.plan.allowance "renders") 0 = 50 := by
  decide +kernel

end YoutubeFactory.Billing
