import YoutubeFactory.Lib.Except
import YoutubeFactory.Billing.Models
import Mathlib.Data.List.Sort
import Mathlib.Data.Rat.Floor

/-!
# Metered usage and period invoices

`UsageService.record` and `InvoiceService.close_period` of `app/services/billing.py`
with the queries they make.  Decimal arithmetic is exact here: sums of `Numeric`
columns stay far below the 28 digits of Python's default context.  A quantity is
what its column keeps of it, so it has six decimals.
-/

namespace YoutubeFactory.Billing

open Python

/-- All the billing tables. -/
structure Books extends Ledger where
  plans : List Plan
  subscriptions : List Subscription
  usage : List UsageRecord

/-! ## Numbers and dates -/

/-- `quantize(Decimal("1"), rounding=ROUND_HALF_UP)`: halves go away from zero. -/
def roundHalfUp (q : ℚ) : Int := if 0 ≤ q then ⌊q + 1 / 2⌋ else -⌊-q + 1 / 2⌋

/-- The year and the month of a date in the Gregorian calendar, counted from
0000-03-01 in eras of 400 years. -/
def yearAndMonth (date : Date) : Int × Int :=
  let day := date + 719468
  let era := day.fdiv 146097
  let dayOfEra := day.fmod 146097
  let yearOfEra :=
    (dayOfEra - dayOfEra / 1460 + dayOfEra / 36524 - dayOfEra / 146096) / 365
  let dayOfYear := dayOfEra - (365 * yearOfEra + yearOfEra / 4 - yearOfEra / 100)
  let march := (5 * dayOfYear + 2) / 153
  let month := if march < 10 then march + 3 else march - 9
  (yearOfEra + era * 400 + (if month ≤ 2 then 1 else 0), month)

/-- A number with zeros in front, up to a width. -/
def zeroPadded (width : Nat) (n : Int) : String :=
  let digits := toString n
  String.ofList (List.replicate (width - digits.length) '0') ++ digits

/-- `f"INV-{when:%Y%m}-{sequence:06d}"` -/
def numberFor (moment : DateTime) (sequence : Nat) : String :=
  let (year, month) := yearAndMonth moment.date
  "INV-" ++ toString year ++ zeroPadded 2 month ++ "-" ++ zeroPadded 6 sequence

/-! ## Usage -/

namespace Books

/-- `get_active_for_organization`: the newest subscription that grants access. -/
def activeSubscription (books : Books) (organizationId : Id) : Option Id :=
  let granting := (List.range books.subscriptions.length).filter fun id =>
    (books.subscriptions[id]?).any fun s =>
      s.organizationId = organizationId ∧ (s.status = .active ∨ s.status = .trialing) ∧
        s.deletedAt = none
  let createdAt : Id → DateTime :=
    fun id => ((books.subscriptions[id]?).map (·.createdAt)).getD 0
  (granting.insertionSort fun i j => createdAt j ≤ createdAt i).head?

/-- `UsageService.record` -/
def record (books : Books) (organizationId : Id) (metric : String) (quantity : ℚ)
    (on : Option Date) (now : DateTime) : Except BillingError (Id × Books) :=
  if quantity < 0 then .error (.validation "Usage quantity cannot be negative." [])
  else
    let row : UsageRecord :=
      { organizationId
        subscriptionId := books.activeSubscription organizationId
        metric
        quantity
        recordedFor := on.getD now.date
        invoicedAt := none
        deletedAt := none }
    .ok (books.usage.length, { books with usage := books.usage ++ [row] })

/-- The quantities that `total_for_metric` selects. -/
def quantities (books : Books) (organizationId : Id) (metric : String) (since : Date) : List ℚ :=
  (books.usage.filter fun row =>
    row.organizationId = organizationId ∧ row.metric = metric ∧ since ≤ row.recordedFor ∧
      row.deletedAt = none).map (·.quantity)

/-- `total_for_metric`, once it is a decimal again.  `decimal` is what its way through a float
makes of a sum. -/
def totalForMetric (books : Books) (organizationId : Id) (metric : String) (decimal : ℚ → ℚ)
    (since : Date) : ℚ :=
  let rows := books.quantities organizationId metric since
  if rows = [] then 0 else decimal rows.sum

end Books

/-! ## Closing a period -/

/-- A row of `list_uninvoiced`. -/
def UsageRecord.uninvoiced (organizationId : Id) (until' : Date) (row : UsageRecord) : Bool :=
  row.organizationId = organizationId ∧ row.recordedFor ≤ until' ∧ row.invoicedAt = none ∧
    row.deletedAt = none

/-- `row.invoiced_at = now` -/
def UsageRecord.stamp (now : DateTime) (row : UsageRecord) : UsageRecord :=
  { row with invoicedAt := some now }

/-- The running totals of `close_period`, with one more row. -/
def addUsage (totals : Dict ℚ) (row : UsageRecord) : Dict ℚ :=
  totals.insert row.metric ((totals.lookup row.metric).getD 0 + row.quantity)

/-- The allowance of a metric. -/
def Plan.allowance (plan : Plan) (metric : String) : ℚ := (plan.quotas.lookup metric).getD 0

/-- The line of a metric, if its usage is above the allowance and has a rate. -/
def Plan.overageItem (plan : Plan) (metric : String) (used : ℚ) : Option LineItem :=
  let excess := used - plan.allowance metric
  match plan.overageRates.lookup metric with
  | none => none
  | some rate =>
      if excess ≤ 0 then none
      else some
        { description := metric ++ " overage"
          quantity := excess
          unitPriceCents := rate
          amountCents := roundHalfUp (excess * rate) }

/-- The line of the plan's fee. -/
def Plan.feeItem (plan : Plan) : LineItem where
  description := s!"{plan.name} ({plan.interval})"
  quantity := 1
  unitPriceCents := plan.priceCents
  amountCents := plan.priceCents

/-- The overage lines, by metric. -/
def Plan.overageItems (plan : Plan) (rows : List UsageRecord) : List LineItem :=
  let totals := rows.foldl addUsage ∅
  let sorted := (totals.entries.map fun e => (e.1, e.2)).insertionSort fun a b => strLe a.1 b.1
  sorted.filterMap fun e => plan.overageItem e.1 e.2

namespace Books

/-- `_next_number` -/
def nextNumber (books : Books) (moment : DateTime) : Except BillingError String :=
  let existing := (books.invoices.filter fun i => i.deletedAt = none).length
  let candidate := numberFor moment (existing + 1)
  if (books.invoiceByNumber candidate).isSome then
    .error (.conflict "Invoice number already used." [("number", .str candidate)])
  else .ok candidate

/-- `InvoiceService.close_period` -/
def closePeriod (books : Books) (subscriptionId : Id) (now : DateTime) :
    Except BillingError (Id × Books) :=
  match books.subscriptions[subscriptionId]? with
  | none => .error (.notFound "Subscription not found." [])
  | some subscription =>
      match books.plans[subscription.planId]? with
      | none => .error (.notFound "Plan not found." [])
      | some plan => do
          let periodEnd := subscription.currentPeriodEnd.date
          let billable := UsageRecord.uninvoiced subscription.organizationId periodEnd
          let items := plan.overageItems (books.usage.filter billable)
          let subtotal := plan.priceCents + (items.map LineItem.amountCents).sum
          let number ← books.nextNumber now
          let invoice : Invoice :=
            { organizationId := subscription.organizationId
              subscriptionId := some subscriptionId
              number
              status := .open
              currency := plan.currency
              subtotalCents := subtotal
              taxCents := 0
              totalCents := subtotal
              amountPaidCents := 0
              periodStart := subscription.currentPeriodStart.date
              periodEnd
              dueAt := some (now + 14 * 86400)
              issuedAt := some now
              paidAt := none
              lineItems := plan.feeItem :: items
              deletedAt := none }
          -- The flush of `repo.add` checks the unique number.
          if books.invoices.any fun i => i.number = number then .error .integrity
          else
            return (books.invoices.length,
              { books with
                invoices := books.invoices ++ [invoice]
                usage := books.usage.map fun row =>
                  if billable row then row.stamp now else row })

end Books

end YoutubeFactory.Billing
