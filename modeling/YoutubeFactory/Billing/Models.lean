import YoutubeFactory.Python.Json
import YoutubeFactory.Python.Object
import Mathlib.Data.Rat.Defs

/-!
# Billing tables

`app/models/billing.py` with the columns the billing services read or write, and
the queries of `app/repositories/billing.py`.

A table is the list of its rows and rows are never removed from it, so a row's
position serves as its id: the ids the application generates are fresh.  Amounts
of money are integer cents.  A `Numeric` column is a rational number.  A moment is
a number of seconds and a date a number of days, both counted from 1970-01-01.
-/

namespace YoutubeFactory.Billing

open Python

/-! ## Columns -/

abbrev Id := Nat

/-- Seconds since the epoch, UTC. -/
abbrev DateTime := Int

/-- Days since the epoch. -/
abbrev Date := Int

/-- `datetime.date` -/
def DateTime.date (t : DateTime) : Date := Int.fdiv t 86400

inductive SubscriptionStatus where
  | trialing | active | pastDue | cancelled | expired
deriving DecidableEq, Repr

inductive InvoiceStatus where
  | draft | open | paid | void | uncollectible
deriving DecidableEq, Repr

inductive PaymentStatus where
  | pending | succeeded | failed | refunded
deriving DecidableEq, Repr

/-- A frozen line item of an invoice. -/
structure LineItem where
  description : String
  quantity : ℚ
  unitPriceCents : ℚ
  amountCents : Int
deriving DecidableEq

/-- A plan.  Quotas and rates map a metric to a number. -/
structure Plan where
  name : String
  interval : String
  priceCents : Int
  currency : String
  quotas : Dict ℚ
  overageRates : Dict ℚ

structure Subscription where
  organizationId : Id
  planId : Id
  status : SubscriptionStatus
  currentPeriodStart : DateTime
  currentPeriodEnd : DateTime
  createdAt : DateTime
  deletedAt : Option DateTime

structure Invoice where
  organizationId : Id
  subscriptionId : Option Id
  number : String
  status : InvoiceStatus
  currency : String
  subtotalCents : Int
  taxCents : Int
  totalCents : Int
  amountPaidCents : Int
  periodStart : Date
  periodEnd : Date
  dueAt : Option DateTime
  issuedAt : Option DateTime
  paidAt : Option DateTime
  lineItems : List LineItem
  deletedAt : Option DateTime
deriving DecidableEq

structure Payment where
  invoiceId : Id
  organizationId : Id
  status : PaymentStatus
  amountCents : Int
  currency : String
  provider : Option String
  providerPaymentId : Option String
  refundedCents : Int
  processedAt : Option DateTime
  deletedAt : Option DateTime
deriving DecidableEq

structure UsageRecord where
  organizationId : Id
  subscriptionId : Option Id
  metric : String
  quantity : ℚ
  recordedFor : Date
  invoicedAt : Option DateTime
  deletedAt : Option DateTime
deriving DecidableEq

/-! ## Invoices and payments -/

/-- The tables payments are recorded in. -/
structure Ledger where
  invoices : List Invoice
  payments : List Payment
deriving DecidableEq

namespace Ledger

/-- `InvoiceRepository.get`, by primary key: a soft-deleted row is found too. -/
def getInvoice (db : Ledger) (id : Id) : Option Invoice := db.invoices[id]?

/-- `PaymentRepository.get` -/
def getPayment (db : Ledger) (id : Id) : Option Payment := db.payments[id]?

/-- `InvoiceRepository.get_by_number`, with the id of the invoice found. -/
def invoiceByNumber (db : Ledger) (number : String) : Option Id :=
  db.invoices.findIdx? fun i => i.number = number ∧ i.deletedAt = none

/-- `PaymentRepository.get_by_provider_id`, with the id of the payment found. -/
def paymentByProviderId (db : Ledger) (providerPaymentId : String) : Option Id :=
  db.payments.findIdx? fun p =>
    p.providerPaymentId = some providerPaymentId ∧ p.deletedAt = none

/-- Whether a payment has the provider's id: the column is unique, deleted rows included. -/
def providerIdTaken (db : Ledger) (providerPaymentId : Option String) : Bool :=
  providerPaymentId.isSome && db.payments.any fun p => p.providerPaymentId = providerPaymentId

def setInvoice (db : Ledger) (id : Id) (invoice : Invoice) : Ledger :=
  { db with invoices := db.invoices.set id invoice }

def setPayment (db : Ledger) (id : Id) (payment : Payment) : Ledger :=
  { db with payments := db.payments.set id payment }

def addPayment (db : Ledger) (payment : Payment) : Ledger :=
  { db with payments := db.payments ++ [payment] }

end Ledger

/-! ## Errors -/

/-- The exceptions billing calls raise. -/
inductive BillingError where
  | notFound (message : String) (details : List (String × Json))
  | validation (message : String) (details : List (String × Json))
  | conflict (message : String) (details : List (String × Json))
  | serviceUnavailable (message : String) (details : List (String × Json))
  | paymentProvider (message : String)
  /-- A write that breaks a unique constraint. -/
  | integrity
  /-- An attribute or a type that a decoded payload does not have. -/
  | badPayload

end YoutubeFactory.Billing
