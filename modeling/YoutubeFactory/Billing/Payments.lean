import YoutubeFactory.Billing.Models

/-!
# Recording payments and refunds

`PaymentService` of `app/services/billing.py`.  A call takes the tables and gives
its result with the tables it leaves, or raises.  The clock readings of a call are
its last arguments.
-/

namespace YoutubeFactory.Billing

/-- The row of a payment against an invoice. -/
def Invoice.payment (invoice : Invoice) (invoiceId : Id) (amountCents : Int)
    (provider providerPaymentId : Option String) (now : DateTime) : Payment where
  invoiceId
  organizationId := invoice.organizationId
  status := .succeeded
  amountCents
  currency := invoice.currency
  provider
  providerPaymentId
  refundedCents := 0
  processedAt := some now
  deletedAt := none

/-- What a recorded payment does to its invoice. -/
def Invoice.credit (invoice : Invoice) (amountCents : Int) (now : DateTime) : Invoice :=
  let paid := invoice.amountPaidCents + amountCents
  if paid ≥ invoice.totalCents then
    { invoice with amountPaidCents := paid, status := .paid, paidAt := some now }
  else { invoice with amountPaidCents := paid }

/-- What a refund does to the invoice of the payment. -/
def Invoice.debit (invoice : Invoice) (amountCents : Int) : Invoice :=
  let paid := max (invoice.amountPaidCents - amountCents) 0
  if paid < invoice.totalCents then
    { invoice with amountPaidCents := paid, status := .open, paidAt := none }
  else { invoice with amountPaidCents := paid }

namespace Invoice

variable (invoice : Invoice) (amountCents : Int) (now : DateTime)

@[simp] theorem credit_number : (invoice.credit amountCents now).number = invoice.number := by
  unfold credit
  dsimp only
  split <;> rfl

@[simp] theorem credit_organizationId :
    (invoice.credit amountCents now).organizationId = invoice.organizationId := by
  unfold credit
  dsimp only
  split <;> rfl

@[simp] theorem credit_deletedAt :
    (invoice.credit amountCents now).deletedAt = invoice.deletedAt := by
  unfold credit
  dsimp only
  split <;> rfl

@[simp] theorem credit_totalCents :
    (invoice.credit amountCents now).totalCents = invoice.totalCents := by
  unfold credit
  dsimp only
  split <;> rfl

@[simp] theorem credit_amountPaidCents :
    (invoice.credit amountCents now).amountPaidCents = invoice.amountPaidCents + amountCents := by
  unfold credit
  dsimp only
  split <;> rfl

@[simp] theorem credit_status :
    (invoice.credit amountCents now).status =
      if invoice.totalCents ≤ invoice.amountPaidCents + amountCents then .paid
      else invoice.status := by
  unfold credit
  dsimp only
  split <;> rfl

@[simp] theorem debit_organizationId :
    (invoice.debit amountCents).organizationId = invoice.organizationId := by
  unfold debit
  dsimp only
  split <;> rfl

@[simp] theorem debit_amountPaidCents :
    (invoice.debit amountCents).amountPaidCents =
      max (invoice.amountPaidCents - amountCents) 0 := by
  unfold debit
  dsimp only
  split <;> rfl

@[simp] theorem debit_status :
    (invoice.debit amountCents).status =
      if max (invoice.amountPaidCents - amountCents) 0 < invoice.totalCents then .open
      else invoice.status := by
  unfold debit
  dsimp only
  split <;> rfl

end Invoice

/-- What a refund does to the payment itself. -/
def Payment.refund (payment : Payment) (amountCents : Int) : Payment :=
  let refunded := payment.refundedCents + amountCents
  { payment with
    refundedCents := refunded
    status := if refunded = payment.amountCents then .refunded else payment.status }

namespace Ledger

/-- The payment a call repeats, if it has a provider id and that is known. -/
def replayed (db : Ledger) : Option String → Option Id
  | none => none
  | some id => if id = "" then none else db.paymentByProviderId id

/-- `PaymentService.record_payment`, with the id of the payment. -/
def recordPayment (db : Ledger) (invoiceId : Id) (amountCents : Int)
    (provider providerPaymentId : Option String) (now later : DateTime) :
    Except BillingError (Id × Ledger) :=
  if amountCents ≤ 0 then .error (.validation "Payment amount must be positive." [])
  else
    match db.replayed providerPaymentId with
    | some existing => .ok (existing, db)
    | none =>
        match db.getInvoice invoiceId with
        | none => .error (.notFound "Invoice not found." [])
        | some invoice =>
            -- The flush of `repo.add` checks the unique column.
            if db.providerIdTaken providerPaymentId then .error .integrity
            else
              .ok (db.payments.length,
                (db.addPayment (invoice.payment invoiceId amountCents provider providerPaymentId
                  now)).setInvoice invoiceId (invoice.credit amountCents later))

/-- The tables after an accepted refund of `payment`. -/
def applyRefund (db : Ledger) (paymentId : Id) (payment : Payment) (amountCents : Int) : Ledger :=
  let refunded := db.setPayment paymentId (payment.refund amountCents)
  match db.getInvoice payment.invoiceId with
  | none => refunded
  | some invoice => refunded.setInvoice payment.invoiceId (invoice.debit amountCents)

/-- `PaymentService.refund` -/
def refund (db : Ledger) (paymentId : Id) (amountCents : Int) :
    Except BillingError (Id × Ledger) :=
  match db.getPayment paymentId with
  | none => .error (.notFound "Payment not found." [])
  | some payment =>
      if amountCents ≤ 0 then .error (.validation "Refund amount must be positive." [])
      else if payment.refundedCents + amountCents > payment.amountCents then
        .error (.validation "Refund exceeds the amount paid." [])
      else .ok (paymentId, db.applyRefund paymentId payment amountCents)

end Ledger

end YoutubeFactory.Billing
