import YoutubeFactory.Lib.Except
import YoutubeFactory.Billing.Payments
import Mathlib.Data.List.Sort

/-!
# Charging through a payment provider

`app/services/payment_gateway.py`, with the provider contract and the registry of
`app/core/payments`.  A provider is any record of functions: what it answers is up
to it.
-/

namespace YoutubeFactory.Billing

open Python

/-! ## The provider contract -/

inductive ChargeStatus where
  | succeeded | requiresAction | declined
deriving DecidableEq, Repr

structure ChargeResult where
  status : ChargeStatus
  providerPaymentId : String
  amountCents : Int
  currency : String
  declineReason : Option String
  actionUrl : Option String

/-- A verified callback.  A provider may put any JSON value where its payment id
belongs. -/
structure WebhookEvent where
  eventId : String
  eventType : String
  providerPaymentId : Json
  amountCents : Option Int
  payload : List (String × Json)

structure ChargeRequest where
  amountCents : Int
  currency : String
  reference : String
  customerReference : Option String
  metadata : List (String × String)

structure PaymentProvider where
  slug : String
  charge : ChargeRequest → Except BillingError ChargeResult
  refund : (providerPaymentId : String) → (amountCents : Int) → Except BillingError Unit
  verifyWebhook : (payload : List UInt8) → (signature : Option String) → (secret : String) →
    Except BillingError WebhookEvent

/-- The registry, the settings and the interpreter's `repr` of containers. -/
structure Settings where
  registry : List (String × PaymentProvider)
  paymentProvider : String
  paymentWebhookSecret : String
  containerRepr : Json → String

/-- `get_provider` -/
def Settings.getProvider (settings : Settings) (slug : Option String) :
    Except BillingError PaymentProvider :=
  let resolved := if slug.getD "" = "" then settings.paymentProvider else slug.getD ""
  match settings.registry.find? fun entry => entry.1 = resolved with
  | some entry => .ok entry.2
  | none =>
      .error (.serviceUnavailable s!"No payment provider registered for '{resolved}'."
        [("requested", .str resolved),
          ("available", .list
            (((settings.registry.map Prod.fst).insertionSort fun a b => strLe a b).map .str))])

/-! ## The gateway -/

/-- The result of attempting to collect an invoice. -/
structure ChargeOutcome where
  status : ChargeStatus
  invoice : Id
  amountCents : Int
  payment : Option Id
  declineReason : Option String
  actionUrl : Option String

/-- `amount_due` -/
def Invoice.amountDue (invoice : Invoice) : Int :=
  max (invoice.totalCents - invoice.amountPaidCents) 0

/-- The invoice number a callback refers to:
`str(payload.get("data", {}).get("reference") or "")`. -/
def referencedNumber (settings : Settings) (payload : List (String × Json)) :
    Except BillingError String :=
  match (Json.lookup? payload "data").getD (.dict []) with
  | .dict data =>
      let reference := (Json.lookup? data "reference").getD .null
      .ok (if reference.truth then reference.toStr settings.containerRepr else "")
  | _ => .error .badPayload

namespace Ledger

/-- `charge_invoice` -/
def chargeInvoice (db : Ledger) (settings : Settings) (invoiceId : Id)
    (providerSlug customerReference : Option String) (now later : DateTime) :
    Except BillingError (ChargeOutcome × Ledger) :=
  match db.getInvoice invoiceId with
  | none => .error (.notFound "Invoice not found." [])
  | some invoice =>
      if invoice.status = .void then
        .error (.validation "This invoice was voided and cannot be paid." [])
      else if invoice.amountDue ≤ 0 then
        .error (.validation "This invoice has nothing left to pay." [])
      else do
        let provider ← settings.getProvider providerSlug
        let result ← provider.charge
          { amountCents := invoice.amountDue
            currency := invoice.currency
            reference := invoice.number
            customerReference
            metadata := [("organization_id", toString invoice.organizationId)] }
        if result.status ≠ .succeeded then
          let outcome : ChargeOutcome :=
            { status := result.status
              invoice := invoiceId
              amountCents := invoice.amountDue
              payment := none
              declineReason := result.declineReason
              actionUrl := result.actionUrl }
          return (outcome, db)
        else
          let (payment, db') ← db.recordPayment invoiceId result.amountCents
            (some provider.slug) (some result.providerPaymentId) now later
          let outcome : ChargeOutcome :=
            { status := result.status
              invoice := invoiceId
              amountCents := result.amountCents
              payment := some payment
              declineReason := none
              actionUrl := none }
          return (outcome, db')

/-- `refund_payment` -/
def refundPayment (db : Ledger) (settings : Settings) (paymentId : Id)
    (amountCents : Option Int) : Except BillingError (Id × Ledger) :=
  match db.getPayment paymentId with
  | none => .error (.notFound "Payment not found." [])
  | some payment =>
      let refundable := payment.amountCents - payment.refundedCents
      let amount := amountCents.getD refundable
      if amount ≤ 0 ∨ amount > refundable then
        .error (.validation s!"Refund must be between 1 and {refundable} cents."
          [("refundable_cents", .int refundable)])
      else
        match payment.providerPaymentId with
        | none => noReference
        | some providerPaymentId =>
            if providerPaymentId = "" then noReference
            else do
              let provider ← settings.getProvider payment.provider
              provider.refund providerPaymentId amount
              db.refund paymentId amount
where
  noReference : Except BillingError (Id × Ledger) :=
    .error (.validation ("This payment has no provider reference and cannot be refunded " ++
      "automatically.") [])

/-- `_apply_settlement` -/
def applySettlement (db : Ledger) (settings : Settings) (providerSlug : String)
    (event : WebhookEvent) (now later : DateTime) : Except BillingError (Unit × Ledger) :=
  match event.providerPaymentId.truth, event.amountCents with
  | true, some amountCents =>
      match event.providerPaymentId with
      | .str providerPaymentId =>
          match db.paymentByProviderId providerPaymentId with
          | some _ => .ok ((), db)
          | none => do
              let number ← referencedNumber settings event.payload
              match if number = "" then none else db.invoiceByNumber number with
              | none =>
                  .error (.notFound "The callback references an unknown invoice."
                    [("reference", .str number), ("event_id", .str event.eventId)])
              | some invoiceId => do
                  let (_, db') ← db.recordPayment invoiceId amountCents (some providerSlug)
                    (some providerPaymentId) now later
                  return ((), db')
      -- The driver does not bind another type to a text column.
      | _ => .error .badPayload
  | _, _ =>
      .error (.validation ("A payment.succeeded callback needs provider_payment_id and " ++
        "amount_cents.") [("event_id", .str event.eventId)])

/-- `handle_webhook` -/
def handleWebhook (db : Ledger) (settings : Settings) (payload : List UInt8)
    (signature providerSlug : Option String) (now later : DateTime) :
    Except BillingError (WebhookEvent × Ledger) := do
  let provider ← settings.getProvider providerSlug
  let event ← provider.verifyWebhook payload signature settings.paymentWebhookSecret
  if event.eventType = "payment.succeeded" then
    let (_, db') ← db.applySettlement settings provider.slug event now later
    return (event, db')
  else return (event, db)

end Ledger

end YoutubeFactory.Billing
