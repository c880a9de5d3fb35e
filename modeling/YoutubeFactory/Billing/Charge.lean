import YoutubeFactory.Billing.Conservation
import YoutubeFactory.Billing.MockProvider

/-!
# What a successful charge leaves behind

The mock provider gives every charge of an invoice for one amount the same payment
id.  When a payment with that id exists, `record_payment` returns it and credits
nothing.  So a charge that reports success has collected the invoice if and only if
the id was new (`chargeInvoice_collects_iff`).
-/

namespace YoutubeFactory.Billing

/-- The calls of a history with the mock provider. -/
inductive GatewayCall where
  | chargeInvoice (invoiceId : Id) (providerSlug customerReference : Option String)
      (now later : DateTime)
  | refundPayment (paymentId : Id) (amountCents : Option Int)
  | handleWebhook (payload : List UInt8) (signature providerSlug : Option String)
      (now later : DateTime)

/-- The call with the mock registered. -/
def GatewayCall.withMock (library : Library) (secret : String) : GatewayCall → LedgerCall
  | .chargeInvoice invoiceId providerSlug customerReference now later =>
      .chargeInvoice (library.settings secret) invoiceId providerSlug customerReference now later
  | .refundPayment paymentId amountCents =>
      .refundPayment (library.settings secret) paymentId amountCents
  | .handleWebhook payload signature providerSlug now later =>
      .handleWebhook (library.settings secret) payload signature providerSlug now later

/-- Issued invoices: open, nothing paid, distinct numbers. -/
structure Issued extends Opening where
  isOpen : ∀ invoice ∈ invoices, invoice.status = .open
  numbers : (invoices.map Invoice.number).Nodup

/-- The state after a history of gateway calls. -/
def Issued.afterGateway (issued : Issued) (library : Library) (secret : String)
    (calls : List GatewayCall) : Ledger :=
  issued.after (calls.map (·.withMock library secret))

/-- The invoice has nothing due, and the payment of the outcome is a payment of it
that is not refunded. -/
def Collected (db : Ledger) (invoiceId : Id) (outcome : ChargeOutcome) : Prop :=
  (∀ invoice, db.getInvoice invoiceId = some invoice → invoice.amountDue = 0) ∧
    ∃ paymentId payment, outcome.payment = some paymentId ∧
      db.getPayment paymentId = some payment ∧ payment.invoiceId = invoiceId ∧
      payment.refundedCents = 0 ∧ payment.status ≠ .refunded

/-! ## A successful charge is one call of `record_payment` -/

theorem getProvider_withMock {library : Library} {secret : String} {slug : Option String}
    {provider : PaymentProvider}
    (h : (library.settings secret).getProvider slug = .ok provider) :
    provider = MockPaymentProvider.provider library := by
  unfold Settings.getProvider at h
  dsimp only at h
  split at h
  · next entry hfind =>
      cases h
      have hmem := List.mem_of_find?_eq_some hfind
      rw [List.mem_singleton.mp hmem]
  · cases h

/-- A charge the mock settles is for the amount asked, under the derived id. -/
theorem charge_of_succeeded {library : Library} {request : ChargeRequest}
    {result : ChargeResult} (h : MockPaymentProvider.charge library request = .ok result)
    (hsucceeded : result.status = .succeeded) :
    result.amountCents = request.amountCents ∧
      result.providerPaymentId =
        library.paymentId request.reference request.amountCents request.currency := by
  unfold MockPaymentProvider.charge at h
  dsimp only at h
  split at h
  · cases h
  · split at h
    · cases h
      cases hsucceeded
    · split at h
      · cases h
        cases hsucceeded
      · cases h
        exact ⟨rfl, rfl⟩

theorem chargeInvoice_succeeded {db db' : Ledger} {library : Library} {secret : String}
    {invoiceId : Id} {providerSlug customerReference : Option String} {now later : DateTime}
    {invoice : Invoice} {outcome : ChargeOutcome}
    (hinvoice : db.getInvoice invoiceId = some invoice)
    (h : db.chargeInvoice (library.settings secret) invoiceId providerSlug customerReference
      now later = .ok (outcome, db')) (hsucceeded : outcome.status = .succeeded) :
    0 < invoice.amountDue ∧ ∃ paymentId, outcome.payment = some paymentId ∧
      db.recordPayment invoiceId invoice.amountDue (some "mock")
        (some (library.paymentId invoice.number invoice.amountDue invoice.currency)) now later =
          .ok (paymentId, db') := by
  unfold Ledger.chargeInvoice at h
  rw [hinvoice] at h
  dsimp only at h
  split at h
  · cases h
  · split at h
    · cases h
    · next hdue =>
        obtain ⟨provider, hprovider, h⟩ := Except.bind_eq_ok.mp h
        obtain ⟨result, hresult, h⟩ := Except.bind_eq_ok.mp h
        rw [getProvider_withMock hprovider] at hresult h
        split at h
        · next hstatus =>
            cases h
            exact absurd hsucceeded hstatus
        · obtain ⟨⟨paymentId, db₁⟩, hrecord, h⟩ := Except.bind_eq_ok.mp h
          cases h
          obtain ⟨hamount, hid⟩ := charge_of_succeeded hresult hsucceeded
          refine ⟨by omega, paymentId, rfl, ?_⟩
          rw [hamount, hid] at hrecord
          exact hrecord

theorem Library.paymentId_ne_empty (library : Library) (reference : String)
    (amountCents : Int) (currency : String) :
    library.paymentId reference amountCents currency ≠ "" := by
  intro h
  have hlength := congrArg String.length h
  unfold Library.paymentId Library.stableId at hlength
  simp only [String.length_append] at hlength
  have hpositive : "mockpay".length = 7 := rfl
  have hempty : "".length = 0 := rfl
  omega

/-! ## Recording against an invoice -/

theorem amountDue_credit {invoice : Invoice} (hdue : 0 < invoice.amountDue) (now : DateTime) :
    (invoice.credit invoice.amountDue now).amountDue = 0 := by
  simp only [Invoice.amountDue, Invoice.credit_totalCents,
    Invoice.credit_amountPaidCents] at hdue ⊢
  omega

/-- A payment recorded under a new id collects the amount due; a repeated one leaves
the tables alone. -/
theorem recordPayment_collects_iff {db db' : Ledger} {invoiceId paymentId : Id}
    {invoice : Invoice} {provider : Option String} {id : String} {now later : DateTime}
    {outcome : ChargeOutcome} (hinvoice : db.getInvoice invoiceId = some invoice)
    (hdue : 0 < invoice.amountDue) (hid : id ≠ "") (hpayment : outcome.payment = some paymentId)
    (h : db.recordPayment invoiceId invoice.amountDue provider (some id) now later =
      .ok (paymentId, db')) :
    Collected db' invoiceId outcome ↔ db.paymentByProviderId id = none := by
  have hreplayed : db.replayed (some id) = db.paymentByProviderId id := if_neg hid
  unfold Ledger.recordPayment at h
  rw [if_neg (by omega), hreplayed, hinvoice] at h
  cases hlookup : db.paymentByProviderId id with
  | some existing =>
      rw [hlookup] at h
      cases h
      -- Nothing is credited, and what was due is still due.
      constructor
      · intro hcollected
        have hzero := hcollected.1 invoice hinvoice
        omega
      · intro hnone
        cases hnone
  | none =>
      rw [hlookup] at h
      dsimp only at h
      split at h
      · cases h
      · cases h
        refine ⟨fun _ => rfl, fun _ => ⟨?_, ?_⟩⟩
        · intro after hafter
          rw [Ledger.getInvoice_setInvoice (show (db.addPayment _).getInvoice invoiceId =
            some invoice from hinvoice), if_pos rfl] at hafter
          cases hafter
          exact amountDue_credit hdue later
        · refine ⟨_, _, hpayment, List.getElem?_concat_length, rfl, rfl, ?_⟩
          intro hrefunded
          cases hrefunded

/-- In every state that charges, refunds and callbacks lead to, a charge that reports
success has collected the invoice if and only if its payment id was new. -/
theorem chargeInvoice_collects_iff (library : Library) (secret : String) (issued : Issued)
    (calls : List GatewayCall) (invoiceId : Id) (providerSlug customerReference : Option String)
    (now later : DateTime) (invoice : Invoice) (outcome : ChargeOutcome) (db' : Ledger)
    (hinvoice : (issued.afterGateway library secret calls).getInvoice invoiceId = some invoice)
    (hcharge : (issued.afterGateway library secret calls).chargeInvoice (library.settings secret)
      invoiceId providerSlug customerReference now later = .ok (outcome, db'))
    (hsucceeded : outcome.status = .succeeded) :
    Collected db' invoiceId outcome ↔
      (issued.afterGateway library secret calls).paymentByProviderId
        (library.paymentId invoice.number invoice.amountDue invoice.currency) = none := by
  obtain ⟨hdue, paymentId, hpayment, hrecord⟩ :=
    chargeInvoice_succeeded hinvoice hcharge hsucceeded
  exact recordPayment_collects_iff hinvoice hdue (library.paymentId_ne_empty _ _ _) hpayment
    hrecord

/-! ## A charge, its refund and a second charge -/

/-- SHA-256 on the texts that are hashed below, and the body of a callback. -/
def oneChargeLibrary : Library where
  sha256 text :=
    if text = "INV-202501-000001|1000|USD" then
      "ef6c04c1c076f7e16d1c18281ac8b0df2624b80e0877c4367bce722e0c940bad"
    else if text = "INV-202501-000001|600|USD" then
      "2594d4463491ce6e0598e41dc18cdb081b285b137da83ab8e2b8e5f05dec0374"
    else ""
  hmac _ _ := "signed"
  loads _ := .ok (.dict [("id", .str "evt-1"), ("type", .str "payment.succeeded"),
    ("data", .dict [("provider_payment_id", .str "pay-a"), ("amount_cents", .int 400),
      ("reference", .str "INV-202501-000001")])])
  containerRepr _ := ""

/-- One open invoice over 10 dollars. -/
def oneInvoice : Issued where
  invoices :=
    [{ organizationId := 0
       subscriptionId := none
       number := "INV-202501-000001"
       status := .open
       currency := "USD"
       subtotalCents := 1000
       taxCents := 0
       totalCents := 1000
       amountPaidCents := 0
       periodStart := 20089
       periodEnd := 20119
       dueAt := none
       issuedAt := some 1738281600
       paidAt := none
       lineItems := []
       deletedAt := none }]
  unpaid := by decide
  isOpen := by decide
  numbers := by decide

def chargeOnce : GatewayCall := .chargeInvoice 0 none none 1738368000 1738368000

def refundAll : GatewayCall := .refundPayment 0 none

/-- A callback that settles 4 dollars of the invoice. -/
def settlePart : GatewayCall := .handleWebhook [1] (some "signed") none 1738324800 1738324800

/-- The first charge collects what is left of the invoice. -/
theorem first_charge_collects :
    ((oneInvoice.afterGateway oneChargeLibrary "secret" [settlePart]).getInvoice 0).map
        Invoice.amountDue = some 600 ∧
      ∃ outcome db', (oneInvoice.afterGateway oneChargeLibrary "secret" [settlePart]).chargeInvoice
          (oneChargeLibrary.settings "secret") 0 none none 1738368000 1738368000 =
            .ok (outcome, db') ∧ Collected db' 0 outcome := by
  refine ⟨rfl, _, _, rfl, ?_⟩
  exact (chargeInvoice_collects_iff oneChargeLibrary "secret" oneInvoice [settlePart] 0 none none
    1738368000 1738368000 _ _ _ rfl rfl rfl).mpr rfl

/-- The charge after the refund reports success and collects nothing. -/
theorem second_charge_collects_nothing :
    ∃ outcome db',
      (oneInvoice.afterGateway oneChargeLibrary "secret" [chargeOnce, refundAll]).chargeInvoice
        (oneChargeLibrary.settings "secret") 0 none none 1738454400 1738454400 =
          .ok (outcome, db') ∧ outcome.status = .succeeded ∧ ¬ Collected db' 0 outcome := by
  refine ⟨_, _, rfl, rfl, fun hcollected => ?_⟩
  have hdue := hcollected.1 _ rfl
  revert hdue
  decide

end YoutubeFactory.Billing
