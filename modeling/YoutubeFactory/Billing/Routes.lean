import YoutubeFactory.Lib.Tenancy
import YoutubeFactory.Access.Rbac
import YoutubeFactory.Billing.Charge
import YoutubeFactory.Billing.ConcurrentCharges
import YoutubeFactory.Billing.ConcurrentRefunds

/-!
# Billing routes

`pay_invoice` and `refund_payment` of `app/api/v1/routes/billing.py`.  The permission is
checked on the organization of the path; the invoice or the payment is then looked up by
its id alone.

So a request stays inside its organization exactly when what it names is the
organization's, or is refused before the provider is asked (`stays_inside_iff`).
-/

namespace YoutubeFactory.Billing

open Access Tenancy

/-! ## The routes -/

structure BillingState where
  access : AccessDb
  ledger : Ledger

inductive RouteError where
  | access (e : ApiError)
  | billing (e : BillingError)

/-- A request under `/organizations/{organization_id}`. -/
inductive BillingRequest where
  | payInvoice (invoiceId : Id) (provider customerReference : Option String)
      (now later : DateTime)
  | refundPayment (paymentId : Id) (amountCents : Option Int)

namespace BillingState

/-- `pay_invoice` -/
def payInvoice (db : BillingState) (settings : Settings) (userId organizationId invoiceId : Id)
    (provider customerReference : Option String) (now later : DateTime) :
    Except RouteError (ChargeOutcome × BillingState) := do
  let _ ← (db.access.authorize userId organizationId "billing.manage").mapError .access
  let (outcome, ledger) ← (db.ledger.chargeInvoice settings invoiceId provider customerReference
    now later).mapError .billing
  return (outcome, { db with ledger })

/-- `refund_payment` -/
def refundPayment (db : BillingState) (settings : Settings)
    (userId organizationId paymentId : Id) (amountCents : Option Int) :
    Except RouteError (Id × BillingState) := do
  let _ ← (db.access.authorize userId organizationId "billing.manage").mapError .access
  let (payment, ledger) ← (db.ledger.refundPayment settings paymentId amountCents).mapError
    .billing
  return (payment, { db with ledger })

end BillingState

/-! ## What the provider is asked -/

/-- The checks of `charge_invoice` on the invoice it has read. -/
def Invoice.checkCharge (invoice : Invoice) (settings : Settings)
    (providerSlug : Option String) : Except BillingError PaymentProvider :=
  if invoice.status = .void then
    .error (.validation "This invoice was voided and cannot be paid." [])
  else if invoice.amountDue ≤ 0 then
    .error (.validation "This invoice has nothing left to pay." [])
  else settings.getProvider providerSlug

/-- What `charge_invoice` does with the answer of the provider. -/
def Ledger.settle (db : Ledger) (invoiceId : Id) (invoice : Invoice)
    (provider : PaymentProvider) (now later : DateTime) (result : ChargeResult) :
    Except BillingError (ChargeOutcome × Ledger) :=
  if result.status ≠ .succeeded then
    .ok
      ({ status := result.status
         invoice := invoiceId
         amountCents := invoice.amountDue
         payment := none
         declineReason := result.declineReason
         actionUrl := result.actionUrl }, db)
  else
    (db.recordPayment invoiceId result.amountCents (some provider.slug)
      (some result.providerPaymentId) now later).map fun r =>
        ({ status := result.status
           invoice := invoiceId
           amountCents := result.amountCents
           payment := some r.1
           declineReason := none
           actionUrl := none }, r.2)

/-- `charge_invoice` is the checks, the provider and what follows. -/
theorem chargeInvoice_eq {db : Ledger} {invoiceId : Id} {invoice : Invoice}
    (hinvoice : db.getInvoice invoiceId = some invoice) (settings : Settings)
    (providerSlug customerReference : Option String) (now later : DateTime) :
    db.chargeInvoice settings invoiceId providerSlug customerReference now later =
      (do
        let provider ← invoice.checkCharge settings providerSlug
        let result ← provider.charge (invoice.chargeRequest customerReference)
        db.settle invoiceId invoice provider now later result) := by
  unfold Ledger.chargeInvoice Invoice.checkCharge
  rw [hinvoice]
  dsimp only
  split
  · rfl
  · split
    · rfl
    · cases settings.getProvider providerSlug with
      | error e => rfl
      | ok provider =>
          simp only [Except.ok_bind, Invoice.chargeRequest]
          cases provider.charge _ with
          | error e => rfl
          | ok result =>
              simp only [Except.ok_bind, Ledger.settle]
              split
              · rfl
              · cases db.recordPayment invoiceId result.amountCents (some provider.slug)
                  (some result.providerPaymentId) now later <;> rfl

/-- A call of the provider. -/
inductive ProviderCall where
  | charge (provider : PaymentProvider) (request : ChargeRequest)
  | refund (provider : PaymentProvider) (providerPaymentId : String) (amountCents : Int)

namespace BillingRequest

/-- What the request asks the provider once it is authorized. -/
def asks (settings : Settings) (db : Ledger) : BillingRequest → List ProviderCall
  | .payInvoice invoiceId provider customerReference _ _ =>
      match db.getInvoice invoiceId with
      | none => []
      | some invoice =>
          match invoice.checkCharge settings provider with
          | .error _ => []
          | .ok provider => [.charge provider (invoice.chargeRequest customerReference)]
  | .refundPayment paymentId amountCents =>
      match db.getPayment paymentId with
      | none => []
      | some payment =>
          match payment.checkRefund settings amountCents with
          | .error _ => []
          | .ok order => [.refund order.provider order.providerPaymentId order.amountCents]

/-- The route the request names. -/
def body (settings : Settings) (db : BillingState) (userId organizationId : Id) :
    BillingRequest → Except RouteError (Unit × BillingState)
  | .payInvoice invoiceId provider customerReference now later =>
      (db.payInvoice settings userId organizationId invoiceId provider customerReference now
        later).map fun r => ((), r.2)
  | .refundPayment paymentId amountCents =>
      (db.refundPayment settings userId organizationId paymentId amountCents).map
        fun r => ((), r.2)

/-- The request in its transaction. -/
def step (settings : Settings) (db : BillingState) (userId organizationId : Id)
    (request : BillingRequest) : BillingState :=
  Run.commit db (request.body settings db userId organizationId)

/-- What the request asks the provider. -/
def asked (settings : Settings) (db : BillingState) (userId organizationId : Id)
    (request : BillingRequest) : List ProviderCall :=
  match db.access.authorize userId organizationId "billing.manage" with
  | .error _ => []
  | .ok _ => request.asks settings db.ledger

/-- What the request names is the organization's. -/
def Belongs (db : Ledger) (organizationId : Id) : BillingRequest → Prop
  | .payInvoice invoiceId _ _ _ _ =>
      ∃ invoice, db.getInvoice invoiceId = some invoice ∧ invoice.organizationId = organizationId
  | .refundPayment paymentId _ =>
      ∃ payment, db.getPayment paymentId = some payment ∧ payment.organizationId = organizationId

/-- The call of the payment service that the request makes. -/
def call (settings : Settings) : BillingRequest → LedgerCall
  | .payInvoice invoiceId provider customerReference now later =>
      .chargeInvoice settings invoiceId provider customerReference now later
  | .refundPayment paymentId amountCents => .refundPayment settings paymentId amountCents

end BillingRequest

/-! ## Requests that stay inside -/

/-- An ordinary user who can manage the billing of one organization only. -/
structure ManagesOnly (db : AccessDb) (userId organizationId : Id) : Prop where
  ordinary : db.Ordinary userId
  holds_iff : ∀ other, db.Holds userId other "billing.manage" ↔ other = organizationId

/-- The request changes invoices and payments of the organization only, asks the provider
only about them, and is refused without a trace if it names another one. -/
structure StaysInside (settings : Settings) (db : BillingState) (userId organizationId : Id)
    (request : BillingRequest) : Prop where
  invoices : ChangesOnly (fun i : Invoice => i.organizationId = organizationId)
    db.ledger.invoices (request.step settings db userId organizationId).ledger.invoices
  payments : ChangesOnly (fun p : Payment => p.organizationId = organizationId)
    db.ledger.payments (request.step settings db userId organizationId).ledger.payments
  asked : request.asked settings db userId organizationId ≠ [] →
    request.Belongs db.ledger organizationId
  refused : ¬ request.Belongs db.ledger organizationId →
    (∃ e, request.body settings db userId organizationId = .error e) ∧
      request.step settings db userId organizationId = db

/-- What the request names is the organization's, or does not pass the checks that come
before the provider.  The invoice that a refund takes money from is the organization's
too, or has no money to take. -/
def KeepsToOwn (settings : Settings) (db : Ledger) (organizationId : Id) :
    BillingRequest → Prop
  | .payInvoice invoiceId provider _ _ _ =>
      ∀ invoice, db.getInvoice invoiceId = some invoice →
        invoice.organizationId = organizationId ∨
          ∃ e, invoice.checkCharge settings provider = .error e
  | .refundPayment paymentId amountCents =>
      ∀ payment order, db.getPayment paymentId = some payment →
        payment.checkRefund settings amountCents = .ok order →
          payment.organizationId = organizationId ∧
            ∀ invoice, db.getInvoice payment.invoiceId = some invoice →
              order.provider.refund order.providerPaymentId order.amountCents = .ok () →
                invoice.organizationId = organizationId ∨
                  invoice.debit order.amountCents = invoice

section

variable {settings : Settings} {db : BillingState} {userId organizationId : Id}
  {request : BillingRequest}

/-- An authorized request makes its call. -/
theorem body_of_managesOnly (h : ManagesOnly db.access userId organizationId) :
    request.body settings db userId organizationId =
      match (request.call settings).attempt db.ledger with
      | .ok r => .ok ((), { db with ledger := r.2 })
      | .error e => .error (.billing e) := by
  obtain ⟨user, hauthorized⟩ :=
    AccessDb.authorize_of_holds h.ordinary ((h.holds_iff organizationId).mpr rfl)
  cases request with
  | payInvoice invoiceId provider customerReference now later =>
      simp only [BillingRequest.body, BillingState.payInvoice, hauthorized, BillingRequest.call,
        LedgerCall.attempt]
      cases db.ledger.chargeInvoice settings invoiceId provider customerReference now later <;> rfl
  | refundPayment paymentId amountCents =>
      simp only [BillingRequest.body, BillingState.refundPayment, hauthorized,
        BillingRequest.call, LedgerCall.attempt]
      cases db.ledger.refundPayment settings paymentId amountCents <;> rfl

theorem step_of_managesOnly (h : ManagesOnly db.access userId organizationId) :
    request.step settings db userId organizationId =
      { db with ledger := (request.call settings).step db.ledger } := by
  rw [BillingRequest.step, body_of_managesOnly h, LedgerCall.step]
  cases (request.call settings).attempt db.ledger <;> rfl

theorem asked_of_managesOnly (h : ManagesOnly db.access userId organizationId) :
    request.asked settings db userId organizationId = request.asks settings db.ledger := by
  obtain ⟨user, hauthorized⟩ :=
    AccessDb.authorize_of_holds h.ordinary ((h.holds_iff organizationId).mpr rfl)
  rw [BillingRequest.asked, hauthorized]

end

/-! ## What a charge changes -/

/-- A payment is recorded with a credit to its invoice, or not at all. -/
theorem recordPayment_cases {db db' : Ledger} {invoiceId id : Id} {invoice : Invoice}
    {amountCents : Int} {provider providerPaymentId : Option String} {now later : DateTime}
    (hinvoice : db.getInvoice invoiceId = some invoice)
    (h : db.recordPayment invoiceId amountCents provider providerPaymentId now later =
      .ok (id, db')) :
    db' = db ∨ db' = (db.addPayment (invoice.payment invoiceId amountCents provider
      providerPaymentId now)).setInvoice invoiceId (invoice.credit amountCents later) := by
  unfold Ledger.recordPayment at h
  rw [hinvoice] at h
  split at h
  · cases h
  · cases hreplayed : db.replayed providerPaymentId with
    | some existing =>
        rw [hreplayed] at h
        cases h
        exact .inl rfl
    | none =>
        rw [hreplayed] at h
        dsimp only at h
        split at h
        · cases h
        · cases h
          exact .inr rfl

/-- A charge changes its own invoice and adds a payment of the same organization. -/
theorem charge_changesOnly {db : Ledger} {invoiceId : Id} {invoice : Invoice}
    (hinvoice : db.getInvoice invoiceId = some invoice) (settings : Settings)
    (provider customerReference : Option String) (now later : DateTime) :
    let db' := Run.commit db
      (db.chargeInvoice settings invoiceId provider customerReference now later)
    ChangesOnly (fun i : Invoice => i.organizationId = invoice.organizationId) db.invoices
        db'.invoices ∧
      ChangesOnly (fun p : Payment => p.organizationId = invoice.organizationId) db.payments
        db'.payments := by
  intro db'
  have hdb' : db' = db ∨ ∃ amountCents slug providerPaymentId,
      db' = (db.addPayment (invoice.payment invoiceId amountCents slug providerPaymentId
        now)).setInvoice invoiceId (invoice.credit amountCents later) := by
    simp only [db', chargeInvoice_eq hinvoice]
    cases invoice.checkCharge settings provider with
    | error e => exact .inl rfl
    | ok provider =>
        simp only [Except.ok_bind]
        cases provider.charge (invoice.chargeRequest customerReference) with
        | error e => exact .inl rfl
        | ok result =>
            simp only [Except.ok_bind, Ledger.settle]
            split
            · exact .inl rfl
            · cases hrecord : db.recordPayment invoiceId result.amountCents (some provider.slug)
                (some result.providerPaymentId) now later with
              | error e => exact .inl rfl
              | ok r =>
                  rcases recordPayment_cases hinvoice hrecord with hsame | hrecorded
                  · exact .inl hsame
                  · exact .inr ⟨_, _, _, hrecorded⟩
  rcases hdb' with hsame | ⟨amountCents, slug, providerPaymentId, hrecorded⟩
  · rw [hsame]
    exact ⟨.refl _, .refl _⟩
  · rw [hrecorded]
    exact ⟨.set hinvoice rfl (Invoice.credit_organizationId ..), .append rfl⟩

/-! ## What a refund changes -/

section

variable {db : Ledger} {settings : Settings} {paymentId : Id} {payment : Payment}
  {amountCents : Option Int} {order : RefundOrder}

theorem refundPayment_of_error (hpayment : db.getPayment paymentId = some payment)
    {e : BillingError} (hcheck : payment.checkRefund settings amountCents = .error e) :
    db.refundPayment settings paymentId amountCents = .error e := by
  rw [refundPayment_eq hpayment, hcheck]
  rfl

/-- A refund that passes the checks is made if the provider accepts it. -/
theorem refundPayment_of_ok (hpayment : db.getPayment paymentId = some payment)
    (hcheck : payment.checkRefund settings amountCents = .ok order) :
    Run.commit db (db.refundPayment settings paymentId amountCents) =
      match order.provider.refund order.providerPaymentId order.amountCents with
      | .error _ => db
      | .ok () => db.applyRefund paymentId payment order.amountCents := by
  obtain ⟨hpositive, hwithin⟩ := checkRefund_ok hcheck
  have hrefund : db.refund paymentId order.amountCents =
      .ok (paymentId, db.applyRefund paymentId payment order.amountCents) := by
    unfold Ledger.refund
    rw [hpayment]
    dsimp only
    rw [if_neg (by omega), if_neg (by omega)]
  rw [refundPayment_eq hpayment, hcheck, Except.ok_bind]
  cases order.provider.refund order.providerPaymentId order.amountCents with
  | error e => rfl
  | ok result =>
      rw [Except.ok_bind, hrefund]
      rfl

theorem payments_applyRefund (refunded : Int) :
    (db.applyRefund paymentId payment refunded).payments =
      db.payments.set paymentId (payment.refund refunded) := by
  unfold Ledger.applyRefund
  cases db.getInvoice payment.invoiceId <;> rfl

/-- The refund of a payment changes the payment, and its invoice if there is one. -/
theorem refund_changesOnly_iff {organizationId : Id}
    (hpayment : db.getPayment paymentId = some payment)
    (hown : payment.organizationId = organizationId) (refunded : Int) :
    let db' := db.applyRefund paymentId payment refunded
    (ChangesOnly (fun i : Invoice => i.organizationId = organizationId) db.invoices
        db'.invoices ∧
      ChangesOnly (fun p : Payment => p.organizationId = organizationId) db.payments
        db'.payments) ↔
      ∀ invoice, db.getInvoice payment.invoiceId = some invoice →
        invoice.organizationId = organizationId ∨ invoice.debit refunded = invoice := by
  intro db'
  have hpayments : ChangesOnly (fun p : Payment => p.organizationId = organizationId)
      db.payments db'.payments := by
    rw [payments_applyRefund]
    exact .set hpayment hown hown
  rw [and_iff_left hpayments]
  cases hinvoice : db.getInvoice payment.invoiceId with
  | none =>
      have hinvoices : db'.invoices = db.invoices := by
        simp only [db', Ledger.applyRefund, hinvoice]
        rfl
      rw [hinvoices]
      exact iff_of_true (.refl _) fun invoice h => (nomatch h)
  | some invoice =>
      have hinvoices : db'.invoices =
          db.invoices.set payment.invoiceId (invoice.debit refunded) := by
        simp only [db', Ledger.applyRefund, hinvoice]
        rfl
      rw [hinvoices]
      constructor
      · rintro hchanges other hother
        cases hother
        by_cases hsame : invoice.debit refunded = invoice
        · exact .inr hsame
        · have hlt := (List.getElem?_eq_some_iff.mp hinvoice).1
          exact .inl (hchanges.owned_of_ne hinvoice (List.getElem?_set_self hlt) hsame)
      · intro h
        rcases h invoice rfl with horganization | hsame
        · exact .set hinvoice horganization
            ((Invoice.debit_organizationId invoice refunded).trans horganization)
        · rw [hsame, Table.set_same hinvoice]
          exact .refl _

end

/-! ## The routes stay inside -/

section

variable {settings : Settings} {db : BillingState} {userId organizationId : Id}
  {request : BillingRequest}

/-- A request whose call raises before the provider is asked. -/
theorem staysInside_of_error (huser : ManagesOnly db.access userId organizationId)
    (hattempt : ∃ e, (request.call settings).attempt db.ledger = .error e)
    (hasks : request.asks settings db.ledger = []) :
    StaysInside settings db userId organizationId request := by
  obtain ⟨e, hattempt⟩ := hattempt
  have hbody : request.body settings db userId organizationId = .error (.billing e) := by
    rw [body_of_managesOnly huser, hattempt]
  have hstep : request.step settings db userId organizationId = db := by
    rw [BillingRequest.step, hbody, Run.commit_error]
  refine ⟨?_, ?_, fun hasked => ?_, fun _ => ⟨⟨_, hbody⟩, hstep⟩⟩
  · rw [hstep]
    exact .refl _
  · rw [hstep]
    exact .refl _
  · rw [asked_of_managesOnly huser] at hasked
    exact absurd hasks hasked

/-- A request about what is the organization's own. -/
theorem staysInside_of_belongs (huser : ManagesOnly db.access userId organizationId)
    (hbelongs : request.Belongs db.ledger organizationId)
    (hchanges : ChangesOnly (fun i : Invoice => i.organizationId = organizationId)
        db.ledger.invoices ((request.call settings).step db.ledger).invoices ∧
      ChangesOnly (fun p : Payment => p.organizationId = organizationId)
        db.ledger.payments ((request.call settings).step db.ledger).payments) :
    StaysInside settings db userId organizationId request := by
  refine ⟨?_, ?_, fun _ => hbelongs, fun hnot => absurd hbelongs hnot⟩
  · rw [step_of_managesOnly huser]
    exact hchanges.1
  · rw [step_of_managesOnly huser]
    exact hchanges.2

theorem pay_staysInside_iff (huser : ManagesOnly db.access userId organizationId)
    (invoiceId : Id) (provider customerReference : Option String) (now later : DateTime) :
    StaysInside settings db userId organizationId
        (.payInvoice invoiceId provider customerReference now later) ↔
      KeepsToOwn settings db.ledger organizationId
        (.payInvoice invoiceId provider customerReference now later) := by
  constructor
  · intro h invoice hinvoice
    cases hcheck : invoice.checkCharge settings provider with
    | error e => exact .inr ⟨e, rfl⟩
    | ok asked =>
        left
        obtain ⟨found, hfound, hown⟩ := h.asked (by
          rw [asked_of_managesOnly huser]
          simp [BillingRequest.asks, hinvoice, hcheck])
        rw [hinvoice, Option.some.injEq] at hfound
        rw [hfound]
        exact hown
  · intro hkeeps
    cases hinvoice : db.ledger.getInvoice invoiceId with
    | none =>
        refine staysInside_of_error huser ⟨.notFound "Invoice not found." [], ?_⟩
          (by simp [BillingRequest.asks, hinvoice])
        simp [BillingRequest.call, LedgerCall.attempt, Ledger.chargeInvoice, hinvoice]
    | some invoice =>
        rcases hkeeps invoice hinvoice with hown | ⟨e, hcheck⟩
        · refine staysInside_of_belongs huser ⟨invoice, hinvoice, hown⟩ ?_
          rw [BillingRequest.call, LedgerCall.step_chargeInvoice, ← hown]
          exact charge_changesOnly hinvoice settings provider customerReference now later
        · refine staysInside_of_error huser ⟨e, ?_⟩
            (by simp [BillingRequest.asks, hinvoice, hcheck])
          simp [BillingRequest.call, LedgerCall.attempt, chargeInvoice_eq hinvoice, hcheck]

theorem refund_staysInside_iff (huser : ManagesOnly db.access userId organizationId)
    (paymentId : Id) (amountCents : Option Int) :
    StaysInside settings db userId organizationId (.refundPayment paymentId amountCents) ↔
      KeepsToOwn settings db.ledger organizationId (.refundPayment paymentId amountCents) := by
  have hstep := @step_of_managesOnly settings db userId organizationId
    (.refundPayment paymentId amountCents) huser
  rw [BillingRequest.call, LedgerCall.step_refundPayment] at hstep
  constructor
  · intro h payment order hpayment hcheck
    obtain ⟨found, hfound, hown⟩ := h.asked (by
      rw [asked_of_managesOnly huser]
      simp [BillingRequest.asks, hpayment, hcheck])
    rw [hpayment, Option.some.injEq] at hfound
    rw [← hfound] at hown
    refine ⟨hown, fun invoice hinvoice hrefund => ?_⟩
    have hchanges := And.intro h.invoices h.payments
    rw [hstep, refundPayment_of_ok hpayment hcheck, hrefund] at hchanges
    exact (refund_changesOnly_iff hpayment hown order.amountCents).mp hchanges invoice hinvoice
  · intro hkeeps
    cases hpayment : db.ledger.getPayment paymentId with
    | none =>
        refine staysInside_of_error huser ⟨.notFound "Payment not found." [], ?_⟩
          (by simp [BillingRequest.asks, hpayment])
        simp [BillingRequest.call, LedgerCall.attempt, Ledger.refundPayment, hpayment]
    | some payment =>
        cases hcheck : payment.checkRefund settings amountCents with
        | error e =>
            refine staysInside_of_error huser ⟨e, ?_⟩
              (by simp [BillingRequest.asks, hpayment, hcheck])
            simp [BillingRequest.call, LedgerCall.attempt, refundPayment_of_error hpayment hcheck]
        | ok order =>
            obtain ⟨hown, hinvoices⟩ := hkeeps payment order hpayment hcheck
            refine staysInside_of_belongs huser ⟨payment, hpayment, hown⟩ ?_
            rw [BillingRequest.call, LedgerCall.step_refundPayment,
              refundPayment_of_ok hpayment hcheck]
            cases hrefund : order.provider.refund order.providerPaymentId order.amountCents with
            | error e => exact ⟨.refl _, .refl _⟩
            | ok result =>
                exact (refund_changesOnly_iff hpayment hown order.amountCents).mpr
                  fun invoice hinvoice => hinvoices invoice hinvoice hrefund

end

/-- A request of a user who can manage one organization's billing stays inside it exactly
when it keeps to what is the organization's own. -/
theorem stays_inside_iff (settings : Settings) (db : BillingState) (userId organizationId : Id)
    (request : BillingRequest) (huser : ManagesOnly db.access userId organizationId) :
    StaysInside settings db userId organizationId request ↔
      KeepsToOwn settings db.ledger organizationId request := by
  cases request with
  | payInvoice invoiceId provider customerReference now later =>
      exact pay_staysInside_iff huser invoiceId provider customerReference now later
  | refundPayment paymentId amountCents => exact refund_staysInside_iff huser paymentId amountCents

/-! ## Two organizations -/

/-- Two organizations, each with its owner. -/
def twoOwners : AccessDb where
  users := [⟨true, false, none⟩, ⟨true, false, none⟩]
  roles :=
    [⟨"owner", some 0, defaultRolePermissions .owner⟩,
      ⟨"owner", some 1, defaultRolePermissions .owner⟩]
  members := [⟨0, 0, 0, none⟩, ⟨1, 1, 1, none⟩]

theorem first_managesOnly : ManagesOnly twoOwners 0 0 where
  ordinary := ⟨_, rfl, rfl, rfl, rfl⟩
  holds_iff other := by
    by_cases hother : 0 = other
    · subst hother
      exact iff_of_true (by decide) rfl
    · refine iff_of_false ?_ (Ne.symm hother)
      simp [AccessDb.Holds, AccessDb.getPermissionsForUser, AccessDb.rolesOf, twoOwners, hother]

theorem second_managesOnly : ManagesOnly twoOwners 1 1 where
  ordinary := ⟨_, rfl, rfl, rfl, rfl⟩
  holds_iff other := by
    by_cases hother : 1 = other
    · subst hother
      exact iff_of_true (by decide) rfl
    · refine iff_of_false ?_ (Ne.symm hother)
      simp [AccessDb.Holds, AccessDb.getPermissionsForUser, AccessDb.rolesOf, twoOwners, hother]

/-- An open invoice of the first organization. -/
def unpaidInvoice : BillingState := ⟨twoOwners, oneInvoice.invoices, []⟩

/-- A paid invoice of the first organization, with its payment. -/
def paidInvoice : BillingState :=
  ⟨twoOwners, tenDollars.invoice.row.toList, [tenDollars.payment.row]⟩

/-- The owner of the first organization has the payment refunded. -/
theorem own_refund_stays_inside :
    StaysInside acceptingSettings paidInvoice 0 0 (.refundPayment 0 none) := by
  refine (stays_inside_iff acceptingSettings paidInvoice 0 0 _ first_managesOnly).mpr ?_
  intro payment order hpayment _
  cases hpayment
  refine ⟨rfl, fun invoice hinvoice _ => ?_⟩
  cases hinvoice
  exact .inl rfl

/-- The owner of the second organization pays the invoice of the first, and has its
payment refunded. -/
theorem foreign_invoice_paid_and_refunded :
    let settings := oneChargeLibrary.settings "secret"
    let pay : BillingRequest := .payInvoice 0 none none 1738368000 1738368000
    let refund : BillingRequest := .refundPayment 0 none
    ManagesOnly twoOwners 1 1 ∧
      (pay.asked settings unpaidInvoice 1 1).length = 1 ∧
      (pay.step settings unpaidInvoice 1 1).ledger.invoices.map (·.amountPaidCents) = [1000] ∧
      ¬ StaysInside settings unpaidInvoice 1 1 pay ∧
      (refund.asked acceptingSettings paidInvoice 1 1).length = 1 ∧
      (refund.step acceptingSettings paidInvoice 1 1).ledger.payments.map (·.refundedCents) =
        [1000] ∧
      ¬ StaysInside acceptingSettings paidInvoice 1 1 refund := by
  refine ⟨second_managesOnly, by decide +kernel, by decide +kernel, fun h => ?_, by decide +kernel,
    by decide +kernel, fun h => ?_⟩
  · obtain ⟨invoice, hinvoice, hown⟩ := h.asked (by decide +kernel)
    cases hinvoice
    cases hown
  · obtain ⟨payment, hpayment, hown⟩ := h.asked (by decide +kernel)
    cases hpayment
    cases hown

end YoutubeFactory.Billing
