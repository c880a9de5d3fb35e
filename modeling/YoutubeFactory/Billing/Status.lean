import YoutubeFactory.Billing.Periods
import YoutubeFactory.Billing.Settlement

/-!
# The status of an invoice

The status is written at three places: when an invoice is issued, when a payment is
recorded and when one is refunded.  On an invoice with something to pay the three
agree with the balance (`status_follows_balance_iff`): an invoice over nothing is
issued open.

Of the calls that move money only `charge_invoice` looks for `VOID`.  A voided
invoice stays void as long as no payment of it is recorded that covers its total and
none is refunded that uncovers it (`void_absorbing_iff`).
-/

namespace YoutubeFactory.Billing

/-! ## What a call does to an invoice -/

/-- An invoice after a call: as it was, credited or debited. -/
inductive Invoice.Moved (invoice : Invoice) : Invoice → Prop
  | kept : Moved invoice invoice
  | credited {amountCents : Int} (positive : 0 < amountCents) (later : DateTime) :
      Moved invoice (invoice.credit amountCents later)
  | debited {amountCents : Int} (positive : 0 < amountCents) :
      Moved invoice (invoice.debit amountCents)

namespace Ledger

variable {db : Ledger} {id : Id}

theorem getInvoice_credited {invoiceId : Id} {invoice : Invoice} {amountCents : Int}
    {provider providerPaymentId : Option String} {now later : DateTime}
    (hinvoice : db.getInvoice invoiceId = some invoice) :
    (db.credited invoiceId invoice amountCents provider providerPaymentId now later).getInvoice id =
      if id = invoiceId then some (invoice.credit amountCents later) else db.getInvoice id := by
  have hadded : (db.addPayment (invoice.payment invoiceId amountCents provider providerPaymentId
      now)).getInvoice invoiceId = some invoice := hinvoice
  exact getInvoice_setInvoice hadded id

end Ledger

theorem Effect.moved {db db' : Ledger} (h : Effect db db') {id : Id} {invoice : Invoice}
    (hinvoice : db.getInvoice id = some invoice) :
    ∃ invoice', db'.getInvoice id = some invoice' ∧ invoice.Moved invoice' := by
  cases h with
  | nothing => exact ⟨invoice, hinvoice, .kept⟩
  | @recorded invoiceId found amountCents provider providerPaymentId now later hfound hpositive =>
      have hafter : ∀ k, (db.credited invoiceId found amountCents provider providerPaymentId now
          later).getInvoice k = if k = invoiceId then some (found.credit amountCents later)
            else db.getInvoice k := fun _ => Ledger.getInvoice_credited hfound
      unfold Ledger.credited at hafter
      rw [hafter]
      by_cases hid : id = invoiceId
      · rw [if_pos hid]
        rw [hid, hfound, Option.some.injEq] at hinvoice
        exact ⟨_, rfl, hinvoice ▸ .credited hpositive later⟩
      · rw [if_neg hid]
        exact ⟨invoice, hinvoice, .kept⟩
  | refunded _ hpositive _ =>
      rw [Ledger.getInvoice_applyRefund, hinvoice]
      split
      · exact ⟨_, rfl, .debited hpositive⟩
      · exact ⟨_, rfl, .kept⟩

/-- One call as a transaction. -/
theorem step_moved {db : Ledger} {id : Id} {invoice : Invoice}
    (hinvoice : db.getInvoice id = some invoice) (call : LedgerCall) :
    ∃ invoice', (call.step db).getInvoice id = some invoice' ∧ invoice.Moved invoice' := by
  unfold LedgerCall.step
  cases hcall : call.attempt db with
  | error e => exact ⟨invoice, hinvoice, .kept⟩
  | ok result => exact (attempt_effect hcall).moved hinvoice

/-! ## The status follows the balance -/

/-- Paid, with a moment, when the total is covered, and open without one otherwise. -/
def Invoice.FollowsBalance (invoice : Invoice) : Prop :=
  (invoice.totalCents ≤ invoice.amountPaidCents →
      invoice.status = .paid ∧ invoice.paidAt.isSome = true) ∧
    (invoice.amountPaidCents < invoice.totalCents →
      invoice.status = .open ∧ invoice.paidAt = none)

theorem Invoice.FollowsBalance.moved {invoice invoice' : Invoice} (h : invoice.FollowsBalance)
    (htotal : 0 < invoice.totalCents) (hmoved : invoice.Moved invoice') :
    invoice'.FollowsBalance ∧ 0 < invoice'.totalCents := by
  cases hmoved with
  | kept => exact ⟨h, htotal⟩
  | credited hpositive later =>
      unfold Invoice.credit Invoice.FollowsBalance
      dsimp only
      split
      · next hcovered =>
          exact ⟨⟨fun _ => ⟨rfl, rfl⟩, fun hopen => absurd hopen (by dsimp only; omega)⟩, htotal⟩
      · next hopen =>
          refine ⟨⟨fun hcovered => absurd hcovered hopen, fun _ => ?_⟩, htotal⟩
          exact h.2 (by omega)
  | debited hpositive =>
      unfold Invoice.debit Invoice.FollowsBalance
      dsimp only
      split
      · next hopen =>
          exact ⟨⟨fun hcovered => absurd hcovered (by dsimp only; omega), fun _ => ⟨rfl, rfl⟩⟩,
            htotal⟩
      · next hcovered =>
          refine ⟨⟨fun _ => ?_, fun hopen => absurd hopen hcovered⟩, htotal⟩
          exact h.1 (by omega)

/-- What `close_period` issues: an open invoice over the fee and the overage. -/
theorem closePeriod_invoice {books books' : Books} {subscriptionId id : Id} {now : DateTime}
    {subscription : Subscription} {plan : Plan}
    (hsubscription : books.subscriptions[subscriptionId]? = some subscription)
    (hplan : books.plans[subscription.planId]? = some plan)
    (h : books.closePeriod subscriptionId now = .ok (id, books')) :
    ∃ invoice, books'.getInvoice id = some invoice ∧ invoice.status = .open ∧
      invoice.paidAt = none ∧ invoice.amountPaidCents = 0 ∧
      invoice.totalCents = plan.priceCents + ((plan.overageItems (books.usage.filter
        (UsageRecord.uninvoiced subscription.organizationId
          subscription.currentPeriodEnd.date))).map LineItem.amountCents).sum := by
  unfold Books.closePeriod at h
  rw [hsubscription] at h
  dsimp only at h
  rw [hplan] at h
  obtain ⟨number, -, h⟩ := Except.bind_eq_ok.mp h
  split at h
  · cases h
  · cases h
    exact ⟨_, List.getElem?_concat_length, rfl, rfl, rfl, rfl⟩

/-- In every state that payments, refunds, charges and callbacks lead to from the moment
an invoice is issued its status follows its balance, if and only if there is something to
pay on it. -/
theorem status_follows_balance_iff (books books' : Books) (subscriptionId id : Id)
    (now : DateTime) (subscription : Subscription) (plan : Plan)
    (hsubscription : books.subscriptions[subscriptionId]? = some subscription)
    (hplan : books.plans[subscription.planId]? = some plan)
    (h : books.closePeriod subscriptionId now = .ok (id, books')) (calls : List LedgerCall) :
    Run.Always LedgerCall.step
        (fun db => ∃ invoice, db.getInvoice id = some invoice ∧ invoice.FollowsBalance)
        books'.toLedger calls ↔
      0 < plan.priceCents + ((plan.overageItems (books.usage.filter
        (UsageRecord.uninvoiced subscription.organizationId
          subscription.currentPeriodEnd.date))).map LineItem.amountCents).sum := by
  obtain ⟨invoice, hinvoice, hopen, hunpaid, hzero, htotal⟩ :=
    closePeriod_invoice hsubscription hplan h
  rw [← htotal]
  constructor
  · intro halways
    obtain ⟨invoice', hinvoice', hfollows⟩ := halways.head
    rw [hinvoice, Option.some.injEq] at hinvoice'
    subst hinvoice'
    by_contra hnothing
    have hpaid := (hfollows.1 (by omega)).1
    rw [hopen] at hpaid
    cases hpaid
  · intro hpositive
    have hissued : ∃ i, books'.getInvoice id = some i ∧ i.FollowsBalance ∧ 0 < i.totalCents :=
      ⟨invoice, hinvoice, ⟨fun hcovered => absurd hcovered (by omega),
        fun _ => ⟨hopen, hunpaid⟩⟩, hpositive⟩
    have hall : Run.Always LedgerCall.step (fun db => ∃ i, db.getInvoice id = some i ∧
        i.FollowsBalance ∧ 0 < i.totalCents) books'.toLedger calls := by
      refine Run.always_of_invariant (fun db call hdb => ?_) calls hissued
      obtain ⟨i, hi, hfollows, hi_positive⟩ := hdb
      obtain ⟨i', hi', hmoved⟩ := step_moved hi call
      exact ⟨i', hi', hfollows.moved hi_positive hmoved⟩
    exact hall.imp fun db ⟨i, hi, hfollows, _⟩ => ⟨i, hi, hfollows⟩

/-- A plan without quotas, its subscription and no usage. -/
def monthlyBooks (priceCents : Int) : Books where
  invoices := []
  payments := []
  plans := [⟨"Basic", "monthly", priceCents, "USD", ∅, ∅⟩]
  subscriptions := [⟨0, 0, .active, 1735689600, 1738368000, 1735689600, none⟩]
  usage := []

/-- An invoice over 10 dollars follows its balance through a payment and its refund. -/
theorem monthly_status_follows : ∃ id books',
    (monthlyBooks 1000).closePeriod 0 1738368000 = .ok (id, books') ∧
      (Run.Always LedgerCall.step
          (fun db => ∃ invoice, db.getInvoice id = some invoice ∧ invoice.FollowsBalance)
          books'.toLedger [.recordPayment 0 1500 none none 1738368060 1738368060, .refund 0 600] ↔
        0 < (1000 : Int) + 0) :=
  ⟨_, _, rfl, status_follows_balance_iff (monthlyBooks 1000) _ 0 _ 1738368000 _ _ rfl rfl rfl _⟩

/-- The invoice of a free plan is issued open, with nothing to pay. -/
theorem free_invoice_open : ∃ id books' invoice,
    (monthlyBooks 0).closePeriod 0 1738368000 = .ok (id, books') ∧
      books'.getInvoice id = some invoice ∧ invoice.totalCents ≤ invoice.amountPaidCents ∧
      invoice.status = .open ∧ invoice.paidAt = none :=
  ⟨_, _, _, rfl, rfl, by decide, rfl, rfl⟩

/-! ## Voided invoices -/

/-- The refund is accepted: a positive amount within what is left of the payment. -/
def Payment.Refundable (payment : Payment) (amountCents : Int) : Prop :=
  0 < amountCents ∧ payment.refundedCents + amountCents ≤ payment.amountCents

/-- `refund_payment` passes its checks, and the provider makes the refund. -/
def Ledger.SendsRefund (db : Ledger) (settings : Settings) (paymentId : Id)
    (amountCents : Option Int) (amount : Int) : Prop :=
  ∃ payment providerPaymentId provider, db.getPayment paymentId = some payment ∧
    amount = amountCents.getD (payment.amountCents - payment.refundedCents) ∧
    payment.Refundable amount ∧ payment.providerPaymentId = some providerPaymentId ∧
    providerPaymentId ≠ "" ∧ settings.getProvider payment.provider = .ok provider ∧
    provider.refund providerPaymentId amount = .ok ()

/-- A refund of the amount takes the payment's invoice below its total. -/
def Uncovers (id : Id) (invoice : Invoice) (db : Ledger) (paymentId : Id) (amount : Int) : Prop :=
  ∃ payment, db.getPayment paymentId = some payment ∧ payment.invoiceId = id ∧
    payment.Refundable amount ∧ max (invoice.amountPaidCents - amount) 0 < invoice.totalCents

/-- The call records a payment that covers the total of a voided invoice, or makes a
refund that uncovers it. -/
def Reopens (id : Id) (db : Ledger) (call : LedgerCall) : Prop :=
  ∃ invoice, db.getInvoice id = some invoice ∧
    match call with
    | .recordPayment invoiceId amountCents _ providerPaymentId _ _ =>
        invoiceId = id ∧ db.Accepts amountCents providerPaymentId ∧
          invoice.totalCents ≤ invoice.amountPaidCents + amountCents
    | .refund paymentId amountCents => Uncovers id invoice db paymentId amountCents
    | .chargeInvoice _ _ _ _ _ _ => False
    | .refundPayment settings paymentId amountCents =>
        ∃ amount, db.SendsRefund settings paymentId amountCents amount ∧
          Uncovers id invoice db paymentId amount
    | .handleWebhook settings payload signature providerSlug _ _ =>
        ∃ s, db.settlement? settings ⟨payload, signature, providerSlug⟩ = some s ∧
          s.invoiceId = id ∧ db.Accepts s.amountCents (some s.providerPaymentId) ∧
          invoice.totalCents ≤ invoice.amountPaidCents + s.amountCents

namespace Ledger

variable {db : Ledger} {id : Id}

/-- The invoice of an id after a payment is recorded, or refused. -/
theorem getInvoice_step_recordPayment (db : Ledger) (id invoiceId : Id) (amountCents : Int)
    (provider providerPaymentId : Option String) (now later : DateTime) :
    ((LedgerCall.recordPayment invoiceId amountCents provider providerPaymentId now later).step
      db).getInvoice id =
      if invoiceId = id ∧ db.Accepts amountCents providerPaymentId then
        (db.getInvoice id).map (·.credit amountCents later)
      else db.getInvoice id := by
  by_cases haccepts : db.Accepts amountCents providerPaymentId
  · cases hinvoice : db.getInvoice invoiceId with
    | none =>
        have hmissing : (LedgerCall.recordPayment invoiceId amountCents provider providerPaymentId
            now later).step db = db := by
          rw [LedgerCall.step_recordPayment, recordPayment,
            if_neg (by have := haccepts.1; omega), haccepts.2.1, hinvoice]
          rfl
        rw [hmissing]
        split
        · next h =>
            rw [← h.1, hinvoice]
            rfl
        · rfl
    | some invoice =>
        rw [step_recordPayment_accepted hinvoice haccepts, getInvoice_credited hinvoice]
        by_cases hid : id = invoiceId
        · rw [if_pos hid, if_pos ⟨hid.symm, haccepts⟩, hid, hinvoice]
          rfl
        · rw [if_neg hid, if_neg fun h => hid h.1.symm]
  · rw [step_recordPayment_refused haccepts, if_neg fun h => haccepts h.2]

theorem step_refund_accepted {paymentId : Id} {payment : Payment} {amountCents : Int}
    (hpayment : db.getPayment paymentId = some payment) (h : payment.Refundable amountCents) :
    (LedgerCall.refund paymentId amountCents).step db =
      db.applyRefund paymentId payment amountCents := by
  obtain ⟨hpositive, hwithin⟩ := h
  rw [LedgerCall.step_refund, refund, hpayment]
  dsimp only
  rw [if_neg (by omega), if_neg (by omega)]
  rfl

theorem step_refund_refused {paymentId : Id} {amountCents : Int}
    (h : ∀ payment, db.getPayment paymentId = some payment → ¬ payment.Refundable amountCents) :
    (LedgerCall.refund paymentId amountCents).step db = db := by
  rw [LedgerCall.step_refund, refund]
  cases hpayment : db.getPayment paymentId with
  | none => rfl
  | some payment =>
      dsimp only
      split
      · rfl
      · split
        · rfl
        · exact absurd ⟨by omega, by omega⟩ (h payment hpayment)

/-- The amount a refund is sent for is determined. -/
theorem SendsRefund.amount_eq {settings : Settings} {paymentId : Id} {amountCents : Option Int}
    {amount amount' : Int} (h : db.SendsRefund settings paymentId amountCents amount)
    (h' : db.SendsRefund settings paymentId amountCents amount') : amount = amount' := by
  obtain ⟨payment, _, _, hpayment, hamount, _⟩ := h
  obtain ⟨payment', _, _, hpayment', hamount', _⟩ := h'
  rw [hpayment, Option.some.injEq] at hpayment'
  rw [hamount, hamount', hpayment']

/-- A refund through the provider is the refund, or nothing. -/
theorem step_refundPayment_sent {settings : Settings} {paymentId : Id} {amountCents : Option Int}
    {amount : Int} (h : db.SendsRefund settings paymentId amountCents amount) :
    (LedgerCall.refundPayment settings paymentId amountCents).step db =
      (LedgerCall.refund paymentId amount).step db := by
  obtain ⟨payment, providerPaymentId, provider, hpayment, hamount, hrefundable, hid, hne,
    hprovider, hmade⟩ := h
  obtain ⟨hpositive, hwithin⟩ := hrefundable
  rw [LedgerCall.step_refundPayment, refundPayment, hpayment]
  dsimp only
  rw [← hamount, if_neg (by omega), hid]
  dsimp only
  rw [if_neg hne, hprovider, Except.ok_bind, hmade, Except.ok_bind, LedgerCall.step_refund]

theorem step_refundPayment_unsent {settings : Settings} {paymentId : Id}
    {amountCents : Option Int}
    (h : ∀ amount, ¬ db.SendsRefund settings paymentId amountCents amount) :
    (LedgerCall.refundPayment settings paymentId amountCents).step db = db := by
  rw [LedgerCall.step_refundPayment, refundPayment]
  cases hpayment : db.getPayment paymentId with
  | none => rfl
  | some payment =>
      dsimp only
      split
      · rfl
      · next hwithin =>
          cases hid : payment.providerPaymentId with
          | none => rfl
          | some providerPaymentId =>
              dsimp only
              split
              · rfl
              · next hne =>
                  cases hprovider : settings.getProvider payment.provider with
                  | error e => rfl
                  | ok provider =>
                      rw [Except.ok_bind]
                      cases hmade : provider.refund providerPaymentId (amountCents.getD
                          (payment.amountCents - payment.refundedCents)) with
                      | error e => rfl
                      | ok u =>
                          refine absurd ⟨payment, providerPaymentId, provider, hpayment, rfl,
                            ⟨by omega, by omega⟩, hid, hne, hprovider, hmade⟩ (h _)

/-- A charge of another invoice, or of one that is void, leaves the invoice alone. -/
theorem getInvoice_step_chargeInvoice {settings : Settings} {invoiceId : Id}
    {providerSlug customerReference : Option String} {now later : DateTime} {invoice : Invoice}
    (hinvoice : db.getInvoice id = some invoice) (hvoid : invoice.status = .void) :
    ((LedgerCall.chargeInvoice settings invoiceId providerSlug customerReference now later).step
      db).getInvoice id = some invoice := by
  by_cases hid : invoiceId = id
  · have hrefused : (LedgerCall.chargeInvoice settings invoiceId providerSlug customerReference now
        later).step db = db := by
      rw [LedgerCall.step_chargeInvoice, chargeInvoice, hid, hinvoice]
      dsimp only
      rw [if_pos hvoid]
      rfl
    rw [hrefused, hinvoice]
  · have hother : ∀ amountCents provider providerPaymentId,
        ((LedgerCall.recordPayment invoiceId amountCents provider providerPaymentId now later).step
          db).getInvoice id = some invoice := by
      intro amountCents provider providerPaymentId
      rw [getInvoice_step_recordPayment, if_neg fun h => hid h.1, hinvoice]
    rw [LedgerCall.step_chargeInvoice, chargeInvoice]
    split
    · exact hinvoice
    · split
      · exact hinvoice
      · split
        · exact hinvoice
        · cases settings.getProvider providerSlug with
          | error e => exact hinvoice
          | ok provider =>
              rw [Except.ok_bind]
              generalize provider.charge _ = answer
              cases answer with
              | error e => exact hinvoice
              | ok result =>
                  rw [Except.ok_bind]
                  split
                  · exact hinvoice
                  · have hrecord := hother result.amountCents (some provider.slug)
                      (some result.providerPaymentId)
                    rw [LedgerCall.step_recordPayment] at hrecord
                    rw [Run.commit_bind _ fun _ => rfl, hrecord]

end Ledger

/-- The status is neither `OPEN` nor `PAID`. -/
def NotTakenUp (id : Id) (db : Ledger) : Prop :=
  ∀ invoice, db.getInvoice id = some invoice → invoice.status ≠ .open ∧ invoice.status ≠ .paid

theorem credit_not_taken_up {invoice : Invoice} (hvoid : invoice.status = .void) (amount : Int)
    (now : DateTime) :
    (invoice.credit amount now).status ≠ .open ∧ (invoice.credit amount now).status ≠ .paid ↔
      ¬ invoice.totalCents ≤ invoice.amountPaidCents + amount := by
  rw [Invoice.credit_status]
  split
  · next h => exact iff_of_false (fun hne => hne.2 rfl) fun hnot => hnot h
  · next h =>
      rw [hvoid]
      exact iff_of_true ⟨nofun, nofun⟩ h

theorem debit_not_taken_up {invoice : Invoice} (hvoid : invoice.status = .void) (amount : Int) :
    (invoice.debit amount).status ≠ .open ∧ (invoice.debit amount).status ≠ .paid ↔
      ¬ max (invoice.amountPaidCents - amount) 0 < invoice.totalCents := by
  rw [Invoice.debit_status]
  split
  · next h => exact iff_of_false (fun hne => hne.1 rfl) fun hnot => hnot h
  · next h =>
      rw [hvoid]
      exact iff_of_true ⟨nofun, nofun⟩ h

section

variable {db : Ledger} {id : Id} {invoice : Invoice}

theorem notTakenUp_iff {db' : Ledger} {invoice' : Invoice} (h : db'.getInvoice id = some invoice') :
    NotTakenUp id db' ↔ invoice'.status ≠ .open ∧ invoice'.status ≠ .paid :=
  ⟨fun hnot => hnot invoice' h, fun hnot i hi => by
    rw [h, Option.some.injEq] at hi
    exact hi ▸ hnot⟩

/-- A payment takes a voided invoice up when it is accepted for it and covers the total. -/
theorem notTakenUp_recordPayment (hinvoice : db.getInvoice id = some invoice)
    (hvoid : invoice.status = .void) (invoiceId : Id) (amountCents : Int)
    (provider providerPaymentId : Option String) (now later : DateTime) :
    NotTakenUp id ((LedgerCall.recordPayment invoiceId amountCents provider providerPaymentId now
        later).step db) ↔
      ¬ (invoiceId = id ∧ db.Accepts amountCents providerPaymentId ∧
        invoice.totalCents ≤ invoice.amountPaidCents + amountCents) := by
  have hafter := Ledger.getInvoice_step_recordPayment db id invoiceId amountCents provider
    providerPaymentId now later
  rw [hinvoice] at hafter
  by_cases h : invoiceId = id ∧ db.Accepts amountCents providerPaymentId
  · rw [if_pos h] at hafter
    rw [notTakenUp_iff hafter, credit_not_taken_up hvoid, ← and_assoc]
    simp [h]
  · rw [if_neg h] at hafter
    rw [notTakenUp_iff hafter, hvoid, ← and_assoc]
    exact iff_of_true ⟨nofun, nofun⟩ fun hall => h hall.1

/-- A refund takes a voided invoice up when it is accepted and uncovers the total. -/
theorem notTakenUp_refund (hinvoice : db.getInvoice id = some invoice)
    (hvoid : invoice.status = .void) (paymentId : Id) (amountCents : Int) :
    NotTakenUp id ((LedgerCall.refund paymentId amountCents).step db) ↔
      ¬ Uncovers id invoice db paymentId amountCents := by
  have hsame : NotTakenUp id db :=
    (notTakenUp_iff hinvoice).mpr (by rw [hvoid]; exact ⟨nofun, nofun⟩)
  by_cases h : ∃ payment, db.getPayment paymentId = some payment ∧ payment.Refundable amountCents
  · obtain ⟨payment, hpayment, hrefundable⟩ := h
    have huncovers : Uncovers id invoice db paymentId amountCents ↔ payment.invoiceId = id ∧
        max (invoice.amountPaidCents - amountCents) 0 < invoice.totalCents := by
      constructor
      · rintro ⟨other, hother, hid, -, hopen⟩
        rw [hpayment, Option.some.injEq] at hother
        exact ⟨hother ▸ hid, hopen⟩
      · exact fun ⟨hid, hopen⟩ => ⟨payment, hpayment, hid, hrefundable, hopen⟩
    rw [Ledger.step_refund_accepted hpayment hrefundable, huncovers]
    have hafter := db.getInvoice_applyRefund id paymentId payment amountCents
    rw [hinvoice] at hafter
    by_cases hid : id = payment.invoiceId
    · rw [if_pos hid, Option.map_some] at hafter
      rw [notTakenUp_iff hafter, debit_not_taken_up hvoid]
      simp [hid]
    · rw [if_neg hid] at hafter
      rw [notTakenUp_iff hafter, hvoid]
      exact iff_of_true ⟨nofun, nofun⟩ fun hall => hid hall.1.symm
  · rw [Ledger.step_refund_refused fun payment hpayment hrefundable =>
      h ⟨payment, hpayment, hrefundable⟩]
    exact iff_of_true hsame fun ⟨payment, hpayment, _, hrefundable, _⟩ =>
      h ⟨payment, hpayment, hrefundable⟩

/-- One call takes a voided invoice up exactly when it reopens it. -/
theorem notTakenUp_step_iff (hinvoice : db.getInvoice id = some invoice)
    (hvoid : invoice.status = .void) (call : LedgerCall) :
    NotTakenUp id (call.step db) ↔ ¬ Reopens id db call := by
  have hsame : NotTakenUp id db :=
    (notTakenUp_iff hinvoice).mpr (by rw [hvoid]; exact ⟨nofun, nofun⟩)
  have hreopens : ∀ P : Invoice → Prop, (∃ i, db.getInvoice id = some i ∧ P i) ↔ P invoice := by
    intro P
    rw [hinvoice]
    simp
  unfold Reopens
  rw [hreopens]
  cases call with
  | recordPayment invoiceId amountCents provider providerPaymentId now later =>
      exact notTakenUp_recordPayment hinvoice hvoid invoiceId amountCents provider
        providerPaymentId now later
  | refund paymentId amountCents => exact notTakenUp_refund hinvoice hvoid paymentId amountCents
  | chargeInvoice settings invoiceId providerSlug customerReference now later =>
      rw [notTakenUp_iff (Ledger.getInvoice_step_chargeInvoice hinvoice hvoid), hvoid]
      exact iff_of_true ⟨nofun, nofun⟩ fun h => h
  | refundPayment settings paymentId amountCents =>
      by_cases h : ∃ amount, db.SendsRefund settings paymentId amountCents amount
      · obtain ⟨amount, hsends⟩ := h
        rw [Ledger.step_refundPayment_sent hsends, notTakenUp_refund hinvoice hvoid]
        refine not_congr ⟨fun h => ⟨amount, hsends, h⟩, ?_⟩
        rintro ⟨amount', hsends', h⟩
        rwa [hsends.amount_eq hsends']
      · rw [Ledger.step_refundPayment_unsent fun amount hsends => h ⟨amount, hsends⟩]
        exact iff_of_true hsame fun ⟨amount, hsends, _⟩ => h ⟨amount, hsends⟩
  | handleWebhook settings payload signature providerSlug now later =>
      have hstep := step_handleWebhook db settings ⟨⟨payload, signature, providerSlug⟩, now, later⟩
      unfold Delivery.call at hstep
      rw [hstep]
      dsimp only
      cases db.settlement? settings ⟨payload, signature, providerSlug⟩ with
      | none => exact iff_of_true hsame nofun
      | some s =>
          refine (notTakenUp_recordPayment hinvoice hvoid s.invoiceId s.amountCents
            (some s.provider) (some s.providerPaymentId) now later).trans (not_congr ?_)
          simp

end

/-- The invoice is void, or has been taken up. -/
def VoidOrTakenUp (id : Id) (db : Ledger) : Prop :=
  ∃ invoice, db.getInvoice id = some invoice ∧
    (invoice.status = .void ∨ invoice.status = .open ∨ invoice.status = .paid)

theorem VoidOrTakenUp.step {id : Id} {db : Ledger} (h : VoidOrTakenUp id db) (call : LedgerCall) :
    VoidOrTakenUp id (call.step db) := by
  obtain ⟨invoice, hinvoice, hstatus⟩ := h
  obtain ⟨invoice', hinvoice', hmoved⟩ := step_moved hinvoice call
  refine ⟨invoice', hinvoice', ?_⟩
  cases hmoved with
  | kept => exact hstatus
  | credited _ later =>
      rw [Invoice.credit_status]
      split
      · exact .inr (.inr rfl)
      · exact hstatus
  | debited _ =>
      rw [Invoice.debit_status]
      split
      · exact .inr (.inl rfl)
      · exact hstatus

/-- From a state with a voided invoice on, its status never becomes `OPEN` or `PAID`, if
and only if no call of the history reopens it. -/
theorem void_absorbing_iff (db : Ledger) (id : Id) (invoice : Invoice)
    (hinvoice : db.getInvoice id = some invoice) (hvoid : invoice.status = .void)
    (calls : List LedgerCall) :
    Run.Always LedgerCall.step (NotTakenUp id) db calls ↔
      Run.EveryStep LedgerCall.step (fun db call => ¬ Reopens id db call) db calls := by
  have hinv : ∀ (db : Ledger) (call : LedgerCall), True → VoidOrTakenUp id db →
      VoidOrTakenUp id (call.step db) := fun _ call _ h => h.step call
  have hstep : ∀ (db : Ledger) (call : LedgerCall), True → VoidOrTakenUp id db →
      NotTakenUp id db → (NotTakenUp id (call.step db) ↔ ¬ Reopens id db call) := by
    intro db call _ ⟨i, hi, hstatus⟩ hnot
    obtain ⟨hopen, hpaid⟩ := hnot i hi
    exact notTakenUp_step_iff hi (hstatus.resolve_right (not_or.mpr ⟨hopen, hpaid⟩)) call
  have hstart : NotTakenUp id db :=
    (notTakenUp_iff hinvoice).mpr (by rw [hvoid]; exact ⟨nofun, nofun⟩)
  exact Run.always_iff_everyStep hinv hstep calls (Run.everyStep_of_forall fun _ _ => trivial)
    ⟨invoice, hinvoice, .inl hvoid⟩ hstart

/-- An invoice over 10 dollars that was voided after a payment of 4. -/
def voidedInvoice : Ledger where
  invoices := oneOpenInvoice.invoices.map fun i =>
    { i with status := .void, amountPaidCents := 400 }
  payments := [⟨0, 0, .succeeded, 400, "USD", none, none, 0, none, none⟩]

/-- A payment of 5 dollars leaves it void. -/
theorem void_after_small_payment :
    ∃ invoice, voidedInvoice.getInvoice 0 = some invoice ∧ invoice.status = .void ∧
      (Run.Always LedgerCall.step (NotTakenUp 0) voidedInvoice
          [.recordPayment 0 500 none none 1738368000 1738368000] ↔
        Run.EveryStep LedgerCall.step (fun db call => ¬ Reopens 0 db call) voidedInvoice
          [.recordPayment 0 500 none none 1738368000 1738368000]) ∧
      Run.Always LedgerCall.step (NotTakenUp 0) voidedInvoice
        [.recordPayment 0 500 none none 1738368000 1738368000] := by
  have hiff := void_absorbing_iff voidedInvoice 0 _ rfl rfl
    [.recordPayment 0 500 none none 1738368000 1738368000]
  refine ⟨_, rfl, rfl, hiff, hiff.mpr ⟨?_, trivial⟩⟩
  rintro ⟨invoice, hget, -, -, hcovered⟩
  cases hget
  revert hcovered
  decide

/-- A refund of the earlier payment opens it, and a payment of 6 dollars pays it. -/
theorem void_taken_up :
    ((LedgerCall.refund 0 400).step voidedInvoice).standing 0 = some (0, .open) ∧
      ((LedgerCall.recordPayment 0 600 none none 1738368000 1738368000).step
        voidedInvoice).standing 0 = some (1000, .paid) :=
  ⟨rfl, rfl⟩

end YoutubeFactory.Billing
