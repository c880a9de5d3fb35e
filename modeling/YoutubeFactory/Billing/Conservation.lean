import YoutubeFactory.Lib.Run
import YoutubeFactory.Lib.Table
import YoutubeFactory.Billing.Gateway
import Mathlib.Algebra.Order.Group.Int
import Mathlib.Algebra.Ring.Int.Defs

/-!
# Conservation of the ledger

The balance of an invoice is kept as a running total: a payment adds to it and a
refund takes from it.  `attempt_effect` says what a call that returns does to the
tables: nothing, one payment recorded, or one refund.  The invariant `Conserved`
is preserved by these three, so it holds after every history of calls, whatever
the providers answer.
-/

namespace YoutubeFactory.Billing

/-! ## Calls -/

/-- The calls that move money, each with what it is called with. -/
inductive LedgerCall where
  | recordPayment (invoiceId : Id) (amountCents : Int)
      (provider providerPaymentId : Option String) (now later : DateTime)
  | refund (paymentId : Id) (amountCents : Int)
  | chargeInvoice (settings : Settings) (invoiceId : Id)
      (providerSlug customerReference : Option String) (now later : DateTime)
  | refundPayment (settings : Settings) (paymentId : Id) (amountCents : Option Int)
  | handleWebhook (settings : Settings) (payload : List UInt8)
      (signature providerSlug : Option String) (now later : DateTime)

namespace LedgerCall

/-- The tables a call leaves, or what it raises. -/
def attempt (db : Ledger) : LedgerCall → Except BillingError (Unit × Ledger)
  | .recordPayment invoiceId amountCents provider providerPaymentId now later =>
      (db.recordPayment invoiceId amountCents provider providerPaymentId now later).map
        fun r => ((), r.2)
  | .refund paymentId amountCents => (db.refund paymentId amountCents).map fun r => ((), r.2)
  | .chargeInvoice settings invoiceId providerSlug customerReference now later =>
      (db.chargeInvoice settings invoiceId providerSlug customerReference now later).map
        fun r => ((), r.2)
  | .refundPayment settings paymentId amountCents =>
      (db.refundPayment settings paymentId amountCents).map fun r => ((), r.2)
  | .handleWebhook settings payload signature providerSlug now later =>
      (db.handleWebhook settings payload signature providerSlug now later).map fun r => ((), r.2)

/-- One call as a transaction. -/
def step (db : Ledger) (call : LedgerCall) : Ledger := Run.commit db (call.attempt db)

variable (db : Ledger) (settings : Settings) (now later : DateTime)

theorem step_recordPayment (invoiceId : Id) (amountCents : Int)
    (provider providerPaymentId : Option String) :
    (recordPayment invoiceId amountCents provider providerPaymentId now later).step db =
      Run.commit db
        (db.recordPayment invoiceId amountCents provider providerPaymentId now later) :=
  Run.commit_map _ fun _ => ()

theorem step_refund (paymentId : Id) (amountCents : Int) :
    (refund paymentId amountCents).step db = Run.commit db (db.refund paymentId amountCents) :=
  Run.commit_map _ fun _ => ()

theorem step_chargeInvoice (invoiceId : Id) (providerSlug customerReference : Option String) :
    (chargeInvoice settings invoiceId providerSlug customerReference now later).step db =
      Run.commit db
        (db.chargeInvoice settings invoiceId providerSlug customerReference now later) :=
  Run.commit_map _ fun _ => ()

theorem step_refundPayment (paymentId : Id) (amountCents : Option Int) :
    (refundPayment settings paymentId amountCents).step db =
      Run.commit db (db.refundPayment settings paymentId amountCents) :=
  Run.commit_map _ fun _ => ()

theorem step_handleWebhook (payload : List UInt8) (signature providerSlug : Option String) :
    (handleWebhook settings payload signature providerSlug now later).step db =
      Run.commit db
        (db.handleWebhook settings payload signature providerSlug now later) :=
  Run.commit_map _ fun _ => ()

end LedgerCall

/-! ## What a call does -/

/-- What a call that returns does to the tables. -/
inductive Effect (db : Ledger) : Ledger → Prop
  | nothing : Effect db db
  | recorded {invoiceId : Id} {invoice : Invoice} {amountCents : Int}
      {provider providerPaymentId : Option String} {now later : DateTime}
      (found : db.getInvoice invoiceId = some invoice) (positive : 0 < amountCents)
      (fresh : db.replayed providerPaymentId = none) :
      Effect db ((db.addPayment
        (invoice.payment invoiceId amountCents provider providerPaymentId now)).setInvoice
          invoiceId (invoice.credit amountCents later))
  | refunded {paymentId : Id} {payment : Payment} {amountCents : Int}
      (found : db.getPayment paymentId = some payment) (positive : 0 < amountCents)
      (within : payment.refundedCents + amountCents ≤ payment.amountCents) :
      Effect db (db.applyRefund paymentId payment amountCents)

theorem recordPayment_effect {db db' : Ledger} {invoiceId id : Id} {amountCents : Int}
    {provider providerPaymentId : Option String} {now later : DateTime}
    (h : db.recordPayment invoiceId amountCents provider providerPaymentId now later =
      .ok (id, db')) : Effect db db' := by
  unfold Ledger.recordPayment at h
  split at h
  · cases h
  · next hpositive =>
      split at h
      · cases h
        exact .nothing
      · next hfresh =>
          split at h
          · cases h
          · next hfound =>
              split at h
              · cases h
              · cases h
                exact .recorded hfound (by omega) hfresh

theorem refund_effect {db db' : Ledger} {paymentId id : Id} {amountCents : Int}
    (h : db.refund paymentId amountCents = .ok (id, db')) : Effect db db' := by
  unfold Ledger.refund at h
  split at h
  · cases h
  · next hfound =>
      split at h
      · cases h
      · next hpositive =>
          split at h
          · cases h
          · next hwithin =>
              cases h
              exact .refunded hfound (by omega) (by omega)

theorem chargeInvoice_effect {db db' : Ledger} {settings : Settings} {invoiceId : Id}
    {providerSlug customerReference : Option String} {now later : DateTime}
    {outcome : ChargeOutcome}
    (h : db.chargeInvoice settings invoiceId providerSlug customerReference now later =
      .ok (outcome, db')) : Effect db db' := by
  unfold Ledger.chargeInvoice at h
  split at h
  · cases h
  · split at h
    · cases h
    · split at h
      · cases h
      · obtain ⟨provider, -, h⟩ := Except.bind_eq_ok.mp h
        obtain ⟨result, -, h⟩ := Except.bind_eq_ok.mp h
        split at h
        · cases h
          exact .nothing
        · obtain ⟨⟨payment, db₁⟩, hrecord, h⟩ := Except.bind_eq_ok.mp h
          cases h
          exact recordPayment_effect hrecord

theorem refundPayment_effect {db db' : Ledger} {settings : Settings} {paymentId id : Id}
    {amountCents : Option Int}
    (h : db.refundPayment settings paymentId amountCents = .ok (id, db')) : Effect db db' := by
  unfold Ledger.refundPayment at h
  split at h
  · cases h
  · dsimp only at h
    split at h
    · cases h
    · split at h
      · cases h
      · split at h
        · cases h
        · obtain ⟨provider, -, h⟩ := Except.bind_eq_ok.mp h
          obtain ⟨-, -, h⟩ := Except.bind_eq_ok.mp h
          exact refund_effect h

theorem applySettlement_effect {db db' : Ledger} {settings : Settings} {providerSlug : String}
    {event : WebhookEvent} {now later : DateTime} {result : Unit}
    (h : db.applySettlement settings providerSlug event now later = .ok (result, db')) :
    Effect db db' := by
  unfold Ledger.applySettlement at h
  split at h
  · split at h
    · split at h
      · cases h
        exact .nothing
      · obtain ⟨number, -, h⟩ := Except.bind_eq_ok.mp h
        split at h
        · cases h
        · obtain ⟨⟨payment, db₁⟩, hrecord, h⟩ := Except.bind_eq_ok.mp h
          cases h
          exact recordPayment_effect hrecord
    · cases h
  · cases h

theorem handleWebhook_effect {db db' : Ledger} {settings : Settings} {payload : List UInt8}
    {signature providerSlug : Option String} {now later : DateTime} {event : WebhookEvent}
    (h : db.handleWebhook settings payload signature providerSlug now later =
      .ok (event, db')) : Effect db db' := by
  unfold Ledger.handleWebhook at h
  obtain ⟨provider, -, h⟩ := Except.bind_eq_ok.mp h
  obtain ⟨event', -, h⟩ := Except.bind_eq_ok.mp h
  split at h
  · obtain ⟨⟨result, db₁⟩, hsettle, h⟩ := Except.bind_eq_ok.mp h
    cases h
    exact applySettlement_effect hsettle
  · cases h
    exact .nothing

/-- Every call that returns records one payment, makes one refund or does nothing. -/
theorem attempt_effect {db db' : Ledger} {call : LedgerCall} {result : Unit}
    (h : call.attempt db = .ok (result, db')) : Effect db db' := by
  cases call with
  | recordPayment =>
      obtain ⟨r, hr, heq⟩ := Except.map_eq_ok.mp h
      cases heq
      exact recordPayment_effect hr
  | refund =>
      obtain ⟨r, hr, heq⟩ := Except.map_eq_ok.mp h
      cases heq
      exact refund_effect hr
  | chargeInvoice =>
      obtain ⟨r, hr, heq⟩ := Except.map_eq_ok.mp h
      cases heq
      exact chargeInvoice_effect hr
  | refundPayment =>
      obtain ⟨r, hr, heq⟩ := Except.map_eq_ok.mp h
      cases heq
      exact refundPayment_effect hr
  | handleWebhook =>
      obtain ⟨r, hr, heq⟩ := Except.map_eq_ok.mp h
      cases heq
      exact handleWebhook_effect hr

/-! ## The invariant -/

/-- What the customer has paid and not got back. -/
def Payment.net (payment : Payment) : Int := payment.amountCents - payment.refundedCents

namespace Ledger

/-- The payments of an invoice. -/
def paymentsOf (db : Ledger) (invoiceId : Id) : List Payment :=
  db.payments.filter fun p => p.invoiceId = invoiceId

/-- The net sum of the payments of an invoice. -/
def netPaid (db : Ledger) (invoiceId : Id) : Int :=
  ((db.paymentsOf invoiceId).map Payment.net).sum

end Ledger

/-- A payment that is consistent in itself. -/
structure Payment.Sound (payment : Payment) : Prop where
  positive : 0 < payment.amountCents
  refunded_nonneg : 0 ≤ payment.refundedCents
  refunded_le : payment.refundedCents ≤ payment.amountCents
  status : payment.status = .refunded ↔ payment.refundedCents = payment.amountCents

/-- The running totals are the sums, and the payments are sound. -/
structure Conserved (db : Ledger) : Prop where
  balance : ∀ id invoice, db.getInvoice id = some invoice →
    invoice.amountPaidCents = db.netPaid id
  sound : ∀ payment ∈ db.payments, payment.Sound

theorem Payment.Sound.net_nonneg {payment : Payment} (h : payment.Sound) : 0 ≤ payment.net := by
  have hle := h.refunded_le
  unfold Payment.net
  omega

/-- One payment is at most what was paid against its invoice. -/
theorem Conserved.net_le {db : Ledger} (h : Conserved db) {id : Id} {payment : Payment}
    (hp : db.getPayment id = some payment) : payment.net ≤ db.netPaid payment.invoiceId := by
  have hmem : payment ∈ db.payments := List.mem_of_getElem? hp
  refine List.single_le_sum ?_ _ (List.mem_map_of_mem ?_)
  · intro net hnet
    obtain ⟨p, hp, rfl⟩ := List.mem_map.mp hnet
    exact (h.sound p (List.mem_of_mem_filter hp)).net_nonneg
  · rw [Ledger.paymentsOf, List.mem_filter]
    exact ⟨hmem, by simp⟩

/-- The clamp of a refund never changes a value. -/
theorem Conserved.clamp_idle {db : Ledger} (h : Conserved db) {id : Id} {payment : Payment}
    {invoice : Invoice} {amountCents : Int} (hp : db.getPayment id = some payment)
    (hi : db.getInvoice payment.invoiceId = some invoice)
    (hwithin : payment.refundedCents + amountCents ≤ payment.amountCents) :
    max (invoice.amountPaidCents - amountCents) 0 = invoice.amountPaidCents - amountCents := by
  have hnet := h.net_le hp
  rw [h.balance _ _ hi]
  unfold Payment.net at hnet
  omega

/-! ## Every effect keeps it -/

namespace Ledger

/-- The invoice at an id after one of them is replaced. -/
theorem getInvoice_setInvoice {db : Ledger} {id : Id} {invoice old : Invoice}
    (hold : db.getInvoice id = some old) (k : Id) :
    (db.setInvoice id invoice).getInvoice k =
      if k = id then some invoice else db.getInvoice k := by
  have hlt : id < db.invoices.length := (List.getElem?_eq_some_iff.mp hold).1
  unfold getInvoice setInvoice
  by_cases hk : k = id
  · rw [if_pos hk, hk, List.getElem?_set_self hlt]
  · rw [if_neg hk, List.getElem?_set_ne (Ne.symm hk)]

theorem getInvoice_applyRefund (db : Ledger) (id paymentId : Id) (payment : Payment)
    (amountCents : Int) :
    (db.applyRefund paymentId payment amountCents).getInvoice id =
      if id = payment.invoiceId then (db.getInvoice id).map (·.debit amountCents)
      else db.getInvoice id := by
  unfold applyRefund
  dsimp only
  cases hinvoice : db.getInvoice payment.invoiceId with
  | none =>
      dsimp only
      split
      · next hid =>
          rw [hid, hinvoice]
          exact hinvoice
      · rfl
  | some invoice =>
      have hset : (db.setPayment paymentId (payment.refund amountCents)).getInvoice
          payment.invoiceId = some invoice := hinvoice
      dsimp only
      rw [getInvoice_setInvoice hset]
      split
      · next hid => rw [hid, hinvoice, Option.map_some]
      · rfl

/-- The payment after its refund. -/
theorem getPayment_applyRefund {db : Ledger} {paymentId : Id} {payment : Payment}
    (hpayment : db.getPayment paymentId = some payment) (amountCents : Int) :
    (db.applyRefund paymentId payment amountCents).getPayment paymentId =
      some (payment.refund amountCents) := by
  have hlt : paymentId < db.payments.length := (List.getElem?_eq_some_iff.mp hpayment).1
  unfold applyRefund
  dsimp only
  split <;> exact List.getElem?_set_self hlt

theorem netPaid_addPayment (db : Ledger) (payment : Payment) (k : Id) :
    (db.addPayment payment).netPaid k =
      db.netPaid k + if payment.invoiceId = k then payment.net else 0 := by
  unfold netPaid paymentsOf addPayment
  rw [List.filter_append, List.map_append, List.sum_append]
  by_cases h : payment.invoiceId = k <;> simp [h]

theorem netPaid_setPayment {db : Ledger} {id : Id} {payment old : Payment}
    (hold : db.getPayment id = some old) (hinvoice : payment.invoiceId = old.invoiceId) (k : Id) :
    (db.setPayment id payment).netPaid k =
      db.netPaid k + if old.invoiceId = k then payment.net - old.net else 0 := by
  unfold netPaid paymentsOf setPayment
  rw [Table.sum_map_filter_set (fun p => decide (p.invoiceId = k)) Payment.net
    (by rw [hinvoice]) hold]
  simp only [decide_eq_true_eq]

end Ledger

theorem Conserved.recorded {db : Ledger} (h : Conserved db) {invoiceId : Id} {invoice : Invoice}
    {payment : Payment} {later : DateTime} (hfound : db.getInvoice invoiceId = some invoice)
    (hinvoice : payment.invoiceId = invoiceId) (hnew : payment.refundedCents = 0)
    (hsound : payment.Sound) :
    Conserved ((db.addPayment payment).setInvoice invoiceId
      (invoice.credit payment.amountCents later)) where
  balance k i hi := by
    have hfound' : (db.addPayment payment).getInvoice invoiceId = some invoice := hfound
    rw [Ledger.getInvoice_setInvoice hfound'] at hi
    have hnet : ((db.addPayment payment).setInvoice invoiceId
        (invoice.credit payment.amountCents later)).netPaid k =
        (db.addPayment payment).netPaid k := rfl
    rw [hnet, Ledger.netPaid_addPayment, hinvoice]
    by_cases hk : k = invoiceId
    · rw [if_pos hk] at hi
      cases hi
      subst hk
      rw [if_pos rfl, Invoice.credit_amountPaidCents, h.balance _ _ hfound, Payment.net, hnew]
      omega
    · rw [if_neg hk] at hi
      rw [if_neg (Ne.symm hk), h.balance k i hi]
      omega
  sound p hp := by
    rcases List.mem_append.mp hp with hp | hp
    · exact h.sound p hp
    · rw [List.mem_singleton.mp hp]
      exact hsound

theorem Payment.Sound.refund {payment : Payment} (h : payment.Sound) {amountCents : Int}
    (hpositive : 0 < amountCents)
    (hwithin : payment.refundedCents + amountCents ≤ payment.amountCents) :
    (payment.refund amountCents).Sound where
  positive := h.positive
  refunded_nonneg := by
    have hnonneg := h.refunded_nonneg
    show 0 ≤ payment.refundedCents + amountCents
    omega
  refunded_le := hwithin
  status := by
    show (if payment.refundedCents + amountCents = payment.amountCents then _ else _) = _ ↔
      payment.refundedCents + amountCents = payment.amountCents
    split
    · next heq => simp [heq]
    · next hne =>
        have hopen : payment.status ≠ .refunded := by
          rw [ne_eq, h.status]
          omega
        simp [hne, hopen]

theorem Conserved.refunded {db : Ledger} (h : Conserved db) {paymentId : Id} {payment : Payment}
    {amountCents : Int} (hfound : db.getPayment paymentId = some payment)
    (hpositive : 0 < amountCents)
    (hwithin : payment.refundedCents + amountCents ≤ payment.amountCents) :
    Conserved (db.applyRefund paymentId payment amountCents) := by
  have hnet : ∀ k, (db.setPayment paymentId (payment.refund amountCents)).netPaid k =
      db.netPaid k + if payment.invoiceId = k then -amountCents else 0 := by
    intro k
    have hold : (payment.refund amountCents).invoiceId = payment.invoiceId := rfl
    rw [Ledger.netPaid_setPayment hfound hold]
    have hdiff : (payment.refund amountCents).net - payment.net = -amountCents := by
      simp only [Payment.net, Payment.refund]
      omega
    rw [hdiff]
  have hsound : ∀ p ∈ (db.setPayment paymentId (payment.refund amountCents)).payments,
      p.Sound := by
    intro p hp
    rcases List.mem_or_eq_of_mem_set hp with hp | rfl
    · exact h.sound p hp
    · exact (h.sound payment (List.mem_of_getElem? hfound)).refund hpositive hwithin
  unfold Ledger.applyRefund
  dsimp only
  cases hinvoice : db.getInvoice payment.invoiceId with
  | none =>
      refine ⟨fun k i hi => ?_, hsound⟩
      have hk : payment.invoiceId ≠ k := by
        rintro rfl
        have hi' : db.getInvoice payment.invoiceId = some i := hi
        rw [hinvoice] at hi'
        cases hi'
      rw [hnet, if_neg hk, h.balance k i hi]
      omega
  | some invoice =>
      refine ⟨fun k i hi => ?_, hsound⟩
      have hinvoice' : (db.setPayment paymentId (payment.refund amountCents)).getInvoice
          payment.invoiceId = some invoice := hinvoice
      rw [Ledger.getInvoice_setInvoice hinvoice'] at hi
      have hnet' := hnet k
      show i.amountPaidCents =
        (db.setPayment paymentId (payment.refund amountCents)).netPaid k
      rw [hnet']
      by_cases hk : k = payment.invoiceId
      · rw [if_pos hk] at hi
        cases hi
        subst hk
        rw [if_pos rfl, Invoice.debit_amountPaidCents,
          h.clamp_idle hfound hinvoice hwithin, h.balance _ _ hinvoice]
        omega
      · rw [if_neg hk] at hi
        rw [if_neg (Ne.symm hk), h.balance k i hi]
        omega

theorem Conserved.effect {db db' : Ledger} (h : Conserved db) (he : Effect db db') :
    Conserved db' := by
  cases he with
  | nothing => exact h
  | recorded hfound hpositive _ =>
      refine h.recorded hfound rfl rfl ⟨hpositive, Int.le_refl 0, hpositive.le, ?_⟩
      constructor
      · intro hs
        cases hs
      · intro hr
        exact absurd hr hpositive.ne
  | refunded hfound hpositive hwithin => exact h.refunded hfound hpositive hwithin

/-! ## Histories -/

/-- Invoices nothing was paid against. -/
structure Opening where
  invoices : List Invoice
  unpaid : ∀ invoice ∈ invoices, invoice.amountPaidCents = 0

def Opening.ledger (opening : Opening) : Ledger := ⟨opening.invoices, []⟩

theorem Opening.conserved (opening : Opening) : Conserved opening.ledger where
  balance _ invoice hi := opening.unpaid invoice (List.mem_of_getElem? hi)
  sound _ hp := nomatch hp

/-- The state after a history of calls. -/
def Opening.after (opening : Opening) (calls : List LedgerCall) : Ledger :=
  Run.run LedgerCall.step opening.ledger calls

theorem Opening.after_conserved (opening : Opening) (calls : List LedgerCall) :
    Conserved (opening.after calls) := by
  refine Run.run_invariant (fun db call h => ?_) calls opening.conserved
  exact Run.commit_invariant h fun _ _ hok => h.effect (attempt_effect hok)

/-- After every history of calls the balance of an invoice is the net sum of its
payments, every payment is sound, and the clamp of a refund has nothing to do. -/
theorem ledger_conserved (opening : Opening) (calls : List LedgerCall) :
    let db := opening.after calls
    (∀ id invoice, db.getInvoice id = some invoice →
      invoice.amountPaidCents =
        ((db.paymentsOf id).map fun p => p.amountCents - p.refundedCents).sum) ∧
    (∀ payment ∈ db.payments, 0 < payment.amountCents ∧ 0 ≤ payment.refundedCents ∧
      payment.refundedCents ≤ payment.amountCents ∧
      (payment.status = .refunded ↔ payment.refundedCents = payment.amountCents)) ∧
    (∀ id amountCents id' db', db.refund id amountCents = .ok (id', db') →
      ∀ payment invoice, db.getPayment id = some payment →
        db.getInvoice payment.invoiceId = some invoice →
          max (invoice.amountPaidCents - amountCents) 0 =
            invoice.amountPaidCents - amountCents) := by
  have h := opening.after_conserved calls
  refine ⟨h.balance, fun payment hp => ?_, ?_⟩
  · have hs := h.sound payment hp
    exact ⟨hs.positive, hs.refunded_nonneg, hs.refunded_le, hs.status⟩
  · intro id amountCents id' db' hrefund payment invoice hp hi
    unfold Ledger.refund at hrefund
    rw [hp] at hrefund
    dsimp only at hrefund
    split at hrefund
    · cases hrefund
    · split at hrefund
      · cases hrefund
      · next hwithin => exact h.clamp_idle hp hi (by omega)

end YoutubeFactory.Billing
