import YoutubeFactory.Lib.Interleaving
import YoutubeFactory.Lib.Versioned
import YoutubeFactory.Billing.Conservation

/-!
# Refunds of one payment at the same time

`refund_payment` with the places where it gives way: it reads the payment and checks
the amount, asks the provider, reads the invoice, writes both rows, and commits.
Each request has its own transaction, and the version column refuses a write over a
row that another transaction has written since it was read.

The provider has returned the money by then.  So the ledger agrees with the provider
after every run in which the provider is never asked while another request is under
way or on a payment that was written since, and after no other run to the end
(`refunds_agree_iff`).
-/

namespace YoutubeFactory.Billing

open Interleaving

/-! ## The steps of a request -/

/-- What the provider is asked for. -/
structure RefundOrder where
  provider : PaymentProvider
  providerPaymentId : String
  amountCents : Int

/-- The checks of `refund_payment` on the payment it has read. -/
def Payment.checkRefund (payment : Payment) (settings : Settings) (amountCents : Option Int) :
    Except BillingError RefundOrder :=
  let refundable := payment.amountCents - payment.refundedCents
  let amount := amountCents.getD refundable
  if amount ≤ 0 ∨ amount > refundable then
    .error (.validation s!"Refund must be between 1 and {refundable} cents."
      [("refundable_cents", .int refundable)])
  else
    match payment.providerPaymentId with
    | none => noReference
    | some providerPaymentId =>
        if providerPaymentId = "" then noReference
        else do
          let provider ← settings.getProvider payment.provider
          return { provider, providerPaymentId, amountCents := amount }
where
  noReference : Except BillingError RefundOrder :=
    .error (.validation ("This payment has no provider reference and cannot be refunded " ++
      "automatically.") [])

/-- `refund_payment` by itself is the checks, the provider and the refund. -/
theorem refundPayment_eq {db : Ledger} {settings : Settings} {paymentId : Id}
    {payment : Payment} (hpayment : db.getPayment paymentId = some payment)
    (amountCents : Option Int) :
    db.refundPayment settings paymentId amountCents =
      (do
        let order ← payment.checkRefund settings amountCents
        order.provider.refund order.providerPaymentId order.amountCents
        db.refund paymentId order.amountCents) := by
  unfold Ledger.refundPayment Payment.checkRefund
  rw [hpayment]
  dsimp only
  split
  · rfl
  · cases payment.providerPaymentId with
    | none => rfl
    | some id =>
        dsimp only
        split
        · rfl
        · cases settings.getProvider payment.provider with
          | error e => rfl
          | ok provider => rfl

/-- The amount that passes the checks. -/
theorem checkRefund_ok {payment : Payment} {settings : Settings} {amountCents : Option Int}
    {order : RefundOrder} (h : payment.checkRefund settings amountCents = .ok order) :
    0 < order.amountCents ∧ order.amountCents ≤ payment.amountCents - payment.refundedCents := by
  unfold Payment.checkRefund at h
  dsimp only at h
  split at h
  · cases h
  · next hamount =>
      split at h
      · cases h
      · split at h
        · cases h
        · obtain ⟨provider, -, h⟩ := Except.bind_eq_ok.mp h
          cases h
          dsimp only
          omega

/-- What all transactions see, and what the provider has done.  The invoice of the
payment is none if there is no such row. -/
structure RefundStore where
  payment : Versioned Payment
  invoice : Versioned (Option Invoice)
  /-- The row lock of a transaction that has written the payment and not committed. -/
  locked : Bool
  /-- The sum of the amounts the provider was asked to return and did not refuse. -/
  returnedCents : Int

/-- Where a request of `refund_payment` stands, with what its session has read. -/
inductive Refunding where
  /-- Called. -/
  | requested (amountCents : Option Int)
  /-- Before the answer of the provider. -/
  | asking (order : RefundOrder) (seen : Versioned Payment)
  /-- After it, before the invoice is read. -/
  | returned (amountCents : Int) (seen : Versioned Payment)
  /-- Before the flush. -/
  | updating (amountCents : Int) (seen : Versioned Payment) (invoice : Versioned (Option Invoice))
  /-- After the flush, before the commit. -/
  | written (amountCents : Int) (seen : Versioned Payment) (invoice : Versioned (Option Invoice))
  | ended

/-- The invoice row after a refund. -/
def debited (amountCents : Int) (invoice : Versioned (Option Invoice)) : Option Invoice :=
  invoice.row.map fun i => i.debit amountCents

/-- Whether the flush writes the invoice: an unchanged row is not written. -/
def writesInvoice (amountCents : Int) (invoice : Versioned (Option Invoice)) : Bool :=
  debited amountCents invoice ≠ invoice.row

namespace RefundStore

/-- A version check of the flush fails, `StaleDataError`. -/
def refuses (store : RefundStore) (amountCents : Int) (seen : Versioned Payment)
    (invoice : Versioned (Option Invoice)) : Bool :=
  seen.version ≠ store.payment.version ||
    (writesInvoice amountCents invoice && invoice.version ≠ store.invoice.version)

/-- The commit of a flushed refund. -/
def commit (store : RefundStore) (amountCents : Int) (seen : Versioned Payment)
    (invoice : Versioned (Option Invoice)) : RefundStore :=
  { store with
    payment := store.payment.write (seen.row.refund amountCents)
    invoice :=
      if writesInvoice amountCents invoice then store.invoice.write (debited amountCents invoice)
      else store.invoice
    locked := false }

end RefundStore

/-- A request goes on to its next await.  `answer` is what the provider answers, if it
is asked. -/
def Refunding.resume (settings : Settings) (store : RefundStore)
    (answer : Except BillingError Unit) : Refunding → RefundStore × Refunding
  | .requested amountCents =>
      match store.payment.row.checkRefund settings amountCents with
      | .error _ => (store, .ended)
      | .ok order => (store, .asking order store.payment)
  | .asking order seen =>
      match answer with
      | .error _ => (store, .ended)
      | .ok () =>
          ({ store with returnedCents := store.returnedCents + order.amountCents },
            .returned order.amountCents seen)
  | .returned amountCents seen =>
      -- `PaymentService.refund` gets the row its session has read already.
      if amountCents ≤ 0 then (store, .ended)
      else if seen.row.refundedCents + amountCents > seen.row.amountCents then (store, .ended)
      else (store, .updating amountCents seen store.invoice)
  | .updating amountCents seen invoice =>
      -- The UPDATE waits for the lock of the row.
      if store.locked then (store, .updating amountCents seen invoice)
      else if store.refuses amountCents seen invoice then (store, .ended)
      else ({ store with locked := true }, .written amountCents seen invoice)
  | .written amountCents seen invoice => (store.commit amountCents seen invoice, .ended)
  | .ended => (store, .ended)

/-- Any number of requests on one payment. -/
abbrev Refunds := System RefundStore Refunding

abbrev RefundTurn := Turn (Except BillingError Unit)

/-- One request goes on. -/
def Refunds.step (settings : Settings) : Refunds → RefundTurn → Refunds :=
  Interleaving.step (Refunding.resume settings)

/-! ## What a turn does -/

/-- The snapshot of a request whose refund the provider has made and the ledger has not. -/
def Refunding.flight : Refunding → Option (Versioned Payment)
  | .returned _ seen | .updating _ seen _ | .written _ seen _ => some seen
  | _ => none

/-- The amount of such a request. -/
def Refunding.heldCents : Refunding → Int
  | .returned amountCents _ | .updating amountCents _ _ | .written amountCents _ _ => amountCents
  | _ => 0

/-- The amount passed the checks on the payment as it was read. -/
structure Fits (store : RefundStore) (amountCents : Int) (seen : Versioned Payment) : Prop where
  positive : 0 < amountCents
  within : amountCents ≤ seen.row.amountCents - seen.row.refundedCents
  sees : store.payment.Sees seen

/-- What a request that has come so far knows. -/
def Refunding.Sound (store : RefundStore) : Refunding → Prop
  | .requested _ | .ended => True
  | .asking order seen => Fits store order.amountCents seen
  | .returned amountCents seen => Fits store amountCents seen
  | .updating amountCents seen invoice =>
      Fits store amountCents seen ∧
        (seen.version = store.payment.version → invoice = store.invoice)
  | .written amountCents seen invoice =>
      Fits store amountCents seen ∧ seen.version = store.payment.version ∧
        invoice = store.invoice ∧ store.locked = true

/-- The steps of a request that knows what it should. -/
inductive Refunding.Resumed (store : RefundStore) (answer : Except BillingError Unit) :
    Refunding → RefundStore → Refunding → Prop
  | waits (request : Refunding) : Refunding.Resumed store answer request store request
  | ends {request : Refunding} (notAsked : request.flight = none)
      (holdsNothing : request.heldCents = 0) : Refunding.Resumed store answer request store .ended
  | checked {amountCents : Option Int} {order : RefundOrder}
      (fits : Fits store order.amountCents store.payment) :
      Refunding.Resumed store answer (.requested amountCents) store (.asking order store.payment)
  | asked {order : RefundOrder} {seen : Versioned Payment} (accepted : answer = .ok ()) :
      Refunding.Resumed store answer (.asking order seen)
        { store with returnedCents := store.returnedCents + order.amountCents }
        (.returned order.amountCents seen)
  | read {amountCents : Int} {seen : Versioned Payment} :
      Refunding.Resumed store answer (.returned amountCents seen) store
        (.updating amountCents seen store.invoice)
  | refused {amountCents : Int} {seen : Versioned Payment} {invoice : Versioned (Option Invoice)}
      (stale : seen.version ≠ store.payment.version) :
      Refunding.Resumed store answer (.updating amountCents seen invoice) store .ended
  | wrote {amountCents : Int} {seen : Versioned Payment} {invoice : Versioned (Option Invoice)}
      (unlocked : store.locked = false) (current : seen.version = store.payment.version) :
      Refunding.Resumed store answer (.updating amountCents seen invoice)
        { store with locked := true } (.written amountCents seen invoice)
  | committed {amountCents : Int} {seen : Versioned Payment}
      {invoice : Versioned (Option Invoice)} :
      Refunding.Resumed store answer (.written amountCents seen invoice)
        (store.commit amountCents seen invoice) .ended

theorem checkRefund_fits {settings : Settings} {store : RefundStore} {amountCents : Option Int}
    {order : RefundOrder} (h : store.payment.row.checkRefund settings amountCents = .ok order) :
    Fits store order.amountCents store.payment :=
  ⟨(checkRefund_ok h).1, (checkRefund_ok h).2, .refl _⟩

/-- A flush is refused for the payment or not at all: where the payment is current,
the invoice is current too. -/
theorem refuses_iff {store : RefundStore} {amountCents : Int} {seen : Versioned Payment}
    {invoice : Versioned (Option Invoice)}
    (hinvoice : seen.version = store.payment.version → invoice = store.invoice) :
    store.refuses amountCents seen invoice = true ↔ seen.version ≠ store.payment.version := by
  constructor
  · intro h hcurrent
    simp [RefundStore.refuses, hcurrent, hinvoice hcurrent] at h
  · intro h
    simp [RefundStore.refuses, h]

theorem resume_cases (settings : Settings) {store : RefundStore}
    (answer : Except BillingError Unit) {request : Refunding} (h : request.Sound store) :
    Refunding.Resumed store answer request (request.resume settings store answer).1
      (request.resume settings store answer).2 := by
  cases request with
  | requested amountCents =>
      simp only [Refunding.resume]
      cases hcheck : store.payment.row.checkRefund settings amountCents with
      | error e => exact .ends rfl rfl
      | ok order => exact .checked (checkRefund_fits hcheck)
  | asking order seen =>
      cases answer with
      | error e => exact .ends rfl rfl
      | ok result => exact .asked rfl
  | returned amountCents seen =>
      have hpositive := h.positive
      have hwithin := h.within
      simp only [Refunding.resume]
      rw [if_neg (by omega), if_neg (by omega)]
      exact .read
  | updating amountCents seen invoice =>
      simp only [Refunding.resume]
      cases hlocked : store.locked with
      | true => exact .waits _
      | false =>
          rw [if_neg (by simp)]
          cases hrefuses : store.refuses amountCents seen invoice with
          | true => exact .refused ((refuses_iff h.2).mp hrefuses)
          | false =>
              refine .wrote hlocked ?_
              by_contra hstale
              rw [(refuses_iff h.2).mpr hstale] at hrefuses
              cases hrefuses
  | written amountCents seen invoice => exact .committed
  | ended => exact .waits _

/-! ## One request alone -/

/-- The invoice after the commit, written or not. -/
theorem commit_invoice_row (store : RefundStore) (amountCents : Int) (seen : Versioned Payment) :
    (store.commit amountCents seen store.invoice).invoice.row =
      debited amountCents store.invoice := by
  unfold RefundStore.commit
  dsimp only
  cases hwrites : writesInvoice amountCents store.invoice with
  | true => rfl
  | false =>
      have hsame : debited amountCents store.invoice = store.invoice.row := by
        simpa [writesInvoice] using hwrites
      exact hsame.symm

/-- A request that is alone takes five turns, and leaves the rows `refund_payment` leaves. -/
theorem refundPayment_alone (settings : Settings) {db : Ledger} {paymentId : Id}
    {payment : Payment} (hpayment : db.getPayment paymentId = some payment)
    (amountCents : Option Int) (answer : Except BillingError Unit)
    (hanswer : ∀ order, payment.checkRefund settings amountCents = .ok order →
      order.provider.refund order.providerPaymentId order.amountCents = answer)
    (version invoiceVersion : Nat) (returnedCents : Int) :
    let start : Refunds :=
      ⟨⟨⟨payment, version⟩, ⟨db.getInvoice payment.invoiceId, invoiceVersion⟩, false,
        returnedCents⟩, [.requested amountCents]⟩
    let left := (Run.run (Refunds.step settings) start (List.replicate 5 ⟨0, answer⟩)).store
    let db' := Run.commit db (db.refundPayment settings paymentId amountCents)
    db'.getPayment paymentId = some left.payment.row ∧
      db'.getInvoice payment.invoiceId = left.invoice.row := by
  intro start left db'
  cases hcheck : payment.checkRefund settings amountCents with
  | error e =>
      have hleft : left = start.store := by
        simp only [left, start, List.replicate, Run.run_cons, Run.run_nil, Refunds.step,
          Interleaving.step, List.getElem?_cons_zero, List.set_cons_zero, Refunding.resume, hcheck]
      have hdb : db' = db := by
        simp only [db', refundPayment_eq hpayment, hcheck]
        rfl
      rw [hleft, hdb]
      exact ⟨hpayment, rfl⟩
  | ok order =>
      have hdb : db' =
          Run.commit db (answer.bind fun _ => db.refund paymentId order.amountCents) := by
        simp only [db', refundPayment_eq hpayment, hcheck, ← hanswer order hcheck]
        rfl
      cases answer with
      | error e =>
          have hleft : left = start.store := by
            simp only [left, start, List.replicate, Run.run_cons, Run.run_nil, Refunds.step,
              Interleaving.step, List.getElem?_cons_zero, List.set_cons_zero, Refunding.resume,
              hcheck]
          rw [hleft, hdb]
          exact ⟨hpayment, rfl⟩
      | ok result =>
          obtain ⟨hpositive, hwithin⟩ := checkRefund_ok hcheck
          have hnonpositive : ¬ order.amountCents ≤ 0 := by omega
          have hexceeds : ¬ payment.amountCents < payment.refundedCents + order.amountCents := by
            omega
          have hrefund : db.refund paymentId order.amountCents =
              .ok (paymentId, db.applyRefund paymentId payment order.amountCents) := by
            unfold Ledger.refund
            rw [hpayment]
            dsimp only
            rw [if_neg hnonpositive, if_neg hexceeds]
          have hleft : left = RefundStore.commit
              { start.store with
                returnedCents := returnedCents + order.amountCents, locked := true }
              order.amountCents start.store.payment start.store.invoice := by
            simp [left, start, List.replicate, Refunds.step, Interleaving.step, Refunding.resume,
              hcheck, RefundStore.refuses, hnonpositive, hexceeds]
          have hdb' : db' = db.applyRefund paymentId payment order.amountCents := by
            rw [hdb, Except.bind, hrefund, Run.commit_ok]
          rw [hleft, hdb', Ledger.getPayment_applyRefund hpayment, Ledger.getInvoice_applyRefund,
            if_pos rfl]
          exact ⟨rfl, (commit_invoice_row { start.store with
            returnedCents := returnedCents + order.amountCents, locked := true } _ _).symm⟩

/-! ## What holds after every run -/

def Refunding.isWritten : Refunding → Bool
  | .written _ _ _ => true
  | _ => false

/-- The refunds in the ledger are within the payment, every request knows what it
should, and one of them at most has written the payment without committing. -/
def refundAssertion : Assertion RefundStore Refunding where
  store store := store.payment.row.refundedCents ≤ store.payment.row.amountCents
  proc store request := request.Sound store
  pair request other := ¬ (request.isWritten = true ∧ other.isWritten = true)
  symm _ _ h hboth := h hboth.symm

theorem Fits.of_payment {store store' : RefundStore} {amountCents : Int}
    {seen : Versioned Payment} (h : Fits store amountCents seen)
    (hpayment : store'.payment = store.payment) : Fits store' amountCents seen :=
  ⟨h.positive, h.within, by rw [hpayment]; exact h.sees⟩

/-- What a request knows does not depend on what the provider has returned, and a lock
that is taken does not disturb it. -/
theorem Refunding.Sound.of_same {store store' : RefundStore} {request : Refunding}
    (h : request.Sound store) (hpayment : store'.payment = store.payment)
    (hinvoice : store'.invoice = store.invoice)
    (hlocked : store.locked = true → store'.locked = true) : request.Sound store' := by
  cases request with
  | requested => trivial
  | asking => exact Fits.of_payment h hpayment
  | returned => exact Fits.of_payment h hpayment
  | updating => exact ⟨h.1.of_payment hpayment, by rw [hpayment, hinvoice]; exact h.2⟩
  | written =>
      refine ⟨h.1.of_payment hpayment, ?_, ?_, hlocked h.2.2.2⟩
      · rw [hpayment]
        exact h.2.1
      · rw [hinvoice]
        exact h.2.2.1
  | ended => trivial

/-- A commit leaves the other requests with what they know, unless they have written too. -/
theorem Refunding.Sound.commit {store : RefundStore} {request : Refunding}
    (hwritten : request.isWritten = false) (h : request.Sound store) (amountCents : Int)
    (seen : Versioned Payment) (invoice : Versioned (Option Invoice)) :
    request.Sound (store.commit amountCents seen invoice) := by
  have hfits : ∀ {amount read}, Fits store amount read →
      Fits (store.commit amountCents seen invoice) amount read :=
    fun hfits => ⟨hfits.positive, hfits.within, hfits.sees.write _⟩
  cases request with
  | requested => trivial
  | asking => exact hfits h
  | returned => exact hfits h
  | updating =>
      refine ⟨hfits h.1, fun hcurrent => ?_⟩
      exact absurd hcurrent (Nat.ne_of_lt (h.1.sees.lt_write _))
  | written => cases hwritten
  | ended => trivial

theorem Refunding.Resumed.keepsOwn {store store' : RefundStore} {answer : Except BillingError Unit}
    {request request' : Refunding} (h : Refunding.Resumed store answer request store' request')
    (hstore : refundAssertion.store store) (hsound : request.Sound store) :
    KeepsOwn refundAssertion store' request' := by
  cases h with
  | waits => exact ⟨hstore, hsound⟩
  | ends => exact ⟨hstore, trivial⟩
  | checked fits => exact ⟨hstore, fits⟩
  | asked => exact ⟨hstore, Fits.of_payment hsound rfl⟩
  | read => exact ⟨hstore, hsound, fun _ => rfl⟩
  | refused => exact ⟨hstore, trivial⟩
  | wrote unlocked current =>
      exact ⟨hstore, hsound.1.of_payment rfl, current, hsound.2 current, rfl⟩
  | @committed amountCents seen invoice =>
      refine ⟨?_, trivial⟩
      show seen.row.refundedCents + amountCents ≤ seen.row.amountCents
      have hwithin := hsound.1.within
      omega

theorem Refunding.Resumed.keepsOther {store store' : RefundStore}
    {answer : Except BillingError Unit} {request request' other : Refunding}
    (h : Refunding.Resumed store answer request store' request') (hsound : other.Sound store)
    (hpair : refundAssertion.pair request other) :
    KeepsOther refundAssertion store' request' other := by
  have hidle : ∀ {request : Refunding}, request.isWritten = false →
      refundAssertion.pair request other := by
    intro request hrequest hboth
    rw [hrequest] at hboth
    cases hboth.1
  cases h with
  | waits => exact ⟨hsound, hpair⟩
  | ends => exact ⟨hsound, hidle rfl⟩
  | checked => exact ⟨hsound, hidle rfl⟩
  | asked => exact ⟨hsound.of_same rfl rfl id, hidle rfl⟩
  | read => exact ⟨hsound, hidle rfl⟩
  | refused => exact ⟨hsound, hidle rfl⟩
  | wrote unlocked =>
      refine ⟨hsound.of_same rfl rfl fun _ => rfl, fun hboth => ?_⟩
      -- Another request that has written would hold the lock.
      cases other with
      | written =>
          rw [hsound.2.2.2] at unlocked
          cases unlocked
      | _ => cases hboth.2
  | committed =>
      have hother : other.isWritten = false := by
        cases hwritten : other.isWritten with
        | true => exact absurd ⟨rfl, hwritten⟩ hpair
        | false => rfl
      exact ⟨hsound.commit hother _ _ _, hidle rfl⟩

theorem refund_step {settings : Settings} {s : Refunds} (turn : RefundTurn)
    (h : Holds refundAssertion s) : Holds refundAssertion (s.step settings turn) := by
  refine h.step (fun p _ hp => ?_) (fun p _ q _ hp _ _ hq hpair => ?_)
  · exact (resume_cases settings turn.input hp).keepsOwn h.store hp
  · exact (resume_cases settings turn.input hp).keepsOther hq hpair

/-- A turn does nothing, or what a request that knows what it should does. -/
theorem refund_turn_cases {s : Refunds} (settings : Settings) (turn : RefundTurn)
    (h : Holds refundAssertion s) :
    s.step settings turn = s ∨ ∃ request store' request',
      s.procs[turn.proc]? = some request ∧ request.Sound s.store ∧
        Refunding.Resumed s.store turn.input request store' request' ∧
        s.step settings turn = ⟨store', s.procs.set turn.proc request'⟩ := by
  cases hrequest : s.procs[turn.proc]? with
  | none => exact .inl (step_of_none hrequest)
  | some request =>
      have hsound : request.Sound s.store := h.proc _ _ hrequest
      exact .inr ⟨request, _, _, rfl, hsound, resume_cases settings turn.input hsound,
        step_of_some hrequest⟩

/-! ## What the ledger owes -/

/-- What was returned beyond the refunds that are in the ledger or on their way there. -/
def Refunds.lostCents (s : Refunds) : Int :=
  s.store.returnedCents - s.store.payment.row.refundedCents -
    (s.procs.map Refunding.heldCents).sum

/-- What is lost when the flush of a request is refused. -/
def Refunding.droppedCents : Refunding → Refunding → Int
  | .updating amountCents _ _, .ended => amountCents
  | _, _ => 0

theorem Refunding.droppedCents_self (request : Refunding) : request.droppedCents request = 0 := by
  cases request <;> rfl

theorem Refunding.droppedCents_of_notAsked {request : Refunding} (h : request.flight = none)
    (request' : Refunding) : request.droppedCents request' = 0 := by
  cases request with
  | updating => cases h
  | _ => rfl

theorem lostCents_turn {s : Refunds} {i : Nat} {request request' : Refunding}
    {store' : RefundStore} {answer : Except BillingError Unit}
    (hrequest : s.procs[i]? = some request) (hsound : request.Sound s.store)
    (h : Refunding.Resumed s.store answer request store' request') :
    Refunds.lostCents ⟨store', s.procs.set i request'⟩ =
      s.lostCents + request.droppedCents request' := by
  have hsum := Table.sum_map_set Refunding.heldCents request' hrequest
  unfold Refunds.lostCents
  dsimp only
  cases h with
  | waits =>
      rw [Refunding.droppedCents_self]
      omega
  | ends notAsked holdsNothing =>
      have hended : Refunding.ended.heldCents = 0 := rfl
      rw [holdsNothing, hended] at hsum
      rw [Refunding.droppedCents_of_notAsked notAsked]
      omega
  | committed =>
      have hrow := hsound.1.sees.row_eq hsound.2.1
      simp only [Refunding.heldCents, Refunding.droppedCents, RefundStore.commit,
        Versioned.row_write, Payment.refund, hrow] at hsum ⊢
      omega
  | _ =>
      simp only [Refunding.heldCents, Refunding.droppedCents] at hsum ⊢
      omega

/-! ## Requests that ask one after the other -/

def Refunding.isEnded : Refunding → Bool
  | .ended => true
  | _ => false

namespace Refunds

/-- Requests that are called on one payment. -/
structure Starts (s : Refunds) : Prop where
  requested : ∀ request ∈ s.procs, ∃ amountCents, request = .requested amountCents
  refunded_le : s.store.payment.row.refundedCents ≤ s.store.payment.row.amountCents
  /-- What was refunded before was returned before. -/
  returned : s.store.returnedCents = s.store.payment.row.refundedCents

def AllEnded (s : Refunds) : Prop := ∀ request ∈ s.procs, request.isEnded = true

instance (s : Refunds) : Decidable s.AllEnded :=
  inferInstanceAs (Decidable (∀ request ∈ s.procs, request.isEnded = true))

/-- No more is returned than was paid, and in the end the ledger has what was returned. -/
def Agrees (s : Refunds) : Prop :=
  s.store.returnedCents ≤ s.store.payment.row.amountCents ∧
    (s.AllEnded → s.store.returnedCents = s.store.payment.row.refundedCents)

/-- The turn is not one in which the provider returns money for a request that has read
a payment written since, or while another request waits to record what it returned. -/
def AskedAlone (s : Refunds) (turn : RefundTurn) : Prop :=
  ∀ order seen, s.procs[turn.proc]? = some (.asking order seen) → turn.input = .ok () →
    seen.version = s.store.payment.version ∧ ∀ request ∈ s.procs, request.flight = none

/-- One request at most is in flight, on the payment as it is. -/
def aloneAssertion : Assertion RefundStore Refunding where
  store _ := True
  proc store request := ∀ seen, request.flight = some seen → seen.version = store.payment.version
  pair request other := request.flight = none ∨ other.flight = none
  symm _ _ h := h.symm

/-- The ledger has everything that was returned but what is in flight, and has room for
that. -/
structure Balanced (s : Refunds) : Prop where
  sound : Holds refundAssertion s
  alone : Holds aloneAssertion s
  lost : s.lostCents = 0
  room : (s.procs.map Refunding.heldCents).sum ≤
    s.store.payment.row.amountCents - s.store.payment.row.refundedCents

end Refunds

theorem Refunding.heldCents_eq_zero {request : Refunding} (h : request.flight = none) :
    request.heldCents = 0 := by
  cases request <;> first | rfl | cases h

theorem Refunding.flight_of_isEnded {request : Refunding} (h : request.isEnded = true) :
    request.flight = none := by
  cases request <;> first | rfl | cases h

theorem sum_heldCents_eq_zero {requests : List Refunding}
    (h : ∀ request ∈ requests, request.flight = none) :
    (requests.map Refunding.heldCents).sum = 0 := by
  refine List.sum_eq_zero fun held hheld => ?_
  obtain ⟨request, hrequest, rfl⟩ := List.mem_map.mp hheld
  exact Refunding.heldCents_eq_zero (h request hrequest)

namespace Refunds

variable {s : Refunds} {settings : Settings} {turn : RefundTurn}

/-- The start is balanced: nothing is in flight. -/
theorem Starts.balanced (h : s.Starts) : s.Balanced := by
  have hflight : ∀ request ∈ s.procs, request.flight = none := by
    intro request hrequest
    obtain ⟨amountCents, rfl⟩ := h.requested request hrequest
    rfl
  have hsum := sum_heldCents_eq_zero hflight
  have hrefunded := h.refunded_le
  refine ⟨⟨hrefunded, fun i p hp => ?_, fun i j p q _ hp _ hboth => ?_⟩,
    ⟨trivial, fun i p hp seen hseen => ?_, fun i j p q _ hp _ => ?_⟩, ?_, by omega⟩
  · obtain ⟨amountCents, rfl⟩ := h.requested p (List.mem_of_getElem? hp)
    trivial
  · obtain ⟨amountCents, rfl⟩ := h.requested p (List.mem_of_getElem? hp)
    cases hboth.1
  · rw [hflight p (List.mem_of_getElem? hp)] at hseen
    cases hseen
  · exact .inl (hflight p (List.mem_of_getElem? hp))
  · rw [lostCents, hsum, h.returned]
    omega

theorem Balanced.agrees (h : s.Balanced) : s.Agrees := by
  have hlost := h.lost
  have hroom := h.room
  rw [lostCents] at hlost
  refine ⟨by omega, fun hended => ?_⟩
  have hsum := sum_heldCents_eq_zero fun request hrequest =>
    Refunding.flight_of_isEnded (hended request hrequest)
  omega

theorem alone_step (hsound : Holds refundAssertion s) (h : Holds aloneAssertion s)
    (hasked : s.AskedAlone turn) : Holds aloneAssertion (s.step settings turn) := by
  refine h.step (fun p hp hcurrent => ?_) (fun p j q hp hcurrent _ hq hother hpair => ?_)
  · have hresumed := resume_cases settings turn.input (hsound.proc _ p hp)
    generalize p.resume settings s.store turn.input = next at hresumed ⊢
    obtain ⟨store', p'⟩ := next
    refine ⟨trivial, fun seen hseen => ?_⟩
    dsimp only at hresumed hseen ⊢
    cases hresumed with
    | waits => exact hcurrent seen hseen
    | asked accepted =>
        cases hseen
        exact (hasked _ _ hp accepted).1
    | read => exact hcurrent seen hseen
    | wrote => exact hcurrent seen hseen
    | _ => cases hseen
  · have hresumed := resume_cases settings turn.input (hsound.proc _ p hp)
    generalize p.resume settings s.store turn.input = next at hresumed ⊢
    obtain ⟨store', p'⟩ := next
    dsimp only at hresumed ⊢
    cases hresumed with
    | waits => exact ⟨hother, hpair⟩
    | asked accepted =>
        exact ⟨hother, .inr ((hasked _ _ hp accepted).2 q (List.mem_of_getElem? hq))⟩
    | read => exact ⟨hother, hpair⟩
    | wrote => exact ⟨hother, hpair⟩
    | committed =>
        -- The request that commits was the one in flight.
        have hq' : q.flight = none := hpair.resolve_left fun hnone => by cases hnone
        refine ⟨fun seen hseen => ?_, .inl rfl⟩
        rw [hq'] at hseen
        cases hseen
    | _ => exact ⟨hother, .inl rfl⟩

/-- The room for what is in flight, after a turn. -/
theorem room_turn {request request' : Refunding} {store' : RefundStore}
    (halone : Holds aloneAssertion s) (hasked : s.AskedAlone turn)
    (hroom : (s.procs.map Refunding.heldCents).sum ≤
      s.store.payment.row.amountCents - s.store.payment.row.refundedCents)
    (hrequest : s.procs[turn.proc]? = some request) (hsound : request.Sound s.store)
    (h : Refunding.Resumed s.store turn.input request store' request') :
    ((s.procs.set turn.proc request').map Refunding.heldCents).sum ≤
      store'.payment.row.amountCents - store'.payment.row.refundedCents := by
  have hsum := Table.sum_map_set Refunding.heldCents request' hrequest
  cases h with
  | waits => omega
  | ends _ holdsNothing =>
      have hended : Refunding.ended.heldCents = 0 := rfl
      rw [holdsNothing, hended] at hsum
      omega
  | asked accepted =>
      -- Nothing else is in flight, and the amount was checked on the row that is stored.
      obtain ⟨hcurrent, hflight⟩ := hasked _ _ hrequest accepted
      have hbefore := sum_heldCents_eq_zero hflight
      have hwithin := hsound.within
      rw [hsound.sees.row_eq hcurrent] at hwithin
      simp only [Refunding.heldCents] at hsum ⊢
      omega
  | refused stale => exact absurd (halone.proc _ _ hrequest _ rfl) stale
  | committed =>
      have hrow := hsound.1.sees.row_eq hsound.2.1
      simp only [Refunding.heldCents, RefundStore.commit, Versioned.row_write,
        Payment.refund, hrow] at hsum ⊢
      omega
  | _ =>
      simp only [Refunding.heldCents] at hsum ⊢
      omega

theorem Balanced.step (h : s.Balanced) (hasked : s.AskedAlone turn) :
    (s.step settings turn).Balanced := by
  have hsound' := @refund_step settings _ turn h.sound
  have halone' := @alone_step _ settings _ h.sound h.alone hasked
  rcases refund_turn_cases settings turn h.sound with
    hsame | ⟨request, store', request', hrequest, hsound, hresumed, hstep⟩
  · rw [hsame]
    exact h
  · refine ⟨hsound', halone', ?_, ?_⟩
    · have hdropped : request.droppedCents request' = 0 := by
        cases hresumed with
        | waits => exact request.droppedCents_self
        | ends notAsked => exact Refunding.droppedCents_of_notAsked notAsked _
        | refused stale => exact absurd (h.alone.proc _ _ hrequest _ rfl) stale
        | _ => rfl
      rw [hstep, lostCents_turn hrequest hsound hresumed, h.lost, hdropped, add_zero]
    · rw [hstep]
      exact room_turn h.alone hasked h.room hrequest hsound hresumed

/-! ## Requests that overlap -/

/-- A request in flight whose write will be refused. -/
def Stale (s : Refunds) : Prop :=
  ∃ (i : Nat) (request : Refunding) (seen : Versioned Payment), s.procs[i]? = some request ∧
    request.flight = some seen ∧ seen.version < s.store.payment.version

/-- Two requests in flight. -/
def Overlap (s : Refunds) : Prop :=
  ∃ (i j : Nat) (request other : Refunding), i ≠ j ∧ s.procs[i]? = some request ∧
    s.procs[j]? = some other ∧ request.flight ≠ none ∧ other.flight ≠ none

/-- Money was returned that will not reach the ledger. -/
def Broken (s : Refunds) : Prop := 0 < s.lostCents ∨ s.Stale ∨ s.Overlap

/-- Every request knows what it should, and the ledger is never ahead of the provider. -/
structure Accounted (s : Refunds) : Prop where
  sound : Holds refundAssertion s
  lost : 0 ≤ s.lostCents

theorem Balanced.accounted (h : s.Balanced) : s.Accounted := ⟨h.sound, h.lost.ge⟩

theorem droppedCents_nonneg {store store' : RefundStore} {answer : Except BillingError Unit}
    {request request' : Refunding} (hsound : request.Sound store)
    (h : Refunding.Resumed store answer request store' request') :
    0 ≤ request.droppedCents request' := by
  cases h with
  | waits => exact request.droppedCents_self.ge
  | ends notAsked => exact (Refunding.droppedCents_of_notAsked notAsked _).ge
  | refused => exact hsound.1.positive.le
  | _ => exact Int.le_refl 0

theorem lostCents_mono (turn : RefundTurn) (h : Holds refundAssertion s) :
    s.lostCents ≤ (s.step settings turn).lostCents := by
  rcases refund_turn_cases settings turn h with
    hsame | ⟨request, store', request', hrequest, hsound, hresumed, hstep⟩
  · rw [hsame]
  · have hdropped := droppedCents_nonneg hsound hresumed
    rw [hstep, lostCents_turn hrequest hsound hresumed]
    omega

theorem Accounted.step (h : s.Accounted) (turn : RefundTurn) :
    (s.step settings turn).Accounted where
  sound := refund_step turn h.sound
  lost := h.lost.trans (lostCents_mono turn h.sound)

/-- A request in flight stays in flight on the same payment, or is refused, or commits. -/
theorem flight_turn {store store' : RefundStore} {answer : Except BillingError Unit}
    {request request' : Refunding} {seen : Versioned Payment} (hsound : request.Sound store)
    (h : Refunding.Resumed store answer request store' request')
    (hflight : request.flight = some seen) :
    (request'.flight = some seen ∧ store'.payment = store.payment) ∨
      0 < request.droppedCents request' ∨
      (seen.version = store.payment.version ∧
        store.payment.version < store'.payment.version) := by
  cases h with
  | waits => exact .inl ⟨hflight, rfl⟩
  | ends notAsked =>
      rw [notAsked] at hflight
      cases hflight
  | checked => cases hflight
  | asked => cases hflight
  | read => exact .inl ⟨hflight, rfl⟩
  | refused => exact .inr (.inl hsound.1.positive)
  | wrote => exact .inl ⟨hflight, rfl⟩
  | committed =>
      cases hflight
      exact .inr (.inr ⟨hsound.2.1, Nat.lt_succ_self _⟩)

theorem version_turn {store store' : RefundStore} {answer : Except BillingError Unit}
    {request request' : Refunding} (h : Refunding.Resumed store answer request store' request') :
    store.payment.version ≤ store'.payment.version := by
  cases h with
  | committed => exact Nat.le_succ _
  | _ => exact Nat.le_refl _

/-- The row a request in flight has read is not newer than the one that is stored. -/
theorem version_le_of_flight {store : RefundStore} {request : Refunding}
    {seen : Versioned Payment} (hsound : request.Sound store)
    (hflight : request.flight = some seen) : seen.version ≤ store.payment.version := by
  cases request with
  | returned =>
      cases hflight
      exact hsound.sees.version_le
  | updating =>
      cases hflight
      exact hsound.1.sees.version_le
  | written =>
      cases hflight
      exact hsound.1.sees.version_le
  | _ => cases hflight

section

variable {request request' : Refunding} {store' : RefundStore}

/-- The requests after a turn: the one that took it, and the others. -/
theorem getElem?_turn_self (hrequest : s.procs[turn.proc]? = some request) :
    (s.procs.set turn.proc request')[turn.proc]? = some request' :=
  List.getElem?_set_self (List.getElem?_eq_some_iff.mp hrequest).1

theorem getElem?_turn_other {i : Nat} {other : Refunding} (hi : i ≠ turn.proc)
    (hother : s.procs[i]? = some other) : (s.procs.set turn.proc request')[i]? = some other := by
  rw [List.getElem?_set_ne (Ne.symm hi)]
  exact hother

theorem broken_of_dropped (h : s.Accounted) (hrequest : s.procs[turn.proc]? = some request)
    (hsound : request.Sound s.store)
    (hresumed : Refunding.Resumed s.store turn.input request store' request')
    (hdropped : 0 < request.droppedCents request') :
    Broken ⟨store', s.procs.set turn.proc request'⟩ := by
  have hlost := h.lost
  refine .inl ?_
  rw [lostCents_turn hrequest hsound hresumed]
  omega

theorem stale_turn (h : s.Accounted) (hstale : s.Stale)
    (hrequest : s.procs[turn.proc]? = some request) (hsound : request.Sound s.store)
    (hresumed : Refunding.Resumed s.store turn.input request store' request') :
    Broken ⟨store', s.procs.set turn.proc request'⟩ := by
  obtain ⟨i, late, seen, hlate, hflight, hlt⟩ := hstale
  by_cases hi : i = turn.proc
  · subst hi
    rw [hrequest, Option.some.injEq] at hlate
    subst hlate
    rcases flight_turn hsound hresumed hflight with ⟨hkept, hsame⟩ | hdropped | ⟨hcurrent, -⟩
    · refine .inr (.inl ⟨_, request', seen, getElem?_turn_self hrequest, hkept, ?_⟩)
      show seen.version < store'.payment.version
      rw [hsame]
      exact hlt
    · exact broken_of_dropped h hrequest hsound hresumed hdropped
    · exact absurd hcurrent (Nat.ne_of_lt hlt)
  · exact .inr (.inl ⟨i, late, seen, getElem?_turn_other hi hlate, hflight,
      Nat.lt_of_lt_of_le hlt (version_turn hresumed)⟩)

/-- Of two requests in flight the one that commits leaves the other stale. -/
theorem overlap_turn_self {j : Nat} {other : Refunding} (h : s.Accounted) (hj : j ≠ turn.proc)
    (hother : s.procs[j]? = some other) (hinflight : request.flight ≠ none)
    (hinflight' : other.flight ≠ none) (hrequest : s.procs[turn.proc]? = some request)
    (hsound : request.Sound s.store)
    (hresumed : Refunding.Resumed s.store turn.input request store' request') :
    Broken ⟨store', s.procs.set turn.proc request'⟩ := by
  obtain ⟨seen, hseen⟩ := Option.ne_none_iff_exists'.mp hinflight
  obtain ⟨read, hread⟩ := Option.ne_none_iff_exists'.mp hinflight'
  have hother' : (s.procs.set turn.proc request')[j]? = some other :=
    getElem?_turn_other hj hother
  rcases flight_turn hsound hresumed hseen with ⟨hkept, -⟩ | hdropped | ⟨-, hnewer⟩
  · refine .inr (.inr ⟨_, j, request', other, Ne.symm hj, getElem?_turn_self hrequest, hother',
      ?_, hinflight'⟩)
    rw [hkept]
    exact Option.some_ne_none seen
  · exact broken_of_dropped h hrequest hsound hresumed hdropped
  · exact .inr (.inl ⟨j, other, read, hother', hread,
      Nat.lt_of_le_of_lt (version_le_of_flight (h.sound.proc j other hother) hread) hnewer⟩)

theorem overlap_turn (h : s.Accounted) (hoverlap : s.Overlap)
    (hrequest : s.procs[turn.proc]? = some request) (hsound : request.Sound s.store)
    (hresumed : Refunding.Resumed s.store turn.input request store' request') :
    Broken ⟨store', s.procs.set turn.proc request'⟩ := by
  obtain ⟨i, j, one, other, hij, hone, hother, hflight, hflight'⟩ := hoverlap
  by_cases hi : i = turn.proc
  · subst hi
    rw [hrequest, Option.some.injEq] at hone
    subst hone
    exact overlap_turn_self h (Ne.symm hij) hother hflight hflight' hrequest hsound hresumed
  · by_cases hj : j = turn.proc
    · subst hj
      rw [hrequest, Option.some.injEq] at hother
      subst hother
      exact overlap_turn_self h hi hone hflight' hflight hrequest hsound hresumed
    · exact .inr (.inr ⟨i, j, one, other, hij, getElem?_turn_other hi hone,
        getElem?_turn_other hj hother, hflight, hflight'⟩)

end

/-- What is broken stays broken. -/
theorem broken_step (turn : RefundTurn) (h : s.Accounted) (hbroken : s.Broken) :
    (s.step settings turn).Broken := by
  rcases hbroken with hlost | hbroken
  · exact .inl (Int.lt_of_lt_of_le hlost (lostCents_mono turn h.sound))
  · rcases refund_turn_cases settings turn h.sound with
      hsame | ⟨request, store', request', hrequest, hsound, hresumed, hstep⟩
    · rw [hsame]
      exact .inr hbroken
    · rw [hstep]
      rcases hbroken with hstale | hoverlap
      · exact stale_turn h hstale hrequest hsound hresumed
      · exact overlap_turn h hoverlap hrequest hsound hresumed

/-- Money that is returned for a request that is not alone breaks something. -/
theorem broken_of_not_alone (turn : RefundTurn) (h : s.Accounted) (hnot : ¬ s.AskedAlone turn) :
    (s.step settings turn).Broken := by
  unfold AskedAlone at hnot
  push Not at hnot
  obtain ⟨order, seen, hrequest, haccepted, hnot⟩ := hnot
  have hsound : Fits s.store order.amountCents seen := h.sound.proc _ _ hrequest
  have hstep : s.step settings turn =
      ⟨{ s.store with returnedCents := s.store.returnedCents + order.amountCents },
        s.procs.set turn.proc (.returned order.amountCents seen)⟩ := by
    have hturn : s.step settings turn = _ := step_of_some hrequest
    rw [hturn, haccepted]
    rfl
  rw [hstep]
  by_cases hcurrent : seen.version = s.store.payment.version
  · obtain ⟨other, hmem, hflight⟩ := hnot hcurrent
    obtain ⟨j, hother⟩ := List.mem_iff_getElem?.mp hmem
    have hj : j ≠ turn.proc := by
      rintro rfl
      rw [hrequest, Option.some.injEq] at hother
      subst hother
      exact hflight rfl
    exact .inr (.inr ⟨_, j, _, other, Ne.symm hj, getElem?_turn_self hrequest,
      getElem?_turn_other hj hother, Option.some_ne_none seen, hflight⟩)
  · exact .inr (.inl ⟨_, _, seen, getElem?_turn_self hrequest, rfl,
      Nat.lt_of_le_of_ne hsound.sees.version_le hcurrent⟩)

/-- Nothing is broken where all requests have ended and the ledger agrees. -/
theorem Agrees.not_broken (h : s.Agrees) (hended : s.AllEnded) : ¬ s.Broken := by
  have hflight : ∀ {i : Nat} {request : Refunding}, s.procs[i]? = some request →
      request.flight = none := fun hrequest =>
    Refunding.flight_of_isEnded (hended _ (List.mem_of_getElem? hrequest))
  rintro (hlost | ⟨i, request, seen, hrequest, hseen, -⟩ | ⟨i, j, request, other, -, hrequest, -,
    hne, -⟩)
  · have hsum := sum_heldCents_eq_zero fun request hrequest =>
      Refunding.flight_of_isEnded (hended request hrequest)
    rw [lostCents, hsum, h.2 hended] at hlost
    omega
  · rw [hflight hrequest] at hseen
    cases hseen
  · exact hne (hflight hrequest)

end Refunds

/-! ## Runs -/

/-- In every run in which the provider returns money only for a request that is alone, on
the payment as it is, no more is returned than was paid and the ledger has it in the end.
Every run to the end in which that holds is such a run. -/
theorem refunds_agree_iff (settings : Settings) (start : Refunds) (hstart : start.Starts)
    (turns : List RefundTurn) :
    (Run.EveryStep (Refunds.step settings) Refunds.AskedAlone start turns →
      Run.Always (Refunds.step settings) Refunds.Agrees start turns) ∧
    ((Run.run (Refunds.step settings) start turns).AllEnded →
      Run.Always (Refunds.step settings) Refunds.Agrees start turns →
        Run.EveryStep (Refunds.step settings) Refunds.AskedAlone start turns) := by
  constructor
  · intro halone
    have hbalanced : Run.Always (Refunds.step settings) Refunds.Balanced start turns :=
      Run.always_of_everyStep (fun _ _ hasked h => h.step hasked) turns halone hstart.balanced
    exact hbalanced.imp fun _ h => h.agrees
  · intro hended halways
    have hagrees : (Run.run (Refunds.step settings) start turns).Agrees := halways.last
    have hkeeps : ∀ (s : Refunds) turn, s.Accounted → (s.step settings turn).Accounted :=
      fun _ turn h => h.step turn
    have hbreaks : ∀ (s : Refunds) turn, s.Accounted → ¬ s.AskedAlone turn →
        (s.step settings turn).Broken :=
      fun _ turn h hnot => Refunds.broken_of_not_alone turn h hnot
    have hstays : ∀ (s : Refunds) turn, s.Accounted → s.Broken →
        (s.step settings turn).Broken :=
      fun _ turn h hbroken => Refunds.broken_step turn h hbroken
    exact Run.everyStep_of_not_broken hkeeps hbreaks hstays turns hstart.balanced.accounted
      (hagrees.not_broken hended)

/-! ## Two refunds of one payment -/

/-- A provider that accepts every refund. -/
def acceptingProvider : PaymentProvider where
  slug := "mock"
  charge _ := .error (.paymentProvider "")
  refund _ _ := .ok ()
  verifyWebhook _ _ _ := .error (.paymentProvider "")

def acceptingSettings : Settings where
  registry := [("mock", acceptingProvider)]
  paymentProvider := "mock"
  paymentWebhookSecret := ""
  containerRepr _ := ""

/-- A payment of 10 dollars that covers its invoice. -/
def tenDollars : RefundStore where
  payment :=
    ⟨{ invoiceId := 0
       organizationId := 0
       status := .succeeded
       amountCents := 1000
       currency := "USD"
       provider := some "mock"
       providerPaymentId := some "mockpay_1"
       refundedCents := 0
       processedAt := some 1738368000
       deletedAt := none }, 1⟩
  invoice :=
    ⟨some
      { organizationId := 0
        subscriptionId := none
        number := "INV-202501-000001"
        status := .paid
        currency := "USD"
        subtotalCents := 1000
        taxCents := 0
        totalCents := 1000
        amountPaidCents := 1000
        periodStart := 20089
        periodEnd := 20119
        dueAt := none
        issuedAt := some 1738281600
        paidAt := some 1738368000
        lineItems := []
        deletedAt := none }, 2⟩
  locked := false
  returnedCents := 0

/-- Turns of a request, each with an answer that accepts. -/
def accepted (request : Nat) : RefundTurn := ⟨request, .ok ()⟩

/-- Two requests to refund a part each. -/
def twoParts : Refunds := ⟨tenDollars, [.requested (some 400), .requested (some 600)]⟩

theorem twoParts_starts : twoParts.Starts where
  requested := by simp [twoParts]
  refunded_le := by decide
  returned := rfl

/-- One after the other: the provider returns 1000 cents, and the ledger has them. -/
theorem two_parts_agree :
    Run.Always (Refunds.step acceptingSettings) Refunds.Agrees twoParts
      (List.replicate 5 (accepted 0) ++ List.replicate 5 (accepted 1)) := by
  refine (refunds_agree_iff acceptingSettings twoParts twoParts_starts _).1 ?_
  -- The second turn of each is the one that asks.
  refine ⟨?_, ?_, ?_, ?_, ?_, ?_, ?_, ?_, ?_, ?_, trivial⟩ <;>
    · intro order seen hasking _
      cases hasking
      try exact ⟨rfl, by decide⟩

/-- Two requests to refund all. -/
def twoFull : Refunds := ⟨tenDollars, [.requested none, .requested none]⟩

theorem twoFull_starts : twoFull.Starts where
  requested := by simp [twoFull]
  refunded_le := by decide
  returned := rfl

/-- Both check the payment, both ask the provider, and then they write: the provider
returns 2000 cents of a payment of 1000, and the ledger has 1000. -/
def bothAsk : List RefundTurn :=
  [accepted 0, accepted 1, accepted 0, accepted 1] ++ List.replicate 3 (accepted 0) ++
    List.replicate 2 (accepted 1)

theorem refunded_twice :
    let left := Run.run (Refunds.step acceptingSettings) twoFull bothAsk
    twoFull.Starts ∧ left.AllEnded ∧ left.store.returnedCents = 2000 ∧
      left.store.payment.row.amountCents = 1000 ∧ left.store.payment.row.refundedCents = 1000 ∧
      ¬ Run.Always (Refunds.step acceptingSettings) Refunds.Agrees twoFull bothAsk := by
  refine ⟨twoFull_starts, by decide, rfl, rfl, rfl, fun halways => ?_⟩
  have hwithin := halways.last.1
  revert hwithin
  decide

end YoutubeFactory.Billing
