import YoutubeFactory.Lib.Interleaving
import YoutubeFactory.Lib.Versioned
import YoutubeFactory.Billing.Settlement

/-!
# Charges and callbacks at the same time

`charge_invoice` and `_apply_settlement` with the places where they give way: the
reads, the provider, the two flushes of `record_payment` (the new payment, then the
invoice) and the commit.  Each request has its own transaction.  The unique column
refuses a payment whose provider id is stored, the version column refuses a write over
an invoice that was written since it was read, and both wait for a transaction that is
open.

The provider has settled by then.  So in every run in which no request finds its
invoice written since, every payment that was reported is recorded once
(`settlements_recorded`).
-/

namespace YoutubeFactory.Billing

open Python Interleaving

/-! ## The steps of a request -/

/-- What all transactions see, what they hold, and what the provider has reported. -/
structure CollectStore where
  db : Ledger
  /-- The version column of the invoices. -/
  versions : Id → Nat
  /-- The provider ids of the payments that open transactions have inserted. -/
  inserted : List String
  /-- The invoices that open transactions have updated. -/
  updated : List Id
  /-- The payment ids reported as settled to some request. -/
  reported : List String

/-- Where a request of `charge_invoice` or of `_apply_settlement` stands, with what its
session has read. -/
inductive Collecting where
  /-- `charge_invoice` is called. -/
  | charge (invoiceId : Id) (providerSlug customerReference : Option String)
  /-- Before the answer of the provider. -/
  | charging (invoiceId : Id) (provider : PaymentProvider) (customerReference : Option String)
      (seen : Versioned Invoice)
  /-- `_apply_settlement` is called. -/
  | settling (providerSlug : String) (event : WebhookEvent)
  /-- No payment has the id, the invoice is not read yet. -/
  | locating (providerSlug providerPaymentId : String) (amountCents : Int) (event : WebhookEvent)
  /-- `record_payment` is called. -/
  | recording (settlement : Settlement) (seen : Versioned Invoice)
  /-- Before the flush of the payment. -/
  | adding (settlement : Settlement) (seen : Versioned Invoice)
  /-- Before the flush of the invoice. -/
  | added (settlement : Settlement) (seen : Versioned Invoice) (payment : Payment)
  /-- Before the commit. -/
  | credited (settlement : Settlement) (payment : Payment) (invoice : Invoice)
  | ended

/-- What `charge_invoice` asks the provider. -/
def Invoice.chargeRequest (invoice : Invoice) (customerReference : Option String) :
    ChargeRequest where
  amountCents := invoice.amountDue
  currency := invoice.currency
  reference := invoice.number
  customerReference
  metadata := [("organization_id", toString invoice.organizationId)]

namespace CollectStore

/-- The invoice row with its version. -/
def read (store : CollectStore) (invoiceId : Id) (invoice : Invoice) : Versioned Invoice :=
  ⟨invoice, store.versions invoiceId⟩

def report (store : CollectStore) (providerPaymentId : String) : CollectStore :=
  { store with reported := providerPaymentId :: store.reported }

/-- The flush of a new payment. -/
def insert (store : CollectStore) (providerPaymentId : String) : CollectStore :=
  { store with inserted := providerPaymentId :: store.inserted }

/-- The flush of an invoice. -/
def update (store : CollectStore) (invoiceId : Id) : CollectStore :=
  { store with updated := invoiceId :: store.updated }

/-- The transaction of an inserted payment is rolled back. -/
def rollback (store : CollectStore) (providerPaymentId : String) : CollectStore :=
  { store with inserted := store.inserted.erase providerPaymentId }

/-- It is committed, with the invoice. -/
def commit (store : CollectStore) (settlement : Settlement) (payment : Payment)
    (invoice : Invoice) : CollectStore :=
  { store with
    db := (store.db.addPayment payment).setInvoice settlement.invoiceId invoice
    versions :=
      Function.update store.versions settlement.invoiceId (store.versions settlement.invoiceId + 1)
    inserted := store.inserted.erase settlement.providerPaymentId
    updated := store.updated.erase settlement.invoiceId }

end CollectStore

/-- A request goes on to its next await, at the moment `now`. -/
def Collecting.resume (settings : Settings) (store : CollectStore) (now : DateTime) :
    Collecting → CollectStore × Collecting
  | .charge invoiceId providerSlug customerReference =>
      match store.db.getInvoice invoiceId with
      | none => (store, .ended)
      | some invoice =>
          if invoice.status = .void then (store, .ended)
          else if invoice.amountDue ≤ 0 then (store, .ended)
          else
            match settings.getProvider providerSlug with
            | .error _ => (store, .ended)
            | .ok provider =>
                (store, .charging invoiceId provider customerReference
                  (store.read invoiceId invoice))
  | .charging invoiceId provider customerReference seen =>
      match provider.charge (seen.row.chargeRequest customerReference) with
      | .error _ => (store, .ended)
      | .ok result =>
          if result.status ≠ .succeeded then (store, .ended)
          else
            (store.report result.providerPaymentId,
              .recording ⟨provider.slug, result.providerPaymentId, invoiceId, result.amountCents⟩
                seen)
  | .settling providerSlug event =>
      match event.providerPaymentId.truth, event.amountCents with
      | true, some amountCents =>
          match event.providerPaymentId with
          | .str providerPaymentId =>
              match store.db.paymentByProviderId providerPaymentId with
              | some _ => (store.report providerPaymentId, .ended)
              | none =>
                  (store.report providerPaymentId,
                    .locating providerSlug providerPaymentId amountCents event)
          | _ => (store, .ended)
      | _, _ => (store, .ended)
  | .locating providerSlug providerPaymentId amountCents event =>
      match referencedNumber settings event.payload with
      | .error _ => (store, .ended)
      | .ok number =>
          match if number = "" then none else store.db.invoiceByNumber number with
          | none => (store, .ended)
          | some invoiceId =>
              match store.db.getInvoice invoiceId with
              | none => (store, .ended)
              | some invoice =>
                  (store, .recording ⟨providerSlug, providerPaymentId, invoiceId, amountCents⟩
                    (store.read invoiceId invoice))
  | .recording settlement seen =>
      if settlement.amountCents ≤ 0 then (store, .ended)
      else
        match store.db.replayed (some settlement.providerPaymentId) with
        | some _ => (store, .ended)
        -- `invoices.get` gives the row the session has read already.
        | none => (store, .adding settlement seen)
  | .adding settlement seen =>
      -- The INSERT waits for an open one of the same id.
      if settlement.providerPaymentId ∈ store.inserted then (store, .adding settlement seen)
      else if store.db.providerIdTaken (some settlement.providerPaymentId) then (store, .ended)
      else
        (store.insert settlement.providerPaymentId,
          .added settlement seen (seen.row.payment settlement.invoiceId settlement.amountCents
            (some settlement.provider) (some settlement.providerPaymentId) now))
  | .added settlement seen payment =>
      -- The UPDATE waits for an open one of the same row.
      if settlement.invoiceId ∈ store.updated then (store, .added settlement seen payment)
      else if seen.version ≠ store.versions settlement.invoiceId then
        (store.rollback settlement.providerPaymentId, .ended)
      else
        (store.update settlement.invoiceId,
          .credited settlement payment (seen.row.credit settlement.amountCents now))
  | .credited settlement payment invoice => (store.commit settlement payment invoice, .ended)
  | .ended => (store, .ended)

/-- Any number of requests. -/
abbrev Collection := System CollectStore Collecting

abbrev CollectTurn := Turn DateTime

/-- One request goes on. -/
def Collection.step (settings : Settings) : Collection → CollectTurn → Collection :=
  Interleaving.step (Collecting.resume settings)

/-! ## One request alone -/

/-- A request that is alone goes on to its next await. -/
def Collecting.next (settings : Settings) (now : DateTime)
    (place : CollectStore × Collecting) : CollectStore × Collecting :=
  place.2.resume settings place.1 now

section

variable {settings : Settings} {now : DateTime} {store : CollectStore}

theorem next_ended (n : Nat) :
    (Collecting.next settings now)^[n] (store, .ended) = (store, .ended) :=
  Function.iterate_fixed rfl n

/-- Where a first turn ends the request, nothing else happens. -/
theorem next_of_ends {request : Collecting} (n : Nat) (store' : CollectStore)
    (h : Collecting.next settings now (store, request) = (store', .ended)) :
    (Collecting.next settings now)^[n + 1] (store, request) = (store', .ended) := by
  rw [Function.iterate_succ_apply, h, next_ended]

/-- From the call of `record_payment` on, a request that is alone takes four turns. -/
theorem recordPayment_alone (hinserted : store.inserted = []) (hupdated : store.updated = [])
    (settlement : Settlement) {invoice : Invoice}
    (hinvoice : store.db.getInvoice settlement.invoiceId = some invoice) :
    ((Collecting.next settings now)^[4]
      (store, .recording settlement (store.read settlement.invoiceId invoice))).1.db =
        Run.commit store.db (store.db.recordPayment settlement.invoiceId settlement.amountCents
          (some settlement.provider) (some settlement.providerPaymentId) now now) := by
  unfold Ledger.recordPayment
  by_cases hnothing : settlement.amountCents ≤ 0
  · rw [if_pos hnothing,
      next_of_ends 3 store (by simp [Collecting.next, Collecting.resume, hnothing])]
    rfl
  · rw [if_neg hnothing]
    cases hreplayed : store.db.replayed (some settlement.providerPaymentId) with
    | some existing =>
        rw [next_of_ends 3 store
          (by simp [Collecting.next, Collecting.resume, hnothing, hreplayed])]
        rfl
    | none =>
        have hnext : Collecting.next settings now
            (store, .recording settlement (store.read settlement.invoiceId invoice)) =
              (store, .adding settlement (store.read settlement.invoiceId invoice)) := by
          simp [Collecting.next, Collecting.resume, hnothing, hreplayed]
        rw [Function.iterate_succ_apply, hnext, hinvoice]
        dsimp only
        cases htaken : store.db.providerIdTaken (some settlement.providerPaymentId) with
        | true =>
            rw [next_of_ends 2 store
              (by simp [Collecting.next, Collecting.resume, htaken, hinserted])]
            rfl
        | false =>
            simp [Function.iterate_succ_apply, Collecting.next, Collecting.resume, htaken,
              hinserted, hupdated, CollectStore.insert, CollectStore.read, CollectStore.update,
              CollectStore.commit]

theorem run_collecting_alone (n : Nat) (request : Collecting) :
    (Run.run (Collection.step settings) ⟨store, [request]⟩ (List.replicate n ⟨0, now⟩)).store =
      ((Collecting.next settings now)^[n] (store, request)).1 :=
  congrArg System.store (run_alone (Collecting.resume settings) now n store request)

/-- From the provider's answer on, a charge that is alone takes five turns. -/
theorem charging_alone (hinserted : store.inserted = []) (hupdated : store.updated = [])
    {invoiceId : Id} {invoice : Invoice} (hinvoice : store.db.getInvoice invoiceId = some invoice)
    (provider : PaymentProvider) (customerReference : Option String) :
    ((Collecting.next settings now)^[5] (store, .charging invoiceId provider customerReference
      (store.read invoiceId invoice))).1.db =
        Run.commit store.db (do
          let result ← provider.charge (invoice.chargeRequest customerReference)
          if result.status ≠ .succeeded then
            let outcome : ChargeOutcome :=
              { status := result.status
                invoice := invoiceId
                amountCents := invoice.amountDue
                payment := none
                declineReason := result.declineReason
                actionUrl := result.actionUrl }
            return (outcome, store.db)
          else
            let (payment, db') ← store.db.recordPayment invoiceId result.amountCents
              (some provider.slug) (some result.providerPaymentId) now now
            let outcome : ChargeOutcome :=
              { status := result.status
                invoice := invoiceId
                amountCents := result.amountCents
                payment := some payment
                declineReason := none
                actionUrl := none }
            return (outcome, db')) := by
  have hcharge : (store.read invoiceId invoice).row.chargeRequest customerReference =
      invoice.chargeRequest customerReference := rfl
  cases hresult : provider.charge (invoice.chargeRequest customerReference) with
  | error e =>
      rw [next_of_ends 4 store (by simp [Collecting.next, Collecting.resume, hcharge, hresult])]
      rfl
  | ok result =>
      rw [Except.ok_bind]
      split
      · next hstatus =>
          rw [next_of_ends 4 store
            (by simp [Collecting.next, Collecting.resume, hcharge, hresult, hstatus])]
          rfl
      · next hstatus =>
          have hnext : Collecting.next settings now (store, .charging invoiceId provider
              customerReference (store.read invoiceId invoice)) =
                (store.report result.providerPaymentId,
                  .recording ⟨provider.slug, result.providerPaymentId, invoiceId,
                    result.amountCents⟩ (store.read invoiceId invoice)) := by
            simp [Collecting.next, Collecting.resume, hcharge, hresult, hstatus]
          have hrecord := @recordPayment_alone settings now
            (store.report result.providerPaymentId) hinserted hupdated
            ⟨provider.slug, result.providerPaymentId, invoiceId, result.amountCents⟩ invoice
            hinvoice
          rw [Function.iterate_succ_apply, hnext]
          refine hrecord.trans ?_
          exact (Run.commit_bind _ fun _ => rfl).symm

/-- A charge that is alone leaves the tables `charge_invoice` leaves. -/
theorem chargeInvoice_alone (hinserted : store.inserted = []) (hupdated : store.updated = [])
    (invoiceId : Id) (providerSlug customerReference : Option String) :
    (Run.run (Collection.step settings)
      ⟨store, [.charge invoiceId providerSlug customerReference]⟩
        (List.replicate 6 ⟨0, now⟩)).store.db =
      Run.commit store.db
        (store.db.chargeInvoice settings invoiceId providerSlug customerReference now now) := by
  rw [run_collecting_alone]
  unfold Ledger.chargeInvoice
  cases hinvoice : store.db.getInvoice invoiceId with
  | none =>
      rw [next_of_ends 5 store (by simp [Collecting.next, Collecting.resume, hinvoice])]
      rfl
  | some invoice =>
      dsimp only
      split
      · next hvoid =>
          rw [next_of_ends 5 store (by simp [Collecting.next, Collecting.resume, hinvoice, hvoid])]
          rfl
      · next hvoid =>
          split
          · next hdue =>
              rw [next_of_ends 5 store
                (by simp [Collecting.next, Collecting.resume, hinvoice, hvoid, hdue])]
              rfl
          · next hdue =>
              cases hprovider : settings.getProvider providerSlug with
              | error e =>
                  rw [next_of_ends 5 store (by
                    simp [Collecting.next, Collecting.resume, hinvoice, hvoid, hdue, hprovider])]
                  rfl
              | ok provider =>
                  have hnext : Collecting.next settings now
                      (store, .charge invoiceId providerSlug customerReference) =
                        (store, .charging invoiceId provider customerReference
                          (store.read invoiceId invoice)) := by
                    simp [Collecting.next, Collecting.resume, hinvoice, hvoid, hdue, hprovider]
                  rw [Function.iterate_succ_apply, hnext, Except.ok_bind]
                  exact charging_alone hinserted hupdated hinvoice provider customerReference

/-- After the lookup by its id, a callback that is alone takes five turns. -/
theorem locating_alone (hinserted : store.inserted = []) (hupdated : store.updated = [])
    (providerSlug providerPaymentId : String) (amountCents : Int) (event : WebhookEvent) :
    ((Collecting.next settings now)^[5]
      (store, .locating providerSlug providerPaymentId amountCents event)).1.db =
        Run.commit store.db (do
          let number ← referencedNumber settings event.payload
          match if number = "" then none else store.db.invoiceByNumber number with
          | none =>
              .error (.notFound "The callback references an unknown invoice."
                [("reference", .str number), ("event_id", .str event.eventId)])
          | some invoiceId => do
              let (_, db') ← store.db.recordPayment invoiceId amountCents (some providerSlug)
                (some providerPaymentId) now now
              return ((), db')) := by
  cases hnumber : referencedNumber settings event.payload with
  | error e =>
      rw [next_of_ends 4 store (by simp [Collecting.next, Collecting.resume, hnumber])]
      rfl
  | ok number =>
      rw [Except.ok_bind]
      cases hfound : (if number = "" then none else store.db.invoiceByNumber number) with
      | none =>
          rw [next_of_ends 4 store (by simp [Collecting.next, Collecting.resume, hnumber, hfound])]
          rfl
      | some invoiceId =>
          obtain ⟨invoice, hinvoice⟩ : ∃ invoice, store.db.getInvoice invoiceId = some invoice := by
            split at hfound
            · cases hfound
            · exact Ledger.getInvoice_of_invoiceByNumber hfound
          have hnext : Collecting.next settings now
              (store, .locating providerSlug providerPaymentId amountCents event) =
                (store, .recording ⟨providerSlug, providerPaymentId, invoiceId, amountCents⟩
                  (store.read invoiceId invoice)) := by
            simp [Collecting.next, Collecting.resume, hnumber, hfound, hinvoice]
          have hrecord := @recordPayment_alone settings now store hinserted hupdated
            ⟨providerSlug, providerPaymentId, invoiceId, amountCents⟩ invoice hinvoice
          rw [Function.iterate_succ_apply, hnext]
          refine hrecord.trans ?_
          exact (Run.commit_bind _ fun _ => rfl).symm

/-- A callback that is alone leaves the tables `_apply_settlement` leaves. -/
theorem applySettlement_alone (hinserted : store.inserted = []) (hupdated : store.updated = [])
    (providerSlug : String) (event : WebhookEvent) :
    (Run.run (Collection.step settings) ⟨store, [.settling providerSlug event]⟩
      (List.replicate 6 ⟨0, now⟩)).store.db =
        Run.commit store.db (store.db.applySettlement settings providerSlug event now now) := by
  rw [run_collecting_alone]
  unfold Ledger.applySettlement
  split
  · next amountCents htruth hamount =>
      split
      · next providerPaymentId hid =>
          rw [hid] at htruth
          cases hfound : store.db.paymentByProviderId providerPaymentId with
          | some existing =>
              rw [next_of_ends 5 (store.report providerPaymentId)
                (by simp [Collecting.next, Collecting.resume, hid, htruth, hamount, hfound])]
              rfl
          | none =>
              have hnext : Collecting.next settings now (store, .settling providerSlug event) =
                  (store.report providerPaymentId,
                    .locating providerSlug providerPaymentId amountCents event) := by
                simp [Collecting.next, Collecting.resume, hid, htruth, hamount, hfound]
              rw [Function.iterate_succ_apply, hnext]
              exact @locating_alone settings now (store.report providerPaymentId) hinserted
                hupdated providerSlug providerPaymentId amountCents event
      · next hid =>
          rw [next_of_ends 5 store (by
            simp only [Collecting.next, Collecting.resume, htruth, hamount])]
          rfl
  · next hmissing =>
      rw [next_of_ends 5 store (by
        simp only [Collecting.next, Collecting.resume])]
      rfl

end

/-! ## What a request knows -/

/-- The payment id that was reported to a request and that it has still to record. -/
def Collecting.carries : Collecting → Option String
  | .locating _ providerPaymentId _ _ => some providerPaymentId
  | .recording settlement _ | .adding settlement _ | .added settlement _ _
  | .credited settlement _ _ => some settlement.providerPaymentId
  | _ => none

/-- The provider id a request has inserted without committing. -/
def Collecting.insertedId : Collecting → Option String
  | .added settlement _ _ | .credited settlement _ _ => some settlement.providerPaymentId
  | _ => none

/-- The invoice it has updated without committing. -/
def Collecting.updatedInvoice : Collecting → Option Id
  | .credited settlement _ _ => some settlement.invoiceId
  | _ => none

namespace CollectStore

/-- The request has read the invoice, now or before. -/
def Sees (store : CollectStore) (invoiceId : Id) (seen : Versioned Invoice) : Prop :=
  ∃ invoice, store.db.getInvoice invoiceId = some invoice ∧
    (store.read invoiceId invoice).Sees seen

/-- The event refers to an invoice. -/
def Refers (settings : Settings) (store : CollectStore) (event : WebhookEvent) : Prop :=
  ∃ number invoiceId, referencedNumber settings event.payload = .ok number ∧ number ≠ "" ∧
    store.db.invoiceByNumber number = some invoiceId

/-- The provider id is inserted by an open transaction, and no other payment has it. -/
structure Reserves (store : CollectStore) (providerPaymentId : String) : Prop where
  inserted : providerPaymentId ∈ store.inserted
  fresh : providerPaymentId ∉ store.db.providerIds

end CollectStore

/-- What a request that has come so far knows. -/
def Collecting.Sound (settings : Settings) (store : CollectStore) : Collecting → Prop
  | .charge _ _ _ | .ended => True
  | .charging invoiceId _ _ seen => store.Sees invoiceId seen
  | .settling _ event | .locating _ _ _ event => store.Refers settings event
  | .recording settlement seen => store.Sees settlement.invoiceId seen
  | .adding settlement seen => 0 < settlement.amountCents ∧ store.Sees settlement.invoiceId seen
  | .added settlement seen payment =>
      0 < settlement.amountCents ∧ store.Sees settlement.invoiceId seen ∧
        store.Reserves settlement.providerPaymentId ∧
        ∃ now, payment = seen.row.payment settlement.invoiceId settlement.amountCents
          (some settlement.provider) (some settlement.providerPaymentId) now
  | .credited settlement payment invoice =>
      0 < settlement.amountCents ∧ store.Reserves settlement.providerPaymentId ∧
        settlement.invoiceId ∈ store.updated ∧
        ∃ row now later, store.db.getInvoice settlement.invoiceId = some row ∧
          payment = row.payment settlement.invoiceId settlement.amountCents
            (some settlement.provider) (some settlement.providerPaymentId) now ∧
          invoice = row.credit settlement.amountCents later

/-! ## What a turn does -/

/-- The steps of a request. -/
inductive Collecting.Resumed (store : CollectStore) : Collecting → CollectStore → Collecting → Prop
  | waits (request : Collecting) : Collecting.Resumed store request store request
  | ends {request : Collecting}
      (recorded : ∀ id, request.carries = some id → id ∈ store.db.providerIds) :
      Collecting.Resumed store request store .ended
  | read {invoiceId : Id} {providerSlug customerReference : Option String}
      {provider : PaymentProvider} {invoice : Invoice}
      (found : store.db.getInvoice invoiceId = some invoice) :
      Collecting.Resumed store (.charge invoiceId providerSlug customerReference) store
        (.charging invoiceId provider customerReference (store.read invoiceId invoice))
  | settled {invoiceId : Id} {provider : PaymentProvider} {customerReference : Option String}
      {seen : Versioned Invoice} (slug id : String) (amountCents : Int) :
      Collecting.Resumed store (.charging invoiceId provider customerReference seen)
        (store.report id) (.recording ⟨slug, id, invoiceId, amountCents⟩ seen)
  | replayed {slug : String} {event : WebhookEvent} {id : String}
      (recorded : id ∈ store.db.providerIds) :
      Collecting.Resumed store (.settling slug event) (store.report id) .ended
  | unknown {slug : String} {event : WebhookEvent} (id : String) (amountCents : Int) :
      Collecting.Resumed store (.settling slug event) (store.report id)
        (.locating slug id amountCents event)
  | located {slug id : String} {amountCents : Int} {event : WebhookEvent} {invoiceId : Id}
      {invoice : Invoice} (found : store.db.getInvoice invoiceId = some invoice) :
      Collecting.Resumed store (.locating slug id amountCents event) store
        (.recording ⟨slug, id, invoiceId, amountCents⟩ (store.read invoiceId invoice))
  | unpaid {settlement : Settlement} {seen : Versioned Invoice}
      (nothing : settlement.amountCents ≤ 0) :
      Collecting.Resumed store (.recording settlement seen) store .ended
  | checked {settlement : Settlement} {seen : Versioned Invoice}
      (positive : 0 < settlement.amountCents) :
      Collecting.Resumed store (.recording settlement seen) store (.adding settlement seen)
  | inserted {settlement : Settlement} {seen : Versioned Invoice} (now : DateTime)
      (free : settlement.providerPaymentId ∉ store.inserted)
      (fresh : settlement.providerPaymentId ∉ store.db.providerIds) :
      Collecting.Resumed store (.adding settlement seen) (store.insert settlement.providerPaymentId)
        (.added settlement seen (seen.row.payment settlement.invoiceId settlement.amountCents
          (some settlement.provider) (some settlement.providerPaymentId) now))
  | refused {settlement : Settlement} {seen : Versioned Invoice} {payment : Payment}
      (unlocked : settlement.invoiceId ∉ store.updated)
      (stale : seen.version ≠ store.versions settlement.invoiceId) :
      Collecting.Resumed store (.added settlement seen payment)
        (store.rollback settlement.providerPaymentId) .ended
  | updated {settlement : Settlement} {seen : Versioned Invoice} {payment : Payment}
      (later : DateTime) (unlocked : settlement.invoiceId ∉ store.updated)
      (current : seen.version = store.versions settlement.invoiceId) :
      Collecting.Resumed store (.added settlement seen payment) (store.update settlement.invoiceId)
        (.credited settlement payment (seen.row.credit settlement.amountCents later))
  | committed {settlement : Settlement} {payment : Payment} {invoice : Invoice} :
      Collecting.Resumed store (.credited settlement payment invoice)
        (store.commit settlement payment invoice) .ended

/-- A payment found by its provider id has it. -/
theorem mem_providerIds_of_found {db : Ledger} {id : String} {paymentId : Id}
    (h : db.paymentByProviderId id = some paymentId) : id ∈ db.providerIds := by
  obtain ⟨hlt, hfound, -⟩ := List.findIdx?_eq_some_iff_getElem.mp h
  simp only [Bool.decide_and, Bool.and_eq_true, decide_eq_true_eq] at hfound
  exact List.mem_filterMap.mpr ⟨_, List.getElem_mem hlt, hfound.1⟩

theorem mem_providerIds_of_replayed {db : Ledger} {id : String} {paymentId : Id}
    (h : db.replayed (some id) = some paymentId) : id ∈ db.providerIds := by
  unfold Ledger.replayed at h
  split at h
  · cases h
  · next heq =>
      cases heq
      split at h
      · cases h
      · exact mem_providerIds_of_found h

theorem collect_cases (settings : Settings) {store : CollectStore} (now : DateTime)
    {request : Collecting} (h : request.Sound settings store) :
    Collecting.Resumed store request (request.resume settings store now).1
      (request.resume settings store now).2 := by
  have hends : ∀ {request : Collecting}, request.carries = none →
      Collecting.Resumed store request store .ended := by
    intro request hnone
    refine .ends fun id hid => ?_
    rw [hnone] at hid
    cases hid
  cases request with
  | charge invoiceId providerSlug customerReference =>
      simp only [Collecting.resume]
      split
      · exact hends rfl
      · next invoice hinvoice =>
          split
          · exact hends rfl
          · split
            · exact hends rfl
            · split
              · exact hends rfl
              · exact .read hinvoice
  | charging invoiceId provider customerReference seen =>
      simp only [Collecting.resume]
      split
      · exact hends rfl
      · split
        · exact hends rfl
        · exact .settled _ _ _
  | settling slug event =>
      simp only [Collecting.resume]
      split
      · split
        · split
          · next hfound => exact .replayed (mem_providerIds_of_found hfound)
          · exact .unknown _ _
        · exact hends rfl
      · exact hends rfl
  | locating slug id amountCents event =>
      obtain ⟨number, invoiceId, hnumber, hne, hinvoiceId⟩ := h
      obtain ⟨invoice, hinvoice⟩ := Ledger.getInvoice_of_invoiceByNumber hinvoiceId
      simp only [Collecting.resume, hnumber, if_neg hne, hinvoiceId, hinvoice]
      exact .located hinvoice
  | recording settlement seen =>
      simp only [Collecting.resume]
      split
      · next hnothing => exact .unpaid hnothing
      · next hpositive =>
          split
          · next hreplayed =>
              refine .ends fun id hid => ?_
              cases hid
              exact mem_providerIds_of_replayed hreplayed
          · exact .checked (by omega)
  | adding settlement seen =>
      simp only [Collecting.resume]
      split
      · exact .waits _
      · next hfree =>
          split
          · next htaken =>
              refine .ends fun id hid => ?_
              cases hid
              exact providerIdTaken_iff.mp htaken
          · next htaken =>
              exact .inserted now hfree fun hmem => htaken (providerIdTaken_iff.mpr hmem)
  | added settlement seen payment =>
      simp only [Collecting.resume]
      split
      · exact .waits _
      · next hunlocked =>
          split
          · next hstale => exact .refused hunlocked hstale
          · next hcurrent => exact .updated now hunlocked (not_not.mp hcurrent)
  | credited settlement payment invoice => exact .committed
  | ended => exact .waits _

/-! ## What holds after every run -/

/-- The ledger is conserved and its provider ids are distinct, every request knows what
it should, and no two have inserted the same id or updated the same invoice. -/
def collectAssertion (settings : Settings) : Assertion CollectStore Collecting where
  store store := Conserved store.db ∧ store.db.providerIds.Nodup
  proc store request := request.Sound settings store
  pair request other :=
    (∀ id, request.insertedId = some id → other.insertedId ≠ some id) ∧
      ∀ invoiceId, request.updatedInvoice = some invoiceId →
        other.updatedInvoice ≠ some invoiceId
  symm _ _ h := ⟨fun id hid hid' => h.1 id hid' hid, fun k hk hk' => h.2 k hk' hk⟩

section

variable {settings : Settings} {store store' : CollectStore} {request other : Collecting}

/-- An id that a request has inserted is reserved. -/
theorem Collecting.Sound.reserves (h : request.Sound settings store) {id : String}
    (hid : request.insertedId = some id) : store.Reserves id := by
  cases request with
  | added =>
      cases hid
      exact h.2.2.1
  | credited =>
      cases hid
      exact h.2.1
  | _ => cases hid

/-- An invoice that it has updated is locked. -/
theorem Collecting.Sound.mem_updated (h : request.Sound settings store) {invoiceId : Id}
    (hid : request.updatedInvoice = some invoiceId) : invoiceId ∈ store.updated := by
  cases request with
  | credited =>
      cases hid
      exact h.2.2.1
  | _ => cases hid

/-! ### The others, after a turn that writes nothing -/

/-- Two stores with the same tables, in which the request holds the same locks. -/
structure CollectStore.Same (store store' : CollectStore) (request : Collecting) : Prop where
  db : store'.db = store.db
  versions : store'.versions = store.versions
  inserted : ∀ id, request.insertedId = some id → id ∈ store.inserted → id ∈ store'.inserted
  updated : ∀ id, request.updatedInvoice = some id → id ∈ store.updated → id ∈ store'.updated

theorem CollectStore.Sees.of_same {invoiceId : Id} {seen : Versioned Invoice}
    (h : store.Sees invoiceId seen) (hdb : store'.db = store.db)
    (hversions : store'.versions = store.versions) : store'.Sees invoiceId seen := by
  unfold CollectStore.Sees CollectStore.read
  rw [hdb, hversions]
  exact h

theorem Collecting.Sound.of_same (h : request.Sound settings store)
    (hsame : store.Same store' request) : request.Sound settings store' := by
  have hrefers : ∀ {event}, store.Refers settings event → store'.Refers settings event := by
    intro event hevent
    unfold CollectStore.Refers
    rw [hsame.db]
    exact hevent
  have hreserves : ∀ {id}, request.insertedId = some id → store.Reserves id →
      store'.Reserves id := by
    intro id hid hreserves
    refine ⟨hsame.inserted id hid hreserves.inserted, ?_⟩
    rw [hsame.db]
    exact hreserves.fresh
  cases request with
  | charge => trivial
  | charging => exact h.of_same hsame.db hsame.versions
  | settling => exact hrefers h
  | locating => exact hrefers h
  | recording => exact h.of_same hsame.db hsame.versions
  | adding => exact ⟨h.1, h.2.of_same hsame.db hsame.versions⟩
  | added =>
      exact ⟨h.1, h.2.1.of_same hsame.db hsame.versions, hreserves rfl h.2.2.1, h.2.2.2⟩
  | credited =>
      obtain ⟨hpositive, hheld, hupdated, hrow⟩ := h
      refine ⟨hpositive, hreserves rfl hheld, hsame.updated _ rfl hupdated, ?_⟩
      rw [hsame.db]
      exact hrow
  | ended => trivial

/-- What a provider reports to one request is no matter of another. -/
theorem Collecting.Sound.report (h : request.Sound settings store) (id : String) :
    request.Sound settings (store.report id) :=
  h.of_same ⟨rfl, rfl, fun _ _ hmem => hmem, fun _ _ hmem => hmem⟩

/-! ### The others, after a commit -/

theorem providerIds_commit {settlement : Settlement} {payment : Payment} {invoice : Invoice}
    (hid : payment.providerPaymentId = some settlement.providerPaymentId) :
    (store.commit settlement payment invoice).db.providerIds =
      store.db.providerIds ++ [settlement.providerPaymentId] := by
  have hrows : (store.commit settlement payment invoice).db.payments =
      store.db.payments ++ [payment] := rfl
  unfold Ledger.providerIds
  rw [hrows, List.filterMap_append, List.filterMap_cons, hid, List.filterMap_nil]

theorem getInvoice_commit {settlement : Settlement} {row : Invoice}
    (hrow : store.db.getInvoice settlement.invoiceId = some row) (payment : Payment)
    (invoice : Invoice) (invoiceId : Id) :
    (store.commit settlement payment invoice).db.getInvoice invoiceId =
      if invoiceId = settlement.invoiceId then some invoice else store.db.getInvoice invoiceId := by
  have hadded : (store.db.addPayment payment).getInvoice settlement.invoiceId = some row := hrow
  exact Ledger.getInvoice_setInvoice hadded invoiceId

theorem CollectStore.Sees.commit {settlement : Settlement} {payment : Payment}
    {invoice row : Invoice} (hrow : store.db.getInvoice settlement.invoiceId = some row)
    {invoiceId : Id} {seen : Versioned Invoice} (h : store.Sees invoiceId seen) :
    (store.commit settlement payment invoice).Sees invoiceId seen := by
  obtain ⟨old, hold, hsees⟩ := h
  unfold CollectStore.Sees
  rw [getInvoice_commit hrow]
  unfold CollectStore.read CollectStore.commit
  dsimp only
  by_cases hk : invoiceId = settlement.invoiceId
  · subst hk
    rw [if_pos rfl, Function.update_self]
    exact ⟨invoice, rfl, hsees.write invoice⟩
  · rw [if_neg hk, Function.update_of_ne hk]
    exact ⟨old, hold, hsees⟩

theorem CollectStore.Refers.commit {settlement : Settlement} {payment : Payment} {row : Invoice}
    {later : DateTime} (hrow : store.db.getInvoice settlement.invoiceId = some row)
    {event : WebhookEvent} (h : store.Refers settings event) :
    (store.commit settlement payment (row.credit settlement.amountCents later)).Refers settings
      event := by
  obtain ⟨number, invoiceId, hnumber, hne, hfound⟩ := h
  have hadded : (store.db.addPayment payment).getInvoice settlement.invoiceId = some row := hrow
  refine ⟨number, invoiceId, hnumber, hne, Eq.trans ?_ hfound⟩
  exact Ledger.invoiceByNumber_congr (Ledger.numbers_setInvoice_credit hadded _ later) number

theorem CollectStore.Reserves.commit {settlement : Settlement} {payment : Payment}
    {invoice : Invoice} (hid : payment.providerPaymentId = some settlement.providerPaymentId)
    {id : String} (hne : id ≠ settlement.providerPaymentId) (h : store.Reserves id) :
    (store.commit settlement payment invoice).Reserves id where
  inserted := (List.mem_erase_of_ne hne).mpr h.inserted
  fresh := by
    rw [providerIds_commit hid, List.mem_append, List.mem_singleton]
    rintro (hmem | heq)
    · exact h.fresh hmem
    · exact hne heq

theorem Collecting.Sound.commit {settlement : Settlement} {payment : Payment} {invoice : Invoice}
    (hcredited : (Collecting.credited settlement payment invoice).Sound settings store)
    (hpair : (collectAssertion settings).pair (.credited settlement payment invoice) other)
    (h : other.Sound settings store) :
    other.Sound settings (store.commit settlement payment invoice) := by
  obtain ⟨-, -, -, row, now, later, hrow, rfl, rfl⟩ := hcredited
  have hfree : ∀ {id}, other.insertedId = some id → id ≠ settlement.providerPaymentId := by
    rintro id hid rfl
    exact hpair.1 _ rfl hid
  cases other with
  | charge => trivial
  | charging => exact h.commit hrow
  | settling => exact h.commit hrow
  | locating => exact h.commit hrow
  | recording => exact h.commit hrow
  | adding => exact ⟨h.1, h.2.commit hrow⟩
  | added => exact ⟨h.1, h.2.1.commit hrow, h.2.2.1.commit rfl (hfree rfl), h.2.2.2⟩
  | credited settlement' payment' invoice' =>
      obtain ⟨hpositive, hheld, hupdated, row', now', later', hrow', hpayment, hinvoice⟩ := h
      have hne : settlement'.invoiceId ≠ settlement.invoiceId := by
        intro heq
        exact hpair.2 _ rfl (by rw [← heq]; rfl)
      refine ⟨hpositive, hheld.commit rfl (hfree rfl), (List.mem_erase_of_ne hne).mpr hupdated,
        row', now', later', ?_, hpayment, hinvoice⟩
      rw [getInvoice_commit hrow, if_neg hne]
      exact hrow'
  | ended => trivial

/-! ### One turn -/

/-- A request that holds nothing is in no other's way. -/
theorem pair_of_idle (hinserted : request.insertedId = none)
    (hupdated : request.updatedInvoice = none) :
    (collectAssertion settings).pair request other := by
  refine ⟨fun id hid => ?_, fun invoiceId hid => ?_⟩
  · rw [hinserted] at hid
    cases hid
  · rw [hupdated] at hid
    cases hid

theorem Collecting.Resumed.keepsOwn (h : Collecting.Resumed store request store' other)
    (hstore : (collectAssertion settings).store store) (hsound : request.Sound settings store) :
    KeepsOwn (collectAssertion settings) store' other := by
  cases h with
  | waits => exact ⟨hstore, hsound⟩
  | ends => exact ⟨hstore, trivial⟩
  | read found => exact ⟨hstore, _, found, .refl _⟩
  | settled => exact ⟨hstore, hsound⟩
  | replayed => exact ⟨hstore, trivial⟩
  | unknown => exact ⟨hstore, hsound⟩
  | located found => exact ⟨hstore, _, found, .refl _⟩
  | unpaid => exact ⟨hstore, trivial⟩
  | checked positive => exact ⟨hstore, positive, hsound⟩
  | inserted now free fresh =>
      exact ⟨hstore, hsound.1, hsound.2, ⟨List.mem_cons_self, fresh⟩, now, rfl⟩
  | refused => exact ⟨hstore, trivial⟩
  | updated later unlocked current =>
      obtain ⟨hpositive, ⟨invoice, hinvoice, hsees⟩, hreserves, now, hpayment⟩ := hsound
      refine ⟨hstore, hpositive, ⟨hreserves.inserted, hreserves.fresh⟩, List.mem_cons_self, invoice,
        now, later, hinvoice, ?_⟩
      have hrow : _ = invoice := hsees.row_eq current
      rw [hpayment, hrow]
      exact ⟨rfl, rfl⟩
  | @committed settlement =>
      obtain ⟨hpositive, hreserves, -, row, now, later, hrow, rfl, rfl⟩ := hsound
      refine ⟨⟨?_, ?_⟩, trivial⟩
      · have hreplayed : store.db.replayed (some settlement.providerPaymentId) = none := by
          cases hfound : store.db.replayed (some settlement.providerPaymentId) with
          | none => rfl
          | some existing => exact absurd (mem_providerIds_of_replayed hfound) hreserves.fresh
        exact hstore.1.effect (.recorded hrow hpositive hreplayed)
      · show (store.commit _ _ _).db.providerIds.Nodup
        rw [providerIds_commit rfl, List.nodup_append]
        refine ⟨hstore.2, List.nodup_singleton _, ?_⟩
        rintro id hid id' hid' rfl
        rw [List.mem_singleton.mp hid'] at hid
        exact hreserves.fresh hid

theorem Collecting.Resumed.keepsOther {request' : Collecting}
    (h : Collecting.Resumed store request store' request') (hown : request.Sound settings store)
    (hsound : other.Sound settings store) (hpair : (collectAssertion settings).pair request other) :
    KeepsOther (collectAssertion settings) store' request' other := by
  cases h with
  | waits => exact ⟨hsound, hpair⟩
  | ends => exact ⟨hsound, pair_of_idle rfl rfl⟩
  | read => exact ⟨hsound, pair_of_idle rfl rfl⟩
  | settled => exact ⟨hsound.report _, pair_of_idle rfl rfl⟩
  | replayed => exact ⟨hsound.report _, pair_of_idle rfl rfl⟩
  | unknown => exact ⟨hsound.report _, pair_of_idle rfl rfl⟩
  | located => exact ⟨hsound, pair_of_idle rfl rfl⟩
  | unpaid => exact ⟨hsound, pair_of_idle rfl rfl⟩
  | checked => exact ⟨hsound, pair_of_idle rfl rfl⟩
  | inserted now free =>
      refine ⟨hsound.of_same ⟨rfl, rfl, fun _ _ hmem => List.mem_cons_of_mem _ hmem,
        fun _ _ hmem => hmem⟩, fun id hid hid' => ?_, fun invoiceId hid => by cases hid⟩
      -- The other would have the id in the list of the inserted ones.
      cases hid
      exact free (hsound.reserves hid').inserted
  | refused =>
      refine ⟨hsound.of_same ⟨rfl, rfl, fun id hid hmem => ?_, fun _ _ hmem => hmem⟩,
        pair_of_idle rfl rfl⟩
      refine (List.mem_erase_of_ne ?_).mpr hmem
      rintro rfl
      exact hpair.1 _ rfl hid
  | updated later unlocked =>
      refine ⟨hsound.of_same ⟨rfl, rfl, fun _ _ hmem => hmem,
        fun _ _ hmem => List.mem_cons_of_mem _ hmem⟩, hpair.1, fun invoiceId hid hid' => ?_⟩
      cases hid
      exact unlocked (hsound.mem_updated hid')
  | committed => exact ⟨hown.commit hpair hsound, pair_of_idle rfl rfl⟩

theorem collect_step {s : Collection} (turn : CollectTurn)
    (h : Holds (collectAssertion settings) s) :
    Holds (collectAssertion settings) (s.step settings turn) := by
  refine h.step (fun p _ hp => ?_) (fun p _ q _ hp _ _ hq hpair => ?_)
  · exact (collect_cases settings turn.input hp).keepsOwn h.store hp
  · exact (collect_cases settings turn.input hp).keepsOther hp hq hpair

end

/-! ## What becomes of a reported payment -/

def Collecting.isEnded : Collecting → Bool
  | .ended => true
  | _ => false

theorem Collecting.carries_of_isEnded {request : Collecting} (h : request.isEnded = true) :
    request.carries = none := by
  cases request <;> first | rfl | cases h

namespace Collection

/-- Requests that are called on a ledger: charges, and callbacks that refer to an invoice
of it. -/
structure Starts (settings : Settings) (s : Collection) : Prop where
  called : ∀ request ∈ s.procs,
    (∃ invoiceId providerSlug customerReference,
      request = .charge invoiceId providerSlug customerReference) ∨
    ∃ providerSlug event, request = .settling providerSlug event ∧ s.store.Refers settings event
  conserved : Conserved s.store.db
  unique : s.store.db.providerIds.Nodup
  /-- What was reported before was recorded before. -/
  recorded : ∀ id ∈ s.store.reported, id ∈ s.store.db.providerIds

def AllEnded (s : Collection) : Prop := ∀ request ∈ s.procs, request.isEnded = true

instance (s : Collection) : Decidable s.AllEnded :=
  inferInstanceAs (Decidable (∀ request ∈ s.procs, request.isEnded = true))

/-- In the end every payment id that was reported has one payment, and the balance of an
invoice is the sum of its payments. -/
def Records (s : Collection) : Prop :=
  s.AllEnded →
    (∀ id ∈ s.store.reported, s.store.db.providerIds.count id = 1) ∧
      ∀ invoiceId invoice, s.store.db.getInvoice invoiceId = some invoice →
        invoice.amountPaidCents =
          ((s.store.db.paymentsOf invoiceId).map fun p => p.amountCents - p.refundedCents).sum

/-- The turn is neither the flush of an invoice that was written since the request read it,
nor the check of a settlement of nothing. -/
def Undisturbed (s : Collection) (turn : CollectTurn) : Prop :=
  (∀ settlement seen, s.procs[turn.proc]? = some (.recording settlement seen) →
    0 < settlement.amountCents) ∧
  ∀ settlement seen payment, s.procs[turn.proc]? = some (.added settlement seen payment) →
    settlement.invoiceId ∉ s.store.updated → seen.version = s.store.versions settlement.invoiceId

/-- What was reported is recorded, or a request has still to record it. -/
structure Tracked (settings : Settings) (s : Collection) : Prop where
  sound : Holds (collectAssertion settings) s
  reported : ∀ id ∈ s.store.reported, id ∈ s.store.db.providerIds ∨
    ∃ (i : Nat) (request : Collecting), s.procs[i]? = some request ∧ request.carries = some id

end Collection

section

variable {settings : Settings} {store store' : CollectStore} {request request' : Collecting}

/-- Payments are not removed. -/
theorem Collecting.Resumed.mem_providerIds (h : Collecting.Resumed store request store' request')
    (hsound : request.Sound settings store) {id : String} (hid : id ∈ store.db.providerIds) :
    id ∈ store'.db.providerIds := by
  cases h with
  | committed =>
      obtain ⟨-, -, -, row, now, later, -, rfl, rfl⟩ := hsound
      rw [providerIds_commit rfl]
      exact List.mem_append_left _ hid
  | _ => exact hid

/-- What a turn reports anew is carried by its request, or recorded already. -/
theorem Collecting.Resumed.mem_reported (h : Collecting.Resumed store request store' request')
    {id : String} (hid : id ∈ store'.reported) :
    id ∈ store.reported ∨ id ∈ store.db.providerIds ∨ request'.carries = some id := by
  cases h with
  | settled =>
      rcases List.mem_cons.mp hid with rfl | hid
      · exact .inr (.inr rfl)
      · exact .inl hid
  | replayed recorded =>
      rcases List.mem_cons.mp hid with rfl | hid
      · exact .inr (.inl recorded)
      · exact .inl hid
  | unknown =>
      rcases List.mem_cons.mp hid with rfl | hid
      · exact .inr (.inr rfl)
      · exact .inl hid
  | _ => exact .inl hid

variable {s : Collection} {turn : CollectTurn}

/-- A request goes on carrying what it carries until it is recorded. -/
theorem Collecting.Resumed.carries
    (h : Collecting.Resumed s.store request store' request')
    (hrequest : s.procs[turn.proc]? = some request) (hsound : request.Sound settings s.store)
    (hundisturbed : s.Undisturbed turn) {id : String} (hid : request.carries = some id) :
    id ∈ store'.db.providerIds ∨ request'.carries = some id := by
  cases h with
  | waits => exact .inr hid
  | ends recorded => exact .inl (recorded id hid)
  | read => cases hid
  | settled => cases hid
  | replayed => cases hid
  | unknown => cases hid
  | located => exact .inr hid
  | unpaid nothing => exact absurd (hundisturbed.1 _ _ hrequest) (not_lt.mpr nothing)
  | checked => exact .inr hid
  | inserted => exact .inr hid
  | refused unlocked stale => exact absurd (hundisturbed.2 _ _ _ hrequest unlocked) stale
  | updated => exact .inr hid
  | committed =>
      obtain ⟨-, -, -, row, now, later, -, rfl, rfl⟩ := hsound
      cases hid
      rw [providerIds_commit rfl]
      exact .inl (List.mem_append_right _ (List.mem_singleton_self _))

theorem Collection.Tracked.step (h : s.Tracked settings) (hundisturbed : s.Undisturbed turn) :
    (s.step settings turn).Tracked settings := by
  refine ⟨collect_step turn h.sound, ?_⟩
  cases hrequest : s.procs[turn.proc]? with
  | none =>
      have hstep : s.step settings turn = s := step_of_none hrequest
      rw [hstep]
      exact h.reported
  | some request =>
      have hsound : request.Sound settings s.store := h.sound.proc _ _ hrequest
      have hresumed := collect_cases settings turn.input hsound
      have hstep : s.step settings turn = _ := step_of_some hrequest
      rw [hstep]
      generalize request.resume settings s.store turn.input = next at hresumed ⊢
      obtain ⟨store', request'⟩ := next
      dsimp only at hresumed ⊢
      have hself : (s.procs.set turn.proc request')[turn.proc]? = some request' :=
        List.getElem?_set_self (List.getElem?_eq_some_iff.mp hrequest).1
      intro id hid
      rcases hresumed.mem_reported hid with hold | hrecorded | hcarries
      · rcases h.reported id hold with hrecorded | ⟨i, other, hother, hcarries⟩
        · exact .inl (hresumed.mem_providerIds hsound hrecorded)
        · by_cases hi : i = turn.proc
          · subst hi
            rw [hrequest, Option.some.injEq] at hother
            subst hother
            rcases hresumed.carries hrequest hsound hundisturbed hcarries with hrecorded | hkept
            · exact .inl hrecorded
            · exact .inr ⟨_, request', hself, hkept⟩
          · refine .inr ⟨i, other, ?_, hcarries⟩
            rw [List.getElem?_set_ne (Ne.symm hi)]
            exact hother
      · exact .inl (hresumed.mem_providerIds hsound hrecorded)
      · exact .inr ⟨_, request', hself, hcarries⟩

end

namespace Collection

variable {settings : Settings} {s : Collection}

/-- At the start nothing is held and nothing is to be recorded. -/
theorem Starts.tracked (h : s.Starts settings) : s.Tracked settings := by
  refine ⟨⟨⟨h.conserved, h.unique⟩, fun i p hp => ?_, fun i j p q _ hp _ => ?_⟩,
    fun id hid => .inl (h.recorded id hid)⟩
  · rcases h.called p (List.mem_of_getElem? hp) with ⟨_, _, _, rfl⟩ | ⟨_, _, rfl, hrefers⟩
    · trivial
    · exact hrefers
  · rcases h.called p (List.mem_of_getElem? hp) with ⟨_, _, _, rfl⟩ | ⟨_, _, rfl, -⟩
    · exact pair_of_idle rfl rfl
    · exact pair_of_idle rfl rfl

theorem Tracked.records (h : s.Tracked settings) : s.Records := by
  intro hended
  refine ⟨fun id hid => List.count_eq_one_of_mem h.sound.store.2 ?_,
    fun _ _ hinvoice => h.sound.store.1.balance _ _ hinvoice⟩
  rcases h.reported id hid with hrecorded | ⟨i, request, hrequest, hcarries⟩
  · exact hrecorded
  · rw [Collecting.carries_of_isEnded (hended _ (List.mem_of_getElem? hrequest))] at hcarries
    cases hcarries

end Collection

/-! ## Runs -/

/-- In every run in which no request finds its invoice written since when it flushes it,
and none is to record a settlement of nothing, every payment id that was reported has one
payment when all requests have ended, and the balances are the sums of the payments. -/
theorem settlements_recorded (settings : Settings) (start : Collection)
    (hstart : start.Starts settings) (turns : List CollectTurn)
    (hundisturbed : Run.EveryStep (Collection.step settings) Collection.Undisturbed start turns) :
    Run.Always (Collection.step settings) Collection.Records start turns := by
  have htracked : Run.Always (Collection.step settings) (Collection.Tracked settings) start turns :=
    Run.always_of_everyStep (fun _ _ hturn h => h.step hturn) turns hundisturbed hstart.tracked
  exact htracked.imp fun _ h => h.records

/-! ## A charge and a callback -/

/-- SHA-256 on the texts that are hashed below. -/
def threeAmountsLibrary : Library where
  sha256 text :=
    if text = "INV-202501-000001|1000|USD" then
      "ef6c04c1c076f7e16d1c18281ac8b0df2624b80e0877c4367bce722e0c940bad"
    else if text = "INV-202501-000001|400|USD" then
      "6620268377e8da1c4ed9e4d64c2e396ad6a046d85808863c84d21a624f26538b"
    else if text = "INV-202501-000001|600|USD" then
      "2594d4463491ce6e0598e41dc18cdb081b285b137da83ab8e2b8e5f05dec0374"
    else ""
  hmac _ _ := ""
  loads _ := .error none
  containerRepr _ := ""

def mockSettings : Settings := threeAmountsLibrary.settings "secret"

/-- A callback that settles 400 cents of the invoice. -/
def partSettled : WebhookEvent where
  eventId := "evt-1"
  eventType := "payment.succeeded"
  providerPaymentId := .str (threeAmountsLibrary.paymentId "INV-202501-000001" 400 "USD")
  amountCents := some 400
  payload := [("data", .dict [("reference", .str "INV-202501-000001")])]

/-- A charge of the invoice over 10 dollars, and the callback. -/
def chargeAndCallback : Collection where
  store :=
    { db := oneOpenInvoice
      versions := fun _ => 1
      inserted := []
      updated := []
      reported := [] }
  procs := [.charge 0 none none, .settling "mock" partSettled]

theorem chargeAndCallback_starts : chargeAndCallback.Starts mockSettings where
  called := by
    intro request hrequest
    rcases List.mem_pair.mp hrequest with rfl | rfl
    · exact .inl ⟨0, none, none, rfl⟩
    · exact .inr ⟨"mock", partSettled, rfl, "INV-202501-000001", 0, rfl, by decide, rfl⟩
  conserved := (Opening.mk oneOpenInvoice.invoices (by decide)).conserved
  unique := List.nodup_nil
  recorded := by simp [chargeAndCallback]

/-- A turn of a request at noon. -/
def atNoon (request : Nat) : CollectTurn := ⟨request, 1738411200⟩

/-- The callback first, then the charge of the 600 cents that are left: both are recorded. -/
theorem charge_after_callback :
    let turns := List.replicate 6 (atNoon 1) ++ List.replicate 6 (atNoon 0)
    let left := Run.run (Collection.step mockSettings) chargeAndCallback turns
    left.AllEnded ∧ left.store.reported.length = 2 ∧
      Run.Always (Collection.step mockSettings) Collection.Records chargeAndCallback turns := by
  refine ⟨by decide, rfl, settlements_recorded mockSettings _ chargeAndCallback_starts _ ?_⟩
  refine ⟨?_, ?_, ?_, ?_, ?_, ?_, ?_, ?_, ?_, ?_, ?_, ?_, trivial⟩ <;>
    · refine ⟨fun settlement seen hrequest => ?_, fun settlement seen payment hrequest _ => ?_⟩ <;>
        cases hrequest <;> decide

/-- The charge reads the invoice and is settled over 1000 cents, the callback is recorded,
and then the charge is refused. -/
def callbackBetween : List CollectTurn :=
  List.replicate 2 (atNoon 0) ++ List.replicate 6 (atNoon 1) ++ List.replicate 3 (atNoon 0)

/-- The provider has settled 1000 cents, and no payment has the id it reported. -/
theorem settled_not_recorded :
    let left := Run.run (Collection.step mockSettings) chargeAndCallback callbackBetween
    let id := threeAmountsLibrary.paymentId "INV-202501-000001" 1000 "USD"
    chargeAndCallback.Starts mockSettings ∧ left.AllEnded ∧ id ∈ left.store.reported ∧
      left.store.db.providerIds.count id = 0 ∧
      ¬ Run.Always (Collection.step mockSettings) Collection.Records chargeAndCallback
        callbackBetween := by
  intro left id
  have hended : left.AllEnded := by decide
  have hreported : id ∈ left.store.reported := by decide
  have hnone : left.store.db.providerIds.count id = 0 := by decide
  refine ⟨chargeAndCallback_starts, hended, hreported, hnone, fun halways => ?_⟩
  have hone := (halways.last hended).1 id hreported
  rw [hnone] at hone
  cases hone

end YoutubeFactory.Billing
