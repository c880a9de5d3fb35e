import YoutubeFactory.Lib.Keyed
import YoutubeFactory.Billing.Conservation
import YoutubeFactory.Billing.MockProvider

/-!
# Settlement callbacks in any order

A provider delivers its callbacks more than once and in any order.  A callback that
settles is one call of `record_payment` (`step_handleWebhook`), which keeps the
first payment of each provider id.  What a run of deliveries leaves is the initial
ledger with the kept credits on top (`credited_run`), so it does not depend on the
order of the deliveries or on how often a callback is delivered
(`callbacks_commute`).
-/

namespace YoutubeFactory.Billing

open Python

/-! ## Callbacks -/

/-- A callback, as it arrives. -/
structure Callback where
  payload : List UInt8
  signature : Option String
  providerSlug : Option String
deriving DecidableEq

structure Delivery where
  callback : Callback
  now : DateTime
  later : DateTime

def Delivery.call (settings : Settings) (delivery : Delivery) : LedgerCall :=
  .handleWebhook settings delivery.callback.payload delivery.callback.signature
    delivery.callback.providerSlug delivery.now delivery.later

/-- What a verified `payment.succeeded` callback asks to record. -/
structure Settlement where
  provider : String
  providerPaymentId : String
  invoiceId : Id
  amountCents : Int

/-- The settlement of a verified event, if it refers to an invoice. -/
def Ledger.settlementOf (db : Ledger) (settings : Settings) (provider : String)
    (event : WebhookEvent) : Option Settlement :=
  match event.providerPaymentId, event.amountCents with
  | .str id, some amountCents =>
      if id = "" then none
      else
        match referencedNumber settings event.payload with
        | .error _ => none
        | .ok number =>
            (if number = "" then none else db.invoiceByNumber number).map fun invoiceId =>
              ⟨provider, id, invoiceId, amountCents⟩
  | _, _ => none

/-- The settlement of a callback, if it verifies as one. -/
def Ledger.settlement? (db : Ledger) (settings : Settings) (callback : Callback) :
    Option Settlement :=
  match settings.getProvider callback.providerSlug with
  | .error _ => none
  | .ok provider =>
      match provider.verifyWebhook callback.payload callback.signature
          settings.paymentWebhookSecret with
      | .error _ => none
      | .ok event =>
          if event.eventType = "payment.succeeded" then
            db.settlementOf settings provider.slug event
          else none

/-! ## Recording a payment -/

namespace Ledger

/-- The checks of `record_payment` beside the invoice. -/
def Accepts (db : Ledger) (amountCents : Int) (providerPaymentId : Option String) : Prop :=
  0 < amountCents ∧ db.replayed providerPaymentId = none ∧
    db.providerIdTaken providerPaymentId = false

instance (db : Ledger) (amountCents : Int) (providerPaymentId : Option String) :
    Decidable (db.Accepts amountCents providerPaymentId) :=
  inferInstanceAs (Decidable (_ ∧ _ ∧ _))

/-- The tables after an accepted payment. -/
def credited (db : Ledger) (invoiceId : Id) (invoice : Invoice) (amountCents : Int)
    (provider providerPaymentId : Option String) (now later : DateTime) : Ledger :=
  (db.addPayment (invoice.payment invoiceId amountCents provider providerPaymentId
    now)).setInvoice invoiceId (invoice.credit amountCents later)

variable {db : Ledger} {invoiceId : Id} {amountCents : Int}
  {provider providerPaymentId : Option String} {now later : DateTime}

theorem step_recordPayment_accepted {invoice : Invoice}
    (hinvoice : db.getInvoice invoiceId = some invoice)
    (haccepts : db.Accepts amountCents providerPaymentId) :
    (LedgerCall.recordPayment invoiceId amountCents provider providerPaymentId now later).step db =
      db.credited invoiceId invoice amountCents provider providerPaymentId now later := by
  obtain ⟨hpositive, hreplayed, hfree⟩ := haccepts
  rw [LedgerCall.step_recordPayment, recordPayment, if_neg (by omega), hreplayed, hinvoice]
  dsimp only
  rw [hfree]
  rfl

theorem step_recordPayment_refused (hrefused : ¬ db.Accepts amountCents providerPaymentId) :
    (LedgerCall.recordPayment invoiceId amountCents provider providerPaymentId now later).step db =
      db := by
  rw [LedgerCall.step_recordPayment, recordPayment]
  split
  · rfl
  · next hpositive =>
      cases hreplayed : db.replayed providerPaymentId with
      | some existing => rfl
      | none =>
          cases db.getInvoice invoiceId with
          | none => rfl
          | some invoice =>
              dsimp only
              rw [if_pos]
              · rfl
              · by_contra hfree
                exact hrefused ⟨by omega, hreplayed, by simpa using hfree⟩

/-- A payment that is found by its provider id is refused. -/
theorem accepts_some_iff {id : String} (hid : id ≠ "") :
    db.Accepts amountCents (some id) ↔ 0 < amountCents ∧ db.providerIdTaken (some id) = false := by
  refine and_congr_right fun _ => and_iff_right_of_imp fun hfree => ?_
  have hreplayed : db.replayed (some id) = db.paymentByProviderId id := if_neg hid
  rw [hreplayed]
  refine List.findIdx?_eq_none_iff.mpr fun p hp => ?_
  have hne : p.providerPaymentId ≠ some id := by
    simp only [providerIdTaken, Option.isSome_some, Bool.true_and, List.any_eq_false,
      decide_eq_true_eq] at hfree
    exact hfree p hp
  simp [hne]

end Ledger

/-! ## A callback is one payment -/

/-- The tables after a settlement, or after none. -/
def Ledger.settled (db : Ledger) (now later : DateTime) : Option Settlement → Ledger
  | none => db
  | some s =>
      (LedgerCall.recordPayment s.invoiceId s.amountCents (some s.provider)
        (some s.providerPaymentId) now later).step db

/-- A payment that is found already is recorded by no settlement. -/
theorem settled_of_found {db : Ledger} {settings : Settings} {provider : String}
    {event : WebhookEvent} {now later : DateTime} {id : String} {existing : Id}
    (hid : event.providerPaymentId = .str id) (hfound : db.paymentByProviderId id = some existing) :
    db.settled now later (db.settlementOf settings provider event) = db := by
  have hrefused : ∀ amountCents, id ≠ "" → ¬ db.Accepts amountCents (some id) := by
    rintro amountCents hne ⟨-, hreplayed, -⟩
    have hlookup : db.replayed (some id) = db.paymentByProviderId id := if_neg hne
    rw [hlookup, hfound] at hreplayed
    cases hreplayed
  unfold Ledger.settlementOf
  rw [hid]
  cases event.amountCents with
  | none => rfl
  | some amountCents =>
      dsimp only
      split
      · rfl
      · next hne =>
          split
          · rfl
          · next number _ =>
              cases (if number = "" then none else db.invoiceByNumber number) with
              | none => rfl
              | some invoiceId => exact Ledger.step_recordPayment_refused (hrefused _ hne)

theorem commit_applySettlement (db : Ledger) (settings : Settings) (provider : String)
    (event : WebhookEvent) (now later : DateTime) :
    Run.commit db (db.applySettlement settings provider event now later) =
      db.settled now later (db.settlementOf settings provider event) := by
  by_cases hstr : ∃ id, event.providerPaymentId = .str id ∧ id ≠ ""
  · obtain ⟨id, hid, hne⟩ := hstr
    have htruth : (Json.str id).truth = true := decide_eq_true hne
    unfold Ledger.applySettlement
    rw [hid, htruth]
    cases hamount : event.amountCents with
    | none =>
        unfold Ledger.settlementOf
        rw [hid, hamount]
        rfl
    | some amountCents =>
        dsimp only
        cases hfound : db.paymentByProviderId id with
        | some existing => rw [settled_of_found hid hfound]; rfl
        | none =>
            unfold Ledger.settlementOf
            rw [hid, hamount]
            dsimp only
            rw [if_neg hne]
            cases referencedNumber settings event.payload with
            | error e => rfl
            | ok number =>
                rw [Except.ok_bind]
                dsimp only
                cases (if number = "" then none else db.invoiceByNumber number) with
                | none => rfl
                | some invoiceId =>
                    rw [Option.map_some, Ledger.settled, LedgerCall.step_recordPayment]
                    exact Run.commit_bind _ fun _ => rfl
  · have hnone : db.settlementOf settings provider event = none := by
      unfold Ledger.settlementOf
      split
      · next id amountCents hid hamount =>
          rw [if_pos]
          by_contra hne
          exact hstr ⟨id, hid, hne⟩
      · rfl
    rw [hnone]
    unfold Ledger.applySettlement
    split
    · next amountCents htruth _ =>
        split
        · next id hid =>
            refine absurd ⟨id, hid, ?_⟩ hstr
            rw [hid] at htruth
            exact of_decide_eq_true htruth
        · rfl
    · rfl

/-- A callback records its settlement, and without one it changes nothing. -/
theorem step_handleWebhook (db : Ledger) (settings : Settings) (delivery : Delivery) :
    (delivery.call settings).step db =
      db.settled delivery.now delivery.later (db.settlement? settings delivery.callback) := by
  rw [Delivery.call, LedgerCall.step_handleWebhook, Ledger.handleWebhook, Ledger.settlement?]
  cases settings.getProvider delivery.callback.providerSlug with
  | error e => rfl
  | ok provider =>
      rw [Except.ok_bind]
      dsimp only
      cases provider.verifyWebhook delivery.callback.payload delivery.callback.signature
          settings.paymentWebhookSecret with
      | error e => rfl
      | ok event =>
          rw [Except.ok_bind]
          dsimp only
          by_cases htype : event.eventType = "payment.succeeded"
          · rw [if_pos htype, if_pos htype, ← commit_applySettlement]
            exact Run.commit_bind _ fun _ => rfl
          · rw [if_neg htype, if_neg htype]
            rfl

/-! ## What a run of deliveries leaves -/

/-- What a callback credits. -/
structure Credit where
  providerPaymentId : String
  invoiceId : Id
  amountCents : Int
deriving DecidableEq

/-- The credit of a callback: a settlement of a positive amount. -/
def Ledger.credit? (db : Ledger) (settings : Settings) (callback : Callback) : Option Credit :=
  ((db.settlement? settings callback).filter fun s => 0 < s.amountCents).map fun s =>
    ⟨s.providerPaymentId, s.invoiceId, s.amountCents⟩

/-- The provider id, the invoice and the amount of a payment. -/
def Payment.entry (payment : Payment) : Option String × Id × Int :=
  (payment.providerPaymentId, payment.invoiceId, payment.amountCents)

def Credit.entry (credit : Credit) : Option String × Id × Int :=
  (some credit.providerPaymentId, credit.invoiceId, credit.amountCents)

/-- The balance and the status of an invoice after credits of some amounts. -/
def Invoice.standing (invoice : Invoice) (amounts : List Int) : Int × InvoiceStatus :=
  let paid := invoice.amountPaidCents + amounts.sum
  (paid, if amounts ≠ [] ∧ invoice.totalCents ≤ paid then .paid else invoice.status)

/-- The amounts of the credits to an invoice. -/
def amountsOf (credits : List Credit) (invoiceId : Id) : List Int :=
  (credits.filter fun c => c.invoiceId = invoiceId).map Credit.amountCents

namespace Ledger

/-- An invoice is found by its number in tables with the same numbers. -/
theorem invoiceByNumber_congr {db db' : Ledger}
    (h : (db.invoices.map fun i => (i.number, i.deletedAt)) =
      db'.invoices.map fun i => (i.number, i.deletedAt)) (number : String) :
    db.invoiceByNumber number = db'.invoiceByNumber number := by
  have hindex : ∀ invoices : List Invoice,
      (invoices.findIdx? fun i => i.number = number ∧ i.deletedAt = none) =
        (invoices.map fun i => (i.number, i.deletedAt)).findIdx? fun e =>
          e.1 = number ∧ e.2 = none := by
    intro invoices
    rw [List.findIdx?_map]
    rfl
  unfold invoiceByNumber
  rw [hindex, h, ← hindex]

/-- An invoice that is found by its number is there. -/
theorem getInvoice_of_invoiceByNumber {db : Ledger} {number : String} {id : Id}
    (h : db.invoiceByNumber number = some id) : ∃ invoice, db.getInvoice id = some invoice :=
  ⟨_, List.getElem?_eq_getElem (List.findIdx?_eq_some_iff_getElem.mp h).1⟩

/-- A credit leaves the numbers as they are. -/
theorem numbers_setInvoice_credit {db : Ledger} {id : Id} {invoice : Invoice}
    (hinvoice : db.getInvoice id = some invoice) (amountCents : Int) (later : DateTime) :
    ((db.setInvoice id (invoice.credit amountCents later)).invoices.map fun i =>
      (i.number, i.deletedAt)) = db.invoices.map fun i => (i.number, i.deletedAt) := by
  have hsame : ((invoice.credit amountCents later).number,
      (invoice.credit amountCents later).deletedAt) = (invoice.number, invoice.deletedAt) := by
    simp
  have hrow : db.invoices[id]? = some invoice := hinvoice
  unfold setInvoice
  dsimp only
  rw [List.map_set, hsame]
  exact Table.set_same (by rw [List.getElem?_map, hrow]; rfl)

end Ledger

/-- The tables are the initial ones with some credits on top. -/
structure Credited (initial db : Ledger) (kept : List Credit) : Prop where
  entries : db.payments.map Payment.entry =
    initial.payments.map Payment.entry ++ kept.map Credit.entry
  numbers : (db.invoices.map fun i => (i.number, i.deletedAt)) =
    initial.invoices.map fun i => (i.number, i.deletedAt)
  standing : ∀ id invoice, initial.getInvoice id = some invoice →
    ∃ invoice', db.getInvoice id = some invoice' ∧ invoice'.totalCents = invoice.totalCents ∧
      (invoice'.amountPaidCents, invoice'.status) = invoice.standing (amountsOf kept id)

theorem Credited.refl (db : Ledger) : Credited db db [] where
  entries := (List.append_nil _).symm
  numbers := rfl
  standing _ invoice h := ⟨invoice, h, rfl, by simp [Invoice.standing, amountsOf]⟩

namespace Credited

variable {initial db : Ledger} {kept : List Credit}

theorem invoiceByNumber (h : Credited initial db kept) (number : String) :
    db.invoiceByNumber number = initial.invoiceByNumber number :=
  Ledger.invoiceByNumber_congr h.numbers number

/-- What a callback asks to record stays the same. -/
theorem settlement? (h : Credited initial db kept) (settings : Settings) (callback : Callback) :
    db.settlement? settings callback = initial.settlement? settings callback := by
  unfold Ledger.settlement? Ledger.settlementOf
  simp only [h.invoiceByNumber]

/-- A provider id is taken at the outset or by a kept credit. -/
theorem providerIdTaken (h : Credited initial db kept) (id : String) :
    db.providerIdTaken (some id) = true ↔ initial.providerIdTaken (some id) = true ∨
      id ∈ kept.map Credit.providerPaymentId := by
  have hentry : ∀ payments : List Payment,
      (payments.any fun p => decide (p.providerPaymentId = some id)) =
        (payments.map Payment.entry).any fun e => decide (e.1 = some id) := by
    intro payments
    rw [List.any_map]
    rfl
  unfold Ledger.providerIdTaken
  rw [Option.isSome_some, Bool.true_and, Bool.true_and, hentry, hentry, h.entries, List.any_append,
    Bool.or_eq_true]
  refine or_congr Iff.rfl ?_
  simp [Credit.entry]

end Credited

theorem standing_credit {invoice initial : Invoice} {amounts : List Int} {amountCents : Int}
    {now : DateTime} (hpositive : 0 < amountCents)
    (htotal : invoice.totalCents = initial.totalCents)
    (h : (invoice.amountPaidCents, invoice.status) = initial.standing amounts) :
    (invoice.credit amountCents now).totalCents = initial.totalCents ∧
      ((invoice.credit amountCents now).amountPaidCents, (invoice.credit amountCents now).status) =
        initial.standing (amounts ++ [amountCents]) := by
  rw [Invoice.standing, Prod.mk.injEq] at h
  obtain ⟨hpaid, hstatus⟩ := h
  have hsum : (amounts ++ [amountCents]).sum = amounts.sum + amountCents := by simp
  rw [Invoice.credit_totalCents, Invoice.credit_amountPaidCents, Invoice.credit_status]
  refine ⟨htotal, ?_⟩
  split
  · next hcovered =>
      rw [Invoice.standing, hsum, if_pos ⟨by simp, by omega⟩, hpaid, add_assoc]
  · next hopen =>
      -- Less was paid before, so the status had not been changed either.
      rw [if_neg (by omega)] at hstatus
      rw [Invoice.standing, hsum, if_neg (by omega), hstatus, hpaid, add_assoc]

/-- A settlement has a provider id, and its invoice exists. -/
theorem settlement?_some {db : Ledger} {settings : Settings} {callback : Callback}
    {s : Settlement} (h : db.settlement? settings callback = some s) :
    s.providerPaymentId ≠ "" ∧ ∃ invoice, db.getInvoice s.invoiceId = some invoice := by
  unfold Ledger.settlement? at h
  split at h
  · cases h
  · split at h
    · cases h
    · split at h
      · unfold Ledger.settlementOf at h
        split at h
        · split at h
          · cases h
          · next hne =>
              split at h
              · cases h
              · obtain ⟨invoiceId, hnumber, rfl⟩ := Option.map_eq_some_iff.mp h
                refine ⟨hne, ?_⟩
                split at hnumber
                · cases hnumber
                · exact Ledger.getInvoice_of_invoiceByNumber hnumber
        · cases h
      · cases h

/-- One more credit on top. -/
theorem Credited.credit {initial db : Ledger} {kept : List Credit} (h : Credited initial db kept)
    (credit : Credit) {invoice : Invoice} {provider : Option String} {now later : DateTime}
    (hinvoice : db.getInvoice credit.invoiceId = some invoice)
    (hpositive : 0 < credit.amountCents) :
    Credited initial (db.credited credit.invoiceId invoice credit.amountCents provider
      (some credit.providerPaymentId) now later) (kept ++ [credit]) where
  entries := by
    have hrows : (db.credited credit.invoiceId invoice credit.amountCents provider
        (some credit.providerPaymentId) now later).payments = db.payments ++ [invoice.payment
          credit.invoiceId credit.amountCents provider (some credit.providerPaymentId) now] := rfl
    rw [hrows, List.map_append, h.entries, List.map_append, List.append_assoc]
    rfl
  numbers := by
    have hadded : (db.addPayment (invoice.payment credit.invoiceId credit.amountCents provider
        (some credit.providerPaymentId) now)).getInvoice credit.invoiceId = some invoice := hinvoice
    exact (Ledger.numbers_setInvoice_credit hadded _ later).trans h.numbers
  standing id invoice₀ hid := by
    obtain ⟨old, hold, htotal, hstanding⟩ := h.standing id invoice₀ hid
    have hadded : (db.addPayment (invoice.payment credit.invoiceId credit.amountCents provider
        (some credit.providerPaymentId) now)).getInvoice credit.invoiceId = some invoice := hinvoice
    unfold Ledger.credited
    rw [Ledger.getInvoice_setInvoice hadded]
    by_cases hk : id = credit.invoiceId
    · subst hk
      rw [hinvoice, Option.some.injEq] at hold
      subst hold
      have hamounts : amountsOf (kept ++ [credit]) credit.invoiceId =
          amountsOf kept credit.invoiceId ++ [credit.amountCents] := by simp [amountsOf]
      rw [if_pos rfl, hamounts]
      exact ⟨_, rfl, standing_credit hpositive htotal hstanding⟩
    · have hamounts : amountsOf (kept ++ [credit]) id = amountsOf kept id := by
        simp [amountsOf, Ne.symm hk]
      rw [if_neg hk, hamounts]
      exact ⟨old, hold, htotal, hstanding⟩

/-- A delivery keeps the credit of its callback, unless the provider id is taken. -/
theorem Credited.delivery {initial db : Ledger} {kept : List Credit} (h : Credited initial db kept)
    (settings : Settings) (delivery : Delivery) :
    Credited initial ((delivery.call settings).step db)
      (match initial.credit? settings delivery.callback with
        | none => kept
        | some credit => Keyed.keep Credit.providerPaymentId
            (fun id => initial.providerIdTaken (some id)) kept credit) := by
  rw [step_handleWebhook, h.settlement?]
  unfold Ledger.credit?
  cases hs : initial.settlement? settings delivery.callback with
  | none => exact h
  | some s =>
      obtain ⟨hne, invoice₀, hinvoice₀⟩ := settlement?_some hs
      obtain ⟨invoice, hinvoice, -⟩ := h.standing s.invoiceId invoice₀ hinvoice₀
      dsimp only [Ledger.settled]
      by_cases hpositive : 0 < s.amountCents
      · rw [Option.filter_some, if_pos (by simpa using hpositive), Option.map_some]
        dsimp only
        unfold Keyed.keep
        have htaken := h.providerIdTaken s.providerPaymentId
        by_cases hfree : db.providerIdTaken (some s.providerPaymentId) = true
        · rw [if_pos (htaken.mp hfree), Ledger.step_recordPayment_refused]
          · exact h
          · rw [Ledger.accepts_some_iff hne]
            rintro ⟨-, hfree'⟩
            rw [hfree] at hfree'
            cases hfree'
        · rw [if_neg fun hkept => hfree (htaken.mpr hkept),
            Ledger.step_recordPayment_accepted hinvoice
              ((Ledger.accepts_some_iff hne).mpr ⟨hpositive, by simpa using hfree⟩)]
          exact h.credit ⟨s.providerPaymentId, s.invoiceId, s.amountCents⟩ hinvoice hpositive
      · rw [Option.filter_some, if_neg (by simpa using hpositive), Option.map_none,
          Ledger.step_recordPayment_refused fun haccepts => hpositive haccepts.1]
        exact h

/-- What a callback credits in the end: the entries of a run of deliveries, each kept
once. -/
def Ledger.kept (initial : Ledger) (settings : Settings) (deliveries : List Delivery) :
    List Credit :=
  Keyed.keepAll Credit.providerPaymentId (fun id => initial.providerIdTaken (some id)) []
    (deliveries.filterMap fun d => initial.credit? settings d.callback)

theorem credited_deliveries (initial : Ledger) (settings : Settings) :
    ∀ (deliveries : List Delivery) {db : Ledger} {kept : List Credit}, Credited initial db kept →
      Credited initial (Run.run LedgerCall.step db (deliveries.map (·.call settings)))
        (Keyed.keepAll Credit.providerPaymentId (fun id => initial.providerIdTaken (some id)) kept
          (deliveries.filterMap fun d => initial.credit? settings d.callback))
  | [], _, _, h => h
  | delivery :: deliveries, db, kept, h => by
      have hnext := h.delivery settings delivery
      rw [List.map_cons, Run.run_cons, List.filterMap_cons]
      cases hcredit : initial.credit? settings delivery.callback with
      | none =>
          rw [hcredit] at hnext
          exact credited_deliveries initial settings deliveries hnext
      | some credit =>
          rw [hcredit] at hnext
          exact credited_deliveries initial settings deliveries hnext

/-- A run of deliveries leaves the initial tables with the kept credits on top. -/
theorem credited_run (initial : Ledger) (settings : Settings) (deliveries : List Delivery) :
    Credited initial (Run.run LedgerCall.step initial (deliveries.map (·.call settings)))
      (initial.kept settings deliveries) :=
  credited_deliveries initial settings deliveries (Credited.refl initial)

/-! ## Order and repetition -/

/-- The provider ids of the payments. -/
def Ledger.providerIds (db : Ledger) : List String := db.payments.filterMap (·.providerPaymentId)

theorem providerIdTaken_iff {db : Ledger} {id : String} :
    db.providerIdTaken (some id) = true ↔ id ∈ db.providerIds := by
  unfold Ledger.providerIdTaken Ledger.providerIds
  simp

theorem Credited.providerIds {initial db : Ledger} {kept : List Credit}
    (h : Credited initial db kept) :
    db.providerIds = initial.providerIds ++ kept.map Credit.providerPaymentId := by
  have hentry : ∀ db : Ledger,
      db.providerIds = (db.payments.map Payment.entry).filterMap (·.1) := by
    intro db
    rw [List.filterMap_map]
    rfl
  rw [hentry, hentry, h.entries, List.filterMap_append]
  refine congrArg _ ?_
  rw [List.filterMap_map, ← List.filterMap_eq_map]
  rfl

/-- The balance and the status of an invoice. -/
def Ledger.standing (db : Ledger) (id : Id) : Option (Int × InvoiceStatus) :=
  (db.getInvoice id).map fun i => (i.amountPaidCents, i.status)

theorem Credited.standing_eq {initial db : Ledger} {kept : List Credit}
    (h : Credited initial db kept) (id : Id) :
    db.standing id = (initial.getInvoice id).map (·.standing (amountsOf kept id)) := by
  unfold Ledger.standing
  cases hinvoice : initial.getInvoice id with
  | none =>
      have hlength : db.invoices.length = initial.invoices.length := by
        simpa using congrArg List.length h.numbers
      have hnone : db.getInvoice id = none := by
        unfold Ledger.getInvoice at hinvoice ⊢
        rw [List.getElem?_eq_none_iff] at hinvoice ⊢
        rwa [hlength]
      rw [hnone]
      rfl
  | some invoice =>
      obtain ⟨invoice', hfound, -, hstanding⟩ := h.standing id invoice hinvoice
      rw [hfound, Option.map_some, hstanding]
      rfl

theorem amountsOf_perm {credits credits' : List Credit} (h : credits.Perm credits') (id : Id) :
    (amountsOf credits id).Perm (amountsOf credits' id) :=
  (h.filter _).map _

theorem standing_perm {amounts amounts' : List Int} (h : amounts.Perm amounts')
    (invoice : Invoice) : invoice.standing amounts = invoice.standing amounts' := by
  have hnil : amounts = [] ↔ amounts' = [] := by
    rw [← List.length_eq_zero_iff, ← List.length_eq_zero_iff, h.length_eq]
  unfold Invoice.standing
  rw [h.sum_eq]
  simp only [ne_eq, hnil]

/-- What is credited on top of the initial tables: the payments of these credits are added, and
each invoice has the amounts of its own credits, and is paid when they cover it. -/
structure CreditedBy (initial db : Ledger) (credits : List Credit) : Prop where
  once : (credits.map Credit.providerPaymentId).Nodup
  payments : db.payments.map Payment.entry =
    initial.payments.map Payment.entry ++ credits.map Credit.entry
  standing : ∀ id invoice, initial.getInvoice id = some invoice →
    db.standing id = some (invoice.standing (amountsOf credits id))

/-! ### The credits that are kept -/

section

variable {settings : Settings} {initial : Ledger} {deliveries deliveries' : List Delivery}

/-- Deliveries of one provider id are of one credit. -/
def Consistent (initial : Ledger) (settings : Settings) (deliveries : List Delivery) : Prop :=
  ∀ a ∈ deliveries.filterMap fun d => initial.credit? settings d.callback,
    ∀ b ∈ deliveries.filterMap fun d => initial.credit? settings d.callback,
      a.providerPaymentId = b.providerPaymentId → a = b

theorem nodup_kept : ((initial.kept settings deliveries).map Credit.providerPaymentId).Nodup :=
  Keyed.nodup_keepAll (by rw [List.map_nil]; exact List.nodup_nil)

theorem mem_kept (h : Consistent initial settings deliveries) {c : Credit} :
    c ∈ initial.kept settings deliveries ↔
      (∃ d ∈ deliveries, initial.credit? settings d.callback = some c) ∧
        initial.providerIdTaken (some c.providerPaymentId) = false := by
  unfold Ledger.kept
  rw [Keyed.mem_keepAll (by exact h)]
  simp

/-- Deliveries of the same callbacks keep the same credits. -/
theorem kept_perm (h : Consistent initial settings deliveries)
    (hmem : ∀ callback, callback ∈ deliveries.map (·.callback) ↔
      callback ∈ deliveries'.map (·.callback)) :
    (initial.kept settings deliveries).Perm (initial.kept settings deliveries') := by
  have harrival : ∀ ds : List Delivery, ∀ c,
      c ∈ (ds.filterMap fun d => initial.credit? settings d.callback) ↔
        ∃ callback ∈ ds.map (·.callback), initial.credit? settings callback = some c := by
    intro ds c
    simp
  exact Keyed.keepAll_perm h fun c => by simp only [harrival, hmem]

/-- An id that some delivery carries is there once. -/
theorem Credited.once {db : Ledger}
    (hcredited : Credited initial db (initial.kept settings deliveries))
    (hunique : initial.providerIds.Nodup) (h : Consistent initial settings deliveries)
    {d : Delivery} (hd : d ∈ deliveries) {c : Credit}
    (hc : initial.credit? settings d.callback = some c) :
    db.providerIds.count c.providerPaymentId = 1 := by
  have hnodup : db.providerIds.Nodup := by
    rw [hcredited.providerIds, List.nodup_append]
    refine ⟨hunique, nodup_kept, ?_⟩
    rintro id hid id' hid' rfl
    obtain ⟨k, hk, rfl⟩ := List.mem_map.mp hid'
    have hfree := ((mem_kept h).mp hk).2
    rw [providerIdTaken_iff.mpr hid] at hfree
    cases hfree
  refine List.count_eq_one_of_mem hnodup ?_
  rw [← providerIdTaken_iff, hcredited.providerIdTaken]
  cases htaken : initial.providerIdTaken (some c.providerPaymentId) with
  | true => exact .inl rfl
  | false => exact .inr (List.mem_map_of_mem ((mem_kept h).mpr ⟨⟨d, hd, hc⟩, htaken⟩))

end

/-- The deliveries of the same callbacks, each any number of times and in any order,
record each provider id once, with the invoice and the amount of its callback, and leave
the same payments, balances and statuses. -/
theorem callbacks_commute (settings : Settings) (initial : Ledger)
    (hunique : initial.providerIds.Nodup) (deliveries deliveries' : List Delivery)
    (hsame : ∀ d ∈ deliveries, ∀ d' ∈ deliveries, ∀ c c',
      initial.credit? settings d.callback = some c →
      initial.credit? settings d'.callback = some c' →
      c.providerPaymentId = c'.providerPaymentId → c = c')
    (hmem : ∀ callback, callback ∈ deliveries.map (·.callback) ↔
      callback ∈ deliveries'.map (·.callback)) :
    let db := Run.run LedgerCall.step initial (deliveries.map (·.call settings))
    let db' := Run.run LedgerCall.step initial (deliveries'.map (·.call settings))
    (∀ d ∈ deliveries, ∀ c, initial.credit? settings d.callback = some c →
      db.providerIds.count c.providerPaymentId = 1) ∧
    (∃ credits, CreditedBy initial db credits ∧
      ∀ c, c ∈ credits ↔ (∃ d ∈ deliveries, initial.credit? settings d.callback = some c) ∧
        initial.providerIdTaken (some c.providerPaymentId) = false) ∧
    (∀ entry, entry ∈ db.payments.map Payment.entry ↔ entry ∈ db'.payments.map Payment.entry) ∧
    ∀ id, db.standing id = db'.standing id := by
  intro db db'
  have hcredited : Credited initial db _ := credited_run initial settings deliveries
  have hcredited' : Credited initial db' _ := credited_run initial settings deliveries'
  have hconsistent : Consistent initial settings deliveries := by
    intro a ha b hb
    obtain ⟨d, hd, ha⟩ := List.mem_filterMap.mp ha
    obtain ⟨d', hd', hb⟩ := List.mem_filterMap.mp hb
    exact hsame d hd d' hd' a b ha hb
  have hperm := kept_perm hconsistent hmem
  refine ⟨fun d hd c hc => hcredited.once hunique hconsistent hd hc,
    ⟨initial.kept settings deliveries, ?_, fun c => mem_kept hconsistent⟩,
    fun entry => ?_, fun id => ?_⟩
  · exact ⟨nodup_kept, hcredited.entries,
      fun id invoice hid => by rw [hcredited.standing_eq, hid]; rfl⟩
  · rw [hcredited.entries, hcredited'.entries, List.mem_append, List.mem_append,
      (hperm.map Credit.entry).mem_iff]
  · rw [hcredited.standing_eq, hcredited'.standing_eq]
    refine congrArg (Option.map · _) (funext fun invoice => ?_)
    exact standing_perm (amountsOf_perm hperm id) invoice

/-! ## Two callbacks for one invoice -/

/-- The bodies of two callbacks. -/
def twoCallbacksLibrary : Library where
  sha256 _ := ""
  hmac _ _ := "signed"
  loads payload :=
    let body (id eventId : String) (amountCents : Int) : Json :=
      .dict [("id", .str eventId), ("type", .str "payment.succeeded"),
        ("data", .dict [("provider_payment_id", .str id), ("amount_cents", .int amountCents),
          ("reference", .str "INV-202501-000001")])]
    if payload = [1] then .ok (body "pay-a" "evt-1" 400)
    else if payload = [2] then .ok (body "pay-b" "evt-2" 600)
    else .error none
  containerRepr _ := ""

/-- One open invoice over 10 dollars, without payments. -/
def oneOpenInvoice : Ledger where
  invoices :=
    [{ organizationId := 0
       subscriptionId := none
       number := "INV-202501-000001"
       status := .open
       currency := "USD"
       subtotalCents := 1000
       taxCents := 0
       totalCents := 1000
       amountPaidCents := 0
       periodStart := 20089
       periodEnd := 20119
       dueAt := none
       issuedAt := some 1738281600
       paidAt := none
       lineItems := []
       deletedAt := none }]
  payments := []

/-- The delivery of a body at a moment. -/
def delivered (payload : List UInt8) (now : DateTime) : Delivery :=
  ⟨⟨payload, some "signed", none⟩, now, now⟩

/-- `a` then `b`, or `b`, `a` and `b` once more: both payments are there once, and the
invoice is paid. -/
theorem two_callbacks_commute :
    let settings := twoCallbacksLibrary.settings "secret"
    let deliveries := [delivered [1] 1738368000, delivered [2] 1738368060]
    let deliveries' := [delivered [2] 1738368000, delivered [1] 1738368060,
      delivered [2] 1738368120]
    let db := Run.run LedgerCall.step oneOpenInvoice (deliveries.map (·.call settings))
    let db' := Run.run LedgerCall.step oneOpenInvoice (deliveries'.map (·.call settings))
    db.standing 0 = some (1000, .paid) ∧
    db.payments.map Payment.entry = [(some "pay-a", 0, 400), (some "pay-b", 0, 600)] ∧
    (∀ d ∈ deliveries, ∀ c, oneOpenInvoice.credit? settings d.callback = some c →
      db.providerIds.count c.providerPaymentId = 1) ∧
    (∃ credits, CreditedBy oneOpenInvoice db credits ∧
      ∀ c, c ∈ credits ↔
        (∃ d ∈ deliveries, oneOpenInvoice.credit? settings d.callback = some c) ∧
          oneOpenInvoice.providerIdTaken (some c.providerPaymentId) = false) ∧
    (∀ entry, entry ∈ db.payments.map Payment.entry ↔ entry ∈ db'.payments.map Payment.entry) ∧
    ∀ id, db.standing id = db'.standing id := by
  refine ⟨rfl, rfl, callbacks_commute _ oneOpenInvoice List.nodup_nil _ _ ?_ ?_⟩
  · have hcredits : ∀ d ∈ [delivered [1] 1738368000, delivered [2] 1738368060], ∀ c,
        oneOpenInvoice.credit? (twoCallbacksLibrary.settings "secret") d.callback = some c →
        c = ⟨"pay-a", 0, 400⟩ ∨ c = ⟨"pay-b", 0, 600⟩ := by
      intro d hd c hc
      rcases List.mem_pair.mp hd with rfl | rfl
      · exact .inl (Option.some.inj hc).symm
      · exact .inr (Option.some.inj hc).symm
    intro d hd d' hd' c c' hc hc' hid
    obtain rfl | rfl := hcredits d hd c hc
    · obtain rfl | rfl := hcredits d' hd' c' hc'
      · rfl
      · exact absurd hid (by decide)
    · obtain rfl | rfl := hcredits d' hd' c' hc'
      · exact absurd hid (by decide)
      · rfl
  · intro callback
    simp only [delivered, List.map_cons, List.map_nil, List.mem_cons, List.not_mem_nil, or_false]
    constructor
    · rintro (h | h)
      · exact .inr (.inl h)
      · exact .inl h
    · rintro (h | h | h)
      · exact .inr h
      · exact .inl h
      · exact .inr h

end YoutubeFactory.Billing
