import YoutubeFactory.Lib.Except
import YoutubeFactory.Lib.Run
import Mathlib.Data.List.Basic

/-!
# Webhook deliveries

`WebhookService` of `app/services/notification.py`, with the tables `Webhook` and
`WebhookDelivery`.  Rows are never removed, so a row's position is its id.  A call that raises is
rolled back.

A failure counts an attempt and then looks its delay up in the schedule, at the number of attempts.
So the first failure waits the second delay (`follows_schedule_iff`).
-/

namespace YoutubeFactory.Webhooks

abbrev Id := Nat

/-- Seconds since the epoch, UTC. -/
abbrev DateTime := Int

/-- `RETRY_BACKOFF_SECONDS` -/
def RETRY_BACKOFF_SECONDS : List Int := [60, 300, 1800, 7200]

/-- `MAX_RESPONSE_BODY` -/
def MAX_RESPONSE_BODY : Nat := 2048

/-- `text[:length]` -/
def truncate (length : Nat) (text : String) : String := String.ofList (text.toList.take length)

/-! ## The tables -/

inductive WebhookDeliveryStatus where
  | pending | delivered | failed | exhausted
deriving DecidableEq, Repr

structure Webhook where
  organizationId : Id
  events : List String
  isActive : Bool
  failureCount : Int
  lastSuccessAt : Option DateTime
  lastFailureAt : Option DateTime
  deletedAt : Option DateTime

structure WebhookDelivery (Payload : Type) where
  webhookId : Id
  eventType : String
  status : WebhookDeliveryStatus
  attempt : Nat
  responseStatus : Option Int
  responseBody : Option String
  error : Option String
  nextRetryAt : Option DateTime
  deliveredAt : Option DateTime
  payload : Payload

structure WebhookDb (Payload : Type) where
  webhooks : List Webhook
  deliveries : List (WebhookDelivery Payload)

inductive WebhookError where
  | notFound (message : String)
deriving DecidableEq, Repr

section

variable {Payload : Type}

namespace WebhookDelivery

/-- The row that `enqueue_event` adds. -/
def enqueued (webhookId : Id) (eventType : String) (payload : Payload) :
    WebhookDelivery Payload where
  webhookId
  eventType
  status := .pending
  attempt := 0
  responseStatus := none
  responseBody := none
  error := none
  nextRetryAt := none
  deliveredAt := none
  payload

/-- The columns that `record_success` writes. -/
def succeed (responseStatus : Int) (body : String) (now : DateTime)
    (delivery : WebhookDelivery Payload) : WebhookDelivery Payload :=
  { delivery with
    attempt := delivery.attempt + 1
    status := .delivered
    responseStatus := some responseStatus
    responseBody := some (truncate MAX_RESPONSE_BODY body)
    deliveredAt := some now
    nextRetryAt := none }

/-- The columns that `record_failure` writes. -/
def fail (schedule : List Int) (error : String) (responseStatus : Option Int) (now : DateTime)
    (delivery : WebhookDelivery Payload) : WebhookDelivery Payload :=
  let attempt := delivery.attempt + 1
  let reported :=
    { delivery with attempt, responseStatus, error := some (truncate 512 error) }
  if h : attempt < schedule.length then
    { reported with status := .failed, nextRetryAt := some (now + schedule[attempt]) }
  else { reported with status := .exhausted, nextRetryAt := none }

end WebhookDelivery

/-! ## The service -/

namespace WebhookDb

variable (db : WebhookDb Payload)

/-- `list_active_for_event`, the ids only. -/
def listActiveForEvent (organizationId : Id) (eventType : String) : List Id :=
  (List.range db.webhooks.length).filter fun id => (db.webhooks[id]?).any fun hook =>
    hook.organizationId = organizationId ∧ hook.isActive = true ∧ hook.deletedAt = none ∧
      (eventType ∈ hook.events ∨ "*" ∈ hook.events)

/-- `enqueue_event` -/
def enqueueEvent (organizationId : Id) (eventType : String) (payload : Payload) :
    WebhookDb Payload :=
  { db with
    deliveries := db.deliveries ++ (db.listActiveForEvent organizationId eventType).map fun id =>
      .enqueued id eventType payload }

/-- What `record_success` and `record_failure` have in common: the delivery is read and written,
and its webhook, if it is there. -/
def record (deliveryId : Id) (write : WebhookDelivery Payload → WebhookDelivery Payload)
    (tell : Webhook → Webhook) : Except WebhookError (Id × WebhookDb Payload) :=
  match db.deliveries[deliveryId]? with
  | none => .error (.notFound "Webhook delivery not found.")
  | some delivery =>
      .ok (deliveryId,
        { webhooks := db.webhooks.modify delivery.webhookId tell
          deliveries := db.deliveries.set deliveryId (write delivery) })

/-- `record_success` -/
def recordSuccess (deliveryId : Id) (responseStatus : Int) (body : String) (now : DateTime) :
    Except WebhookError (Id × WebhookDb Payload) :=
  db.record deliveryId (WebhookDelivery.succeed responseStatus body now) fun hook =>
    { hook with failureCount := 0, lastSuccessAt := some now }

/-- `record_failure`.  The clock is read once more for the webhook. -/
def recordFailure (schedule : List Int) (deliveryId : Id) (error : String)
    (responseStatus : Option Int) (now later : DateTime) :
    Except WebhookError (Id × WebhookDb Payload) :=
  db.record deliveryId (WebhookDelivery.fail schedule error responseStatus now) fun hook =>
    { hook with failureCount := hook.failureCount + 1, lastFailureAt := some later }

/-- The deliveries of some events, and no others. -/
def afterEvents (webhooks : List Webhook) (events : List (Id × String × Payload)) :
    WebhookDb Payload :=
  events.foldl (fun db event => db.enqueueEvent event.1 event.2.1 event.2.2) ⟨webhooks, []⟩

end WebhookDb

/-! ## Calls -/

inductive DeliveryCall where
  | recordSuccess (deliveryId : Id) (responseStatus : Int) (body : String) (now : DateTime)
  | recordFailure (deliveryId : Id) (error : String) (responseStatus : Option Int)
      (now later : DateTime)

namespace DeliveryCall

def attempt (schedule : List Int) (db : WebhookDb Payload) :
    DeliveryCall → Except WebhookError (Id × WebhookDb Payload)
  | .recordSuccess id responseStatus body now => db.recordSuccess id responseStatus body now
  | .recordFailure id error responseStatus now later =>
      db.recordFailure schedule id error responseStatus now later

def step (schedule : List Int) (db : WebhookDb Payload) (call : DeliveryCall) :
    WebhookDb Payload :=
  Run.commit db (call.attempt schedule db)

/-- The row of an id after a call. -/
def effect (schedule : List Int) (id : Id) (delivery : WebhookDelivery Payload) :
    DeliveryCall → WebhookDelivery Payload
  | .recordSuccess id' responseStatus body now =>
      if id' = id then delivery.succeed responseStatus body now else delivery
  | .recordFailure id' error responseStatus now _ =>
      if id' = id then delivery.fail schedule error responseStatus now else delivery

/-- The call reports a failure of the delivery. -/
def fails (id : Id) : DeliveryCall → Bool
  | .recordSuccess .. => false
  | .recordFailure id' .. => id' = id

variable {schedule : List Int} {db : WebhookDb Payload} {id : Id}
  {delivery : WebhookDelivery Payload}

theorem record_getElem? {id' : Id} {write : WebhookDelivery Payload → WebhookDelivery Payload}
    {tell : Webhook → Webhook} (hdelivery : db.deliveries[id]? = some delivery) :
    (Run.commit db (db.record id' write tell)).deliveries[id]? =
      some (if id' = id then write delivery else delivery) := by
  have hlt : id < db.deliveries.length := (List.getElem?_eq_some_iff.mp hdelivery).1
  unfold WebhookDb.record
  by_cases hid : id' = id
  · subst hid
    rw [hdelivery, if_pos rfl]
    exact List.getElem?_set_self hlt
  · rw [if_neg hid]
    cases db.deliveries[id']? with
    | none => exact hdelivery
    | some other => exact (List.getElem?_set_ne hid).trans hdelivery

/-- A row that is there stays there, changed as the call says. -/
theorem step_getElem? (call : DeliveryCall) (hdelivery : db.deliveries[id]? = some delivery) :
    (call.step schedule db).deliveries[id]? = some (call.effect schedule id delivery) := by
  cases call with
  | recordSuccess => exact record_getElem? hdelivery
  | recordFailure => exact record_getElem? hdelivery

theorem length_step (call : DeliveryCall) :
    (call.step schedule db).deliveries.length = db.deliveries.length := by
  have hrecord : ∀ (id' : Id) (write : WebhookDelivery Payload → WebhookDelivery Payload) tell,
      (Run.commit db (db.record id' write tell)).deliveries.length = db.deliveries.length := by
    intro id' write tell
    unfold WebhookDb.record
    cases db.deliveries[id']? with
    | none => rfl
    | some other => exact List.length_set
  cases call with
  | recordSuccess => exact hrecord _ _ _
  | recordFailure => exact hrecord _ _ _

/-- A row after a call was there before. -/
theorem of_step_getElem? (call : DeliveryCall)
    (h : (call.step schedule db).deliveries[id]? = some delivery) :
    ∃ before, db.deliveries[id]? = some before ∧
      delivery = call.effect schedule id before := by
  have hlt := (List.getElem?_eq_some_iff.mp h).1
  rw [length_step] at hlt
  refine ⟨_, List.getElem?_eq_getElem hlt, ?_⟩
  rw [step_getElem? call (List.getElem?_eq_getElem hlt)] at h
  exact (Option.some.inj h).symm

end DeliveryCall

theorem mem_afterEvents {webhooks : List Webhook} {events : List (Id × String × Payload)}
    {delivery : WebhookDelivery Payload}
    (h : delivery ∈ (WebhookDb.afterEvents webhooks events).deliveries) :
    ∃ webhookId eventType payload, delivery = .enqueued webhookId eventType payload := by
  have hall : ∀ (events : List (Id × String × Payload)) (db : WebhookDb Payload),
      (∀ d ∈ db.deliveries, ∃ webhookId eventType payload,
        d = .enqueued webhookId eventType payload) →
      ∀ d ∈ (events.foldl (fun db event => db.enqueueEvent event.1 event.2.1 event.2.2)
        db).deliveries, ∃ webhookId eventType payload,
          d = .enqueued webhookId eventType payload := by
    intro events
    induction events with
    | nil => exact fun _ h => h
    | cons event events ih =>
        intro db hdb
        refine ih _ fun d hd => ?_
        rcases List.mem_append.mp hd with hd | hd
        · exact hdb d hd
        · obtain ⟨webhookId, -, rfl⟩ := List.mem_map.mp hd
          exact ⟨webhookId, event.2.1, event.2.2, rfl⟩
  exact hall events ⟨webhooks, []⟩ (fun d hd => absurd hd List.not_mem_nil) delivery h

end

end YoutubeFactory.Webhooks
