import YoutubeFactory.Billing.Gateway
import YoutubeFactory.Python.Object
import Mathlib.Data.List.Infix

/-!
# The mock payment provider

`app/core/payments/mock.py`.  It settles every charge whose reference holds no
marker, and derives the payment id from the request.  The hash functions and
`json.loads` are the interpreter's, the fields of `Library`.
-/

namespace YoutubeFactory.Billing

open Python

/-- The library functions the mock provider calls. -/
structure Library where
  /-- `hashlib.sha256(text.encode()).hexdigest()` -/
  sha256 : String → String
  /-- `hmac.new(secret.encode(), payload, hashlib.sha256).hexdigest()` -/
  hmac : (secret : String) → (payload : List UInt8) → String
  /-- `json.loads(payload)`: the value, the text of a `JSONDecodeError`, or another
  exception. -/
  loads : List UInt8 → Except (Option String) Json
  containerRepr : Json → String

def DECLINE_MARKER : String := "decline"

def ACTION_MARKER : String := "requires-action"

/-- `_stable_id` -/
def Library.stableId (library : Library) (kind : String) (parts : List String) : String :=
  kind ++ "_" ++ String.ofList ((library.sha256 ("|".intercalate parts)).toList.take 24)

/-- `str.lower` as far as the markers go: only ASCII capitals have an ASCII lower
case that occurs in them. -/
def lower (s : String) : String := String.ofList (s.toList.map Char.toLower)

/-- `marker in text` -/
def containsMarker (marker text : String) : Bool := decide (marker.toList <:+: text.toList)

/-- The id of a charge. -/
def Library.paymentId (library : Library) (reference : String) (amountCents : Int)
    (currency : String) : String :=
  library.stableId "mockpay" [reference, toString amountCents, currency]

namespace MockPaymentProvider

/-- `MockPaymentProvider.charge` -/
def charge (library : Library) (request : ChargeRequest) : Except BillingError ChargeResult :=
  if request.amountCents ≤ 0 then .error (.paymentProvider "Charge amount must be positive.")
  else
    let paymentId := library.paymentId request.reference request.amountCents request.currency
    let settled : ChargeResult :=
      { status := .succeeded
        providerPaymentId := paymentId
        amountCents := request.amountCents
        currency := request.currency
        declineReason := none
        actionUrl := none }
    let lowered := lower request.reference
    if containsMarker DECLINE_MARKER lowered then
      .ok { settled with status := .declined, declineReason := some "card_declined" }
    else if containsMarker ACTION_MARKER lowered then
      .ok { settled with
        status := .requiresAction
        actionUrl := some ("https://payments.invalid/confirm/" ++ paymentId) }
    else .ok settled

/-- `MockPaymentProvider.refund` -/
def refund (_providerPaymentId : String) (amountCents : Int) : Except BillingError Unit :=
  if amountCents ≤ 0 then .error (.paymentProvider "Refund amount must be positive.")
  else .ok ()

/-- The event of a verified body. -/
def webhookEvent : Json → Except BillingError WebhookEvent
  | .dict body =>
      match Json.lookup? body "id", Json.lookup? body "type" with
      | some (.str eventId), some (.str eventType) =>
          let data := match Json.lookup? body "data" with
            | some (.dict entries) => entries
            | _ => []
          .ok { eventId
                eventType
                providerPaymentId := (Json.lookup? data "provider_payment_id").getD .null
                amountCents := (Json.lookup? data "amount_cents").bind Json.int?
                payload := body }
      | _, _ => .error (.paymentProvider "Webhook body needs string 'id' and 'type'.")
  | _ => .error .badPayload

/-- `MockPaymentProvider.verify_webhook` -/
def verifyWebhook (library : Library) (payload : List UInt8) (signature : Option String)
    (secret : String) : Except BillingError WebhookEvent :=
  if secret = "" then
    .error (.paymentProvider "No webhook secret is configured; refusing to accept callbacks.")
  else if signature.getD "" = "" then .error (.paymentProvider "Missing webhook signature.")
  -- `compare_digest` does not take other characters.
  else if (strip (signature.getD "")).toList.any fun c => 128 ≤ c.toNat then .error .badPayload
  else if library.hmac secret payload ≠ strip (signature.getD "") then
    .error (.paymentProvider "Webhook signature does not match.")
  else
    match library.loads payload with
    | .ok body => webhookEvent body
    | .error (some text) => .error (.paymentProvider s!"Webhook body is not JSON: {text}")
    | .error none => .error .badPayload

/-- The provider as registered. -/
def provider (library : Library) : PaymentProvider where
  slug := "mock"
  charge := charge library
  refund := refund
  verifyWebhook := verifyWebhook library

end MockPaymentProvider

/-- The settings with only the mock registered. -/
def Library.settings (library : Library) (secret : String) : Settings where
  registry := [("mock", MockPaymentProvider.provider library)]
  paymentProvider := "mock"
  paymentWebhookSecret := secret
  containerRepr := library.containerRepr

end YoutubeFactory.Billing
