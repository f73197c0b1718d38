import ElectronicsCart.Core.Values
import ElectronicsCart.Payments.Flows

/-!
# Receiving webhooks

`WebhookService.receiveRazorpay` of `webhook.service.ts`: a delivery is stored under an
idempotency key and processed.  The columns of `payment_webhooks` that only the receiver
reads stand beside the shop.
-/

namespace ElectronicsCart.Payments

open Interleaving Relational

/-! ### Payloads -/

/-- `payload.payload?.payment?.entity`. -/
def paymentEntity (payload : JsValue) : JsValue :=
  ((payload.field "payload").field "payment").field "entity"

/-- `String(payload.event ?? 'unknown')`. -/
def eventType (rt : Runtime) (payload : JsValue) : String :=
  ((payload.field "event").orElse (.string "unknown")).toText rt

/-- `String(payload.id ?? entity?.id ?? '') || undefined`. -/
def eventId (rt : Runtime) (payload : JsValue) : Option String :=
  let id := (payload.field "id").orElse
    (((paymentEntity payload).field "id").orElse (.string ""))
  truthy (some (id.toText rt))

/-- The event id, or the event type and the beginning of the payload. -/
def idempotencyKey (rt : Runtime) (payload : JsValue) : String :=
  jsSlice 128 <|
    match eventId rt payload with
    | some id => id
    | none => eventType rt payload ++ ":" ++ jsSlice 80 ((payload.stringify rt).getD "undefined")

/-- What `processWebhook` reads of the payload. -/
def webhookEntity (rt : Runtime) (payload : JsValue) : Option WebhookEntity :=
  let entity := paymentEntity payload
  let present (v : JsValue) : Option String := if v.nullish then none else some (v.toText rt)
  let orderId := entity.field "order_id"
  if !entity.truthy then none
  else some
    { id := present (entity.field "id")
      orderId := if orderId.truthy then some (orderId.toText rt) else none
      status := match entity.field "status" with
        | .string s => some s
        | _ => none
      paymentId := present (entity.field "payment_id") }

/-! ### State and calls -/

/-- The columns of a `payment_webhooks` row that the row of the shop does not hold. -/
structure WebhookColumns where
  gatewayId : ℕ := 0
  eventId : Option String := none
  idempotencyKey : String := ""
  signature : String := ""
  payload : JsValue := .null
  verified : Bool := false

structure WebhookDesk where
  shop : Shop := {}
  columns : ℕ → WebhookColumns := fun _ => {}
  locks : LockStore String := fun _ => none
  /-- the webhooks for which a job was enqueued -/
  enqueued : List ℕ := []

inductive DeskCall where
  | acquire (key : String) (token : ℕ)
  | release (key : String) (token : ℕ)
  | findGatewayByCode
  | findByIdempotency (key : String)
  | create (key : String)
  | enqueue (webhookId : ℕ)
  | shop (call : ShopCall)
deriving DecidableEq, Repr

instance : Lockable DeskCall WebhookDesk String where
  locks := WebhookDesk.locks
  setLocks m t := { t with locks := m }
  acquireCall := .acquire
  releaseCall := .release
  resource key := ["payments", "webhook", key]
  locks_setLocks _ _ := rfl

abbrev DeskProg := Prog DeskCall ShopInput WebhookDesk Failure

def inShop {α : Type} (p : ShopProg α) : DeskProg α :=
  p.zoom .shop WebhookDesk.shop fun s t => { t with shop := s }

/-- One HTTP delivery; `verified` is the answer of `verifyWebhookSignature`. -/
structure WebhookDelivery where
  payload : JsValue
  signature : String := ""
  verified : Bool := true
  token : ℕ := 0

structure ReceiveResult where
  duplicate : Bool
  webhookId : ℕ
  requeued : Bool := false
deriving DecidableEq, Repr

def WebhookDesk.matching (t : WebhookDesk) (gatewayId : ℕ) (key : String) (w : PaymentWebhook) :
    Bool :=
  (t.columns w.id).gatewayId == gatewayId && (t.columns w.id).idempotencyKey == key && !w.deleted

def findByIdempotency (gatewayId : ℕ) (key : String) : DeskProg (Option PaymentWebhook) :=
  query (.findByIdempotency key) fun _ t => t.shop.webhooks.first? (t.matching gatewayId key)

/-- `RAZORPAY_GATEWAY_ID` stands in for a gateway that is not there. -/
def razorpayGateway (fallbackId : ℕ) (t : WebhookDesk) : ℕ :=
  ((t.shop.gateways.first? fun g => g.code == "razorpay" && g.active && !g.deleted).map
    PaymentGateway.id).getD fallbackId

/-- `webhooks.create`, under the foreign key of the gateway, the length of `event_id` and
the unique index on the active keys of a gateway. -/
def insertWebhook (rt : Runtime) (gatewayId : ℕ) (key : String) (d : WebhookDelivery)
    (t : WebhookDesk) : Except Failure (ℕ × WebhookDesk) := do
  check ((t.shop.gateways.find? gatewayId).isSome) "payment_webhooks_gateway_id_fkey"
  check (((eventId rt d.payload).getD "").length ≤ 128) "P2000"
  check ((t.shop.webhooks.first? (t.matching gatewayId key)).isNone)
    "uq_payment_webhooks_idempotency_active"
  let id := t.shop.webhooks.next
  let columns : WebhookColumns :=
    { gatewayId
      eventId := eventId rt d.payload
      idempotencyKey := key
      signature := jsSlice 512 d.signature
      payload := d.payload
      verified := true }
  return (id, { t with
    shop := { t.shop with webhooks := t.shop.webhooks.insert fun id => {
      id
      eventType := jsSlice 120 (eventType rt d.payload)
      entity := webhookEntity rt d.payload } }
    columns := Function.update t.columns id columns })

def enqueueWebhook (webhookId : ℕ) : DeskProg Unit :=
  atomic (.enqueue webhookId) fun _ t => .ok ((), { t with enqueued := t.enqueued ++ [webhookId] })

def storeWebhook (rt : Runtime) (gatewayId : ℕ) (key : String) (d : WebhookDelivery) :
    DeskProg ReceiveResult := do
  let existing ← findByIdempotency gatewayId key
  match existing with
  | some w =>
    if w.processingStatus = .processed then pure { duplicate := true, webhookId := w.id }
    else do
      enqueueWebhook w.id
      pure { duplicate := true, webhookId := w.id, requeued := true }
  | none => do
    let id ← atomic (.create key) fun _ t => insertWebhook rt gatewayId key d t
    enqueueWebhook id
    -- an error of the inline run is logged
    tryCatch (inShop (processWebhook id)) fun _ => pure ()
    pure { duplicate := false, webhookId := id }

def receiveRazorpay (rt : Runtime) (fallbackId : ℕ) (d : WebhookDelivery) :
    DeskProg ReceiveResult := do
  let gatewayId ← query .findGatewayByCode fun _ t => razorpayGateway fallbackId t
  Prog.ensure (d.verified = true) (.throwApp .unauthorized "Invalid webhook signature" 401)
  let key := idempotencyKey rt d.payload
  LockService.withLock key d.token (storeWebhook rt gatewayId key d)

/-- A delivery, or the job of the queue for a stored webhook. -/
inductive DeskRequest where
  | receive (d : WebhookDelivery)
  | job (webhookId : ℕ)

def DeskRequest.prog (rt : Runtime) (fallbackId : ℕ) : DeskRequest → DeskProg (Option ReceiveResult)
  | receive d => do
    let r ← receiveRazorpay rt fallbackId d
    pure (some r)
  | job webhookId => do
    inShop (processWebhook webhookId)
    pure none

end ElectronicsCart.Payments
