import ElectronicsCart.Shipping.Service
import ElectronicsCart.Shop.Schema

/-!
# Receiving carrier webhooks

`ShippingWebhookService` of `shipping-webhook.service.ts`: a delivery of the carrier is stored under
an idempotency key and processed, at once and by a job of the queue.
-/

namespace ElectronicsCart.Shipping

open Interleaving Relational

/-! ### Payloads -/

/-- `payload.event ?? payload.current_status ?? 'unknown'`. -/
def eventType (rt : Runtime) (payload : JsValue) : String :=
  ((payload.field "event").orElse
    ((payload.field "current_status").orElse (.string "unknown"))).toText rt

/-- `payload.awb ?? payload.awb_code ?? payload.sr_order_id ?? ''`. -/
def awbOf (rt : Runtime) (payload : JsValue) : String :=
  ((payload.field "awb").orElse
    ((payload.field "awb_code").orElse ((payload.field "sr_order_id").orElse (.string "")))).toText rt

def eventId (rt : Runtime) (payload : JsValue) : String :=
  ((payload.field "id").orElse
    (.string (eventType rt payload ++ ":" ++ awbOf rt payload))).toText rt

def idempotencyKey (rt : Runtime) (payload : JsValue) : String := jsSlice 128 (eventId rt payload)

/-! ### State and calls -/

structure ShippingWebhook where
  id : ℕ
  partnerId : ℕ
  shipmentId : Option ℕ
  eventId : String
  eventType : String
  idempotencyKey : String
  signature : String
  payload : JsValue
  verified : Bool := true
  processingStatus : WebhookProcessingStatus := .verified
  retryCount : ℕ := 0
  deleted : Bool := false

instance : Keyed ShippingWebhook := ⟨ShippingWebhook.id⟩

structure CarrierDesk where
  shipping : ShippingState := {}
  webhooks : Table ShippingWebhook := Table.empty
  locks : LockStore String := fun _ => none
  /-- the webhooks for which a job was enqueued -/
  enqueued : List ℕ := []

inductive CarrierCall where
  | acquire (key : String) (token : ℕ)
  | release (key : String) (token : ℕ)
  | findPartnerByCode
  | findByIdempotency (key : String)
  | findByTracking (awb : String)
  | create (key : String)
  | enqueue (webhookId : ℕ)
  | findById (webhookId : ℕ)
  | mark (webhookId : ℕ) (status : WebhookProcessingStatus)
  | shipping (call : ShippingCall)
deriving DecidableEq, Repr

instance : Lockable CarrierCall CarrierDesk String where
  locks := CarrierDesk.locks
  setLocks m t := { t with locks := m }
  acquireCall := .acquire
  releaseCall := .release
  resource key := ["shipping", "webhook", key]
  locks_setLocks _ _ := rfl

abbrev CarrierProg := Prog CarrierCall ShippingInput CarrierDesk Failure

def inShipping {α : Type} (p : ShippingProg α) : CarrierProg α :=
  p.zoom .shipping CarrierDesk.shipping fun s t => { t with shipping := s }

/-- One HTTP delivery; `verified` is the answer of `verifyWebhookSignature`. -/
structure CarrierDelivery where
  payload : JsValue
  signature : String := ""
  verified : Bool := true
  token : ℕ := 0

structure ReceiveResult where
  duplicate : Bool
  webhookId : ℕ
  requeued : Bool := false
deriving DecidableEq, Repr

/-! ### `ShippingWebhookRepository` -/

def matching (partnerId : ℕ) (key : String) (w : ShippingWebhook) : Bool :=
  w.partnerId == partnerId && w.idempotencyKey == key && !w.deleted

def findByIdempotency (partnerId : ℕ) (key : String) : CarrierProg (Option ShippingWebhook) :=
  query (.findByIdempotency key) fun _ t => t.webhooks.first? (matching partnerId key)

def findWebhook (id : ℕ) : CarrierProg (Option ShippingWebhook) :=
  query (.findById id) fun _ t => (t.webhooks.find? id).filter fun w => !w.deleted

def markWebhook (id : ℕ) (status : WebhookProcessingStatus) : CarrierProg Unit :=
  atomic (.mark id status) fun _ t => do
    check (t.webhooks.find? id).isSome "P2025"
    return ((), { t with webhooks := t.webhooks.update id fun w => { w with
      processingStatus := status
      retryCount := if status = .failed then w.retryCount + 1 else w.retryCount } })

/-- `create`, under the foreign key of the partner and the unique index on its active keys. -/
def insertWebhook (rt : Runtime) (partnerId : ℕ) (shipmentId : Option ℕ) (d : CarrierDelivery)
    (t : CarrierDesk) : Except Failure (ℕ × CarrierDesk) := do
  let key := idempotencyKey rt d.payload
  check (t.shipping.partners.find? partnerId).isSome "shipping_webhooks_partner_id_fkey"
  check (t.webhooks.first? (matching partnerId key)).isNone "uq_shipping_webhooks_idempotency_active"
  return (t.webhooks.next, { t with webhooks := t.webhooks.insert fun id => {
    id
    partnerId
    shipmentId
    eventId := jsSlice 128 (eventId rt d.payload)
    eventType := jsSlice 120 (eventType rt d.payload)
    idempotencyKey := key
    signature := jsSlice 512 d.signature
    payload := d.payload } })

def findByTracking (awb : String) (s : ShippingState) : Option Shipment :=
  s.shipments.first? fun a =>
    (a.trackingNumber == some awb || a.awbNumber == some awb) && !a.deleted

def enqueueWebhook (webhookId : ℕ) : CarrierProg Unit :=
  atomic (.enqueue webhookId) fun _ t => .ok ((), { t with enqueued := t.enqueued ++ [webhookId] })

/-! ### `ShippingWebhookService` -/

section Service

variable (rt : Runtime) (toLowerCase : String → String)

/-- The carrier is asked for the tracking, and the event is noted. -/
def applyWebhook (token : ℕ) (row : ShippingWebhook) : CarrierProg Unit :=
  match row.shipmentId with
  | none => pure ()
  | some shipmentId => inShipping do
    let _ ← ShippingService.syncTracking toLowerCase token shipmentId
    ShippingService.appendEvent shipmentId
      { status := row.eventType, description := some "Carrier webhook" } false

def settleWebhook (token : ℕ) (row : ShippingWebhook) : CarrierProg Unit := do
  applyWebhook toLowerCase token row
  markWebhook row.id .processed

def processWebhook (token webhookId : ℕ) : CarrierProg Unit := do
  let found ← findWebhook webhookId
  match found with
  | none => pure ()
  | some row =>
    if row.processingStatus = .processed then pure ()
    else tryCatch (settleWebhook toLowerCase token row) fun err => do
      markWebhook webhookId .failed
      throw err

/-- The shipment of the waybill, if the payload names one. -/
def shipmentFor (awb : String) : CarrierProg (Option Shipment) :=
  if awb.isEmpty then pure none
  else query (.findByTracking awb) fun _ t => findByTracking awb t.shipping

/-- An error of the inline run is logged. -/
def storeNew (partnerId : ℕ) (d : CarrierDelivery) : CarrierProg ReceiveResult := do
  let shipment ← shipmentFor (awbOf rt d.payload)
  let id ← atomic (.create (idempotencyKey rt d.payload)) fun _ t =>
    insertWebhook rt partnerId (shipment.map Shipment.id) d t
  enqueueWebhook id
  tryCatch (processWebhook toLowerCase d.token id) fun _ => pure ()
  pure { duplicate := false, webhookId := id }

def storeWebhook (partnerId : ℕ) (d : CarrierDelivery) : CarrierProg ReceiveResult := do
  let existing ← findByIdempotency partnerId (idempotencyKey rt d.payload)
  match existing with
  | some w =>
    if w.processingStatus = .processed then pure { duplicate := true, webhookId := w.id }
    else do
      enqueueWebhook w.id
      pure { duplicate := true, webhookId := w.id, requeued := true }
  | none => storeNew rt toLowerCase partnerId d

/-- `SHIPROCKET_PARTNER_ID` stands in for a partner that is not there. -/
def shiprocketPartner (fallbackId : ℕ) (s : ShippingState) : ℕ :=
  ((s.partners.first? fun p => p.code == "shiprocket" && p.active && !p.deleted).map
    ShippingPartner.id).getD fallbackId

def receiveShiprocket (fallbackId : ℕ) (d : CarrierDelivery) : CarrierProg ReceiveResult := do
  let partnerId ← query .findPartnerByCode fun _ t => shiprocketPartner fallbackId t.shipping
  Prog.ensure (d.verified = true) (.throwApp .unauthorized "Invalid webhook signature" 401)
  LockService.withLock (idempotencyKey rt d.payload) d.token
    (storeWebhook rt toLowerCase partnerId d)

end Service

end ElectronicsCart.Shipping
