import ElectronicsCart.Shipping.State

/-!
# `ShippingService` and `ReverseLogisticsService`

`modules/shipping/services/shipping.service.ts` and `reverse-logistics.service.ts` over
`repositories/shipment.repository.ts`.  The provider's answers come with the input of its call.
-/

namespace ElectronicsCart.Shipping

open Interleaving Relational

/-! ### `ShipmentRepository` -/

namespace ShipmentRepository

def findById (id : ℕ) (s : ShippingState) : Option Shipment :=
  (s.shipments.find? id).filter fun a => !a.deleted

def trackingOf (shipmentId : ℕ) (s : ShippingState) : Option ShipmentTracking :=
  s.tracking.first? fun t => t.shipmentId == shipmentId

/-- A status for an enum column. -/
def statusColumn (name text : String) : Except Failure ShipmentStatus :=
  (ShipmentStatus.parse text).elim (.error (.constraint name)) .ok

/-- `create`. -/
def insertShipment (row : ℕ → Shipment) (hrow : ∀ n, key (row n) = n) (s : ShippingState) :
    Except Failure (Shipment × ShippingState) := do
  let a := row s.shipments.next
  check (s.orders.find? a.orderId).isSome "shipments_order_id_fkey"
  check (s.warehouses.contains a.warehouseId) "shipments_warehouse_id_fkey"
  check (s.partners.find? a.partnerId).isSome "shipments_partner_id_fkey"
  check (a.fulfillmentOrderId.all fun f => (s.fulfillments.find? f).isSome)
    "shipments_fulfillment_order_id_fkey"
  check (a.serviceId.all s.services.contains) "shipments_service_id_fkey"
  check (a.shippingAddressId.all s.addresses.contains) "shipments_shipping_address_id_fkey"
  check (a.declaredValue.all fun q => decide (0 ≤ q)) "shipments_declared_value_check"
  check (s.shipments.rows.all fun b => b.deleted || b.shipmentNumber != a.shipmentNumber)
    "uq_shipments_number_active"
  return (a, { s with shipments := s.shipments.insert row hrow })

def positive (q : Option ℚ) : Bool := q.all fun x => decide (0 < x)

def insertPackage (shipmentId : ℕ) (s : ShippingState) (p : PackageDto) :
    Except Failure ShippingState := do
  check (decide (0 < p.weightKg)) "shipment_packages_weight_kg_check"
  check (positive p.lengthCm && positive p.widthCm && positive p.heightCm)
    "shipment_packages_size_check"
  check (p.declaredValue.all fun q => decide (0 ≤ q)) "shipment_packages_declared_value_check"
  check (s.packages.rows.all fun b => b.deleted || b.shipmentId != shipmentId ||
    b.packageNumber != p.packageNumber) "uq_shipment_packages_number_active"
  return { s with packages := s.packages.insert fun n =>
    { id := n, shipmentId, packageNumber := p.packageNumber, weightKg := p.weightKg,
      lengthCm := p.lengthCm, widthCm := p.widthCm, heightCm := p.heightCm,
      declaredValue := p.declaredValue } }

/-- `createMany` is one statement. -/
def insertPackages (shipmentId : ℕ) (packages : List PackageDto) (s : ShippingState) :
    Except Failure (Unit × ShippingState) := do
  let s' ← packages.foldlM (insertPackage shipmentId) s
  return ((), s')

def insertItem (shipmentId : ℕ) (s : ShippingState) (item : ShipmentItemDto) :
    Except Failure ShippingState := do
  check (s.orderItems.contains item.orderItemId) "shipment_items_order_item_id_fkey"
  check (decide (0 < item.quantity) && fitsInt4 item.quantity) "shipment_items_quantity_check"
  return { s with items := s.items.insert fun n => ⟨n, shipmentId, item.orderItemId, item.quantity⟩ }

def insertItems (shipmentId : ℕ) (items : List ShipmentItemDto) (s : ShippingState) :
    Except Failure (Unit × ShippingState) := do
  let s' ← items.foldlM (insertItem shipmentId) s
  return ((), s')

def assignAwb (shipmentId partnerId : ℕ) (awbNumber : String) (now : ℕ) (s : ShippingState) :
    Except Failure (Unit × ShippingState) := do
  check (s.awbs.rows.all fun b => b.partnerId != partnerId || b.awbNumber != awbNumber)
    "uq_awb_numbers_partner_awb_active"
  return ((), { s with awbs := s.awbs.insert fun n => ⟨n, partnerId, awbNumber, shipmentId, now⟩ })

/-- `update`; the row has to be there. -/
def updateShipment (id : ℕ) (g : Shipment → Shipment) (hg : ∀ a, key (g a) = key a)
    (s : ShippingState) : Except Failure (Shipment × ShippingState) :=
  match s.shipments.find? id with
  | none => .error (.constraint "P2025")
  | some a => .ok (g a, { s with shipments := s.shipments.update id g hg })

/-- A tracking event; without a time it occurs now. -/
structure EventData where
  status : String
  code : Option String := none
  description : Option String := none
  location : Option String := none
  occurredAt : Option (Option ℕ) := none

def appendTrackingEvent (shipmentId : ℕ) (data : EventData) (now : ℕ) (s : ShippingState) :
    Except Failure (Unit × ShippingState) := do
  let status ← statusColumn "event_status" data.status
  check (s.shipments.find? shipmentId).isSome "tracking_events_shipment_id_fkey"
  let occurredAt ← (data.occurredAt.getD (some now)).elim (.error (.constraint "occurred_at")) .ok
  return ((), { s with events := s.events.insert fun n =>
    ⟨n, shipmentId, status, data.code, data.description, data.location, occurredAt⟩ })

/-- A missing location leaves the one that is stored. -/
def upsertTracking (shipmentId : ℕ) (currentStatus : String) (lastLocation : Option String)
    (now : ℕ) (s : ShippingState) : Except Failure (Unit × ShippingState) := do
  let status ← statusColumn "current_status" currentStatus
  match trackingOf shipmentId s with
  | some t => return ((), { s with tracking := s.tracking.update t.id fun t =>
      { t with currentStatus := status, lastLocation := lastLocation.or t.lastLocation,
               lastEventAt := now } })
  | none =>
    check (s.shipments.find? shipmentId).isSome "shipment_tracking_shipment_id_fkey"
    return ((), { s with tracking := s.tracking.insert fun n =>
      ⟨n, shipmentId, status, lastLocation, now⟩ })

def applyStatus (id : ℕ) (target : ShipmentStatus) (now : ℕ) (s : ShippingState) :
    Except Failure (Shipment × ShippingState) :=
  updateShipment id (fun a => { a with
    status := target
    packedAt := if target = .packed then some now else a.packedAt
    dispatchedAt := if target = .dispatched then some now else a.dispatchedAt
    deliveredAt := if target = .delivered then some now else a.deliveredAt }) (fun _ => rfl) s

end ShipmentRepository

open ShipmentRepository

def shipmentNotFound : Failure := .throwApp .notFound "Shipment not found" 404

def clock : ShippingProg ℕ := Prog.call .clock fun i s => (.ok i.now, s)

def carrierUnavailable : Failure := .gateway true "shipping provider unavailable"

def carrier (shipmentId : Option ℕ) (request : CarrierRequest) : ShippingProg CarrierReply :=
  Prog.call (.carrier shipmentId request) fun i s =>
    (if i.fails then .error carrierUnavailable else .ok i.reply, s)

/-- Fail-open. -/
def invalidateShipment (shipmentId : ℕ) : ShippingProg Unit :=
  Prog.call (.invalidateShipment shipmentId) fun i s =>
    (.ok (), if i.fails then s else { s with views := Function.update s.views shipmentId none })

/-! ### `ShippingService` -/

namespace ShippingService

section Transitions

/-- `caught`: the call stands in the `try` block of `syncTracking`. -/
def requireShipment (id : ℕ) (caught : Bool) : ShippingProg Shipment := do
  let found ← query (.findShipment id caught) fun _ s => findById id s
  Prog.orThrow shipmentNotFound found

def appendEvent (shipmentId : ℕ) (data : EventData) (caught : Bool) : ShippingProg Unit :=
  atomic (.appendEvent shipmentId caught) fun i s => appendTrackingEvent shipmentId data i.now s

def track (shipmentId : ℕ) (status : String) (location : Option String) (caught : Bool) :
    ShippingProg Unit :=
  atomic (.upsertTracking shipmentId status caught) fun i s =>
    upsertTracking shipmentId status location i.now s

def fulfillmentFor (status : String) : Option FulfillmentStatus :=
  if status = ShipmentStatus.delivered.text then some .delivered
  else if status = ShipmentStatus.dispatched.text then some .shipped
  else if status = ShipmentStatus.packed.text then some .packed
  else none

/-- Best effort. -/
def syncFulfillment (fulfillmentOrderId : Option ℕ) (status : String) : ShippingProg Unit :=
  match fulfillmentOrderId, fulfillmentFor status with
  | some f, some status =>
    (atomic (.syncFulfillment f) fun _ s => do
      check (s.fulfillments.find? f).isSome "P2025"
      return ((), { s with fulfillments := s.fulfillments.update f fun o =>
        { o with status } })).attempt.bind fun _ => pure ()
  | _, _ => pure ()

def moved (source target : ShipmentStatus) : String :=
  "Status " ++ source.text ++ " → " ++ target.text

/-- `apply` and `audit` of a transition. -/
def moveTo (shipmentId : ℕ) (source target : ShipmentStatus) (reason : Option String)
    (caught : Bool) : ShippingProg Shipment := do
  let updated ← atomic (.applyStatus shipmentId source target caught) fun i s =>
    applyStatus shipmentId target i.now s
  appendEvent shipmentId
    { status := target.text, description := some (reason.getD (moved source target)) } caught
  track shipmentId target.text none caught
  pure updated

/-- Nothing comes back when the shipment has the status already. -/
def transitionStatus (shipmentId : ℕ) (status : String) (reason : Option String) (caught : Bool) :
    ShippingProg (Option Shipment) := do
  let shipment ← requireShipment shipmentId caught
  Prog.ensure (canTransition shipment.status status = true)
    (invalidTransition shipment.status status)
  let target ← Prog.orThrow (invalidTransition shipment.status status)
    (ShipmentStatus.parse status)
  if target = shipment.status then do
    syncFulfillment shipment.fulfillmentOrderId status
    pure none
  else do
    let updated ← moveTo shipmentId shipment.status target reason caught
    syncFulfillment shipment.fulfillmentOrderId status
    pure (some updated)

end Transitions

/-! ### Status, label and pickup -/

structure UpdateShipmentStatusDto where
  status : String
  reason : Option String := none
deriving DecidableEq, Repr

/-- `mapShipment` fails on a transition that was skipped. -/
def updateStatus (token shipmentId : ℕ) (dto : UpdateShipmentStatusDto) : ShippingProg Shipment :=
  LockService.withLock (ShippingLock.status shipmentId) token do
    let updated ← transitionStatus shipmentId dto.status dto.reason false
    invalidateShipment shipmentId
    Prog.orThrow (.error "Cannot read properties of undefined (reading 'id')") updated

def missingRef : Failure := .throwApp .conflict "Missing partner shipment ref" 409

structure LabelResult where
  shipmentId : ℕ
  labelUrl : String
  format : String
deriving DecidableEq, Repr

def insertLabel (shipmentId : ℕ) (reply : CarrierReply) : ShippingProg Unit :=
  atomic (.insertLabel shipmentId) fun i s => do
    check (s.shipments.find? shipmentId).isSome "shipment_labels_shipment_id_fkey"
    return ((), { s with labels := s.labels.insert fun n =>
      ⟨n, shipmentId, reply.labelUrl, reply.labelFormat, i.now⟩ })

def generateLabel (token shipmentId : ℕ) : ShippingProg LabelResult :=
  LockService.withLock (ShippingLock.label shipmentId) token do
    let shipment ← requireShipment shipmentId false
    let ref ← Prog.orThrow missingRef (truthy shipment.partnerShipmentRef)
    let label ← carrier none (.generateLabel ref shipment.awbNumber)
    insertLabel shipmentId label
    if shipment.status = .created then do
      let _ ← transitionStatus shipmentId ShipmentStatus.packed.text (some "Label generated") false
      invalidateShipment shipmentId
      pure ⟨shipmentId, label.labelUrl, label.labelFormat⟩
    else do
      invalidateShipment shipmentId
      pure ⟨shipmentId, label.labelUrl, label.labelFormat⟩

structure SchedulePickupDto where
  shipmentId : ℕ
  scheduledAt : Option ℕ := none
  notes : Option String := none
deriving DecidableEq, Repr

structure PickupResult where
  shipmentId : ℕ
  pickupRequestId : ℕ
  partnerPickupRef : String
deriving DecidableEq, Repr

def countPackages (shipmentId : ℕ) : ShippingProg ℕ :=
  query (.countPackages shipmentId) fun _ s =>
    s.packages.rows.countP fun p => p.shipmentId == shipmentId && !p.deleted

def insertPickup (shipment : Shipment) (reply : CarrierReply) (packageCount : ℕ)
    (notes : Option String) : ShippingProg ℕ :=
  atomic (.insertPickup shipment.id) fun i s => do
    check (s.warehouses.contains shipment.warehouseId) "pickup_requests_warehouse_id_fkey"
    check (s.partners.find? shipment.partnerId).isSome "pickup_requests_partner_id_fkey"
    return (s.pickups.next, { s with pickups := s.pickups.insert fun n =>
      ⟨n, shipment.warehouseId, shipment.partnerId, reply.partnerPickupRef,
        reply.scheduledAt.getD i.now, packageCount, notes⟩ })

def linkPickup (shipmentId requestId : ℕ) : ShippingProg Shipment :=
  atomic (.linkPickup shipmentId) fun _ s =>
    updateShipment shipmentId (fun a => { a with pickupRequestId := some requestId }) (fun _ => rfl) s

/-- The transitions that follow a pickup, by the status that was read at the start. -/
def dispatch (shipmentId : ℕ) (status : ShipmentStatus) : ShippingProg Unit :=
  if status = .created then do
    let _ ← transitionStatus shipmentId ShipmentStatus.packed.text
      (some "Auto-pack before pickup") false
    let _ ← transitionStatus shipmentId ShipmentStatus.dispatched.text
      (some "Pickup scheduled") false
    pure ()
  else if status = .packed then do
    let _ ← transitionStatus shipmentId ShipmentStatus.dispatched.text
      (some "Pickup scheduled") false
    pure ()
  else pure ()

def schedulePickup (token : ℕ) (dto : SchedulePickupDto) : ShippingProg PickupResult :=
  LockService.withLock (ShippingLock.pickup dto.shipmentId) token do
    let shipment ← requireShipment dto.shipmentId false
    let ref ← Prog.orThrow missingRef (truthy shipment.partnerShipmentRef)
    let packages ← countPackages dto.shipmentId
    let pickup ← carrier none (.schedulePickup ref shipment.warehouseId dto.scheduledAt
      (max packages 1))
    let requestId ← insertPickup shipment pickup (max packages 1) dto.notes
    let _ ← linkPickup dto.shipmentId requestId
    dispatch dto.shipmentId shipment.status
    invalidateShipment dto.shipmentId
    pure ⟨dto.shipmentId, requestId, pickup.partnerPickupRef⟩

/-! ### Tracking -/

def underscored (inSpace : Bool) : List Char → List Char
  | [] => []
  | c :: cs =>
    if isJsSpace c then
      if inSpace then underscored true cs else '_' :: underscored true cs
    else c :: underscored false cs

def carrierStatuses : List (String × ShipmentStatus) :=
  [("created", .created), ("packed", .packed), ("dispatched", .dispatched),
   ("picked_up", .dispatched), ("in_transit", .inTransit), ("transit", .inTransit),
   ("out_for_delivery", .outForDelivery), ("ofd", .outForDelivery), ("delivered", .delivered),
   ("delivery_failed", .deliveryFailed), ("undelivered", .deliveryFailed),
   ("returned", .returned), ("rto", .returned), ("cancelled", .cancelled), ("lost", .lost),
   ("damaged", .damaged)]

/-- `toLowerCase` is the engine's. -/
def mapCarrierStatus (toLowerCase : String → String) (raw : String) : Option ShipmentStatus :=
  carrierStatuses.lookup (String.ofList (underscored false (toLowerCase raw).toList))

def appendEvents (shipmentId : ℕ) : List CarrierEvent → ShippingProg Unit
  | [] => pure ()
  | e :: es => do
    appendEvent shipmentId ⟨e.status, e.code, e.description, e.location, some e.occurredAt⟩ false
    appendEvents shipmentId es

def insertEta (shipmentId : ℕ) (oldEta : Option ℕ) (newEta : ℕ) : ShippingProg Unit :=
  atomic (.insertEta shipmentId) fun _ s =>
    .ok ((), { s with etas := s.etas.insert fun n => ⟨n, shipmentId, oldEta, newEta, "Carrier sync"⟩ })

def updateEta (shipmentId eta : ℕ) : ShippingProg Shipment :=
  atomic (.updateEta shipmentId) fun _ s =>
    updateShipment shipmentId (fun a => { a with estimatedDeliveryAt := some eta }) (fun _ => rfl) s

def recordEta (shipment : Shipment) : Option ℕ → ShippingProg Unit
  | none => pure ()
  | some eta => do
    insertEta shipment.id shipment.estimatedDeliveryAt eta
    let _ ← updateEta shipment.id eta
    pure ()

/-- The newest fifty events come first; `rank` orders those of one time. -/
def recentEvents (shipmentId : ℕ) (rank : ℕ → ℕ) (s : ShippingState) : List TrackingEvent :=
  ((s.events.rows.filter fun e => e.shipmentId == shipmentId).mergeSort fun a b =>
    decide (b.occurredAt < a.occurredAt ∨ b.occurredAt = a.occurredAt ∧ rank a.id ≤ rank b.id)).take 50

def trackingView (shipment : Shipment) (rank : ℕ → ℕ) (s : ShippingState) : TrackingView where
  shipmentId := shipment.id
  status := shipment.status
  trackingNumber := shipment.trackingNumber
  awbNumber := shipment.awbNumber
  current := trackingOf shipment.id s
  events := recentEvents shipment.id rank s

def fetchTracking (shipmentId : ℕ) : ShippingProg TrackingView := do
  let found ← query (.findShipment shipmentId false) fun i s =>
    (findById shipmentId s).map fun shipment => trackingView shipment i.rank s
  let view ← Prog.orThrow shipmentNotFound found
  Prog.call (.setCached shipmentId) fun i s =>
    (.ok (), if i.fails then s else
      { s with views := Function.update s.views shipmentId (some view) })
  pure view

def getTracking (shipmentId : ℕ) : ShippingProg TrackingView := do
  let hit ← Prog.call (.getCached shipmentId) fun i s =>
    (.ok (if i.fails then none else s.views shipmentId), s)
  match hit with
  | some view => pure view
  | none => fetchTracking shipmentId

section Sync

variable (toLowerCase : String → String)

/-- The transition to what the carrier reports; a refused one is left out. -/
def followCarrier (shipment : Shipment) (mapped : Option ShipmentStatus) : ShippingProg Unit :=
  match mapped with
  | none => pure ()
  | some status =>
    if status = shipment.status then pure ()
    else (transitionStatus shipment.id status.text (some "Carrier tracking sync") true).attempt.bind
      fun _ => pure ()

def recordSync (shipment : Shipment) (sync : CarrierReply) (mapped : Option ShipmentStatus) :
    ShippingProg TrackingView := do
  track shipment.id ((mapped.map ShipmentStatus.text).getD sync.status) sync.location false
  appendEvents shipment.id sync.events
  recordEta shipment sync.eta
  invalidateShipment shipment.id
  getTracking shipment.id

def syncTracking (token shipmentId : ℕ) : ShippingProg TrackingView :=
  LockService.withLock (ShippingLock.tracking shipmentId) token do
    let shipment ← requireShipment shipmentId false
    let sync ← carrier (some shipment.id)
      (.syncTracking shipment.trackingNumber shipment.awbNumber shipment.partnerShipmentRef)
    let mapped := mapCarrierStatus toLowerCase sync.status
    followCarrier shipment mapped
    recordSync shipment sync mapped

end Sync

/-! ### Creation -/

structure CreateShipmentDto where
  orderId : ℕ
  warehouseId : ℕ
  partnerId : Option ℕ := none
  serviceId : Option ℕ := none
  shippingAddressId : Option ℕ := none
  fulfillmentOrderId : Option ℕ := none
  cod : Bool := false
  declaredValue : Option ℚ := none
  packages : List PackageDto
  items : List ShipmentItemDto := []
deriving DecidableEq, Repr

def findPartner (p : ShippingPartner → Bool) : ShippingProg (Option ShippingPartner) :=
  query .findPartner fun _ s => s.partners.first? fun a => a.active && !a.deleted && p a

def namedPartner : Option ℕ → ShippingProg (Option ShippingPartner)
  | some id => findPartner (·.id == id)
  | none => pure none

def choosePartner (partnerId : Option ℕ) : ShippingProg (Option ShippingPartner) := do
  let named ← namedPartner partnerId
  match named with
  | some partner => pure (some partner)
  | none => do
    let primary ← findPartner ShippingPartner.isPrimary
    match primary with
    | some partner => pure (some partner)
    | none => findPartner (·.code == "shiprocket")

def shippingAddress (order : ShippedOrder) : Option OrderAddress :=
  (order.addresses.find? OrderAddress.shipping).or order.addresses.head?

/-- `SHP-` and the time in base 36. -/
def shipmentNumber (now : ℕ) : String :=
  "SHP-" ++ String.ofList ((Nat.toDigits 36 now).map Char.toUpper)

def totalWeight (dto : CreateShipmentDto) : ℚ := (dto.packages.map PackageDto.weightKg).sum

def declared (dto : CreateShipmentDto) (order : ShippedOrder) : ℚ :=
  dto.declaredValue.getD order.grandTotal

def carrierInput (dto : CreateShipmentDto) (order : ShippedOrder) (number : String) :
    CreateCarrierShipmentInput :=
  let address := shippingAddress order
  let first := dto.packages.head?
  { orderId := order.id
    shipmentNumber := number
    weightKg := totalWeight dto
    lengthCm := first.bind PackageDto.lengthCm
    widthCm := first.bind PackageDto.widthCm
    heightCm := first.bind PackageDto.heightCm
    declaredValue := declared dto order
    codAmount := if dto.cod then order.grandTotal else 0
    pickupPincode := "500001"
    deliveryPincode := (address.map OrderAddress.postalCode).getD "110001"
    customerName := (address.bind OrderAddress.fullName).getD "Customer"
    customerPhone := address.bind OrderAddress.phone
    customerAddress := (address.map OrderAddress.line1).getD "Address"
    customerCity := (address.map OrderAddress.city).getD "City"
    customerState := (address.map OrderAddress.state).getD "State" }

def newShipment (dto : CreateShipmentDto) (order : ShippedOrder) (partner : ShippingPartner)
    (number : String) (reply : CarrierReply) (n : ℕ) : Shipment where
  id := n
  shipmentNumber := number
  orderId := order.id
  fulfillmentOrderId := dto.fulfillmentOrderId
  warehouseId := dto.warehouseId
  partnerId := partner.id
  serviceId := dto.serviceId
  shippingAddressId := dto.shippingAddressId.or ((shippingAddress order).map OrderAddress.id)
  trackingNumber := reply.trackingNumber
  awbNumber := reply.awbNumber
  partnerShipmentRef := some reply.partnerShipmentRef
  declaredValue := some (declared dto order)
  totalWeightKg := some (totalWeight dto)
  status := .created

def insertParts (dto : CreateShipmentDto) (shipment : Shipment) : ShippingProg Unit := do
  atomic (.insertPackages shipment.id dto.packages) fun _ s =>
    insertPackages shipment.id dto.packages s
  if dto.items.isEmpty then pure ()
  else atomic (.insertItems shipment.id dto.items) fun _ s => insertItems shipment.id dto.items s

def assignNumber (shipment : Shipment) : ShippingProg Unit :=
  match truthy shipment.awbNumber with
  | none => pure ()
  | some awb => atomic (.assignAwb shipment.id shipment.partnerId awb) fun i s =>
      assignAwb shipment.id shipment.partnerId awb i.now s

/-- What `createShipment` writes. -/
def recordShipment (dto : CreateShipmentDto) (order : ShippedOrder) (partner : ShippingPartner)
    (number : String) (reply : CarrierReply) : ShippingProg Shipment := do
  let shipment ← atomic (.insertShipment dto.orderId) fun _ s =>
    insertShipment (newShipment dto order partner number reply) (fun _ => rfl) s
  insertParts dto shipment
  assignNumber shipment
  track shipment.id ShipmentStatus.created.text none false
  appendEvent shipment.id
    { status := ShipmentStatus.created.text, description := some "Shipment created" } false
  pure shipment

def createShipment (token : ℕ) (dto : CreateShipmentDto) : ShippingProg Shipment :=
  LockService.withLock (ShippingLock.create dto.orderId) token do
    let found ← query (.findOrder dto.orderId) fun _ s =>
      (s.orders.find? dto.orderId).filter fun o => !o.deleted
    let order ← Prog.orThrow (.throwApp .notFound "Order not found" 404) found
    let chosen ← choosePartner dto.partnerId
    let partner ← Prog.orThrow
      (.throwApp .internalError "Shipping partner unavailable" 503) chosen
    Prog.ensure (dto.packages.all (fun p => decide (0 < p.weightKg)) = true)
      (.throwApp .badRequest "Invalid weight" 400)
    let now ← clock
    let reply ← carrier none (.createShipment (carrierInput dto order (shipmentNumber now)))
    recordShipment dto order partner (shipmentNumber now) reply

end ShippingService

/-! ### `ReverseLogisticsService` -/

namespace ReverseLogisticsService

open ShippingService

structure CreateRtoDto where
  forwardShipmentId : ℕ
  reason : Option String := none
deriving DecidableEq, Repr

structure RtoResult where
  id : ℕ
  forwardShipmentId : ℕ
  status : RtoStatus
deriving DecidableEq, Repr

def returnable : List ShipmentStatus :=
  [.outForDelivery, .inTransit, .deliveryFailed, .dispatched]

def insertRto (forward : Shipment) (reason : Option String) : ShippingProg RtoShipment :=
  atomic (.insertRto forward.id) fun i s => do
    check (s.shipments.find? forward.id).isSome "rto_shipments_forward_shipment_id_fkey"
    let row : ℕ → RtoShipment := fun n =>
      { id := n, forwardShipmentId := forward.id, warehouseId := forward.warehouseId,
        partnerId := forward.partnerId, reason, trackingNumber := forward.trackingNumber,
        awbNumber := forward.awbNumber, initiatedAt := i.now }
    return (row s.rtos.next, { s with rtos := s.rtos.insert row })

/-- The transition of the forward shipment, which leaves its tracking record alone. -/
def returnForward (forward : Shipment) (rto : RtoShipment) : ShippingProg Unit :=
  if returnable.contains forward.status then do
    Prog.ensure (canTransition forward.status ShipmentStatus.returned.text = true)
      (invalidTransition forward.status ShipmentStatus.returned.text)
    let _ ← atomic (.applyReturn forward.id forward.status) fun _ s =>
      updateShipment forward.id (fun a => { a with status := .returned }) (fun _ => rfl) s
    appendEvent forward.id
      { status := ShipmentStatus.returned.text,
        description := some ("RTO " ++ toString rto.id) } false
  else pure ()

def rtoPayload (forward : Shipment) : ShipmentPayload :=
  ⟨forward.id, forward.orderId, .returned, forward.trackingNumber⟩

def rtoEvents (forward : Shipment) (rto : RtoShipment) : List RtoEvent :=
  [.rto (rtoPayload forward) rto.id, .returned (rtoPayload forward)]

/-- The events go out without a wait, right before the cache is told. -/
def announceRto (forward : Shipment) (rto : RtoShipment) : ShippingProg Unit :=
  Prog.call (.invalidateShipment forward.id) fun i s =>
    let t := { s with published := s.published ++ rtoEvents forward rto }
    (.ok (), if i.fails then t else { t with views := Function.update t.views forward.id none })

def createRto (token : ℕ) (dto : CreateRtoDto) : ShippingProg RtoResult :=
  LockService.withLock (ShippingLock.rto dto.forwardShipmentId) token do
    let forward ← requireShipment dto.forwardShipmentId false
    let rto ← insertRto forward dto.reason
    returnForward forward rto
    announceRto forward rto
    pure ⟨rto.id, forward.id, rto.status⟩

end ReverseLogisticsService

/-! ### Requests -/

inductive ShippingRequest where
  | createShipment (dto : ShippingService.CreateShipmentDto)
  | updateStatus (shipmentId : ℕ) (dto : ShippingService.UpdateShipmentStatusDto)
  | generateLabel (shipmentId : ℕ)
  | schedulePickup (dto : ShippingService.SchedulePickupDto)
  | syncTracking (shipmentId : ℕ)
  | createRto (dto : ReverseLogisticsService.CreateRtoDto)
deriving DecidableEq, Repr

def ShippingRequest.prog (toLowerCase : String → String) (token : ℕ) :
    ShippingRequest → ShippingProg Unit
  | .createShipment dto => (ShippingService.createShipment token dto).bind fun _ => pure ()
  | .updateStatus id dto => (ShippingService.updateStatus token id dto).bind fun _ => pure ()
  | .generateLabel id => (ShippingService.generateLabel token id).bind fun _ => pure ()
  | .schedulePickup dto => (ShippingService.schedulePickup token dto).bind fun _ => pure ()
  | .syncTracking id => (ShippingService.syncTracking toLowerCase token id).bind fun _ => pure ()
  | .createRto dto => (ReverseLogisticsService.createRto token dto).bind fun _ => pure ()

/-- The requests as concurrent calls, each with its own lock token. -/
def shippingPool (toLowerCase : String → String) (requests : List ShippingRequest)
    (s : ShippingState) : Pool ShippingCall ShippingInput ShippingState Failure Unit :=
  ⟨requests.mapIdx fun token r => r.prog toLowerCase token, s⟩

end ElectronicsCart.Shipping
