import ElectronicsCart.Core.Lock
import ElectronicsCart.Core.Values
import ElectronicsCart.Lib.Table
import Mathlib.Data.Rat.Floor

/-!
# Shipments

The tables of `database/sql/022_shipping.sql` and `025_shipping_extensions.sql` that a shipment
goes through, the status graph of `shared/state-machine/definitions/shipment.definition.ts`, and the
external calls of the services.
-/

namespace ElectronicsCart.Shipping

open Interleaving Relational

inductive ShipmentStatus where
  | created | packed | dispatched | inTransit | outForDelivery | delivered | deliveryFailed
  | returned | lost | damaged | cancelled
deriving DecidableEq, Repr

namespace ShipmentStatus

def text : ShipmentStatus → String
  | created => "created"
  | packed => "packed"
  | dispatched => "dispatched"
  | inTransit => "in_transit"
  | outForDelivery => "out_for_delivery"
  | delivered => "delivered"
  | deliveryFailed => "delivery_failed"
  | returned => "returned"
  | lost => "lost"
  | damaged => "damaged"
  | cancelled => "cancelled"

def all : List ShipmentStatus :=
  [created, packed, dispatched, inTransit, outForDelivery, delivered, deliveryFailed, returned, lost,
    damaged, cancelled]

def parse (t : String) : Option ShipmentStatus := all.find? fun status => status.text == t

@[simp] theorem parse_text (status : ShipmentStatus) : parse status.text = some status := by
  cases status <;> decide

theorem text_injective {a b : ShipmentStatus} (h : a.text = b.text) : a = b := by
  have hparse : parse a.text = parse b.text := congrArg parse h
  simpa using hparse

end ShipmentStatus

/-! ### `shipmentStateMachine` -/

def shipmentTransitions : ShipmentStatus → List ShipmentStatus
  | .created => [.packed, .cancelled]
  | .packed => [.dispatched, .cancelled]
  | .dispatched => [.inTransit, .cancelled, .lost, .damaged]
  | .inTransit =>
    [.outForDelivery, .delivered, .deliveryFailed, .returned, .lost, .damaged, .cancelled]
  | .outForDelivery => [.delivered, .deliveryFailed, .returned, .lost, .damaged]
  | .delivered => []
  | .deliveryFailed => [.outForDelivery, .returned, .cancelled]
  | .returned => []
  | .lost => []
  | .damaged => []
  | .cancelled => []

/-- `canTransition`, to a status that may be any text. -/
def canTransition (current : ShipmentStatus) (target : String) : Bool :=
  current.text == target || (shipmentTransitions current).any fun status => status.text == target

def invalidTransition (current : ShipmentStatus) (target : String) : Failure :=
  .throwApp .conflict ("Invalid shipment transition " ++ current.text ++ " → " ++ target) 409

/-! ### Rows -/

structure OrderAddress where
  id : ℕ
  shipping : Bool
  fullName : Option String := none
  phone : Option String := none
  line1 : String := ""
  city : String := ""
  state : String := ""
  postalCode : String := ""
deriving DecidableEq, Repr

/-- What `createShipment` reads of an order. -/
structure ShippedOrder where
  id : ℕ
  grandTotal : ℚ
  addresses : List OrderAddress := []
  deleted : Bool := false
deriving DecidableEq, Repr

structure ShippingPartner where
  id : ℕ
  code : String
  isPrimary : Bool := false
  active : Bool := true
  deleted : Bool := false
deriving DecidableEq, Repr

structure Shipment where
  id : ℕ
  shipmentNumber : String
  orderId : ℕ
  fulfillmentOrderId : Option ℕ := none
  warehouseId : ℕ
  partnerId : ℕ
  serviceId : Option ℕ := none
  pickupRequestId : Option ℕ := none
  shippingAddressId : Option ℕ := none
  trackingNumber : Option String := none
  awbNumber : Option String := none
  partnerShipmentRef : Option String := none
  declaredValue : Option ℚ := none
  totalWeightKg : Option ℚ := none
  status : ShipmentStatus := .created
  packedAt : Option ℕ := none
  dispatchedAt : Option ℕ := none
  deliveredAt : Option ℕ := none
  estimatedDeliveryAt : Option ℕ := none
  deleted : Bool := false
deriving DecidableEq, Repr

structure ShipmentPackage where
  id : ℕ
  shipmentId : ℕ
  packageNumber : String
  weightKg : ℚ
  lengthCm : Option ℚ := none
  widthCm : Option ℚ := none
  heightCm : Option ℚ := none
  declaredValue : Option ℚ := none
  deleted : Bool := false
deriving DecidableEq, Repr

structure ShipmentItem where
  id : ℕ
  shipmentId : ℕ
  orderItemId : ℕ
  quantity : ℤ
deriving DecidableEq, Repr

structure AwbNumber where
  id : ℕ
  partnerId : ℕ
  awbNumber : String
  shipmentId : ℕ
  assignedAt : ℕ
deriving DecidableEq, Repr

/-- `shipment_tracking`, with one row for each shipment. -/
structure ShipmentTracking where
  id : ℕ
  shipmentId : ℕ
  currentStatus : ShipmentStatus
  lastLocation : Option String := none
  lastEventAt : ℕ
deriving DecidableEq, Repr

structure TrackingEvent where
  id : ℕ
  shipmentId : ℕ
  eventStatus : ShipmentStatus
  eventCode : Option String := none
  description : Option String := none
  location : Option String := none
  occurredAt : ℕ
deriving DecidableEq, Repr

structure ShipmentLabel where
  id : ℕ
  shipmentId : ℕ
  labelUrl : String
  labelFormat : String
  generatedAt : ℕ
deriving DecidableEq, Repr

structure PickupRequest where
  id : ℕ
  warehouseId : ℕ
  partnerId : ℕ
  partnerPickupRef : String
  scheduledAt : ℕ
  packageCount : ℕ
  notes : Option String
deriving DecidableEq, Repr

inductive RtoStatus where
  | initiated | inTransit | received | closed | cancelled
deriving DecidableEq, Repr

structure RtoShipment where
  id : ℕ
  forwardShipmentId : ℕ
  warehouseId : ℕ
  partnerId : ℕ
  reason : Option String
  trackingNumber : Option String
  awbNumber : Option String
  status : RtoStatus := .initiated
  initiatedAt : ℕ
deriving DecidableEq, Repr

structure ShipmentEta where
  id : ℕ
  shipmentId : ℕ
  oldEta : Option ℕ
  newEta : ℕ
  reason : String
deriving DecidableEq, Repr

inductive FulfillmentStatus where
  | pending | picking | packed | shipped | delivered | cancelled
deriving DecidableEq, Repr

structure FulfillmentOrder where
  id : ℕ
  status : FulfillmentStatus := .pending
deriving DecidableEq, Repr

instance : Keyed ShippedOrder := ⟨ShippedOrder.id⟩
instance : Keyed ShippingPartner := ⟨ShippingPartner.id⟩
instance : Keyed Shipment := ⟨Shipment.id⟩
instance : Keyed ShipmentPackage := ⟨ShipmentPackage.id⟩
instance : Keyed ShipmentItem := ⟨ShipmentItem.id⟩
instance : Keyed AwbNumber := ⟨AwbNumber.id⟩
instance : Keyed ShipmentTracking := ⟨ShipmentTracking.id⟩
instance : Keyed TrackingEvent := ⟨TrackingEvent.id⟩
instance : Keyed ShipmentLabel := ⟨ShipmentLabel.id⟩
instance : Keyed PickupRequest := ⟨PickupRequest.id⟩
instance : Keyed RtoShipment := ⟨RtoShipment.id⟩
instance : Keyed ShipmentEta := ⟨ShipmentEta.id⟩
instance : Keyed FulfillmentOrder := ⟨FulfillmentOrder.id⟩

/-- What `getTracking` gives of a shipment. -/
structure TrackingView where
  shipmentId : ℕ
  status : ShipmentStatus
  trackingNumber : Option String
  awbNumber : Option String
  current : Option ShipmentTracking
  events : List TrackingEvent
deriving DecidableEq, Repr

structure ShipmentPayload where
  shipmentId : ℕ
  orderId : ℕ
  status : ShipmentStatus
  trackingNumber : Option String
deriving DecidableEq, Repr

/-- `shipment.rto` and `shipment.returned`, as an RTO publishes them. -/
inductive RtoEvent where
  | rto (payload : ShipmentPayload) (rtoId : ℕ)
  | returned (payload : ShipmentPayload)
deriving DecidableEq, Repr

inductive ShippingLock where
  | create (orderId : ℕ)
  | label (shipmentId : ℕ)
  | pickup (shipmentId : ℕ)
  | status (shipmentId : ℕ)
  | tracking (shipmentId : ℕ)
  | rto (shipmentId : ℕ)
deriving DecidableEq, Repr

structure ShippingState where
  orders : Table ShippedOrder := Table.empty
  orderItems : List ℕ := []
  warehouses : List ℕ := []
  services : List ℕ := []
  addresses : List ℕ := []
  partners : Table ShippingPartner := Table.empty
  fulfillments : Table FulfillmentOrder := Table.empty
  shipments : Table Shipment := Table.empty
  packages : Table ShipmentPackage := Table.empty
  items : Table ShipmentItem := Table.empty
  awbs : Table AwbNumber := Table.empty
  tracking : Table ShipmentTracking := Table.empty
  events : Table TrackingEvent := Table.empty
  labels : Table ShipmentLabel := Table.empty
  pickups : Table PickupRequest := Table.empty
  rtos : Table RtoShipment := Table.empty
  etas : Table ShipmentEta := Table.empty
  /-- the cached answers of `getTracking` -/
  views : ℕ → Option TrackingView := fun _ => none
  /-- what `createRto` has handed to the event publisher -/
  published : List RtoEvent := []
  locks : LockStore ShippingLock := fun _ => none

/-! ### The carrier -/

structure PackageDto where
  packageNumber : String
  weightKg : ℚ
  lengthCm : Option ℚ := none
  widthCm : Option ℚ := none
  heightCm : Option ℚ := none
  declaredValue : Option ℚ := none
deriving DecidableEq, Repr

structure ShipmentItemDto where
  orderItemId : ℕ
  quantity : ℤ
deriving DecidableEq, Repr

structure CreateCarrierShipmentInput where
  orderId : ℕ
  shipmentNumber : String
  weightKg : ℚ
  lengthCm : Option ℚ
  widthCm : Option ℚ
  heightCm : Option ℚ
  declaredValue : ℚ
  codAmount : ℚ
  pickupPincode : String
  deliveryPincode : String
  customerName : String
  customerPhone : Option String
  customerAddress : String
  customerCity : String
  customerState : String
deriving DecidableEq, Repr

inductive CarrierRequest where
  | createShipment (input : CreateCarrierShipmentInput)
  | generateLabel (partnerShipmentRef : String) (awbNumber : Option String)
  | schedulePickup (partnerShipmentRef : String) (warehouseId : ℕ) (scheduledAt : Option ℕ)
      (packageCount : ℕ)
  | syncTracking (trackingNumber awbNumber partnerShipmentRef : Option String)
deriving DecidableEq, Repr

structure CarrierEvent where
  status : String
  code : Option String := none
  description : Option String := none
  location : Option String := none
  /-- absent when the carrier's date is none -/
  occurredAt : Option ℕ := some 0
deriving DecidableEq, Repr

structure CarrierReply where
  partnerShipmentRef : String := ""
  awbNumber : Option String := none
  trackingNumber : Option String := none
  labelUrl : String := ""
  labelFormat : String := "pdf"
  partnerPickupRef : String := ""
  scheduledAt : Option ℕ := none
  status : String := "in_transit"
  location : Option String := none
  events : List CarrierEvent := []
  eta : Option ℕ := none
deriving DecidableEq, Repr

abbrev ShippingInput := Input CarrierReply

/-- The external calls.  `caught` marks those whose errors `syncTracking` swallows; `applyReturn` is
the status write of an RTO. -/
inductive ShippingCall where
  | acquire (key : ShippingLock) (token : ℕ)
  | release (key : ShippingLock) (token : ℕ)
  | clock
  | carrier (shipmentId : Option ℕ) (request : CarrierRequest)
  | findOrder (orderId : ℕ)
  | findPartner
  | insertShipment (orderId : ℕ)
  | insertPackages (shipmentId : ℕ) (packages : List PackageDto)
  | insertItems (shipmentId : ℕ) (items : List ShipmentItemDto)
  | assignAwb (shipmentId partnerId : ℕ) (awbNumber : String)
  | findShipment (shipmentId : ℕ) (caught : Bool)
  | applyStatus (shipmentId : ℕ) (source target : ShipmentStatus) (caught : Bool)
  | applyReturn (shipmentId : ℕ) (source : ShipmentStatus)
  | appendEvent (shipmentId : ℕ) (caught : Bool)
  | upsertTracking (shipmentId : ℕ) (status : String) (caught : Bool)
  | syncFulfillment (fulfillmentOrderId : ℕ)
  | insertLabel (shipmentId : ℕ)
  | countPackages (shipmentId : ℕ)
  | insertPickup (shipmentId : ℕ)
  | linkPickup (shipmentId : ℕ)
  | insertEta (shipmentId : ℕ)
  | updateEta (shipmentId : ℕ)
  | insertRto (shipmentId : ℕ)
  | invalidateShipment (shipmentId : ℕ)
  | getCached (shipmentId : ℕ)
  | setCached (shipmentId : ℕ)
deriving DecidableEq, Repr

instance : Lockable ShippingCall ShippingState ShippingLock where
  locks := ShippingState.locks
  setLocks m s := { s with locks := m }
  acquireCall := .acquire
  releaseCall := .release
  resource
    | .create n => ["shipping", "create", toString n]
    | .label n => ["shipping", "label", toString n]
    | .pickup n => ["shipping", "pickup", toString n]
    | .status n => ["shipping", "status", toString n]
    | .tracking n => ["shipping", "tracking", toString n]
    | .rto n => ["shipping", "rto", toString n]
  locks_setLocks _ _ := rfl

abbrev ShippingProg := Prog ShippingCall ShippingInput ShippingState Failure

end ElectronicsCart.Shipping
