import ElectronicsCart.Core.Environment
import ElectronicsCart.Lib.Table

/-!
# Rows of the shop database

The columns that the inventory, order, payment and warranty services read or write,
from `database/sql/007_inventory.sql`, `010_orders.sql`, `013_order_extensions.sql`,
`016_payments.sql` and `028_warranty.sql`.  Identifiers are natural numbers, quantities
integers and amounts rational numbers; `deleted` stands for `deleted_at IS NOT NULL`.
-/

namespace ElectronicsCart

open Relational

/-! ### Stock -/

structure Warehouse where
  id : ℕ
  deleted : Bool := false
deriving DecidableEq, Repr

structure WarehouseBin where
  id : ℕ
  warehouseId : ℕ
  deleted : Bool := false
deriving DecidableEq, Repr

structure InventoryRow where
  id : ℕ
  warehouseId : ℕ
  binId : ℕ
  variantId : ℕ
  available : ℤ
  reserved : ℤ := 0
  reorderLevel : ℤ := 0
  active : Bool := true
  deleted : Bool := false
deriving DecidableEq, Repr

inductive ReservationStatus where
  | active | consumed | expired | released | cancelled
deriving DecidableEq, Repr

def ReservationStatus.text : ReservationStatus → String
  | .active => "active"
  | .consumed => "consumed"
  | .expired => "expired"
  | .released => "released"
  | .cancelled => "cancelled"

structure StockReservation where
  id : ℕ
  warehouseId : ℕ
  variantId : ℕ
  quantity : ℤ
  cartId : Option ℕ := none
  orderId : Option ℕ := none
  sessionKey : Option String := none
  expiresAt : ℕ := 0
  status : ReservationStatus := .active
  deleted : Bool := false
deriving DecidableEq, Repr

inductive MovementType where
  | purchase | sale | transferOut | transferIn | adjustment | returnIn | returnOut | repair
  | replacement | reservation | reservationRelease | damage | refurbish
deriving DecidableEq, Repr

structure InventoryMovement where
  id : ℕ
  warehouseId : ℕ
  variantId : ℕ
  movementType : MovementType
  quantity : ℤ
  referenceType : String
  referenceId : ℕ
  notes : Option String := none
deriving DecidableEq, Repr

inductive AdjustmentReason where
  | cycleCount | damage | theft | writeOff | found | correction | other
deriving DecidableEq, Repr

/-- The values of the database enum; any other text is refused by the client. -/
def AdjustmentReason.parse : String → Option AdjustmentReason
  | "cycle_count" => some .cycleCount
  | "damage" => some .damage
  | "theft" => some .theft
  | "write_off" => some .writeOff
  | "found" => some .found
  | "correction" => some .correction
  | "other" => some .other
  | _ => none

structure InventoryAdjustment where
  id : ℕ
  warehouseId : ℕ
  variantId : ℕ
  quantityDelta : ℤ
  reason : AdjustmentReason
  notes : Option String
deriving DecidableEq, Repr

inductive AlertStatus where
  | opened | acknowledged | resolved | dismissed
deriving DecidableEq, Repr

structure LowStockAlert where
  id : ℕ
  warehouseId : ℕ
  variantId : ℕ
  available : ℤ
  reorderLevel : ℤ
  status : AlertStatus := .opened
  deleted : Bool := false
deriving DecidableEq, Repr

structure GoodsReceipt where
  id : ℕ
  grnNumber : String
  supplierId : ℕ
  warehouseId : ℕ
  purchaseOrderId : Option ℕ
  notes : Option String
  deleted : Bool := false
deriving DecidableEq, Repr

structure GoodsReceiptItem where
  id : ℕ
  goodsReceiptId : ℕ
  variantId : ℕ
  purchaseOrderItemId : Option ℕ
  quantityReceived : ℤ
  unitCost : Option ℚ
deriving DecidableEq, Repr

structure PurchaseOrderItem where
  id : ℕ
  quantityOrdered : ℤ
  quantityReceived : ℤ := 0
deriving DecidableEq, Repr

structure SerialNumber where
  id : ℕ
  serialNumber : String
  warehouseId : ℕ
  binId : ℕ
  variantId : ℕ
  purchaseOrderItemId : Option ℕ
  deleted : Bool := false
deriving DecidableEq, Repr

structure StockTransfer where
  id : ℕ
  transferNumber : String
  fromWarehouseId : ℕ
  toWarehouseId : ℕ
  notes : Option String
  deleted : Bool := false
deriving DecidableEq, Repr

structure StockTransferItem where
  id : ℕ
  stockTransferId : ℕ
  variantId : ℕ
  quantity : ℤ
deriving DecidableEq, Repr

/-! ### Orders -/

inductive CartStatus where
  | active | merged | converted | abandoned
deriving DecidableEq, Repr

structure Cart where
  id : ℕ
  userId : Option ℕ
  currency : String := "INR"
  status : CartStatus := .active
  deleted : Bool := false
deriving DecidableEq, Repr

structure CartItem where
  id : ℕ
  cartId : ℕ
  variantId : ℕ
  sku : String
  quantity : ℤ
  unitPrice : ℚ
  deleted : Bool := false
deriving DecidableEq, Repr

inductive OrderStatus where
  | pending | confirmed | processing | packed | shipped | delivered | completed | cancelled
  | returned | refunded
deriving DecidableEq, Repr

def OrderStatus.text : OrderStatus → String
  | .pending => "pending"
  | .confirmed => "confirmed"
  | .processing => "processing"
  | .packed => "packed"
  | .shipped => "shipped"
  | .delivered => "delivered"
  | .completed => "completed"
  | .cancelled => "cancelled"
  | .returned => "returned"
  | .refunded => "refunded"

/-- The time and the random part that make up the number of an order or a refund. -/
structure DocumentNumber where
  time : ℕ
  random : ℕ
deriving DecidableEq, Repr

structure Order where
  id : ℕ
  orderNumber : DocumentNumber
  customerId : Option ℕ
  cartId : Option ℕ
  fulfillmentWarehouseId : Option ℕ
  currency : String := "INR"
  subtotal : ℚ
  grandTotal : ℚ
  placedAt : Option ℕ := none
  cancelledAt : Option ℕ := none
  status : OrderStatus := .pending
  deleted : Bool := false
deriving DecidableEq, Repr

structure OrderItem where
  id : ℕ
  orderId : ℕ
  variantId : ℕ
  sku : String
  quantity : ℤ
  unitPrice : ℚ
  lineTotal : ℚ
deriving DecidableEq, Repr

structure OrderStatusHistory where
  id : ℕ
  orderId : ℕ
  fromStatus : Option OrderStatus
  toStatus : OrderStatus
  note : Option String
deriving DecidableEq, Repr

inductive FulfillmentStatus where
  | pending | picking | packed | shipped | delivered | cancelled
deriving DecidableEq, Repr

/-- The number of a fulfillment, a list or a return is the time in it. -/
structure FulfillmentOrder where
  id : ℕ
  number : ℕ
  orderId : ℕ
  warehouseId : ℕ
  shippedAt : Option ℕ := none
  deliveredAt : Option ℕ := none
  status : FulfillmentStatus := .pending
  deleted : Bool := false
deriving DecidableEq, Repr

structure FulfillmentItem where
  id : ℕ
  fulfillmentOrderId : ℕ
  orderItemId : ℕ
  quantity : ℤ
deriving DecidableEq, Repr

structure FulfillmentList where
  id : ℕ
  fulfillmentOrderId : ℕ
  number : ℕ
  deleted : Bool := false
deriving DecidableEq, Repr

/-- A return; its status stays `requested` here. -/
structure Return where
  id : ℕ
  number : ℕ
  orderId : ℕ
  reason : Option String
  deleted : Bool := false
deriving DecidableEq, Repr

structure ReturnItem where
  id : ℕ
  returnId : ℕ
  orderItemId : ℕ
  quantity : ℤ
  reason : Option String
deriving DecidableEq, Repr

inductive RiskLevel where
  | low | medium | high | critical
deriving DecidableEq, Repr

structure OrderRiskScore where
  id : ℕ
  orderId : ℕ
  score : ℤ
  riskLevel : RiskLevel
deriving DecidableEq, Repr

structure GiftCard where
  id : ℕ
  code : String
  remainingBalance : ℚ
  active : Bool := true
  deleted : Bool := false
deriving DecidableEq, Repr

structure Wallet where
  id : ℕ
  userId : ℕ
  balance : ℚ
  active : Bool := true
  deleted : Bool := false
deriving DecidableEq, Repr

/-! ### Payments -/

inductive PaymentStatus where
  | pending | authorized | captured | failed | cancelled | expired | refunded
  | partiallyRefunded | chargeback
deriving DecidableEq, Repr

def PaymentStatus.text : PaymentStatus → String
  | .pending => "pending"
  | .authorized => "authorized"
  | .captured => "captured"
  | .failed => "failed"
  | .cancelled => "cancelled"
  | .expired => "expired"
  | .refunded => "refunded"
  | .partiallyRefunded => "partially_refunded"
  | .chargeback => "chargeback"

structure PaymentGateway where
  id : ℕ
  code : String
  isPrimary : Bool := false
  active : Bool := true
  deleted : Bool := false
deriving DecidableEq, Repr

structure Payment where
  id : ℕ
  orderId : ℕ
  customerId : Option ℕ
  gatewayId : ℕ
  gatewayOrderId : Option String := none
  gatewayPaymentId : Option String := none
  gatewaySignature : Option String := none
  amount : ℚ
  currency : String := "INR"
  refundedAmount : ℚ := 0
  status : PaymentStatus := .pending
  authorizedAt : Option ℕ := none
  capturedAt : Option ℕ := none
  failedAt : Option ℕ := none
  deleted : Bool := false
deriving DecidableEq, Repr

structure PaymentAttempt where
  id : ℕ
  paymentId : ℕ
  attemptNumber : ℕ
  status : PaymentStatus
  errorMessage : Option String := none
  deleted : Bool := false
deriving DecidableEq, Repr

inductive PaymentTxType where
  | authorize | capture | void | refund
deriving DecidableEq, Repr

structure PaymentTransaction where
  id : ℕ
  paymentId : ℕ
  txType : PaymentTxType
  amount : ℚ
  gatewayReference : Option String
deriving DecidableEq, Repr

structure PaymentAuditLog where
  id : ℕ
  paymentId : ℕ
  action : String
  actorId : Option ℕ
  fromStatus : Option PaymentStatus
  toStatus : Option PaymentStatus
deriving DecidableEq, Repr

structure PaymentEvent where
  id : ℕ
  paymentId : ℕ
  event : String
deriving DecidableEq, Repr

inductive WebhookProcessingStatus where
  | received | verified | processed | failed | ignored | retrying
deriving DecidableEq, Repr

/-- `payload.payment.entity` of a webhook body. -/
structure WebhookEntity where
  id : Option String := none
  orderId : Option String := none
  status : Option String := none
  paymentId : Option String := none
deriving DecidableEq, Repr

structure PaymentWebhook where
  id : ℕ
  eventType : String
  entity : Option WebhookEntity
  processingStatus : WebhookProcessingStatus := .verified
  retryCount : ℕ := 0
  processedAt : Option ℕ := none
  errorMessage : Option String := none
  deleted : Bool := false
deriving DecidableEq, Repr

inductive RefundStatus where
  | requested | approved | rejected | processing | processed | failed
deriving DecidableEq, Repr

inductive RefundType where
  | full | partially
deriving DecidableEq, Repr

structure Refund where
  id : ℕ
  refundNumber : DocumentNumber
  paymentId : ℕ
  orderId : ℕ
  requestedById : ℕ
  refundType : RefundType
  amount : ℚ
  reasonCode : Option String
  reason : Option String
  gatewayRefundId : Option String := none
  status : RefundStatus := .processing
  processedAt : Option ℕ := none
  deleted : Bool := false
deriving DecidableEq, Repr

structure RefundItem where
  id : ℕ
  refundId : ℕ
  orderItemId : Option ℕ
  amount : ℚ
  quantity : Option ℤ
deriving DecidableEq, Repr

/-! ### Returns under warranty -/

inductive RmaStatus where
  | requested | approved | inTransit | received | completed | rejected | cancelled
deriving DecidableEq, Repr

def RmaStatus.text : RmaStatus → String
  | .requested => "requested"
  | .approved => "approved"
  | .inTransit => "in_transit"
  | .received => "received"
  | .completed => "completed"
  | .rejected => "rejected"
  | .cancelled => "cancelled"

structure RmaRequest where
  id : ℕ
  status : RmaStatus
  completedAt : Option ℕ := none
  deleted : Bool := false
deriving DecidableEq, Repr

structure ServiceAuditLog where
  id : ℕ
  action : String
  actorId : ℕ
  rmaId : ℕ
  fromStatus : Option RmaStatus := none
  toStatus : Option RmaStatus := none
  message : Option String := none
deriving DecidableEq, Repr

/-! ### Keys -/

instance : Keyed Warehouse := ⟨Warehouse.id⟩
instance : Keyed WarehouseBin := ⟨WarehouseBin.id⟩
instance : Keyed InventoryRow := ⟨InventoryRow.id⟩
instance : Keyed StockReservation := ⟨StockReservation.id⟩
instance : Keyed InventoryMovement := ⟨InventoryMovement.id⟩
instance : Keyed InventoryAdjustment := ⟨InventoryAdjustment.id⟩
instance : Keyed LowStockAlert := ⟨LowStockAlert.id⟩
instance : Keyed GoodsReceipt := ⟨GoodsReceipt.id⟩
instance : Keyed GoodsReceiptItem := ⟨GoodsReceiptItem.id⟩
instance : Keyed PurchaseOrderItem := ⟨PurchaseOrderItem.id⟩
instance : Keyed SerialNumber := ⟨SerialNumber.id⟩
instance : Keyed StockTransfer := ⟨StockTransfer.id⟩
instance : Keyed StockTransferItem := ⟨StockTransferItem.id⟩
instance : Keyed Cart := ⟨Cart.id⟩
instance : Keyed CartItem := ⟨CartItem.id⟩
instance : Keyed Order := ⟨Order.id⟩
instance : Keyed OrderItem := ⟨OrderItem.id⟩
instance : Keyed OrderStatusHistory := ⟨OrderStatusHistory.id⟩
instance : Keyed FulfillmentOrder := ⟨FulfillmentOrder.id⟩
instance : Keyed FulfillmentItem := ⟨FulfillmentItem.id⟩
instance : Keyed FulfillmentList := ⟨FulfillmentList.id⟩
instance : Keyed Return := ⟨Return.id⟩
instance : Keyed ReturnItem := ⟨ReturnItem.id⟩
instance : Keyed OrderRiskScore := ⟨OrderRiskScore.id⟩
instance : Keyed GiftCard := ⟨GiftCard.id⟩
instance : Keyed Wallet := ⟨Wallet.id⟩
instance : Keyed PaymentGateway := ⟨PaymentGateway.id⟩
instance : Keyed Payment := ⟨Payment.id⟩
instance : Keyed PaymentAttempt := ⟨PaymentAttempt.id⟩
instance : Keyed PaymentTransaction := ⟨PaymentTransaction.id⟩
instance : Keyed PaymentAuditLog := ⟨PaymentAuditLog.id⟩
instance : Keyed PaymentEvent := ⟨PaymentEvent.id⟩
instance : Keyed PaymentWebhook := ⟨PaymentWebhook.id⟩
instance : Keyed Refund := ⟨Refund.id⟩
instance : Keyed RefundItem := ⟨RefundItem.id⟩
instance : Keyed RmaRequest := ⟨RmaRequest.id⟩
instance : Keyed ServiceAuditLog := ⟨ServiceAuditLog.id⟩

end ElectronicsCart
