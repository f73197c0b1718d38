import ElectronicsCart.Orders.Checkout

/-!
# Orders after checkout

`cancel`, `requestReturn`, `createFulfillment` and `updateFulfillmentStatus` of
`modules/orders/services/orders.service.ts` with `fulfillment.repository.ts` and
`order-state.validator.ts`.  Columns that are written only (the reason of a cancellation, who
wrote a row) are left out.
-/

namespace ElectronicsCart.Orders

open Interleaving Relational Inventory

/-- `findById`, with the items of the order. -/
def findOrderWithItems (id : ℕ) : ShopProg (Option (Order × List OrderItem)) :=
  query (.order (.findOrderById id)) fun _ s =>
    ((s.orders.find? id).filter fun o => !o.deleted).map fun o =>
      (o, s.orderItems.rows.filter fun i => i.orderId == o.id)

def requireOrder (id : ℕ) : ShopProg (Order × List OrderItem) := do
  let found ← findOrderWithItems id
  Prog.orThrow (.throwApp .notFound "Order not found" 404) found

/-! ### Cancellation -/

structure CancelOrderDto where
  cancellationReasonId : Option ℕ := none
  note : Option String := none
deriving DecidableEq, Repr

/-- `ALLOWED_CANCEL_FROM`. -/
def canCancel (status : OrderStatus) : Bool := [OrderStatus.pending, .confirmed].contains status

def setCancellationReason (orderId : ℕ) (reason : Option ℕ) : ShopProg Unit :=
  atomic (.order (.setCancellationReason orderId)) fun _ s => do
    let _ ← existing s.orders orderId
    check (reason.all s.cancellationReasons.contains) "orders_cancellation_reason_id_fkey"
    return ((), s)

def activeReservations (orderId : ℕ) (s : Shop) : List StockReservation :=
  s.reservations.rows.filter fun r => r.orderId == some orderId && r.status == .active && !r.deleted

def releaseEach (token : ℕ) : List StockReservation → ShopProg Unit
  | [] => pure ()
  | r :: rs => do
    releaseReservation token r.id
    releaseEach token rs

/-- What `cancel` does once it is allowed to.  The query of the reservations has no order. -/
def cancelOrder (token : ℕ) (order : Order) (dto : CancelOrderDto) : ShopProg Unit := do
  setCancellationReason order.id dto.cancellationReasonId
  transitionStatus order.id order.status .cancelled (dto.note.getD "Cancelled by customer")
  let reservations ← query (.order (.findReservations order.id)) fun i s =>
    (activeReservations order.id s).insertionSort fun a b => i.rank a.id ≤ i.rank b.id
  releaseEach token reservations

def cancel (token orderId userId : ℕ) (dto : CancelOrderDto) (isAdmin : Bool) : ShopProg Unit :=
  LockService.withLock (.order orderId) token do
    let order ← requireOrder orderId
    Prog.ensure (isAdmin = true ∨ order.1.customerId = some userId)
      (.throwApp .forbidden "Order access denied" 403)
    Prog.ensure (canCancel order.1.status = true)
      (.throwApp .conflict ("Cannot cancel order in status " ++ order.1.status.text) 409)
    cancelOrder token order.1 dto

/-! ### Returns -/

structure ReturnRequestDto where
  orderItemId : ℕ
  quantity : ℚ
  reason : Option String := none
deriving DecidableEq, Repr

/-- `ALLOWED_RETURN_FROM`. -/
def canRequestReturn (status : OrderStatus) : Bool :=
  [OrderStatus.delivered, .completed, .shipped].contains status

def requireOwnedOrder (orderId userId : ℕ) : ShopProg (Order × List OrderItem) := do
  let order ← requireOrder orderId
  Prog.ensure (order.1.customerId = some userId) (.throwApp .forbidden "Order access denied" 403)
  pure order

/-- `return.create` with its item; the client takes whole numbers only. -/
def insertReturn (orderId : ℕ) (dto : ReturnRequestDto) (now : ℕ) (s : Shop) :
    Except Failure (Return × Shop) := do
  check (decide (dto.quantity.den = 1)) "quantity"
  check (dto.reason.all (fitsVarchar 255)) "reason"
  check (s.returns.rows.all fun r => r.deleted || r.number != now) "uq_returns_return_number_active"
  check ((s.orders.find? orderId).isSome && (s.orderItems.find? dto.orderItemId).isSome)
    "returns_fkey"
  check (fitsInt4 dto.quantity.num && decide (0 < dto.quantity.num)) "return_items_quantity_check"
  let mk := fun n => Return.mk n now orderId dto.reason false
  let ret := mk s.returns.next
  return (ret, { s with
    returns := s.returns.insert mk
    returnItems := s.returnItems.insert fun n =>
      ⟨n, ret.id, dto.orderItemId, dto.quantity.num, dto.reason⟩ })

def createReturn (orderId : ℕ) (dto : ReturnRequestDto) : ShopProg Return :=
  atomic (.order (.createReturn dto.orderItemId dto.quantity)) fun i s =>
    insertReturn orderId dto i.now s

def requestReturn (userId orderId : ℕ) (dto : ReturnRequestDto) : ShopProg Return := do
  let order ← requireOwnedOrder orderId userId
  Prog.ensure (canRequestReturn order.1.status = true)
    (.throwApp .conflict ("Cannot return order in status " ++ order.1.status.text) 409)
  let item ← Prog.orThrow (.throwApp .notFound "Order item not found" 404)
    (order.2.find? fun i => i.id == dto.orderItemId)
  Prog.ensure (dto.quantity ≤ item.quantity) (.throwApp .badRequest "Quantity exceeds ordered" 400)
  createReturn orderId dto

/-! ### Fulfillment -/

structure CreateFulfillmentDto where
  warehouseId : ℕ
  orderItemIds : Option (List ℕ) := none
deriving DecidableEq, Repr

def canFulfill (status : OrderStatus) : Bool :=
  [OrderStatus.confirmed, .processing, .packed].contains status

/-- The items that are asked for; no list, or an empty one, asks for all. -/
def selectItems (dto : CreateFulfillmentDto) (items : List OrderItem) : List OrderItem :=
  match dto.orderItemIds with
  | some (id :: ids) => items.filter fun i => (id :: ids).contains i.id
  | _ => items

def insertFulfillmentItems (fulfillmentId : ℕ) : List OrderItem → Shop → Except Failure Shop
  | [], s => .ok s
  | i :: items, s => do
    check (decide (0 < i.quantity)) "fulfillment_items_quantity_check"
    insertFulfillmentItems fulfillmentId items { s with
      fulfillmentItems := s.fulfillmentItems.insert fun n => ⟨n, fulfillmentId, i.id, i.quantity⟩ }

/-- `fulfillmentOrder.create` with its items and lists. -/
def insertFulfillment (orderId warehouseId : ℕ) (items : List OrderItem) (now : ℕ) (s : Shop) :
    Except Failure (FulfillmentOrder × Shop) := do
  check ((s.orders.find? orderId).isSome && (s.warehouses.find? warehouseId).isSome)
    "fulfillment_orders_fkey"
  check (s.fulfillments.rows.all fun f => f.deleted || f.number != now)
    "uq_fulfillment_orders_number_active"
  check (s.pickLists.rows.all fun l => l.deleted || l.number != now) "uq_pick_lists_number_active"
  check (s.packingLists.rows.all fun l => l.deleted || l.number != now)
    "uq_packing_lists_number_active"
  let mk := fun n => { id := n, number := now, orderId, warehouseId : FulfillmentOrder }
  let fo := mk s.fulfillments.next
  let s ← insertFulfillmentItems fo.id items { s with fulfillments := s.fulfillments.insert mk }
  return (fo, { s with
    pickLists := s.pickLists.insert fun n => ⟨n, fo.id, now, false⟩
    packingLists := s.packingLists.insert fun n => ⟨n, fo.id, now, false⟩ })

def createFulfillment (token orderId : ℕ) (dto : CreateFulfillmentDto) : ShopProg FulfillmentOrder :=
  LockService.withLock (.fulfillment orderId) token do
    let order ← requireOrder orderId
    Prog.ensure (canFulfill order.1.status = true)
      (.throwApp .conflict ("Cannot fulfill order in status " ++ order.1.status.text) 409)
    let items := selectItems dto order.2
    let fo ← atomic (.order (.createFulfillment orderId (items.map OrderItem.id))) fun i s =>
      insertFulfillment orderId dto.warehouseId items i.now s
    if order.1.status = .confirmed then do
      transitionStatus orderId .confirmed .processing "Fulfillment created"
      pure fo
    else pure fo

/-- The columns that `updateFulfillmentStatus` sets. -/
def setFulfillmentStatus (status : FulfillmentStatus) (now : ℕ) (f : FulfillmentOrder) :
    FulfillmentOrder := { f with
  status := status
  shippedAt := if status = .shipped then some now else f.shippedAt
  deliveredAt := if status = .delivered then some now else f.deliveredAt }

@[simp] theorem key_setFulfillmentStatus (status : FulfillmentStatus) (now : ℕ)
    (f : FulfillmentOrder) : key (setFulfillmentStatus status now f) = key f := rfl

def updateFulfillment (id : ℕ) (status : FulfillmentStatus) (now : ℕ) (s : Shop) :
    Except Failure (Unit × Shop) := do
  let _ ← existing s.fulfillments id
  return ((), { s with
    fulfillments := s.fulfillments.update id (setFulfillmentStatus status now)
      (key_setFulfillmentStatus status now) })

/-- No status is refused, whatever the fulfillment's status is. -/
def updateFulfillmentStatus (id : ℕ) (status : FulfillmentStatus) : ShopProg Unit := do
  let found ← query (.order (.findFulfillment id)) fun _ s =>
    (s.fulfillments.find? id).filter fun f => !f.deleted
  let _ ← Prog.orThrow (.throwApp .notFound "Fulfillment not found" 404) found
  atomic (.order (.updateFulfillment id status)) fun i s => updateFulfillment id status i.now s

end ElectronicsCart.Orders
