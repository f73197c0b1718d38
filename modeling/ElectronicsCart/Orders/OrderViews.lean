import ElectronicsCart.Access.Views
import ElectronicsCart.Orders.StatusEffects
import ElectronicsCart.Shop.Desk

/-!
# Cached orders

`getOrder` of `modules/orders/services/orders.service.ts` with `findByIdOrNumber` and the order
entries of `OrdersCacheService`; `cancel` and `createFulfillment` with the entries that they delete,
and `confirmPendingOrderAfterCapture`, which deletes none.  An entry is named as its reader named the
order.  The addresses of an order are left out.
-/

namespace ElectronicsCart.Orders

open Interleaving Relational Inventory Payments

/-- The id that the text of a uuid stands for, and how the number of an order is written. -/
structure OrderNames where
  id : String → Option ℕ
  number : DocumentNumber → String

/-- A uuid in a path, which `ParseUUIDPipe` lets through as it is written. -/
structure OrderId (names : OrderNames) where
  text : String
  id : ℕ
  reads : names.id text = some id

/-- `ORDERS_CACHE.order` and `ORDERS_CACHE.recent`. -/
inductive OrderKey where
  | order (name : String)
  | recent (userId : ℕ)
deriving DecidableEq, Repr

structure OrderItemView where
  id : ℕ
  variantId : ℕ
  sku : String
  quantity : ℤ
  unitPrice : ℚ
  lineTotal : ℚ
deriving DecidableEq, Repr

structure StatusHistoryView where
  before : Option OrderStatus
  after : OrderStatus
  note : Option String
deriving DecidableEq, Repr

structure OrderView where
  id : ℕ
  orderNumber : String
  status : OrderStatus
  currency : String
  subtotal : ℚ
  grandTotal : ℚ
  placedAt : Option ℕ
  cancelledAt : Option ℕ
  customerId : Option ℕ
  items : List OrderItemView
  statusHistory : List StatusHistoryView
deriving DecidableEq, Repr

inductive OrderViewCall where
  | findByIdOrNumber (name : String)
deriving DecidableEq, Repr

abbrev OrderDesk := Desk OrderKey OrderView Unit

abbrev OrderDeskCall := DeskCall OrderKey OrderViewCall

abbrev OrderDeskProg (α : Type) := DeskProg OrderKey OrderView Unit OrderViewCall α

/-- Groups of hexadecimal digits of the given lengths, with dashes between them. -/
def hexGroups : List ℕ → List Char → Bool
  | [], cs => cs.isEmpty
  | [n], cs => cs.length == n && cs.all Access.isHexDigit
  | n :: ns, cs => (cs.take n).length == n && (cs.take n).all Access.isHexDigit &&
    (cs.drop n).head? == some '-' && hexGroups ns (cs.drop (n + 1))

/-- `/^[0-9a-f]{8}-[0-9a-f]{4}-[0-9a-f]{4}-[0-9a-f]{4}-[0-9a-f]{12}$/i`, read from the left. -/
@[irreducible] def isUuid (key : String) : Bool := hexGroups [8, 4, 4, 4, 12] key.toList

section Service

variable (names : OrderNames)

def findByIdOrNumber (idOrNumber : String) (s : Shop) : Option Order :=
  let key := jsTrim idOrNumber
  if isUuid key then
    ((names.id key).bind s.orders.find?).filter fun o => !o.deleted
  else s.orders.first? fun o => names.number o.orderNumber == key && !o.deleted

/-- The history is read newest first. -/
def orderView (s : Shop) (o : Order) : OrderView where
  id := o.id
  orderNumber := names.number o.orderNumber
  status := o.status
  currency := o.currency
  subtotal := o.subtotal
  grandTotal := o.grandTotal
  placedAt := o.placedAt
  cancelledAt := o.cancelledAt
  customerId := o.customerId
  items := (s.orderItems.rows.filter fun i => i.orderId == o.id).map fun i =>
    ⟨i.id, i.variantId, i.sku, i.quantity, i.unitPrice, i.lineTotal⟩
  statusHistory := ((s.orderHistory.rows.filter fun h => h.orderId == o.id).map fun h =>
    ⟨h.fromStatus, h.toStatus, h.note⟩).reverse

namespace OrdersService

/-- What fills the cache: the check of the customer is not made on a hit. -/
def readOrder (idOrNumber : String) (customerId : Option ℕ) : OrderDeskProg OrderView := do
  let found ← query (.own (.findByIdOrNumber idOrNumber)) fun _ d =>
    (findByIdOrNumber names idOrNumber d.shop).map fun o => (o, orderView names d.shop o)
  let order ← Prog.orThrow (.throwApp .notFound "Order not found" 404) found
  Prog.ensure (customerId = none ∨ order.1.customerId = none ∨ order.1.customerId = customerId)
    (.throwApp .forbidden "Order access denied" 403)
  pure order.2

def getOrder (idOrNumber : String) (customerId : Option ℕ) : OrderDeskProg OrderView :=
  Desk.getOrSet (.order idOrNumber) (readOrder names idOrNumber customerId)

end OrdersService

end Service

/-- `invalidateOrder`. -/
def invalidateOrder (name : String) (userId : Option ℕ) : OrderDeskProg Unit := do
  Desk.cacheDel (.order name)
  match userId with
  | some u => Desk.cacheDel (.recent u)
  | none => pure ()

/-- What `createFulfillment` does with the order that it has read. -/
def fulfillOrder (orderId : ℕ) (dto : CreateFulfillmentDto) (order : Order × List OrderItem) :
    ShopProg FulfillmentOrder := do
  Prog.ensure (canFulfill order.1.status = true)
    (.throwApp .conflict ("Cannot fulfill order in status " ++ order.1.status.text) 409)
  let items := selectItems dto order.2
  let fo ← atomic (.order (.createFulfillment orderId (items.map OrderItem.id))) fun i s =>
    insertFulfillment orderId dto.warehouseId items i.now s
  if order.1.status = .confirmed then do
    transitionStatus orderId .confirmed .processing "Fulfillment created"
    pure fo
  else pure fo

namespace OrdersService

variable {names : OrderNames}

/-- `cancel` with its cache calls.  The lock is named by the order here, by the text of the id in
the source. -/
def cancel (token : ℕ) (orderId : OrderId names) (userId : ℕ) (dto : CancelOrderDto)
    (isAdmin : Bool) : OrderDeskProg (String × OrderStatus) :=
  let onShop {α : Type} : ShopProg α → OrderDeskProg α := Desk.onShop (some (.order orderId.text))
  LockService.withLock (.order orderId.id) token do
    let order ← onShop (requireOrder orderId.id)
    Prog.ensure (isAdmin = true ∨ order.1.customerId = some userId)
      (.throwApp .forbidden "Order access denied" 403)
    Prog.ensure (canCancel order.1.status = true)
      (.throwApp .conflict ("Cannot cancel order in status " ++ order.1.status.text) 409)
    onShop (cancelOrder token order.1 dto)
    invalidateOrder orderId.text order.1.customerId
    pure (orderId.text, .cancelled)

def createFulfillment (token : ℕ) (orderId : OrderId names) (dto : CreateFulfillmentDto) :
    OrderDeskProg FulfillmentOrder :=
  let onShop {α : Type} : ShopProg α → OrderDeskProg α := Desk.onShop (some (.order orderId.text))
  LockService.withLock (.fulfillment orderId.id) token do
    let order ← onShop (requireOrder orderId.id)
    let fo ← onShop (fulfillOrder orderId.id dto order)
    invalidateOrder orderId.text order.1.customerId
    pure fo

end OrdersService

inductive ViewRequest (names : OrderNames) where
  | getOrder (idOrNumber : String) (customerId : Option ℕ)
  | cancel (token : ℕ) (orderId : OrderId names) (userId : ℕ) (dto : CancelOrderDto)
      (isAdmin : Bool)
  | createFulfillment (token : ℕ) (orderId : OrderId names) (dto : CreateFulfillmentDto)
  | confirmPendingOrder (orderId : ℕ)

def ViewRequest.prog {names : OrderNames} : ViewRequest names → OrderDeskProg Unit
  | .getOrder idOrNumber customerId => do
    let _ ← OrdersService.getOrder names idOrNumber customerId
  | .cancel token orderId userId dto isAdmin => do
    let _ ← OrdersService.cancel token orderId userId dto isAdmin
  | .createFulfillment token orderId dto => do
    let _ ← OrdersService.createFulfillment token orderId dto
  | .confirmPendingOrder orderId => Desk.onShop none (confirmPendingOrderAfterCapture orderId)

/-! ### The orders that names name -/

section Names

variable {names : OrderNames} {s s' : Shop}

theorem findByIdOrNumber_update {k : ℕ} {g : Order → Order} {hg : ∀ o, key (g o) = key o}
    (horders : s'.orders = s.orders.update k g hg) (hnumber : ∀ o, (g o).orderNumber = o.orderNumber)
    (hdeleted : ∀ o, (g o).deleted = o.deleted) (name : String) :
    findByIdOrNumber names name s' =
      (findByIdOrNumber names name s).map fun o => if o.id = k then g o else o := by
  simp only [findByIdOrNumber, horders]
  cases isUuid (jsTrim name) with
  | true =>
    simp only [if_true]
    cases names.id (jsTrim name) with
    | none => rfl
    | some id =>
      rw [Option.bind_some, Option.bind_some, Table.find?_update hg]
      cases s.orders.find? id with
      | none => rfl
      | some o =>
        have hsame : (if key o = k then g o else o).deleted = o.deleted := by
          split
          · exact hdeleted o
          · rfl
        simp only [Option.map_some, Option.filter_some, hsame]
        split
        · rfl
        · rfl
  | false =>
    simp only [Bool.false_eq_true, if_false]
    exact Table.first?_update hg fun o => by rw [hnumber, hdeleted]

/-- The calls that write statuses of orders, and those that write none. -/
def amendsStatus (l : ShopCall) : Bool := quiet l || (moveOf l).isSome

theorem amendsStatus_of_quiet {l : ShopCall} (h : quiet l = true) : amendsStatus l = true := by
  simp [amendsStatus, h]

section Steps

variable {l : ShopCall} {now : ℕ} (hl : amendsStatus l = true) (h : OrderStep l now s s')
include hl h

theorem findByIdOrNumber_step (name : String) :
    findByIdOrNumber names name s' = findByIdOrNumber names name s ∨ ∃ m, moveOf l = some m ∧
      findByIdOrNumber names name s' = (findByIdOrNumber names name s).map fun o =>
        if o.id = m.orderId then setStatus m.after now o else o := by
  cases h with
  | same horders hhistory =>
    unfold findByIdOrNumber
    rw [horders]
    exact .inl rfl
  | create cart ctx number userId hcall horders hhistory =>
    subst hcall
    simp [amendsStatus, quiet, moveOf] at hl
  | move m note hmove hfound horders hhistory =>
    exact .inr ⟨m, hmove, findByIdOrNumber_update horders (fun _ => rfl) (fun _ => rfl) name⟩

theorem id_step (name : String) :
    (findByIdOrNumber names name s').map Order.id = (findByIdOrNumber names name s).map Order.id := by
  rcases findByIdOrNumber_step hl h name with hsame | ⟨m, -, hmoved⟩
  · rw [hsame]
  · rw [hmoved, Option.map_map]
    congr 1
    funext o
    rw [Function.comp_apply]
    split
    · rfl
    · rfl

theorem status_step (name : String)
    (hother : ∀ m, moveOf l = some m →
      (findByIdOrNumber names name s).map Order.id ≠ some m.orderId) :
    (findByIdOrNumber names name s').map Order.status =
      (findByIdOrNumber names name s).map Order.status := by
  rcases findByIdOrNumber_step hl h name with hsame | ⟨m, hmove, hmoved⟩
  · rw [hsame]
  · have hne := hother m hmove
    rw [hmoved]
    cases ho : findByIdOrNumber names name s with
    | none => rfl
    | some o =>
      rw [ho] at hne
      rw [Option.map_some, if_neg fun hid => hne (congrArg some hid)]

end Steps

end Names

end ElectronicsCart.Orders
