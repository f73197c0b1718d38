import ElectronicsCart.Core.Saga
import ElectronicsCart.Inventory.Service
import ElectronicsCart.Payments.Service

/-!
# Checkout

`CheckoutService` of `modules/orders/services/checkout.service.ts` with the queries of
`cart.repository.ts`, `order.repository.ts` and `fulfillment.repository.ts`.  A checkout
runs the workflow `order.placement`; in client-capture mode its last three steps do nothing
and the order stays pending until the payment is captured.

Addresses, caches and in-process events are left out.
-/

namespace ElectronicsCart.Orders

open Interleaving Relational Inventory Payments

instance : Timed ShopCall := ⟨.deadline, .timer⟩

structure CheckoutDto where
  cartId : Option ℕ := none
  warehouseId : ℕ
  giftCardCode : Option String := none
  walletAmount : Option ℚ := none
deriving DecidableEq, Repr

structure CheckoutContext where
  userId : ℕ
  cartId : ℕ
  warehouseId : ℕ
  amount : ℚ
  orderId : Option ℕ := none
  reservationIds : List ℕ := []
  paymentId : Option ℕ := none
deriving DecidableEq, Repr

/-! ### Repositories -/

/-- A cart with the items of `cartInclude`. -/
def withItems (s : Shop) (c : Cart) : Cart × List CartItem :=
  (c, s.cartItems.rows.filter fun i => i.cartId == c.id && !i.deleted)

def findCart (id : ℕ) : ShopProg (Option (Cart × List CartItem)) :=
  query (.order (.findCart id)) fun _ s =>
    ((s.carts.find? id).filter fun c => !c.deleted).map (withItems s)

/-- The order of `updated_at` is the input's. -/
def findActiveByUser (userId : ℕ) : ShopProg (Option (Cart × List CartItem)) :=
  query (.order (.findActiveCart userId)) fun i s =>
    (((s.carts.rows.filter fun c => c.userId == some userId && c.status == .active && !c.deleted)
      |>.insertionSort fun a b => i.rank a.id ≤ i.rank b.id).head?).map (withItems s)

def requireCart (cartId userId : ℕ) : ShopProg (Cart × List CartItem) := do
  let found ← findCart cartId
  let cart ← Prog.orThrow (.throwApp .notFound "Cart not found" 404)
    (found.filter fun c => c.1.status == .active)
  Prog.ensure (cart.1.userId.all (· == userId) = true)
    (.throwApp .forbidden "Cart does not belong to user" 403)
  pure cart

/-- The columns that `transitionStatus` sets. -/
def setStatus (status : OrderStatus) (now : ℕ) (o : Order) : Order := { o with
  status := status
  cancelledAt := if status = .cancelled then some now else o.cancelledAt
  placedAt := if status = .confirmed then some now else o.placedAt }

@[simp] theorem key_setStatus (status : OrderStatus) (now : ℕ) (o : Order) :
    key (setStatus status now o) = key o := rfl

def transitionOrder (orderId : ℕ) (before after : OrderStatus) (note : String) (now : ℕ)
    (s : Shop) : Except Failure (Unit × Shop) := do
  let _ ← existing s.orders orderId
  return ((), { s with
    orders := s.orders.update orderId (setStatus after now) (key_setStatus after now)
    orderHistory := s.orderHistory.insert fun n => ⟨n, orderId, some before, after, some note⟩ })

/-- `before` only goes to the history: the status is written whatever it was. -/
def transitionStatus (orderId : ℕ) (before after : OrderStatus) (note : String) : ShopProg Unit :=
  atomic (.order (.transitionStatus orderId before after)) fun i s =>
    transitionOrder orderId before after note i.now s

def convertCart (cartId : ℕ) (s : Shop) : Except Failure (Unit × Shop) := do
  let _ ← existing s.carts cartId
  return ((), { s with carts := s.carts.update cartId Cart.convert key_convert })

def markConverted (cartId : ℕ) : ShopProg Unit :=
  atomic (.order (.markConverted cartId)) fun _ s => convertCart cartId s

def insertRiskScore (orderId : ℕ) (score : ℤ) (riskLevel : RiskLevel) (s : Shop) :
    Except Failure (Unit × Shop) := do
  check ((s.orders.find? orderId).isSome && decide (0 ≤ score ∧ score ≤ 100)) "order_risk_scores"
  check (s.riskScores.rows.all fun r => r.orderId != orderId) "order_risk_scores_order_id_key"
  return ((), { s with riskScores := s.riskScores.insert fun n => ⟨n, orderId, score, riskLevel⟩ })

def createRiskScore (orderId : ℕ) (score : ℤ) (riskLevel : RiskLevel) : ShopProg Unit :=
  atomic (.order (.createRiskScore orderId)) fun _ s => insertRiskScore orderId score riskLevel s

/-! ### Tenders -/

def validGiftCard (code : String) : ShopProg Unit := do
  let found ← query (.order (.findGiftCard code)) fun _ s =>
    s.giftCards.first? fun g => g.code == code && g.active && !g.deleted
  Prog.ensure (found.any (fun g => decide (0 < g.remainingBalance)) = true)
    (.throwApp .badRequest "Invalid gift card" 400)

def coveredByWallet (userId : ℕ) (amount : ℚ) : ShopProg Unit := do
  let found ← query (.order (.findWallet userId)) fun _ s =>
    s.wallets.first? fun w => w.userId == userId && w.active && !w.deleted
  Prog.ensure (found.any (fun w => decide (amount ≤ w.balance)) = true)
    (.throwApp .badRequest "Insufficient wallet balance" 400)

def validateTenders (userId : ℕ) (dto : CheckoutDto) : ShopProg Unit := do
  (truthy dto.giftCardCode).elim (pure ()) validGiftCard
  (dto.walletAmount.filter fun a => decide (0 < a)).elim (pure ()) (coveredByWallet userId)

/-! ### The steps of `order.placement` -/

/-- A field that the steps before have set (`!`). -/
def defined {α : Type} (field : Option α) : ShopProg α := Prog.orThrow (.error "undefined") field

def lineTotal (i : CartItem) : ℚ := i.unitPrice * i.quantity

def insertOrderItems (orderId : ℕ) : List CartItem → Shop → Except Failure Shop
  | [], s => .ok s
  | i :: items, s => do
    check (s.variants.contains i.variantId && fitsInt4 i.quantity && decide (0 < i.quantity) &&
      decide (0 ≤ i.unitPrice) && fitsNumeric14 (lineTotal i) && decide (0 ≤ lineTotal i))
      "order_items"
    insertOrderItems orderId items { s with orderItems := s.orderItems.insert fun n =>
      ⟨n, orderId, i.variantId, i.sku, i.quantity, i.unitPrice, lineTotal i⟩ }

def draftOrder (cart : Cart) (ctx : CheckoutContext) (number : DocumentNumber) (n : ℕ) : Order where
  id := n
  orderNumber := number
  customerId := some ctx.userId
  cartId := some ctx.cartId
  fulfillmentWarehouseId := some ctx.warehouseId
  currency := cart.currency
  subtotal := ctx.amount
  grandTotal := ctx.amount

/-- `order.create` with its nested items and history. -/
def insertOrder (cart : Cart) (items : List CartItem) (ctx : CheckoutContext) (now random : ℕ)
    (s : Shop) : Except Failure (Order × Shop) := do
  let number : DocumentNumber := ⟨now, random⟩
  check (s.orders.rows.all fun o => o.deleted || o.orderNumber != number)
    "uq_orders_order_number_active"
  check (s.users.contains ctx.userId && (s.carts.find? ctx.cartId).isSome &&
    (s.warehouses.find? ctx.warehouseId).isSome) "orders_fkey"
  check (fitsNumeric14 ctx.amount && decide (0 ≤ ctx.amount)) "orders_total_check"
  let order := draftOrder cart ctx number s.orders.next
  let s ← insertOrderItems order.id items
    { s with orders := s.orders.insert (draftOrder cart ctx number) fun _ => rfl }
  return (order, { s with orderHistory := s.orderHistory.insert fun n =>
    ⟨n, order.id, none, .pending, some "Draft order created"⟩ })

def createDraftOrder (cart : Cart) (items : List CartItem) (ctx : CheckoutContext) :
    ShopProg (CheckoutContext → CheckoutContext) := do
  let order ← atomic (.order (.createOrder ctx.userId ctx.cartId)) fun i s =>
    insertOrder cart items ctx i.now i.reply.random s
  pure fun c => { c with orderId := some order.id }

def reserveDto (ctx : CheckoutContext) (i : CartItem) : ReserveStockDto where
  warehouseId := ctx.warehouseId
  variantId := i.variantId
  quantity := i.quantity
  cartId := some ctx.cartId
  orderId := ctx.orderId

/-- The loop over the lines; the ids stay in a local variable until the step returns. -/
def reserveLines (token : ℕ) (ctx : CheckoutContext) : List CartItem → ShopProg (List ℕ)
  | [] => pure []
  | i :: items => do
    let res ← reserve token (reserveDto ctx i)
    let ids ← reserveLines token ctx items
    pure (res.id :: ids)

def linkReservations (ids : List ℕ) (orderId : Option ℕ) (s : Shop) : Shop := { s with
  reservations := s.reservations.updateWhere (fun r => ids.contains r.id)
    fun r => { r with orderId := orderId } }

def reserveInventory (token : ℕ) (items : List CartItem) (ctx : CheckoutContext) :
    ShopProg (CheckoutContext → CheckoutContext) := do
  let reservationIds ← reserveLines token ctx items
  atomic (.order (.linkReservations reservationIds)) fun _ s =>
    .ok ((), linkReservations reservationIds ctx.orderId s)
  pure fun c => { c with reservationIds := reservationIds }

/-- A failed release is logged and dropped. -/
def releaseInventory (token : ℕ) (ctx : CheckoutContext) : ShopProg Unit :=
  Prog.callAll (ctx.reservationIds.map (releaseReservation token))

def createForCheckout (orderId userId : ℕ) (amount : ℚ) : ShopProg Payment :=
  create userId { orderId, amount, currency := some "INR" }

def createPayment (ctx : CheckoutContext) : ShopProg (CheckoutContext → CheckoutContext) := do
  Prog.ensure (0 ≤ ctx.amount) (.error "Invalid payment amount")
  let orderId ← defined ctx.orderId
  let payment ← createForCheckout orderId ctx.userId ctx.amount
  pure fun c => { c with paymentId := some payment.id }

def voidPayment (token : ℕ) (ctx : CheckoutContext) : ShopProg Unit :=
  ctx.paymentId.elim (pure ()) fun id => voidOrCancel token id ctx.userId

/-- A step that only runs when the server settles the payment. -/
def whenSettling (cfg : PaymentConfig) (p : ShopProg Unit) : ShopProg Unit :=
  if cfg.autoSettle = true then p else pure ()

def authorizeStep (cfg : PaymentConfig) (token : ℕ) (ctx : CheckoutContext) : ShopProg Unit :=
  whenSettling cfg do
    let id ← defined ctx.paymentId
    let _ ← authorize token id ctx.userId false

def captureStep (cfg : PaymentConfig) (token : ℕ) (ctx : CheckoutContext) : ShopProg Unit :=
  whenSettling cfg do
    let id ← defined ctx.paymentId
    let _ ← capture cfg token id ctx.userId false

def confirmStep (cfg : PaymentConfig) (ctx : CheckoutContext) : ShopProg Unit :=
  whenSettling cfg do
    Prog.ensure (ctx.reservationIds ≠ [])
      (.error "Inventory reservation required before confirmation")
    let orderId ← defined ctx.orderId
    transitionStatus orderId .pending .confirmed "Payment captured"
    markConverted ctx.cartId
    createRiskScore orderId 10 .low

def cancelDraft (ctx : CheckoutContext) : ShopProg Unit :=
  ctx.orderId.elim (pure ()) fun id =>
    transitionStatus id .pending .cancelled "Checkout compensation"

def cancelConfirmed (cfg : PaymentConfig) (ctx : CheckoutContext) : ShopProg Unit :=
  whenSettling cfg (ctx.orderId.elim (pure ()) fun id =>
    transitionStatus id .confirmed .cancelled "Confirm compensation")

def noPatch (p : ShopProg Unit) : ShopProg (CheckoutContext → CheckoutContext) := do
  p
  pure id

abbrev CheckoutStep := WorkflowStep ShopCall ShopReply Shop CheckoutContext

def steps (cfg : PaymentConfig) (token : ℕ) (cart : Cart) (items : List CartItem) :
    List CheckoutStep :=
  [{ name := "create_draft_order"
     execute := createDraftOrder cart items
     compensate := some cancelDraft },
   { name := "reserve_inventory"
     execute := reserveInventory token items
     compensate := some (releaseInventory token) },
   { name := "create_payment"
     retries := 1
     execute := createPayment
     compensate := some (voidPayment token) },
   { name := "authorize_payment"
     retries := 1
     execute := fun ctx => noPatch (authorizeStep cfg token ctx)
     compensate := some fun ctx => whenSettling cfg (voidPayment token ctx) },
   { name := "capture_payment"
     retries := 1
     execute := fun ctx => noPatch (captureStep cfg token ctx)
     compensate := some fun ctx => whenSettling cfg (voidPayment token ctx) },
   { name := "confirm_order"
     execute := fun ctx => noPatch (confirmStep cfg ctx)
     compensate := some (cancelConfirmed cfg) }]

def buildDefinition (cfg : PaymentConfig) (token : ℕ) (cart : Cart) (items : List CartItem) :
    WorkflowDefinition ShopCall ShopReply Shop CheckoutContext where
  name := "order.placement"
  timeoutMs := 120000
  steps := steps cfg token cart items

/-! ### Checkout -/

structure CheckoutResult where
  order : Option Order
  paymentId : Option ℕ
  reservationIds : List ℕ
deriving DecidableEq, Repr

def selectCart (userId : ℕ) (dto : CheckoutDto) : ShopProg (Option (Cart × List CartItem)) :=
  match dto.cartId with
  | some id => do
    let cart ← requireCart id userId
    pure (some cart)
  | none => findActiveByUser userId

def amountOf (items : List CartItem) : ℚ := (items.map lineTotal).sum

def contextOf (userId : ℕ) (dto : CheckoutDto) (cart : Cart) (items : List CartItem) :
    CheckoutContext where
  userId := userId
  cartId := cart.id
  warehouseId := dto.warehouseId
  amount := amountOf items

/-- What `checkout` makes of the finished workflow. -/
def concludeCheckout (result : WorkflowInstance CheckoutContext) : ShopProg CheckoutResult := do
  Prog.ensure (result.status = .completed)
    (.throwApp .conflict (result.error.getD "Checkout workflow failed") 409)
  let orderId ← defined result.context.orderId
  let order ← query (.order (.findOrderById orderId)) fun _ s =>
    (s.orders.find? orderId).filter fun o => !o.deleted
  pure ⟨order, result.context.paymentId, result.context.reservationIds⟩

def placeOrder (cfg : PaymentConfig) (token userId : ℕ) (dto : CheckoutDto) (cart : Cart)
    (items : List CartItem) : ShopProg CheckoutResult := do
  let result ← SagaCoordinator.run (buildDefinition cfg token cart items)
    (contextOf userId dto cart items)
  concludeCheckout result

def checkout (cfg : PaymentConfig) (token userId : ℕ) (dto : CheckoutDto) :
    ShopProg CheckoutResult :=
  LockService.withLock (.checkout userId) token do
    let found ← selectCart userId dto
    let cart ← Prog.orThrow (.throwApp .badRequest "Cart is empty" 400)
      (found.filter fun c => !c.2.isEmpty)
    validateTenders userId dto
    placeOrder cfg token userId dto cart.1 cart.2

end ElectronicsCart.Orders
