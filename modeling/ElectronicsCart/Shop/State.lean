import ElectronicsCart.Shop.Schema
import ElectronicsCart.Core.Lock

/-!
# State and external calls of the shop

One state for the services that meet in a checkout: the tables, the Redis locks and a
log of what the payment gateway was asked and answered.  `ShopCall` names every external
call of these services; a call that writes carries what it was computed from.
-/

namespace ElectronicsCart

open Interleaving Relational

/-! ### Requests -/

structure ReserveStockDto where
  warehouseId : ℕ
  variantId : ℕ
  quantity : ℤ
  cartId : Option ℕ := none
  orderId : Option ℕ := none
  sessionKey : Option String := none
  ttlMinutes : Option ℕ := none
deriving DecidableEq, Repr

structure AdjustStockDto where
  warehouseId : ℕ
  binId : ℕ
  variantId : ℕ
  quantityDelta : ℤ
  reason : Option String := none
  notes : Option String := none
deriving DecidableEq, Repr

structure GoodsReceiptItemDto where
  variantId : ℕ
  quantityReceived : ℤ
  binId : ℕ
  purchaseOrderItemId : Option ℕ := none
  unitCost : Option ℚ := none
  serialNumbers : List String := []
deriving DecidableEq, Repr

structure CreateGoodsReceiptDto where
  grnNumber : String
  supplierId : ℕ
  warehouseId : ℕ
  purchaseOrderId : Option ℕ := none
  notes : Option String := none
  items : List GoodsReceiptItemDto
deriving DecidableEq, Repr

structure TransferItemDto where
  variantId : ℕ
  quantity : ℤ
  fromBinId : ℕ
  toBinId : ℕ
deriving DecidableEq, Repr

structure CreateTransferDto where
  transferNumber : String
  fromWarehouseId : ℕ
  toWarehouseId : ℕ
  notes : Option String := none
  items : List TransferItemDto
deriving DecidableEq, Repr

/-! ### Locks -/

inductive PaymentAction where
  | authorize | capture | cancel | refund
deriving DecidableEq, Repr

inductive ShopLock where
  | stock (warehouseId variantId : ℕ)
  | grn (warehouseId : ℕ)
  | transfer (low high : ℕ)
  | checkout (userId : ℕ)
  | order (orderId : ℕ)
  | fulfillment (orderId : ℕ)
  | payment (action : PaymentAction) (paymentId : ℕ)
deriving DecidableEq, Repr

def ShopLock.resource : ShopLock → List String
  | .stock w v => ["inventory", toString w, toString v]
  | .grn w => ["inventory", "grn", toString w]
  | .transfer a b => ["inventory", "transfer", toString a ++ ":" ++ toString b]
  | .checkout u => ["orders", "checkout", toString u]
  | .order o => ["orders", toString o]
  | .fulfillment o => ["orders", "fulfill", toString o]
  | .payment .authorize p => ["payments", "authorize", toString p]
  | .payment .capture p => ["payments", "capture", toString p]
  | .payment .cancel p => ["payments", "cancel", toString p]
  | .payment .refund p => ["payments", "refund", toString p]

/-! ### The payment gateway -/

/-- The requests of `PaymentProvider`. -/
inductive GatewayRequest where
  | createOrder (amount : ℚ)
  | authorize (gatewayOrderId : String) (amount : ℚ)
  | capture (gatewayPaymentId : String) (amount : ℚ)
  | cancel (gatewayPaymentId : Option String) (gatewayOrderId : Option String) (amount : ℚ)
  /-- with the refund number of its notes -/
  | refund (gatewayPaymentId : String) (amount : ℚ) (refundNumber : DocumentNumber)
deriving DecidableEq, Repr

inductive GatewayStatus where
  | authorized | pending | failed | captured | cancelled | voided | processed
deriving DecidableEq, Repr

/-- What the gateway answers (`thrown` holds the `retryable` flag and the message of an
error), and the random number a call may draw. -/
structure ShopReply where
  thrown : Option (Bool × String) := none
  status : GatewayStatus := .pending
  gatewayOrderId : String := ""
  gatewayPaymentId : String := ""
  gatewaySignature : Option String := none
  gatewayRefundId : String := ""
  random : ℕ := 0
deriving DecidableEq, Repr

/-- One request and the status it was answered with; none when the call threw. -/
structure GatewayExchange where
  request : GatewayRequest
  answer : Option GatewayStatus
deriving DecidableEq, Repr

/-! ### State -/

structure Shop where
  users : List ℕ := []
  variants : List ℕ := []
  suppliers : List ℕ := []
  purchaseOrders : List ℕ := []
  cancellationReasons : List ℕ := []
  warehouses : Table Warehouse := .empty
  bins : Table WarehouseBin := .empty
  inventory : Table InventoryRow := .empty
  reservations : Table StockReservation := .empty
  movements : Table InventoryMovement := .empty
  adjustments : Table InventoryAdjustment := .empty
  alerts : Table LowStockAlert := .empty
  goodsReceipts : Table GoodsReceipt := .empty
  goodsReceiptItems : Table GoodsReceiptItem := .empty
  purchaseOrderItems : Table PurchaseOrderItem := .empty
  serialNumbers : Table SerialNumber := .empty
  transfers : Table StockTransfer := .empty
  transferItems : Table StockTransferItem := .empty
  carts : Table Cart := .empty
  cartItems : Table CartItem := .empty
  orders : Table Order := .empty
  orderItems : Table OrderItem := .empty
  orderHistory : Table OrderStatusHistory := .empty
  fulfillments : Table FulfillmentOrder := .empty
  fulfillmentItems : Table FulfillmentItem := .empty
  pickLists : Table FulfillmentList := .empty
  packingLists : Table FulfillmentList := .empty
  returns : Table Return := .empty
  returnItems : Table ReturnItem := .empty
  riskScores : Table OrderRiskScore := .empty
  giftCards : Table GiftCard := .empty
  wallets : Table Wallet := .empty
  gateways : Table PaymentGateway := .empty
  payments : Table Payment := .empty
  attempts : Table PaymentAttempt := .empty
  transactions : Table PaymentTransaction := .empty
  paymentAudits : Table PaymentAuditLog := .empty
  paymentEvents : Table PaymentEvent := .empty
  webhooks : Table PaymentWebhook := .empty
  refunds : Table Refund := .empty
  refundItems : Table RefundItem := .empty
  rmaRequests : Table RmaRequest := .empty
  serviceAudits : Table ServiceAuditLog := .empty
  /-- what the gateway was asked, oldest first -/
  gatewayLog : List GatewayExchange := []
  locks : LockStore ShopLock := fun _ => none
  /-- the last instant that the database client accepts as a date -/
  lastDate : ℕ := 253402300799999

/-! ### Calls -/

inductive StockCall where
  | findWarehouse (id : ℕ)
  | findBin (id : ℕ)
  | findRows (warehouseId variantId : ℕ)
  | findRow (binId variantId : ℕ)
  | reserveRows (dto : ReserveStockDto) (rows : List InventoryRow)
  | createReservation (dto : ReserveStockDto)
  | findReservation (id : ℕ)
  | releaseRows (reservation : StockReservation) (rows : List InventoryRow)
  | createRow (dto : AdjustStockDto)
  | adjustRow (id : ℕ) (dto : AdjustStockDto)
  | createAdjustment (dto : AdjustStockDto)
  | createMovement (type : MovementType)
  | findAlert (warehouseId variantId : ℕ)
  | createAlert (warehouseId variantId : ℕ)
  | findGrn (number : String)
  | postGoodsReceipt (dto : CreateGoodsReceiptDto)
  | findTransfer (number : String)
  | postTransfer (dto : CreateTransferDto)
deriving DecidableEq, Repr

/-- The writers of `payments.status`, with the other columns each one sets. -/
inductive PaymentWrite where
  | authorize (gatewayPaymentId : String) (signature : Option String)
  | capture
  /-- the branch of `capture` for an amount of zero -/
  | captureZero
  | cancel
  | fail
  /-- `retry` of a failed payment -/
  | reopen
  /-- `applyGatewayStatus` -/
  | webhook (status : PaymentStatus) (gatewayPaymentId : Option String)
  | refund (refundedAmount : ℚ) (status : PaymentStatus)
deriving DecidableEq, Repr

def PaymentWrite.target : PaymentWrite → PaymentStatus
  | .authorize _ _ => .authorized
  | .capture => .captured
  | .captureZero => .captured
  | .cancel => .cancelled
  | .fail => .failed
  | .reopen => .pending
  | .webhook status _ => status
  | .refund _ status => status

inductive PaymentCall where
  | findOrder (id : ℕ)
  | findGateway
  | gateway (request : GatewayRequest)
  | createPayment (orderId : ℕ) (amount : ℚ)
  | findPayment (id : ℕ)
  /-- the read of `requirePayment`, with the locked action that asks for it -/
  | requirePayment (action : Option PaymentAction) (id : ℕ)
  | nextAttemptNumber (id : ℕ)
  /-- a status write of payment `id` by a call that had read the status `read` -/
  | update (id : ℕ) (read : PaymentStatus) (write : PaymentWrite)
  | createAttempt (id attemptNumber : ℕ)
  | createTransaction (id : ℕ)
  | createAudit (id : ℕ) (action : String)
  | createEvent (id : ℕ) (event : String)
  | enqueue
  | confirmOrder (orderId : ℕ)
  | findWebhook (id : ℕ)
  | findByGatewayPaymentId (id : String)
  | findByGatewayOrderId (id : String)
  | markWebhook (id : ℕ) (status : WebhookProcessingStatus)
  | createRefund (id : ℕ) (amount : ℚ)
  | createRefundItems (id : ℕ)
  | updateRefund (id : ℕ) (status : RefundStatus)
deriving DecidableEq, Repr

inductive OrderCall where
  | findCart (id : ℕ)
  | findActiveCart (userId : ℕ)
  | findGiftCard (code : String)
  | findWallet (userId : ℕ)
  | createOrder (userId cartId : ℕ)
  | linkReservations (ids : List ℕ)
  | transitionStatus (orderId : ℕ) (before after : OrderStatus)
  | markConverted (cartId : ℕ)
  | createRiskScore (orderId : ℕ)
  | findOrderById (id : ℕ)
  | setCancellationReason (orderId : ℕ)
  | findReservations (orderId : ℕ)
  | createFulfillment (orderId : ℕ) (itemIds : List ℕ)
  | findFulfillment (id : ℕ)
  | updateFulfillment (id : ℕ) (status : FulfillmentStatus)
  | createReturn (orderItemId : ℕ) (quantity : ℚ)
deriving DecidableEq, Repr

inductive RmaCall where
  | findRma (id : ℕ)
  | loadCase (id : ℕ)
  | saveStatus (id : ℕ) (status : RmaStatus)
  | appendTimeline (id : ℕ)
  | audit (id : ℕ)
deriving DecidableEq, Repr

inductive ShopCall where
  | acquire (key : ShopLock) (token : ℕ)
  | release (key : ShopLock) (token : ℕ)
  /-- a workflow reads the clock before the step -/
  | deadline (step : String)
  /-- the timer of the step, looked at before each of the step's calls -/
  | timer (step : String)
  | stock (call : StockCall)
  | payment (call : PaymentCall)
  | order (call : OrderCall)
  | rma (call : RmaCall)
deriving DecidableEq, Repr

def OnWrites (c : ℕ → PaymentStatus → PaymentWrite → Prop) (l : ShopCall) : Prop :=
  match l with
  | .payment (.update id read write) => c id read write
  | _ => True

instance OnWrites.decidable (c : ℕ → PaymentStatus → PaymentWrite → Prop)
    [∀ id read write, Decidable (c id read write)] (l : ShopCall) : Decidable (OnWrites c l) := by
  unfold OnWrites
  split <;> infer_instance

instance : Lockable ShopCall Shop ShopLock where
  locks := Shop.locks
  setLocks m s := { s with locks := m }
  acquireCall := .acquire
  releaseCall := .release
  resource := ShopLock.resource
  locks_setLocks _ _ := rfl

abbrev ShopInput := Input ShopReply

abbrev ShopProg := Prog ShopCall ShopInput Shop Failure

abbrev ShopPool := Pool ShopCall ShopInput Shop Failure

/-! ### Checks of the database -/

/-- A text that fits a `VARCHAR(n)` column. -/
def fitsVarchar (n : ℕ) (text : String) : Bool :=
  decide (text.length ≤ n) && text.toList.all fun c => c.toNat != 0

/-- An amount that fits a `NUMERIC(14, 2)` column. -/
def fitsNumeric14 (x : ℚ) : Bool := decide (-1000000000000 < x ∧ x < 1000000000000)

def Cart.convert (c : Cart) : Cart := { c with status := .converted }

@[simp] theorem key_convert (c : Cart) : key c.convert = key c := rfl

/-- The row that Prisma's `update` by id needs to exist. -/
def existing {ρ : Type} [Keyed ρ] (T : Table ρ) (id : ℕ) : Except Failure ρ :=
  (T.find? id).elim (.error (.constraint "P2025")) .ok

@[simp] theorem existing_eq_ok {ρ : Type} [Keyed ρ] {T : Table ρ} {id : ℕ} {r : ρ} :
    existing T id = .ok r ↔ T.find? id = some r := by
  cases h : T.find? id <;> simp [existing, h]

/-! ### A small shop -/

def oneWarehouse : Table Warehouse := Table.empty.insert fun n => { id := n }

def oneBin : Table WarehouseBin := Table.empty.insert fun n => { id := n, warehouseId := 0 }

def twoWarehouses : Table Warehouse := oneWarehouse.insert fun n => { id := n }

def twoBins : Table WarehouseBin := oneBin.insert fun n => { id := n, warehouseId := 1 }

def fiveInBin : Table InventoryRow := Table.empty.insert fun n =>
  { id := n, warehouseId := 0, binId := 0, variantId := 1, available := 5 }

def oneCart : Table Cart := Table.empty.insert fun n => { id := n, userId := some 1 }

def primaryGateway : Table PaymentGateway := Table.empty.insert fun n =>
  { id := n, code := "razorpay", isPrimary := true }

/-- A pending order of 100 from the cart. -/
def pendingOrder : Table Order := Table.empty.insert fun n =>
  { id := n, orderNumber := ⟨0, 0⟩, customerId := some 1, cartId := some 0,
    fulfillmentWarehouseId := none, subtotal := 100, grandTotal := 100 }

def captureReport : Table PaymentWebhook := Table.empty.insert fun n =>
  { id := n, eventType := "payment.captured", entity := some { id := some "pay_1" } }

end ElectronicsCart
