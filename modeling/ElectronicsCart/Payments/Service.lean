import ElectronicsCart.Shop.State

/-!
# Payments service

`PaymentsService` of `modules/payments/services/payments.service.ts` (`create`, `authorize`,
`capture`, `cancel`, `voidOrCancel`, `retry`, `applyGatewayStatus`) and the transition table
of `validators/payment-state.validator.ts`.

Every status write is an update by id of the row that was read earlier in the same call; the
table is consulted on the status that was read.
-/

namespace ElectronicsCart.Payments

open Interleaving Relational

structure PaymentConfig where
  mock : Option Bool
  serverCapture : Option Bool
deriving DecidableEq, Repr

/-- `CheckoutService.autoSettlePayment`. -/
def PaymentConfig.autoSettle (cfg : PaymentConfig) : Bool :=
  cfg.mock == some true || cfg.serverCapture != some false

def PaymentConfig.needsPostCaptureOrderConfirm (cfg : PaymentConfig) : Bool :=
  cfg.mock != some true && cfg.serverCapture == some false

/-- `ALLOWED`. -/
def allowed : PaymentStatus → List PaymentStatus
  | .pending => [.authorized, .captured, .failed, .cancelled, .expired]
  | .authorized => [.captured, .cancelled, .failed]
  | .captured => [.refunded, .partiallyRefunded, .chargeback]
  | .partiallyRefunded => [.refunded, .partiallyRefunded, .chargeback]
  | .failed => [.pending, .cancelled]
  | .cancelled => []
  | .expired => []
  | .refunded => [.chargeback]
  | .chargeback => []

def assertTransition (read target : PaymentStatus) : ShopProg Unit :=
  Prog.ensure ((allowed read).contains target = true)
    (.throwApp .conflict ("Invalid payment transition " ++ read.text ++ " → " ++ target.text) 409)

/-! ### The gateway -/

/-- One request to the provider; it goes to the log with its answer. -/
def gatewayCall (request : GatewayRequest) : ShopProg ShopReply :=
  Prog.call (.payment (.gateway request)) fun i s =>
    match i.reply.thrown with
    | some (retryable, message) =>
      (.error (.gateway retryable message), { s with gatewayLog := s.gatewayLog ++ [⟨request, none⟩] })
    | none =>
      (.ok i.reply, { s with gatewayLog := s.gatewayLog ++ [⟨request, some i.reply.status⟩] })

/-- `retryable === true || status >= 500`. -/
def retryable : Failure → Bool
  | .gateway r _ => r
  | .app e => decide (500 ≤ e.status)
  | _ => false

/-- `withRetry` with the number of attempts that follow the first one. -/
def withRetry {α : Type} (fn : ShopProg α) : ℕ → ShopProg α
  | 0 => fn
  | n + 1 => tryCatch fn fun err => if retryable err then withRetry fn n else throw err

/-! ### Rows -/

def applyWrite (now : ℕ) (p : Payment) : PaymentWrite → Payment
  | .authorize gatewayPaymentId signature => { p with
      status := .authorized
      gatewayPaymentId := some gatewayPaymentId
      gatewaySignature := signature.or p.gatewaySignature
      authorizedAt := some now }
  | .capture => { p with status := .captured, capturedAt := some now }
  | .captureZero => { p with status := .captured, capturedAt := some now }
  | .cancel => { p with status := .cancelled }
  | .fail => { p with status := .failed, failedAt := some now }
  | .reopen => { p with status := .pending, failedAt := none }
  | .webhook status gatewayPaymentId => { p with
      status := status
      gatewayPaymentId := (truthy gatewayPaymentId).or p.gatewayPaymentId
      authorizedAt := if status = .authorized then some now else p.authorizedAt
      capturedAt := if status = .captured then some now else p.capturedAt
      failedAt := if status = .failed then some now else p.failedAt }
  | .refund refundedAmount status => { p with refundedAmount := refundedAmount, status := status }

/-- The constraints of `payments` on a row that is written. -/
def validPayment (T : Table Payment) (p : Payment) : Bool :=
  (p.gatewayPaymentId.isNone || p.deleted || T.rows.all fun q =>
      q.id == p.id || q.deleted || q.gatewayPaymentId != p.gatewayPaymentId) &&
    decide (0 ≤ p.refundedAmount) && decide (p.refundedAmount ≤ p.amount)

@[simp] theorem key_applyWrite (now : ℕ) (write : PaymentWrite) (p : Payment) :
    key (applyWrite now p write) = key p := by
  cases write <;> rfl

/-- `payment.update`. -/
def writePayment (id : ℕ) (write : PaymentWrite) (now : ℕ) (s : Shop) :
    Except Failure (Payment × Shop) := do
  let p ← existing s.payments id
  check (validPayment s.payments (applyWrite now p write)) "payments"
  return (applyWrite now p write, { s with
    payments := s.payments.update id (applyWrite now · write) (key_applyWrite now write) })

def updatePayment (id : ℕ) (read : PaymentStatus) (write : PaymentWrite) : ShopProg Payment :=
  atomic (.payment (.update id read write)) fun i s => writePayment id write i.now s

/-- `repo.findById`, called for `findPayment` or `requirePayment`. -/
def findById (call : PaymentCall) (id : ℕ) : ShopProg (Option Payment) :=
  query (.payment call) fun _ s => (s.payments.find? id).filter fun p => !p.deleted

def findPayment (id : ℕ) : ShopProg (Option Payment) := findById (.findPayment id) id

/-- `action` only names the call. -/
def requirePayment (action : Option PaymentAction) (id : ℕ) : ShopProg Payment := do
  let found ← findById (.requirePayment action id) id
  Prog.orThrow (.throwApp .notFound "Payment not found" 404) found

def assertCanAccess (asAdmin : Bool) (customerId : Option ℕ) (actorId : ℕ) : ShopProg Unit :=
  Prog.ensure (asAdmin = true ∨ customerId.all (· == actorId) = true)
    (.throwApp .forbidden "Not your payment" 403)

def nextAttemptNumber (id : ℕ) : ShopProg ℕ :=
  query (.payment (.nextAttemptNumber id)) fun _ s =>
    ((s.attempts.rows.filter fun a => a.paymentId == id && !a.deleted).map
      PaymentAttempt.attemptNumber).foldr max 0 + 1

def insertAttempt (id attemptNumber : ℕ) (status : PaymentStatus) (errorMessage : Option String)
    (s : Shop) : Except Failure (Unit × Shop) := do
  check (decide (0 < attemptNumber) && s.attempts.rows.all fun a =>
    a.deleted || a.paymentId != id || a.attemptNumber != attemptNumber)
    "uq_payment_attempts_payment_number_active"
  return ((), { s with attempts := s.attempts.insert fun n =>
    { id := n, paymentId := id, attemptNumber, status, errorMessage } })

def createAttempt (id attemptNumber : ℕ) (status : PaymentStatus) (errorMessage : Option String) :
    ShopProg Unit :=
  atomic (.payment (.createAttempt id attemptNumber)) fun _ s =>
    insertAttempt id attemptNumber status errorMessage s

def createTransaction (id : ℕ) (txType : PaymentTxType) (amount : ℚ)
    (gatewayReference : Option String) : ShopProg Unit :=
  atomic (.payment (.createTransaction id)) fun _ s => .ok ((), { s with
    transactions := s.transactions.insert fun n => ⟨n, id, txType, amount, gatewayReference⟩ })

def audit (id : ℕ) (action : String) (actorId : Option ℕ)
    (fromStatus toStatus : Option PaymentStatus) : ShopProg Unit :=
  atomic (.payment (.createAudit id action)) fun _ s => .ok ((), { s with
    paymentAudits := s.paymentAudits.insert fun n => ⟨n, id, action, actorId, fromStatus, toStatus⟩ })

def createEvent (id : ℕ) (event : String) : ShopProg Unit :=
  atomic (.payment (.createEvent id event)) fun _ s => .ok ((), { s with
    paymentEvents := s.paymentEvents.insert fun n => ⟨n, id, event⟩ })

/-- `queues.enqueue`: the job itself runs elsewhere. -/
def enqueue : ShopProg Unit := atomic (.payment .enqueue) fun _ s => .ok ((), s)

/-! ### Create -/

structure CreatePaymentDto where
  orderId : ℕ
  amount : ℚ
  currency : Option String := none
deriving DecidableEq, Repr

def findOrder (id : ℕ) : ShopProg (Option Order) :=
  query (.payment (.findOrder id)) fun _ s => (s.orders.find? id).filter fun o => !o.deleted

/-- `findPrimaryGateway() ?? findGatewayByCode('razorpay')`. -/
def findGateway : ShopProg (Option PaymentGateway) := do
  let primary ← query (.payment .findGateway) fun _ s =>
    s.gateways.first? fun g => g.isPrimary && g.active && !g.deleted
  match primary with
  | some g => pure (some g)
  | none => query (.payment .findGateway) fun _ s =>
      s.gateways.first? fun g => g.code == "razorpay" && g.active && !g.deleted

/-- `payment.create`. -/
def insertPayment (order : Order) (actorId : ℕ) (gatewayId : ℕ) (gatewayOrderId : String)
    (dto : CreatePaymentDto) (s : Shop) : Except Failure (Payment × Shop) := do
  check ((s.orders.find? order.id).isSome) "payments_order_id_fkey"
  check (fitsNumeric14 dto.amount && decide (0 ≤ dto.amount)) "payments_amount_check"
  let mk := fun n =>
    { id := n, orderId := order.id, customerId := order.customerId.or (some actorId), gatewayId,
      gatewayOrderId := some gatewayOrderId, amount := dto.amount,
      currency := dto.currency.getD "INR" : Payment }
  return (mk s.payments.next, { s with payments := s.payments.insert mk })

def create (actorId : ℕ) (dto : CreatePaymentDto) : ShopProg Payment := do
  let found ← findOrder dto.orderId
  let order ← Prog.orThrow (.throwApp .notFound "Order not found" 404) found
  Prog.ensure (order.customerId.all (· == actorId) = true)
    (.throwApp .forbidden "Order ownership required" 403)
  Prog.ensure (0 ≤ dto.amount) (.throwApp .badRequest "Invalid amount" 400)
  let gateway ← findGateway
  let gateway ← Prog.orThrow (.throwApp .internalError "Payment gateway unavailable" 503) gateway
  let gwOrder ← withRetry (gatewayCall (.createOrder dto.amount)) 2
  let payment ← atomic (.payment (.createPayment order.id dto.amount)) fun _ s =>
    insertPayment order actorId gateway.id gwOrder.gatewayOrderId dto s
  createAttempt payment.id 1 .pending none
  audit payment.id "create" (some actorId) none (some .pending)
  createEvent payment.id "payment.created"
  pure payment

/-! ### Authorize -/

def markFailed (payment : Payment) (actorId : ℕ) (reason : String) : ShopProg Payment := do
  let _ ← updatePayment payment.id payment.status .fail
  audit payment.id "fail" (some actorId) (some payment.status) (some .failed)
  throw (.throwApp .conflict reason 409)

/-- The `try` block of `authorize`; no payment when the gateway refused the authorization. -/
def authorizeWithGateway (payment : Payment) (actorId attemptNo : ℕ) :
    ShopProg (Option Payment) := do
  let gatewayOrderId ← Prog.orThrow (.throwApp .conflict "Missing gateway order" 409)
    (truthy payment.gatewayOrderId)
  let result ← withRetry (gatewayCall (.authorize gatewayOrderId payment.amount)) 2
  if result.status = .pending then do
    createAttempt payment.id attemptNo .pending none
    pure (some payment)
  else if result.status = .failed ∨ result.gatewayPaymentId = "" then pure none
  else do
    let updated ← updatePayment payment.id payment.status
      (.authorize result.gatewayPaymentId result.gatewaySignature)
    createTransaction payment.id .authorize payment.amount (some result.gatewayPaymentId)
    createAttempt payment.id attemptNo .authorized none
    audit payment.id "authorize" (some actorId) (some payment.status) (some .authorized)
    createEvent payment.id "payment.authorized"
    pure (some updated)

/-- The body of `authorize`.  The promise of `markFailed` is returned without `await`, so the
handler does not see its rejection. -/
def authorizePayment (payment : Payment) (actorId : ℕ) : ShopProg Payment := do
  let attemptNo ← nextAttemptNumber payment.id
  let outcome ← tryCatch (authorizeWithGateway payment actorId attemptNo) fun err => do
    createAttempt payment.id attemptNo .failed (some err.message)
    throw err
  match outcome with
  | some updated => pure updated
  | none => markFailed payment actorId "Authorization failed"

def authorize (token paymentId actorId : ℕ) (asAdmin : Bool) : ShopProg Payment :=
  LockService.withLock (.payment .authorize paymentId) token do
    let payment ← requirePayment (some .authorize) paymentId
    assertCanAccess asAdmin payment.customerId actorId
    assertTransition payment.status .authorized
    authorizePayment payment actorId

/-! ### Capture -/

/-- The transaction of `confirmPendingOrderAfterCapture`. -/
def confirmOrder (order : Order) (now : ℕ) (s : Shop) : Except Failure (Unit × Shop) := do
  let _ ← existing s.orders order.id
  let s := { s with
    orders := s.orders.update order.id fun o =>
      { o with status := .confirmed, placedAt := some now }
    orderHistory := s.orderHistory.insert fun n =>
      ⟨n, order.id, some .pending, .confirmed, some "Payment captured"⟩ }
  match order.cartId with
  | none => return ((), s)
  | some cartId =>
    let _ ← existing s.carts cartId
    return ((), { s with carts := s.carts.update cartId Cart.convert key_convert })

def confirmPendingOrderAfterCapture (orderId : ℕ) : ShopProg Unit := do
  let found ← findOrder orderId
  match found with
  | none => pure ()
  | some order =>
    if order.status ≠ .pending then pure ()
    else do
      let _ ← (atomic (.payment (.confirmOrder orderId)) fun i s => confirmOrder order i.now s).attempt

def confirmAfterCapture (cfg : PaymentConfig) (orderId : ℕ) : ShopProg Unit :=
  if cfg.needsPostCaptureOrderConfirm = true then confirmPendingOrderAfterCapture orderId
  else pure ()

/-- The branch of `capture` for an amount of zero without a gateway payment. -/
def captureZero (payment : Payment) (actorId : ℕ) : ShopProg Payment := do
  let updated ← updatePayment payment.id payment.status .captureZero
  audit payment.id "capture" (some actorId) (some payment.status) (some .captured)
  pure updated

/-- What `capture` does once the gateway has captured. -/
def recordCapture (cfg : PaymentConfig) (payment : Payment) (actorId : ℕ) (reference : String) :
    ShopProg Payment := do
  let updated ← updatePayment payment.id payment.status .capture
  createTransaction payment.id .capture payment.amount (some reference)
  audit payment.id "capture" (some actorId) (some payment.status) (some .captured)
  createEvent payment.id "payment.captured"
  confirmAfterCapture cfg payment.orderId
  enqueue
  pure updated

/-- The body of `capture` for a payment that is not captured yet. -/
def capturePayment (cfg : PaymentConfig) (payment : Payment) (actorId : ℕ) : ShopProg Payment :=
  match truthy payment.gatewayPaymentId with
  | none =>
    if payment.amount = 0 then captureZero payment actorId
    else throw (.throwApp .conflict "Payment not authorized" 409)
  | some gatewayPaymentId => do
    let result ← withRetry (gatewayCall (.capture gatewayPaymentId payment.amount)) 2
    if result.status ≠ .captured then markFailed payment actorId "Capture failed"
    else recordCapture cfg payment actorId result.gatewayPaymentId

def capture (cfg : PaymentConfig) (token paymentId actorId : ℕ) (asAdmin : Bool) :
    ShopProg Payment :=
  LockService.withLock (.payment .capture paymentId) token do
    let payment ← requirePayment (some .capture) paymentId
    assertCanAccess asAdmin payment.customerId actorId
    if payment.status = .captured then pure payment
    else do
      assertTransition payment.status .captured
      capturePayment cfg payment actorId

/-! ### Cancel and retry -/

def cancelPayment (payment : Payment) (actorId : ℕ) : ShopProg Payment := do
  let _ ← gatewayCall (.cancel payment.gatewayPaymentId payment.gatewayOrderId payment.amount)
  let updated ← updatePayment payment.id payment.status .cancel
  createTransaction payment.id .void payment.amount payment.gatewayPaymentId
  audit payment.id "cancel" (some actorId) (some payment.status) (some .cancelled)
  createEvent payment.id "payment.cancelled"
  pure updated

def cancel (token paymentId actorId : ℕ) (asAdmin : Bool) : ShopProg Payment :=
  LockService.withLock (.payment .cancel paymentId) token do
    let payment ← requirePayment (some .cancel) paymentId
    assertCanAccess asAdmin payment.customerId actorId
    if payment.status = .cancelled ∨ payment.status = .refunded then pure payment
    else do
      Prog.ensure (payment.status ≠ .captured ∧ payment.status ≠ .partiallyRefunded)
        (.throwApp .conflict "Captured payments must be refunded" 409)
      cancelPayment payment actorId

/-- `voidOrCancel`: the errors of `cancel` are logged and dropped. -/
def voidOrCancel (token paymentId actorId : ℕ) : ShopProg Unit := do
  let found ← findPayment paymentId
  match found with
  | none => pure ()
  | some payment =>
    if payment.status = .cancelled ∨ payment.status = .failed then pure ()
    else do
      let _ ← (cancel token paymentId actorId false).attempt

/-- `retry` puts a failed payment back to pending. -/
def reopen (payment : Payment) : ShopProg Unit :=
  if payment.status = .failed then do
    let _ ← updatePayment payment.id payment.status .reopen
  else pure ()

def retry (cfg : PaymentConfig) (token paymentId actorId : ℕ) : ShopProg Payment := do
  let payment ← requirePayment none paymentId
  assertCanAccess false payment.customerId actorId
  Prog.ensure (payment.status = .failed ∨ payment.status = .pending)
    (.throwApp .conflict "Payment not retryable" 409)
  enqueue
  reopen payment
  let authorized ← authorize token paymentId actorId false
  if authorized.status = .authorized then capture cfg token paymentId actorId false
  else pure authorized

/-! ### Gateway status -/

def applyGatewayStatus (paymentId : ℕ) (status : PaymentStatus) (gatewayPaymentId : Option String) :
    ShopProg Payment := do
  let payment ← requirePayment none paymentId
  let updated ← updatePayment paymentId payment.status (.webhook status gatewayPaymentId)
  audit paymentId ("webhook." ++ status.text) none (some payment.status) (some status)
  createEvent paymentId ("payment." ++ status.text)
  pure updated

end ElectronicsCart.Payments
