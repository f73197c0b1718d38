import ElectronicsCart.Payments.Service

/-!
# Webhooks and refunds

`WebhookService.processWebhook` of `webhook.service.ts` and `RefundService.refund` of
`refund.service.ts`.  A stored webhook names a payment by its gateway id or its gateway order
and sets its status through `applyGatewayStatus`, which does not consult the transition table.
-/

namespace ElectronicsCart.Payments

open Interleaving Relational

/-! ### Webhooks -/

/-- `String.prototype.includes`. -/
def includes (text part : String) : Bool := text.toList.tails.any part.toList.isPrefixOf

def findByGatewayPaymentId (id : String) : ShopProg (Option Payment) :=
  query (.payment (.findByGatewayPaymentId id)) fun _ s =>
    s.payments.first? fun p => p.gatewayPaymentId == some id && !p.deleted

def findByGatewayOrderId (id : String) : ShopProg (Option Payment) :=
  query (.payment (.findByGatewayOrderId id)) fun _ s =>
    s.payments.first? fun p => p.gatewayOrderId == some id && !p.deleted

/-- `entity ? String(entity.id ?? entity.payment_id ?? '') : ''`. -/
def webhookPaymentId (entity : Option WebhookEntity) : String :=
  (entity.bind fun e => e.id.or e.paymentId).getD ""

def findNamedPayment (gatewayPaymentId : String) : ShopProg (Option Payment) :=
  if gatewayPaymentId = "" then pure none else findByGatewayPaymentId gatewayPaymentId

def findWebhookPayment (entity : Option WebhookEntity) : ShopProg (Option Payment) := do
  let found ← findNamedPayment (webhookPaymentId entity)
  match found, truthy (entity.bind WebhookEntity.orderId) with
  | some p, _ => pure (some p)
  | none, some orderId => findByGatewayOrderId orderId
  | none, none => pure none

/-- The status a webhook reports, by its event type or the status of its entity. -/
def webhookStatus (row : PaymentWebhook) : Option PaymentStatus :=
  let status := row.entity.bind WebhookEntity.status
  if includes row.eventType "authorized" ∨ status = some "authorized" then some .authorized
  else if includes row.eventType "captured" ∨ status = some "captured" then some .captured
  else if includes row.eventType "failed" ∨ status = some "failed" then some .failed
  else none

/-- The gateway id that goes with the status: none for a failure. -/
def webhookGatewayId (row : PaymentWebhook) (payment : Payment) : PaymentStatus → Option String
  | .failed => none
  | _ => (truthy (some (webhookPaymentId row.entity))).or payment.gatewayPaymentId

def applyWebhook (row : PaymentWebhook) (payment : Payment) : ShopProg Unit :=
  match webhookStatus row with
  | none => pure ()
  | some status => do
    let _ ← applyGatewayStatus payment.id status (webhookGatewayId row payment status)

/-- `webhooks.mark`. -/
def markWebhook (id : ℕ) (status : WebhookProcessingStatus) (err : Option Failure) : ShopProg Unit :=
  atomic (.payment (.markWebhook id status)) fun i s => do
    let _ ← existing s.webhooks id
    return ((), { s with webhooks := s.webhooks.update id fun w => { w with
      processingStatus := status
      processedAt := if status = .processed then some i.now else w.processedAt
      errorMessage := (err.map Failure.message).or w.errorMessage
      retryCount := if err.isSome then w.retryCount + 1 else w.retryCount } })

/-- What `processWebhook` does with the payment that was found. -/
def settleWebhook (row : PaymentWebhook) : Option Payment → ShopProg Unit
  | none => pure ()
  | some payment => do
    applyWebhook row payment
    audit payment.id "webhook" none none none

/-- The `try` block of `processWebhook`. -/
def handleWebhook (row : PaymentWebhook) : ShopProg Unit := do
  let payment ← findWebhookPayment row.entity
  settleWebhook row payment
  markWebhook row.id .processed none

def processWebhook (webhookId : ℕ) : ShopProg Unit := do
  let found ← query (.payment (.findWebhook webhookId)) fun _ s =>
    (s.webhooks.find? webhookId).filter fun w => !w.deleted
  match found with
  | none => pure ()
  | some row =>
    if row.processingStatus = .processed then pure ()
    else do
      tryCatch (handleWebhook row) fun err => do
        markWebhook webhookId .failed (some err)
        throw err

/-! ### Refunds -/

structure RefundItemDto where
  orderItemId : Option ℕ
  amount : ℚ
  quantity : Option ℤ
deriving DecidableEq, Repr

structure RefundPaymentDto where
  amount : ℚ
  reasonCode : Option String := none
  reason : Option String := none
  items : List RefundItemDto := []
deriving DecidableEq, Repr

/-- The tolerance of the amount comparisons, `0.001`. -/
def tolerance : ℚ := 1 / 1000

def remaining (payment : Payment) : ℚ := payment.amount - payment.refundedAmount

def refundExceeds (payment : Payment) : Failure :=
  .throwApp .badRequest
    ("Refund exceeds remaining amount (" ++ stringifyAmount (remaining payment) ++ ")") 400

/-- The row that `refund` creates. -/
def newRefund (payment : Payment) (actorId : ℕ) (dto : RefundPaymentDto) (number : DocumentNumber)
    (n : ℕ) : Refund where
  id := n
  refundNumber := number
  paymentId := payment.id
  orderId := payment.orderId
  requestedById := actorId
  refundType := if remaining payment - tolerance ≤ dto.amount then .full else .partially
  amount := dto.amount
  reasonCode := dto.reasonCode
  reason := dto.reason

/-- `refund.create`. -/
def insertRefund (payment : Payment) (actorId : ℕ) (dto : RefundPaymentDto) (now random : ℕ)
    (s : Shop) : Except Failure (Refund × Shop) := do
  let number : DocumentNumber := ⟨now, random % 1000⟩
  check (s.refunds.rows.all fun r => r.deleted || r.refundNumber != number)
    "uq_refunds_refund_number_active"
  check (fitsNumeric14 dto.amount && decide (0 < dto.amount)) "refunds_amount_check"
  return (newRefund payment actorId dto number s.refunds.next, { s with
    refunds := s.refunds.insert (newRefund payment actorId dto number) })

def insertRefundItems (refundId : ℕ) : List RefundItemDto → Shop → Except Failure Shop
  | [], s => .ok s
  | item :: items, s => do
    check (item.orderItemId.all (fun id => (s.orderItems.find? id).isSome) &&
      decide (0 ≤ item.amount) && item.quantity.all fun q => fitsInt4 q && decide (0 < q))
      "refund_items"
    insertRefundItems refundId items { s with refundItems := s.refundItems.insert fun n =>
      ⟨n, refundId, item.orderItemId, item.amount, item.quantity⟩ }

/-- `refundItem.createMany`, when there are items. -/
def createRefundItems (refundId : ℕ) (items : List RefundItemDto) : ShopProg Unit :=
  if items = [] then pure ()
  else atomic (.payment (.createRefundItems refundId)) fun _ s => do
    let s ← insertRefundItems refundId items s
    return ((), s)

/-- The columns that `refunds.update` sets. -/
def amendRefund (status : RefundStatus) (gatewayRefundId reason : Option String) (now : ℕ)
    (r : Refund) : Refund := { r with
  status := status
  gatewayRefundId := gatewayRefundId.or r.gatewayRefundId
  processedAt := if status = .processed then some now else r.processedAt
  reason := reason.or r.reason }

@[simp] theorem key_amendRefund (status : RefundStatus) (gatewayRefundId reason : Option String)
    (now : ℕ) (r : Refund) : key (amendRefund status gatewayRefundId reason now r) = key r := rfl

def writeRefund (id : ℕ) (status : RefundStatus) (gatewayRefundId reason : Option String) (now : ℕ)
    (s : Shop) : Except Failure (Unit × Shop) := do
  let _ ← existing s.refunds id
  return ((), { s with
    refunds := s.refunds.update id (amendRefund status gatewayRefundId reason now)
      (key_amendRefund status gatewayRefundId reason now) })

def updateRefund (id : ℕ) (status : RefundStatus) (gatewayRefundId reason : Option String) :
    ShopProg Unit :=
  atomic (.payment (.updateRefund id status)) fun i s =>
    writeRefund id status gatewayRefundId reason i.now s

/-- The status of the payment after `amount` more is refunded. -/
def refundedStatus (payment : Payment) (amount : ℚ) : PaymentStatus :=
  if payment.amount - tolerance ≤ payment.refundedAmount + amount then .refunded
  else .partiallyRefunded

def recordOf (payment : Payment) (amount : ℚ) : PaymentWrite :=
  .refund (payment.refundedAmount + amount) (refundedStatus payment amount)

def recordRefund (payment : Payment) (actorId : ℕ) (amount : ℚ) : ShopProg Unit := do
  let _ ← updatePayment payment.id payment.status (recordOf payment amount)
  audit payment.id "refund" (some actorId) (some payment.status) (some (refundedStatus payment amount))
  createEvent payment.id ("payment." ++ (refundedStatus payment amount).text)

/-- The `try` block of `refund`. -/
def refundWithGateway (payment : Payment) (gatewayPaymentId : String) (refund : Refund) (actorId : ℕ)
    (amount : ℚ) : ShopProg Unit := do
  let gw ← gatewayCall (.refund gatewayPaymentId amount refund.refundNumber)
  updateRefund refund.id (if gw.status = .processed then .processed else .processing)
    (some gw.gatewayRefundId) none
  createTransaction payment.id .refund amount (some gw.gatewayRefundId)
  recordRefund payment actorId amount

/-- The body of `refund` for a payment that may be refunded. -/
def refundPayment (payment : Payment) (actorId : ℕ) (dto : RefundPaymentDto) : ShopProg Unit := do
  let refund ← atomic (.payment (.createRefund payment.id dto.amount)) fun i s =>
    insertRefund payment actorId dto i.now i.reply.random s
  createRefundItems refund.id dto.items
  let gatewayPaymentId ← Prog.orThrow (.throwApp .conflict "Missing gateway payment id" 409)
    (truthy payment.gatewayPaymentId)
  tryCatch (refundWithGateway payment gatewayPaymentId refund actorId dto.amount) fun err => do
    updateRefund refund.id .failed none (some err.message)
    enqueue
    throw err

def refund (token paymentId actorId : ℕ) (dto : RefundPaymentDto) (asAdmin : Bool) :
    ShopProg Unit :=
  LockService.withLock (.payment .refund paymentId) token do
    let payment ← requirePayment (some .refund) paymentId
    assertCanAccess asAdmin payment.customerId actorId
    Prog.ensure (payment.status = .captured ∨ payment.status = .partiallyRefunded)
      (.throwApp .conflict "Only captured payments can be refunded" 409)
    Prog.ensure (dto.amount ≤ remaining payment + tolerance) (refundExceeds payment)
    refundPayment payment actorId dto

end ElectronicsCart.Payments
