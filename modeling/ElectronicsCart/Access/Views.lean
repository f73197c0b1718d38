import ElectronicsCart.Core.Cache
import ElectronicsCart.Shop.Schema
import Mathlib.Data.List.Sort

/-!
# The cached reads of orders, payments and claims

`orders.service.ts`, `payments.service.ts` and `warranty.service.ts`: what `getOrder`,
`getById`, `getByOrder` and `getClaim` read and give back, with the check of the owner
inside the function that fills the cache.
-/

namespace ElectronicsCart.Access

/-! ### Rows -/

structure OrderItemRow where
  id : String
  variantId : String
  skuSnapshot : String
  productNameSnapshot : String
  quantity : ℤ
  unitPrice : String
  lineTotal : String
  deleted : Bool := false

inductive AddressType where
  | shipping | billing
deriving DecidableEq, Repr

structure OrderAddressRow where
  id : String
  addressType : AddressType
  fullName : String
  phone : Option String
  line1 : String
  line2 : Option String
  city : String
  state : String
  country : String
  postalCode : String
  deleted : Bool := false

structure StatusHistoryRow where
  fromStatus : Option OrderStatus
  toStatus : OrderStatus
  note : Option String
  changedAt : ℤ

/-- Amounts are the texts of `NUMERIC` columns. -/
structure OrderRow where
  id : String
  orderNumber : String
  customerId : Option String
  status : OrderStatus
  currency : String
  subtotal : String
  discountTotal : String
  taxTotal : String
  shippingCharge : String
  grandTotal : String
  placedAt : Option ℤ
  cancelledAt : Option ℤ
  items : List OrderItemRow
  addresses : List OrderAddressRow
  statusHistory : List StatusHistoryRow
  deleted : Bool := false

structure PaymentRow where
  id : String
  orderId : String
  customerId : Option String
  gatewayId : String
  gatewayCode : String
  paymentMethodId : Option String
  amount : String
  currency : String
  refundedAmount : String
  status : PaymentStatus
  gatewayOrderId : Option String
  gatewayPaymentId : Option String
  authorizedAt : Option ℤ
  capturedAt : Option ℤ
  failedAt : Option ℤ
  createdAt : ℤ
  updatedAt : ℤ
  deleted : Bool := false

inductive WarrantyClaimStatus where
  | submitted | underReview | approved | rejected | inService | closed | cancelled
deriving DecidableEq, Repr

structure ClaimDocumentRow where
  id : String
  docType : String
  label : Option String

structure WarrantyClaimRow where
  id : String
  claimNumber : String
  registrationId : String
  customerId : Option String
  issueSummary : String
  issueDetail : Option String
  claimAmount : Option String
  status : WarrantyClaimStatus
  documents : List ClaimDocumentRow
  deleted : Bool := false

/-- `service_audit_logs`; `metadata` is a timeline entry, or anything else. -/
structure AuditLogRow where
  claimId : Option String
  actorId : Option String
  metadata : Option JsValue
  createdAt : ℤ
  deleted : Bool := false

structure Database where
  orders : List OrderRow
  payments : List PaymentRow
  claims : List WarrantyClaimRow
  auditLogs : List AuditLogRow

/-! ### What the services give back -/

def orderStatusText : OrderStatus → String
  | .pending => "pending"
  | .confirmed => "confirmed"
  | .processing => "processing"
  | .packed => "packed"
  | .shipped => "shipped"
  | .delivered => "delivered"
  | .completed => "completed"
  | .cancelled => "cancelled"
  | .returned => "returned"
  | .refunded => "refunded"

def AddressType.text : AddressType → String
  | shipping => "shipping"
  | billing => "billing"

def WarrantyClaimStatus.text : WarrantyClaimStatus → String
  | submitted => "submitted"
  | underReview => "under_review"
  | approved => "approved"
  | rejected => "rejected"
  | inService => "in_service"
  | closed => "closed"
  | cancelled => "cancelled"

section Views

variable (rt : Runtime)

/-- `o ?? undefined`. -/
def orUndefined : Option String → JsValue
  | some s => .string s
  | none => .undefined

/-- `Number(d)` of a `Decimal` column. -/
def amountOf (text : String) : JsValue := .number (JsValue.toNumber rt (.decimal text))

/-- The detail include of `order.repository.ts` does not load the customer, so the label
is never there. -/
def mapOrderSummary (order : OrderRow) (items : List OrderItemRow) : List (String × JsValue) :=
  [("id", .string order.id),
   ("orderNumber", .string order.orderNumber),
   ("status", .string (orderStatusText order.status)),
   ("currency", .string order.currency),
   ("subtotal", amountOf rt order.subtotal),
   ("discountTotal", amountOf rt order.discountTotal),
   ("taxTotal", amountOf rt order.taxTotal),
   ("shippingCharge", amountOf rt order.shippingCharge),
   ("grandTotal", amountOf rt order.grandTotal),
   ("placedAt", .day order.placedAt),
   ("cancelledAt", .day order.cancelledAt),
   ("itemCount", .number (.finite items.length)),
   ("customerId", orUndefined order.customerId),
   ("customer", .undefined)]

def orderItemView (i : OrderItemRow) : JsValue :=
  .object
    [("id", .string i.id),
     ("variantId", .string i.variantId),
     ("sku", .string i.skuSnapshot),
     ("name", .string i.productNameSnapshot),
     ("quantity", .number (.finite i.quantity)),
     ("unitPrice", amountOf rt i.unitPrice),
     ("lineTotal", amountOf rt i.lineTotal)]

def addressView (a : OrderAddressRow) : JsValue :=
  .object
    [("id", .string a.id),
     ("type", .string a.addressType.text),
     ("fullName", .string a.fullName),
     ("phone", .str a.phone),
     ("line1", .string a.line1),
     ("line2", .str a.line2),
     ("city", .string a.city),
     ("state", .string a.state),
     ("country", .string a.country),
     ("postalCode", .string a.postalCode)]

def statusHistoryView (h : StatusHistoryRow) : JsValue :=
  .object
    [("from", .str (h.fromStatus.map orderStatusText)),
     ("to", .string (orderStatusText h.toStatus)),
     ("note", .str h.note),
     ("changedAt", .date h.changedAt)]

def orderView (order : OrderRow) : JsValue :=
  let items := order.items.filter fun i => !i.deleted
  let addresses := order.addresses.filter fun a => !a.deleted
  let history := order.statusHistory.insertionSort fun a b => b.changedAt ≤ a.changedAt
  .object (mapOrderSummary rt order items ++
    [("items", .array (items.map (orderItemView rt))),
     ("addresses", .array (addresses.map addressView)),
     ("statusHistory", .array (history.map statusHistoryView))])

def mapPayment (p : PaymentRow) : JsValue :=
  .object
    [("id", .string p.id),
     ("orderId", .string p.orderId),
     ("customerId", .str p.customerId),
     ("gatewayId", .string p.gatewayId),
     ("gatewayCode", .string p.gatewayCode),
     ("paymentMethodId", .str p.paymentMethodId),
     ("amount", amountOf rt p.amount),
     ("currency", .string p.currency),
     ("refundedAmount", amountOf rt p.refundedAmount),
     ("status", .string p.status.text),
     ("gatewayOrderId", .str p.gatewayOrderId),
     ("gatewayPaymentId", .str p.gatewayPaymentId),
     ("authorizedAt", .day p.authorizedAt),
     ("capturedAt", .day p.capturedAt),
     ("failedAt", .day p.failedAt),
     ("createdAt", .date p.createdAt),
     ("updatedAt", .date p.updatedAt)]

def timelineEntry (r : AuditLogRow) : JsValue :=
  let entry := r.metadata.getD (.object [])
  let type := entry.field "type"
  .object
    [("at", .date r.createdAt),
     ("type", if type.nullish then .string "status_changed" else type),
     ("actorId", orUndefined r.actorId),
     ("message", entry.field "message"),
     ("fromStatus", entry.field "fromStatus"),
     ("toStatus", entry.field "toStatus"),
     ("metadata", entry.field "metadata")]

def claimView (claim : WarrantyClaimRow) (timeline : List JsValue) : JsValue :=
  .object
    [("id", .string claim.id),
     ("claimNumber", .string claim.claimNumber),
     ("status", .string claim.status.text),
     ("issueSummary", .string claim.issueSummary),
     ("issueDetail", .str claim.issueDetail),
     ("claimAmount", (claim.claimAmount.map (amountOf rt)).getD .null),
     ("registrationId", .string claim.registrationId),
     ("documents", .array (claim.documents.map fun d => .object
       [("id", .string d.id), ("docType", .string d.docType), ("label", .str d.label)])),
     ("timeline", .array timeline)]

end Views

/-! ### Reads of the database -/

/-- `fails` says which call of the read the database fails; `parseUuid` is the engine's
reading of a text as the value of a uuid column. -/
structure QueryInput where
  fails : ℕ → Bool := fun _ => false

section Queries

variable (parseUuid : String → Option String) (db : Database) (q : QueryInput)

/-- One read: the connection fails, or the query runs. -/
def fetch {α : Type} (n : ℕ) (rows : Except Failure α) : Except Failure α :=
  if q.fails n then .error .database else rows

/-- A text Prisma does not take for a uuid. -/
def uuid (text : String) : Except Failure String :=
  match parseUuid text with
  | some u => .ok u
  | none => .error (.error "Inconsistent column data")

def isHexDigit (c : Char) : Bool :=
  c.isDigit || decide ('a' ≤ c ∧ c ≤ 'f') || decide ('A' ≤ c ∧ c ≤ 'F')

/-- `/^[0-9a-f]{8}-[0-9a-f]{4}-[0-9a-f]{4}-[0-9a-f]{4}-[0-9a-f]{12}$/i`. -/
def matchesUuid (s : String) : Bool :=
  match s.splitOn "-" with
  | [a, b, c, d, e] =>
    [a, b, c, d, e].all (fun part => part.toList.all isHexDigit) &&
      [a.length, b.length, c.length, d.length, e.length] == [8, 4, 4, 4, 12]
  | _ => false

def findOrderById (n : ℕ) (id : String) : Except Failure (Option OrderRow) :=
  fetch q n do
    let u ← uuid parseUuid id
    return db.orders.find? fun o => o.id == u && !o.deleted

def findByNumber (n : ℕ) (orderNumber : String) : Except Failure (Option OrderRow) :=
  fetch q n (.ok (db.orders.find? fun o => o.orderNumber == orderNumber && !o.deleted))

def findByIdOrNumber (idOrNumber : String) : Except Failure (Option OrderRow) :=
  let key := jsTrim idOrNumber
  if matchesUuid key then findOrderById parseUuid db q 0 key else findByNumber db q 0 key

def findPaymentById (id : String) : Except Failure (Option PaymentRow) :=
  fetch q 0 do
    let u ← uuid parseUuid id
    return db.payments.find? fun p => p.id == u && !p.deleted

def findByOrderId (orderId : String) : Except Failure (List PaymentRow) :=
  fetch q 0 do
    let u ← uuid parseUuid orderId
    return (db.payments.filter fun p => p.orderId == u && !p.deleted).insertionSort
      fun a b => b.createdAt ≤ a.createdAt

def findClaim (n : ℕ) (id : String) : Except Failure (Option WarrantyClaimRow) :=
  fetch q n do
    let u ← uuid parseUuid id
    return db.claims.find? fun c => c.id == u && !c.deleted

def listTimeline (id : String) : Except Failure (List JsValue) :=
  fetch q 2 do
    let u ← uuid parseUuid id
    let rows := (db.auditLogs.filter fun r => r.claimId == some u && !r.deleted).insertionSort
      fun a b => a.createdAt ≤ b.createdAt
    return rows.map timelineEntry

/-- `CaseManager.timeline` of a warranty claim. -/
def timeline (id : String) : Except Failure (List JsValue) := do
  let snap ← findClaim parseUuid db q 1 id
  match snap with
  | none => .error (.throwApp .notFound "Case not found" 404)
  | some _ => listTimeline parseUuid db q id

end Queries

/-! ### The functions that fill the cache -/

section Factories

variable (rt : Runtime) (parseUuid : String → Option String) (db : Database) (q : QueryInput)

/-- `customerId && row.customer_id && row.customer_id !== customerId`. -/
def deniedTo (customerId owner : Option String) : Bool :=
  match truthy customerId, truthy owner with
  | some c, some o => o != c
  | _, _ => false

/-- The refusal of `assertCanAccess`. -/
def notYours (actorId : String) (owner : Option String) : Bool :=
  match truthy owner with
  | some o => o != actorId
  | none => false

def orderFactory (idOrNumber : String) (customerId : Option String) :
    Except Failure JsValue := do
  let order ← findByIdOrNumber parseUuid db q idOrNumber
  match order with
  | none => .error (.throwApp .notFound "Order not found" 404)
  | some order =>
    if deniedTo customerId order.customerId then
      .error (.throwApp .forbidden "Order access denied" 403)
    else .ok (orderView rt order)

/-- `new ForbiddenException`, whose body carries the code. -/
def assertCanAccess (actorId : String) (owner : Option String) : Except Failure Unit :=
  if notYours actorId owner then .error (.throwApp .forbidden "Not your payment" 403)
  else .ok ()

def paymentFactory (paymentId actorId : String) (isAdmin : Bool) : Except Failure JsValue := do
  let payment ← findPaymentById parseUuid db q paymentId
  match payment with
  | none => .error (.throwApp .notFound "Payment not found" 404)
  | some payment =>
    if !isAdmin then assertCanAccess actorId payment.customerId
    return mapPayment rt payment

def orderPaymentsFactory (orderId actorId : String) (isAdmin : Bool) :
    Except Failure JsValue := do
  let rows ← findByOrderId parseUuid db q orderId
  if !isAdmin then rows.forM fun p => assertCanAccess actorId p.customerId
  return .array (rows.map (mapPayment rt))

def claimFactory (id : String) (customerId : Option String) : Except Failure JsValue := do
  let claim ← findClaim parseUuid db q 0 id
  match claim with
  | none => .error (.throwApp .notFound "Claim not found" 404)
  | some claim =>
    if deniedTo customerId claim.customerId then
      .error (.throwApp .forbidden "Not your claim" 403)
    else
      let timeline ← timeline parseUuid db q id
      return claimView rt claim timeline

end Factories

/-! ### The four reads -/

inductive Read where
  /-- `OrdersService.getOrder`; an admin passes no customer -/
  | order (idOrNumber : String) (customerId : Option String)
  /-- `PaymentsService.getById` -/
  | payment (paymentId actorId : String) (isAdmin : Bool)
  /-- `PaymentsService.getByOrder` -/
  | orderPayments (orderId actorId : String) (isAdmin : Bool)
  /-- `WarrantyService.getClaim` -/
  | claim (id : String) (customerId : Option String)
deriving DecidableEq, Repr

/-- `ORDERS_CACHE`, `PAYMENTS_CACHE` and `WARRANTY_CACHE`. -/
def Read.key : Read → String
  | order idOrNumber _ => "orders:order:" ++ idOrNumber
  | payment paymentId _ _ => "payments:status:" ++ paymentId
  | orderPayments orderId _ _ => "payments:order:" ++ orderId
  | claim id _ => "warranty:claim:" ++ id

def Read.factory (rt : Runtime) (parseUuid : String → Option String) (db : Database)
    (q : QueryInput) : Read → Except Failure JsValue
  | order idOrNumber customerId => orderFactory rt parseUuid db q idOrNumber customerId
  | payment paymentId actorId isAdmin => paymentFactory rt parseUuid db q paymentId actorId isAdmin
  | orderPayments orderId actorId isAdmin =>
    orderPaymentsFactory rt parseUuid db q orderId actorId isAdmin
  | claim id customerId => claimFactory rt parseUuid db q id customerId

structure ReadInput where
  redis : RedisInput := {}
  database : QueryInput := {}

def Read.call (rt : Runtime) (parseUuid : String → Option String) (db : Database) (r : Read)
    (i : ReadInput) (store : CacheStore) : Except Failure JsValue × CacheStore :=
  CacheService.getOrSet rt i.redis r.key (r.factory rt parseUuid db i.database) store

end ElectronicsCart.Access
