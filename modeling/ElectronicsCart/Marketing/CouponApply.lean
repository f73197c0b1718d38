import ElectronicsCart.Core.Lock
import ElectronicsCart.Lib.Table
import ElectronicsCart.Marketing.Coupons

/-!
# Redeeming a coupon

`CouponService.apply` with `validate` in its calls, over `coupons`, `orders`, `coupon_usage` and
`audit_logs` of `database/sql/010_orders.sql`.  The count of the usages and the insert of a new one
are statements of their own; the lock on the code is all that keeps them together.
-/

namespace ElectronicsCart.Marketing

open Interleaving Relational Rules

/-- What `apply` reads and writes of an `orders` row. -/
structure CouponOrder where
  id : ℕ
  customerId : Option String
  couponId : Option String := none
  deleted : Bool := false
deriving DecidableEq, Repr

/-- A `coupon_usage` row. -/
structure CouponUsage extends CouponUsageRow where
  id : ℕ
  orderId : Option ℕ
  discountAmount : ℚ

structure CouponAudit where
  entityId : String
  actorId : String
deriving DecidableEq, Repr

instance : Keyed CouponOrder := ⟨CouponOrder.id⟩
instance : Keyed CouponUsage := ⟨CouponUsage.id⟩

/-- The tables, Redis and its locks; a coupon lock is named by the code in capitals. -/
structure CouponShop where
  users : List String
  users_named : "" ∉ users
  coupons : List CouponRow
  ids_unique : (coupons.map CouponRow.id).Nodup
  orders : Table CouponOrder
  usages : Table CouponUsage := Table.empty
  audits : List CouponAudit := []
  cache : CacheStore := fun _ => none
  locks : LockStore String := fun _ => none

def CouponShop.database (s : CouponShop) : CouponDatabase :=
  ⟨s.coupons, s.usages.rows.map CouponUsage.toCouponUsageRow⟩

/-- The external calls of `apply`. -/
inductive CouponCall where
  | acquire (key : String) (token : ℕ)
  | release (key : String) (token : ℕ)
  | getCached (key : String)
  | findCoupon (code : String)
  | setCached (key : String)
  | clock
  | countUsages
  | countUserUsages (customerId : String)
  | findOrder (orderId : ℕ)
  | attachCoupon (orderId : ℕ) (customerId : String)
  | recordUsage (orderId : Option ℕ) (couponId : JsValue) (customerId : String)
  | audit

instance : Lockable CouponCall CouponShop String where
  locks := CouponShop.locks
  setLocks m s := { s with locks := m }
  acquireCall := .acquire
  releaseCall := .release
  resource code := ["marketing", "coupon", code]
  locks_setLocks _ _ := rfl

abbrev CouponProg := Prog CouponCall (Input Unit) CouponShop Failure

structure ApplyCouponDto extends ValidateCouponDto where
  orderId : Option ℕ := none

structure ApplyResult where
  usageId : ℕ
  couponId : JsValue
  discount : JsNumber

namespace CouponService

section Loading

variable (rt : Runtime)

def getCached (key : String) : CouponProg (Option JsValue) :=
  Prog.call (.getCached key) fun i s => (.ok (if i.fails then none else s.cache key), s)

def setCached (key : String) (value : JsValue) : CouponProg Unit :=
  Prog.call (.setCached key) fun i s => (.ok (), if i.fails then s else
    { s with cache := Function.update s.cache key (CacheService.entry rt value) })

def couponNotFound : Failure := .throwApp .notFound "Coupon not found" 404

/-- The factory of `loadCoupon`, whose value is cached. -/
def fetchCoupon (code : String) : CouponProg JsValue := do
  let found ← query (.findCoupon code) fun _ s => findCoupon rt s.database code
  let coupon ← Prog.orThrow couponNotFound (found.filter fun c => c.status = .active)
  setCached rt (couponKey rt code) coupon.record
  pure coupon.record

def loadCoupon (code : String) : CouponProg JsValue := do
  let hit ← getCached (couponKey rt code)
  match hit with
  | some coupon => pure coupon
  | none => fetchCoupon rt code

end Loading

section Eligibility

variable (rt : Runtime) (coupon : JsValue) (customerId : String) (dto : ValidateCouponDto)

/-- `new Date()`. -/
def clock : CouponProg ℤ := Prog.call .clock fun i s => (.ok i.now, s)

/-- Whether a limit is set and the usages have reached it; they are counted only when it is. -/
def limitReached (call : CouponCall) (limit : JsValue) (p : CouponUsageRow → Bool) :
    CouponProg Bool :=
  if limit.nullish then pure false
  else do
    let used ← query call fun _ s => s.database.usages.countP p
    pure (reaches rt used limit)

def usageLimitReached : CouponProg Bool :=
  limitReached rt .countUsages (coupon.field "usage_limit") (usageOf (coupon.field "id"))

def perUserLimitReached : CouponProg Bool :=
  match truthy (some customerId) with
  | none => pure false
  | some customer =>
    limitReached rt (.countUserUsages customer) (coupon.field "per_user_limit") fun u =>
      usageOf (coupon.field "id") u && u.userId == some customer

def evaluateLimits (reasons : List String) : CouponProg Eligibility := do
  let usedUp ← usageLimitReached rt coupon
  if usedUp then pure { eligible := false, reasons := ["usage_limit exceeded"] }
  else do
    let usedUpByUser ← perUserLimitReached rt coupon customerId
    if usedUpByUser then pure { eligible := false, reasons := ["per_user_limit exceeded"] }
    else pure { eligible := true, reasons := reasons }

def evaluateEligibility : CouponProg Eligibility := do
  let now ← clock
  let conditions ← Prog.done (buildCouponConditions rt (minCartValue rt coupon)
    (coupon.field "starts_at") (coupon.field "expires_at")
    (restrictionNode (restricted coupon .brand "brand_id")
      (restricted coupon .category "category_id")))
  let evaluated := Rules.evaluate rt conditions
    (couponFacts rt { now := now } (some customerId) dto) {}
  if !evaluated.matched || (evaluated.errors.getD []).length ≠ 0 then
    pure { eligible := false, reasons := evaluated.reasons, errors := evaluated.errors }
  else evaluateLimits rt coupon customerId evaluated.reasons

/-- What `validate` makes of the answer. -/
def verdict (result : Eligibility) : ValidateResult :=
  if result.eligible then
    .valid (coupon.field "id") (coupon.field "code")
      (computeCouponDiscount (coupon.field "discount_type")
        ((coupon.field "discount_value").toNumber rt) dto.cartTotal
        (numberOrNull rt (coupon.field "max_discount"))) result.reasons
  else .invalid result.reasons result.errors

end Eligibility

/-! ### Writing -/

def textOf : JsValue → Option String
  | .string text => some text
  | _ => none

/-- `NUMERIC(12, 2)`, not negative. -/
def discountColumn : JsNumber → Option ℚ
  | .finite q => if 0 ≤ q ∧ q < 10000000000 then some q else none
  | _ => none

/-- A value as a `UUID` column that refers to a coupon. -/
def couponReference (couponId : JsValue) (name : String) (s : CouponShop) :
    Except Failure String := do
  let id ← (textOf couponId).elim (.error (.constraint name)) .ok
  check (s.coupons.any fun c => c.id == id) name
  return id

def setOrderCoupon (orderId : ℕ) (couponId : JsValue) (customerId : String) (s : CouponShop) :
    Except Failure (Unit × CouponShop) := do
  check (s.orders.find? orderId).isSome "P2025"
  let id ← couponReference couponId "orders_coupon_id_fkey" s
  check (s.users.contains customerId) "orders_updated_by_fkey"
  return ((), { s with orders := s.orders.update orderId fun o => { o with couponId := some id } })

def insertUsage (orderId : Option ℕ) (couponId : JsValue) (customerId : String)
    (discount : JsNumber) (s : CouponShop) : Except Failure (ℕ × CouponShop) := do
  let id ← couponReference couponId "coupon_usage_coupon_id_fkey" s
  check (s.users.contains customerId) "coupon_usage_user_id_fkey"
  check (orderId.all fun o => (s.orders.find? o).isSome) "coupon_usage_order_id_fkey"
  let amount ← (discountColumn discount).elim (.error (.constraint "discount_amount")) .ok
  return (s.usages.next, { s with usages := s.usages.insert fun n =>
    { id := n, couponId := id, userId := some customerId, orderId, discountAmount := amount } })

def orderNotFound : Failure := .throwApp .notFound "Order not found" 404

def stackingNotAllowed : Failure := .throwApp .conflict "Coupon stacking not allowed" 409

def stacked (order : CouponOrder) (couponId : JsValue) : Bool :=
  (truthy order.couponId).any fun id => !isText id couponId

def attachCoupon (couponId : JsValue) (customerId : String) : Option ℕ → CouponProg Unit
  | none => pure ()
  | some orderId => do
    let found ← query (.findOrder orderId) fun _ s =>
      (s.orders.find? orderId).filter fun o => !o.deleted
    let order ← Prog.orThrow orderNotFound found
    Prog.ensure (stacked order couponId = false) stackingNotAllowed
    atomic (.attachCoupon orderId customerId) fun _ s =>
      setOrderCoupon orderId couponId customerId s

def recordUsage (orderId : Option ℕ) (couponId : JsValue) (customerId : String)
    (discount : JsNumber) : CouponProg ℕ :=
  atomic (.recordUsage orderId couponId customerId) fun _ s =>
    insertUsage orderId couponId customerId discount s

def audit (couponId : JsValue) (customerId : String) : CouponProg Unit :=
  atomic .audit fun _ s => do
    let id ← (textOf couponId).elim (.error (.constraint "entity_id")) .ok
    return ((), { s with audits := s.audits ++ [⟨id, customerId⟩] })

def redeem (couponId : JsValue) (discount : JsNumber) (customerId : String)
    (orderId : Option ℕ) : CouponProg ApplyResult := do
  attachCoupon couponId customerId orderId
  let usageId ← recordUsage orderId couponId customerId discount
  audit couponId customerId
  pure ⟨usageId, couponId, discount⟩

def notEligible (reasons : List String) : Failure :=
  let text := "; ".intercalate reasons
  .throwApp .conflict (if text.isEmpty then "Coupon not eligible" else text) 409

def settleVerdict (customerId : String) (orderId : Option ℕ) :
    ValidateResult → CouponProg ApplyResult
  | .invalid reasons _ => throw (notEligible reasons)
  | .valid couponId _ discount reasons =>
    if couponId.truthy then redeem couponId discount customerId orderId
    else throw (notEligible reasons)

section Apply

variable (rt : Runtime)

/-- What `apply` does under its lock. -/
def applyLocked (customerId : String) (dto : ApplyCouponDto) : CouponProg ApplyResult := do
  let coupon ← loadCoupon rt dto.code
  let result ← evaluateEligibility rt coupon customerId dto.toValidateCouponDto
  settleVerdict customerId dto.orderId (verdict rt coupon dto.toValidateCouponDto result)

def apply (token : ℕ) (customerId : String) (dto : ApplyCouponDto) : CouponProg ApplyResult :=
  LockService.withLock (rt.toUpperCase dto.code) token (applyLocked rt customerId dto)

end Apply

end CouponService

structure ApplyRequest where
  customerId : String
  dto : ApplyCouponDto

/-- The requests as concurrent calls, each with its own lock token. -/
def applyPool (rt : Runtime) (requests : List ApplyRequest) (s : CouponShop) :
    Pool CouponCall (Input Unit) CouponShop Failure ApplyResult :=
  ⟨requests.mapIdx fun token r => CouponService.apply rt token r.customerId r.dto, s⟩

end ElectronicsCart.Marketing
