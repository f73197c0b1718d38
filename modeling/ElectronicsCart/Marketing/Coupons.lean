import ElectronicsCart.Core.Cache
import ElectronicsCart.Rules.Engine

/-!
# Coupons

`CouponService.validate` of `coupon.service.ts` with `utils/rule-builders.ts`.  The service
works on the record as the database or the cache gives it, so the record is a JavaScript
object here as well.
-/

namespace ElectronicsCart.Marketing

open Rules

/-! ### Rows -/

inductive CouponDiscountType where
  | flat | percentage
deriving DecidableEq, Repr

def CouponDiscountType.text : CouponDiscountType → String
  | flat => "flat"
  | percentage => "percentage"

inductive CouponRuleType where
  | brand | category | minCartValue | maxDiscount | usageLimit | perUserLimit
deriving DecidableEq, Repr

def CouponRuleType.text : CouponRuleType → String
  | brand => "brand"
  | category => "category"
  | minCartValue => "min_cart_value"
  | maxDiscount => "max_discount"
  | usageLimit => "usage_limit"
  | perUserLimit => "per_user_limit"

inductive RecordStatus where
  | active | inactive | suspended | pending | archived
deriving DecidableEq, Repr

/-- A `coupon_rules` row. -/
structure CouponRuleRow where
  ruleType : CouponRuleType
  brandId : Option String := none
  categoryId : Option String := none
  ruleValue : Option String := none
  status : RecordStatus := .active
  deleted : Bool := false

/-- A `coupons` row with its rules; decimal columns are texts. -/
structure CouponRow where
  id : String
  code : String
  discountType : CouponDiscountType
  discountValue : String
  minCartValue : Option String := none
  maxDiscount : Option String := none
  usageLimit : Option ℤ := none
  perUserLimit : Option ℤ := none
  startsAt : Option ℤ := none
  expiresAt : Option ℤ := none
  status : RecordStatus := .active
  rules : List CouponRuleRow := []
  deleted : Bool := false

structure CouponUsageRow where
  couponId : String
  userId : Option String
  deleted : Bool := false

structure CouponDatabase where
  coupons : List CouponRow
  usages : List CouponUsageRow

def RecordStatus.text : RecordStatus → String
  | active => "active"
  | inactive => "inactive"
  | suspended => "suspended"
  | pending => "pending"
  | archived => "archived"

/-! ### The record Prisma gives -/

def decimalOf : Option String → JsValue
  | some text => .decimal text
  | none => .null

def intOf : Option ℤ → JsValue
  | some n => .number (.finite n)
  | none => .null

def CouponRuleRow.record (r : CouponRuleRow) : JsValue :=
  .object
    [("rule_type", .string r.ruleType.text),
     ("brand_id", .str r.brandId),
     ("category_id", .str r.categoryId),
     ("rule_value", decimalOf r.ruleValue)]

/-- With the rules that are active and not deleted. -/
def CouponRow.record (c : CouponRow) : JsValue :=
  .object
    [("id", .string c.id),
     ("code", .string c.code),
     ("discount_type", .string c.discountType.text),
     ("discount_value", .decimal c.discountValue),
     ("min_cart_value", decimalOf c.minCartValue),
     ("max_discount", decimalOf c.maxDiscount),
     ("usage_limit", intOf c.usageLimit),
     ("per_user_limit", intOf c.perUserLimit),
     ("starts_at", .day c.startsAt),
     ("expires_at", .day c.expiresAt),
     ("status", .string c.status.text),
     ("rules", .array ((c.rules.filter fun r => !r.deleted && r.status = .active).map
       CouponRuleRow.record))]

/-! ### Conditions -/

def condition (field operator : String) (expected : JsValue) : JsValue :=
  .object [("field", .string field), (operator, expected)]

def groupNode (key : String) (parts : List JsValue) : JsValue := .object [(key, .array parts)]

/-- A call of `toISOString`; a value that is no date has no such method. -/
def isoBound (rt : Runtime) (name : String) : JsValue → Except Failure JsValue
  | .date ms => .ok (.string (rt.toISOString ms))
  | .invalidDate => .error (.error "Invalid time value")
  | _ => .error (.error ("input." ++ name ++ ".toISOString is not a function"))

def boundPart (rt : Runtime) (name operator : String) (bound : JsValue) :
    Except Failure (List JsValue) :=
  if bound.truthy then do
    let text ← isoBound rt name bound
    return [condition "now" operator text]
  else return []

/-- `buildCouponConditions` as `validate` calls it, with its restrictions in `extra`. -/
def buildCouponConditions (rt : Runtime) (minCartValue : Option JsNumber)
    (startsAt expiresAt : JsValue) (extra : Option JsValue) : Except Failure JsValue := do
  let minimum := (minCartValue.map fun n => condition "cart.total" "gte" (.number n)).toList
  let starts ← boundPart rt "startsAt" "gte" startsAt
  let expires ← boundPart rt "expiresAt" "lte" expiresAt
  let parts := minimum ++ starts ++ expires ++ extra.toList
  match parts with
  | [part] => return part
  | parts => return groupNode "all" parts

def computeCouponDiscount (discountType : JsValue) (discountValue : JsNumber) (cartTotal : ℚ)
    (maxDiscount : Option JsNumber) : JsNumber :=
  let amount :=
    match discountType with
    | .string "percentage" => (JsNumber.mul (.finite cartTotal) discountValue).divPos 100
    | _ => discountValue
  let amount :=
    match maxDiscount with
    | some limit => amount.min limit
    | none => amount
  JsNumber.max (.finite 0) (amount.min (.finite cartTotal))

/-! ### Eligibility -/

structure ValidateCouponDto where
  code : String
  cartTotal : ℚ
  brandIds : Option (List String) := none
  categoryIds : Option (List String) := none
  productIds : Option (List String) := none

/-- What the environment does to one call: whether Redis fails, which database calls fail,
and the time. -/
structure ValidateInput where
  redis : RedisInput := {}
  fails : ℕ → Bool := fun _ => false
  now : ℤ := 0

structure Eligibility where
  eligible : Bool
  reasons : List String
  errors : Option (List String) := none

section Service

variable (rt : Runtime) (db : CouponDatabase) (i : ValidateInput)

def elements : JsValue → List JsValue
  | .array xs => xs
  | _ => []

def isText (text : String) : JsValue → Bool
  | .string s => s == text
  | _ => false

/-- `coupon.rules.filter(r => r.rule_type === type && r[key]).map(r => r[key]!)`. -/
def restricted (coupon : JsValue) (type : CouponRuleType) (key : String) : List JsValue :=
  ((elements (coupon.field "rules")).filter fun r =>
    isText type.text (r.field "rule_type") && (r.field key).truthy).map fun r => r.field key

/-- `coupon.rules.find(r => r.rule_type === 'min_cart_value')?.rule_value`. -/
def minCartRule (coupon : JsValue) : JsValue :=
  match (elements (coupon.field "rules")).find? fun r =>
    isText CouponRuleType.minCartValue.text (r.field "rule_type") with
  | some r => r.field "rule_value"
  | none => .undefined

/-- `v != null ? Number(v) : null`. -/
def numberOrNull (v : JsValue) : Option JsNumber := if v.nullish then none else some (v.toNumber rt)

def minCartValue (coupon : JsValue) : Option JsNumber :=
  (numberOrNull rt (coupon.field "min_cart_value")).or (numberOrNull rt (minCartRule coupon))

def anyOf (field : String) (ids : List JsValue) : List JsValue :=
  if ids.isEmpty then [] else [groupNode "any" (ids.map fun id => condition field "contains" id)]

def restrictionNode (brands categories : List JsValue) : Option JsValue :=
  match anyOf "cart.brandIds" brands ++ anyOf "cart.categoryIds" categories with
  | [] => none
  | [part] => some part
  | parts => some (groupNode "all" parts)

def texts (ids : Option (List String)) : JsValue := .array ((ids.getD []).map .string)

def couponFacts (customerId : Option String) (dto : ValidateCouponDto) : JsValue :=
  .object
    [("cart", .object
       [("total", .number (.finite dto.cartTotal)),
        ("brandIds", texts dto.brandIds),
        ("categoryIds", texts dto.categoryIds),
        ("productIds", texts dto.productIds)]),
     ("customer", .object [("id", .str customerId)]),
     ("now", .string (rt.toISOString i.now))]

/-- The `n`-th database call of the request: a count of usages. -/
def countUsages (n : ℕ) (p : CouponUsageRow → Bool) : Except Failure ℕ :=
  if i.fails n then .error .database else .ok (db.usages.countP p)

def usageOf (couponId : JsValue) (u : CouponUsageRow) : Bool :=
  isText u.couponId couponId && !u.deleted

/-- `used >= limit`. -/
def reaches (used : ℕ) (limit : JsValue) : Bool :=
  match limit.toNumber rt with
  | .finite q => decide (q ≤ used)
  | .nan => false
  | .infinity negative => negative

/-- Whether a limit is set and the usages have reached it; they are counted only when it is. -/
def limitReached (n : ℕ) (limit : JsValue) (p : CouponUsageRow → Bool) : Except Failure Bool :=
  if limit.nullish then return false
  else do
    let used ← countUsages db i n p
    return reaches rt used limit

def usageLimitReached (coupon : JsValue) : Except Failure Bool :=
  limitReached rt db i 1 (coupon.field "usage_limit") (usageOf (coupon.field "id"))

def perUserLimitReached (coupon : JsValue) (customerId : Option String) : Except Failure Bool :=
  match truthy customerId with
  | none => return false
  | some customer =>
    limitReached rt db i 2 (coupon.field "per_user_limit") fun u =>
      usageOf (coupon.field "id") u && u.userId == some customer

def evaluateEligibility (coupon : JsValue) (customerId : Option String)
    (dto : ValidateCouponDto) : Except Failure Eligibility := do
  let conditions ← buildCouponConditions rt (minCartValue rt coupon) (coupon.field "starts_at")
    (coupon.field "expires_at")
    (restrictionNode (restricted coupon .brand "brand_id")
      (restricted coupon .category "category_id"))
  let evaluated := Rules.evaluate rt conditions (couponFacts rt i customerId dto) {}
  if !evaluated.matched || (evaluated.errors.getD []).length ≠ 0 then
    return { eligible := false, reasons := evaluated.reasons, errors := evaluated.errors }
  let usedUp ← usageLimitReached rt db i coupon
  if usedUp then return { eligible := false, reasons := ["usage_limit exceeded"] }
  let usedUpByUser ← perUserLimitReached rt db i coupon customerId
  if usedUpByUser then return { eligible := false, reasons := ["per_user_limit exceeded"] }
  return { eligible := true, reasons := evaluated.reasons }

inductive ValidateResult where
  | invalid (reasons : List String) (errors : Option (List String))
  | valid (couponId code : JsValue) (discount : JsNumber) (reasons : List String)

/-- What `validate` makes of a loaded record. -/
def validateRecord (coupon : JsValue) (customerId : Option String) (dto : ValidateCouponDto) :
    Except Failure ValidateResult := do
  let result ← evaluateEligibility rt db i coupon customerId dto
  if !result.eligible then return .invalid result.reasons result.errors
  let discount := computeCouponDiscount (coupon.field "discount_type")
    ((coupon.field "discount_value").toNumber rt) dto.cartTotal
    (numberOrNull rt (coupon.field "max_discount"))
  return .valid (coupon.field "id") (coupon.field "code") discount result.reasons

/-! ### Loading -/

def couponKey (code : String) : String := "mkt:coupon:" ++ rt.toUpperCase code

def findCoupon (code : String) : Option CouponRow :=
  db.coupons.find? fun c => c.code == rt.toUpperCase code && !c.deleted

def couponFactory (code : String) : Except Failure JsValue :=
  if i.fails 0 then .error .database
  else
    match findCoupon rt db code with
    | none => .error (.throwApp .notFound "Coupon not found" 404)
    | some c =>
      if c.status ≠ .active then .error (.throwApp .notFound "Coupon not found" 404)
      else .ok c.record

def loadCoupon (code : String) (store : CacheStore) : Except Failure JsValue × CacheStore :=
  CacheService.getOrSet rt i.redis (couponKey rt code) (couponFactory rt db i code) store

def validate (customerId : Option String) (dto : ValidateCouponDto) (store : CacheStore) :
    Except Failure ValidateResult × CacheStore :=
  match loadCoupon rt db i dto.code store with
  | (.error e, store) => (.error e, store)
  | (.ok coupon, store) => (validateRecord rt db i coupon customerId dto, store)

end Service

end ElectronicsCart.Marketing
