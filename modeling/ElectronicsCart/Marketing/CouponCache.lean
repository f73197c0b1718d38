import ElectronicsCart.Marketing.Coupons

/-!
# A coupon from the cache

The record of a coupon crosses `JSON.stringify` and `JSON.parse`.  Its decimals come back as
texts with the same number, its dates as texts without `toISOString`.
-/

namespace ElectronicsCart.Marketing

open Rules

section Records

variable (rt : Runtime)

def isoDay : Option ℤ → JsValue
  | some ms => .string (rt.toISOString ms)
  | none => .null

def CouponRuleRow.cached (r : CouponRuleRow) : JsValue :=
  .object
    [("rule_type", .string r.ruleType.text),
     ("brand_id", .str r.brandId),
     ("category_id", .str r.categoryId),
     ("rule_value", .str r.ruleValue)]

def CouponRow.cached (c : CouponRow) : JsValue :=
  .object
    [("id", .string c.id),
     ("code", .string c.code),
     ("discount_type", .string c.discountType.text),
     ("discount_value", .string c.discountValue),
     ("min_cart_value", .str c.minCartValue),
     ("max_discount", .str c.maxDiscount),
     ("usage_limit", intOf c.usageLimit),
     ("per_user_limit", intOf c.perUserLimit),
     ("starts_at", isoDay rt c.startsAt),
     ("expires_at", isoDay rt c.expiresAt),
     ("status", .string c.status.text),
     ("rules", .array ((c.rules.filter fun r => !r.deleted && r.status = .active).map
       CouponRuleRow.cached))]

variable {rt}

@[simp] theorem revived_str (o : Option String) : (JsValue.str o).revived rt = some (.str o) := by
  cases o <;> rfl

@[simp] theorem revived_day (o : Option ℤ) : (JsValue.day o).revived rt = some (isoDay rt o) := by
  cases o <;> rfl

@[simp] theorem revived_decimalOf (o : Option String) :
    (decimalOf o).revived rt = some (.str o) := by
  cases o <;> rfl

@[simp] theorem revived_intOf (o : Option ℤ) : (intOf o).revived rt = some (intOf o) := by
  cases o <;> rfl

theorem revived_rule (r : CouponRuleRow) : r.record.revived rt = some r.cached := by
  simp [CouponRuleRow.record, CouponRuleRow.cached, JsValue.revived, JsValue.revivedFields]

theorem revivedItems_rules (rules : List CouponRuleRow) :
    JsValue.revivedItems rt (rules.map CouponRuleRow.record) =
      rules.map CouponRuleRow.cached := by
  induction rules with
  | nil => rfl
  | cons r rules ih => simp [JsValue.revivedItems, revived_rule, ih]

theorem entry_record (c : CouponRow) :
    CacheService.entry rt c.record = some (c.cached rt) := by
  simp [CouponRow.record, CouponRow.cached, JsValue.revived, JsValue.revivedFields,
    revivedItems_rules]

/-! ### What `validate` reads of a record -/

theorem numberOrNull_cached (o : Option String) :
    numberOrNull rt (.str o) = numberOrNull rt (decimalOf o) := by
  cases o <;> rfl

theorem ruleType_cached (r : CouponRuleRow) :
    r.cached.field "rule_type" = r.record.field "rule_type" := rfl

theorem rules_record (c : CouponRow) : c.record.field "rules" = .array
    ((c.rules.filter fun r => !r.deleted && r.status = .active).map CouponRuleRow.record) := rfl

theorem rules_cached (c : CouponRow) : (c.cached rt).field "rules" = .array
    ((c.rules.filter fun r => !r.deleted && r.status = .active).map CouponRuleRow.cached) := rfl

theorem restricted_cached (c : CouponRow) (type : CouponRuleType) {key : String}
    (hkey : ∀ r : CouponRuleRow, r.cached.field key = r.record.field key) :
    restricted (c.cached rt) type key = restricted c.record type key := by
  simp only [restricted, rules_cached, rules_record, elements, List.filter_map, List.map_map,
    Function.comp_def, hkey, ruleType_cached]

theorem minCartRule_cached (c : CouponRow) :
    numberOrNull rt (minCartRule (c.cached rt)) = numberOrNull rt (minCartRule c.record) := by
  simp only [minCartRule, rules_cached, rules_record, elements, List.find?_map, Function.comp_def,
    ruleType_cached]
  cases (c.rules.filter fun r => !r.deleted && r.status = .active).find? fun r =>
      isText CouponRuleType.minCartValue.text (r.record.field "rule_type") with
  | none => rfl
  | some r => exact numberOrNull_cached r.ruleValue

theorem minCartValue_cached (c : CouponRow) :
    minCartValue rt (c.cached rt) = minCartValue rt c.record := by
  have hmin : (c.cached rt).field "min_cart_value" = .str c.minCartValue := rfl
  have hmin' : c.record.field "min_cart_value" = decimalOf c.minCartValue := rfl
  rw [minCartValue, minCartValue, minCartRule_cached, hmin, hmin', numberOrNull_cached]

end Records

section Validate

variable {rt : Runtime} {db : CouponDatabase} {i : ValidateInput} {customerId : Option String}
  {dto : ValidateCouponDto}

variable (rt) in
theorem boundPart_day (name operator : String) (o : Option ℤ) :
    ∃ parts, boundPart rt name operator (.day o) = .ok parts := by
  cases o <;> exact ⟨_, rfl⟩

theorem boundPart_iso (name operator : String) (ms : ℤ) :
    boundPart rt name operator (isoDay rt (some ms)) =
      .error (.error ("input." ++ name ++ ".toISOString is not a function")) := by
  have htruthy : (JsValue.string (rt.toISOString ms)).truthy = true := by
    simpa [JsValue.truthy] using rt.toISOString_ne ms
  simp only [boundPart, isoDay, htruthy, if_true, isoBound]
  rfl

variable (rt) in
theorem conditions_record (c : CouponRow) (minimum : Option JsNumber) (extra : Option JsValue) :
    ∃ conditions, buildCouponConditions rt minimum (c.record.field "starts_at")
      (c.record.field "expires_at") extra = .ok conditions := by
  have hstarts : c.record.field "starts_at" = .day c.startsAt := rfl
  have hexpires : c.record.field "expires_at" = .day c.expiresAt := rfl
  obtain ⟨starts, hs⟩ := boundPart_day rt "startsAt" "gte" c.startsAt
  obtain ⟨expires, he⟩ := boundPart_day rt "expiresAt" "lte" c.expiresAt
  rw [hstarts, hexpires]
  simp only [buildCouponConditions, hs, he, bind, Except.bind]
  split <;> exact ⟨_, rfl⟩

variable (rt) in
theorem conditions_cached (c : CouponRow) (minimum : Option JsNumber) (extra : Option JsValue)
    (h : ¬ (c.startsAt = none ∧ c.expiresAt = none)) :
    ∃ name, buildCouponConditions rt minimum ((c.cached rt).field "starts_at")
        ((c.cached rt).field "expires_at") extra =
      .error (.error ("input." ++ name ++ ".toISOString is not a function")) := by
  have hstarts : (c.cached rt).field "starts_at" = isoDay rt c.startsAt := rfl
  have hexpires : (c.cached rt).field "expires_at" = isoDay rt c.expiresAt := rfl
  rw [hstarts, hexpires]
  cases hs : c.startsAt with
  | some ms =>
    refine ⟨"startsAt", ?_⟩
    simp only [buildCouponConditions, boundPart_iso, bind, Except.bind]
  | none =>
    cases he : c.expiresAt with
    | none => exact absurd ⟨hs, he⟩ h
    | some ms =>
      refine ⟨"expiresAt", ?_⟩
      have hnone : boundPart rt "startsAt" "gte" (isoDay rt none) = .ok [] := rfl
      simp only [buildCouponConditions, hnone, boundPart_iso, bind, Except.bind]

theorem limitReached_error {n : ℕ} {limit : JsValue} {p : CouponUsageRow → Bool} {e : Failure}
    (h : limitReached rt db i n limit p = .error e) : e = .database := by
  by_cases hnull : limit.nullish = true
  · simp [limitReached, hnull, pure, Except.pure] at h
  · by_cases hfail : i.fails n = true
    · simp [limitReached, hnull, countUsages, hfail, bind, Except.bind] at h
      exact h.symm
    · simp [limitReached, hnull, countUsages, hfail, bind, Except.bind, pure, Except.pure] at h

theorem perUserLimitReached_error {coupon : JsValue} {e : Failure}
    (h : perUserLimitReached rt db i coupon customerId = .error e) : e = .database := by
  unfold perUserLimitReached at h
  split at h
  · cases h
  · exact limitReached_error h

theorem evaluateEligibility_error {c : CouponRow} {e : Failure}
    (h : evaluateEligibility rt db i c.record customerId dto = .error e) : e = .database := by
  obtain ⟨conditions, hconditions⟩ := conditions_record rt c (minCartValue rt c.record)
    (restrictionNode (restricted c.record .brand "brand_id")
      (restricted c.record .category "category_id"))
  simp only [evaluateEligibility, hconditions, bind, Except.bind] at h
  split at h
  · cases h
  · cases hused : usageLimitReached rt db i c.record with
    | error e' =>
      rw [hused] at h
      cases h
      exact limitReached_error hused
    | ok used =>
      cases huser : perUserLimitReached rt db i c.record customerId with
      | error e' =>
        cases used <;> simp [hused, huser, pure, Except.pure] at h
        rw [← h]
        exact perUserLimitReached_error huser
      | ok usedByUser =>
        cases used <;> cases usedByUser <;> simp [hused, huser, pure, Except.pure] at h

theorem validateRecord_error {c : CouponRow} {e : Failure}
    (h : validateRecord rt db i c.record customerId dto = .error e) : e = .database := by
  simp only [validateRecord] at h
  cases hresult : evaluateEligibility rt db i c.record customerId dto with
  | error e' =>
    rw [hresult] at h
    cases h
    exact evaluateEligibility_error hresult
  | ok result =>
    rw [hresult] at h
    cases heligible : result.eligible <;> simp [bind, Except.bind, heligible, pure, Except.pure] at h

theorem validateRecord_cached {c : CouponRow} (hs : c.startsAt = none) (he : c.expiresAt = none) :
    validateRecord rt db i (c.cached rt) customerId dto =
      validateRecord rt db i c.record customerId dto := by
  have hbrands : restricted (c.cached rt) .brand "brand_id" =
      restricted c.record .brand "brand_id" := restricted_cached c .brand fun _ => rfl
  have hcategories : restricted (c.cached rt) .category "category_id" =
      restricted c.record .category "category_id" := restricted_cached c .category fun _ => rfl
  have hstarts : (c.cached rt).field "starts_at" = c.record.field "starts_at" := by
    change isoDay rt c.startsAt = .day c.startsAt
    rw [hs]
    rfl
  have hexpires : (c.cached rt).field "expires_at" = c.record.field "expires_at" := by
    change isoDay rt c.expiresAt = .day c.expiresAt
    rw [he]
    rfl
  have hid : (c.cached rt).field "id" = c.record.field "id" := rfl
  have hcode : (c.cached rt).field "code" = c.record.field "code" := rfl
  have hlimit : (c.cached rt).field "usage_limit" = c.record.field "usage_limit" := rfl
  have huser : (c.cached rt).field "per_user_limit" = c.record.field "per_user_limit" := rfl
  have htype : (c.cached rt).field "discount_type" = c.record.field "discount_type" := rfl
  have hvalue : ((c.cached rt).field "discount_value").toNumber rt =
      (c.record.field "discount_value").toNumber rt := rfl
  have hmax : numberOrNull rt ((c.cached rt).field "max_discount") =
      numberOrNull rt (c.record.field "max_discount") := numberOrNull_cached c.maxDiscount
  simp only [validateRecord, evaluateEligibility, usageLimitReached, perUserLimitReached,
    minCartValue_cached, hbrands, hcategories, hstarts, hexpires, hid, hcode, hlimit, huser, htype,
    hvalue, hmax]

theorem validateRecord_cached_throws {c : CouponRow}
    (h : ¬ (c.startsAt = none ∧ c.expiresAt = none)) :
    ∃ message, validateRecord rt db i (c.cached rt) customerId dto = .error (.error message) := by
  obtain ⟨name, hname⟩ := conditions_cached rt c (minCartValue rt (c.cached rt))
    (restrictionNode (restricted (c.cached rt) .brand "brand_id")
      (restricted (c.cached rt) .category "category_id")) h
  refine ⟨"input." ++ name ++ ".toISOString is not a function", ?_⟩
  simp only [validateRecord, evaluateEligibility, hname, bind, Except.bind]

/-! ### With and without the cache -/

theorem loadCoupon_hit {store : CacheStore} {code : String} {hit : JsValue}
    (hget : i.redis.getFails = false) (hstore : store (couponKey rt code) = some hit) :
    loadCoupon rt db i code store = (.ok hit, store) := by
  simp [loadCoupon, CacheService.getOrSet, CacheService.get, hget, hstore]

theorem loadCoupon_miss {store : CacheStore} {c : CouponRow} {code : String}
    (hget : CacheService.get i.redis (couponKey rt code) store = none) (hfails : i.fails 0 = false)
    (hfind : findCoupon rt db code = some c) (hactive : c.status = .active) :
    (loadCoupon rt db i code store).1 = .ok c.record := by
  have hfactory : couponFactory rt db i code = .ok c.record := by
    simp [couponFactory, hfails, hfind, hactive]
  simp only [loadCoupon, CacheService.getOrSet, hget, hfactory]

theorem validate_eq (store : CacheStore) :
    (validate rt db i customerId dto store).1 =
      (loadCoupon rt db i dto.code store).1 >>= fun coupon =>
        validateRecord rt db i coupon customerId dto := by
  unfold validate
  rcases loadCoupon rt db i dto.code store with ⟨_ | _, _⟩ <;> rfl

/-- A call that finds the coupon in the cache answers, or throws, as a call that loads it
exactly when the coupon has no bound in time. -/
theorem validate_cached_iff {c : CouponRow} {store fresh : CacheStore}
    (hfind : findCoupon rt db dto.code = some c) (hactive : c.status = .active)
    (hstore : store (couponKey rt dto.code) = CacheService.entry rt c.record)
    (hfresh : fresh (couponKey rt dto.code) = none)
    (hget : i.redis.getFails = false) (hload : i.fails 0 = false) :
    (validate rt db i customerId dto store).1 = (validate rt db i customerId dto fresh).1 ↔
      c.startsAt = none ∧ c.expiresAt = none := by
  rw [entry_record] at hstore
  have hmiss : CacheService.get i.redis (couponKey rt dto.code) fresh = none := by
    simp [CacheService.get, hfresh]
  rw [validate_eq, validate_eq, loadCoupon_hit hget hstore,
    loadCoupon_miss hmiss hload hfind hactive]
  change validateRecord rt db i (c.cached rt) customerId dto =
    validateRecord rt db i c.record customerId dto ↔ _
  constructor
  · intro hsame
    by_contra hbound
    obtain ⟨message, hthrows⟩ : ∃ message,
        validateRecord rt db i (c.cached rt) customerId dto = .error (.error message) :=
      validateRecord_cached_throws hbound
    rw [hthrows] at hsame
    have hdatabase := validateRecord_error hsame.symm
    simp at hdatabase
  · intro ⟨hs, he⟩
    exact validateRecord_cached hs he

end Validate

/-! ### A coupon that expires -/

/-- Ten percent off, and the cache after it was loaded once. -/
def saveTen (expiresAt : Option ℤ) : CouponRow where
  id := "c1"
  code := "SAVE10"
  discountType := .percentage
  discountValue := "10"
  minCartValue := some "100"
  maxDiscount := some "500"
  expiresAt := expiresAt

def couponDesk (expiresAt : Option ℤ) : CouponDatabase := ⟨[saveTen expiresAt], []⟩

def saveTenCart : ValidateCouponDto where
  code := "save10"
  cartTotal := 1000

def warmCache (expiresAt : Option ℤ) : CacheStore :=
  (validate .plain (couponDesk expiresAt) {} none saveTenCart fun _ => none).2

theorem validate_cached_iff_lasting :
    (validate .plain (couponDesk none) {} none saveTenCart (warmCache none)).1 =
        (validate .plain (couponDesk none) {} none saveTenCart fun _ => none).1 ↔
      (saveTen none).startsAt = none ∧ (saveTen none).expiresAt = none :=
  validate_cached_iff rfl rfl rfl rfl rfl rfl

/-- The same call, before and after the coupon is in the cache. -/
theorem expiring_coupon_throws_from_cache :
    (validate .plain (couponDesk (some 0)) {} none saveTenCart fun _ => none).1.isOk = true ∧
      (validate .plain (couponDesk (some 0)) {} none saveTenCart (warmCache (some 0))).1 =
        .error (.error "input.expiresAt.toISOString is not a function") :=
  ⟨by decide +kernel, rfl⟩

end ElectronicsCart.Marketing
