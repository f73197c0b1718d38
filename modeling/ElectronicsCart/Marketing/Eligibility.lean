import ElectronicsCart.Marketing.CouponCache
import ElectronicsCart.Rules.Conditions

/-!
# Who may use a coupon

The limits of a coupon are compiled into a rule tree, which the rule engine evaluates, and into two
counts of usages.  Here they are read off the row and the cart directly, and the answer of `validate`
is compared with that.
-/

namespace ElectronicsCart.Marketing

open Rules Formulas

/-! ### The limits of a row -/

namespace CouponRow

def activeRules (c : CouponRow) : List CouponRuleRow :=
  c.rules.filter fun r => !r.deleted && r.status = .active

def brands (c : CouponRow) : List String :=
  c.activeRules.filterMap fun r => if r.ruleType = .brand then r.brandId else none

def categories (c : CouponRow) : List String :=
  c.activeRules.filterMap fun r => if r.ruleType = .category then r.categoryId else none

/-- The coupon's own minimum, else that of its first rule for one. -/
def minimum (c : CouponRow) : Option String :=
  c.minCartValue.or ((c.activeRules.find? fun r => r.ruleType = .minCartValue).bind
    CouponRuleRow.ruleValue)

end CouponRow

def CouponDatabase.used (db : CouponDatabase) (couponId : String) : ℕ :=
  db.usages.countP fun u => u.couponId == couponId && !u.deleted

def CouponDatabase.usedBy (db : CouponDatabase) (couponId customer : String) : ℕ :=
  db.usages.countP fun u => (u.couponId == couponId && !u.deleted) && u.userId == some customer

/-- None is asked for, or one of them is in the cart. -/
def Covers (wanted : List String) (cart : Option (List String)) : Prop :=
  wanted = [] ∨ ∃ id ∈ wanted, id ∈ cart.getD []

structure MeetsRules (rt : Runtime) (c : CouponRow) (now : ℤ) (dto : ValidateCouponDto) : Prop where
  minimum : ∀ text least, c.minimum = some text → rt.numberOf text = .finite least →
    least ≤ dto.cartTotal
  started : ∀ ms, c.startsAt = some ms → ms ≤ now
  unexpired : ∀ ms, c.expiresAt = some ms → now ≤ ms
  brands : Covers c.brands dto.brandIds
  categories : Covers c.categories dto.categoryIds

structure HasUsesLeft (db : CouponDatabase) (c : CouponRow) (customerId : Option String) : Prop where
  all : ∀ limit, c.usageLimit = some limit → (db.used c.id : ℤ) < limit
  customer : ∀ limit customer, c.perUserLimit = some limit → truthy customerId = some customer →
    (db.usedBy c.id customer : ℤ) < limit

/-! ### What is known of the values -/

def isHex (c : Char) : Bool :=
  c.isDigit || (decide ('a' ≤ c) && decide (c ≤ 'f')) || (decide ('A' ≤ c) && decide (c ≤ 'F'))

/-- 36 characters: hexadecimal digits, and four dashes in their places. -/
def isUuid (s : String) : Bool :=
  s.toList.length == 36 && s.toList.zipIdx.all fun (c, k) =>
    if [8, 13, 18, 23].contains k then c == '-' else isHex c

/-- Decimal columns are numbers, and the dates of the coupon and of the call are read back from the
texts that `toISOString` gives. -/
structure Readable (rt : Runtime) (c : CouponRow) (now : ℤ) : Prop where
  decimals : ∀ text, text = c.discountValue ∨ c.maxDiscount = some text ∨ c.minimum = some text →
    ∃ q, rt.numberOf text = .finite q
  dates : ∀ ms, ms = now ∨ c.startsAt = some ms ∨ c.expiresAt = some ms →
    rt.dateParse (rt.toISOString ms) = some ms ∧ startsLikeDate (rt.toISOString ms) = true

theorem startsLikeDate_uuid {s : String} (h : isUuid s = true) : startsLikeDate s = false := by
  obtain ⟨-, hchars⟩ := (Bool.and_eq_true _ _).mp h
  unfold startsLikeDate
  split
  next a b c d e f g h i j rest hs =>
    rw [hs] at hchars
    have hfifth : isHex e = true := by
      have hmem : (e, 4) ∈ (a :: b :: c :: d :: e :: f :: g :: h :: i :: j :: rest).zipIdx := by
        simp [List.zipIdx_cons]
      exact List.all_eq_true.mp hchars _ hmem
    have hdash : (e == '-') = false := by
      refine beq_eq_false_iff_ne.mpr fun he => ?_
      rw [he] at hfifth
      revert hfifth
      decide
    rw [hdash, Bool.and_false, Bool.false_and]
  next => rfl

/-! ### The rule tree as a formula -/

section Compiled

def leafOf (field operator : String) (expected : JsValue) : Formula LeafFields :=
  .leaf [("field", .string field), (operator, expected)]

def minimumPart (rt : Runtime) (text : Option String) : List (Formula LeafFields) :=
  (text.map fun text => leafOf "cart.total" "gte" (.number (rt.numberOf text))).toList

def timePart (rt : Runtime) (operator : String) (bound : Option ℤ) : List (Formula LeafFields) :=
  (bound.map fun ms => leafOf "now" operator (.string (rt.toISOString ms))).toList

def idsPart (field : String) (ids : List String) : List (Formula LeafFields) :=
  if ids.isEmpty then [] else [.any (ids.map fun id => leafOf field "contains" (.string id))]

def couponParts (rt : Runtime) (c : CouponRow) : List (Formula LeafFields) :=
  minimumPart rt c.minimum ++ timePart rt "gte" c.startsAt ++ timePart rt "lte" c.expiresAt ++
    Formula.conjunct (idsPart "cart.brandIds" c.brands ++ idsPart "cart.categoryIds" c.categories)

variable {rt : Runtime} {c : CouponRow}

theorem isText_type (type type' : CouponRuleType) :
    isText type.text (.string type'.text) = decide (type' = type) := by
  cases type <;> cases type' <;> decide

theorem numberOrNull_decimal (o : Option String) :
    numberOrNull rt (decimalOf o) = o.map rt.numberOf := by
  cases o <;> rfl

theorem minCartRule_record : numberOrNull rt (minCartRule c.record) =
    ((c.activeRules.find? fun r => r.ruleType = .minCartValue).bind CouponRuleRow.ruleValue).map
      rt.numberOf := by
  have hrules : c.record.field "rules" = .array (c.activeRules.map CouponRuleRow.record) := rfl
  have htype : ∀ r : CouponRuleRow, isText CouponRuleType.minCartValue.text
      (r.record.field "rule_type") = decide (r.ruleType = .minCartValue) :=
    fun r => isText_type .minCartValue r.ruleType
  simp only [minCartRule, hrules, elements, List.find?_map, Function.comp_def, htype]
  cases c.activeRules.find? fun r => r.ruleType = .minCartValue with
  | none => rfl
  | some r => exact numberOrNull_decimal r.ruleValue

theorem minCartValue_record : minCartValue rt c.record = c.minimum.map rt.numberOf := by
  have hown : c.record.field "min_cart_value" = decimalOf c.minCartValue := rfl
  rw [minCartValue, hown, numberOrNull_decimal, minCartRule_record, CouponRow.minimum, Option.map_or]

theorem restricted_record {type : CouponRuleType} {key : String} {id? : CouponRuleRow → Option String}
    (hkey : ∀ r : CouponRuleRow, r.record.field key = .str (id? r))
    (hids : ∀ id ∈ c.activeRules.filterMap fun r => if r.ruleType = type then id? r else none,
      id ≠ "") :
    restricted c.record type key =
      (c.activeRules.filterMap fun r => if r.ruleType = type then id? r else none).map .string := by
  have hrules : c.record.field "rules" = .array (c.activeRules.map CouponRuleRow.record) := rfl
  have htype : ∀ r : CouponRuleRow, isText type.text (r.record.field "rule_type") =
      decide (r.ruleType = type) := fun r => isText_type type r.ruleType
  simp only [restricted, hrules, elements]
  generalize c.activeRules = rules at hids
  induction rules with
  | nil => rfl
  | cons r rules ih =>
    have hrest := ih fun id hid => hids id (by
      rw [List.filterMap_cons]
      split
      · exact hid
      · exact List.mem_cons_of_mem _ hid)
    rw [List.map_cons, List.filter_cons, htype, hkey, List.filterMap_cons]
    by_cases ht : r.ruleType = type
    · cases hid : id? r with
      | none => simpa [ht, hid, JsValue.str, JsValue.truthy] using hrest
      | some id =>
        have hne : id ≠ "" := hids id (by simp [ht, hid])
        have htruthy : (JsValue.string id).truthy = true := by simpa [JsValue.truthy] using hne
        simp [ht, JsValue.str, htruthy, hkey, hid, hrest]
    · simpa [ht] using hrest

theorem treeOf_conjoin (fs : List (Formula LeafFields)) : treeOf (Formula.conjoin fs) =
    match fs.map treeOf with
    | [part] => part
    | parts => groupNode "all" parts := by
  match fs with
  | [] => rfl
  | [f] => rfl
  | f :: g :: fs =>
    simp only [Formula.conjoin, treeOf, treesOf_eq, List.map_cons]
    rfl

theorem anyOf_ids (field : String) (ids : List String) :
    anyOf field (ids.map .string) = (idsPart field ids).map treeOf := by
  cases ids with
  | nil => rfl
  | cons id ids =>
    simp only [anyOf, idsPart, List.map_cons, List.isEmpty_cons, Bool.false_eq_true, if_false,
      List.map_nil, treeOf, treesOf_eq, List.map_map]
    rfl

theorem restrictionNode_toList (brands categories : List String) :
    (restrictionNode (brands.map .string) (categories.map .string)).toList =
      (Formula.conjunct (idsPart "cart.brandIds" brands ++
        idsPart "cart.categoryIds" categories)).map treeOf := by
  rw [restrictionNode, anyOf_ids, anyOf_ids, ← List.map_append]
  match idsPart "cart.brandIds" brands ++ idsPart "cart.categoryIds" categories with
  | [] => rfl
  | [f] => rfl
  | f :: g :: fs =>
    simp only [Formula.conjunct, List.cons_ne_nil, if_false, List.map_cons, List.map_nil,
      treeOf_conjoin]
    rfl

theorem boundPart_time (name operator : String) (bound : Option ℤ) :
    boundPart rt name operator (.day bound) = .ok ((timePart rt operator bound).map treeOf) := by
  cases bound <;> rfl

theorem buildCouponConditions_eq (extra : Option JsValue) (brands categories : List String)
    (hextra : extra = restrictionNode (brands.map .string) (categories.map .string))
    (minimum : Option String) (startsAt expiresAt : Option ℤ) :
    buildCouponConditions rt (minimum.map rt.numberOf) (.day startsAt) (.day expiresAt) extra =
      .ok (treeOf (Formula.conjoin (minimumPart rt minimum ++ timePart rt "gte" startsAt ++
        timePart rt "lte" expiresAt ++ Formula.conjunct (idsPart "cart.brandIds" brands ++
          idsPart "cart.categoryIds" categories)))) := by
  have hminimum : ((minimum.map rt.numberOf).map fun n =>
      condition "cart.total" "gte" (.number n)).toList = (minimumPart rt minimum).map treeOf := by
    cases minimum <;> rfl
  subst hextra
  simp only [buildCouponConditions, boundPart_time, restrictionNode_toList, hminimum, bind,
    Except.bind, ← List.map_append, treeOf_conjoin]
  generalize List.map treeOf _ = parts
  match parts with
  | [] => rfl
  | [part] => rfl
  | part :: part' :: rest => rfl

end Compiled

/-! ### The verdicts of the leaves -/

section Leaves

variable {rt : Runtime} {c : CouponRow} {i : ValidateInput} {customerId : Option String}
  {dto : ValidateCouponDto}

theorem operatorResult_leaf {facts expected : JsValue} {field operator : String}
    {op : Runtime → OperatorContext → OperatorEvalResult} (hne : operator ≠ "field")
    (hop : defaultOperators.lookup operator = some op) :
    operatorResult rt facts [("field", .string field), (operator, expected)] =
      some (op rt { field, actual := walk facts (pathParts field), expected }) := by
  have hkeys : operatorKeys [("field", .string field), (operator, expected)] = [operator] := by
    simp [operatorKeys, keysOf, hne]
  have hexpected : ([("field", .string field), (operator, expected)] : LeafFields).lookup operator =
      some expected := by
    rw [Rules.lookup_cons, if_neg (Ne.symm hne), Rules.lookup_cons, if_pos rfl]
  have hfield : leafField rt [("field", .string field), (operator, expected)] = field := rfl
  simp [operatorResult, leafOperator, hkeys, hexpected, hfield, hop]

theorem walk_total : walk (couponFacts rt i customerId dto) (pathParts "cart.total") =
    .number (.finite dto.cartTotal) := by
  have hparts : pathParts "cart.total" = ["cart", "total"] := rfl
  rw [hparts]
  rfl

theorem walk_now : walk (couponFacts rt i customerId dto) (pathParts "now") =
    .string (rt.toISOString i.now) := by
  have hparts : pathParts "now" = ["now"] := rfl
  rw [hparts]
  rfl

theorem walk_brands : walk (couponFacts rt i customerId dto) (pathParts "cart.brandIds") =
    texts dto.brandIds := by
  have hparts : pathParts "cart.brandIds" = ["cart", "brandIds"] := rfl
  rw [hparts]
  rfl

theorem walk_categories : walk (couponFacts rt i customerId dto) (pathParts "cart.categoryIds") =
    texts dto.categoryIds := by
  have hparts : pathParts "cart.categoryIds" = ["cart", "categoryIds"] := rfl
  rw [hparts]
  rfl

theorem toComparable_iso {ms : ℤ} (hparse : rt.dateParse (rt.toISOString ms) = some ms)
    (hlike : startsLikeDate (rt.toISOString ms) = true) :
    toComparable rt (.string (rt.toISOString ms)) = .date (some ms) := by
  simp only [toComparable, hparse, hlike, if_true]

theorem toComparable_undated {s : String} (h : startsLikeDate s = false) :
    toComparable rt (.string s) = .string s := by
  simp only [toComparable, h]
  split <;> rfl

theorem valuesEqual_uuid {s id : String} (h : isUuid id = true) :
    valuesEqual rt (.string s) (.string id) = (s == id) := by
  have hid : toComparable rt (.string id) = .string id := toComparable_undated (startsLikeDate_uuid h)
  cases hs : startsLikeDate s with
  | false => simp only [valuesEqual, toComparable_undated hs, hid]
  | true =>
    have hne : s ≠ id := by
      intro he
      rw [he, startsLikeDate_uuid h] at hs
      cases hs
    cases hparse : rt.dateParse s with
    | none =>
      have hcomparable : toComparable rt (.string s) = .string s := by
        simp only [toComparable, hparse]
      simp only [valuesEqual, hcomparable, hid]
    | some ms =>
      have hcomparable : toComparable rt (.string s) = .date (some ms) := by
        simp only [toComparable, hparse, hs, if_true]
      simp only [valuesEqual, hcomparable, hid]
      exact (beq_eq_false_iff_ne.mpr hne).symm

/-- The result of an operator that reports no error. -/
def Judges (facts : JsValue) (rt : Runtime) (fields : LeafFields) (holds : Prop) : Prop :=
  ∃ r, operatorResult rt facts fields = some r ∧ r.error = none ∧ (r.matched = true ↔ holds)

theorem Judges.leafHolds {facts : JsValue} {fields : LeafFields} {holds : Prop}
    (h : Judges facts rt fields holds) : leafHolds rt facts fields = true ↔ holds := by
  obtain ⟨r, hr, -, hmatched⟩ := h
  rw [Rules.leafHolds, hr]
  exact hmatched

theorem judges_minimum {text : String} {least : ℚ} (h : rt.numberOf text = .finite least) :
    Judges (couponFacts rt i customerId dto) rt
      [("field", .string "cart.total"), ("gte", .number (rt.numberOf text))]
      (least ≤ dto.cartTotal) := by
  refine ⟨_, operatorResult_leaf (by decide) rfl, ?_⟩
  rw [walk_total, h]
  refine ⟨rfl, ?_⟩
  show decide (0 ≤ dto.cartTotal - least) = true ↔ _
  rw [decide_eq_true_eq, sub_nonneg]

section Dates

variable {ms : ℤ} (hnow : rt.dateParse (rt.toISOString i.now) = some i.now ∧
    startsLikeDate (rt.toISOString i.now) = true)
  (hms : rt.dateParse (rt.toISOString ms) = some ms ∧ startsLikeDate (rt.toISOString ms) = true)

theorem compare_dates {a b : ℤ}
    (ha : rt.dateParse (rt.toISOString a) = some a ∧ startsLikeDate (rt.toISOString a) = true)
    (hb : rt.dateParse (rt.toISOString b) = some b ∧ startsLikeDate (rt.toISOString b) = true) :
    compareOrdered rt (.string (rt.toISOString a)) (.string (rt.toISOString b)) =
      .ok (some ((a : ℚ) - b)) := by
  simp only [compareOrdered, toComparable_iso ha.1 ha.2, toComparable_iso hb.1 hb.2, Option.bind_some,
    Option.map_some]

include hnow hms

theorem judges_started : Judges (couponFacts rt i customerId dto) rt
    [("field", .string "now"), ("gte", .string (rt.toISOString ms))] (ms ≤ i.now) := by
  refine ⟨_, operatorResult_leaf (by decide) rfl, ?_⟩
  rw [walk_now, gteOperator, cmpOp, compare_dates hnow hms]
  refine ⟨rfl, ?_⟩
  show decide ((0 : ℚ) ≤ (i.now : ℚ) - ms) = true ↔ _
  rw [decide_eq_true_eq, sub_nonneg, Rat.intCast_le_intCast]

theorem judges_unexpired : Judges (couponFacts rt i customerId dto) rt
    [("field", .string "now"), ("lte", .string (rt.toISOString ms))] (i.now ≤ ms) := by
  refine ⟨_, operatorResult_leaf (by decide) rfl, ?_⟩
  rw [walk_now, lteOperator, cmpOp, compare_dates hnow hms]
  refine ⟨rfl, ?_⟩
  show decide ((i.now : ℚ) - ms ≤ 0) = true ↔ _
  rw [decide_eq_true_eq, sub_nonpos, Rat.intCast_le_intCast]

end Dates

theorem judges_contains {facts : JsValue} {field id : String} {cart : Option (List String)}
    (hwalk : walk facts (pathParts field) = texts cart) (hid : isUuid id = true) :
    Judges facts rt [("field", .string field), ("contains", .string id)] (id ∈ cart.getD []) := by
  refine ⟨_, operatorResult_leaf (by decide) rfl, ?_⟩
  rw [hwalk]
  refine ⟨rfl, ?_⟩
  show (((cart.getD []).map JsValue.string).any fun v => valuesEqual rt v (.string id)) = true ↔ _
  simp only [List.any_map, List.any_eq_true, Function.comp_apply, valuesEqual_uuid hid, beq_iff_eq]
  constructor
  · rintro ⟨s, hs, rfl⟩
    exact hs
  · exact fun h => ⟨id, h, rfl⟩

theorem validLeaf_condition {field operator : String} {expected : JsValue} (hfield : field ≠ "")
    (hop : operator ∈ ["gte", "lte", "contains"]) :
    ValidLeaf [("field", .string field), (operator, expected)] := by
  have hempty : ∀ {α : Type} (x y : α), (if field = "" then x else y) = y := fun x y => if_neg hfield
  simp only [List.mem_cons, List.not_mem_nil, or_false] at hop
  rcases hop with rfl | rfl | rfl <;> exact ⟨⟨"$", hempty _ _⟩, rfl, rfl, rfl⟩

end Leaves

/-! ### The rules -/

section Meaning

variable {rt : Runtime} {c : CouponRow} {i : ValidateInput} {customerId : Option String}
  {dto : ValidateCouponDto}

inductive Limit (rt : Runtime) (c : CouponRow) : LeafFields → Prop
  | minimum {text : String} : c.minimum = some text →
    Limit rt c [("field", .string "cart.total"), ("gte", .number (rt.numberOf text))]
  | started {ms : ℤ} : c.startsAt = some ms →
    Limit rt c [("field", .string "now"), ("gte", .string (rt.toISOString ms))]
  | unexpired {ms : ℤ} : c.expiresAt = some ms →
    Limit rt c [("field", .string "now"), ("lte", .string (rt.toISOString ms))]
  | brand {id : String} : id ∈ c.brands →
    Limit rt c [("field", .string "cart.brandIds"), ("contains", .string id)]
  | category {id : String} : id ∈ c.categories →
    Limit rt c [("field", .string "cart.categoryIds"), ("contains", .string id)]

theorem mem_leaves_ids {field : String} {ids : List String} {l : LeafFields}
    (h : ∃ f ∈ idsPart field ids, l ∈ f.leaves) :
    ∃ id ∈ ids, l = [("field", .string field), ("contains", .string id)] := by
  obtain ⟨f, hf, hl⟩ := h
  unfold idsPart at hf
  split at hf
  · cases hf
  · obtain rfl := List.mem_singleton.mp hf
    obtain ⟨g, hg, hl⟩ := mem_leavesOf.mp hl
    obtain ⟨id, hid, rfl⟩ := List.mem_map.mp hg
    exact ⟨id, hid, List.mem_singleton.mp hl⟩

theorem mem_leaves_coupon {l : LeafFields}
    (hl : l ∈ (Formula.conjoin (couponParts rt c)).leaves) : Limit rt c l := by
  obtain ⟨f, hf, hl⟩ := mem_leaves_conjoin.mp hl
  simp only [couponParts, List.mem_append] at hf
  rcases hf with ((hf | hf) | hf) | hf
  · obtain ⟨text, htext, rfl⟩ := Option.map_eq_some_iff.mp (Option.mem_toList.mp hf)
    obtain rfl := List.mem_singleton.mp hl
    exact .minimum htext
  · obtain ⟨ms, hms, rfl⟩ := Option.map_eq_some_iff.mp (Option.mem_toList.mp hf)
    obtain rfl := List.mem_singleton.mp hl
    exact .started hms
  · obtain ⟨ms, hms, rfl⟩ := Option.map_eq_some_iff.mp (Option.mem_toList.mp hf)
    obtain rfl := List.mem_singleton.mp hl
    exact .unexpired hms
  · obtain ⟨f, hf, hl⟩ := mem_leaves_conjunct.mp ⟨f, hf, hl⟩
    rcases List.mem_append.mp hf with hf | hf
    · obtain ⟨id, hid, rfl⟩ := mem_leaves_ids ⟨f, hf, hl⟩
      exact .brand hid
    · obtain ⟨id, hid, rfl⟩ := mem_leaves_ids ⟨f, hf, hl⟩
      exact .category hid

theorem Limit.valid {l : LeafFields} (h : Limit rt c l) :
    ValidLeaf l ∧ isValidPath (leafField rt l) = true := by
  have htotal : isValidPath "cart.total" = true := rfl
  have hnow : isValidPath "now" = true := rfl
  have hbrands : isValidPath "cart.brandIds" = true := rfl
  have hcategories : isValidPath "cart.categoryIds" = true := rfl
  cases h with
  | minimum _ => exact ⟨validLeaf_condition (by decide) (by decide), htotal⟩
  | started _ => exact ⟨validLeaf_condition (by decide) (by decide), hnow⟩
  | unexpired _ => exact ⟨validLeaf_condition (by decide) (by decide), hnow⟩
  | brand _ => exact ⟨validLeaf_condition (by decide) (by decide), hbrands⟩
  | category _ => exact ⟨validLeaf_condition (by decide) (by decide), hcategories⟩

variable (hread : Readable rt c i.now)
  (hids : ∀ id ∈ c.brands ++ c.categories, isUuid id = true)

include hread hids

theorem Limit.judged {l : LeafFields} (h : Limit rt c l) :
    ∃ holds, Judges (couponFacts rt i customerId dto) rt l holds := by
  have hnow := hread.dates i.now (.inl rfl)
  cases h with
  | minimum htext =>
    obtain ⟨least, hleast⟩ := hread.decimals _ (.inr (.inr htext))
    exact ⟨_, judges_minimum hleast⟩
  | started hms => exact ⟨_, judges_started hnow (hread.dates _ (.inr (.inl hms)))⟩
  | unexpired hms => exact ⟨_, judges_unexpired hnow (hread.dates _ (.inr (.inr hms)))⟩
  | brand hid => exact ⟨_, judges_contains walk_brands (hids _ (List.mem_append_left _ hid))⟩
  | category hid => exact ⟨_, judges_contains walk_categories (hids _ (List.mem_append_right _ hid))⟩

omit hids in
theorem minimum_holds : (minimumPart rt c.minimum).all
      (Formula.meaning (leafHolds rt (couponFacts rt i customerId dto))) = true ↔
    ∀ text least, c.minimum = some text → rt.numberOf text = .finite least →
      least ≤ dto.cartTotal := by
  cases htext : c.minimum with
  | none => exact ⟨fun _ text _ h => (nomatch h), fun _ => rfl⟩
  | some text =>
    obtain ⟨least, hleast⟩ := hread.decimals text (.inr (.inr htext))
    have hjudged : leafHolds rt (couponFacts rt i customerId dto)
        [("field", .string "cart.total"), ("gte", .number (rt.numberOf text))] = true ↔
        least ≤ dto.cartTotal := (judges_minimum hleast).leafHolds
    simp only [minimumPart, Option.map_some, Option.toList_some, List.all_cons, List.all_nil,
      Bool.and_true, leafOf, Formula.meaning, hjudged]
    constructor
    · intro h text' least' htext' hleast'
      obtain rfl := Option.some.inj htext'
      obtain rfl := JsNumber.finite.inj (hleast.symm.trans hleast')
      exact h
    · exact fun h => h text least rfl hleast

omit hread hids in
theorem time_holds {operator : String} {bound : Option ℤ} {holds : ℤ → Prop}
    (hjudged : ∀ ms, bound = some ms → Judges (couponFacts rt i customerId dto) rt
      [("field", .string "now"), (operator, .string (rt.toISOString ms))] (holds ms)) :
    (timePart rt operator bound).all
        (Formula.meaning (leafHolds rt (couponFacts rt i customerId dto))) = true ↔
      ∀ ms, bound = some ms → holds ms := by
  cases bound with
  | none => exact ⟨fun _ ms h => (nomatch h), fun _ => rfl⟩
  | some ms =>
    simp only [timePart, Option.map_some, Option.toList_some, List.all_cons, List.all_nil,
      Bool.and_true, leafOf, Formula.meaning, (hjudged ms rfl).leafHolds, Option.some.injEq,
      forall_eq']

omit hread hids in
theorem ids_hold {field : String} {ids : List String} {cart : Option (List String)}
    (hjudged : ∀ id ∈ ids, Judges (couponFacts rt i customerId dto) rt
      [("field", .string field), ("contains", .string id)] (id ∈ cart.getD [])) :
    (idsPart field ids).all (Formula.meaning (leafHolds rt (couponFacts rt i customerId dto))) =
      true ↔ Covers ids cart := by
  cases ids with
  | nil => exact ⟨fun _ => .inl rfl, fun _ => rfl⟩
  | cons id ids =>
    have hleaf : ∀ id' ∈ id :: ids, Formula.meaning (leafHolds rt (couponFacts rt i customerId dto))
        (leafOf field "contains" (.string id')) = true ↔ id' ∈ cart.getD [] :=
      fun id' hid => (hjudged id' hid).leafHolds
    have hcovers : Covers (id :: ids) cart ↔ ∃ id' ∈ id :: ids, id' ∈ cart.getD [] := by
      unfold Covers
      simp
    rw [hcovers, idsPart, List.isEmpty_cons, if_neg Bool.false_ne_true, List.all_cons, List.all_nil,
      Bool.and_true, Formula.meaning, meanings_eq, List.map_map, List.any_map, List.any_eq_true]
    refine exists_congr fun id' => and_congr_right fun hid => ?_
    exact hleaf id' hid

theorem coupon_meaning : (Formula.conjoin (couponParts rt c)).meaning
      (leafHolds rt (couponFacts rt i customerId dto)) = true ↔ MeetsRules rt c i.now dto := by
  have hnow := hread.dates i.now (.inl rfl)
  rw [meaning_conjoin, couponParts, List.all_append, List.all_append, List.all_append,
    all_meaning_conjunct, List.all_append]
  simp only [Bool.and_eq_true]
  rw [minimum_holds hread,
    time_holds fun ms hms => judges_started hnow (hread.dates ms (.inr (.inl hms))),
    time_holds fun ms hms => judges_unexpired hnow (hread.dates ms (.inr (.inr hms))),
    ids_hold fun id hid => judges_contains walk_brands (hids id (List.mem_append_left _ hid)),
    ids_hold fun id hid => judges_contains walk_categories (hids id (List.mem_append_right _ hid))]
  constructor
  · rintro ⟨⟨⟨hleast, hfrom⟩, hto⟩, hbrand, hcategory⟩
    exact ⟨hleast, hfrom, hto, hbrand, hcategory⟩
  · intro h
    exact ⟨⟨⟨h.minimum, h.started⟩, h.unexpired⟩, h.brands, h.categories⟩

theorem evaluate_coupon : ∃ tree,
    buildCouponConditions rt (minCartValue rt c.record) (c.record.field "starts_at")
      (c.record.field "expires_at") (restrictionNode (restricted c.record .brand "brand_id")
        (restricted c.record .category "category_id")) = .ok tree ∧
    (Rules.evaluate rt tree (couponFacts rt i customerId dto) {}).errors = none ∧
    ((Rules.evaluate rt tree (couponFacts rt i customerId dto) {}).matched = true ↔
      MeetsRules rt c i.now dto) := by
  have hne : ∀ id ∈ c.brands ++ c.categories, id ≠ "" := by
    rintro id hid rfl
    have huuid := hids "" hid
    revert huuid
    decide
  have hbrands : restricted c.record .brand "brand_id" = c.brands.map .string :=
    restricted_record (fun _ => rfl) fun id hid => hne id (List.mem_append_left _ hid)
  have hcategories : restricted c.record .category "category_id" = c.categories.map .string :=
    restricted_record (fun _ => rfl) fun id hid => hne id (List.mem_append_right _ hid)
  refine ⟨treeOf (Formula.conjoin (couponParts rt c)), ?_, ?_⟩
  · rw [minCartValue_record, hbrands, hcategories]
    exact buildCouponConditions_eq _ _ _ rfl _ _ _
  · obtain ⟨haccepted, htree⟩ := treeOf_spec (Formula.conjoin (couponParts rt c)) fun l hl =>
      (mem_leaves_coupon hl).valid.1
    have hreports : ∀ l ∈ (conditionOf (treeOf (Formula.conjoin (couponParts rt c)))).leaves,
        ∀ r, operatorResult rt (couponFacts rt i customerId dto) l = some r → r.error = none := by
      intro l hl r hr
      obtain ⟨holds, r', hr', herror, -⟩ := (mem_leaves_coupon (htree ▸ hl)).judged hread hids
      obtain rfl := Option.some.inj (hr.symm.trans hr')
      exact herror
    obtain ⟨hmatched, herrors⟩ := matched_eq_meaning rt {} (treeOf (Formula.conjoin (couponParts rt c)))
      _ (haccepted "$") (fun l hl => (mem_leaves_coupon (htree ▸ hl)).valid.2) hreports
    refine ⟨herrors, ?_⟩
    rw [htree] at hmatched
    exact (Bool.eq_iff_iff.mp hmatched).trans (coupon_meaning hread hids)

end Meaning

/-! ### The counts -/

section Counts

variable {rt : Runtime} {db : CouponDatabase} {i : ValidateInput} {c : CouponRow}
  {customerId : Option String}

theorem limitReached_counted {n : ℕ} (hfails : i.fails n = false) (limit : Option ℤ)
    (p : CouponUsageRow → Bool) : ∃ reached, limitReached rt db i n (intOf limit) p = .ok reached ∧
      (reached = false ↔ ∀ m, limit = some m → (db.usages.countP p : ℤ) < m) := by
  cases limit with
  | none => exact ⟨false, rfl, fun _ m hm => (nomatch hm), fun _ => rfl⟩
  | some m =>
    refine ⟨decide ((m : ℚ) ≤ (db.usages.countP p : ℕ)), ?_, ?_⟩
    · simp only [limitReached, intOf, JsValue.nullish, countUsages, hfails, Bool.false_eq_true,
        if_false]
      rfl
    · have hcast : (m : ℚ) ≤ (db.usages.countP p : ℕ) ↔ m ≤ (db.usages.countP p : ℤ) := by
        rw [← Rat.intCast_natCast, Rat.intCast_le_intCast]
      rw [decide_eq_false_iff_not, hcast, not_le]
      constructor
      · intro h m' hm'
        obtain rfl := Option.some.inj hm'
        exact h
      · exact fun h => h m rfl

theorem usageOf_id (u : CouponUsageRow) :
    usageOf (.string c.id) u = (u.couponId == c.id && !u.deleted) := by
  show (c.id == u.couponId && !u.deleted) = _
  rw [BEq.comm]

theorem usageLimitReached_counted (hfails : ∀ n, i.fails n = false) :
    ∃ reached, usageLimitReached rt db i c.record = .ok reached ∧
      (reached = false ↔ ∀ m, c.usageLimit = some m → (db.used c.id : ℤ) < m) := by
  have hcount : db.usages.countP (usageOf (.string c.id)) = db.used c.id :=
    List.countP_congr fun u _ => by rw [usageOf_id]
  have hcounted : ∃ reached, usageLimitReached rt db i c.record = .ok reached ∧
      (reached = false ↔ ∀ m, c.usageLimit = some m →
        (db.usages.countP (usageOf (.string c.id)) : ℤ) < m) := limitReached_counted (hfails 1) _ _
  rwa [hcount] at hcounted

theorem perUserLimitReached_counted (hfails : ∀ n, i.fails n = false) :
    ∃ reached, perUserLimitReached rt db i c.record customerId = .ok reached ∧
      (reached = false ↔ ∀ m customer, c.perUserLimit = some m → truthy customerId = some customer →
        (db.usedBy c.id customer : ℤ) < m) := by
  unfold perUserLimitReached
  cases hcustomer : truthy customerId with
  | none => exact ⟨false, rfl, fun _ m customer _ h => (nomatch h), fun _ => rfl⟩
  | some customer =>
    have hcount : db.usages.countP (fun u => usageOf (.string c.id) u && u.userId == some customer) =
        db.usedBy c.id customer := List.countP_congr fun u _ => by rw [usageOf_id]
    obtain ⟨reached, hreached, hiff⟩ : ∃ reached, limitReached rt db i 2 (intOf c.perUserLimit)
          (fun u => usageOf (.string c.id) u && u.userId == some customer) = .ok reached ∧
        (reached = false ↔ ∀ m, c.perUserLimit = some m →
          (db.usages.countP (fun u => usageOf (.string c.id) u && u.userId == some customer) : ℤ) < m) :=
      limitReached_counted (hfails 2) _ _
    rw [hcount] at hiff
    refine ⟨reached, hreached, hiff.trans ?_⟩
    constructor
    · intro h m customer' hm hcustomer'
      obtain rfl := Option.some.inj hcustomer'
      exact h m hm
    · exact fun h m hm => h m customer hm rfl

end Counts

/-! ### The discount -/

theorem clamped_bounds (amount : ℚ) {cartTotal : ℚ} (htotal : 0 ≤ cartTotal) :
    ∃ d, JsNumber.max (.finite 0) ((JsNumber.finite amount).min (.finite cartTotal)) = .finite d ∧
      0 ≤ d ∧ d ≤ cartTotal ∧ (d ≤ amount ∨ d = 0) := by
  refine ⟨_, rfl, ?_⟩
  by_cases hcart : amount ≤ cartTotal
  · rw [if_pos hcart]
    by_cases hpos : 0 ≤ amount
    · rw [if_pos hpos]
      exact ⟨hpos, hcart, .inl le_rfl⟩
    · rw [if_neg hpos]
      exact ⟨le_rfl, htotal, .inr rfl⟩
  · rw [if_neg hcart, if_pos htotal]
    exact ⟨htotal, le_rfl, .inl (le_of_not_ge hcart)⟩

theorem computeCouponDiscount_bounds (type : JsValue) (value : ℚ) {cartTotal : ℚ}
    {limit : Option JsNumber} (htotal : 0 ≤ cartTotal)
    (hlimit : ∀ n, limit = some n → ∃ q, n = .finite q) :
    ∃ d, computeCouponDiscount type (.finite value) cartTotal limit = .finite d ∧ 0 ≤ d ∧
      d ≤ cartTotal ∧ ∀ q, limit = some (.finite q) → 0 ≤ q → d ≤ q := by
  obtain ⟨amount, hamount⟩ : ∃ amount : ℚ, ∀ limit, computeCouponDiscount type (.finite value)
      cartTotal limit = JsNumber.max (.finite 0) ((limit.elim (.finite amount)
        (JsNumber.finite amount).min).min (.finite cartTotal)) := by
    unfold computeCouponDiscount
    split
    · exact ⟨cartTotal * value / 100, Option.rec rfl fun _ => rfl⟩
    · exact ⟨value, Option.rec rfl fun _ => rfl⟩
  rw [hamount]
  cases limit with
  | none =>
    obtain ⟨d, hd, hnonneg, hcart, -⟩ := clamped_bounds amount htotal
    exact ⟨d, hd, hnonneg, hcart, fun q hq => by cases hq⟩
  | some n =>
    obtain ⟨q, rfl⟩ := hlimit n rfl
    obtain ⟨d, hd, hnonneg, hcart, hle⟩ := clamped_bounds (if amount ≤ q then amount else q) htotal
    refine ⟨d, hd, hnonneg, hcart, fun q' hq' hpos => ?_⟩
    obtain rfl := JsNumber.finite.inj (Option.some.inj hq')
    rcases hle with hle | rfl
    · by_cases hq : amount ≤ q
      · rw [if_pos hq] at hle
        exact hle.trans hq
      · rwa [if_neg hq] at hle
    · exact hpos

/-! ### The answer -/

def ValidateResult.isValid : ValidateResult → Bool
  | .valid _ _ _ _ => true
  | .invalid _ _ => false

def DiscountBounded (rt : Runtime) (c : CouponRow) (cartTotal : ℚ) (result : ValidateResult) : Prop :=
  ∀ couponId code discount reasons, result = .valid couponId code discount reasons →
    ∃ d, discount = .finite d ∧ 0 ≤ d ∧ d ≤ cartTotal ∧ ∀ text limit, c.maxDiscount = some text →
      rt.numberOf text = .finite limit → 0 ≤ limit → d ≤ limit

section Answer

variable {rt : Runtime} {db : CouponDatabase} {i : ValidateInput} {c : CouponRow}
  {customerId : Option String} {dto : ValidateCouponDto}

theorem evaluateEligibility_decides (hread : Readable rt c i.now)
    (hids : ∀ id ∈ c.brands ++ c.categories, isUuid id = true) (hfails : ∀ n, i.fails n = false) :
    ∃ result, evaluateEligibility rt db i c.record customerId dto = .ok result ∧
      (result.eligible = true ↔ MeetsRules rt c i.now dto ∧ HasUsesLeft db c customerId) := by
  obtain ⟨tree, htree, herrors, hmatched⟩ : ∃ tree, buildCouponConditions rt (minCartValue rt c.record)
        (c.record.field "starts_at") (c.record.field "expires_at")
        (restrictionNode (restricted c.record .brand "brand_id")
          (restricted c.record .category "category_id")) = .ok tree ∧
      (Rules.evaluate rt tree (couponFacts rt i customerId dto) {}).errors = none ∧
      ((Rules.evaluate rt tree (couponFacts rt i customerId dto) {}).matched = true ↔
        MeetsRules rt c i.now dto) := evaluate_coupon hread hids
  obtain ⟨reached, hreached, hall⟩ : ∃ reached, usageLimitReached rt db i c.record = .ok reached ∧
      (reached = false ↔ _) := usageLimitReached_counted hfails
  obtain ⟨reachedBy, hreachedBy, hcustomer⟩ : ∃ reached,
      perUserLimitReached rt db i c.record customerId = .ok reached ∧ (reached = false ↔ _) :=
    perUserLimitReached_counted hfails
  have hleft : HasUsesLeft db c customerId ↔ reached = false ∧ reachedBy = false := by
    rw [hall, hcustomer]
    exact ⟨fun h => ⟨h.all, h.customer⟩, fun h => ⟨h.1, h.2⟩⟩
  rw [hleft, ← hmatched]
  simp only [evaluateEligibility, htree, herrors, hreached, hreachedBy, bind, Except.bind]
  generalize Rules.evaluate rt tree (couponFacts rt i customerId dto) {} = evaluated
  cases hmatches : evaluated.matched with
  | false => exact ⟨_, rfl, by simp⟩
  | true =>
    cases reached with
    | true => exact ⟨_, rfl, by simp⟩
    | false =>
      cases reachedBy with
      | true => exact ⟨_, rfl, by simp⟩
      | false => exact ⟨_, rfl, by simp⟩

theorem validateRecord_decides (hread : Readable rt c i.now)
    (hids : ∀ id ∈ c.brands ++ c.categories, isUuid id = true) (hfails : ∀ n, i.fails n = false)
    (htotal : 0 ≤ dto.cartTotal) :
    ∃ result, validateRecord rt db i c.record customerId dto = .ok result ∧
      (result.isValid = true ↔ MeetsRules rt c i.now dto ∧ HasUsesLeft db c customerId) ∧
      DiscountBounded rt c dto.cartTotal result := by
  obtain ⟨eligibility, heligibility, hiff⟩ : ∃ result,
      evaluateEligibility rt db i c.record customerId dto = .ok result ∧ (result.eligible = true ↔ _) :=
    evaluateEligibility_decides hread hids hfails
  rw [← hiff]
  simp only [validateRecord, heligibility, bind, Except.bind]
  cases heligible : eligibility.eligible with
  | false => exact ⟨_, rfl, by simp [ValidateResult.isValid], fun _ _ _ _ h => by cases h⟩
  | true =>
    refine ⟨_, rfl, by simp [ValidateResult.isValid], ?_⟩
    intro couponId code discount reasons hresult
    obtain ⟨value, hvalue⟩ := hread.decimals c.discountValue (.inl rfl)
    have hlimit : ∀ n, numberOrNull rt (decimalOf c.maxDiscount) = some n → ∃ q, n = .finite q := by
      intro n hn
      rw [numberOrNull_decimal] at hn
      obtain ⟨text, htext, rfl⟩ := Option.map_eq_some_iff.mp hn
      exact hread.decimals text (.inr (.inl htext))
    obtain ⟨d, hd, hnonneg, hcart, hmax⟩ := computeCouponDiscount_bounds
      (c.record.field "discount_type") value htotal hlimit
    have hdiscount : computeCouponDiscount (c.record.field "discount_type")
        ((c.record.field "discount_value").toNumber rt) dto.cartTotal
        (numberOrNull rt (c.record.field "max_discount")) = discount := by
      injection hresult
    have hnumber : (c.record.field "discount_value").toNumber rt = .finite value := hvalue
    rw [hnumber] at hdiscount
    refine ⟨d, hdiscount.symm.trans hd, hnonneg, hcart, fun text limit htext hnumber hpos => ?_⟩
    refine hmax limit ?_ hpos
    rw [numberOrNull_decimal, htext, Option.map_some, hnumber]

end Answer

/-- A coupon that is not in the cache: the answer is valid exactly when the cart, the time and the
usages meet its limits, and then the discount is within its bounds. -/
theorem validate_valid_iff (rt : Runtime) (db : CouponDatabase) (i : ValidateInput)
    (customerId : Option String) (dto : ValidateCouponDto) (store : CacheStore) (c : CouponRow)
    (hmiss : CacheService.get i.redis (couponKey rt dto.code) store = none)
    (hfind : findCoupon rt db dto.code = some c) (hactive : c.status = .active)
    (hids : ∀ id ∈ c.brands ++ c.categories, isUuid id = true)
    (htotal : 0 ≤ dto.cartTotal) (hread : Readable rt c i.now) (hfails : ∀ n, i.fails n = false) :
    ∃ result, (validate rt db i customerId dto store).1 = .ok result ∧
      (result.isValid = true ↔ MeetsRules rt c i.now dto ∧ HasUsesLeft db c customerId) ∧
      DiscountBounded rt c dto.cartTotal result := by
  rw [validate_eq, loadCoupon_miss hmiss (hfails 0) hfind hactive]
  exact validateRecord_decides hread hids hfails htotal

def phones : String := "3f2504e0-4f89-41d3-9a0c-0305e82c3301"

/-- Ten percent off phones, at most 500, for carts of 100 or more, once for each customer. -/
def phoneCoupon : CouponRow where
  id := "c1"
  code := "PHONES10"
  discountType := .percentage
  discountValue := "10"
  maxDiscount := some "500"
  perUserLimit := some 1
  expiresAt := some 0
  rules := [{ ruleType := .brand, brandId := some phones },
    { ruleType := .minCartValue, ruleValue := some "100" }]

def phoneCart : ValidateCouponDto where
  code := "phones10"
  cartTotal := 6000
  brandIds := some [phones]

theorem phones_discounted : ∃ result,
    (validate .plain ⟨[phoneCoupon], []⟩ {} (some "u1") phoneCart fun _ => none).1 = .ok result ∧
      result.isValid = true ∧ DiscountBounded .plain phoneCoupon 6000 result := by
  have hminimum : phoneCoupon.minimum = some "100" := by decide +kernel
  have hread : Readable .plain phoneCoupon 0 := by
    constructor
    · rintro text (rfl | h | h)
      · exact ⟨10, by decide +kernel⟩
      · obtain rfl : "500" = text := Option.some.inj h
        exact ⟨500, by decide +kernel⟩
      · obtain rfl : "100" = text := Option.some.inj (hminimum.symm.trans h)
        exact ⟨100, by decide +kernel⟩
    · rintro ms (rfl | h | h)
      · decide +kernel
      · cases h
      · obtain rfl : 0 = ms := Option.some.inj h
        decide +kernel
  obtain ⟨result, hresult, hiff, hbounded⟩ := validate_valid_iff .plain ⟨[phoneCoupon], []⟩ {}
    (some "u1") phoneCart (fun _ => none) phoneCoupon rfl rfl rfl (by decide +kernel) (by decide +kernel)
    hread fun _ => rfl
  refine ⟨result, hresult, hiff.mpr ⟨?_, ?_⟩, hbounded⟩
  · refine ⟨fun text least htext hleast => ?_, fun ms h => (nomatch h), fun ms h => ?_, ?_, ?_⟩
    · obtain rfl : "100" = text := Option.some.inj (hminimum.symm.trans htext)
      obtain rfl : (100 : ℚ) = least := JsNumber.finite.inj (Eq.trans (by decide +kernel) hleast)
      decide +kernel
    · exact (Option.some.inj h).le
    · exact .inr ⟨phones, by decide +kernel, by decide +kernel⟩
    · exact .inl (by decide +kernel)
  · refine ⟨fun limit h => (nomatch h), fun limit customer h _ => ?_⟩
    obtain rfl := Option.some.inj h
    exact Int.zero_lt_one

end ElectronicsCart.Marketing
