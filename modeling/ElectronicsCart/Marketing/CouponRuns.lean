import ElectronicsCart.Core.Exclusion
import ElectronicsCart.Marketing.CouponApply
import ElectronicsCart.Marketing.CouponCache
import Mathlib.Data.List.Nodup

/-!
# The limits of a coupon under any schedule

A lock on a code guards the usages of the coupons with that code: a call that has counted them
below a limit still finds them so when it inserts one more.
-/

namespace ElectronicsCart.Marketing

open Interleaving Relational CouponService

/-! ### Usages and limits -/

def used (s : CouponShop) (c : CouponRow) : ℕ := s.database.usages.countP (usageOf (.string c.id))

def usedBy (s : CouponShop) (c : CouponRow) (customerId : String) : ℕ :=
  s.database.usages.countP fun u => usageOf (.string c.id) u && u.userId == some customerId

structure WithinLimits (s : CouponShop) : Prop where
  total : ∀ c ∈ s.coupons, ∀ n, c.usageLimit = some n → (used s c : ℤ) ≤ n
  perUser : ∀ c ∈ s.coupons, ∀ n, c.perUserLimit = some n →
    ∀ customerId, (usedBy s c customerId : ℤ) ≤ n

/-- One more usage by the customer stays within the limits. -/
structure Room (s : CouponShop) (c : CouponRow) (customerId : String) : Prop where
  total : ∀ n, c.usageLimit = some n → (used s c : ℤ) < n
  perUser : customerId ≠ "" → ∀ n, c.perUserLimit = some n → (usedBy s c customerId : ℤ) < n

/-- A cached coupon is the record of a coupon with the code it is cached under. -/
def Loaded (rt : Runtime) (s : CouponShop) : Prop :=
  ∀ code v, s.cache (couponKey rt code) = some v →
    ∃ c ∈ s.coupons, c.code = rt.toUpperCase code ∧ v = c.cached rt

def hasCode (s : CouponShop) (code : String) (u : CouponUsage) : Bool :=
  s.coupons.any fun c => c.code == code && c.id == u.couponId

def couponProtection : Protection CouponCall CouponShop String (List CouponUsage) where
  view code s := s.usages.rows.filter (hasCode s code)
  frame s s' := s'.coupons = s.coupons
  refl _ := rfl
  trans h h' := h'.trans h
  view_setLocks _ _ _ := rfl
  frame_setLocks _ _ := rfl

structure CouponInv (rt : Runtime) (s : CouponShop) : Prop where
  limits : WithinLimits s
  loaded : Loaded rt s

def couponWorld (rt : Runtime) : World CouponCall (Input Unit) CouponShop :=
  ⟨fun _ _ _ => True, CouponInv rt⟩

variable {rt : Runtime} {s s' : CouponShop} {c : CouponRow} {token : ℕ} {customerId : String}
  {C : Discipline CouponCall (Input Unit) CouponShop} {l : CouponCall} {i : Input Unit}

theorem usageOf_string {id : String} {u : CouponUsageRow} :
    usageOf (.string id) u = (id == u.couponId && !u.deleted) := rfl

theorem countP_view (hc : c ∈ s.coupons) {p : CouponUsageRow → Bool}
    (hp : ∀ u, p u = true → usageOf (.string c.id) u = true) :
    s.database.usages.countP p =
      (couponProtection.view c.code s).countP fun u => p u.toCouponUsageRow := by
  change (s.usages.rows.map CouponUsage.toCouponUsageRow).countP p =
    (s.usages.rows.filter (hasCode s c.code)).countP fun u => p u.toCouponUsageRow
  rw [List.countP_map, List.countP_filter]
  refine List.countP_congr fun u _ => ?_
  simp only [Function.comp_apply, Bool.and_eq_true]
  constructor
  · intro hu
    have husage := hp _ hu
    rw [usageOf_string, Bool.and_eq_true, beq_iff_eq] at husage
    exact ⟨hu, List.any_eq_true.mpr ⟨c, hc, by simp [husage.1]⟩⟩
  · exact fun hu => hu.1

theorem used_eq (hc : c ∈ s.coupons) : used s c =
    (couponProtection.view c.code s).countP fun u =>
      usageOf (.string c.id) u.toCouponUsageRow :=
  countP_view hc fun _ hu => hu

theorem usedBy_eq (hc : c ∈ s.coupons) : usedBy s c customerId =
    (couponProtection.view c.code s).countP fun u =>
      usageOf (.string c.id) u.toCouponUsageRow && u.userId == some customerId :=
  countP_view hc fun _ hu => (Bool.and_eq_true_iff.mp hu).1

theorem Room.of_view (h : Room s c customerId) (hc : c ∈ s.coupons) (hc' : c ∈ s'.coupons)
    (hview : couponProtection.view c.code s' = couponProtection.view c.code s) :
    Room s' c customerId := by
  refine ⟨fun n hn => ?_, fun hne n hn => ?_⟩
  · rw [used_eq hc', hview, ← used_eq hc]
    exact h.total n hn
  · rw [usedBy_eq hc', hview, ← usedBy_eq hc]
    exact h.perUser hne n hn

/-! ### The insert -/

theorem eq_of_id {d : CouponRow} (hc : c ∈ s.coupons) (hd : d ∈ s.coupons) (h : c.id = d.id) :
    c = d := List.inj_on_of_nodup_map s.ids_unique hc hd h

theorem textOf_eq_some {v : JsValue} {text : String} : textOf v = some text ↔ v = .string text := by
  cases v <;> simp [textOf]

theorem insertUsage_cases {orderId : Option ℕ} {couponId : JsValue} {discount : JsNumber} {n : ℕ}
    (h : insertUsage orderId couponId customerId discount s = .ok (n, s')) :
    customerId ≠ "" ∧ ∃ id amount, couponId = .string id ∧
      s' = { s with usages := s.usages.insert fun n =>
        { id := n, couponId := id, userId := some customerId, orderId, discountAmount := amount } } := by
  simp only [insertUsage, couponReference, bind_eq_ok, pure_eq_ok, check_eq_ok,
    List.contains_iff_mem, Prod.mk.injEq] at h
  obtain ⟨_, ⟨id, hid, _, -, rfl⟩, _, huser, _, -, amount, -, -, rfl⟩ := h
  cases ht : textOf couponId with
  | none =>
    rw [ht] at hid
    cases hid
  | some text =>
    rw [ht] at hid
    obtain rfl : text = id := Except.ok.inj hid
    refine ⟨?_, text, amount, textOf_eq_some.mp ht, rfl⟩
    rintro rfl
    exact s.users_named huser

theorem usages_insert {u : ℕ → CouponUsage} (hu : ∀ n, key (u n) = n) :
    (s.usages.insert u hu).rows = s.usages.rows ++ [u s.usages.next] := rfl

theorem insertUsage_within {orderId : Option ℕ} {discount : JsNumber} {n : ℕ}
    (hc : c ∈ s.coupons) (hroom : Room s c customerId) (hs : WithinLimits s)
    (h : insertUsage orderId (.string c.id) customerId discount s = .ok (n, s')) :
    WithinLimits s' := by
  obtain ⟨hne, id, amount, ⟨⟩, rfl⟩ := insertUsage_cases h
  refine ⟨fun d hd m hm => ?_, fun d hd m hm customer => ?_⟩
  · have hold := hs.total d hd m hm
    simp only [used, CouponShop.database, usages_insert, List.map_append, List.map_cons,
      List.map_nil, List.countP_append, List.countP_singleton, usageOf_string] at hold ⊢
    by_cases hid : d.id = c.id
    · obtain rfl := eq_of_id hd hc hid
      have hlt := hroom.total m hm
      simp only [used, CouponShop.database] at hlt
      simp only [beq_self_eq_true, Bool.not_false, Bool.and_self, if_true]
      omega
    · have hno : (d.id == c.id && !false) = false := by simpa using hid
      simp only [hno, Bool.false_eq_true, if_false]
      omega
  · have hold := hs.perUser d hd m hm customer
    simp only [usedBy, CouponShop.database, usages_insert, List.map_append, List.map_cons,
      List.map_nil, List.countP_append, List.countP_singleton, usageOf_string] at hold ⊢
    by_cases hid : d.id = c.id ∧ customerId = customer
    · obtain ⟨hid, rfl⟩ := hid
      obtain rfl := eq_of_id hd hc hid
      have hlt := hroom.perUser hne m hm
      simp only [usedBy, CouponShop.database, usageOf_string] at hlt
      simp only [beq_self_eq_true, Bool.not_false, Bool.and_self, if_true]
      omega
    · have hno : (d.id == c.id && !false && (some customerId == some customer)) = false := by
        simpa using hid
      simp only [hno, Bool.false_eq_true, if_false]
      omega

/-! ### What a call keeps -/

theorem WithinLimits.of_eq (h : WithinLimits s) (hc : s'.coupons = s.coupons)
    (hu : s'.usages = s.usages) : WithinLimits s' := by
  have hused : ∀ c, used s' c = used s c := by
    intro c
    rw [used, used, CouponShop.database, CouponShop.database, hu]
  have husedBy : ∀ c customer, usedBy s' c customer = usedBy s c customer := by
    intro c customer
    rw [usedBy, usedBy, CouponShop.database, CouponShop.database, hu]
  refine ⟨fun c hcm n hn => ?_, fun c hcm n hn customer => ?_⟩
  · rw [hused]
    exact h.total c (hc ▸ hcm) n hn
  · rw [husedBy]
    exact h.perUser c (hc ▸ hcm) n hn customer

theorem CouponInv.of_eq (h : CouponInv rt s) (hc : s'.coupons = s.coupons)
    (hu : s'.usages = s.usages) (hcache : s'.cache = s.cache) : CouponInv rt s' := by
  refine ⟨h.limits.of_eq hc hu, fun code v hv => ?_⟩
  rw [hcache] at hv
  rw [hc]
  exact h.loaded code v hv

theorem guar_calm (hc : s'.coupons = s.coupons) (hu : s'.usages = s.usages)
    (hl : s'.locks = s.locks) : (couponProtection.discipline token).guar l i s s' := by
  refine ⟨hc, fun other _ key hk => ⟨?_, ?_⟩⟩
  · change s'.locks key = some other
    rw [hl]
    exact hk
  · change s'.usages.rows.filter (hasCode s' key) = s.usages.rows.filter (hasCode s key)
    have hcode : hasCode s' key = hasCode s key := by
      funext u
      rw [hasCode, hasCode, hc]
    rw [hcode, hu]

structure Holding (token : ℕ) (c : CouponRow) (t : CouponShop) : Prop where
  held : t.locks c.code = some token
  mem : c ∈ t.coupons

structure Ready (token : ℕ) (c : CouponRow) (customerId : String) (t : CouponShop) : Prop
    extends Holding token c t where
  room : Room t c customerId

theorem Holding.rely (h : Holding token c s)
    (hr : (couponProtection.discipline (γ := Unit) token).rely s s') : Holding token c s' := by
  refine ⟨(hr.2 c.code h.held).1, ?_⟩
  rw [show s'.coupons = s.coupons from hr.1]
  exact h.mem

theorem Holding.countP_rely {p : CouponUsageRow → Bool} (h : Holding token c s)
    (hr : (couponProtection.discipline (γ := Unit) token).rely s s')
    (hp : ∀ u, p u = true → usageOf (.string c.id) u = true) :
    s'.database.usages.countP p = s.database.usages.countP p := by
  rw [countP_view (h.rely hr).mem hp, countP_view h.mem hp, (hr.2 c.code h.held).2]

theorem Ready.rely (h : Ready token c customerId s)
    (hr : (couponProtection.discipline (γ := Unit) token).rely s s') :
    Ready token c customerId s' := by
  have hholding : Holding token c s' := h.toHolding.rely hr
  exact ⟨hholding, h.room.of_view h.mem hholding.mem (hr.2 c.code h.held).2⟩

theorem Ready.of_eq (h : Ready token c customerId s) (hc : s'.coupons = s.coupons)
    (hu : s'.usages = s.usages) (hl : s'.locks = s.locks) : Ready token c customerId s' := by
  have hmem : c ∈ s'.coupons := by
    rw [hc]
    exact h.mem
  refine ⟨⟨by rw [hl]; exact h.held, hmem⟩, h.room.of_view h.mem hmem ?_⟩
  change s'.usages.rows.filter (hasCode s' c.code) = s.usages.rows.filter (hasCode s c.code)
  have hcode : hasCode s' c.code = hasCode s c.code := by
    funext u
    rw [hasCode, hasCode, hc]
  rw [hcode, hu]

theorem insertUsage_guar {orderId : Option ℕ} {discount : JsNumber} {n : ℕ}
    (hready : Ready token c customerId s)
    (h : insertUsage orderId (.string c.id) customerId discount s = .ok (n, s')) :
    (couponProtection.discipline token).guar l i s s' := by
  obtain ⟨-, id, amount, ⟨⟩, rfl⟩ := insertUsage_cases h
  refine Protection.guar_write rfl hready.held rfl fun other hother => ?_
  change (s.usages.rows ++ [_]).filter (hasCode s other) = s.usages.rows.filter (hasCode s other)
  rw [List.filter_append, List.append_right_eq_self]
  refine List.filter_eq_nil_iff.mpr fun u hu => ?_
  obtain rfl := List.mem_singleton.mp hu
  rw [hasCode, List.any_eq_true]
  rintro ⟨d, hd, hcode⟩
  simp only [Bool.and_eq_true, beq_iff_eq] at hcode
  obtain rfl := eq_of_id hd hready.mem hcode.2
  exact hother hcode.1.symm

theorem setOrderCoupon_cases {orderId : ℕ} {couponId : JsValue} {u : Unit}
    (h : setOrderCoupon orderId couponId customerId s = .ok (u, s')) :
    ∃ id, textOf couponId = some id ∧ (s.orders.find? orderId).isSome = true ∧
      s' = { s with orders := s.orders.update orderId fun o => { o with couponId := some id } } := by
  simp only [setOrderCoupon, couponReference, bind_eq_ok, pure_eq_ok, check_eq_ok,
    Prod.mk.injEq] at h
  obtain ⟨_, horder, id, ⟨id', hid, _, -, rfl⟩, _, -, -, rfl⟩ := h
  cases ht : textOf couponId with
  | none =>
    rw [ht] at hid
    cases hid
  | some text =>
    rw [ht] at hid
    obtain rfl : text = id' := Except.ok.inj hid
    exact ⟨text, rfl, horder, rfl⟩

/-! ### One call among others -/

theorem attach_holds (orderId : Option ℕ) (couponId : JsValue)
    (h : Ready token c customerId s) :
    Holds (couponWorld rt) C (couponProtection.discipline token)
      (fun _ t => Ready token c customerId t) (attachCoupon couponId customerId orderId) s := by
  cases orderId with
  | none => exact fun t ht _ => h.rely ht
  | some orderId =>
    refine holds_lookupBind (fun _ _ _ _ => Protection.guar_refl) (fun _ t ht _ => h.rely ht) ?_
    intro t _ order ht _ _ _
    have hready : Ready token c customerId t := h.rely ht
    refine Holds.ensureBind (fun _ => ?_) fun _ t' ht' _ => hready.rely ht'
    refine holds_atomic fun t₁ ht₁ hi₁ _ _ => ⟨Protection.guar_refl, ?_, ?_⟩
    · exact fun _ t' _ ht' _ => (hready.rely ht₁).rely ht'
    · intro _ u _ hu
      obtain ⟨id, -, -, rfl⟩ := setOrderCoupon_cases hu
      refine ⟨hi₁.of_eq rfl rfl rfl, guar_calm rfl rfl rfl, fun t' ht' _ => ?_⟩
      exact ((hready.rely ht₁).of_eq rfl rfl rfl).rely ht'

theorem redeem_holds (orderId : Option ℕ) (discount : JsNumber)
    (h : Ready token c customerId s) (hinv : CouponInv rt s) :
    Holds (couponWorld rt) C (couponProtection.discipline token) (fun _ _ => True)
      (CouponService.redeem (.string c.id) discount customerId orderId) s := by
  refine Holds.bind (Holds.mono ?_ (attach_holds orderId (.string c.id) h)) hinv
  rintro (e | a) t - hready
  · trivial
  change Holds _ _ _ _ ((recordUsage orderId (.string c.id) customerId discount).bind _) t
  refine holds_atomicBind fun t₁ ht₁ hi₁ i₁ _ => ⟨Protection.guar_refl, fun _ _ _ _ _ => trivial, ?_⟩
  intro n u _ hu
  have hready₁ : Ready token c customerId t₁ := hready.rely ht₁
  have hwithin := insertUsage_within hready₁.mem hready₁.room hi₁.limits hu
  have hguar : (couponProtection.discipline token).guar
      (.recordUsage orderId (.string c.id) customerId) i₁ t₁ u := insertUsage_guar hready₁ hu
  obtain ⟨-, id, amount, -, rfl⟩ := insertUsage_cases hu
  refine ⟨⟨hwithin, hi₁.loaded⟩, hguar, ?_⟩
  refine holds_atomicBind fun t₂ ht₂ hi₂ _ _ => ⟨Protection.guar_refl, fun _ _ _ _ _ => trivial, ?_⟩
  intro _ u₂ _ hu₂
  obtain rfl : { t₂ with audits := t₂.audits ++ [⟨c.id, customerId⟩] } = u₂ := by
    simp only [textOf, Option.elim_some, bind_eq_ok, pure_eq_ok, Except.ok.injEq,
      Prod.mk.injEq] at hu₂
    obtain ⟨_, rfl, -, rfl⟩ := hu₂
    rfl
  exact ⟨hi₂.of_eq rfl rfl rfl, guar_calm rfl rfl rfl, fun _ _ _ => trivial⟩

/-! ### Counting -/

/-- What the holder of the lock knows, and keeps while others run. -/
structure Known (token : ℕ) (c : CouponRow) (P : CouponShop → Prop) : Prop where
  holding : ∀ {t}, P t → Holding token c t
  rely : ∀ {t t'}, (couponProtection.discipline (γ := Unit) token).rely t t' → P t → P t'

theorem known_holding : Known token c (Holding token c) := ⟨id, fun hr h => h.rely hr⟩

theorem Known.room {P : CouponShop → Prop} (hP : Known token c P) {p : CouponUsageRow → Bool}
    (hp : ∀ u, p u = true → usageOf (.string c.id) u = true) (limit : Option ℤ) :
    Known token c fun t => P t ∧ ∀ n, limit = some n → (t.database.usages.countP p : ℤ) < n := by
  refine ⟨fun h => hP.holding h.1, fun hr h => ⟨hP.rely hr h.1, fun n hn => ?_⟩⟩
  rw [(hP.holding h.1).countP_rely hr hp]
  exact h.2 n hn

theorem limitReached_holds {P : CouponShop → Prop} (hP : Known token c P) (call : CouponCall)
    (limit : Option ℤ) {p : CouponUsageRow → Bool}
    (hp : ∀ u, p u = true → usageOf (.string c.id) u = true) (h : P s) :
    Holds (couponWorld rt) C (couponProtection.discipline token)
      (fun r t => r = .ok false →
        P t ∧ ∀ n, limit = some n → (t.database.usages.countP p : ℤ) < n)
      (CouponService.limitReached rt call (intOf limit) p) s := by
  cases limit with
  | none => exact fun t ht _ _ => ⟨hP.rely ht h, fun n hn => by cases hn⟩
  | some n =>
    change Holds _ _ _ _ ((query call fun _ s => s.database.usages.countP p).bind _) s
    refine holds_queryBind fun t ht _ i _ => ⟨Protection.guar_refl, ?_, fun _ => ?_⟩
    · exact fun t' _ _ hr => by cases hr
    intro t' ht' _ hr
    have hnot : reaches rt (t.database.usages.countP p) (.number (.finite n)) = false :=
      Except.ok.inj hr
    simp only [reaches, JsValue.toNumber, decide_eq_false_iff_not, not_le] at hnot
    refine (hP.room hp (some n)).rely ht' ⟨hP.rely ht h, fun m hm => ?_⟩
    obtain rfl := Option.some.inj hm
    exact_mod_cast hnot

/-- The record that `loadCoupon` gives for a coupon. -/
def RecordOf (rt : Runtime) (c : CouponRow) (v : JsValue) : Prop := v = c.record ∨ v = c.cached rt

theorem RecordOf.id {v : JsValue} (h : RecordOf rt c v) : v.field "id" = .string c.id := by
  rcases h with rfl | rfl <;> rfl

theorem RecordOf.usageLimit {v : JsValue} (h : RecordOf rt c v) :
    v.field "usage_limit" = intOf c.usageLimit := by
  rcases h with rfl | rfl <;> rfl

theorem RecordOf.perUserLimit {v : JsValue} (h : RecordOf rt c v) :
    v.field "per_user_limit" = intOf c.perUserLimit := by
  rcases h with rfl | rfl <;> rfl

theorem evaluateLimits_holds {v : JsValue} {reasons : List String} (hv : RecordOf rt c v)
    (h : Holding token c s) (hinv : CouponInv rt s) :
    Holds (couponWorld rt) C (couponProtection.discipline token)
      (fun r t => ∀ result, r = .ok result → result.eligible = true → Ready token c customerId t)
      (evaluateLimits rt v customerId reasons) s := by
  have hlimit : Holds (couponWorld rt) C (couponProtection.discipline token)
      (fun r t => r = .ok false → Holding token c t ∧ ∀ n, c.usageLimit = some n →
        (used t c : ℤ) < n) (CouponService.usageLimitReached rt v) s := by
    rw [CouponService.usageLimitReached, hv.usageLimit, hv.id]
    exact limitReached_holds known_holding _ _ (fun _ hu => hu) h
  refine Holds.bind (Holds.mono ?_ hlimit) hinv
  rintro (e | usedUp) t hi htotal
  · exact fun _ hr => by cases hr
  cases usedUp with
  | true =>
    intro t' _ _ result hr hel
    obtain rfl := Except.ok.inj hr
    cases hel
  | false =>
    have hknown : Known token c fun t => Holding token c t ∧ ∀ n, c.usageLimit = some n →
        (used t c : ℤ) < n := known_holding.room (fun _ hu => hu) _
    have huser : Holds (couponWorld rt) C (couponProtection.discipline token)
        (fun r t => r = .ok false → Ready token c customerId t)
        (CouponService.perUserLimitReached rt v customerId) t := by
      unfold CouponService.perUserLimitReached
      split
      next hempty =>
        intro t' ht' _ _
        obtain ⟨hholding, hroom⟩ := hknown.rely ht' (htotal rfl)
        refine ⟨hholding, hroom, fun hne => absurd ?_ hne⟩
        simpa [truthy] using hempty
      next customer hcustomer =>
        obtain rfl : customerId = customer :=
          Option.some.inj (Option.filter_eq_some_iff.mp hcustomer).1
        rw [hv.perUserLimit, hv.id]
        refine Holds.mono ?_ (limitReached_holds hknown _ c.perUserLimit
          (fun _ hu => (Bool.and_eq_true_iff.mp hu).1) (htotal rfl))
        intro r t' _ hr hfalse
        obtain ⟨⟨hholding, hroom⟩, hperUser⟩ := hr hfalse
        exact ⟨hholding, hroom, fun _ => hperUser⟩
    refine Holds.bind (Holds.mono ?_ huser) hi
    rintro (e | usedUp) t' - hready
    · exact fun _ hr => by cases hr
    cases usedUp with
    | true =>
      intro t₂ _ _ result hr hel
      obtain rfl := Except.ok.inj hr
      cases hel
    | false => exact fun t₂ ht₂ _ _ _ _ => (hready rfl).rely ht₂

theorem evaluateEligibility_holds {v : JsValue} {dto : ValidateCouponDto} (hv : RecordOf rt c v)
    (h : Holding token c s) :
    Holds (couponWorld rt) C (couponProtection.discipline token)
      (fun r t => ∀ result, r = .ok result → result.eligible = true → Ready token c customerId t)
      (CouponService.evaluateEligibility rt v customerId dto) s := by
  refine Holds.callBind fun t ht hi i _ => ⟨hi, Protection.guar_refl, ?_⟩
  have ht : Holding token c t := h.rely ht
  change Holds _ _ _ _ ((Prog.done _).bind _) t
  cases buildCouponConditions rt (minCartValue rt v) (v.field "starts_at") (v.field "expires_at")
      (restrictionNode (restricted v .brand "brand_id") (restricted v .category "category_id")) with
  | error e => exact fun _ _ _ _ hr => by cases hr
  | ok conditions =>
    change Holds _ _ _ _ (ite _ _ _) t
    split
    · intro t' _ _ result hr hel
      obtain rfl := Except.ok.inj hr
      cases hel
    · exact evaluateLimits_holds hv ht hi

/-! ### Loading -/

theorem couponKey_inj {code code' : String} (h : couponKey rt code = couponKey rt code') :
    rt.toUpperCase code = rt.toUpperCase code' := by
  have hlist := congrArg String.toList h
  simp only [couponKey, String.toList_append, List.append_cancel_left_eq] at hlist
  exact String.toList_injective hlist

theorem findCoupon_some {code : String} (h : findCoupon rt s.database code = some c) :
    c ∈ s.coupons ∧ c.code = rt.toUpperCase code := by
  have hc := List.find?_some h
  simp only [Bool.and_eq_true, beq_iff_eq] at hc
  exact ⟨List.mem_of_find?_eq_some h, hc.1⟩

theorem Loaded.set {code : String} (h : Loaded rt s) (hmem : c ∈ s.coupons)
    (hcode : c.code = rt.toUpperCase code) (hc : s'.coupons = s.coupons)
    (hcache : s'.cache =
      Function.update s.cache (couponKey rt code) (CacheService.entry rt c.record)) :
    Loaded rt s' := by
  intro code' v hv
  rw [hc]
  by_cases hkey : couponKey rt code' = couponKey rt code
  · rw [hcache, hkey, Function.update_self, entry_record] at hv
    exact ⟨c, hmem, hcode.trans (couponKey_inj hkey).symm, (Option.some.inj hv).symm⟩
  · rw [hcache, Function.update_of_ne hkey] at hv
    exact h code' v hv

theorem loadCoupon_holds {code : String} (h : s.locks (rt.toUpperCase code) = some token) :
    Holds (couponWorld rt) C (couponProtection.discipline token)
      (fun r t => ∀ v, r = .ok v → ∃ c, RecordOf rt c v ∧ Holding token c t)
      (CouponService.loadCoupon rt code) s := by
  refine Holds.callBind fun t ht hi i _ => ⟨hi, Protection.guar_refl, ?_⟩
  have hheld : t.locks (rt.toUpperCase code) = some token := (ht.2 _ h).1
  dsimp only
  cases hget : (if i.fails = true then none else t.cache (couponKey rt code)) with
  | some v =>
    have hcached : t.cache (couponKey rt code) = some v := by
      split at hget
      · cases hget
      · exact hget
    obtain ⟨c, hc, hcode, hv⟩ := hi.loaded code v hcached
    have hholding : Holding token c t := ⟨by rw [hcode]; exact hheld, hc⟩
    intro t' ht' _ v' hv'
    obtain rfl := Except.ok.inj hv'
    exact ⟨c, .inr hv, hholding.rely ht'⟩
  | none =>
    change Holds _ _ _ _
      ((query (CouponCall.findCoupon code) fun _ s => findCoupon rt s.database code).bind _) t
    refine holds_queryBind fun t₁ ht₁ _ i₁ _ => ⟨Protection.guar_refl, ?_, fun _ => ?_⟩
    · exact fun _ _ _ _ hr => by cases hr
    refine Holds.orThrowBind (fun c hc => ?_) fun _ _ _ _ _ hr => by cases hr
    obtain ⟨hfind, -⟩ := Option.filter_eq_some_iff.mp hc
    obtain ⟨hmem, hcode⟩ := findCoupon_some hfind
    have hholding : Holding token c t₁ := ⟨by rw [hcode]; exact (ht₁.2 _ hheld).1, hmem⟩
    refine Holds.callBind fun t₂ ht₂ hi₂ i₂ _ => ?_
    have hholding₂ : Holding token c t₂ := hholding.rely ht₂
    cases i₂.fails with
    | true =>
      refine ⟨hi₂, Protection.guar_refl, fun t' ht' _ v hv => ?_⟩
      obtain rfl := Except.ok.inj hv
      exact ⟨c, .inl rfl, hholding₂.rely ht'⟩
    | false =>
      simp only [Bool.false_eq_true, if_false]
      refine ⟨⟨hi₂.limits.of_eq rfl rfl, hi₂.loaded.set hholding₂.mem hcode rfl rfl⟩,
        guar_calm rfl rfl rfl, fun t' ht' _ v hv => ?_⟩
      obtain rfl := Except.ok.inj hv
      exact ⟨c, .inl rfl, hholding₂.rely ht'⟩

/-! ### Whole runs -/

theorem apply_holds (dto : ApplyCouponDto) :
    Holds (couponWorld rt) C (couponProtection.discipline token) (fun _ _ => True)
      (CouponService.apply rt token customerId dto) s := by
  refine Protection.holds_withLock (P := fun _ => True) (R := fun _ => True)
    (fun _ _ _ _ => trivial) (fun _ _ _ _ => trivial) (fun _ _ => trivial)
    (fun m t h => h.of_eq rfl rfl rfl) ?_ trivial
  intro t hi hheld _
  refine Holds.bind (Holds.mono ?_ (loadCoupon_holds hheld)) hi
  rintro (e | v) t₁ hi₁ hload
  · trivial
  obtain ⟨c, hv, hholding⟩ := hload v rfl
  refine Holds.bind (Holds.mono ?_ (evaluateEligibility_holds hv hholding)) hi₁
  rintro (e | result) t₂ hi₂ hready
  · trivial
  change Holds _ _ _ _ (settleVerdict customerId dto.orderId (verdict rt v _ result)) t₂
  unfold verdict
  split
  next hel =>
    rw [hv.id, settleVerdict]
    split
    · exact redeem_holds dto.orderId _ (hready result rfl hel) hi₂
    · exact fun _ _ _ => trivial
  next => exact fun _ _ _ => trivial

/-- Whatever the order of the calls, the customers and the spelling of the codes, and whichever
calls fail, no coupon is used beyond its limits. -/
theorem limits_kept (rt : Runtime) (requests : List ApplyRequest) (s : CouponShop)
    (sched : List (ℕ × Input Unit)) (hs : WithinLimits s) (hcache : Loaded rt s) :
    WithinLimits ((applyPool rt requests s).run sched).state := by
  have hsafe : (applyPool rt requests s).Safe (couponWorld rt) Protection.idle
      (couponProtection.tokens requests.length) fun _ _ _ => True := by
    refine ⟨⟨hs, hcache⟩, fun j p hp => ?_⟩
    have hlt : j < requests.length := by
      simpa [applyPool] using (List.getElem?_eq_some_iff.mp hp).1
    obtain ⟨r, rfl⟩ : ∃ r : ApplyRequest, p = CouponService.apply rt j r.customerId r.dto := by
      obtain ⟨hj, rfl⟩ := List.getElem?_eq_some_iff.mp hp
      exact ⟨_, List.getElem_mapIdx⟩
    rw [Protection.tokens, if_pos hlt]
    exact apply_holds r.dto
  have hrun := hsafe.run (couponProtection.compatible fun _ _ _ _ => trivial)
    (by simp [applyPool]) (Pool.admits_of_forall (fun _ _ _ => trivial) _ sched)
  exact hrun.inv.limits

def onceShop : CouponShop where
  users := ["asha", "ravi"]
  users_named := by decide
  coupons := [{ saveTen none with usageLimit := some 1 }]
  ids_unique := by decide
  orders := Table.empty

def onceRequests : List ApplyRequest :=
  [⟨"asha", { saveTenCart with }⟩, ⟨"ravi", { saveTenCart with code := "SAVE10" }⟩]

/-- Calls that get their answers, in the order of the threads. -/
def couponTurns (threads : List ℕ) : List (ℕ × Input Unit) :=
  threads.map fun j => (j, { reply := () })

theorem limits_kept_once :
    WithinLimits ((applyPool .plain onceRequests onceShop).run
        (couponTurns ([0, 0, 1, 0, 0, 0, 0, 0, 0, 0, 0] ++ [1, 1, 1, 1, 1, 1, 1]))).state ∧
      ((applyPool .plain onceRequests onceShop).run (couponTurns
        ([0, 0, 1, 0, 0, 0, 0, 0, 0, 0, 0] ++ [1, 1, 1, 1, 1, 1, 1]))).state.usages.rows.length = 1 := by
  refine ⟨limits_kept _ _ _ _ ⟨?_, ?_⟩ fun _ _ hv => (by cases hv), by decide +kernel⟩
  · intro c hc n hn
    obtain rfl := List.mem_singleton.mp hc
    obtain rfl := Option.some.inj hn
    decide
  · intro c hc n hn
    obtain rfl := List.mem_singleton.mp hc
    cases hn

end ElectronicsCart.Marketing
