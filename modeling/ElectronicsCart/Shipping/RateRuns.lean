import ElectronicsCart.Shipping.Rates
import Mathlib.Tactic.Linarith

/-!
# Estimates from the cache

An estimate is served what an earlier one with the same key has stored.  The key leaves the declared
value out, so the two may be about different parcels.
-/

namespace ElectronicsCart.Shipping

open Relational RatesService

inductive RateEvent where
  | estimate (dto : EstimateShippingDto) (i : EstimateInput)
  | createRate (dto : CreateRateDto) (i : CreateInput)
  /-- an entry reaches its TTL -/
  | expire (key : String)

section Runs

variable (collation : String → String → Bool) (rt : Runtime)

def RateEvent.apply (s : RateDesk) : RateEvent → RateDesk
  | .estimate dto i => (RatesService.estimate collation rt dto i s).2
  | .createRate dto i => (RatesService.createRate dto i s).2
  | .expire key => { s with cache := Function.update s.cache key none }

/-- The desk after the first `n` calls. -/
def deskAt (es : List RateEvent) (s : RateDesk) (n : ℕ) : RateDesk :=
  (es.take n).foldl (RateEvent.apply collation rt) s

def uncached (dto : EstimateShippingDto) (s : RateDesk) : Except Failure RateEstimate :=
  factory collation (fun _ => false) dto s

/-- An answer is that of the uncached computation, and an error comes from it. -/
def Faithful (dto : EstimateShippingDto) (i : EstimateInput) (s : RateDesk) : Prop :=
  match (RatesService.estimate collation rt dto i s).1 with
  | .ok v => uncached collation dto s = .ok v
  | .error e => factory collation i.fails dto s = .error e

end Runs

/-! ### What the quotes depend on -/

/-- The value that is insured; none declared counts as zero. -/
def insured (dto : EstimateShippingDto) : ℚ :=
  match dto.declaredValue with
  | some value => if 0 < value then value else 0
  | none => 0

structure Parcel where
  fromPincode : String
  toPincode : String
  weightKg : ℚ
  cod : Bool
  insured : ℚ
  partnerId : Option String
deriving DecidableEq

def parcel (dto : EstimateShippingDto) : Parcel where
  fromPincode := dto.fromPincode
  toPincode := dto.toPincode
  weightKg := dto.weightKg
  cod := codAsked dto
  insured := insured dto
  partnerId := truthy dto.partnerId

variable {collation : String → String → Bool} {rt : Runtime} {a b : EstimateShippingDto}

theorem insurance_eq (dto : EstimateShippingDto) : insurance dto = insured dto * (5 / 1000) := by
  unfold insurance insured
  cases dto.declaredValue with
  | none => simp
  | some value =>
    simp only
    split <;> simp

theorem quote_parcel (h : parcel a = parcel b) (r : ShippingRate) (fromZone toZone : ShippingZone) :
    quote a r fromZone toZone = quote b r fromZone toZone := by
  simp only [parcel, Parcel.mk.injEq] at h
  obtain ⟨-, -, hweight, hcod, hinsured, -⟩ := h
  have hfreight : freight a r = freight b r := by
    simp only [freight, hweight]
  have hfee : codFee a r = codFee b r := by
    simp only [codFee, hcod, hfreight]
  have hinsurance : insurance a = insurance b := by
    rw [insurance_eq, insurance_eq, hinsured]
  simp only [quote, total, hfreight, hfee, hinsurance]

theorem offered_parcel (h : parcel a = parcel b) (r : ShippingRate) : offered a r = offered b r := by
  simp only [parcel, Parcel.mk.injEq] at h
  obtain ⟨-, -, hweight, -, -, hpartner⟩ := h
  simp only [offered, hweight, hpartner]

theorem factory_parcel (h : parcel a = parcel b) (fails : ℕ → Bool) (s : RateDesk) :
    factory collation fails a s = factory collation fails b s := by
  have hquotes : quotesFor a = quotesFor b := by
    funext f t rates
    simp only [quotesFor, quote_parcel h]
  have hrates : findRates a s = findRates b s := by
    simp only [findRates, funext (offered_parcel h)]
  have hfrom : a.fromPincode = b.fromPincode := congrArg Parcel.fromPincode h
  have hto : a.toPincode = b.toPincode := congrArg Parcel.toPincode h
  simp only [factory, hquotes, hrates, hfrom, hto]

theorem factory_ok {fails : ℕ → Bool} {dto : EstimateShippingDto} {s : RateDesk} {v : RateEstimate}
    (h : factory collation fails dto s = .ok v) : uncached collation dto s = .ok v := by
  cases h₀ : fails 0 <;> cases h₁ : fails 1 <;> cases h₂ : fails 2 <;>
    simp only [uncached, factory, ask, h₀, h₁, h₂, Bool.false_eq_true, if_false, if_true, bind,
      Except.bind] at h ⊢ <;>
    first
      | exact h
      | cases h
      | (split at h <;> cases h)

/-! ### What the cache holds -/

variable {es : List RateEvent} {start s s' : RateDesk} {n : ℕ} {dto : EstimateShippingDto}
  {i : EstimateInput} {key : String} {v : RateEstimate}

theorem estimate_cases (collation : String → String → Bool) (rt : Runtime)
    (dto : EstimateShippingDto) (i : EstimateInput) (s : RateDesk) :
    (∃ v, i.redis.getFails = false ∧ s.cache (cacheKey rt dto) = some v ∧
        estimate collation rt dto i s = (.ok v, s)) ∨
      (∃ v, factory collation i.fails dto s = .ok v ∧
        (estimate collation rt dto i s = (.ok v, s) ∨ estimate collation rt dto i s =
          (.ok v, { s with cache := Function.update s.cache (cacheKey rt dto) (some v) }))) ∨
      ∃ e, factory collation i.fails dto s = .error e ∧
        estimate collation rt dto i s = (.error e, s) := by
  unfold estimate
  cases hhit : ReadThrough.hit s.cache (access collation rt dto i s) with
  | some v =>
    refine .inl ⟨v, ?_⟩
    rw [ReadThrough.read_hit hhit]
    cases hget : i.redis.getFails with
    | true => simp [ReadThrough.hit, access, hget] at hhit
    | false =>
      refine ⟨rfl, ?_, rfl⟩
      simpa [ReadThrough.hit, access, hget] using hhit
  | none =>
    simp only [ReadThrough.read, hhit]
    cases hf : factory collation i.fails dto s with
    | error e =>
      refine .inr (.inr ⟨e, rfl, ?_⟩)
      simp only [access, hf]
    | ok v =>
      refine .inr (.inl ⟨v, rfl, ?_⟩)
      cases hset : i.redis.setFails with
      | true => simp [access, hf, hset]
      | false => simp [access, hf, hset]

theorem deskAt_succ {e : RateEvent} (h : es[n]? = some e) :
    deskAt collation rt es start (n + 1) = e.apply collation rt (deskAt collation rt es start n) := by
  rw [deskAt, List.take_add_one, h, List.foldl_append]
  rfl

theorem uncached_cache (cache : String → Option RateEstimate) :
    uncached collation dto { s with cache } = uncached collation dto s := rfl

theorem prefix_cacheKey (dto : EstimateShippingDto) :
    ratesPrefix.toList.isPrefixOf (cacheKey rt dto).toList = true := by
  rw [List.isPrefixOf_iff_prefix, cacheKey, String.toList_append]
  exact List.prefix_append ..

/-- An entry was stored by an estimate with its key, has been there since, and is what that
estimate would compute now. -/
def Stored (collation : String → String → Bool) (rt : Runtime) (es : List RateEvent)
    (start : RateDesk) (n : ℕ) : Prop :=
  ∀ key v, (deskAt collation rt es start n).cache key = some v →
    ∃ m a i, m < n ∧ es[m]? = some (.estimate a i) ∧ cacheKey rt a = key ∧
      (∀ k, m < k → k ≤ n → (deskAt collation rt es start k).cache key ≠ none) ∧
      uncached collation a (deskAt collation rt es start n) = .ok v

theorem Stored.stays (h : Stored collation rt es start n)
    (hkey : (deskAt collation rt es start n).cache key = some v)
    (hkey' : (deskAt collation rt es start (n + 1)).cache key = some v)
    (hrates : ∀ a, uncached collation a (deskAt collation rt es start (n + 1)) =
      uncached collation a (deskAt collation rt es start n)) :
    ∃ m a i, m < n + 1 ∧ es[m]? = some (.estimate a i) ∧ cacheKey rt a = key ∧
      (∀ k, m < k → k ≤ n + 1 → (deskAt collation rt es start k).cache key ≠ none) ∧
      uncached collation a (deskAt collation rt es start (n + 1)) = .ok v := by
  obtain ⟨m, a, i, hm, he, ha, hthere, hv⟩ := h key v hkey
  refine ⟨m, a, i, by omega, he, ha, fun k hk hkn => ?_, by rw [hrates, hv]⟩
  rcases Nat.lt_or_ge n k with hlast | hearlier
  · obtain rfl : k = n + 1 := by omega
    rw [hkey']
    exact Option.some_ne_none v
  · exact hthere k hk hearlier

theorem Stored.estimate (h : Stored collation rt es start n)
    (he : es[n]? = some (.estimate dto i)) : Stored collation rt es start (n + 1) := by
  have hnext := @deskAt_succ collation rt _ start _ _ he
  intro key v hv
  rcases estimate_cases collation rt dto i (deskAt collation rt es start n) with
    ⟨w, -, -, hw⟩ | ⟨w, hw, hs | hs⟩ | ⟨e, -, hs⟩
  · have hsame : deskAt collation rt es start (n + 1) = deskAt collation rt es start n := by
      rw [hnext, RateEvent.apply, hw]
    exact h.stays (by rwa [hsame] at hv) hv fun _ => by rw [hsame]
  · have hsame : deskAt collation rt es start (n + 1) = deskAt collation rt es start n := by
      rw [hnext, RateEvent.apply, hs]
    exact h.stays (by rwa [hsame] at hv) hv fun _ => by rw [hsame]
  · have hdesk : deskAt collation rt es start (n + 1) = { deskAt collation rt es start n with
        cache := Function.update (deskAt collation rt es start n).cache (cacheKey rt dto) (some w) } := by
      rw [hnext, RateEvent.apply, hs]
    by_cases hkey : key = cacheKey rt dto
    · have hwv : w = v := by
        rw [hdesk] at hv
        simpa [hkey] using hv
      refine ⟨n, dto, i, by omega, he, hkey.symm, fun k hk hkn => ?_, ?_⟩
      · obtain rfl : k = n + 1 := by omega
        rw [hv]
        exact Option.some_ne_none v
      · rw [hdesk, uncached_cache, ← hwv]
        exact factory_ok hw
    · have hold : (deskAt collation rt es start n).cache key = some v := by
        rw [hdesk] at hv
        simpa [Function.update_of_ne hkey] using hv
      exact h.stays hold hv fun a => by rw [hdesk, uncached_cache]
  · have hsame : deskAt collation rt es start (n + 1) = deskAt collation rt es start n := by
      rw [hnext, RateEvent.apply, hs]
    exact h.stays (by rwa [hsame] at hv) hv fun _ => by rw [hsame]

theorem Stored.createRate {dto : CreateRateDto} {i : CreateInput}
    (h : Stored collation rt es start n) (he : es[n]? = some (.createRate dto i))
    (hcut : i.cut = none) : Stored collation rt es start (n + 1) := by
  have hnext := @deskAt_succ collation rt _ start _ _ he
  intro key v hv
  have hsame : ∀ r, RatesService.createRate dto i (deskAt collation rt es start n) =
      (r, deskAt collation rt es start n) → ∃ m a i, m < n + 1 ∧ es[m]? = some (.estimate a i) ∧
        cacheKey rt a = key ∧
        (∀ k, m < k → k ≤ n + 1 → (deskAt collation rt es start k).cache key ≠ none) ∧
        uncached collation a (deskAt collation rt es start (n + 1)) = .ok v := by
    intro r hr
    have hdesk : deskAt collation rt es start (n + 1) = deskAt collation rt es start n := by
      rw [hnext, RateEvent.apply, hr]
    exact h.stays (by rwa [hdesk] at hv) hv fun _ => by rw [hdesk]
  cases hf : i.fails with
  | true => exact hsame (.error .database) (by simp [RatesService.createRate, hf])
  | false =>
    cases hrow : insertRate dto (deskAt collation rt es start n) with
    | error e => exact hsame (.error e) (by simp [RatesService.createRate, hf, hrow])
    | ok r =>
      have hcache : r.2.cache = (deskAt collation rt es start n).cache := by
        simp only [insertRate, bind_eq_ok, pure_eq_ok] at hrow
        obtain ⟨_, -, _, -, _, -, _, -, _, -, _, -, _, -, _, -, _, -, _, -, _, -, rfl⟩ := hrow
        rfl
      rw [hnext, RateEvent.apply, RatesService.createRate, hf, hrow] at hv
      simp only [Bool.false_eq_true, if_false, invalidateRates, hcut, Option.all_none,
        Bool.and_true, hcache] at hv
      split at hv
      · cases hv
      next hprefix =>
        obtain ⟨m, a, j, -, -, rfl, -⟩ := h key v hv
        exact absurd (prefix_cacheKey a) hprefix

theorem Stored.expire {key : String} (h : Stored collation rt es start n)
    (he : es[n]? = some (.expire key)) : Stored collation rt es start (n + 1) := by
  have hdesk : deskAt collation rt es start (n + 1) = { deskAt collation rt es start n with
      cache := Function.update (deskAt collation rt es start n).cache key none } := deskAt_succ he
  intro key' v hv
  have hne : key' ≠ key := by
    rintro rfl
    rw [hdesk] at hv
    simp at hv
  have hold : (deskAt collation rt es start n).cache key' = some v := by
    rw [hdesk] at hv
    simpa [Function.update_of_ne hne] using hv
  exact h.stays hold hv fun a => by rw [hdesk, uncached_cache]

/-! ### Whole runs -/

def Invalidates (es : List RateEvent) : Prop := ∀ dto i, .createRate dto i ∈ es → i.cut = none

/-- An estimate that is served an entry asks about the parcel of every estimate since which the
entry may have been there. -/
def KeysTell (collation : String → String → Bool) (rt : Runtime) (es : List RateEvent)
    (start : RateDesk) : Prop :=
  ∀ m n a i b j, es[m]? = some (.estimate a i) → es[n]? = some (.estimate b j) →
    cacheKey rt a = cacheKey rt b → j.redis.getFails = false →
    (∀ k, m < k → k ≤ n → (deskAt collation rt es start k).cache (cacheKey rt b) ≠ none) →
    m < n → parcel a = parcel b

theorem stored_at (hstart : start.cache = fun _ => none) (hcut : Invalidates es) (hn : n ≤ es.length) :
    Stored collation rt es start n := by
  induction n with
  | zero =>
    intro key v hv
    rw [deskAt, List.take_zero, List.foldl_nil, hstart] at hv
    cases hv
  | succ n ih =>
    have hlt : n < es.length := by omega
    have he : es[n]? = some es[n] := List.getElem?_eq_getElem hlt
    have hprev : Stored collation rt es start n := ih (by omega)
    cases hevent : es[n] with
    | estimate dto i => exact hprev.estimate (hevent ▸ he)
    | createRate dto i =>
      exact hprev.createRate (hevent ▸ he) (hcut dto i (hevent ▸ List.getElem_mem hlt))
    | expire key => exact hprev.expire (hevent ▸ he)

/-- Every estimate of a run is that of the uncached computation, as long as the keys tell its
parcels apart and every new rate empties the cache. -/
theorem estimates_faithful (collation : String → String → Bool) (rt : Runtime) (es : List RateEvent)
    (start : RateDesk) (hstart : start.cache = fun _ => none) (hcut : Invalidates es)
    (hkeys : KeysTell collation rt es start) :
    ∀ n dto i, es[n]? = some (.estimate dto i) →
      Faithful collation rt dto i (deskAt collation rt es start n) := by
  intro n dto i he
  have hn : n ≤ es.length := Nat.le_of_lt (List.getElem?_eq_some_iff.mp he).1
  unfold Faithful
  rcases estimate_cases collation rt dto i (deskAt collation rt es start n) with
    ⟨v, hget, hv, hs⟩ | ⟨v, hv, hs | hs⟩ | ⟨e, hv, hs⟩
  · rw [hs]
    obtain ⟨m, a, j, hm, ha, hkey, hthere, hstored⟩ := stored_at hstart hcut hn _ v hv
    have hparcel : parcel a = parcel dto := hkeys m n a j dto i ha he hkey hget hthere hm
    have hsame : uncached collation a (deskAt collation rt es start n) =
        uncached collation dto (deskAt collation rt es start n) := factory_parcel hparcel _ _
    exact hsame ▸ hstored
  · rw [hs]
    exact factory_ok hv
  · rw [hs]
    exact factory_ok hv
  · rw [hs]
    exact hv

/-- One zone, and a rate of fifty and ten for each kilogram. -/
def surfaceDesk : RateDesk where
  zones := Table.empty.insert fun n =>
    { id := n, code := "IN-SOUTH", pincodeFrom := some "500000", pincodeTo := some "699999" }
  cards := [⟨0, "p1", "shiprocket", none, none⟩]
  rates := Table.empty.insert fun n =>
    { id := n, rateCard := ⟨0, "p1", "shiprocket", none, none⟩, baseRate := 50, perKgRate := 10 }

def kilogram (declaredValue : Option ℚ) : EstimateShippingDto where
  fromPincode := "500001"
  toPincode := "560001"
  weightKg := 1
  declaredValue := declaredValue

def byCodePoint (a b : String) : Bool := decide (a ≤ b)

theorem estimates_faithful_repriced :
    Faithful byCodePoint .plain (kilogram none) {} (deskAt byCodePoint .plain
      [.estimate (kilogram none) {}, .createRate ⟨0, none, none, 0, none, 20, 5⟩ {},
        .estimate (kilogram none) {}, .estimate (kilogram none) {}] surfaceDesk 2) := by
  refine estimates_faithful _ _ _ _ rfl ?_ ?_ 2 _ _ rfl
  · intro dto i h
    simp only [List.mem_cons, reduceCtorEq, RateEvent.createRate.injEq, List.not_mem_nil, or_false,
      false_or] at h
    rw [h.2]
  · intro m n a i b j ha hb _ _ _ _
    have hall : ∀ x k, RateEvent.estimate x k ∈ [RateEvent.estimate (kilogram none) {},
        .createRate ⟨0, none, none, 0, none, 20, 5⟩ {}, .estimate (kilogram none) {},
        .estimate (kilogram none) {}] → x = kilogram none := by
      intro x k h
      simp only [List.mem_cons, reduceCtorEq, RateEvent.estimate.injEq, List.not_mem_nil, or_false,
        false_or] at h
      tauto
    rw [hall a i (List.mem_of_getElem? ha), hall b j (List.mem_of_getElem? hb)]

def totals (answer : Except Failure RateEstimate) : Option (List ℚ) :=
  answer.toOption.map fun v => v.quotes.map RateQuote.total

/-- A parcel without a declared value, then the same parcel with one of a thousand: the second
quote leaves out the insurance. -/
theorem estimate_uninsured :
    totals (estimate byCodePoint .plain (kilogram (some 1000)) {} (deskAt byCodePoint .plain
        [.estimate (kilogram none) {}, .estimate (kilogram (some 1000)) {}] surfaceDesk 1)).1 =
      some [60] ∧
    totals (uncached byCodePoint (kilogram (some 1000)) (deskAt byCodePoint .plain
        [.estimate (kilogram none) {}, .estimate (kilogram (some 1000)) {}] surfaceDesk 1)) =
      some [65] ∧
    ¬ Faithful byCodePoint .plain (kilogram (some 1000)) {} (deskAt byCodePoint .plain
        [.estimate (kilogram none) {}, .estimate (kilogram (some 1000)) {}] surfaceDesk 1) := by
  have hserved : totals (estimate byCodePoint .plain (kilogram (some 1000)) {}
      (deskAt byCodePoint .plain [.estimate (kilogram none) {}, .estimate (kilogram (some 1000)) {}]
        surfaceDesk 1)).1 = some [60] := by decide +kernel
  have hcomputed : totals (uncached byCodePoint (kilogram (some 1000)) (deskAt byCodePoint .plain
      [.estimate (kilogram none) {}, .estimate (kilogram (some 1000)) {}] surfaceDesk 1)) =
        some [65] := by decide +kernel
  refine ⟨hserved, hcomputed, fun h => ?_⟩
  unfold Faithful at h
  cases hs : (estimate byCodePoint .plain (kilogram (some 1000)) {} (deskAt byCodePoint .plain
      [.estimate (kilogram none) {}, .estimate (kilogram (some 1000)) {}] surfaceDesk 1)).1 with
  | error e =>
    rw [hs] at hserved
    cases hserved
  | ok v =>
    rw [hs] at h hserved
    rw [show uncached byCodePoint (kilogram (some 1000)) _ = _ from h, hserved] at hcomputed
    exact absurd hcomputed (by decide +kernel)

end ElectronicsCart.Shipping
