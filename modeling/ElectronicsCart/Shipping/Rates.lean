import ElectronicsCart.Core.Cache
import ElectronicsCart.Lib.Table
import Mathlib.Data.List.Sort
import Mathlib.Data.Rat.Floor

/-!
# Shipping rates

`RatesService.estimate` and `createRate` of `modules/shipping/services/rates.service.ts`, over
`shipping_zones`, `shipping_rates` and the cards they belong to (`database/sql/022_shipping.sql`).
Queries without an `ORDER BY` give the rows as the table holds them; the numbers of a request are
finite and computed with exactly, where the code adds and rounds doubles: its totals can differ from
these in the last of their two decimals.
-/

namespace ElectronicsCart.Shipping

open Relational

structure ShippingZone where
  id : ℕ
  code : String
  pincodeFrom : Option String := none
  pincodeTo : Option String := none
  active : Bool := true
  deleted : Bool := false
deriving DecidableEq, Repr

/-- A `shipping_rate_cards` row with the partner and the service that it names. -/
structure RateCard where
  id : ℕ
  partnerId : String
  partnerCode : String
  serviceId : Option String := none
  serviceName : Option String := none
deriving DecidableEq, Repr

/-- A `shipping_rates` row with its card. -/
structure ShippingRate where
  id : ℕ
  rateCard : RateCard
  fromZoneId : Option ℕ := none
  toZoneId : Option ℕ := none
  minWeightKg : ℚ := 0
  maxWeightKg : Option ℚ := none
  baseRate : ℚ
  perKgRate : ℚ := 0
  currency : String := "INR"
  active : Bool := true
  deleted : Bool := false
deriving DecidableEq, Repr

instance : Keyed ShippingZone := ⟨ShippingZone.id⟩
instance : Keyed ShippingRate := ⟨ShippingRate.id⟩

structure EstimateShippingDto where
  fromPincode : String
  toPincode : String
  weightKg : ℚ
  cod : Option Bool := none
  declaredValue : Option ℚ := none
  partnerId : Option String := none
deriving DecidableEq, Repr

structure CreateRateDto where
  rateCardId : ℕ
  fromZoneId : Option ℕ := none
  toZoneId : Option ℕ := none
  minWeightKg : ℚ
  maxWeightKg : Option ℚ := none
  baseRate : ℚ
  perKgRate : ℚ
deriving DecidableEq, Repr

structure RateQuote where
  rateId : ℕ
  partnerId : String
  partnerCode : String
  serviceId : Option String
  serviceName : Option String
  currency : String
  baseRate : ℚ
  perKgRate : ℚ
  codFee : ℚ
  insurance : ℚ
  total : ℚ
  fromZone : String
  toZone : String
deriving DecidableEq, Repr

structure RateEstimate where
  quotes : List RateQuote
  fromZone : String
  toZone : String
deriving DecidableEq, Repr

structure CreatedRate where
  id : ℕ
  baseRate : ℚ
  perKgRate : ℚ
deriving DecidableEq, Repr

/-- The tables, and what the cache holds under the keys of `estimate`. -/
structure RateDesk where
  zones : Table ShippingZone
  cards : List RateCard
  rates : Table ShippingRate
  cache : String → Option RateEstimate := fun _ => none

/-- Rounding of a `NUMERIC` column, and of `toFixed` for an exact amount: to the nearest, ties away from
zero. -/
def roundTo (scale : ℕ) (q : ℚ) : ℚ :=
  let size := ((|q| * 10 ^ scale + 1 / 2).floor : ℚ) / 10 ^ scale
  if q < 0 then -size else size

/-! ### Prices -/

section Prices

variable (dto : EstimateShippingDto) (r : ShippingRate)

def codAsked : Bool := dto.cod.getD false

/-- The amount before fees. -/
def freight : ℚ :=
  let billable := max dto.weightKg r.minWeightKg
  r.baseRate + r.perKgRate * max 0 (billable - r.minWeightKg)

def codFee : ℚ := if codAsked dto then min 50 (freight dto r * (2 / 100)) else 0

def insurance : ℚ :=
  match dto.declaredValue with
  | some value => if 0 < value then value * (5 / 1000) else 0
  | none => 0

def total : ℚ := roundTo 2 (freight dto r + (codFee dto r + insurance dto))

def quote (fromZone toZone : ShippingZone) : RateQuote where
  rateId := r.id
  partnerId := r.rateCard.partnerId
  partnerCode := r.rateCard.partnerCode
  serviceId := r.rateCard.serviceId
  serviceName := r.rateCard.serviceName
  currency := r.currency
  baseRate := r.baseRate
  perKgRate := r.perKgRate
  codFee := codFee dto r
  insurance := insurance dto
  total := total dto r
  fromZone := fromZone.code
  toZone := toZone.code

/-- The `where` of the rates query. -/
def offered : Bool :=
  !r.deleted && r.active && decide (r.minWeightKg ≤ dto.weightKg) &&
    r.maxWeightKg.all (fun limit => decide (dto.weightKg ≤ limit)) &&
    (truthy dto.partnerId).all (r.rateCard.partnerId == ·)

def serves (fromZone toZone : ShippingZone) : Bool :=
  r.fromZoneId.all (· == fromZone.id) && r.toZoneId.all (· == toZone.id)

end Prices

/-! ### `RatesService` -/

namespace RatesService

section Estimate

-- `a <= b` of the database for texts
variable (collation : String → String → Bool)

def findZone (pincode : String) (s : RateDesk) : Option ShippingZone :=
  s.zones.first? fun z => !z.deleted && z.active && z.pincodeFrom.any (collation · pincode) &&
    z.pincodeTo.any (collation pincode ·)

def findRates (dto : EstimateShippingDto) (s : RateDesk) : List ShippingRate :=
  (s.rates.rows.filter (offered dto)).take 20

def zoneNotFound : Failure :=
  .throwApp .badRequest "Shipping zone not found for pincode" 400

def quotesFor (dto : EstimateShippingDto) (fromZone toZone : ShippingZone)
    (rates : List ShippingRate) : RateEstimate where
  quotes := ((rates.filter fun r => serves r fromZone toZone).map fun r =>
    quote dto r fromZone toZone).insertionSort fun a b => a.total ≤ b.total
  fromZone := fromZone.code
  toZone := toZone.code

def ask {α : Type} (fails : Bool) (answer : α) : Except Failure α :=
  if fails then .error .database else .ok answer

/-- What `estimate` computes when nothing is cached; `fails` says which of its queries fail. -/
def factory (fails : ℕ → Bool) (dto : EstimateShippingDto) (s : RateDesk) :
    Except Failure RateEstimate := do
  let fromZone ← ask (fails 0) (findZone collation dto.fromPincode s)
  let toZone ← ask (fails 1) (findZone collation dto.toPincode s)
  match fromZone, toZone with
  | some fromZone, some toZone => do
    let rates ← ask (fails 2) (findRates dto s)
    return quotesFor dto fromZone toZone rates
  | _, _ => .error zoneNotFound

structure EstimateInput where
  redis : RedisInput := {}
  fails : ℕ → Bool := fun _ => false

variable (rt : Runtime)

def ratesPrefix : String := "shipping:rates:"

def cacheKey (dto : EstimateShippingDto) : String :=
  ratesPrefix ++ ":".intercalate [dto.fromPincode, dto.toPincode, rt.numberText dto.weightKg,
    if codAsked dto then "cod" else "ppd", dto.partnerId.getD "any"]

def access (dto : EstimateShippingDto) (i : EstimateInput) (s : RateDesk) :
    ReadThrough.Access String RateEstimate Failure where
  key := cacheKey rt dto
  source := factory collation i.fails dto s
  getFails := i.redis.getFails
  setFails := i.redis.setFails

def estimate (dto : EstimateShippingDto) (i : EstimateInput) (s : RateDesk) :
    Except Failure RateEstimate × RateDesk :=
  let read := ReadThrough.read some s.cache (access collation rt dto i s)
  (read.1, { s with cache := read.2 })

end Estimate

/-- Whether the insert fails, and the keys that a failing `delByPrefix` has got to. -/
structure CreateInput where
  fails : Bool := false
  cut : Option (String → Bool) := none

/-- `delByPrefix`. -/
def invalidateRates (i : CreateInput) (cache : String → Option RateEstimate) :
    String → Option RateEstimate :=
  fun k => if ratesPrefix.toList.isPrefixOf k.toList && i.cut.all (· k) then none else cache k

/-- A value as a `NUMERIC(precision, scale)` column takes it. -/
def numeric (precision scale : ℕ) (name : String) (q : ℚ) : Except Failure ℚ := do
  check (decide (|roundTo scale q| < 10 ^ (precision - scale))) name
  return roundTo scale q

def insertRate (dto : CreateRateDto) (s : RateDesk) : Except Failure (CreatedRate × RateDesk) := do
  let card ← (s.cards.find? fun c => c.id == dto.rateCardId).elim
    (.error (.constraint "shipping_rates_rate_card_id_fkey")) .ok
  check (dto.fromZoneId.all fun z => (s.zones.find? z).isSome) "shipping_rates_from_zone_id_fkey"
  check (dto.toZoneId.all fun z => (s.zones.find? z).isSome) "shipping_rates_to_zone_id_fkey"
  let minWeightKg ← numeric 10 3 "shipping_rates_min_weight_kg" dto.minWeightKg
  let maxWeightKg ← dto.maxWeightKg.mapM (numeric 10 3 "shipping_rates_max_weight_kg")
  let baseRate ← numeric 12 2 "shipping_rates_base_rate" dto.baseRate
  let perKgRate ← numeric 12 2 "shipping_rates_per_kg_rate" dto.perKgRate
  check (decide (0 ≤ minWeightKg)) "shipping_rates_min_weight_kg_check"
  check (maxWeightKg.all fun limit => decide (minWeightKg ≤ limit)) "shipping_rates_check"
  check (decide (0 ≤ baseRate)) "shipping_rates_base_rate_check"
  check (decide (0 ≤ perKgRate)) "shipping_rates_per_kg_rate_check"
  let rates := s.rates.insert fun n =>
    { id := n, rateCard := card, fromZoneId := dto.fromZoneId, toZoneId := dto.toZoneId,
      minWeightKg, maxWeightKg, baseRate, perKgRate }
  return (⟨s.rates.next, baseRate, perKgRate⟩, { s with rates })

def createRate (dto : CreateRateDto) (i : CreateInput) (s : RateDesk) :
    Except Failure CreatedRate × RateDesk :=
  if i.fails then (.error .database, s)
  else
    match insertRate dto s with
    | .error e => (.error e, s)
    | .ok (row, s') => (.ok row, { s' with cache := invalidateRates i s'.cache })

end RatesService

end ElectronicsCart.Shipping
