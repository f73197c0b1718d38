import ElectronicsCart.Shipping.RateRuns
import Mathlib.Data.List.Perm.Basic

/-!
# Which rates an estimate quotes

`RatesService.estimate` reads at most twenty of the rates that its query matches, in whatever order
the database gives them, and picks the ones of the two zones from these.
-/

namespace ElectronicsCart.Shipping

open Relational RatesService

/-- The rates that a parcel between two zones can be sent at. -/
structure Applies (dto : EstimateShippingDto) (fromZone toZone : ShippingZone) (r : ShippingRate) :
    Prop where
  active : r.active = true ∧ r.deleted = false
  lightest : r.minWeightKg ≤ dto.weightKg
  heaviest : ∀ limit, r.maxWeightKg = some limit → dto.weightKg ≤ limit
  origin : ∀ zone, r.fromZoneId = some zone → zone = fromZone.id
  destination : ∀ zone, r.toZoneId = some zone → zone = toZone.id
  partner : ∀ partner, truthy dto.partnerId = some partner → r.rateCard.partnerId = partner

variable {dto : EstimateShippingDto} {fromZone toZone : ShippingZone} {r : ShippingRate}

theorem offered_iff : offered dto r = true ↔ (r.active = true ∧ r.deleted = false) ∧
    r.minWeightKg ≤ dto.weightKg ∧ (∀ limit, r.maxWeightKg = some limit → dto.weightKg ≤ limit) ∧
    ∀ partner, truthy dto.partnerId = some partner → r.rateCard.partnerId = partner := by
  simp only [offered, Bool.and_eq_true, Bool.not_eq_true', decide_eq_true_eq, Option.all_eq_true,
    beq_iff_eq]
  constructor
  · rintro ⟨⟨⟨⟨hkept, hactive⟩, hmin⟩, hmax⟩, hpartner⟩
    exact ⟨⟨hactive, hkept⟩, hmin, hmax, hpartner⟩
  · rintro ⟨⟨hactive, hkept⟩, hmin, hmax, hpartner⟩
    exact ⟨⟨⟨⟨hkept, hactive⟩, hmin⟩, hmax⟩, hpartner⟩

theorem serves_iff : serves r fromZone toZone = true ↔
    (∀ zone, r.fromZoneId = some zone → zone = fromZone.id) ∧
      ∀ zone, r.toZoneId = some zone → zone = toZone.id := by
  simp only [serves, Bool.and_eq_true, Option.all_eq_true, beq_iff_eq]

theorem applies_iff : Applies dto fromZone toZone r ↔
    offered dto r = true ∧ serves r fromZone toZone = true := by
  rw [offered_iff, serves_iff]
  constructor
  · intro h
    exact ⟨⟨h.active, h.lightest, h.heaviest, h.partner⟩, h.origin, h.destination⟩
  · rintro ⟨⟨hactive, hmin, hmax, hpartner⟩, hfrom, hto⟩
    exact ⟨hactive, hmin, hmax, hfrom, hto, hpartner⟩

instance : DecidablePred (Applies dto fromZone toZone) := fun _ => decidable_of_iff' _ applies_iff

/-- One quote for each rate that applies, the cheapest first. -/
structure Complete (dto : EstimateShippingDto) (fromZone toZone : ShippingZone)
    (rates : List ShippingRate) (v : RateEstimate) : Prop where
  quotes : v.quotes.Perm
    ((rates.filter fun r => Applies dto fromZone toZone r).map fun r => quote dto r fromZone toZone)
  sorted : v.quotes.Pairwise fun a b => a.total ≤ b.total

theorem filter_applies (rates : List ShippingRate) :
    (rates.filter fun r => Applies dto fromZone toZone r) =
      (rates.filter (offered dto)).filter fun r => serves r fromZone toZone := by
  rw [List.filter_filter]
  refine List.filter_congr fun r _ => ?_
  simp only [applies_iff, Bool.decide_and, Bool.decide_eq_true, Bool.and_comm]

theorem quotesFor_perm (rates : List ShippingRate) :
    (quotesFor dto fromZone toZone rates).quotes.Perm
      ((rates.filter fun r => serves r fromZone toZone).map fun r => quote dto r fromZone toZone) :=
  List.perm_insertionSort _ _

theorem quotesFor_sorted (rates : List ShippingRate) :
    (quotesFor dto fromZone toZone rates).quotes.Pairwise fun a b => a.total ≤ b.total := by
  have : Std.Total fun a b : RateQuote => a.total ≤ b.total := ⟨fun a b => le_total a.total b.total⟩
  have : IsTrans RateQuote fun a b => a.total ≤ b.total := ⟨fun a b c => le_trans⟩
  exact List.pairwise_insertionSort _ _

theorem filter_take_length {α : Type} (p : α → Bool) (n : ℕ) (rows : List α) :
    (rows.filter p).length = ((rows.take n).filter p).length + ((rows.drop n).filter p).length := by
  conv_lhs => rw [← List.take_append_drop n rows]
  rw [List.filter_append, List.length_append]

theorem complete_iff {s : RateDesk} :
    Complete dto fromZone toZone s.rates.rows (quotesFor dto fromZone toZone (findRates dto s)) ↔
      ∀ r ∈ (s.rates.rows.filter (offered dto)).drop 20, serves r fromZone toZone = false := by
  have hread : (quotesFor dto fromZone toZone (findRates dto s)).quotes.Perm _ := quotesFor_perm _
  constructor
  · intro h r hr
    have hlength := (hread.symm.trans h.quotes).length_eq
    rw [List.length_map, List.length_map, filter_applies, findRates,
      filter_take_length _ 20 (s.rates.rows.filter (offered dto))] at hlength
    have hnone : ((s.rates.rows.filter (offered dto)).drop 20).filter
        (fun r => serves r fromZone toZone) = [] := List.eq_nil_of_length_eq_zero (by omega)
    simpa using List.filter_eq_nil_iff.mp hnone r hr
  · intro h
    refine ⟨hread.trans ?_, quotesFor_sorted _⟩
    have hnone : ((s.rates.rows.filter (offered dto)).drop 20).filter
        (fun r => serves r fromZone toZone) = [] :=
      List.filter_eq_nil_iff.mpr fun r hr => by simp [h r hr]
    have hall : (s.rates.rows.filter fun r => Applies dto fromZone toZone r) =
        (findRates dto s).filter fun r => serves r fromZone toZone := by
      rw [filter_applies, findRates]
      conv_lhs => rw [← List.take_append_drop 20 (s.rates.rows.filter (offered dto))]
      rw [List.filter_append, hnone, List.append_nil]
    rw [hall]

section Estimate

variable {collation : String → String → Bool} {rt : Runtime} {s : RateDesk} {i : EstimateInput}

theorem estimate_miss (hfrom : findZone collation dto.fromPincode s = some fromZone)
    (hto : findZone collation dto.toPincode s = some toZone)
    (hmiss : ReadThrough.hit s.cache (access collation rt dto i s) = none)
    (hfails : ∀ query, i.fails query = false) :
    (estimate collation rt dto i s).1 = .ok (quotesFor dto fromZone toZone (findRates dto s)) := by
  have hsource : (access collation rt dto i s).source =
      .ok (quotesFor dto fromZone toZone (findRates dto s)) := by
    simp only [access, factory, ask, hfails, hfrom, hto, Bool.false_eq_true, if_false]
    rfl
  show (ReadThrough.read some s.cache (access collation rt dto i s)).1 = _
  rw [ReadThrough.read_miss hmiss, hsource]

end Estimate

def southZone : ShippingZone where
  id := 0
  code := "IN-SOUTH"
  pincodeFrom := some "500000"
  pincodeTo := some "699999"

/-- Twenty rates to another zone and then one to all zones. -/
def crowdedDesk : RateDesk := { surfaceDesk with
  rates := ⟨(List.range 21).map fun n =>
    { id := n, rateCard := ⟨0, "p1", "shiprocket", none, none⟩, baseRate := 50,
      toZoneId := if n < 20 then some 1 else none }, 21, by decide, by decide⟩ }

end ElectronicsCart.Shipping
