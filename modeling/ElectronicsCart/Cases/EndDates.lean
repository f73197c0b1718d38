import ElectronicsCart.Cases.Registrations
import ElectronicsCart.Core.Gregorian

/-!
# The end of a warranty

`end.setMonth(end.getMonth() + plan.duration_months)` in `register` and in `extend` of
`modules/warranty/services/warranty.service.ts`, for every start.  `setMonth` keeps the day of the
month, and a day that the month does not have runs over into the next.
-/

namespace ElectronicsCart.Cases

open Gregorian

/-- The `end` of `register` and of `extend`; the start is now, or for an extension the present end
date where that is later. -/
def endDate (plan : WarrantyPlan) (start : Instant) : Option Instant :=
  start.setMonth (start.getMonth + plan.durationMonths)

/-- The end lies as many months later as the plan lasts, on the last day of the month when the day of
the start does not exist there, and longer plans end later. -/
def EndsInItsMonth (plan : WarrantyPlan) (start : Instant) : Prop :=
  ∃ finish, endDate plan start = some finish ∧ start.MonthsLater finish plan.durationMonths ∧
    ∀ longer finish', plan.durationMonths < longer.durationMonths →
      endDate longer start = some finish' → finish.time < finish'.time

theorem toDate_endDate {plan : WarrantyPlan} {start finish : Instant} {time : ℕ}
    (hstart : start.time = time) (h : endDate plan start = some finish) :
    Calendar.toDate (Calendar.addMonths plan.durationMonths time) =
      finish.date.dayNumber * Gregorian.msPerDay := by
  have hfinish := (addMonths_natCast hstart).mp h
  rw [Instant.date, dayNumber_ofDay, hfinish]
  rfl

theorem insertRegistration_endDate {plan : WarrantyPlan} {start finish : Instant}
    {customerId serialId now : ℕ} {s s' : CareState} {row : WarrantyRegistration}
    (hstart : start.time = now) (h : endDate plan start = some finish)
    (hrow : WarrantyService.insertRegistration customerId plan serialId now s = .ok (row, s')) :
    row.endDate = finish.date.dayNumber * Gregorian.msPerDay := by
  simp only [WarrantyService.insertRegistration, bind_eq_ok, check_eq_ok, pure_eq_ok,
    Prod.mk.injEq] at hrow
  obtain ⟨_, -, _, -, rfl, -⟩ := hrow
  exact toDate_endDate hstart h

theorem writeExtension_endDate {plan : WarrantyPlan} {start finish : Instant}
    {registrationId present now : ℕ} {amount : Option ℚ} {s s' : CareState} {row : WarrantyExtension}
    (hstart : start.time = WarrantyService.extensionStart present now)
    (h : endDate plan start = some finish)
    (hrow : WarrantyService.writeExtension registrationId plan
      (WarrantyService.extensionStart present now) (WarrantyService.extensionEnd plan present now)
      amount s = .ok (row, s')) :
    row.endDate = finish.date.dayNumber * Gregorian.msPerDay := by
  simp only [WarrantyService.writeExtension, bind_eq_ok, check_eq_ok, pure_eq_ok,
    Prod.mk.injEq] at hrow
  obtain ⟨_, -, _, -, _, -, _, -, rfl, -⟩ := hrow
  exact toDate_endDate hstart h

/-- A warranty ends in its month exactly when the day of the start exists in that month, as far as
dates go. -/
theorem ends_in_its_month_iff (plan : WarrantyPlan) (start : Instant) :
    EndsInItsMonth plan start ↔
      start.date.day < monthLength (start.date.month + plan.durationMonths) ∧
        start.Reachable plan.durationMonths := by
  rw [← Instant.addMonths_iff]
  constructor
  · rintro ⟨finish, hfinish, hlater, hlonger⟩
    refine ⟨finish, hfinish, hlater, fun months finish' hlt h => ?_⟩
    exact hlonger { plan with durationMonths := months } finish' hlt h
  · rintro ⟨finish, hfinish, hlater, hlonger⟩
    exact ⟨finish, hfinish, hlater, fun longer finish' hlt h => hlonger _ finish' hlt h⟩

/-- 31 January 2026. -/
def endOfJanuary : Instant := ⟨1769817600000, by decide, by decide⟩

/-- A month from 31 January 2026 ends on 3 March. -/
theorem month_overrun :
    ¬ ∀ (plan : WarrantyPlan) (start : Instant), 0 < plan.durationMonths → EndsInItsMonth plan start := by
  intro h
  obtain ⟨finish, hfinish, hlater, -⟩ :=
    h { id := 0, durationMonths := 1 } endOfJanuary (by decide)
  have hexists := (Instant.monthsLater_iff hfinish).mp hlater
  exact absurd hexists (by decide +kernel)

end ElectronicsCart.Cases
