import ElectronicsCart.Core.Calendar
import Mathlib.Data.Int.ConditionallyCompleteOrder
import Mathlib.Order.Monotone.Basic
import Mathlib.Tactic.IntervalCases
import Mathlib.Tactic.SplitIfs

/-!
# Dates of the whole calendar

`getMonth` and `setMonth` of a JavaScript `Date` in UTC, over the proleptic Gregorian calendar and
for every time a `Date` can hold.  Months are counted from January 1970, days within a month from
zero.
-/

namespace Gregorian

def msPerDay : ℤ := 86400000

def isLeap (year : ℤ) : Bool := year % 4 == 0 && (year % 100 != 0 || year % 400 == 0)

/-- The day on which a year begins, counted from 1 January 1970. -/
def yearStart (year : ℤ) : ℤ :=
  365 * (year - 1970) + (year - 1969) / 4 - (year - 1901) / 100 + (year - 1601) / 400

def commonLength (monthOfYear : ℤ) : ℤ :=
  if monthOfYear = 1 then 28
  else if monthOfYear = 3 ∨ monthOfYear = 5 ∨ monthOfYear = 8 ∨ monthOfYear = 10 then 30
  else 31

def daysBefore (monthOfYear : ℤ) : ℤ :=
  match monthOfYear with
  | 0 => 0 | 1 => 31 | 2 => 59 | 3 => 90 | 4 => 120 | 5 => 151
  | 6 => 181 | 7 => 212 | 8 => 243 | 9 => 273 | 10 => 304 | _ => 334

def leapYear (month : ℤ) : Bool := isLeap (1970 + month / 12)

def monthLength (month : ℤ) : ℤ :=
  commonLength (month % 12) + if month % 12 = 1 ∧ leapYear month = true then 1 else 0

def monthStart (month : ℤ) : ℤ :=
  yearStart (1970 + month / 12) + daysBefore (month % 12) +
    if 2 ≤ month % 12 ∧ leapYear month = true then 1 else 0

theorem yearStart_succ (year : ℤ) :
    yearStart (year + 1) = yearStart year + if isLeap year then 366 else 365 := by
  simp only [yearStart, isLeap, Bool.and_eq_true, Bool.or_eq_true, beq_iff_eq, bne_iff_ne]
  split <;> omega

theorem daysBefore_succ {k : ℤ} (hlow : 0 ≤ k) (hhigh : k < 11) :
    daysBefore (k + 1) = daysBefore k + commonLength k := by
  interval_cases k <;> rfl

theorem monthStart_succ (month : ℤ) : monthStart (month + 1) = monthStart month + monthLength month := by
  by_cases hlast : month % 12 = 11
  · have hyear : (month + 1) / 12 = month / 12 + 1 := by omega
    have hfirst : (month + 1) % 12 = 0 := by omega
    have hlength : daysBefore 11 + commonLength 11 = daysBefore 0 + 365 := rfl
    simp only [monthStart, monthLength, leapYear, hyear, hfirst, hlast, ← add_assoc, yearStart_succ]
    cases isLeap (1970 + month / 12) <;> simp <;> omega
  · have hyear : (month + 1) / 12 = month / 12 := by omega
    have hnext : (month + 1) % 12 = month % 12 + 1 := by omega
    have hdays := daysBefore_succ (k := month % 12) (by omega) (by omega)
    simp only [monthStart, monthLength, leapYear, hyear, hnext, hdays]
    by_cases hleap : isLeap (1970 + month / 12) = true
    · simp only [hleap, and_true]
      split_ifs <;> omega
    · simp only [hleap, Bool.false_eq_true, and_false, if_false]
      omega

theorem monthLength_bounds (month : ℤ) : 28 ≤ monthLength month ∧ monthLength month ≤ 31 := by
  simp only [monthLength, commonLength]
  split_ifs <;> omega

theorem monthStart_strictMono : StrictMono monthStart := by
  refine strictMono_int_of_lt_succ fun month => ?_
  have hlength := (monthLength_bounds month).1
  rw [monthStart_succ]
  omega

/-! ### Days and dates -/

/-- A day of a month, both counted from zero. -/
@[ext] structure CivilDate where
  month : ℤ
  day : ℤ
  day_nonneg : 0 ≤ day
  day_lt : day < monthLength month

def CivilDate.dayNumber (d : CivilDate) : ℤ := monthStart d.month + d.day

theorem CivilDate.month_eq {d e : CivilDate} (h : d.dayNumber = e.dayNumber) : d.month = e.month := by
  have hbetween : ∀ a b : CivilDate, a.month < b.month → a.dayNumber < b.dayNumber := by
    intro a b hab
    have hnext := monthStart_strictMono.monotone (Int.add_one_le_of_lt hab)
    have ha := a.day_lt
    have hb := b.day_nonneg
    rw [monthStart_succ] at hnext
    simp only [CivilDate.dayNumber]
    omega
  rcases lt_trichotomy d.month e.month with hlt | heq | hgt
  · exact absurd h (hbetween d e hlt).ne
  · exact heq
  · exact absurd h (hbetween e d hgt).ne'

theorem CivilDate.dayNumber_inj {d e : CivilDate} (h : d.dayNumber = e.dayNumber) : d = e := by
  have hmonth := month_eq h
  refine CivilDate.ext hmonth ?_
  simp only [dayNumber, hmonth] at h
  omega

/-- The month of a day that is `day` days after the start of `month`, and the days into it. -/
def monthFrom : ℕ → ℤ → ℤ → ℤ × ℤ
  | 0, month, day => (month, day)
  | fuel + 1, month, day =>
    if day < monthLength month then (month, day)
    else monthFrom fuel (month + 1) (day - monthLength month)

theorem monthFrom_spec (fuel : ℕ) (month day : ℤ) (h : 0 ≤ day) (hfuel : day ≤ fuel) :
    monthStart (monthFrom fuel month day).1 + (monthFrom fuel month day).2 = monthStart month + day ∧
      0 ≤ (monthFrom fuel month day).2 ∧
        (monthFrom fuel month day).2 < monthLength (monthFrom fuel month day).1 := by
  induction fuel generalizing month day with
  | zero =>
    have hlength := (monthLength_bounds month).1
    obtain rfl : day = 0 := le_antisymm hfuel h
    exact ⟨rfl, le_rfl, by simp only [monthFrom]; omega⟩
  | succ fuel ih =>
    have hlength := (monthLength_bounds month).1
    unfold monthFrom
    split
    next hlt => exact ⟨rfl, h, hlt⟩
    next hge =>
      obtain ⟨hsum, hrest⟩ := ih (month + 1) (day - monthLength month) (by omega) (by omega)
      refine ⟨?_, hrest⟩
      rw [hsum, monthStart_succ]
      omega

theorem monthStart_cycle (cycles : ℤ) : monthStart (4800 * cycles) = 146097 * cycles := by
  have hyear : 4800 * cycles / 12 = 400 * cycles := by omega
  have hmonth : 4800 * cycles % 12 = 0 := by omega
  simp only [monthStart, hyear, hmonth, yearStart, daysBefore]
  norm_num
  omega

/-- The date of a day: within its cycle of four hundred years, month by month. -/
def ofDay (day : ℤ) : CivilDate :=
  let found := monthFrom (day % 146097).toNat (4800 * (day / 146097)) (day % 146097)
  have h := monthFrom_spec (day % 146097).toNat (4800 * (day / 146097)) (day % 146097)
    (Int.emod_nonneg day (by decide)) (Int.self_le_toNat _)
  ⟨found.1, found.2, h.2.1, h.2.2⟩

@[simp] theorem dayNumber_ofDay (day : ℤ) : (ofDay day).dayNumber = day := by
  have h := (monthFrom_spec (day % 146097).toNat (4800 * (day / 146097)) (day % 146097)
    (Int.emod_nonneg day (by decide)) (Int.self_le_toNat _)).1
  rw [monthStart_cycle] at h
  simp only [CivilDate.dayNumber, ofDay, h]
  omega

@[simp] theorem ofDay_dayNumber (d : CivilDate) : ofDay d.dayNumber = d :=
  CivilDate.dayNumber_inj (dayNumber_ofDay d.dayNumber)

/-! ### JavaScript dates -/

/-- The times a `Date` can hold go as far from the epoch as a hundred million days. -/
def maxTime : ℤ := 8640000000000000

/-- A valid `Date`. -/
@[ext] structure Instant where
  time : ℤ
  low : -maxTime ≤ time
  high : time ≤ maxTime
deriving DecidableEq

namespace Instant

def date (t : Instant) : CivilDate := ofDay (t.time / msPerDay)

def timeInDay (t : Instant) : ℤ := t.time % msPerDay

def getMonth (t : Instant) : ℤ := t.date.month % 12

/-- `TimeClip`: beyond the range the date is invalid. -/
def timeClip (time : ℤ) : Option Instant :=
  if h : -maxTime ≤ time ∧ time ≤ maxTime then some ⟨time, h.1, h.2⟩ else none

/-- `setMonth(month)`: the year, the day of the month and the time of the day stay.  A day that the
month does not have runs over into the next one. -/
def setMonth (t : Instant) (month : ℤ) : Option Instant :=
  timeClip ((monthStart (12 * (t.date.month / 12) + month) + t.date.day) * msPerDay + t.timeInDay)

def addMonths (t : Instant) (months : ℕ) : Option Instant := t.setMonth (t.getMonth + months)

variable {t e : Instant} {time : ℤ} {months : ℕ}

theorem time_eq (t : Instant) : t.time = t.date.dayNumber * msPerDay + t.timeInDay := by
  rw [date, dayNumber_ofDay, timeInDay]
  exact (Int.ediv_mul_add_emod t.time msPerDay).symm

theorem timeInDay_bounds (t : Instant) : 0 ≤ t.timeInDay ∧ t.timeInDay < msPerDay :=
  ⟨Int.emod_nonneg _ (by decide), Int.emod_lt_of_pos _ (by decide)⟩

theorem timeClip_eq_some : timeClip time = some e ↔ e.time = time := by
  unfold timeClip
  split
  next h =>
    rw [Option.some.injEq, Instant.ext_iff]
    exact eq_comm
  next h =>
    refine ⟨fun he => (nomatch he), fun he => absurd ?_ h⟩
    rw [← he]
    exact ⟨e.low, e.high⟩

theorem addMonths_eq_some : t.addMonths months = some e ↔
    e.time = (monthStart (t.date.month + months) + t.date.day) * msPerDay + t.timeInDay := by
  have hmonth : 12 * (t.date.month / 12) + (t.getMonth + months) = t.date.month + months := by
    simp only [getMonth]
    omega
  rw [addMonths, setMonth, timeClip_eq_some, hmonth]

theorem date_of_time {day rest : ℤ} (h : t.time = day * msPerDay + rest) (hlow : 0 ≤ rest)
    (hhigh : rest < msPerDay) : t.date = ofDay day ∧ t.timeInDay = rest := by
  have hpos : (0 : ℤ) < msPerDay := by decide
  have hdiv : t.time / msPerDay = day := by
    rw [h, Int.add_comm, Int.add_mul_ediv_right _ _ hpos.ne', Int.ediv_eq_zero_of_lt hlow hhigh, zero_add]
  refine ⟨by rw [date, hdiv], ?_⟩
  rw [timeInDay, h, Int.add_comm, Int.add_mul_emod_self_right, Int.emod_eq_of_lt hlow hhigh]

/-- The later date: so many months on, on the same day or else on the last of the month. -/
structure MonthsLater (start e : Instant) (months : ℕ) : Prop where
  month : e.date.month = start.date.month + months
  day : e.date.day = min start.date.day (monthLength (start.date.month + months) - 1)

theorem monthsLater_iff (h : t.addMonths months = some e) :
    MonthsLater t e months ↔ t.date.day < monthLength (t.date.month + months) := by
  obtain ⟨hlow, hhigh⟩ := t.timeInDay_bounds
  obtain ⟨hdate, -⟩ := date_of_time (addMonths_eq_some.mp h) hlow hhigh
  constructor
  · intro hlater
    have hday := e.date.day_lt
    have hnumber : e.date.dayNumber = monthStart (t.date.month + months) + t.date.day := by
      rw [hdate, dayNumber_ofDay]
    simp only [CivilDate.dayNumber, hlater.month] at hnumber hday
    omega
  · intro hexists
    let target : CivilDate := ⟨t.date.month + months, t.date.day, t.date.day_nonneg, hexists⟩
    have htarget : e.date = target := by
      rw [hdate]
      exact ofDay_dayNumber target
    have hlast : t.date.day ≤ monthLength (t.date.month + months) - 1 := by omega
    refine ⟨htarget ▸ rfl, ?_⟩
    rw [htarget]
    exact (min_eq_left hlast).symm

theorem addMonths_lt {months' : ℕ} {e' : Instant} (h : t.addMonths months = some e)
    (h' : t.addMonths months' = some e') (hlt : months < months') : e.time < e'.time := by
  have hstart : monthStart (t.date.month + months) < monthStart (t.date.month + months') :=
    monthStart_strictMono (by omega)
  rw [addMonths_eq_some.mp h, addMonths_eq_some.mp h']
  simp only [msPerDay]
  omega

/-! ### The end of the range -/

/-- The month in which the last valid `Date` lies, September 275760. -/
def lastMonth : ℤ := 3285488

theorem monthStart_lastMonth : (monthStart lastMonth + 12) * msPerDay = maxTime := by decide +kernel

/-- The day of the start, that many months later, is not after 13 September 275760, 00:00. -/
def Reachable (start : Instant) (months : ℕ) : Prop :=
  start.date.month + months < lastMonth ∨ start.date.month + months = lastMonth ∧
    (start.date.day < 12 ∨ start.date.day = 12 ∧ start.timeInDay = 0)

instance (start : Instant) (months : ℕ) : Decidable (Reachable start months) := by
  unfold Reachable
  infer_instance

theorem addMonths_isSome_iff (h : t.date.day < monthLength (t.date.month + months)) :
    (∃ e, t.addMonths months = some e) ↔ Reachable t months := by
  obtain ⟨hlow, hhigh⟩ := t.timeInDay_bounds
  have hday := t.date.day_nonneg
  have hlast := monthStart_lastMonth
  -- the later date is not before the start
  have hstart := t.time_eq
  have hmono := monthStart_strictMono.monotone (show t.date.month ≤ t.date.month + months by omega)
  have htime := t.low
  have hsome : (∃ e, t.addMonths months = some e) ↔
      (monthStart (t.date.month + months) + t.date.day) * msPerDay + t.timeInDay ≤ maxTime := by
    constructor
    · rintro ⟨e, he⟩
      exact addMonths_eq_some.mp he ▸ e.high
    · intro hle
      refine ⟨⟨_, ?_, hle⟩, addMonths_eq_some.mpr rfl⟩
      simp only [CivilDate.dayNumber, msPerDay] at *
      omega
  rw [hsome, ← hlast]
  rcases lt_trichotomy (t.date.month + months : ℤ) lastMonth with hlt | heq | hgt
  · have hnext := monthStart_strictMono.monotone (Int.add_one_le_of_lt hlt)
    rw [monthStart_succ] at hnext
    refine iff_of_true ?_ (.inl hlt)
    simp only [msPerDay] at *
    omega
  · rw [heq]
    simp only [Reachable, heq, lt_irrefl, false_or, true_and, msPerDay] at *
    omega
  · have hnext := monthStart_strictMono.monotone (Int.add_one_le_of_lt hgt)
    have hlength := (monthLength_bounds lastMonth).1
    rw [monthStart_succ] at hnext
    refine iff_of_false ?_ ?_
    · simp only [msPerDay] at *
      omega
    · rintro (hlt | ⟨heq, -⟩) <;> omega

/-- `addMonths` ends so many months later exactly when the day exists there and the range goes as
far; and then every longer duration ends later. -/
theorem addMonths_iff (t : Instant) (months : ℕ) :
    (∃ e, t.addMonths months = some e ∧ MonthsLater t e months ∧
      ∀ months' e', months < months' → t.addMonths months' = some e' → e.time < e'.time) ↔
      t.date.day < monthLength (t.date.month + months) ∧ Reachable t months := by
  constructor
  · rintro ⟨e, he, hlater, -⟩
    have hexists := (monthsLater_iff he).mp hlater
    exact ⟨hexists, (addMonths_isSome_iff hexists).mp ⟨e, he⟩⟩
  · rintro ⟨hexists, hreach⟩
    obtain ⟨e, he⟩ := (addMonths_isSome_iff hexists).mpr hreach
    exact ⟨e, he, (monthsLater_iff he).mpr hexists, fun _ _ hlt he' => addMonths_lt he he' hlt⟩

end Instant

/-! ### Times from 1970 on -/

theorem isLeap_natCast (year : ℕ) : isLeap year = Calendar.isLeap year := by
  rw [Bool.eq_iff_iff]
  simp only [isLeap, Calendar.isLeap, Bool.and_eq_true, Bool.or_eq_true, beq_iff_eq, bne_iff_ne]
  omega

theorem monthLength_natCast (month : ℕ) : monthLength month = Calendar.monthLength month := by
  have hleap : leapYear month = Calendar.isLeap (1970 + month / 12) := by
    rw [leapYear, ← isLeap_natCast]
    norm_cast
  have hmonth : ((month : ℤ) % 12) = ((month % 12 : ℕ) : ℤ) := by omega
  have hlt : month % 12 < 12 := Nat.mod_lt _ (by decide)
  rw [monthLength, hmonth, hleap, Calendar.monthLength]
  generalize month % 12 = k at hlt
  cases Calendar.isLeap (1970 + month / 12) <;> interval_cases k <;> rfl

theorem monthStart_natCast (month : ℕ) : monthStart month = Calendar.monthStart month := by
  induction month with
  | zero => rfl
  | succ month ih =>
    rw [Nat.cast_succ, monthStart_succ, ih, monthLength_natCast]
    exact (Nat.cast_add ..).symm

theorem ofDay_natCast (day : ℕ) : (ofDay day).month = (Calendar.monthAndDay day).1 ∧
    (ofDay day).day = (Calendar.monthAndDay day).2 := by
  obtain ⟨hday, hlt⟩ := Calendar.monthAndDay_spec day
  let date : CivilDate := ⟨(Calendar.monthAndDay day).1, (Calendar.monthAndDay day).2, by omega,
    by rw [monthLength_natCast]; omega⟩
  have hnumber : date.dayNumber = day := by
    simp only [CivilDate.dayNumber, date, monthStart_natCast]
    omega
  have hdate : ofDay day = date := by rw [← hnumber, ofDay_dayNumber]
  rw [hdate]
  exact ⟨rfl, rfl⟩

theorem addMonths_natCast {t e : Instant} {months time : ℕ} (ht : t.time = time) :
    t.addMonths months = some e ↔ e.time = Calendar.addMonths months time := by
  have hday : t.time / msPerDay = ((time / Calendar.msPerDay : ℕ) : ℤ) := by
    rw [ht]
    rfl
  have hrest : t.timeInDay = ((time % Calendar.msPerDay : ℕ) : ℤ) := by
    rw [Instant.timeInDay, ht]
    rfl
  obtain ⟨hmonth, hdayOf⟩ := ofDay_natCast (time / Calendar.msPerDay)
  have hstart := monthStart_natCast ((Calendar.monthAndDay (time / Calendar.msPerDay)).1 + months)
  rw [Instant.addMonths_eq_some, Instant.date, hday, hmonth, hdayOf, hrest, Calendar.addMonths,
    ← Nat.cast_add, hstart]
  push_cast
  rfl

end Gregorian
