import Mathlib.Algebra.Order.Group.Nat
import Mathlib.Tactic.Common

/-!
# Calendar dates

`getMonth` and `setMonth` of a JavaScript `Date`, in UTC and from 1970 on.  A time is in
milliseconds, and months and days are counted from January 1970.
-/

namespace Calendar

def msPerDay : ℕ := 86400000

def isLeap (year : ℕ) : Bool := year % 4 == 0 && (year % 100 != 0 || year % 400 == 0)

def monthLength (month : ℕ) : ℕ :=
  match month % 12 with
  | 1 => if isLeap (1970 + month / 12) then 29 else 28
  | 3 => 30
  | 5 => 30
  | 8 => 30
  | 10 => 30
  | _ => 31

theorem monthLength_pos (month : ℕ) : 0 < monthLength month := by
  unfold monthLength
  split
  · split <;> omega
  all_goals omega

def monthStart : ℕ → ℕ
  | 0 => 0
  | month + 1 => monthStart month + monthLength month

/-- The month of a day that is `day` days after the start of `month`, and the days into it. -/
def monthFrom : ℕ → ℕ → ℕ → ℕ × ℕ
  | 0, month, day => (month, day)
  | fuel + 1, month, day =>
    if day < monthLength month then (month, day)
    else monthFrom fuel (month + 1) (day - monthLength month)

def monthAndDay (day : ℕ) : ℕ × ℕ := monthFrom day 0 day

theorem monthFrom_spec (fuel month day : ℕ) :
    monthStart (monthFrom fuel month day).1 + (monthFrom fuel month day).2 = monthStart month + day := by
  induction fuel generalizing month day with
  | zero => rfl
  | succ fuel ih =>
    unfold monthFrom
    split
    next => rfl
    next h =>
      rw [ih]
      show monthStart month + monthLength month + (day - monthLength month) = monthStart month + day
      omega

theorem monthFrom_lt (fuel month day : ℕ) (h : day ≤ fuel) :
    (monthFrom fuel month day).2 < monthLength (monthFrom fuel month day).1 := by
  induction fuel generalizing month day with
  | zero =>
    have hpos := monthLength_pos month
    show day < monthLength month
    omega
  | succ fuel ih =>
    have hpos := monthLength_pos month
    unfold monthFrom
    split
    next hlt => exact hlt
    next => exact ih _ _ (by omega)

theorem monthAndDay_spec (day : ℕ) :
    monthStart (monthAndDay day).1 + (monthAndDay day).2 = day ∧
      (monthAndDay day).2 < monthLength (monthAndDay day).1 := by
  have hspec := monthFrom_spec day 0 day
  have hlt := monthFrom_lt day 0 day (Nat.le_refl day)
  have hzero : monthStart 0 = 0 := rfl
  refine ⟨?_, hlt⟩
  unfold monthAndDay
  omega

/-- `date.setMonth(date.getMonth() + months)`: the day of the month stays, and runs over into the
next month where it is too large. -/
def addMonths (months time : ℕ) : ℕ :=
  let date := monthAndDay (time / msPerDay)
  (monthStart (date.1 + months) + date.2) * msPerDay + time % msPerDay

/-- The midnight of a day, as a `DATE` column keeps it. -/
def toDate (time : ℕ) : ℕ := time / msPerDay * msPerDay

/-- A month after 31 January 1970 it is 3 March. -/
example : addMonths 1 (30 * msPerDay) = (monthStart 2 + 2) * msPerDay := by decide +kernel

end Calendar
