/-!
The calendar: leap years, the days of a month, and the date that lies a number of days after the first
day of 1970. Counting on from year to year and from month to month, the days that are left always
belong to the year and the month that has been reached (`day_le_daysIn`).
-/

namespace QualityGate.Calendar

/-- Whether a year has a leap day. -/
def isLeapYear (y : Nat) : Bool :=
  y % 4 = 0 ∧ (y % 100 ≠ 0 ∨ y % 400 = 0)

/-- The number of days of a month. -/
def daysIn (year month : Nat) : Nat :=
  if month = 2 then (if isLeapYear year then 29 else 28)
  else if month = 4 ∨ month = 6 ∨ month = 9 ∨ month = 11 then 30
  else 31

/-- The number of days of a year. -/
def daysOf (year : Nat) : Nat :=
  if isLeapYear year then 366 else 365

theorem daysOf_pos (year : Nat) : 0 < daysOf year := by
  unfold daysOf
  split <;> decide

theorem daysIn_pos (year month : Nat) : 0 < daysIn year month := by
  unfold daysIn
  repeat' split
  all_goals decide

/-- **A date**; months and days count from 1. -/
structure Date where
  year : Nat
  month : Nat
  day : Nat
  deriving DecidableEq, Repr

/-- The year that is reached after some days from the start of another, and the days left of it. -/
def yearAfter (year days : Nat) : Nat × Nat :=
  if days < daysOf year then (year, days)
  else yearAfter (year + 1) (days - daysOf year)
termination_by days
decreasing_by
  have := daysOf_pos year
  omega

/-- The month that is reached after some days from the start of another, and the days left of it. -/
def monthAfter (year month days : Nat) : Nat × Nat :=
  if days < daysIn year month then (month, days)
  else monthAfter year (month + 1) (days - daysIn year month)
termination_by days
decreasing_by
  have := daysIn_pos year month
  omega

theorem monthAfter_lt (year month days : Nat) :
    (monthAfter year month days).2 < daysIn year (monthAfter year month days).1 := by
  fun_induction monthAfter year month days with
  | case1 month days h => exact h
  | case2 month days _ ih => exact ih

/-- **The date some days after the first day of 1970.** -/
def Date.ofDays (days : Nat) : Date :=
  let (year, days) := yearAfter 1970 days
  let (month, days) := monthAfter year 1 days
  ⟨year, month, days + 1⟩

/-- **The day of a date belongs to its month.** -/
theorem Date.day_le_daysIn (days : Nat) :
    1 ≤ (Date.ofDays days).day ∧
      (Date.ofDays days).day ≤ daysIn (Date.ofDays days).year (Date.ofDays days).month :=
  ⟨Nat.le_add_left .., monthAfter_lt ..⟩

end QualityGate.Calendar
