import Mathlib

/-!
# The Gregorian calendar

Days and seconds of a date, by counting, and the closed form that `mktime` uses. Years are
counted from the year 0 of the proleptic calendar, which is a leap year.

* `CivilTime`: a valid date and time of day.
* `daysBeforeYear_eq`: the days before a year, from the leap years up to the one before it.
-/

namespace NetworkFs.Data

/-! ## Counting days -/

/-- Every fourth year, but of the centuries only every fourth. -/
def isLeap (year : ℕ) : Bool := year % 4 == 0 && (year % 100 != 0 || year % 400 == 0)

/-- The days of a month, from 1 to 12. -/
def monthLength (year : ℕ) : ℕ → ℕ
  | 2 => if isLeap year then 29 else 28
  | 4 | 6 | 9 | 11 => 30
  | _ => 31

/-- The days of a year before its month `month`. -/
def daysBeforeMonth (year month : ℕ) : ℕ := ∑ m ∈ Finset.Ico 1 month, monthLength year m

/-- The days of a year. -/
def yearLength (year : ℕ) : ℕ := daysBeforeMonth year 13

/-- The days before a year. -/
def daysBeforeYear (year : ℕ) : ℕ := ∑ y ∈ Finset.range year, yearLength y

/-- The leap years from 1 to `year`, less those from `year + 1` to 0 when it is negative. -/
def leapYears (year : ℤ) : ℤ := year / 4 - year / 100 + year / 400

theorem yearLength_eq (year : ℕ) : yearLength year = if isLeap year then 366 else 365 := by
  simp only [yearLength, daysBeforeMonth, Finset.sum_Ico_eq_sum_range, Finset.sum_range_succ,
    Finset.sum_range_zero, monthLength]
  split_ifs <;> rfl

theorem isLeap_iff (year : ℕ) :
    isLeap year = true ↔ year % 4 = 0 ∧ (year % 100 ≠ 0 ∨ year % 400 = 0) := by
  simp [isLeap]

/-- A leap year is one more. -/
theorem leapYears_natCast (year : ℕ) :
    leapYears year = leapYears (year - 1) + if isLeap year then 1 else 0 := by
  have hleap := isLeap_iff year
  unfold leapYears
  split_ifs with h
  · have := hleap.mp h
    omega
  · have hnot : ¬ (year % 4 = 0 ∧ (year % 100 ≠ 0 ∨ year % 400 = 0)) := fun h' => h (hleap.mpr h')
    omega

/-- The days before a year in closed form; the `1` is the leap day of the year 0. -/
theorem daysBeforeYear_eq (year : ℕ) :
    (daysBeforeYear year : ℤ) = 365 * year + leapYears (year - 1) + 1 := by
  induction year with
  | zero => rfl
  | succ year ih =>
    have hstep := leapYears_natCast year
    have hpred : ((year + 1 : ℕ) : ℤ) - 1 = year := by push_cast; ring
    rw [daysBeforeYear, Finset.sum_range_succ, ← daysBeforeYear, Nat.cast_add, ih, hpred, hstep,
      yearLength_eq]
    split_ifs <;> push_cast <;> ring

/-! ## A date and time of day -/

/-- A valid date and time of day. The minute may end with a leap second. -/
structure CivilTime where
  year : ℕ
  month : ℕ
  day : ℕ
  hour : ℕ
  minute : ℕ
  second : ℕ
  one_le_month : 1 ≤ month
  month_le : month ≤ 12
  one_le_day : 1 ≤ day
  day_le : day ≤ monthLength year month
  hour_lt : hour < 24
  minute_lt : minute < 60
  second_le : second ≤ 60

namespace CivilTime

variable (c : CivilTime)

/-- The days before the date. -/
def days : ℕ := daysBeforeYear c.year + daysBeforeMonth c.year c.month + (c.day - 1)

/-- The seconds from 1970-01-01 00:00:00. -/
def instant : ℤ :=
  ((c.days : ℤ) - daysBeforeYear 1970) * 86400 + c.hour * 3600 + c.minute * 60 + c.second

/-- The day of the week, from Sunday: 1970-01-01 was a Thursday. -/
def weekday : ℕ := (c.days + 6) % 7

theorem day_le_31 : c.day ≤ 31 := by
  refine c.day_le.trans ?_
  unfold monthLength
  split
  · split_ifs <;> omega
  all_goals omega

theorem weekday_lt : c.weekday < 7 := Nat.mod_lt _ (by norm_num)

/-- The day number in closed form. -/
theorem days_sub_epoch : ((c.days : ℤ) - daysBeforeYear 1970) =
    365 * (c.year - 1970) + (leapYears (c.year - 1) - leapYears 1969) +
      daysBeforeMonth c.year c.month + (c.day - 1) := by
  have hday := c.one_le_day
  have hyear := daysBeforeYear_eq c.year
  have hepoch := daysBeforeYear_eq 1970
  have hpred : ((1970 : ℕ) : ℤ) - 1 = 1969 := by norm_num
  rw [hpred] at hepoch
  unfold days
  push_cast at *
  omega

/-- Five digits are long after 1970. -/
theorem instant_pos (h : 10000 ≤ c.year) : 0 < c.instant := by
  have hdays := c.days_sub_epoch
  have hday := c.one_le_day
  unfold instant
  rw [hdays]
  unfold leapYears
  omega

end CivilTime

end NetworkFs.Data
