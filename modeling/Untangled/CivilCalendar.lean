import Mathlib.Data.Int.Basic
import Mathlib.Tactic

/-!
# The civil calendar

Days are counted from 1 January 1970 and years follow the Gregorian rule in both
directions.  A year and the day within it determine the month, and every count of
milliseconds splits into a date and a time of day from which it is put together
again.
-/

namespace CivilCalendar

/-! ## Years -/

/-- The day on which a year starts. -/
def dayFromYear (y : ℤ) : ℤ :=
  365 * (y - 1970) + (y - 1969) / 4 - (y - 1901) / 100 + (y - 1601) / 400

def isLeap (y : ℤ) : Bool :=
  y % 4 = 0 && (y % 100 ≠ 0 || y % 400 = 0)

def daysInYear (leap : Bool) : ℕ :=
  if leap then 366 else 365

theorem dayFromYear_succ (y : ℤ) :
    dayFromYear (y + 1) = dayFromYear y + daysInYear (isLeap y) := by
  unfold dayFromYear daysInYear
  by_cases hleap : isLeap y = true
  · rw [if_pos hleap]
    simp only [isLeap, Bool.and_eq_true, Bool.or_eq_true, decide_eq_true_eq] at hleap
    omega
  · rw [if_neg hleap]
    simp only [isLeap, Bool.and_eq_true, Bool.or_eq_true, decide_eq_true_eq] at hleap
    omega

/-- The mean year is off by one at most. -/
def yearOfDay (day : ℤ) : ℤ :=
  let y := 1970 + 400 * day / 146097
  if day < dayFromYear y then y - 1
  else if dayFromYear (y + 1) ≤ day then y + 1
  else y

theorem yearOfDay_spec (day : ℤ) :
    dayFromYear (yearOfDay day) ≤ day ∧ day < dayFromYear (yearOfDay day + 1) := by
  have hlow : dayFromYear (1970 + 400 * day / 146097 - 1) ≤ day := by
    unfold dayFromYear
    omega
  have hhigh : day < dayFromYear (1970 + 400 * day / 146097 + 1 + 1) := by
    unfold dayFromYear
    omega
  unfold yearOfDay
  dsimp only
  by_cases hbefore : day < dayFromYear (1970 + 400 * day / 146097)
  · rw [if_pos hbefore, sub_add_cancel]
    exact ⟨hlow, hbefore⟩
  · rw [if_neg hbefore]
    by_cases hafter : dayFromYear (1970 + 400 * day / 146097 + 1) ≤ day
    · rw [if_pos hafter]
      exact ⟨hafter, hhigh⟩
    · rw [if_neg hafter]
      exact ⟨not_lt.mp hbefore, not_le.mp hafter⟩

/-! ## Months -/

/-- The days of a year before a month; January is 0. -/
def monthStart (leap : Bool) (month : ℕ) : ℕ :=
  [0, 31, 59, 90, 120, 151, 181, 212, 243, 273, 304, 334].getD month 0 +
    if leap && 2 ≤ month then 1 else 0

def monthOf (leap : Bool) (dayOfYear : ℕ) : ℕ :=
  ((List.range 12).filter fun m => monthStart leap m ≤ dayOfYear).length - 1

set_option maxRecDepth 4000 in
theorem monthOf_spec : ∀ leap : Bool, ∀ d < daysInYear leap,
    monthOf leap d < 12 ∧ monthStart leap (monthOf leap d) ≤ d ∧
      d < monthStart leap (monthOf leap d) + 31 := by
  decide +kernel

/-! ## Days -/

/-- The day of a date; months beyond the twelve run into other years, and days into
other months. -/
def dayOfDate (year month day : ℤ) : ℤ :=
  let y := year + (month - 1) / 12
  dayFromYear y + monthStart (isLeap y) ((month - 1) % 12).toNat + (day - 1)

/-- A date and a time of day. -/
structure Fields where
  year : ℤ
  month : ℕ
  day : ℕ
  hour : ℕ
  minute : ℕ
  second : ℕ
  millisecond : ℕ
  deriving DecidableEq

structure Fields.InRange (p : Fields) : Prop where
  month : 1 ≤ p.month ∧ p.month ≤ 12
  day : 1 ≤ p.day ∧ p.day ≤ 31
  hour : p.hour < 24
  minute : p.minute < 60
  second : p.second < 60
  millisecond : p.millisecond < 1000

def dayOfYear (day : ℤ) : ℕ :=
  (day - dayFromYear (yearOfDay day)).toNat

theorem dayOfYear_lt (day : ℤ) :
    dayOfYear day < daysInYear (isLeap (yearOfDay day)) := by
  have hspec := yearOfDay_spec day
  rw [dayFromYear_succ] at hspec
  unfold dayOfYear
  omega

theorem dayFromYear_add_dayOfYear (day : ℤ) :
    dayFromYear (yearOfDay day) + dayOfYear day = day := by
  have hspec := yearOfDay_spec day
  unfold dayOfYear
  omega

def millisPerDay : ℤ := 86400000

/-- The fields of a count of milliseconds since the start of 1970. -/
def fieldsOf (t : ℤ) : Fields :=
  let day := t / millisPerDay
  let year := yearOfDay day
  let month := monthOf (isLeap year) (dayOfYear day)
  let time := (t % millisPerDay).toNat
  ⟨year, month + 1, dayOfYear day - monthStart (isLeap year) month + 1,
    time / 3600000, time / 60000 % 60, time / 1000 % 60, time % 1000⟩

def millisOf (p : Fields) : ℤ :=
  dayOfDate p.year p.month p.day * millisPerDay +
    (p.hour * 3600000 + p.minute * 60000 + p.second * 1000 + p.millisecond : ℕ)

theorem fieldsOf_inRange (t : ℤ) : (fieldsOf t).InRange := by
  have hmonth := monthOf_spec _ _ (dayOfYear_lt (t / millisPerDay))
  have htime : (t % millisPerDay).toNat < 86400000 := by
    unfold millisPerDay
    omega
  constructor
  · exact ⟨Nat.succ_pos _, hmonth.1⟩
  · dsimp only [fieldsOf]
    omega
  all_goals
    dsimp only [fieldsOf]
    omega

theorem dayOfDate_fieldsOf (t : ℤ) :
    dayOfDate (fieldsOf t).year (fieldsOf t).month (fieldsOf t).day = t / millisPerDay := by
  have hmonth := monthOf_spec _ _ (dayOfYear_lt (t / millisPerDay))
  have hday := dayFromYear_add_dayOfYear (t / millisPerDay)
  dsimp only [fieldsOf, dayOfDate]
  generalize hm : monthOf (isLeap (yearOfDay (t / millisPerDay)))
    (dayOfYear (t / millisPerDay)) = m at hmonth ⊢
  have hyear : (((m + 1 : ℕ) : ℤ) - 1) / 12 = 0 := by omega
  have hindex : ((((m + 1 : ℕ) : ℤ) - 1) % 12).toNat = m := by omega
  rw [hyear, hindex, add_zero]
  omega

/-- The fields tell the count. -/
theorem millisOf_fieldsOf (t : ℤ) : millisOf (fieldsOf t) = t := by
  unfold millisOf
  rw [dayOfDate_fieldsOf]
  have hparts : ((fieldsOf t).hour * 3600000 + (fieldsOf t).minute * 60000 +
      (fieldsOf t).second * 1000 + (fieldsOf t).millisecond : ℕ) =
      (t % millisPerDay).toNat := by
    dsimp only [fieldsOf]
    omega
  rw [hparts, Int.toNat_of_nonneg (Int.emod_nonneg t (by decide))]
  exact Int.ediv_mul_add_emod t millisPerDay

end CivilCalendar
