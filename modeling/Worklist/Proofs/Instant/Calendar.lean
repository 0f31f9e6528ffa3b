import Mathlib.Tactic.IntervalCases
import Worklist.Instant.Calendar

/-!
# Days and dates

Naming the date of a day and counting the days up to a date.  The calendar repeats after an era of
400 years, which are 146097 days, so it is enough to look at the days of one era: first at the year
that a day is in, then at its month.  Both count from the first of March.

* `startOfYear_le` and `lt_startOfYear_succ` place a day within its year, and `startOfMonth_le` and
  `lt_startOfMonth_succ` within its month.
* `toDays_ofDays` says that the date of a day leads back to the day, and `isValid_ofDays` that it
  exists.
-/

namespace Worklist.CalendarDate

/-! ## Years of an era -/

/-- The year of a day. -/
def yearOfEra (day : Nat) : Nat := (day - day / 1460 + day / 36524 - day / 146096) / 365

/-- The first day of a year. -/
def startOfYear (year : Nat) : Nat := 365 * year + year / 4 - year / 100

/-- Every century but the last has 36524 days. -/
theorem yearOfEra_div_hundred {day : Nat} (h : day < 146096) :
    yearOfEra day / 100 = day / 36524 := by
  have hcentury : day / 36524 = 0 ∨ day / 36524 = 1 ∨ day / 36524 = 2 ∨ day / 36524 = 3 := by
    omega
  rw [yearOfEra]
  rcases hcentury with hc | hc | hc | hc <;> rw [hc] <;> omega

theorem yearOfEra_bounds {day : Nat} (h : day < 146096) :
    365 * yearOfEra day ≤ day - day / 1460 + day / 36524 ∧
      day - day / 1460 + day / 36524 < 365 * yearOfEra day + 365 := by
  rw [yearOfEra]
  omega

theorem yearOfEra_lt {day : Nat} (h : day < 146097) : yearOfEra day < 400 := by
  rw [yearOfEra]
  omega

theorem startOfYear_le {day : Nat} (h : day < 146097) : startOfYear (yearOfEra day) ≤ day := by
  by_cases hlast : day = 146096
  · rw [hlast]
    decide
  · have hcentury := yearOfEra_div_hundred (by omega : day < 146096)
    obtain ⟨hlow, hhigh⟩ := yearOfEra_bounds (by omega : day < 146096)
    rw [startOfYear, hcentury]
    generalize yearOfEra day = year at *
    omega

/-- The last day of the era is the leap day of a year that counts as an ordinary one here. -/
theorem lt_startOfYear_succ {day : Nat} (h : day < 146096) :
    day < startOfYear (yearOfEra day + 1) := by
  have hcentury := yearOfEra_div_hundred h
  obtain ⟨hlow, hhigh⟩ := yearOfEra_bounds h
  rw [startOfYear]
  generalize yearOfEra day = year at *
  by_cases hlast : (year + 1) / 100 = year / 100
  · omega
  · have hyear : year = 100 * (year / 100) + 99 := by omega
    omega

theorem dayOfYear_le {day : Nat} (h : day < 146097) :
    day - startOfYear (yearOfEra day) ≤ 365 := by
  by_cases hlast : day = 146096
  · rw [hlast]
    decide
  · have hnext := lt_startOfYear_succ (by omega : day < 146096)
    simp only [startOfYear] at *
    generalize yearOfEra day = year at *
    omega

/-- A year has a last day of its own before March if the next year is a leap year. -/
theorem isLeapYear_succ {day : Nat} (h : day < 146097)
    (hday : day - startOfYear (yearOfEra day) = 365) (era : Int) :
    isLeapYear (era * 400 + yearOfEra day + 1) = true := by
  by_cases hlast : day = 146096
  · have hyear : yearOfEra day = 399 := by
      rw [hlast]
      decide
    simp [isLeapYear, hyear]
    omega
  · have hnext := lt_startOfYear_succ (by omega : day < 146096)
    have hyear := yearOfEra_lt h
    simp only [startOfYear] at *
    generalize yearOfEra day = year at *
    have hcentury : year / 100 ≤ (year + 1) / 100 := by omega
    have hfour : (year + 1) / 4 = year / 4 + 1 := by omega
    have hhundred : (year + 1) / 100 = year / 100 := by omega
    simp [isLeapYear]
    omega

/-! ## Months of a year -/

/-- The month of a day. -/
def monthOfYear (day : Nat) : Nat := (5 * day + 2) / 153

/-- The first day of a month. -/
def startOfMonth (month : Nat) : Nat := (153 * month + 2) / 5

theorem startOfMonth_le (day : Nat) : startOfMonth (monthOfYear day) ≤ day := by
  rw [startOfMonth, monthOfYear]
  omega

theorem lt_startOfMonth_succ (day : Nat) : day < startOfMonth (monthOfYear day + 1) := by
  rw [startOfMonth, monthOfYear]
  omega

theorem monthOfYear_le {day : Nat} (h : day ≤ 365) : monthOfYear day ≤ 11 := by
  rw [monthOfYear]
  omega

/-- Every month but February ends where the next one starts. -/
theorem startOfMonth_succ_le (year : Int) {month : Nat} (h : month ≤ 10) :
    startOfMonth (month + 1) ≤ startOfMonth month + daysInMonth year ((month + 2) % 12 + 1) := by
  interval_cases month <;> simp [startOfMonth, daysInMonth]

/-! ## Dates -/

/-- The date of a day of an era. -/
def ofEra (era : Int) (day : Nat) : CalendarDate :=
  let dayOfYear := day - startOfYear (yearOfEra day)
  let month := (monthOfYear dayOfYear + 2) % 12 + 1
  { year := era * 400 + yearOfEra day + if month ≤ 2 then 1 else 0
    month
    day := dayOfYear - startOfMonth (monthOfYear dayOfYear) + 1 }

theorem ofDays_eq (days : Int) :
    ofDays days = ofEra ((days + 719468) / 146097) ((days + 719468) % 146097).toNat := rfl

/-- January and February belong to the next year of the usual count. -/
theorem toDays_fromMarch (year : Int) (month day : Nat) :
    toDays ⟨year + if month ≤ 2 then 1 else 0, month, day⟩ =
      365 * year + year / 4 - year / 100 + year / 400 +
        ((153 * ((month + 9) % 12 : Nat) + 2) / 5 + day - 1) - 719468 := by
  by_cases hmonth : month ≤ 2 <;> simp [toDays, hmonth]

theorem toDays_ofEra (era : Int) {day : Nat} (h : day < 146097) :
    (ofEra era day).toDays = 146097 * era + day - 719468 := by
  have hyear := yearOfEra_lt h
  have hstart := startOfYear_le h
  have hmonth := monthOfYear_le (dayOfYear_le h)
  have hday := startOfMonth_le (day - startOfYear (yearOfEra day))
  rw [ofEra, toDays_fromMarch]
  generalize monthOfYear (day - startOfYear (yearOfEra day)) = month at *
  have hback : ((month + 2) % 12 + 1 + 9) % 12 = month := by omega
  rw [hback]
  simp only [startOfMonth, startOfYear] at *
  generalize yearOfEra day = year at *
  have hfour : (era * 400 + year) / 4 = 100 * era + (year / 4 : Nat) := by omega
  have hhundred : (era * 400 + year) / 100 = 4 * era + (year / 100 : Nat) := by omega
  have hera : (era * 400 + year) / 400 = era := by omega
  omega

/-- The date of a day leads back to the day. -/
theorem toDays_ofDays (days : Int) : (ofDays days).toDays = days := by
  have hday : ((days + 719468) % 146097).toNat < 146097 := by omega
  rw [ofDays_eq, toDays_ofEra _ hday]
  omega

theorem day_le_daysInMonth (era : Int) {day : Nat} (h : day < 146097) :
    (ofEra era day).day ≤ daysInMonth (ofEra era day).year (ofEra era day).month := by
  have hle := dayOfYear_le h
  have hleap := isLeapYear_succ h
  simp only [ofEra]
  generalize day - startOfYear (yearOfEra day) = dayOfYear at *
  have hstart := startOfMonth_le dayOfYear
  have hnext := lt_startOfMonth_succ dayOfYear
  have hmonth := monthOfYear_le hle
  generalize monthOfYear dayOfYear = month at *
  by_cases hlast : month = 11
  · subst hlast
    have hfebruary : startOfMonth 11 = 337 := rfl
    simp only [hfebruary, daysInMonth, Nat.reduceAdd, Nat.reduceMod, Nat.reduceLeDiff, if_true]
    by_cases hday : dayOfYear = 365
    · rw [if_pos (hleap hday era)]
      omega
    · split <;> omega
  · have hlength := startOfMonth_succ_le (era * 400 + yearOfEra day +
      if (month + 2) % 12 + 1 ≤ 2 then 1 else 0) (by omega : month ≤ 10)
    omega

theorem isValid_ofEra (era : Int) {day : Nat} (h : day < 146097) :
    (ofEra era day).isValid = isYearInRange (ofEra era day).year := by
  have hday := day_le_daysInMonth era h
  have hmonth : (ofEra era day).month ≤ 12 := by
    simp only [ofEra]
    omega
  have hpos : 1 ≤ (ofEra era day).month ∧ 1 ≤ (ofEra era day).day := by
    simp only [ofEra]
    omega
  simp [isValid, hday, hmonth, hpos]

/-- The date of a day exists if its year is in range. -/
theorem isValid_ofDays (days : Int) :
    (ofDays days).isValid = isYearInRange (ofDays days).year := by
  rw [ofDays_eq]
  exact isValid_ofEra _ (by omega)

/-- Month and day have two digits, whether the year is in range or not. -/
theorem ofDays_lt_hundred (days : Int) : (ofDays days).month < 100 ∧ (ofDays days).day < 100 := by
  simp only [ofDays_eq, ofEra, startOfMonth, monthOfYear]
  omega

end Worklist.CalendarDate
