import Mathlib.Data.Int.Init
import Mathlib.Tactic.IntervalCases

/-!
# The Gregorian calendar

Dates are counted in days from 1970-01-01. A day of a period of 400 years is found by starting the
year in March, which puts the leap day at its end; the numbers below are those of that method, and
the result is that they give the valid date with that number of days.
-/

namespace Tgvisd

namespace Calendar

def isLeapYear (year : ℤ) : Bool := year % 4 = 0 && (year % 100 ≠ 0 || year % 400 = 0)

def daysInMonth (year month : ℤ) : ℤ :=
  if month = 2 then (if isLeapYear year then 29 else 28)
  else if month ∈ [4, 6, 9, 11] then 30
  else 31

def daysBeforeMonth (year month : ℤ) : ℤ :=
  [0, 31, 59, 90, 120, 151, 181, 212, 243, 273, 304, 334].getD (month - 1).toNat 0 +
    if 2 < month ∧ isLeapYear year then 1 else 0

/-- The number of days from 1970-01-01 to a date. -/
def dayNumber (year month day : ℤ) : ℤ :=
  365 * (year - 1970) + (year - 1969) / 4 - (year - 1901) / 100 + (year - 1601) / 400 +
    daysBeforeMonth year month + (day - 1)

def IsDate (year month day : ℤ) : Prop :=
  1 ≤ month ∧ month ≤ 12 ∧ 1 ≤ day ∧ day ≤ daysInMonth year month

instance (year month day : ℤ) : Decidable (IsDate year month day) :=
  inferInstanceAs (Decidable (1 ≤ month ∧ month ≤ 12 ∧ 1 ≤ day ∧ day ≤ daysInMonth year month))

theorem daysInMonth_le (year month : ℤ) : daysInMonth year month ≤ 31 := by
  unfold daysInMonth
  split_ifs <;> decide

theorem isLeapYear_iff (year : ℤ) :
    isLeapYear year = true ↔ year % 4 = 0 ∧ (year % 100 ≠ 0 ∨ year % 400 = 0) := by
  simp [isLeapYear]

/-- The leap days up to the end of a year. -/
def leapDays (year : ℤ) : ℤ := year / 4 - year / 100 + year / 400

theorem leapDays_eq (year : ℤ) :
    leapDays year = leapDays (year - 1) + if isLeapYear year then 1 else 0 := by
  unfold leapDays
  by_cases h : isLeapYear year = true
  · have hyear := (isLeapYear_iff year).mp h
    rw [if_pos h]
    omega
  · have hyear := mt (isLeapYear_iff year).mpr h
    rw [if_neg h]
    omega

theorem leapDays_era {yearOfEra : ℤ} (hnonneg : 0 ≤ yearOfEra) (hle : yearOfEra ≤ 399) (era : ℤ) :
    leapDays (yearOfEra + era * 400) = yearOfEra / 4 - yearOfEra / 100 + 97 * era := by
  unfold leapDays
  omega

theorem dayNumber_eq (year month day : ℤ) : dayNumber year month day =
    365 * (year - 1970) + leapDays (year - 1) - 477 + daysBeforeMonth year month + (day - 1) := by
  unfold dayNumber leapDays
  omega

/-! ## Years that begin in March -/

/-- A day of a period of 400 years from the first of March, as a year of the period and a day of
that year. -/
structure FromMarch (dayOfEra yearOfEra dayOfYear : ℤ) : Prop where
  yearOfEra_nonneg : 0 ≤ yearOfEra
  yearOfEra_le : yearOfEra ≤ 399
  dayOfEra_eq : dayOfEra = 365 * yearOfEra + yearOfEra / 4 - yearOfEra / 100 + dayOfYear
  dayOfYear_nonneg : 0 ≤ dayOfYear
  dayOfYear_le : dayOfYear ≤ 365
  leapDay : dayOfYear = 365 → (yearOfEra + 1) % 4 = 0 ∧
    ((yearOfEra + 1) % 100 ≠ 0 ∨ (yearOfEra + 1) % 400 = 0)

/-- The year of a day. The centuries before the last day of the period have 36524 days, and the
fours of years in them 1461, but for the last one. -/
theorem fromMarch {dayOfEra yearOfEra : ℤ} (hnonneg : 0 ≤ dayOfEra) (hlt : dayOfEra < 146097)
    (hyear : yearOfEra =
      (dayOfEra - dayOfEra / 1460 + dayOfEra / 36524 - dayOfEra / 146096) / 365) :
    FromMarch dayOfEra yearOfEra
      (dayOfEra - (365 * yearOfEra + yearOfEra / 4 - yearOfEra / 100)) := by
  by_cases hlast : dayOfEra = 146096
  · subst hlast
    obtain rfl : yearOfEra = 399 := by omega
    constructor <;> decide
  · obtain ⟨century, hcentury⟩ : ∃ century, century = dayOfEra / 36524 := ⟨_, rfl⟩
    obtain ⟨four, hfour⟩ : ∃ four, four = (dayOfEra - 36524 * century) / 1461 := ⟨_, rfl⟩
    have hperiod : dayOfEra / 146096 = 0 := by omega
    rw [hperiod, ← hcentury] at hyear
    have hcentury_nonneg : 0 ≤ century := by omega
    have hcentury_le : century ≤ 3 := by omega
    have hleaps : dayOfEra / 1460 = 25 * century + four ∨
        dayOfEra / 1460 = 25 * century + four + 1 ∧
          1364 ≤ dayOfEra - 36524 * century - 1461 * four := by omega
    have hlower : 100 * century + 4 * four ≤ yearOfEra := by omega
    have hupper : yearOfEra ≤ 100 * century + 4 * four + 3 := by omega
    have hfours : yearOfEra / 4 = 25 * century + four := by omega
    have hcenturies : yearOfEra / 100 = century := by omega
    constructor <;> omega

/-- The months from March on have 153 days in five of them. -/
theorem monthFromMarch_bounds {dayOfYear : ℤ} (hnonneg : 0 ≤ dayOfYear) (hle : dayOfYear ≤ 365) :
    0 ≤ (5 * dayOfYear + 2) / 153 ∧ (5 * dayOfYear + 2) / 153 ≤ 11 := by
  omega

/-- A day from March to December. -/
theorem dayNumber_sinceMarch {yearOfEra month monthFromMarch : ℤ} (era day : ℤ)
    (hnonneg : 0 ≤ yearOfEra) (hle : yearOfEra ≤ 399) (hmonth_nonneg : 0 ≤ monthFromMarch)
    (hmonth_lt : monthFromMarch < 10) (hmonth : month = monthFromMarch + 3) :
    dayNumber (yearOfEra + era * 400) month day = era * 146097 + 365 * yearOfEra +
      (yearOfEra / 4 - yearOfEra / 100) + (153 * monthFromMarch + 2) / 5 + (day - 1) - 719468 := by
  have hleap := leapDays_eq (yearOfEra + era * 400)
  rw [leapDays_era hnonneg hle] at hleap
  have hbefore : daysBeforeMonth (yearOfEra + era * 400) month =
      (153 * monthFromMarch + 2) / 5 + 59 +
        if isLeapYear (yearOfEra + era * 400) then 1 else 0 := by
    subst hmonth
    interval_cases monthFromMarch <;> simp [daysBeforeMonth]
  rw [dayNumber_eq, hbefore]
  omega

/-- A day of January or February, which end the year that began in March before. -/
theorem dayNumber_beforeMarch {yearOfEra month monthFromMarch : ℤ} (era day : ℤ)
    (hnonneg : 0 ≤ yearOfEra) (hle : yearOfEra ≤ 399) (hmonth_le : 10 ≤ monthFromMarch)
    (hmonth_lt : monthFromMarch ≤ 11) (hmonth : month = monthFromMarch - 9) :
    dayNumber (yearOfEra + era * 400 + 1) month day = era * 146097 + 365 * yearOfEra +
      (yearOfEra / 4 - yearOfEra / 100) + (153 * monthFromMarch + 2) / 5 + (day - 1) - 719468 := by
  have hleap := leapDays_era hnonneg hle era
  have hbefore : daysBeforeMonth (yearOfEra + era * 400 + 1) month =
      (153 * monthFromMarch + 2) / 5 - 306 := by
    subst hmonth
    interval_cases monthFromMarch <;> simp [daysBeforeMonth]
  rw [dayNumber_eq, hbefore, Int.add_sub_cancel, hleap]
  omega

theorem isDate_sinceMarch {dayOfYear monthFromMarch month day : ℤ} (year : ℤ)
    (hnonneg : 0 ≤ monthFromMarch) (hlt : monthFromMarch < 10)
    (hmonthFromMarch : monthFromMarch = (5 * dayOfYear + 2) / 153)
    (hmonth : month = monthFromMarch + 3)
    (hday : day = dayOfYear - (153 * monthFromMarch + 2) / 5 + 1) : IsDate year month day := by
  subst hmonth hday
  interval_cases monthFromMarch <;> simp [IsDate, daysInMonth] <;> omega

/-- The 29th of February is the last of 366 days. -/
theorem isDate_beforeMarch {dayOfYear monthFromMarch month year day : ℤ}
    (hle : 10 ≤ monthFromMarch) (hlt : monthFromMarch ≤ 11) (hdayOfYear : dayOfYear ≤ 365)
    (hmonthFromMarch : monthFromMarch = (5 * dayOfYear + 2) / 153)
    (hmonth : month = monthFromMarch - 9)
    (hday : day = dayOfYear - (153 * monthFromMarch + 2) / 5 + 1)
    (hleap : dayOfYear = 365 → isLeapYear year = true) : IsDate year month day := by
  subst hmonth hday
  by_cases hlast : dayOfYear = 365
  · subst hlast
    obtain rfl : monthFromMarch = 11 := hmonthFromMarch
    simp [IsDate, daysInMonth, hleap rfl]
  · interval_cases monthFromMarch
    · simp [IsDate, daysInMonth]
      omega
    · simp [IsDate, daysInMonth]
      split_ifs <;> omega

/-- The date of a day. -/
theorem FromMarch.date {dayOfEra yearOfEra dayOfYear monthFromMarch month year day : ℤ}
    (h : FromMarch dayOfEra yearOfEra dayOfYear) (era : ℤ)
    (hmonthFromMarch : monthFromMarch = (5 * dayOfYear + 2) / 153)
    (hmonth : month = if monthFromMarch < 10 then monthFromMarch + 3 else monthFromMarch - 9)
    (hyear : year = yearOfEra + era * 400 + if month ≤ 2 then 1 else 0)
    (hday : day = dayOfYear - (153 * monthFromMarch + 2) / 5 + 1) :
    IsDate year month day ∧ dayNumber year month day = era * 146097 + dayOfEra - 719468 := by
  obtain ⟨hnonneg, hle⟩ := monthFromMarch_bounds h.dayOfYear_nonneg h.dayOfYear_le
  rw [← hmonthFromMarch] at hnonneg hle
  rw [h.dayOfEra_eq]
  by_cases hlate : monthFromMarch < 10
  · rw [if_pos hlate] at hmonth
    rw [if_neg (by omega), add_zero] at hyear
    subst hyear
    refine ⟨isDate_sinceMarch _ hnonneg hlate hmonthFromMarch hmonth hday, ?_⟩
    rw [dayNumber_sinceMarch era day h.yearOfEra_nonneg h.yearOfEra_le hnonneg hlate hmonth, hday]
    omega
  · rw [if_neg hlate] at hmonth
    rw [if_pos (by omega)] at hyear
    subst hyear
    have hlate' : 10 ≤ monthFromMarch := not_lt.mp hlate
    refine ⟨isDate_beforeMarch hlate' hle h.dayOfYear_le hmonthFromMarch hmonth hday ?_, ?_⟩
    · intro hlast
      have hyears := h.leapDay hlast
      rw [isLeapYear_iff]
      omega
    · rw [dayNumber_beforeMarch era day h.yearOfEra_nonneg h.yearOfEra_le hlate' hle hmonth, hday]
      omega

end Calendar

end Tgvisd
