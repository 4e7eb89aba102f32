import Mathlib.Data.Int.Basic

/-! Java's calendar: Julian up to the cutover in October 1582 and Gregorian from then on.
Fields out of range carry over into the larger ones. -/
namespace Srvlog.Library

/-- The days of a year in front of a month, which counts from zero. -/
def daysBeforeMonthOf (leap : Bool) (month : Int) : Int :=
  [0, 31, 59, 90, 120, 151, 181, 212, 243, 273, 304, 334].getD month.toNat 0 + if leap ∧ 2 ≤ month then 1 else 0

/-- Days from the first of January 1970. Months count from one. -/
def gregorianDay (year month day : Int) : Int :=
  let y := year + (month - 1) / 12
  let leap := decide (y % 4 = 0 ∧ (y % 100 ≠ 0 ∨ y % 400 = 0))
  365 * y + (y + 3) / 4 - (y + 99) / 100 + (y + 399) / 400 + daysBeforeMonthOf leap ((month - 1) % 12) + day - 719529

def julianDay (year month day : Int) : Int :=
  let y := year + (month - 1) / 12
  365 * y + (y + 3) / 4 + daysBeforeMonthOf (decide (y % 4 = 0)) ((month - 1) % 12) + day - 719531

/-- The fifteenth of October 1582. -/
def gregorianCutover : Int := -141427

/-- `GregorianCalendar.computeTime` in the time zone UTC, in milliseconds. -/
def utcTime (year month day hour minute second milli : Int) : Int :=
  let timeOfDay := ((hour * 60 + minute) * 60 + second) * 1000 + milli
  let carried := timeOfDay / 86400000
  let gregorian := carried + gregorianDay year month day
  let julian := carried + julianDay year month day
  let fixedDate := if year < 1582 then julian else if gregorianCutover ≤ gregorian then gregorian else julian
  fixedDate * 86400000 + timeOfDay % 86400000

example : gregorianDay 1582 10 15 = gregorianCutover ∧ julianDay 1582 10 4 + 1 = gregorianCutover := by decide
example : utcTime 2014 9 11 16 23 1 479 = 1410452581479 := by decide

end Srvlog.Library
