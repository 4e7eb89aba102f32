import Mathlib.Tactic.Ring
import Mathlib.Data.Nat.Find
import Mathlib.Order.Monotone.Basic

/-! The proleptic Gregorian calendar, with days and seconds counted from the
first day of year zero. -/
namespace Srvlog.Library

def isLeapYear (year : Nat) : Bool := year % 4 = 0 && (year % 100 ≠ 0 || year % 400 = 0)

def daysInMonth (year month : Nat) : Nat :=
  match month with
  | 2 => if isLeapYear year then 29 else 28
  | 4 | 6 | 9 | 11 => 30
  | _ => 31

/-- Days in the years before the given one. -/
def daysBeforeYear (year : Nat) : Nat :=
  365 * year + (year + 3) / 4 - (year + 99) / 100 + (year + 399) / 400

/-- Days of the year in the months before the given one; months count from one. -/
def daysBeforeMonth (year : Nat) : Nat → Nat
  | 0 => 0
  | 1 => 0
  | month + 2 => daysBeforeMonth year (month + 1) + daysInMonth year (month + 1)

/-- The year a day lies in, found from the mean length of a year. -/
def yearOfDay (n : Nat) : Nat :=
  let guess := n * 400 / 146097
  if daysBeforeYear (guess + 1) ≤ n then guess + 1
  else if daysBeforeYear guess ≤ n then guess else guess - 1

def monthOfDay (n : Nat) : Nat :=
  let year := yearOfDay n
  Nat.findGreatest (fun m => 1 ≤ m ∧ daysBeforeMonth year m ≤ n - daysBeforeYear year) 12

/-- Four hundred years have 146097 days; the leap days drift by less than two. -/
theorem daysBeforeYear_drift (year : Nat) :
    400 * daysBeforeYear year ≤ 146097 * year + 699 ∧
      146097 * year ≤ 400 * daysBeforeYear year + 396 := by
  unfold daysBeforeYear
  omega

theorem daysBeforeYear_mono : Monotone daysBeforeYear := by
  apply monotone_nat_of_le_succ
  intro year
  have h := daysBeforeYear_drift year
  have h' := daysBeforeYear_drift (year + 1)
  omega

theorem yearOfDay_spec (n : Nat) :
    daysBeforeYear (yearOfDay n) ≤ n ∧ n < daysBeforeYear (yearOfDay n + 1) := by
  have hlo : n * 400 / 146097 * 146097 ≤ n * 400 := Nat.div_mul_le_self _ _
  have hhi : n * 400 < (n * 400 / 146097 + 1) * 146097 := Nat.lt_mul_of_div_lt (Nat.lt_succ_self _) (by decide)
  unfold yearOfDay
  dsimp only
  generalize n * 400 / 146097 = guess at hlo hhi
  have h := daysBeforeYear_drift guess
  have hnext := daysBeforeYear_drift (guess + 1 + 1)
  split_ifs with hafter hbefore
  · exact ⟨hafter, by omega⟩
  · exact ⟨hbefore, by omega⟩
  · cases guess with
    | zero => exact absurd (by simp [daysBeforeYear]) hbefore
    | succ guess =>
      have hprev := daysBeforeYear_drift guess
      exact ⟨by simp only [Nat.add_sub_cancel]; omega, by simpa using hbefore⟩

theorem yearOfDay_mono : Monotone yearOfDay := by
  intro a b hab
  by_contra hlt
  have hb := (yearOfDay_spec b).2
  have ha := (yearOfDay_spec a).1
  have := daysBeforeYear_mono (show yearOfDay b + 1 ≤ yearOfDay a by omega)
  omega

theorem monthOfDay_range (n : Nat) : 1 ≤ monthOfDay n ∧ monthOfDay n ≤ 12 := by
  unfold monthOfDay
  refine ⟨?_, Nat.findGreatest_le 12⟩
  have h := Nat.findGreatest_spec (P := fun m =>
    1 ≤ m ∧ daysBeforeMonth (yearOfDay n) m ≤ n - daysBeforeYear (yearOfDay n))
    (show 1 ≤ 12 by decide) ⟨le_refl 1, Nat.zero_le _⟩
  exact h.1

theorem monthOfDay_mono {a b : Nat} (hab : a ≤ b) (hy : yearOfDay a = yearOfDay b) :
    monthOfDay a ≤ monthOfDay b := by
  unfold monthOfDay
  rw [hy]
  apply Nat.findGreatest_mono_left
  intro m hm
  exact ⟨hm.1, hm.2.trans (Nat.sub_le_sub_right hab _)⟩

/-- The year and month of a day as one number, `YYYYMM`. -/
def yearMonthOfDay (n : Nat) : Nat := 100 * yearOfDay n + monthOfDay n

theorem yearMonthOfDay_mono : Monotone yearMonthOfDay := by
  intro a b hab
  have hy := yearOfDay_mono hab
  have ha := monthOfDay_range a
  have hb := monthOfDay_range b
  unfold yearMonthOfDay
  rcases Nat.lt_or_eq_of_le hy with hlt | heq
  · omega
  · have := monthOfDay_mono hab heq
    omega

end Srvlog.Library
