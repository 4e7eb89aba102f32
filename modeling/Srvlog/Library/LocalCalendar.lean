import Srvlog.Library.Calendar
import Srvlog.Library.GregorianCalendar
import Mathlib.Data.Int.ConditionallyCompleteOrder
import Mathlib.Tactic.IntervalCases

/-! Calendar fields of local days, which count from the first of January 1970, and the
instants at which local days start. -/
namespace Srvlog.Library

section fields

/-- The first of January 1970, counted from the first day of year zero. -/
def epochDay : Nat := 719528

def dayOfMonth (n : Nat) : Nat := n - daysBeforeYear (yearOfDay n) - daysBeforeMonth (yearOfDay n) (monthOfDay n) + 1

/-- The number `YYYYMMDD`. -/
def yearMonthDay (n : Nat) : Nat := (yearOfDay n * 100 + monthOfDay n) * 100 + dayOfMonth n

/-- The year of a day, Julian before the cutover. -/
def calendarYear (day : Int) : Int :=
  if day < gregorianCutover then 4 * (day + 719530) / 1461 else yearOfDay (day + epochDay).toNat

/-- The month of a day, counted from the first month of year zero. -/
def calendarMonth (day : Int) : Int :=
  let year := calendarYear day
  let dayOfYear := if day < gregorianCutover then day - julianDay year 1 1 else day - gregorianDay year 1 1
  let leap := if day < gregorianCutover then decide (year % 4 = 0) else isLeapYear year.toNat
  12 * year + ((List.range 12).countP fun month : Nat => daysBeforeMonthOf leap month ≤ dayOfYear) - 1

/-- The first day of a month. -/
def firstOfMonth (month : Int) : Int := utcTime (month / 12) (month % 12 + 1) 1 0 0 0 0 / 86400000

/-- Sunday is the first day. -/
def dayOfWeek (day : Int) : Int := (day + 4) % 7 + 1

/-- `Calendar.set(DAY_OF_WEEK, MONDAY)`, which stays in the week that begins on the first day of week. -/
def mondayOfWeek (firstDayOfWeek day : Int) : Int :=
  day - (dayOfWeek day - firstDayOfWeek) % 7 + (2 - firstDayOfWeek) % 7

example : calendarMonth 17590 = 12 * 2018 + 1 ∧ firstOfMonth (12 * 2018 + 1) = 17563 := by decide
example : calendarMonth (-141428) = 12 * 1582 + 9 ∧ firstOfMonth (12 * 1582 + 9) = -141431 := by decide
example : mondayOfWeek 1 17590 = 17588 ∧ mondayOfWeek 2 17594 = 17588 ∧ mondayOfWeek 1 17594 = 17595 := by decide

end fields

/-- The instants, in milliseconds, at which the local days start. Every day starts at midnight. -/
structure TimeZone where
  startOfDay : Int → Int
  dayOf : Int → Int
  startOfDay_lt : ∀ day, startOfDay day < startOfDay (day + 1)
  dayOf_spec : ∀ time, startOfDay (dayOf time) ≤ time ∧ time < startOfDay (dayOf time + 1)
  whole_second : ∀ day, 1000 ∣ startOfDay day

/-- A time zone without offset changes; the offset counts seconds. -/
def TimeZone.fixed (offset : Int) : TimeZone where
  startOfDay day := 86400000 * day - 1000 * offset
  dayOf time := (time + 1000 * offset) / 86400000
  startOfDay_lt day := by omega
  dayOf_spec time := by omega
  whole_second day := by omega

section zones
variable (zone : TimeZone)

theorem TimeZone.startOfDay_strictMono : StrictMono zone.startOfDay := strictMono_int_of_lt_succ zone.startOfDay_lt

theorem TimeZone.le_dayOf_iff {day time : Int} : day ≤ zone.dayOf time ↔ zone.startOfDay day ≤ time := by
  obtain ⟨hle, hlt⟩ := zone.dayOf_spec time
  constructor
  · exact fun h => (zone.startOfDay_strictMono.monotone h).trans hle
  · intro h
    have hday : day < zone.dayOf time + 1 := zone.startOfDay_strictMono.lt_iff_lt.mp (h.trans_lt hlt)
    omega

end zones

section months

theorem exists_month (month : Int) : ∃ year : Int, ∃ m : Nat, m < 12 ∧ month = 12 * year + m :=
  ⟨month / 12, (month % 12).toNat, by omega, by omega⟩

/-- A month in its year. -/
theorem month_fields (year : Int) {m : Nat} (hm : m < 12) :
    (12 * year + (m : Int)) / 12 = year ∧ (12 * year + (m : Int)) % 12 = m := by
  omega

theorem daysBeforeMonthOf_january (leap : Bool) : daysBeforeMonthOf leap 0 = 0 := by
  cases leap <;> rfl

theorem daysBeforeMonthOf_succ (leap : Bool) {m : Nat} (hm : m < 11) :
    daysBeforeMonthOf leap m + 28 ≤ daysBeforeMonthOf leap (m + 1) ∧
      daysBeforeMonthOf leap (m + 1) ≤ daysBeforeMonthOf leap m + 31 := by
  have hall : ∀ leap : Bool, ∀ m : Fin 11, daysBeforeMonthOf leap m.val + 28 ≤ daysBeforeMonthOf leap (m.val + 1) ∧
      daysBeforeMonthOf leap (m.val + 1) ≤ daysBeforeMonthOf leap m.val + 31 := by decide
  exact hall leap ⟨m, hm⟩

/-- A calendar in which the months follow each other in every year. -/
theorem month_length {yearStart first : Int → Int} {leap : Int → Bool}
    (hyear : ∀ year, yearStart (year + 1) = yearStart year + 365 + if leap year then 1 else 0)
    (hfirst : ∀ (year : Int) (m : Nat), m < 12 → first (12 * year + m) = yearStart year + daysBeforeMonthOf (leap year) m)
    (month : Int) : first month + 28 ≤ first (month + 1) ∧ first (month + 1) ≤ first month + 31 := by
  obtain ⟨year, m, hm, rfl⟩ := exists_month month
  rw [hfirst year m hm]
  by_cases hlast : m = 11
  · subst hlast
    have hnext : 12 * year + ((11 : Nat) : Int) + 1 = 12 * (year + 1) + (0 : Nat) := by omega
    have hdecember : daysBeforeMonthOf (leap year) (11 : Nat) = 334 + if leap year then 1 else 0 := by
      cases leap year <;> rfl
    have hjanuary : daysBeforeMonthOf (leap (year + 1)) (0 : Nat) = 0 := daysBeforeMonthOf_january _
    rw [hnext, hfirst (year + 1) 0 (by decide), hyear, hdecember, hjanuary]
    omega
  · have hnext : 12 * year + (m : Int) + 1 = 12 * year + ((m + 1 : Nat) : Int) := by omega
    have hlength := daysBeforeMonthOf_succ (leap year) (show m < 11 by omega)
    rw [hnext, hfirst year (m + 1) (by omega), Nat.cast_add_one]
    omega

theorem gregorianDay_newYear (year : Int) : gregorianDay (year + 1) 1 1 =
    gregorianDay year 1 1 + 365 + if decide (year % 4 = 0 ∧ (year % 100 ≠ 0 ∨ year % 400 = 0)) then 1 else 0 := by
  simp only [gregorianDay, Int.sub_self, Int.zero_emod, daysBeforeMonthOf_january, decide_eq_true_eq]
  split <;> omega

theorem gregorianDay_month (year : Int) {m : Nat} (hm : m < 12) : gregorianDay year (m + 1) 1 =
    gregorianDay year 1 1 + daysBeforeMonthOf (decide (year % 4 = 0 ∧ (year % 100 ≠ 0 ∨ year % 400 = 0))) m := by
  have hdiv : (m : Int) / 12 = 0 := by omega
  have hmod : (m : Int) % 12 = m := by omega
  simp only [gregorianDay, Int.add_sub_cancel, hdiv, hmod, Int.sub_self, Int.zero_ediv, Int.zero_emod,
    daysBeforeMonthOf_january, Int.add_zero]
  omega

theorem julianDay_newYear (year : Int) : julianDay (year + 1) 1 1 =
    julianDay year 1 1 + 365 + if decide (year % 4 = 0) then 1 else 0 := by
  simp only [julianDay, Int.sub_self, Int.zero_emod, daysBeforeMonthOf_january, decide_eq_true_eq]
  split <;> omega

theorem julianDay_month (year : Int) {m : Nat} (hm : m < 12) :
    julianDay year (m + 1) 1 = julianDay year 1 1 + daysBeforeMonthOf (decide (year % 4 = 0)) m := by
  have hdiv : (m : Int) / 12 = 0 := by omega
  have hmod : (m : Int) % 12 = m := by omega
  simp only [julianDay, Int.add_sub_cancel, hdiv, hmod, Int.sub_self, Int.zero_ediv, Int.zero_emod,
    daysBeforeMonthOf_january, Int.add_zero]
  omega

/-- The first days of the months, counted from the first month of year zero. -/
def gregorianMonth (month : Int) : Int := gregorianDay (month / 12) (month % 12 + 1) 1

def julianMonth (month : Int) : Int := julianDay (month / 12) (month % 12 + 1) 1

theorem gregorianMonth_eq (year : Int) {m : Nat} (hm : m < 12) : gregorianMonth (12 * year + m) =
    gregorianDay year 1 1 + daysBeforeMonthOf (decide (year % 4 = 0 ∧ (year % 100 ≠ 0 ∨ year % 400 = 0))) m := by
  rw [gregorianMonth, (month_fields year hm).1, (month_fields year hm).2, gregorianDay_month year hm]

theorem julianMonth_eq (year : Int) {m : Nat} (hm : m < 12) :
    julianMonth (12 * year + m) = julianDay year 1 1 + daysBeforeMonthOf (decide (year % 4 = 0)) m := by
  rw [julianMonth, (month_fields year hm).1, (month_fields year hm).2, julianDay_month year hm]

theorem gregorianMonth_succ (month : Int) :
    gregorianMonth month + 28 ≤ gregorianMonth (month + 1) ∧ gregorianMonth (month + 1) ≤ gregorianMonth month + 31 :=
  month_length gregorianDay_newYear (fun year _ hm => gregorianMonth_eq year hm) month

theorem julianMonth_succ (month : Int) :
    julianMonth month + 28 ≤ julianMonth (month + 1) ∧ julianMonth (month + 1) ≤ julianMonth month + 31 :=
  month_length julianDay_newYear (fun year _ hm => julianMonth_eq year hm) month

theorem gregorianMonth_mono : Monotone gregorianMonth :=
  monotone_int_of_le_succ fun month => by
    have h := gregorianMonth_succ month
    omega

theorem julianMonth_mono : Monotone julianMonth :=
  monotone_int_of_le_succ fun month => by
    have h := julianMonth_succ month
    omega

/-- The cutover lies in October 1582. -/
theorem cutover_month : julianMonth 18993 < gregorianCutover ∧ gregorianCutover ≤ julianMonth 18994 ∧
    gregorianMonth 18993 < gregorianCutover ∧ gregorianCutover ≤ gregorianMonth 18994 := by decide

/-- November 1582 is the first month that starts in the Gregorian calendar. -/
theorem firstOfMonth_eq (month : Int) :
    firstOfMonth month = if month < 18994 then julianMonth month else gregorianMonth month := by
  obtain ⟨-, -, hoctober, hnovember⟩ := cutover_month
  have hbefore : month < 18994 → gregorianMonth month < gregorianCutover :=
    fun h => (gregorianMonth_mono (show month ≤ 18993 by omega)).trans_lt hoctober
  have hafter : 18994 ≤ month → gregorianCutover ≤ gregorianMonth month :=
    fun h => hnovember.trans (gregorianMonth_mono h)
  unfold firstOfMonth utcTime
  unfold julianMonth gregorianMonth at *
  norm_num
  split_ifs <;> omega

/-- The months follow each other, also across the cutover. -/
theorem firstOfMonth_succ (month : Int) :
    firstOfMonth month < firstOfMonth (month + 1) ∧ firstOfMonth (month + 1) ≤ firstOfMonth month + 31 := by
  have hg := gregorianMonth_succ month
  have hj := julianMonth_succ month
  rw [firstOfMonth_eq, firstOfMonth_eq]
  by_cases hoctober : month = 18993
  · subst hoctober
    decide
  · split_ifs <;> omega

end months

section dates

theorem daysBeforeMonth_congr {year other : Nat} (h : isLeapYear year = isLeapYear other) (month : Nat) :
    daysBeforeMonth year month = daysBeforeMonth other month := by
  fun_induction daysBeforeMonth year month with
  | case1 => rfl
  | case2 => rfl
  | case3 month ih =>
    have hmonth : daysInMonth year (month + 1) = daysInMonth other (month + 1) := by
      unfold daysInMonth
      rw [h]
    rw [daysBeforeMonth, ih, hmonth]

theorem daysBeforeMonth_eq (year : Nat) {month : Nat} (h : 1 ≤ month ∧ month ≤ 12) :
    (daysBeforeMonth year month : Int) = daysBeforeMonthOf (isLeapYear year) (month - 1) := by
  have hall : ∀ leap : Bool, ∀ m : Fin 12,
      (daysBeforeMonth (if leap then 4 else 1) (m.val + 1) : Int) = daysBeforeMonthOf leap m.val := by decide
  have hleap : isLeapYear year = isLeapYear (if isLeapYear year then 4 else 1) := by cases isLeapYear year <;> rfl
  obtain ⟨m, rfl⟩ := Nat.exists_eq_add_of_le' h.1
  have hmonth : ((m + 1 : Nat) : Int) - 1 = m := by omega
  rw [daysBeforeMonth_congr hleap, hmonth]
  exact hall (isLeapYear year) ⟨m, Nat.lt_of_succ_le h.2⟩

theorem gregorianDay_eq {year month day : Nat} (hmonth : 1 ≤ month ∧ month ≤ 12) :
    gregorianDay year month day = daysBeforeYear year + daysBeforeMonth year month + day - 1 - epochDay := by
  have hdiv : ((month : Int) - 1) / 12 = 0 := by omega
  have hmod : ((month : Int) - 1) % 12 = month - 1 := by omega
  have hleap : decide ((year : Int) % 4 = 0 ∧ ((year : Int) % 100 ≠ 0 ∨ (year : Int) % 400 = 0)) = isLeapYear year := by
    rw [isLeapYear, Bool.eq_iff_iff]
    simp only [decide_eq_true_eq, Bool.and_eq_true, Bool.or_eq_true]
    omega
  have hyear : (daysBeforeYear year : Int) =
      365 * (year : Int) + (year + 3) / 4 - (year + 99) / 100 + (year + 399) / 400 := by
    unfold daysBeforeYear
    omega
  rw [daysBeforeMonth_eq year hmonth, gregorianDay, hdiv, Int.add_zero, hmod, hleap, hyear, epochDay]
  omega

theorem daysInMonth_le (year month : Nat) : daysInMonth year month ≤ 31 := by
  unfold daysInMonth
  split
  · split <;> decide
  all_goals decide

/-- A day lies in its month, and no month is long. -/
theorem monthOfDay_spec (n : Nat) :
    daysBeforeMonth (yearOfDay n) (monthOfDay n) ≤ n - daysBeforeYear (yearOfDay n) ∧
      n - daysBeforeYear (yearOfDay n) < daysBeforeMonth (yearOfDay n) (monthOfDay n) + 99 := by
  obtain ⟨hlow, hhigh⟩ := monthOfDay_range n
  have hyear := (yearOfDay_spec n).2
  generalize hy : yearOfDay n = year at hyear ⊢
  have hfound : 1 ≤ monthOfDay n ∧ daysBeforeMonth year (monthOfDay n) ≤ n - daysBeforeYear year := by
    have h := @Nat.findGreatest_spec 1 (fun m => 1 ≤ m ∧ daysBeforeMonth year m ≤ n - daysBeforeYear year) _ 12
      (by decide) ⟨Nat.le_refl 1, Nat.zero_le _⟩
    rw [← hy] at h ⊢
    exact h
  refine ⟨hfound.2, ?_⟩
  by_cases hlast : monthOfDay n = 12
  · have hdecember : (334 : Int) ≤ daysBeforeMonth year 12 := by
      rw [daysBeforeMonth_eq year (by decide)]
      cases isLeapYear year <;> decide
    have hlength : daysBeforeYear (year + 1) ≤ daysBeforeYear year + 366 := by
      unfold daysBeforeYear
      omega
    rw [hlast]
    omega
  · have hnext : ¬ (1 ≤ monthOfDay n + 1 ∧ daysBeforeMonth year (monthOfDay n + 1) ≤ n - daysBeforeYear year) := by
      have h := @Nat.findGreatest_is_greatest (monthOfDay n + 1)
        (fun m => 1 ≤ m ∧ daysBeforeMonth year m ≤ n - daysBeforeYear year) _ 12
        (by rw [← hy]; exact Nat.lt_succ_self _) (by omega)
      exact h
    obtain ⟨month, hmonth⟩ := Nat.exists_eq_add_of_le' hlow
    have hstep : daysBeforeMonth year (monthOfDay n + 1) =
        daysBeforeMonth year (monthOfDay n) + daysInMonth year (monthOfDay n) := by
      rw [hmonth]
      rfl
    have hlength := daysInMonth_le year (monthOfDay n)
    omega

/-- The fields of a day determine it. -/
theorem gregorianDay_fields (n : Nat) : gregorianDay (yearOfDay n) (monthOfDay n) (dayOfMonth n) = n - epochDay := by
  have hyear := (yearOfDay_spec n).1
  have hmonth := (monthOfDay_spec n).1
  rw [gregorianDay_eq (monthOfDay_range n), dayOfMonth]
  omega

/-- They can be read off the number. -/
theorem yearMonthDay_fields (n : Nat) : yearMonthDay n / 10000 = yearOfDay n ∧ yearMonthDay n / 100 % 100 = monthOfDay n ∧
    yearMonthDay n % 100 = dayOfMonth n := by
  have hmonth := monthOfDay_range n
  have hday := (monthOfDay_spec n).2
  unfold yearMonthDay dayOfMonth
  omega

theorem yearMonthDay_injective {n m : Nat} (h : yearMonthDay n = yearMonthDay m) : n = m := by
  obtain ⟨hyear, hmonth, hday⟩ := yearMonthDay_fields n
  obtain ⟨hyear', hmonth', hday'⟩ := yearMonthDay_fields m
  have hn := gregorianDay_fields n
  rw [← hyear, ← hmonth, ← hday, h, hyear', hmonth', hday', gregorianDay_fields] at hn
  omega

theorem yearMonthDay_strictMono : StrictMono yearMonthDay := by
  intro a b hab
  have hyear := yearOfDay_mono hab.le
  have ha := monthOfDay_range a
  have hb := monthOfDay_range b
  have hstart := (yearOfDay_spec a).1
  have hmonth := monthOfDay_spec a
  have hmonth' := monthOfDay_spec b
  unfold yearMonthDay dayOfMonth
  rcases Nat.lt_or_eq_of_le hyear with hlt | heq
  · omega
  · have hle := monthOfDay_mono hab.le heq
    rw [heq] at hstart hmonth ⊢
    rcases Nat.lt_or_eq_of_le hle with hlt | hsame
    · omega
    · rw [hsame] at hmonth ⊢
      omega

theorem yearMonthDay_range (n : Nat) : 10000 * yearOfDay n + 101 ≤ yearMonthDay n ∧
    yearMonthDay n < 10000 * (yearOfDay n + 1) := by
  have hmonth := monthOfDay_range n
  have hday := (monthOfDay_spec n).2
  unfold yearMonthDay dayOfMonth
  omega

end dates
end Srvlog.Library
