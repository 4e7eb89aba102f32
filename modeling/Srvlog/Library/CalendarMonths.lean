import Srvlog.Library.WallClock

/-! The month of a day begins with its first day and ends in front of the first day of
the next month, also across the cutover. -/
namespace Srvlog.Library

section counting

/-- Numbers in front of the first one that fails a test are counted. -/
theorem lt_countP_range_iff {p : Nat → Bool} {n : Nat} (hp : ∀ i j, i ≤ j → j < n → p j = true → p i = true)
    {m : Nat} (hm : m < n) : m < (List.range n).countP p ↔ p m = true := by
  induction n with
  | zero => omega
  | succ n ih =>
    rw [List.range_succ, List.countP_append, List.countP_singleton]
    by_cases hn : p n = true
    · have hall : (List.range n).countP p = n := by
        have hcount : (List.range n).countP p = (List.range n).length :=
          List.countP_eq_length.mpr fun i hi => hp i n (List.mem_range.mp hi).le (Nat.lt_succ_self n) hn
        rw [hcount, List.length_range]
      rw [hall, if_pos hn]
      exact iff_of_true hm (hp m n (Nat.le_of_lt_succ hm) (Nat.lt_succ_self n) hn)
    · rw [if_neg hn, Nat.add_zero]
      rcases Nat.lt_or_eq_of_le (Nat.le_of_lt_succ hm) with hlt | rfl
      · exact ih (fun i j hij hj => hp i j hij (hj.trans (Nat.lt_succ_self n))) hlt
      · have hle : (List.range m).countP p ≤ m := List.countP_le_length.trans_eq List.length_range
        exact iff_of_false (by omega) hn

end counting

section months

/-- The months of a year that have begun by a day. -/
def monthsBegun (leap : Bool) (dayOfYear : Int) : Nat :=
  (List.range 12).countP fun month : Nat => daysBeforeMonthOf leap month ≤ dayOfYear

theorem daysBeforeMonthOf_mono (leap : Bool) {i j : Nat} (hij : i ≤ j) (hj : j < 12) :
    daysBeforeMonthOf leap i ≤ daysBeforeMonthOf leap j := by
  induction hij with
  | refl => exact le_rfl
  | @step j _ ih =>
    have hnext := (daysBeforeMonthOf_succ leap (show j < 11 by omega)).1
    rw [← Nat.cast_succ] at hnext
    exact (ih (by omega)).trans (by omega)

theorem lt_monthsBegun_iff {leap : Bool} {dayOfYear : Int} {m : Nat} (hm : m < 12) :
    m < monthsBegun leap dayOfYear ↔ daysBeforeMonthOf leap m ≤ dayOfYear := by
  rw [monthsBegun, lt_countP_range_iff ?_ hm, decide_eq_true_iff]
  intro i j hij hj hle
  exact decide_eq_true ((daysBeforeMonthOf_mono leap hij hj).trans (of_decide_eq_true hle))

/-- In a calendar whose months follow each other, a day of a year lies in the last month
that has begun. -/
theorem month_of_day {yearStart first : Int → Int} {leap : Int → Bool}
    (hfirst : ∀ (year : Int) (m : Nat), m < 12 → first (12 * year + m) = yearStart year + daysBeforeMonthOf (leap year) m)
    {year day : Int} (hle : yearStart year ≤ day) (hlt : day < yearStart (year + 1)) :
    first (12 * year + monthsBegun (leap year) (day - yearStart year) - 1) ≤ day ∧
      day < first (12 * year + monthsBegun (leap year) (day - yearStart year) - 1 + 1) := by
  have hjanuary (leap : Bool) : daysBeforeMonthOf leap (0 : Nat) = 0 := daysBeforeMonthOf_january leap
  have hpos : 0 < monthsBegun (leap year) (day - yearStart year) :=
    (lt_monthsBegun_iff (by decide)).mpr ((hjanuary _).trans_le (by omega))
  have hcount : monthsBegun (leap year) (day - yearStart year) ≤ 12 := List.countP_le_length
  obtain ⟨m, hm⟩ := Nat.exists_eq_add_of_lt hpos
  have hbegun : daysBeforeMonthOf (leap year) m ≤ day - yearStart year :=
    (lt_monthsBegun_iff (by omega)).mp (by omega)
  have hmonth : 12 * year + (monthsBegun (leap year) (day - yearStart year) : Int) - 1 = 12 * year + m := by omega
  rw [hmonth]
  refine ⟨by rw [hfirst year m (by omega)]; omega, ?_⟩
  by_cases hlast : m = 11
  · have hnext : 12 * year + (m : Int) + 1 = 12 * (year + 1) + (0 : Nat) := by omega
    rw [hnext, hfirst (year + 1) 0 (by decide), hjanuary]
    omega
  · have hnext : 12 * year + (m : Int) + 1 = 12 * year + ((m + 1 : Nat) : Int) := by omega
    have hopen : ¬ daysBeforeMonthOf (leap year) (m + 1 : Nat) ≤ day - yearStart year :=
      fun h => absurd ((lt_monthsBegun_iff (by omega)).mpr h) (by omega)
    rw [hnext, hfirst year (m + 1) (by omega)]
    omega

theorem julianDay_firstOfYear (year : Int) : julianDay year 1 1 = 365 * year + (year + 3) / 4 - 719530 := by
  simp only [julianDay, Int.sub_self, Int.zero_emod, daysBeforeMonthOf_january]
  omega

theorem gregorianDay_firstOfYear (year : Nat) : gregorianDay year 1 1 = daysBeforeYear year - epochDay := by
  have h := @gregorianDay_eq year 1 1 (by decide)
  rw [daysBeforeMonth, Nat.cast_zero] at h
  rw [← Nat.cast_one, h]
  omega

theorem isLeapYear_eq (year : Nat) :
    isLeapYear year = decide ((year : Int) % 4 = 0 ∧ ((year : Int) % 100 ≠ 0 ∨ (year : Int) % 400 = 0)) := by
  rw [isLeapYear, Bool.eq_iff_iff]
  simp only [decide_eq_true_eq, Bool.and_eq_true, Bool.or_eq_true]
  omega

theorem calendarMonth_julian {day : Int} (h : day < gregorianCutover) :
    julianMonth (calendarMonth day) ≤ day ∧ day < julianMonth (calendarMonth day + 1) := by
  have hyear : calendarYear day = 4 * (day + 719530) / 1461 := if_pos h
  have hmonth : calendarMonth day = 12 * calendarYear day +
      monthsBegun (decide (calendarYear day % 4 = 0)) (day - julianDay (calendarYear day) 1 1) - 1 := by
    simp only [calendarMonth, if_pos h]
    rfl
  have hstart := julianDay_firstOfYear (calendarYear day)
  have hend := julianDay_firstOfYear (calendarYear day + 1)
  rw [hmonth]
  exact month_of_day (fun year _ hm => julianMonth_eq year hm) (by omega) (by omega)

theorem calendarMonth_gregorian {day : Int} (h : gregorianCutover ≤ day) :
    gregorianMonth (calendarMonth day) ≤ day ∧ day < gregorianMonth (calendarMonth day + 1) := by
  have hcutover : gregorianCutover = -141427 := rfl
  have hepoch : epochDay = 719528 := rfl
  obtain ⟨hle, hlt⟩ := yearOfDay_spec (day + epochDay).toNat
  generalize hyear : yearOfDay (day + epochDay).toNat = year at hle hlt
  have hyear' : calendarYear day = year := by
    rw [calendarYear, if_neg (not_lt.mpr h), hyear]
  have hmonth : calendarMonth day = 12 * (year : Int) +
      monthsBegun (decide ((year : Int) % 4 = 0 ∧ ((year : Int) % 100 ≠ 0 ∨ (year : Int) % 400 = 0)))
        (day - gregorianDay year 1 1) - 1 := by
    rw [← isLeapYear_eq]
    simp only [calendarMonth, if_neg (not_lt.mpr h), hyear', Int.toNat_natCast]
    rfl
  have hstart := gregorianDay_firstOfYear year
  have hend := gregorianDay_firstOfYear (year + 1)
  rw [Nat.cast_succ] at hend
  rw [hmonth]
  exact month_of_day (fun year _ hm => gregorianMonth_eq year hm) (by omega) (by omega)

/-- A day lies in its month. -/
theorem firstOfMonth_calendarMonth (day : Int) :
    firstOfMonth (calendarMonth day) ≤ day ∧ day < firstOfMonth (calendarMonth day + 1) := by
  obtain ⟨hoctober, hnovember, hoctober', hnovember'⟩ := cutover_month
  rw [firstOfMonth_eq, firstOfMonth_eq]
  rcases lt_or_ge day gregorianCutover with hold | hnew
  · obtain ⟨hle, hlt⟩ := calendarMonth_julian hold
    have hmonth : calendarMonth day < 18994 := by
      by_contra hafter
      have hmono := julianMonth_mono (show 18994 ≤ calendarMonth day by omega)
      omega
    rw [if_pos hmonth]
    refine ⟨hle, ?_⟩
    split
    · exact hlt
    · have hnext : calendarMonth day + 1 = 18994 := by omega
      rw [hnext]
      omega
  · obtain ⟨hle, hlt⟩ := calendarMonth_gregorian hnew
    have hmonth : 18993 ≤ calendarMonth day := by
      by_contra hbefore
      have hmono := gregorianMonth_mono (show calendarMonth day + 1 ≤ 18993 by omega)
      omega
    rw [if_neg (show ¬ calendarMonth day + 1 < 18994 by omega)]
    refine ⟨?_, hlt⟩
    split
    · have hthis : calendarMonth day = 18993 := by omega
      rw [hthis]
      omega
    · exact hle

end months

section firsts

theorem julianDate_firstOfMonth (year : Int) {m : Nat} (hm : m < 12) :
    julianDate (julianMonth (12 * year + m)) = ⟨year, m + 1, 1⟩ := by
  have hfound : ∀ leap : Bool, ∀ m : Fin 12,
      Nat.findGreatest (fun k => daysBeforeMonthOf leap k ≤ daysBeforeMonthOf leap m.val) 11 = m.val := by decide
  have hrange : ∀ leap : Bool, ∀ m : Fin 12, 0 ≤ daysBeforeMonthOf leap m.val ∧
      daysBeforeMonthOf leap m.val ≤ 334 + if leap then 1 else 0 := by decide
  have hbounds := hrange (decide (year % 4 = 0)) ⟨m, hm⟩
  have hfirst := julianMonth_eq year hm
  have hstart := julianDay_firstOfYear year
  have hyear : 4 * (julianMonth (12 * year + m) + 719530) / 1461 = year := by
    rw [hfirst, hstart]
    dsimp only at hbounds
    simp only [decide_eq_true_eq] at hbounds
    omega
  have hday : julianMonth (12 * year + m) - julianDay year 1 1 = daysBeforeMonthOf (decide (year % 4 = 0)) m := by
    omega
  have hmonth := hfound (decide (year % 4 = 0)) ⟨m, hm⟩
  dsimp only at hmonth
  simp only [julianDate, hyear, hday, hmonth, Int.sub_self]
  rfl

theorem yearOfDay_eq {year n : Nat} (hle : daysBeforeYear year ≤ n) (hlt : n < daysBeforeYear (year + 1)) :
    yearOfDay n = year := by
  obtain ⟨hle', hlt'⟩ := yearOfDay_spec n
  rcases Nat.lt_trichotomy (yearOfDay n) year with hbefore | heq | hafter
  · have hmono := daysBeforeYear_mono (show yearOfDay n + 1 ≤ year by omega)
    omega
  · exact heq
  · have hmono := daysBeforeYear_mono (show year + 1 ≤ yearOfDay n by omega)
    omega

theorem monthOfDay_firstOfMonth (year : Nat) {m : Nat} (hm : m < 12) :
    Nat.findGreatest (fun k => 1 ≤ k ∧ daysBeforeMonth year k ≤ daysBeforeMonth year (m + 1)) 12 = m + 1 := by
  have hleap : isLeapYear year = isLeapYear (if isLeapYear year then 4 else 1) := by cases isLeapYear year <;> rfl
  have hall : ∀ leap : Bool, ∀ m : Fin 12, Nat.findGreatest (fun k => 1 ≤ k ∧
      daysBeforeMonth (if leap then 4 else 1) k ≤ daysBeforeMonth (if leap then 4 else 1) (m.val + 1)) 12 = m.val + 1 := by
    decide
  simp only [daysBeforeMonth_congr hleap]
  exact hall (isLeapYear year) ⟨m, hm⟩

theorem gregorianDate_firstOfMonth (year : Nat) {m : Nat} (hm : m < 12) :
    gregorianDate (gregorianMonth (12 * year + m)) = ⟨year, m + 1, 1⟩ := by
  have hrange : ∀ leap : Bool, ∀ m : Fin 12, daysBeforeMonthOf leap m.val ≤ 335 := by decide
  have hmonth : 1 ≤ m + 1 ∧ m + 1 ≤ 12 := ⟨Nat.le_add_left 1 m, hm⟩
  have hbound := hrange (isLeapYear year) ⟨m, hm⟩
  have hbefore := daysBeforeMonth_eq year hmonth
  rw [Nat.cast_succ, Int.add_sub_cancel] at hbefore
  have hfirst := @gregorianDay_eq year (m + 1) 1 hmonth
  rw [Nat.cast_succ, Nat.cast_one] at hfirst
  have hn : (gregorianMonth (12 * year + m) + epochDay).toNat = daysBeforeYear year + daysBeforeMonth year (m + 1) := by
    rw [gregorianMonth, (month_fields year hm).1, (month_fields year hm).2, hfirst]
    omega
  have hlength : daysBeforeYear year + 365 ≤ daysBeforeYear (year + 1) := by
    unfold daysBeforeYear
    omega
  have hyear : yearOfDay (daysBeforeYear year + daysBeforeMonth year (m + 1)) = year :=
    yearOfDay_eq (Nat.le_add_right _ _) (by dsimp only at hbound; omega)
  have hmonthOf : monthOfDay (daysBeforeYear year + daysBeforeMonth year (m + 1)) = m + 1 := by
    rw [monthOfDay, hyear, Nat.add_sub_cancel_left]
    exact monthOfDay_firstOfMonth year hm
  rw [gregorianDate, hn, dayOfMonth, hyear, hmonthOf, Nat.add_sub_cancel_left, Nat.sub_self]

/-- The date of the first day of a month. -/
theorem dateOf_firstOfMonth (year : Int) {m : Nat} (hm : m < 12) :
    dateOf (firstOfMonth (12 * year + m)) = ⟨year, m + 1, 1⟩ := by
  obtain ⟨hoctober, -, -, hnovember⟩ := cutover_month
  rw [firstOfMonth_eq]
  split
  · next hold =>
    have hmono := julianMonth_mono (show 12 * year + (m : Int) ≤ 18993 by omega)
    rw [dateOf, if_pos (hmono.trans_lt hoctober), julianDate_firstOfMonth year hm]
  · next hnew =>
    have hmono := gregorianMonth_mono (not_lt.mp hnew)
    obtain ⟨y, rfl⟩ := Int.eq_ofNat_of_zero_le (show 0 ≤ year by omega)
    rw [dateOf, if_neg (not_lt.mpr (hnovember.trans hmono)), gregorianDate_firstOfMonth y hm]

end firsts
end Srvlog.Library
