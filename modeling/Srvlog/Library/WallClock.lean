import Srvlog.Library.LocalCalendar

/-! The date and the time of day that a local clock shows, and the instants that Java takes
for what it showed. -/
namespace Srvlog.Library

structure Date where
  year : Int
  month : Nat
  day : Nat
  deriving DecidableEq

section dates

/-- The date of a day in the Julian calendar. -/
def julianDate (day : Int) : Date :=
  let year := 4 * (day + 719530) / 1461
  let leap := decide (year % 4 = 0)
  let dayOfYear := day - julianDay year 1 1
  let month := Nat.findGreatest (fun m => daysBeforeMonthOf leap m ≤ dayOfYear) 11
  ⟨year, month + 1, (dayOfYear - daysBeforeMonthOf leap month).toNat + 1⟩

def gregorianDate (day : Int) : Date :=
  let n := (day + epochDay).toNat
  ⟨yearOfDay n, monthOfDay n, dayOfMonth n⟩

/-- The date of a day, counted from the first of January 1970. -/
def dateOf (day : Int) : Date := if day < gregorianCutover then julianDate day else gregorianDate day

/-- The year of a day without the cutover. -/
def isoYear (day : Int) : Int :=
  yearOfDay ((day + epochDay) % 146097).toNat + 400 * ((day + epochDay) / 146097)

example : dateOf 16070 = ⟨2013, 12, 31⟩ ∧ isoYear 16071 = 2014 := by decide
example : dateOf (-141428) = ⟨1582, 10, 4⟩ ∧ isoYear (-719529) = -1 := by decide

theorem julianDate_spec (day : Int) :
    julianDay (julianDate day).year (julianDate day).month (julianDate day).day = day ∧
      1 ≤ (julianDate day).month ∧ (julianDate day).month ≤ 12 ∧ (julianDate day).day < 100 := by
  generalize hyear : 4 * (day + 719530) / 1461 = year
  have hstart : 0 ≤ day - julianDay year 1 1 ∧ day - julianDay year 1 1 ≤ 365 := by
    simp only [julianDay, daysBeforeMonthOf]
    norm_num
    omega
  generalize hleap : decide (year % 4 = 0) = leap
  generalize hmonth : Nat.findGreatest (fun m => daysBeforeMonthOf leap m ≤ day - julianDay year 1 1) 11 = month
  have hdate : julianDate day =
      ⟨year, month + 1, (day - julianDay year 1 1 - daysBeforeMonthOf leap month).toNat + 1⟩ := by
    simp only [julianDate, hyear, hleap, hmonth]
  have hle : month ≤ 11 := hmonth ▸ Nat.findGreatest_le 11
  have hfound : daysBeforeMonthOf leap month ≤ day - julianDay year 1 1 := by
    have hjanuary : daysBeforeMonthOf leap (0 : Nat) ≤ day - julianDay year 1 1 := by
      cases leap <;> exact hstart.1
    have h := @Nat.findGreatest_spec 0 (fun m => daysBeforeMonthOf leap m ≤ day - julianDay year 1 1) _ 11
      (Nat.zero_le _) hjanuary
    rwa [hmonth] at h
  have hshort : day - julianDay year 1 1 < daysBeforeMonthOf leap month + 99 := by
    rcases Nat.lt_or_eq_of_le hle with hlt | rfl
    · have hnext := @Nat.findGreatest_is_greatest (month + 1)
        (fun m => daysBeforeMonthOf leap m ≤ day - julianDay year 1 1) _ 11 (by omega) (by omega)
      have hlength := daysBeforeMonthOf_succ leap hlt
      push_cast at hnext
      omega
    · have hdecember : 334 ≤ daysBeforeMonthOf leap (11 : Nat) := by
        cases leap <;> decide
      omega
  have hdiv : ((month + 1 : Nat) - 1 : Int) / 12 = 0 := by omega
  have hmod : ((month + 1 : Nat) - 1 : Int) % 12 = month := by omega
  have hfirst : julianDay year 1 1 = 365 * year + (year + 3) / 4 + 1 - 719531 := by
    have hzero : daysBeforeMonthOf (decide (year % 4 = 0)) 0 = 0 := by
      rw [hleap]
      cases leap <;> rfl
    have hquotient : ((1 : Int) - 1) / 12 = 0 := rfl
    have hremainder : ((1 : Int) - 1) % 12 = 0 := rfl
    simp only [julianDay, hquotient, hremainder, Int.add_zero, hzero]
  have hdays (d : Int) : julianDay year (month + 1 : Nat) d =
      365 * year + (year + 3) / 4 + daysBeforeMonthOf leap month + d - 719531 := by
    simp only [julianDay, hdiv, hmod, Int.add_zero, hleap]
  rw [hdate]
  refine ⟨?_, Nat.le_add_left 1 month, Nat.succ_le_succ hle, by dsimp only; omega⟩
  change julianDay year (month + 1 : Nat) ((_ : Int).toNat + 1 : Nat) = day
  rw [hdays]
  omega

theorem gregorianDate_spec {day : Int} (h : gregorianCutover ≤ day) :
    gregorianDay (gregorianDate day).year (gregorianDate day).month (gregorianDate day).day = day ∧
      1 ≤ (gregorianDate day).month ∧ (gregorianDate day).month ≤ 12 ∧ (gregorianDate day).day < 100 := by
  have hcutover : gregorianCutover = -141427 := rfl
  have hepoch : epochDay = 719528 := rfl
  have hday := gregorianDay_fields (day + epochDay).toNat
  have hmonth := monthOfDay_range (day + epochDay).toNat
  have hshort := (monthOfDay_spec (day + epochDay).toNat).2
  refine ⟨?_, hmonth.1, hmonth.2, ?_⟩
  · change gregorianDay (yearOfDay _) (monthOfDay _) (dayOfMonth _) = day
    rw [hday]
    omega
  · change dayOfMonth _ < 100
    rw [dayOfMonth]
    omega

theorem dateOf_range (day : Int) : 1 ≤ (dateOf day).month ∧ (dateOf day).month ≤ 12 ∧ (dateOf day).day < 100 := by
  unfold dateOf
  split_ifs with h
  · exact (julianDate_spec day).2
  · exact (gregorianDate_spec (not_lt.mp h)).2

/-- The fields of a day give the day back. -/
theorem utcTime_dateOf (day : Int) {hour minute second : Nat} (hhour : hour < 24) (hminute : minute < 60)
    (hsecond : second < 60) :
    utcTime (dateOf day).year (dateOf day).month (dateOf day).day hour minute second 0 =
      day * 86400000 + ((hour * 60 + minute) * 60 + second) * 1000 := by
  have hcutover : gregorianCutover = -141427 := rfl
  have hcarried : ((((hour : Int) * 60 + minute) * 60 + second) * 1000 + 0) / 86400000 = 0 := by omega
  have hrest : ((((hour : Int) * 60 + minute) * 60 + second) * 1000 + 0) % 86400000 =
      ((hour * 60 + minute) * 60 + second) * 1000 := by omega
  have hutc (year month d : Int) : utcTime year month d hour minute second 0 =
      (if year < 1582 then julianDay year month d
        else if gregorianCutover ≤ gregorianDay year month d then gregorianDay year month d
        else julianDay year month d) * 86400000 + ((hour * 60 + minute) * 60 + second) * 1000 := by
    simp only [utcTime, hcarried, hrest, Int.zero_add]
  rw [hutc]
  congr 2
  unfold dateOf
  by_cases hold : day < gregorianCutover
  · obtain ⟨hday, hmonth⟩ := julianDate_spec day
    have hyear : (julianDate day).year ≤ 1582 := by
      change 4 * (day + 719530) / 1461 ≤ 1582
      omega
    rw [if_pos hold, hday]
    rcases Int.lt_or_eq_of_le hyear with hlt | heq
    · rw [if_pos hlt]
    · -- the last months in the old calendar
      have hold' : gregorianDay (julianDate day).year (julianDate day).month (julianDate day).day < gregorianCutover := by
        have hdiv : (((julianDate day).month : Int) - 1) / 12 = 0 := by omega
        have hshift : gregorianDay (julianDate day).year (julianDate day).month (julianDate day).day =
            julianDay (julianDate day).year (julianDate day).month (julianDate day).day - 10 := by
          rw [heq, gregorianDay, julianDay, hdiv]
          norm_num
          omega
        rw [hshift, hday]
        omega
      rw [if_neg (by omega), if_neg (not_le.mpr hold')]
  · obtain ⟨hday, hmonth⟩ := gregorianDate_spec (not_lt.mp hold)
    have hyear : ¬ (gregorianDate day).year < 1582 := by
      have hfirst : yearOfDay 578101 = 1582 := by decide
      have hmono := yearOfDay_mono (show 578101 ≤ (day + epochDay).toNat by rw [epochDay]; omega)
      rw [hfirst] at hmono
      change ¬ (yearOfDay _ : Int) < 1582
      omega
    rw [if_neg hold, if_neg hyear, hday, if_pos (not_lt.mp hold)]

/-- A date lies far from the same date of another year. -/
theorem utcTime_year_far {year year' : Int} (hlt : year < year') {month : Nat} (hmonth : 1 ≤ month ∧ month ≤ 12)
    (day hour minute second : Nat) : utcTime year month day hour minute second 0 + 300 * 86400000 ≤
      utcTime year' month day hour minute second 0 := by
  have hdiv : ((month : Int) - 1) / 12 = 0 := by omega
  have hleap (leap leap' : Bool) (m : Int) : daysBeforeMonthOf leap m ≤ daysBeforeMonthOf leap' m + 1 := by
    unfold daysBeforeMonthOf
    split_ifs <;> omega
  have hpositive (leap : Bool) : 0 ≤ daysBeforeMonthOf leap (((month : Int) - 1) % 12) := by
    have hall : ∀ leap : Bool, ∀ m : Fin 12, 0 ≤ daysBeforeMonthOf leap m.val := by decide
    have hmod : ((month : Int) - 1) % 12 = ((month - 1 : Nat) : Int) := by omega
    rw [hmod]
    exact hall leap ⟨month - 1, by omega⟩
  have hcarried : 0 ≤ ((((hour : Int) * 60 + minute) * 60 + second) * 1000 + 0) / 86400000 := by omega
  have hcutover : gregorianCutover = -141427 := rfl
  simp only [utcTime, gregorianDay, julianDay, hdiv, Int.add_zero]
  simp only [Int.add_zero] at hcarried
  generalize ((((hour : Int) * 60 + minute) * 60 + second) * 1000) / 86400000 = carried at hcarried ⊢
  generalize ((((hour : Int) * 60 + minute) * 60 + second) * 1000) % 86400000 = rest
  generalize ((month : Int) - 1) % 12 = m at hpositive ⊢
  generalize hold : daysBeforeMonthOf (decide (year % 4 = 0)) m = old
  generalize hnew : daysBeforeMonthOf (decide (year % 4 = 0 ∧ (year % 100 ≠ 0 ∨ year % 400 = 0))) m = new
  generalize hold' : daysBeforeMonthOf (decide (year' % 4 = 0)) m = old'
  generalize hnew' : daysBeforeMonthOf (decide (year' % 4 = 0 ∧ (year' % 100 ≠ 0 ∨ year' % 400 = 0))) m = new'
  have hbounds : old ≤ old' + 1 ∧ old ≤ new' + 1 ∧ new ≤ new' + 1 ∧ new ≤ old' + 1 := by
    rw [← hold, ← hnew, ← hold', ← hnew']
    exact ⟨hleap _ _ m, hleap _ _ m, hleap _ _ m, hleap _ _ m⟩
  have hnonneg : 0 ≤ new ∧ 0 ≤ new' := ⟨hnew ▸ hpositive _, hnew' ▸ hpositive _⟩
  split_ifs <;> omega

end dates

/-- A time zone: its offset from UTC at every second, in seconds, and the instant that Java takes
for a local time. Clocks that were set back show a local time twice, and the later instant is taken;
for a local time that they never show some offset of the zone is. -/
structure WallClock where
  offset : Int → Int
  instantOf : Int → Int
  offset_bound : ∀ second, -86400 < offset second ∧ offset second < 86400
  instantOf_offset : ∀ shown, ∃ second, instantOf shown = shown - 1000 * offset second
  instantOf_latest : ∀ time, IsGreatest {t | t + 1000 * offset (t / 1000) = time + 1000 * offset (time / 1000)}
    (instantOf (time + 1000 * offset (time / 1000)))

namespace WallClock

/-- A time zone whose clocks are never set. -/
def fixed (offset : Int) (h : -86400 < offset ∧ offset < 86400) : WallClock where
  offset _ := offset
  instantOf shown := shown - 1000 * offset
  offset_bound _ := h
  instantOf_offset _ := ⟨0, rfl⟩
  instantOf_latest time := by
    refine ⟨?_, fun t ht => ?_⟩
    · simp
    · change t + 1000 * offset = time + 1000 * offset at ht
      omega

variable (clock : WallClock)

/-- What the clock shows at an instant, as if it were one in UTC. -/
def wallTime (time : Int) : Int := time + 1000 * clock.offset (time / 1000)

def localDay (time : Int) : Int := clock.wallTime time / 86400000

def secondOfDay (time : Int) : Nat := (clock.wallTime time % 86400000 / 1000).toNat

theorem wallTime_wholeSecond (time : Int) :
    clock.wallTime (time / 1000 * 1000) = clock.localDay time * 86400000 + clock.secondOfDay time * 1000 := by
  have hsecond : time / 1000 * 1000 / 1000 = time / 1000 := by omega
  unfold localDay secondOfDay wallTime
  rw [hsecond]
  omega

theorem secondOfDay_lt (time : Int) : clock.secondOfDay time < 86400 := by
  unfold secondOfDay
  omega

/-- A local time names an instant that is the last one to show it. -/
theorem instantOf_wallTime_iff {time : Int} : clock.instantOf (clock.wallTime time) = time ↔
    ∀ later, time < later → clock.wallTime later ≠ clock.wallTime time := by
  obtain ⟨hshown, hlatest⟩ := clock.instantOf_latest time
  constructor
  · intro h later hlater hsame
    have hle : later ≤ clock.instantOf (clock.wallTime time) := hlatest hsame
    omega
  · intro h
    have hle : time ≤ clock.instantOf (clock.wallTime time) := hlatest rfl
    rcases Int.lt_or_eq_of_le hle with hlt | heq
    · exact absurd hshown (h _ hlt)
    · exact heq.symm

/-- Offsets are shorter than a day. -/
theorem near_of_instantOf_eq {shown time : Int} (h : clock.instantOf shown = time) :
    shown - clock.wallTime time < 2 * 86400000 ∧ clock.wallTime time - shown < 2 * 86400000 := by
  obtain ⟨second, hsecond⟩ := clock.instantOf_offset shown
  have hoffset := clock.offset_bound second
  have hoffset' := clock.offset_bound (time / 1000)
  unfold wallTime
  omega

end WallClock
end Srvlog.Library
