import Srvlog.Util.DateRange
import Srvlog.Library.CalendarMonths

/-! The ranges of this and the last day, week and month around the present, in a time
zone without offset changes. -/
namespace Srvlog.Util.DateRange
open Library

section ranges
variable (zone : TimeZone) (firstDayOfWeek now : Int)

def Midnight (time : Int) : Prop := ∃ day, time = zone.startOfDay day

/-- Both ranges have midnights for ends and follow each other, the later one around the present. -/
structure AroundNow (this last : DateRange) : Prop where
  thisFrom : Midnight zone this.fromDate
  thisTo : Midnight zone this.toDate
  lastFrom : Midnight zone last.fromDate
  lastTo : Midnight zone last.toDate
  adjacent : last.toDate = this.fromDate
  from_le : this.fromDate ≤ now
  lt_to : now < this.toDate

/-- The range starts on a Monday and is seven days long. -/
def IsWeek (range : DateRange) : Prop :=
  (∃ day, range.fromDate = zone.startOfDay day ∧ dayOfWeek day = 2) ∧ range.toDate = range.fromDate + 7 * 86400000

/-- The range starts on the first day of a month. -/
def StartsMonth (range : DateRange) (year : Int) (month : Nat) : Prop :=
  ∃ day, range.fromDate = zone.startOfDay day ∧ dateOf day = ⟨year, month, 1⟩

structure CalendarRanges : Prop where
  day : AroundNow zone now (today zone now) (yesterday zone now)
  today_length : (today zone now).toDate = (today zone now).fromDate + 86400000
  yesterday_length : (yesterday zone now).toDate = (yesterday zone now).fromDate + 86400000
  week : AroundNow zone now (thisWeek zone firstDayOfWeek now) (lastWeek zone firstDayOfWeek now)
  thisWeek_isWeek : IsWeek zone (thisWeek zone firstDayOfWeek now)
  lastWeek_isWeek : IsWeek zone (lastWeek zone firstDayOfWeek now)
  month : AroundNow zone now (thisMonth zone now) (lastMonth zone now)
  months : ∃ year month lastYear lastMonthOfYear, StartsMonth zone (thisMonth zone now) year month ∧
    StartsMonth zone (lastMonth zone now) lastYear lastMonthOfYear ∧
    12 * year + month = 12 * lastYear + lastMonthOfYear + 1

end ranges

section week
variable (firstDayOfWeek day : Int)

/-- In the week of the calendar a day does not come before Monday. -/
def MondayHasCome : Prop := (2 - firstDayOfWeek) % 7 ≤ (dayOfWeek day - firstDayOfWeek) % 7

instance : Decidable (MondayHasCome firstDayOfWeek day) := inferInstanceAs (Decidable (_ ≤ _))

theorem dayOfWeek_mondayOfWeek : dayOfWeek (mondayOfWeek firstDayOfWeek day) = 2 := by
  unfold mondayOfWeek dayOfWeek
  omega

/-- The Monday of the calendar's week is always less than a week away. -/
theorem mondayOfWeek_le_iff : mondayOfWeek firstDayOfWeek day ≤ day ↔ MondayHasCome firstDayOfWeek day := by
  unfold mondayOfWeek MondayHasCome
  omega

theorem lt_mondayOfWeek_add : day < mondayOfWeek firstDayOfWeek day + 7 := by
  unfold mondayOfWeek
  omega

end week

section months

theorem startsMonth_firstOfMonth (zone : TimeZone) (month toDate : Int) :
    StartsMonth zone ⟨zone.startOfDay (firstOfMonth month), toDate⟩ (month / 12) ((month % 12).toNat + 1) := by
  refine ⟨_, rfl, ?_⟩
  have hdate := dateOf_firstOfMonth (month / 12) (show (month % 12).toNat < 12 by omega)
  have hmonth : 12 * (month / 12) + ((month % 12).toNat : Int) = month := by omega
  rwa [hmonth] at hdate

end months

section present
variable (zone : TimeZone) (firstDayOfWeek now : Int)

theorem around_today : AroundNow zone now (today zone now) (yesterday zone now) where
  thisFrom := ⟨_, rfl⟩
  thisTo := ⟨_, rfl⟩
  lastFrom := ⟨_, rfl⟩
  lastTo := ⟨_, rfl⟩
  adjacent := rfl
  from_le := (zone.dayOf_spec now).1
  lt_to := (zone.dayOf_spec now).2

theorem around_thisMonth : AroundNow zone now (thisMonth zone now) (lastMonth zone now) where
  thisFrom := ⟨_, rfl⟩
  thisTo := ⟨_, rfl⟩
  lastFrom := ⟨_, rfl⟩
  lastTo := ⟨_, rfl⟩
  adjacent := rfl
  from_le := zone.le_dayOf_iff.mp (firstOfMonth_calendarMonth (zone.dayOf now)).1
  lt_to := not_le.mp fun h => not_le.mpr (firstOfMonth_calendarMonth (zone.dayOf now)).2 (zone.le_dayOf_iff.mpr h)

/-- This week contains the present if and only if it does not start in the future. -/
theorem around_thisWeek_iff :
    AroundNow zone now (thisWeek zone firstDayOfWeek now) (lastWeek zone firstDayOfWeek now) ↔
      MondayHasCome firstDayOfWeek (zone.dayOf now) := by
  rw [← mondayOfWeek_le_iff, zone.le_dayOf_iff]
  constructor
  · exact fun h => h.from_le
  · intro hle
    refine ⟨⟨_, rfl⟩, ⟨_, rfl⟩, ⟨_, rfl⟩, ⟨_, rfl⟩, rfl, hle, not_le.mp fun h => ?_⟩
    exact not_le.mpr (lt_mondayOfWeek_add firstDayOfWeek (zone.dayOf now)) (zone.le_dayOf_iff.mpr h)

theorem months_follow : ∃ year month lastYear lastMonthOfYear, StartsMonth zone (thisMonth zone now) year month ∧
    StartsMonth zone (lastMonth zone now) lastYear lastMonthOfYear ∧
    12 * year + month = 12 * lastYear + lastMonthOfYear + 1 := by
  refine ⟨_, _, _, _, startsMonth_firstOfMonth zone (calendarMonth (zone.dayOf now)) _,
    startsMonth_firstOfMonth zone (calendarMonth (zone.dayOf now) - 1) _, ?_⟩
  omega

theorem fixed_add (offset day days : Int) :
    (TimeZone.fixed offset).startOfDay (day + days) = (TimeZone.fixed offset).startOfDay day + days * 86400000 := by
  change 86400000 * (day + days) - 1000 * offset = 86400000 * day - 1000 * offset + days * 86400000
  omega

theorem dayOfWeek_sub_seven (day : Int) : dayOfWeek (day - 7) = dayOfWeek day := by
  unfold dayOfWeek
  omega

/-- The ranges are what their names say, except that this week is in the future on the days
that come before Monday in the week of the calendar. -/
theorem calendarRanges_iff (offset firstDayOfWeek now : Int) :
    CalendarRanges (.fixed offset) firstDayOfWeek now ↔
      MondayHasCome firstDayOfWeek ((TimeZone.fixed offset).dayOf now) := by
  have hmonday := dayOfWeek_mondayOfWeek firstDayOfWeek ((TimeZone.fixed offset).dayOf now)
  rw [← around_thisWeek_iff]
  constructor
  · exact fun h => h.week
  · intro hweek
    refine ⟨around_today _ now, fixed_add offset _ 1, ?_, hweek, ⟨⟨_, rfl, hmonday⟩, fixed_add offset _ 7⟩,
      ⟨⟨_, rfl, (dayOfWeek_sub_seven _).trans hmonday⟩, ?_⟩, around_thisMonth _ now, months_follow _ now⟩
    · have hday := fixed_add offset ((TimeZone.fixed offset).dayOf now - 1) 1
      rwa [Int.sub_add_cancel, Int.one_mul] at hday
    · have hday := fixed_add offset (mondayOfWeek firstDayOfWeek ((TimeZone.fixed offset).dayOf now) - 7) 7
      rwa [Int.sub_add_cancel] at hday

/-- Sunday the fourth of March 2018, in a calendar whose week begins on Sunday. -/
theorem sunday_not_in_thisWeek : ¬ CalendarRanges (.fixed 0) 1 (17594 * 86400000) :=
  fun h => absurd h.week.from_le (by decide)

end present
end Srvlog.Util.DateRange
