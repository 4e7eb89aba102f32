import Srvlog.Library.LocalCalendar

/-! The date ranges that the pages offer, from the clock of one moment. -/
namespace Srvlog.Util
open Library

/-- Both ends count milliseconds from the epoch. -/
structure DateRange where
  fromDate : Int
  toDate : Int
  deriving DecidableEq

namespace DateRange
variable (zone : TimeZone) (firstDayOfWeek now : Int)

def today : DateRange := ⟨zone.startOfDay (zone.dayOf now), zone.startOfDay (zone.dayOf now + 1)⟩

def yesterday : DateRange := ⟨zone.startOfDay (zone.dayOf now - 1), zone.startOfDay (zone.dayOf now)⟩

def thisWeek : DateRange :=
  let monday := mondayOfWeek firstDayOfWeek (zone.dayOf now)
  ⟨zone.startOfDay monday, zone.startOfDay (monday + 7)⟩

def lastWeek : DateRange :=
  let monday := mondayOfWeek firstDayOfWeek (zone.dayOf now)
  ⟨zone.startOfDay (monday - 7), zone.startOfDay monday⟩

def thisMonth : DateRange :=
  let month := calendarMonth (zone.dayOf now)
  ⟨zone.startOfDay (firstOfMonth month), zone.startOfDay (firstOfMonth (month + 1))⟩

def lastMonth : DateRange :=
  let month := calendarMonth (zone.dayOf now)
  ⟨zone.startOfDay (firstOfMonth (month - 1)), zone.startOfDay (firstOfMonth month)⟩

/-- The days of a range. -/
def Covers (range : DateRange) (day : Int) (length : Nat) : Prop :=
  range.fromDate = zone.startOfDay day ∧ range.toDate = zone.startOfDay (day + length)

theorem covers_today : (today zone now).Covers zone (zone.dayOf now) 1 := ⟨rfl, rfl⟩

theorem covers_yesterday : (yesterday zone now).Covers zone (zone.dayOf now - 1) 1 :=
  ⟨rfl, congrArg zone.startOfDay (Int.sub_add_cancel _ _).symm⟩

theorem covers_thisWeek : ∃ day, (thisWeek zone firstDayOfWeek now).Covers zone day 7 := ⟨_, rfl, rfl⟩

theorem covers_lastWeek : ∃ day, (lastWeek zone firstDayOfWeek now).Covers zone day 7 :=
  ⟨_, rfl, congrArg zone.startOfDay (Int.sub_add_cancel _ _).symm⟩

theorem covers_month (month : Int) : ∃ length, length ≤ 31 ∧
    Covers zone ⟨zone.startOfDay (firstOfMonth month), zone.startOfDay (firstOfMonth (month + 1))⟩
      (firstOfMonth month) length := by
  obtain ⟨hlt, hle⟩ := firstOfMonth_succ month
  refine ⟨(firstOfMonth (month + 1) - firstOfMonth month).toNat, by omega, rfl, ?_⟩
  apply congrArg zone.startOfDay
  omega

theorem covers_thisMonth : ∃ day length, length ≤ 31 ∧ (thisMonth zone now).Covers zone day length :=
  ⟨_, covers_month zone _⟩

theorem covers_lastMonth : ∃ day length, length ≤ 31 ∧ (lastMonth zone now).Covers zone day length := by
  have hcovers := covers_month zone (calendarMonth (zone.dayOf now) - 1)
  rw [Int.sub_add_cancel] at hcovers
  exact ⟨_, hcovers⟩

theorem Covers.le {zone : TimeZone} {range : DateRange} {day : Int} {length : Nat} (h : range.Covers zone day length) :
    range.fromDate ≤ range.toDate := by
  rw [h.1, h.2]
  apply zone.startOfDay_strictMono.monotone
  omega

theorem Covers.whole_second {zone : TimeZone} {range : DateRange} {day : Int} {length : Nat}
    (h : range.Covers zone day length) : 1000 ∣ range.fromDate ∧ 1000 ∣ range.toDate := by
  rw [h.1, h.2]
  exact ⟨zone.whole_second _, zone.whole_second _⟩

end DateRange
end Srvlog.Util
