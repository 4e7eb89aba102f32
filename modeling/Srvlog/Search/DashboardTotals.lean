import Srvlog.Search.LogStatistics
import Srvlog.Util.DateRange

/-! The totals of the two statistics of the dashboard. -/
namespace Srvlog.Search
open Library Data Util

section totals
variable {client : SphinxGroupClient} {index : SphinxIndex}

/-- Both statistics of a range add up to the logs in it. -/
def TotalsAgree (client : SphinxGroupClient) (index : SphinxIndex) (zone : TimeZone) (range : DateRange) : Prop :=
  ∃ byDate bySeverity, numberOfLogsByDate client zone (some range.fromDate) (some range.toDate) = .ok byDate ∧
    numberOfLogsBySeverity client (some range.fromDate) (some range.toDate) = .ok bySeverity ∧
    sumOfValues byDate = sumOfValues bySeverity ∧
    sumOfValues bySeverity = (index.kept (unixRange range.fromDate range.toDate)).length

theorem Answers.totalsAgree_iff (h : Answers client index) (hknown : ∀ doc ∈ index.docs, doc.Known) (zone : TimeZone)
    {range : DateRange} (hle : range.fromDate ≤ range.toDate) :
    TotalsAgree client index zone range ↔ (index.days (unixRange range.fromDate range.toDate)).length ≤ 31 := by
  obtain ⟨byDate, hbyDate, hdays⟩ := @dayCounts_eq index (unixRange range.fromDate range.toDate) zone 31
  obtain ⟨bySeverity, hbySeverity, -, htotal⟩ := @severityCounts_known index (unixRange range.fromDate range.toDate)
    fun doc hdoc => hknown doc (mem_docs_of_mem_kept hdoc)
  rw [← h.numberOfLogsByDate_eq zone hle] at hbyDate
  rw [← h.numberOfLogsBySeverity_eq hle] at hbySeverity
  have hsum := sum_take_groupCounts_iff
    ((index.kept (unixRange range.fromDate range.toDate)).map (index.group · .logDay)) 31
  rw [List.length_map] at hsum
  rw [SphinxIndex.days, ← hsum]
  constructor
  · rintro ⟨byDate', bySeverity', hbyDate', hbySeverity', hagree, -⟩
    rw [hbyDate] at hbyDate'
    rw [hbySeverity] at hbySeverity'
    obtain rfl := Except.ok.inj hbyDate'
    obtain rfl := Except.ok.inj hbySeverity'
    rw [hdays, htotal] at hagree
    exact Int.ofNat_inj.mp hagree
  · intro hall
    refine ⟨byDate, bySeverity, hbyDate, hbySeverity, ?_, htotal⟩
    rw [hdays, htotal]
    exact Int.ofNat_inj.mpr hall

end totals

section ranges
variable {client : SphinxGroupClient} {index : SphinxIndex} {zone : TimeZone} {range : DateRange}

/-- The ranges that the dashboard offers. -/
def dashboardRanges (zone : TimeZone) (firstDayOfWeek now : Int) : List DateRange :=
  [.thisWeek zone firstDayOfWeek now, .lastWeek zone firstDayOfWeek now, .thisMonth zone now, .lastMonth zone now]

theorem covers_dashboardRanges {firstDayOfWeek now : Int} (h : range ∈ dashboardRanges zone firstDayOfWeek now) :
    ∃ day length, length ≤ 31 ∧ range.Covers zone day length := by
  simp only [dashboardRanges, List.mem_cons, List.not_mem_nil, or_false] at h
  rcases h with rfl | rfl | rfl | rfl
  · obtain ⟨day, hcovers⟩ := DateRange.covers_thisWeek zone firstDayOfWeek now
    exact ⟨day, 7, by decide, hcovers⟩
  · obtain ⟨day, hcovers⟩ := DateRange.covers_lastWeek zone firstDayOfWeek now
    exact ⟨day, 7, by decide, hcovers⟩
  · exact DateRange.covers_thisMonth zone now
  · exact DateRange.covers_lastMonth zone now

/-- The daemon and the pages have the same days. -/
def SameCalendar (zone : TimeZone) (index : SphinxIndex) : Prop :=
  ∀ doc ∈ index.docs, (index.dayOf doc.logDate.toNat : Int) = zone.dayOf (1000 * doc.logDate.toNat) + epochDay

/-- A log of a range lies on one of its days or at its very end. -/
theorem dayOf_kept {day : Int} {length : Nat} (hcovers : range.Covers zone day length) {doc : IndexedLog}
    (h : doc ∈ index.kept (unixRange range.fromDate range.toDate)) :
    ∃ i ≤ length, zone.dayOf (1000 * doc.logDate.toNat) = day + (i : Nat) := by
  obtain ⟨hlow, hhigh⟩ := of_decide_eq_true (List.mem_filter.mp h).2
  obtain ⟨hfrom, hto⟩ := hcovers.whole_second
  have hstart : 1000 * toUnixTime range.fromDate = range.fromDate := Int.mul_tdiv_cancel' hfrom
  have hend : 1000 * toUnixTime range.toDate = range.toDate := Int.mul_tdiv_cancel' hto
  unfold unixRange at hlow hhigh
  have hfirst : day ≤ zone.dayOf (1000 * doc.logDate.toNat) := by
    rw [zone.le_dayOf_iff, ← hcovers.1]
    omega
  have hlast : ¬ day + length + 1 ≤ zone.dayOf (1000 * doc.logDate.toNat) := by
    have hnext := zone.startOfDay_lt (day + length)
    rw [zone.le_dayOf_iff, ← hcovers.2] at *
    omega
  exact ⟨(zone.dayOf (1000 * doc.logDate.toNat) - day).toNat, by omega, by omega⟩

theorem group_logDay (hcalendar : SameCalendar zone index) {doc : IndexedLog} (hdoc : doc ∈ index.docs) :
    index.group doc .logDay = yearMonthDay (zone.dayOf (1000 * doc.logDate.toNat) + epochDay).toNat := by
  rw [SphinxIndex.group, ← hcalendar doc hdoc, Int.toNat_natCast]

/-- The groups are counted by days of the range. -/
theorem length_days_le (hcalendar : SameCalendar zone index) {day : Int} {numbers : List Nat}
    (h : ∀ doc ∈ index.kept (unixRange range.fromDate range.toDate),
      ∃ i ∈ numbers, zone.dayOf (1000 * doc.logDate.toNat) = day + (i : Nat)) :
    (index.days (unixRange range.fromDate range.toDate)).length ≤ numbers.length := by
  have hsub : index.days (unixRange range.fromDate range.toDate) ⊆
      numbers.map fun i : Nat => yearMonthDay (day + i + epochDay).toNat := by
    intro group hgroup
    obtain ⟨doc, hdoc, rfl⟩ := List.mem_map.mp (List.mem_dedup.mp hgroup)
    obtain ⟨i, hi, hday⟩ := h doc hdoc
    refine List.mem_map.mpr ⟨i, hi, ?_⟩
    rw [group_logDay hcalendar (mem_docs_of_mem_kept hdoc), hday]
  have hlength := (List.subperm_of_subset (List.nodup_dedup _) hsub).length_le
  rwa [List.length_map] at hlength

/-- There is a group for every day of the range, and one for its end, unless one of them has no logs. -/
theorem length_days_le_iff (hcalendar : SameCalendar zone index) {day : Int} {length : Nat}
    (hcovers : range.Covers zone day length) :
    (index.days (unixRange range.fromDate range.toDate)).length ≤ length ↔
      ∃ i ≤ length, ∀ doc ∈ index.kept (unixRange range.fromDate range.toDate),
        zone.dayOf (1000 * doc.logDate.toNat) ≠ day + (i : Nat) := by
  constructor
  · intro hle
    by_contra hfull
    push Not at hfull
    have hsub : ∀ i ∈ List.range (length + 1), yearMonthDay (day + (i : Nat) + epochDay).toNat ∈
        index.days (unixRange range.fromDate range.toDate) := by
      intro i hi
      obtain ⟨doc, hdoc, hday⟩ := hfull i (Nat.le_of_lt_succ (List.mem_range.mp hi))
      rw [SphinxIndex.days, List.mem_dedup, ← hday, ← group_logDay hcalendar (mem_docs_of_mem_kept hdoc)]
      exact List.mem_map_of_mem hdoc
    have hnonneg : 0 ≤ day + epochDay := by
      obtain ⟨doc, hdoc, hday⟩ := hfull 0 (Nat.zero_le _)
      have hcount := hcalendar doc (mem_docs_of_mem_kept hdoc)
      omega
    have hnodup : ((List.range (length + 1)).map fun i : Nat => yearMonthDay (day + i + epochDay).toNat).Nodup := by
      refine List.nodup_range.map fun i j hij => ?_
      have hsame := yearMonthDay_injective hij
      omega
    have hall := (List.subperm_of_subset hnodup fun group hgroup => by
      obtain ⟨i, hi, rfl⟩ := List.mem_map.mp hgroup
      exact hsub i hi).length_le
    rw [List.length_map, List.length_range] at hall
    omega
  · rintro ⟨i, hi, hmissing⟩
    have hle := @length_days_le index zone range hcalendar day ((List.range (length + 1)).erase i) fun doc hdoc => by
      obtain ⟨j, hj, hday⟩ := dayOf_kept hcovers hdoc
      have hne : j ≠ i := by
        rintro rfl
        exact hmissing doc hdoc hday
      exact ⟨j, (List.mem_erase_of_ne hne).mpr (List.mem_range.mpr (by omega)), hday⟩
    rwa [List.length_erase_of_mem (List.mem_range.mpr (by omega)), List.length_range] at hle

/-- Ranges of at most 30 days always agree. -/
theorem Answers.totalsAgree_of_length (h : Answers client index) (hknown : ∀ doc ∈ index.docs, doc.Known)
    (hcalendar : SameCalendar zone index) {day : Int} {length : Nat} (hcovers : range.Covers zone day length)
    (hlength : length ≤ 30) : TotalsAgree client index zone range := by
  have hle := @length_days_le index zone range hcalendar day (List.range (length + 1)) fun doc hdoc => by
    obtain ⟨i, hi, hday⟩ := dayOf_kept hcovers hdoc
    exact ⟨i, List.mem_range.mpr (by omega), hday⟩
  rw [List.length_range] at hle
  exact (h.totalsAgree_iff hknown zone hcovers.le).mpr (by omega)

/-- A month of 31 days agrees unless there are logs on all of its days and at its very end. -/
theorem Answers.totalsAgree_of_longMonth (h : Answers client index) (hknown : ∀ doc ∈ index.docs, doc.Known)
    (hcalendar : SameCalendar zone index) {day : Int} (hcovers : range.Covers zone day 31) :
    TotalsAgree client index zone range ↔ ∃ i ≤ 31, ∀ doc ∈ index.kept (unixRange range.fromDate range.toDate),
      zone.dayOf (1000 * doc.logDate.toNat) ≠ day + (i : Nat) :=
  (h.totalsAgree_iff hknown zone hcovers.le).trans (length_days_le_iff hcalendar hcovers)

/-- The totals agree unless the logs of the range fall on more than 31 days. -/
theorem dashboard_totals_agree_iff (h : Answers client index) (hknown : ∀ doc ∈ index.docs, doc.Known)
    (zone : TimeZone) (firstDayOfWeek now : Int) {range : DateRange}
    (hrange : range ∈ dashboardRanges zone firstDayOfWeek now) : TotalsAgree client index zone range ↔
      (index.days (unixRange range.fromDate range.toDate)).length ≤ 31 := by
  obtain ⟨day, length, -, hcovers⟩ := covers_dashboardRanges hrange
  exact h.totalsAgree_iff hknown zone hcovers.le

def january : List UInt32 := (List.range 32).map fun i => UInt32.ofNat (86400 * i)

/-- A log at the start of each of 31 days and one at the end of the last: the oldest day is cut off. -/
theorem full_month_disagrees :
    Answers (utcIndex january (by decide)).daemon (utcIndex january (by decide)) ∧
      (∀ doc ∈ (utcIndex january (by decide)).docs, doc.Known) ∧
      DateRange.lastMonth (.fixed 0) 2700000000 ∈ dashboardRanges (.fixed 0) 1 2700000000 ∧
      ¬ TotalsAgree (utcIndex january (by decide)).daemon (utcIndex january (by decide)) (.fixed 0)
        (.lastMonth (.fixed 0) 2700000000) := by
  have hanswers := (utcIndex january (by decide)).daemon_answers
  have hknown : ∀ doc ∈ (utcIndex january (by decide)).docs, doc.Known := by decide
  refine ⟨hanswers, hknown, by simp [dashboardRanges], fun hagree => ?_⟩
  rw [hanswers.totalsAgree_iff hknown (.fixed 0) (by decide)] at hagree
  revert hagree
  decide

/-- Two logs in a week. -/
theorem quiet_week_agrees :
    TotalsAgree (utcIndex [1, 86400] (by decide)).daemon (utcIndex [1, 86400] (by decide)) (.fixed 0)
      (.thisWeek (.fixed 0) 1 0) :=
  (dashboard_totals_agree_iff (utcIndex [1, 86400] (by decide)).daemon_answers (by decide) (.fixed 0) 1 0
    List.mem_cons_self).mpr (by decide)

end ranges
end Srvlog.Search
