import Srvlog.Search.DashboardTotals
import Srvlog.Search.ListedLogs
import Srvlog.Web.LogMonitorPage

/-! The page with the numbers of logs by severity, and the logs that are listed behind a number. -/
namespace Srvlog.Web
open Library Data Database Search Util

/-- The range that the page counts, and the button that is active. -/
structure FilterDate where
  dateRange : DateRange
  dateRangeType : DateRangeType

namespace DashboardPage

/-- The page opens with the month. -/
def opened (zone : TimeZone) (now : Int) : FilterDate := ⟨.thisMonth zone now, .THIS_MONTH⟩

def buttons : List DateRangeType := [.THIS_WEEK, .LAST_WEEK, .THIS_MONTH, .LAST_MONTH]

/-- A click on a button, at one moment. -/
def step (zone : TimeZone) (firstDayOfWeek : Int) (_ : FilterDate) (click : DateRangeType × Int) : Option FilterDate :=
  if click.1 ∈ buttons then
    (dateRangeOf zone firstDayOfWeek click.2 click.1).map fun dateRange => ⟨dateRange, click.1⟩
  else none

/-- The link of a number to the page that lists logs. -/
def severityLink (s : FilterDate) (level : LogLevel) : PageParameters :=
  ⟨some level.name, some s.dateRangeType.name, none, none⟩

section links
variable {zone : TimeZone} {firstDayOfWeek now : Int}

theorem button_of_run {s : FilterDate} {clicks : List (DateRangeType × Int)}
    (h : Run (step zone firstDayOfWeek) (opened zone now) clicks s) : s.dateRangeType ∈ buttons := by
  refine h.invariant (I := fun s => s.dateRangeType ∈ buttons) (fun s click t _ hclick => ?_)
    (by simp [opened, buttons])
  unfold step at hclick
  split at hclick
  · next hbutton =>
    obtain ⟨dateRange, -, rfl⟩ := Option.map_eq_some_iff.mp hclick
    exact hbutton
  · cases hclick

theorem mem_dashboardRanges {type : DateRangeType} {range : DateRange} (htype : type ∈ buttons)
    (hrange : dateRangeOf zone firstDayOfWeek now type = some range) :
    range ∈ dashboardRanges zone firstDayOfWeek now := by
  simp only [buttons, List.mem_cons, List.not_mem_nil, or_false] at htype
  rcases htype with rfl | rfl | rfl | rfl
  all_goals
    obtain rfl := Option.some.inj hrange
    simp [dashboardRanges]

theorem getDateRange_setDateRangeType {m : DateRangeModel} {type : DateRangeType} {range : DateRange}
    (hrange : dateRangeOf zone firstDayOfWeek now type = some range) :
    (m.setDateRangeType zone firstDayOfWeek now type).getDateRange = (some range.fromDate, some range.toDate) := by
  cases type with
  | EXACTLY_DATE | EXACTLY_TIME => cases hrange
  | TODAY | YESTERDAY | THIS_WEEK | LAST_WEEK | THIS_MONTH | LAST_MONTH =>
    obtain rfl := Option.some.inj hrange
    rfl

/-- What the linked page asks for. -/
theorem fillFilterModel_severityLink {s : FilterDate} {parse : Text → Option Int}
    (hrange : dateRangeOf zone firstDayOfWeek now s.dateRangeType = some s.dateRange) (level : LogLevel) :
    ∃ model, fillFilterModel zone firstDayOfWeek now parse (.new zone now) (severityLink s level) = some model ∧
      model.itemPrePage = 25 ∧ model.searchFilter =
        ⟨some s.dateRange.fromDate, some s.dateRange.toDate, none, some [level.value], none, none⟩ := by
  refine ⟨{ FilterModel.new zone now with
    severityIds := some [level.value]
    dateRangeModel := (DateRangeModel.new zone now).setDateRangeType zone firstDayOfWeek now s.dateRangeType }, ?_, rfl, ?_⟩
  · simp [fillFilterModel, severityLink, LogLevel.valueOf_name, DateRangeType.valueOf_name, FilterModel.setSeverities,
      FilterModel.new]
  · simp [FilterModel.searchFilter, FilterModel.new, getDateRange_setDateRangeType hrange]

end links

section counts
variable {c : Collation} {client : SphinxGroupClient} {index : SphinxIndex}

/-- The logs that a number counts. -/
def ofSeverity (index : SphinxIndex) (range : Int × Int) (level : LogLevel) : List IndexedLog :=
  (index.kept range).filter fun doc => decide ((doc.severity.toNat : Int) = level.value)

/-- The daemon also answers a search for one severity, a slice at a time. -/
structure AnswersPages (client : SphinxGroupClient) (index : SphinxIndex) : Prop where
  filters : ∀ values, values ≠ [] → client.setFilter values = true
  pages : ∀ range (level : LogLevel), (ofSeverity index range level).length ≤ 1000 →
    ∃ ids : List Nat, ids.Perm ((ofSeverity index range level).map (·.docId)) ∧ ∀ offset limit, 0 ≤ offset → 0 < limit →
      client.query ⟨some range, [], [], [level.value], offset, limit, []⟩ =
        some ⟨some ((ids.drop offset.toNat).take limit.toNat), []⟩

theorem ofSeverity_sublist (range : Int × Int) (level : LogLevel) : (ofSeverity index range level).Sublist index.docs :=
  List.filter_sublist.trans List.filter_sublist

/-- The slices that the linked page asks for. -/
theorem slices_of_severity (hanswers : Answers client index) (hpages : AnswersPages client index)
    (hkeys : ∀ doc ∈ index.docs, doc.docId < 2 ^ 32) {range : DateRange} (hle : range.fromDate ≤ range.toDate)
    (level : LogLevel) (hsize : (ofSeverity index (unixRange range.fromDate range.toDate) level).length ≤ 1000) :
    ∃ ids : List Nat, ids.Perm ((ofSeverity index (unixRange range.fromDate range.toDate) level).map (·.docId)) ∧
      Slices client.toSphinxClient ⟨some range.fromDate, some range.toDate, none, some [level.value], none, none⟩ ids := by
  obtain ⟨ids, hids, hslices⟩ := hpages.pages _ level hsize
  have hsub := @ofSeverity_sublist index (unixRange range.fromDate range.toDate) level
  refine ⟨ids, hids, ?_, ?_, fun id hid => ?_, ⟨_, _, rfl, rfl, ?_⟩, hpages.filters, hanswers.limits, hslices⟩
  · rw [hids.length_eq, List.length_map]
    exact hsize
  · exact hids.nodup_iff.mpr (index.nodup.sublist (hsub.map _))
  · obtain ⟨doc, hdoc, rfl⟩ := List.mem_map.mp (hids.mem_iff.mp hid)
    exact hkeys doc (hsub.subset hdoc)
  · rw [hanswers.range]
    exact decide_eq_true (Int.tdiv_le_tdiv (by decide) hle)

/-- In the period that the numbers were counted for, as many logs are listed behind the number of
a severity as it says exactly when the tables still have all the logs that it counts. -/
theorem severity_count_listed_iff {zone : TimeZone} {firstDayOfWeek openedAt : Int} {s : FilterDate}
    {clicks : List (DateRangeType × Int)} (h : Run (step zone firstDayOfWeek) (opened zone openedAt) clicks s)
    (hanswers : Answers client index) (hpages : AnswersPages client index)
    (hknown : ∀ doc ∈ index.kept (unixRange s.dateRange.fromDate s.dateRange.toDate), doc.Known)
    (hkeys : ∀ doc ∈ index.docs, doc.docId < 2 ^ 32) {now : Int}
    (hperiod : dateRangeOf zone firstDayOfWeek now s.dateRangeType = some s.dateRange) (level : LogLevel)
    (hsize : (ofSeverity index (unixRange s.dateRange.fromDate s.dateRange.toDate) level).length ≤ 1000)
    (engine : Nat → Sorter logDateDesc) (store : Store c) (parse : Text → Option Int) :
    ∃ numbers number model pages,
      numberOfLogsBySeverity client (some s.dateRange.fromDate) (some s.dateRange.toDate) = .ok numbers ∧
      numbers.lookup level = some ((number : Nat) : Int) ∧
      fillFilterModel zone firstDayOfWeek now parse (.new zone now) (severityLink s level) = some model ∧
      UncountablyPageableListView.walk (fun request => load client.toSphinxClient (engine request) store model.searchFilter)
        (number + 1) 0 (.new model.itemPrePage) = some pages ∧
      (pages.flatten.length = number ↔
        ∀ doc ∈ ofSeverity index (unixRange s.dateRange.fromDate s.dateRange.toDate) level,
          hasRow store doc.docId = true) := by
  have hbutton := mem_dashboardRanges (button_of_run h) hperiod
  obtain ⟨day, length, -, hcovers⟩ := covers_dashboardRanges hbutton
  have hle := hcovers.le
  obtain ⟨numbers, hnumbers, hlookup, -⟩ := severityCounts_known hknown
  obtain ⟨model, hmodel, hitems, hfilter⟩ := fillFilterModel_severityLink hperiod level
  obtain ⟨ids, hids, hslices⟩ := slices_of_severity hanswers hpages hkeys hle level hsize
  have hnumber : ids.length = index.countOf (unixRange s.dateRange.fromDate s.dateRange.toDate) level := by
    rw [hids.length_eq, List.length_map, SphinxIndex.countOf, List.countP_eq_length_filter]
    rfl
  rw [← hfilter] at hslices
  obtain ⟨pages, hwalk, hlisted⟩ := @Slices.listed_iff c _ store _ ids 25 hslices engine (by decide) (by decide)
  refine ⟨numbers, ids.length, model, pages, ?_, ?_, hmodel, ?_, hlisted.trans ?_⟩
  · rw [hanswers.numberOfLogsBySeverity_eq hle]
    exact hnumbers
  · rw [hlookup, hnumber]
  · rw [hitems]
    exact hwalk
  · rw [← List.forall_mem_map (f := IndexedLog.docId) (P := fun id => hasRow store id = true)]
    exact forall_congr' fun id => imp_congr_left hids.mem_iff

end counts

section sample

def severityDocs (index : SphinxIndex) (range : Int × Int) (severity : List Int) : List IndexedLog :=
  ((index.kept range).filter fun doc => decide (severity = []) || decide ((doc.severity.toNat : Int) ∈ severity)).insertionSort
    fun a b => b.logDate.toNat ≤ a.logDate.toNat

/-- A daemon that also filters by severity, the newest logs first. -/
def severityDaemon (index : SphinxIndex) : SphinxGroupClient :=
  { index.daemon with query := fun q => q.logDate.map fun range =>
      ⟨some ((((severityDocs index range q.severity).map (·.docId)).drop q.offset.toNat).take q.limit.toNat), []⟩ }

theorem severityDocs_perm (index : SphinxIndex) (range : Int × Int) (level : LogLevel) :
    (severityDocs index range []).Perm (index.kept range) ∧
      (severityDocs index range [level.value]).Perm (ofSeverity index range level) := by
  refine ⟨(List.perm_insertionSort _ _).trans ?_, (List.perm_insertionSort _ _).trans ?_⟩
  · simp
  · simp [ofSeverity]

theorem answers_severityDaemon (index : SphinxIndex) : Answers (severityDaemon index) index where
  range _ _ := rfl
  limits _ _ := rfl
  group _ := rfl
  groups _ _ := rfl
  limitedGroups _ _ _ _ := rfl
  search range limit _ hkept := by
    have hperm := (severityDocs_perm index range .info).1.map (·.docId)
    refine ⟨_, rfl, ?_⟩
    rw [Int.toNat_zero, List.drop_zero, Int.toNat_natCast, List.take_of_length_le]
    · exact hperm
    · rw [hperm.length_eq, List.length_map]
      exact hkept

theorem answersPages_severityDaemon (index : SphinxIndex) : AnswersPages (severityDaemon index) index where
  filters _ _ := rfl
  pages range level _ :=
    ⟨_, (severityDocs_perm index range level).2.map (·.docId), fun _ _ _ _ => rfl⟩

theorem droppedDates_nodup : ([3600, 7200] : List UInt32).Nodup := by decide

/-- Two logs of 1 January 1970, the rows of which are gone. -/
def droppedLogs : SphinxIndex := utcIndex [3600, 7200] droppedDates_nodup

theorem dropped_logs_not_listed : ∃ numbers number model pages,
    numberOfLogsBySeverity (severityDaemon droppedLogs) (some (DateRange.thisMonth (.fixed 0) 0).fromDate)
      (some (DateRange.thisMonth (.fixed 0) 0).toDate) = .ok numbers ∧
    numbers.lookup .info = some ((number : Nat) : Int) ∧
    fillFilterModel (.fixed 0) 2 0 (fun _ => none) (.new (.fixed 0) 0) (severityLink (opened (.fixed 0) 0) .info) = some model ∧
    UncountablyPageableListView.walk (fun _ => load (severityDaemon droppedLogs).toSphinxClient
      (Sorter.insertion logDateDesc) (Store.empty : Store Collation.binary) model.searchFilter)
        (number + 1) 0 (.new model.itemPrePage) = some pages ∧
    (pages.flatten.length = number ↔ ∀ doc ∈ ofSeverity droppedLogs
      (unixRange (DateRange.thisMonth (.fixed 0) 0).fromDate (DateRange.thisMonth (.fixed 0) 0).toDate) .info,
        hasRow (Store.empty : Store Collation.binary) doc.docId = true) :=
  severity_count_listed_iff (.nil (opened (.fixed 0) 0)) (answers_severityDaemon droppedLogs)
    (answersPages_severityDaemon droppedLogs) (by decide) (by decide) rfl .info (by decide) _ _ _

end sample
end DashboardPage
end Srvlog.Web
