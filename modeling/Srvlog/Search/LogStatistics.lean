import Srvlog.Data.LogLevel
import Srvlog.Library.Grouping
import Srvlog.Library.LocalCalendar
import Srvlog.Search.LogSearch
import Mathlib.Algebra.BigOperators.Ring.Finset

/-! The statistics of the dashboard, which the index counts by groups. -/
namespace Srvlog.Search
open Library Data

section service

/-- `SetGroupBy` with the attribute severity, or with log_date by day. -/
inductive GroupBy where
  | severity
  | logDay
  deriving DecidableEq

/-- The limits are absent when they are not set. -/
structure GroupQuery where
  logDate : Option (Int × Int)
  limits : Option (Int × Int)
  groupBy : GroupBy

/-- The values of the attributes `@groupby` and `@count`, as far as the result has them. -/
structure SphinxMatch where
  groupBy : Option Int
  count : Option Int

structure GroupReply where
  rows : Option (List SphinxMatch)
  lastError : Text

structure SphinxGroupClient extends SphinxClient where
  setGroupBy : GroupBy → Bool
  groupQuery : GroupQuery → Option GroupReply

def matchedRows (reply : GroupReply) : Except SearchError (List SphinxMatch) :=
  let rows := reply.rows.getD []
  if rows.isEmpty ∧ reply.lastError ≠ [] then
    .error (.indexerService ("While sending query to Sphinx Daemon: ".toList ++ reply.lastError))
  else .ok rows

def queryGroups (client : SphinxGroupClient) (query : GroupQuery) : Except SearchError (List SphinxMatch) :=
  match client.groupQuery query with
  | some reply => matchedRows reply
  | none => .error (.indexerService "While sending query to Sphinx Daemon".toList)

/-- The map of a result, whose keys are made of the groups. -/
def putMatches {κ : Type} [DecidableEq κ] (groupKey : Int → Except SearchError (Option κ)) :
    List SphinxMatch → AList (fun _ : κ => Int) → Except SearchError (AList fun _ : κ => Int)
  | [], resultMap => .ok resultMap
  | sm :: rows, resultMap => do
    let key ← match sm.groupBy with
      | some group => groupKey group
      | none => .ok none
    match key, sm.count with
    | some key, some count => putMatches groupKey rows (resultMap.insert key count)
    | _, _ => .error (.indexerService "Cannot find group date or count value in the search result".toList)

def initTreeMapNumberOfLogsBySeverity : AList fun _ : LogLevel => Int :=
  insertRows (LogLevel.values.map fun level => (level, 0)) ∅

def severityKey (group : Int) : Except SearchError (Option LogLevel) := .ok (LogLevel.levelForValue (int32 group))

/-- The format `yyyyMMdd` reads eight digits as a day. -/
def dayKey (zone : TimeZone) (group : Int) : Except SearchError (Option Int) :=
  if 10000000 ≤ group ∧ group ≤ 99999999 then
    .ok (some (zone.startOfDay (gregorianDay (group / 10000) (group / 100 % 100) (group % 100))))
  else .error (.indexerService "While parsing group date".toList)

variable (client : SphinxGroupClient)

def numberOfLogsBySeverity (fromDate toDate : Option Int) : Except SearchError (AList fun _ : LogLevel => Int) := do
  let logDate ← setDate client.toSphinxClient fromDate toDate
  if client.setGroupBy .severity then
    let rows ← queryGroups client ⟨logDate, none, .severity⟩
    putMatches severityKey rows initTreeMapNumberOfLogsBySeverity
  else .error (.indexerService "While trying to set group by severity".toList)

/-- `numberOfLogsByDate` with an offset and a limit. -/
def numberOfLogsByDateWithin (zone : TimeZone) (fromDate toDate : Option Int) (offset limit : Int) :
    Except SearchError (AList fun _ : Int => Int) := do
  let logDate ← setDate client.toSphinxClient fromDate toDate
  setLimits client.toSphinxClient offset limit
  if client.setGroupBy .logDay then
    let rows ← queryGroups client ⟨logDate, some (offset, limit), .logDay⟩
    putMatches (dayKey zone) rows ∅
  else .error (.indexerService "While trying to set group by".toList)

def numberOfLogsByDate (zone : TimeZone) (fromDate toDate : Option Int) : Except SearchError (AList fun _ : Int => Int) :=
  numberOfLogsByDateWithin client zone fromDate toDate 0 31

end service

section index

/-- The attributes of an indexed log. Its date counts seconds. -/
structure IndexedLog where
  docId : Nat
  logDate : UInt32
  severity : UInt32
  deriving DecidableEq

structure SphinxIndex where
  docs : List IndexedLog
  nodup : (docs.map (·.docId)).Nodup
  -- the calendar of the daemon: days from the first one of year zero
  dayOf : Nat → Nat
  four_digits : ∀ doc ∈ docs, 1000 ≤ yearOfDay (dayOf doc.logDate.toNat) ∧ yearOfDay (dayOf doc.logDate.toNat) < 10000

/-- A filter range contains both of its ends. -/
def InRange (range : Int × Int) (doc : IndexedLog) : Prop := range.1 ≤ doc.logDate.toNat ∧ doc.logDate.toNat ≤ range.2

instance (range : Int × Int) (doc : IndexedLog) : Decidable (InRange range doc) :=
  inferInstanceAs (Decidable (range.1 ≤ doc.logDate.toNat ∧ doc.logDate.toNat ≤ range.2))

def SphinxIndex.kept (index : SphinxIndex) (range : Int × Int) : List IndexedLog := index.docs.filter (InRange range ·)

def SphinxIndex.group (index : SphinxIndex) (doc : IndexedLog) : GroupBy → Nat
  | .severity => doc.severity.toNat
  | .logDay => yearMonthDay (index.dayOf doc.logDate.toNat)

def SphinxIndex.groups (index : SphinxIndex) (range : Int × Int) (groupBy : GroupBy) : List (Nat × Nat) :=
  groupCounts ((index.kept range).map (index.group · groupBy))

def groupRow (row : Nat × Nat) : SphinxMatch := ⟨some row.1, some row.2⟩

/-- The rows of a group query that sets no limits. -/
def defaultLimit : Nat := 20

/-- The daemon answers with the logs of the range, and with the largest groups first. -/
structure Answers (client : SphinxGroupClient) (index : SphinxIndex) : Prop where
  range : ∀ min max, client.setFilterRange min max = decide (min ≤ max)
  limits : ∀ offset limit, client.setLimits offset limit = decide (0 ≤ offset ∧ 0 < limit)
  group : ∀ groupBy, client.setGroupBy groupBy = true
  search : ∀ range (limit : Nat), 0 < limit → (index.kept range).length ≤ limit →
    ∃ ids, client.query ⟨some range, [], [], [], 0, limit, []⟩ = some ⟨some ids, []⟩ ∧
      ids.Perm ((index.kept range).map (·.docId))
  groups : ∀ range groupBy, client.groupQuery ⟨some range, none, groupBy⟩ =
    some ⟨some (((index.groups range groupBy).take defaultLimit).map groupRow), []⟩
  limitedGroups : ∀ range groupBy (limit : Nat), 0 < limit → client.groupQuery ⟨some range, some (0, limit), groupBy⟩ =
    some ⟨some (((index.groups range groupBy).take limit).map groupRow), []⟩

/-- A daemon that answers so, the newest logs first. -/
def SphinxIndex.daemon (index : SphinxIndex) : SphinxGroupClient where
  setFilterRange min max := decide (min ≤ max)
  setFilter _ := true
  setLimits offset limit := decide (0 ≤ offset ∧ 0 < limit)
  setGroupBy _ := true
  query q := q.logDate.map fun range =>
    let sorted := (index.kept range).insertionSort fun a b => b.logDate.toNat ≤ a.logDate.toNat
    ⟨some (((sorted.map (·.docId)).drop q.offset.toNat).take q.limit.toNat), []⟩
  groupQuery q := q.logDate.map fun range =>
    let limits := q.limits.getD (0, defaultLimit)
    ⟨some ((((index.groups range q.groupBy).drop limits.1.toNat).take limits.2.toNat).map groupRow), []⟩

theorem SphinxIndex.daemon_answers (index : SphinxIndex) : Answers index.daemon index where
  range _ _ := rfl
  limits _ _ := rfl
  group _ := rfl
  search range limit _ hkept := by
    refine ⟨_, rfl, ?_⟩
    have hperm := (List.perm_insertionSort (fun a b : IndexedLog => b.logDate.toNat ≤ a.logDate.toNat)
      (index.kept range)).map (·.docId)
    have hlength := hperm.length_eq
    rw [List.length_map, List.length_map] at hlength
    rw [Int.toNat_zero, List.drop_zero, Int.toNat_natCast, List.take_of_length_le]
    · exact hperm
    · rw [List.length_map, hlength]
      exact hkept
  groups _ _ := rfl
  limitedGroups _ _ _ _ := rfl

/-- Logs of severity 6 at different seconds, in a daemon whose days start at midnight in UTC. -/
def utcIndex (dates : List UInt32) (h : dates.Nodup) : SphinxIndex where
  docs := dates.map fun date => ⟨date.toNat, date, 6⟩
  nodup := by
    rw [List.map_map]
    exact h.map fun _ _ heq => UInt32.toNat_inj.mp heq
  dayOf seconds := seconds / 86400 + epochDay
  four_digits doc _ := by
    have hlt : doc.logDate.toNat < 2 ^ 32 := doc.logDate.toNat_lt
    have hlow : yearOfDay epochDay ≤ yearOfDay (doc.logDate.toNat / 86400 + epochDay) :=
      yearOfDay_mono (Nat.le_add_left _ _)
    have hhigh : yearOfDay (doc.logDate.toNat / 86400 + epochDay) ≤ yearOfDay (49711 + epochDay) :=
      yearOfDay_mono (by omega)
    have hfirst : yearOfDay epochDay = 1970 := by decide
    have hlast : yearOfDay (49711 + epochDay) = 2106 := by decide
    omega

end index

section maps

/-- When every row has a key, the map takes them all. -/
theorem putMatches_groupRow {κ : Type} [DecidableEq κ] {groupKey : Int → Except SearchError (Option κ)} {f : Nat → κ}
    {rows : List (Nat × Nat)} (h : ∀ row ∈ rows, groupKey (row.1 : Int) = .ok (some (f row.1)))
    (resultMap : AList fun _ : κ => Int) : putMatches groupKey (rows.map groupRow) resultMap =
      .ok (insertRows (rows.map fun row => (f row.1, (row.2 : Int))) resultMap) := by
  induction rows generalizing resultMap with
  | nil => rfl
  | cons row rows ih =>
    rw [List.forall_mem_cons] at h
    have hhead : putMatches groupKey ((row :: rows).map groupRow) resultMap =
        putMatches groupKey (rows.map groupRow) (resultMap.insert (f row.1) row.2) := by
      rw [List.map_cons, putMatches, groupRow]
      dsimp only
      rw [h.1]
      rfl
    rw [hhead, ih h.2]
    rfl

/-- A row without a key fails. -/
theorem putMatches_unknown {κ : Type} [DecidableEq κ] {groupKey : Int → Option κ} {rows : List (Nat × Nat)}
    (h : ∃ row ∈ rows, groupKey (row.1 : Int) = none) (resultMap : AList fun _ : κ => Int) :
    ∃ e, putMatches (fun group => .ok (groupKey group)) (rows.map groupRow) resultMap = .error e := by
  induction rows generalizing resultMap with
  | nil =>
    obtain ⟨row, hrow, -⟩ := h
    exact absurd hrow List.not_mem_nil
  | cons row rows ih =>
    rw [List.map_cons, putMatches, groupRow]
    dsimp only
    cases hkey : groupKey (row.1 : Int) with
    | none => exact ⟨_, rfl⟩
    | some key =>
      have hrest : ∃ other ∈ rows, groupKey (other.1 : Int) = none := by
        obtain ⟨other, hother, hnone⟩ := h
        rcases List.mem_cons.mp hother with rfl | hother
        · rw [hkey] at hnone
          cases hnone
        · exact ⟨other, hother, hnone⟩
      exact ih hrest (resultMap.insert key row.2)

theorem severityKey_eq (n : UInt32) : LogLevel.levelForValue (int32 n.toNat) = LogLevel.levelForValue n.toNat := by
  have hlt : n.toNat < 2 ^ 32 := n.toNat_lt
  by_cases hsmall : n.toNat < 2 ^ 31
  · rw [int32_of_range (by omega) (by omega)]
  · have hnone : ∀ m : Int, ¬ (0 ≤ m ∧ m ≤ 7) → LogLevel.levelForValue m = none := by
      intro m hm
      rw [← Option.not_isSome_iff_eq_none]
      exact fun h => hm (LogLevel.isSome_levelForValue.mp h)
    have hnegative : int32 n.toNat < 0 := by
      unfold int32
      rw [Int.bmod_def]
      split <;> omega
    rw [hnone _ (by omega), hnone _ (by omega)]

end maps

section results
variable {client : SphinxGroupClient} {index : SphinxIndex} {fromDate toDate : Int}

def unixRange (fromDate toDate : Int) : Int × Int := (toUnixTime fromDate, toUnixTime toDate)

theorem Answers.setDate_eq (h : Answers client index) (hle : fromDate ≤ toDate) :
    setDate client.toSphinxClient (some fromDate) (some toDate) = .ok (some (unixRange fromDate toDate)) := by
  have hunix : toUnixTime fromDate ≤ toUnixTime toDate := Int.tdiv_le_tdiv (by decide) hle
  rw [setDate, h.range, if_pos (decide_eq_true hunix)]
  rfl

theorem Answers.queryGroups_eq (h : Answers client index) (range : Int × Int) (groupBy : GroupBy) :
    queryGroups client ⟨some range, none, groupBy⟩ =
      .ok (((index.groups range groupBy).take defaultLimit).map groupRow) := by
  have hno : ∀ rows : List SphinxMatch, ¬ (rows.isEmpty = true ∧ ([] : Text) ≠ []) := fun _ hne => hne.2 rfl
  rw [queryGroups, h.groups]
  exact if_neg (hno _)

theorem Answers.queryLimitedGroups_eq (h : Answers client index) (range : Int × Int) (groupBy : GroupBy) {limit : Nat}
    (hlimit : 0 < limit) : queryGroups client ⟨some range, some (0, limit), groupBy⟩ =
      .ok (((index.groups range groupBy).take limit).map groupRow) := by
  have hno : ∀ rows : List SphinxMatch, ¬ (rows.isEmpty = true ∧ ([] : Text) ≠ []) := fun _ hne => hne.2 rfl
  rw [queryGroups, h.limitedGroups _ _ _ hlimit]
  exact if_neg (hno _)

theorem Answers.numberOfLogsBySeverity_eq (h : Answers client index) (hle : fromDate ≤ toDate) :
    numberOfLogsBySeverity client (some fromDate) (some toDate) =
      putMatches severityKey (((index.groups (unixRange fromDate toDate) .severity).take defaultLimit).map groupRow)
        initTreeMapNumberOfLogsBySeverity := by
  have hquery := h.queryGroups_eq (unixRange fromDate toDate) .severity
  rw [numberOfLogsBySeverity, h.setDate_eq hle]
  change (if client.setGroupBy .severity = true then
    queryGroups client ⟨some (unixRange fromDate toDate), none, .severity⟩ >>= _ else _) = _
  rw [if_pos (h.group _), hquery]
  rfl

theorem Answers.numberOfLogsByDate_eq (h : Answers client index) (zone : TimeZone) (hle : fromDate ≤ toDate) :
    numberOfLogsByDate client zone (some fromDate) (some toDate) =
      putMatches (dayKey zone) (((index.groups (unixRange fromDate toDate) .logDay).take 31).map groupRow) ∅ := by
  have hquery := h.queryLimitedGroups_eq (unixRange fromDate toDate) .logDay (show 0 < 31 by decide)
  have hlimits : setLimits client.toSphinxClient 0 31 = .ok () := by
    rw [setLimits, h.limits]
    rfl
  rw [numberOfLogsByDate, numberOfLogsByDateWithin, h.setDate_eq hle, hlimits]
  change (if client.setGroupBy .logDay = true then
    queryGroups client ⟨some (unixRange fromDate toDate), some (0, 31), .logDay⟩ >>= _ else _) = _
  rw [if_pos (h.group _)]
  erw [hquery]
  rfl

end results

section severities
variable {client : SphinxGroupClient} {index : SphinxIndex} {range : Int × Int}

/-- The viewers know the severity. -/
def IndexedLog.Known (doc : IndexedLog) : Prop := (LogLevel.levelForValue doc.severity.toNat).isSome

instance (doc : IndexedLog) : Decidable doc.Known := inferInstanceAs (Decidable (_ = true))

def SphinxIndex.countOf (index : SphinxIndex) (range : Int × Int) (level : LogLevel) : Nat :=
  (index.kept range).countP fun doc => decide ((doc.severity.toNat : Int) = level.value)

def levelOfGroup (group : Nat) : LogLevel := (LogLevel.levelForValue group).getD .emergency

theorem exists_of_mem_groups {groupBy : GroupBy} {row : Nat × Nat} (h : row ∈ index.groups range groupBy) :
    ∃ doc ∈ index.kept range, index.group doc groupBy = row.1 ∧
      row.2 = ((index.kept range).map (index.group · groupBy)).count row.1 := by
  obtain ⟨hkey, hcount⟩ := mem_groupCounts.mp h
  obtain ⟨doc, hdoc, hgroup⟩ := List.mem_map.mp hkey
  exact ⟨doc, hdoc, hgroup, hcount⟩

theorem value_levelOfGroup {doc : IndexedLog} (h : doc.Known) :
    LogLevel.levelForValue doc.severity.toNat = some (levelOfGroup doc.severity.toNat) ∧
      (doc.severity.toNat : Int) = (levelOfGroup doc.severity.toNat).value := by
  obtain ⟨level, hlevel⟩ := Option.isSome_iff_exists.mp h
  have hgroup : levelOfGroup doc.severity.toNat = level := by rw [levelOfGroup, hlevel, Option.getD_some]
  rw [hgroup]
  exact ⟨hlevel, LogLevel.levelForValue_eq_some_iff.mp hlevel⟩

/-- Known severities fit into the default limit. -/
theorem length_groups_severity_le (hknown : ∀ doc ∈ index.kept range, doc.Known) :
    (index.groups range .severity).length ≤ LogLevel.values.length := by
  rw [SphinxIndex.groups, length_groupCounts, ← List.length_map (f := fun level : LogLevel => level.value.toNat)]
  apply List.Subperm.length_le
  apply List.subperm_of_subset (List.nodup_dedup _)
  intro group hgroup
  obtain ⟨doc, hdoc, rfl⟩ := List.mem_map.mp (List.mem_dedup.mp hgroup)
  have hvalue := (value_levelOfGroup (hknown doc hdoc)).2
  refine List.mem_map.mpr ⟨levelOfGroup doc.severity.toNat, LogLevel.mem_values _, ?_⟩
  rw [← hvalue]
  rfl

theorem countOf_eq (level : LogLevel) : index.countOf range level =
    ((index.kept range).map (index.group · .severity)).count level.value.toNat := by
  rw [SphinxIndex.countOf, List.count, List.countP_map]
  apply List.countP_congr
  intro doc _
  have hvalue : 0 ≤ level.value := by cases level <;> decide
  rw [decide_eq_true_eq, Function.comp_apply, beq_iff_eq, SphinxIndex.group]
  omega

theorem lookup_init (level : LogLevel) : initTreeMapNumberOfLogsBySeverity.lookup level = some 0 := by
  cases level <;> rfl

theorem sumOfValues_init : sumOfValues initTreeMapNumberOfLogsBySeverity = 0 := rfl

/-- The rows of the answer, each of which becomes an entry. -/
theorem severity_rows (hknown : ∀ doc ∈ index.kept range, doc.Known) :
    (∀ row ∈ index.groups range .severity, severityKey (row.1 : Int) = .ok (some (levelOfGroup row.1))) ∧
      (((index.groups range .severity).map fun row => (levelOfGroup row.1, (row.2 : Int))).map (·.1)).Nodup := by
  have hvalue : ∀ row ∈ index.groups range .severity, ∃ doc : IndexedLog, doc.Known ∧ doc.severity.toNat = row.1 := by
    intro row hrow
    obtain ⟨doc, hdoc, hgroup, -⟩ := exists_of_mem_groups hrow
    exact ⟨doc, hknown doc hdoc, hgroup⟩
  constructor
  · intro row hrow
    obtain ⟨doc, hdoc, hrow⟩ := hvalue row hrow
    rw [← hrow, severityKey, severityKey_eq, (value_levelOfGroup hdoc).1]
  · have hgroups : ((index.groups range .severity).map (·.1)).Nodup := nodup_groupCounts _
    rw [List.map_map]
    refine List.Nodup.map_on ?_ (List.Nodup.of_map _ hgroups)
    intro row hrow other hother heq
    obtain ⟨doc, hdoc, hgroup⟩ := hvalue row hrow
    obtain ⟨doc', hdoc', hgroup'⟩ := hvalue other hother
    have hlevel := (value_levelOfGroup hdoc).2
    have hlevel' := (value_levelOfGroup hdoc').2
    rw [hgroup] at hlevel
    rw [hgroup'] at hlevel'
    apply List.inj_on_of_nodup_map hgroups hrow hother
    have hcast : (row.1 : Int) = other.1 := hlevel.trans ((congrArg LogLevel.value heq).trans hlevel'.symm)
    exact Int.ofNat_inj.mp hcast

/-- Every level with its count, and nothing is left out. -/
theorem severityCounts_known (hknown : ∀ doc ∈ index.kept range, doc.Known) :
    ∃ resultMap, putMatches severityKey (((index.groups range .severity).take defaultLimit).map groupRow)
        initTreeMapNumberOfLogsBySeverity = .ok resultMap ∧
      (∀ level, resultMap.lookup level = some (index.countOf range level : Int)) ∧
      sumOfValues resultMap = (index.kept range).length := by
  obtain ⟨hkeys, hnodup⟩ := severity_rows hknown
  have hall : (index.groups range .severity).take defaultLimit = index.groups range .severity := by
    apply List.take_of_length_le
    exact (length_groups_severity_le hknown).trans (by decide)
  rw [hall, putMatches_groupRow hkeys]
  refine ⟨_, rfl, fun level => ?_, ?_⟩
  · rw [countOf_eq]
    by_cases hmem : level.value.toNat ∈ (index.kept range).map (index.group · .severity)
    · have hrow : (level.value.toNat, ((index.kept range).map (index.group · .severity)).count level.value.toNat) ∈
          index.groups range .severity := mem_groupCounts.mpr ⟨hmem, rfl⟩
      have hlevel : levelOfGroup level.value.toNat = level := by cases level <;> rfl
      have hentry := List.mem_map_of_mem (f := fun row : Nat × Nat => (levelOfGroup row.1, (row.2 : Int))) hrow
      rw [hlevel] at hentry
      exact lookup_insertRows_of_mem hnodup hentry
    · rw [List.count_eq_zero_of_not_mem hmem, lookup_insertRows_of_not_mem, lookup_init]
      · rfl
      · intro entry hentry heq
        obtain ⟨row, hrow, rfl⟩ := List.mem_map.mp hentry
        obtain ⟨doc, hdoc, hgroup, -⟩ := exists_of_mem_groups hrow
        have hvalue := (value_levelOfGroup (hknown doc hdoc)).2
        have hdocLevel : levelOfGroup doc.severity.toNat = level := by
          rw [← heq, ← hgroup]
          rfl
        rw [hdocLevel] at hvalue
        exact hmem (List.mem_map.mpr ⟨doc, hdoc, by rw [← hvalue]; rfl⟩)
  · have hzero : ∀ entry ∈ (index.groups range .severity).map fun row => (levelOfGroup row.1, (row.2 : Int)),
        (initTreeMapNumberOfLogsBySeverity.lookup entry.1).getD 0 = 0 := by
      intro entry _
      rw [lookup_init]
      rfl
    have hsum := sum_groupCounts ((index.kept range).map (index.group · .severity))
    rw [sumOfValues_insertRows hnodup hzero, sumOfValues_init, Int.zero_add, List.map_map]
    rw [List.length_map] at hsum
    rw [← hsum, Nat.cast_list_sum, List.map_map]
    rfl

/-- A single unknown severity in the range fails the whole statistic, for it is the first row. -/
theorem severityCounts_unknown (hunknown : ∃ doc ∈ index.kept range, ¬ doc.Known) :
    ∃ e, putMatches severityKey (((index.groups range .severity).take defaultLimit).map groupRow)
      initTreeMapNumberOfLogsBySeverity = .error e := by
  obtain ⟨doc, hdoc, hdocUnknown⟩ := hunknown
  obtain ⟨row, rows, hrows, hmem, hle⟩ :=
    le_head_groupCounts (List.mem_map_of_mem (f := (index.group · .severity)) hdoc)
  obtain ⟨first, -, hfirst⟩ := List.mem_map.mp hmem
  have hnone : LogLevel.levelForValue (int32 row.1) = none := by
    rw [← hfirst]
    change LogLevel.levelForValue (int32 first.severity.toNat) = none
    rw [severityKey_eq, ← Option.not_isSome_iff_eq_none, LogLevel.isSome_levelForValue]
    rw [IndexedLog.Known, LogLevel.isSome_levelForValue] at hdocUnknown
    change doc.severity.toNat ≤ row.1 at hle
    change first.severity.toNat = row.1 at hfirst
    omega
  apply @putMatches_unknown _ _ fun group => LogLevel.levelForValue (int32 group)
  rw [SphinxIndex.groups, hrows]
  exact ⟨row, List.mem_cons_self, hnone⟩

end severities

section days
variable {index : SphinxIndex} {range : Int × Int}

def dateOfGroup (zone : TimeZone) (group : Nat) : Int :=
  zone.startOfDay (gregorianDay ((group / 10000 : Nat) : Int) ((group / 100 % 100 : Nat) : Int) ((group % 100 : Nat) : Int))

theorem dateOfGroup_yearMonthDay (zone : TimeZone) (n : Nat) :
    dateOfGroup zone (yearMonthDay n) = zone.startOfDay (n - epochDay) := by
  obtain ⟨hyear, hmonth, hday⟩ := yearMonthDay_fields n
  rw [dateOfGroup, hyear, hmonth, hday, gregorianDay_fields]

theorem mem_docs_of_mem_kept {doc : IndexedLog} (h : doc ∈ index.kept range) : doc ∈ index.docs := (List.mem_filter.mp h).1

/-- The days of the daemon are read back, each as a date of its own. -/
theorem day_rows (zone : TimeZone) :
    (∀ row ∈ index.groups range .logDay, dayKey zone (row.1 : Int) = .ok (some (dateOfGroup zone row.1))) ∧
      ((index.groups range .logDay).map fun row => dateOfGroup zone row.1).Nodup := by
  have hday : ∀ row ∈ index.groups range .logDay, ∃ n, row.1 = yearMonthDay n ∧ 1000 ≤ yearOfDay n ∧ yearOfDay n < 10000 := by
    intro row hrow
    obtain ⟨doc, hdoc, hgroup, -⟩ := exists_of_mem_groups hrow
    exact ⟨_, hgroup.symm, index.four_digits doc (mem_docs_of_mem_kept hdoc)⟩
  constructor
  · intro row hrow
    obtain ⟨n, hn, hlow, hhigh⟩ := hday row hrow
    have hyear := (yearMonthDay_fields n).1
    rw [← hn] at hyear
    rw [dayKey, if_pos (by omega)]
    rfl
  · have hgroups : ((index.groups range .logDay).map (·.1)).Nodup := nodup_groupCounts _
    refine List.Nodup.map_on ?_ (List.Nodup.of_map _ hgroups)
    intro row hrow other hother heq
    obtain ⟨n, hn, -⟩ := hday row hrow
    obtain ⟨m, hm, -⟩ := hday other hother
    rw [hn, hm, dateOfGroup_yearMonthDay, dateOfGroup_yearMonthDay] at heq
    have hsame : n = m := by
      have hinj := zone.startOfDay_strictMono.injective heq
      omega
    exact List.inj_on_of_nodup_map hgroups hrow hother (by rw [hn, hm, hsame])

/-- The entries of as many days as the limit allows. -/
theorem dayCounts_eq (zone : TimeZone) (limit : Nat) :
    ∃ resultMap, putMatches (dayKey zone) (((index.groups range .logDay).take limit).map groupRow) ∅ = .ok resultMap ∧
      sumOfValues resultMap = ((((index.groups range .logDay).take limit).map (·.2)).sum : Nat) := by
  obtain ⟨hkeys, hnodup⟩ := @day_rows index range zone
  rw [putMatches_groupRow fun row hrow => hkeys row (List.mem_of_mem_take hrow)]
  refine ⟨_, rfl, ?_⟩
  have hsub : ((((index.groups range .logDay).take limit).map fun row => (dateOfGroup zone row.1, (row.2 : Int))).map
      (·.1)).Nodup := by
    rw [List.map_map]
    exact hnodup.sublist ((List.take_sublist _ _).map _)
  rw [sumOfValues_insertRows hsub fun _ _ => rfl, List.map_map, Nat.cast_list_sum, List.map_map]
  exact Int.zero_add _

/-- The days on which the logs of a range fall. -/
def SphinxIndex.days (index : SphinxIndex) (range : Int × Int) : List Nat :=
  ((index.kept range).map (index.group · .logDay)).dedup

end days
end Srvlog.Search
