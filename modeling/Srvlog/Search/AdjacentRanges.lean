import Srvlog.Search.LogStatistics
import Srvlog.Util.DateRange

/-! Ranges that meet: what is found in both of them, and how their statistics add up. -/
namespace Srvlog.Search
open Library Data Util

section queries
variable (client : SphinxGroupClient) (fromDate toDate : Int) (limit : Nat)

/-- A search without other filters. -/
def searchRange : Except SearchError (List Nat) :=
  searchIndex client.toSphinxClient ⟨some fromDate, some toDate, none, none, none, none⟩ 0 limit

theorem Answers.searchRange_eq {client : SphinxGroupClient} {index : SphinxIndex} (h : Answers client index)
    {fromDate toDate : Int} {limit : Nat} (hle : fromDate ≤ toDate) (hlimit : 0 < limit)
    (hkept : (index.kept (unixRange fromDate toDate)).length ≤ limit) :
    ∃ ids, searchRange client fromDate toDate limit = .ok ids ∧
      ids.Perm ((index.kept (unixRange fromDate toDate)).map (·.docId)) := by
  obtain ⟨ids, hquery, hperm⟩ := h.search (unixRange fromDate toDate) limit hlimit hkept
  have hfilter : ∀ name, setAttributeFilter client.toSphinxClient none name = .ok [] := by
    intro name
    rw [setAttributeFilter]
    exact if_pos (.inl rfl)
  have hlimits : setLimits client.toSphinxClient 0 limit = .ok () := by
    rw [setLimits, h.limits, if_pos]
    exact decide_eq_true ⟨Int.le_refl 0, Int.natCast_pos.mpr hlimit⟩
  have hmatched : matchedIds ⟨some ids, []⟩ = .ok ids := if_neg fun hne => hne.2 rfl
  refine ⟨ids, ?_, hperm⟩
  rw [searchRange, searchIndex]
  dsimp only
  rw [h.setDate_eq hle, hfilter, hfilter, hfilter, hlimits]
  simp only [bind, Except.bind, Option.getD_none]
  rw [hquery]
  exact hmatched

end queries

section meeting
variable {index : SphinxIndex}

theorem mem_kept {range : Int × Int} {doc : IndexedLog} : doc ∈ index.kept range ↔ doc ∈ index.docs ∧ InRange range doc := by
  rw [SphinxIndex.kept, List.mem_filter, decide_eq_true_eq]

theorem inRange_or {a b c : Int} (hab : a ≤ b) (hbc : b ≤ c) {doc : IndexedLog} :
    InRange (a, c) doc ↔ InRange (a, b) doc ∨ InRange (b, c) doc := by
  unfold InRange
  dsimp only
  omega

theorem inRange_and {a b c : Int} (hab : a ≤ b) (hbc : b ≤ c) {doc : IndexedLog} :
    (doc.logDate.toNat : Int) = b ↔ InRange (a, b) doc ∧ InRange (b, c) doc := by
  unfold InRange
  dsimp only
  omega

theorem one_or_two (P Q R S : Prop) [Decidable P] [Decidable Q] [Decidable R] [Decidable S] (hor : R ↔ P ∨ Q)
    (hand : S ↔ P ∧ Q) :
    (if P then 1 else 0) + (if Q then 1 else 0) = (if R then 1 else 0) + (if S then 1 else 0) := by
  by_cases hp : P <;> by_cases hq : Q <;> simp [hor, hand, hp, hq]

/-- A log at the common end is counted twice. -/
theorem countP_kept_add {a b c : Int} (hab : a ≤ b) (hbc : b ≤ c) (p : IndexedLog → Bool) :
    (index.kept (a, b)).countP p + (index.kept (b, c)).countP p =
      (index.kept (a, c)).countP p + index.docs.countP fun doc => p doc && decide ((doc.logDate.toNat : Int) = b) := by
  unfold SphinxIndex.kept
  rw [List.countP_filter, List.countP_filter, List.countP_filter]
  induction index.docs with
  | nil => rfl
  | cons doc docs ih =>
    rw [List.countP_cons, List.countP_cons, List.countP_cons, List.countP_cons]
    have hdoc := one_or_two _ _ _ _ (@inRange_or _ _ _ hab hbc doc) (@inRange_and _ _ _ hab hbc doc)
    cases p doc with
    | false => exact ih
    | true =>
      simp only [Bool.true_and, decide_eq_true_eq]
      omega

theorem mem_kept_iff {a b c : Int} (hab : a ≤ b) (hbc : b ≤ c) {doc : IndexedLog} :
    doc ∈ index.kept (a, c) ↔ doc ∈ index.kept (a, b) ∨ doc ∈ index.kept (b, c) := by
  rw [mem_kept, mem_kept, mem_kept, ← and_or_left, ← inRange_or hab hbc]

theorem mem_both_iff {a b c : Int} (hab : a ≤ b) (hbc : b ≤ c) {doc : IndexedLog} :
    doc ∈ index.kept (a, b) ∧ doc ∈ index.kept (b, c) ↔ doc ∈ index.docs ∧ (doc.logDate.toNat : Int) = b := by
  rw [mem_kept, mem_kept, ← and_and_left, ← inRange_and hab hbc]

/-- Documents are found by their identifiers. -/
theorem eq_of_docId {doc doc' : IndexedLog} (h : doc ∈ index.docs) (h' : doc' ∈ index.docs) (heq : doc.docId = doc'.docId) :
    doc = doc' := List.inj_on_of_nodup_map index.nodup h h' heq

end meeting

section partition
variable (client : SphinxGroupClient) (limit : Nat)

/-- The logs of the outer range are those of the inner ones, each in one of them. -/
def SearchesPartition (a b c : Int) : Prop :=
  ∃ whole early late, searchRange client a c limit = .ok whole ∧ searchRange client a b limit = .ok early ∧
    searchRange client b c limit = .ok late ∧ early.Disjoint late ∧ ∀ id, id ∈ whole ↔ id ∈ early ∨ id ∈ late

def SeveritiesAdd (a b c : Int) : Prop :=
  ∃ whole early late, numberOfLogsBySeverity client (some a) (some c) = .ok whole ∧
    numberOfLogsBySeverity client (some a) (some b) = .ok early ∧
    numberOfLogsBySeverity client (some b) (some c) = .ok late ∧
    ∀ level, ∃ n m, early.lookup level = some n ∧ late.lookup level = some m ∧ whole.lookup level = some (n + m)

/-- No log is found in both of two ranges. -/
def NoneInBoth (early late : DateRange) : Prop :=
  ∃ ids ids', searchRange client early.fromDate early.toDate limit = .ok ids ∧
    searchRange client late.fromDate late.toDate limit = .ok ids' ∧ ids.Disjoint ids'

variable {client} {limit} {index : SphinxIndex} {a b c : Int}

theorem unix_le (hab : a ≤ b) : toUnixTime a ≤ toUnixTime b := Int.tdiv_le_tdiv (by decide) hab

theorem toUnixTime_eq_iff (hb : 1000 ∣ b) {n : Int} : n = toUnixTime b ↔ 1000 * n = b := by
  obtain ⟨k, rfl⟩ := hb
  rw [toUnixTime, Int.mul_tdiv_cancel_left _ (by decide)]
  omega

theorem Answers.found (h : Answers client index) (hlimit : 0 < limit) (hab : a ≤ b) (hbc : b ≤ c)
    (hkept : (index.kept (unixRange a c)).length ≤ limit) :
    ∃ whole early late, searchRange client a c limit = .ok whole ∧ searchRange client a b limit = .ok early ∧
      searchRange client b c limit = .ok late ∧ whole.Perm ((index.kept (unixRange a c)).map (·.docId)) ∧
      early.Perm ((index.kept (unixRange a b)).map (·.docId)) ∧ late.Perm ((index.kept (unixRange b c)).map (·.docId)) := by
  have hsub : ∀ from' to', toUnixTime a ≤ toUnixTime from' → toUnixTime to' ≤ toUnixTime c →
      (index.kept (unixRange from' to')).length ≤ limit := by
    intro from' to' hfrom hto
    refine Nat.le_trans (List.Sublist.length_le ?_) hkept
    apply List.monotone_filter_right
    intro doc hdoc
    have hin := of_decide_eq_true hdoc
    exact decide_eq_true ⟨Int.le_trans hfrom hin.1, Int.le_trans hin.2 hto⟩
  obtain ⟨whole, hwhole, hwholePerm⟩ := h.searchRange_eq (Int.le_trans hab hbc) hlimit hkept
  obtain ⟨early, hearly, hearlyPerm⟩ := h.searchRange_eq hab hlimit (hsub a b (Int.le_refl _) (unix_le hbc))
  obtain ⟨late, hlate, hlatePerm⟩ := h.searchRange_eq hbc hlimit (hsub b c (unix_le hab) (Int.le_refl _))
  exact ⟨whole, early, late, hwhole, hearly, hlate, hwholePerm, hearlyPerm, hlatePerm⟩

theorem disjoint_kept_iff (hab : a ≤ b) (hbc : b ≤ c) (hb : 1000 ∣ b) :
    ((index.kept (unixRange a b)).map (·.docId)).Disjoint ((index.kept (unixRange b c)).map (·.docId)) ↔
      ∀ doc ∈ index.docs, 1000 * (doc.logDate.toNat : Int) ≠ b := by
  have hboth : ∀ doc, doc ∈ index.kept (unixRange a b) ∧ doc ∈ index.kept (unixRange b c) ↔
      doc ∈ index.docs ∧ 1000 * (doc.logDate.toNat : Int) = b := by
    intro doc
    rw [← toUnixTime_eq_iff hb]
    exact mem_both_iff (unix_le hab) (unix_le hbc)
  constructor
  · intro hdisjoint doc hdoc heq
    obtain ⟨hearly, hlate⟩ := (hboth doc).mpr ⟨hdoc, heq⟩
    exact hdisjoint (List.mem_map_of_mem hearly) (List.mem_map_of_mem hlate)
  · intro hnone id hearly hlate
    obtain ⟨doc, hdoc, rfl⟩ := List.mem_map.mp hearly
    obtain ⟨doc', hdoc', hid⟩ := List.mem_map.mp hlate
    obtain rfl := eq_of_docId (mem_docs_of_mem_kept hdoc') (mem_docs_of_mem_kept hdoc) hid
    obtain ⟨hmem, heq⟩ := (hboth doc').mp ⟨hdoc, hdoc'⟩
    exact hnone doc' hmem heq

theorem disjoint_perm {l l' m m' : List Nat} (hl : l.Perm l') (hm : m.Perm m') : l.Disjoint m ↔ l'.Disjoint m' :=
  ⟨fun h _ hx hy => h (hl.mem_iff.mpr hx) (hm.mem_iff.mpr hy), fun h _ hx hy => h (hl.mem_iff.mp hx) (hm.mem_iff.mp hy)⟩

theorem Answers.searchesPartition_iff (h : Answers client index) (hlimit : 0 < limit) (hab : a ≤ b) (hbc : b ≤ c)
    (hb : 1000 ∣ b) (hkept : (index.kept (unixRange a c)).length ≤ limit) :
    SearchesPartition client limit a b c ↔ ∀ doc ∈ index.docs, 1000 * (doc.logDate.toNat : Int) ≠ b := by
  obtain ⟨whole, early, late, hwhole, hearly, hlate, hwholePerm, hearlyPerm, hlatePerm⟩ := h.found hlimit hab hbc hkept
  rw [← disjoint_kept_iff hab hbc hb, ← disjoint_perm hearlyPerm hlatePerm]
  constructor
  · rintro ⟨whole', early', late', -, hearly', hlate', hdisjoint, -⟩
    rw [hearly] at hearly'
    rw [hlate] at hlate'
    obtain rfl := Except.ok.inj hearly'
    obtain rfl := Except.ok.inj hlate'
    exact hdisjoint
  · intro hdisjoint
    refine ⟨whole, early, late, hwhole, hearly, hlate, hdisjoint, fun id => ?_⟩
    have hdocs : ∀ doc, doc ∈ index.kept (unixRange a c) ↔
        doc ∈ index.kept (unixRange a b) ∨ doc ∈ index.kept (unixRange b c) :=
      fun doc => mem_kept_iff (unix_le hab) (unix_le hbc)
    rw [hwholePerm.mem_iff, hearlyPerm.mem_iff, hlatePerm.mem_iff, List.mem_map, List.mem_map, List.mem_map,
      ← exists_or]
    apply exists_congr
    intro doc
    rw [hdocs, or_and_right]

/-- With known severities, and only then, every level is counted. -/
theorem Answers.severities (h : Answers client index) (hab : a ≤ b) (hknown : ∀ doc ∈ index.kept (unixRange a b), doc.Known) :
    ∃ resultMap, numberOfLogsBySeverity client (some a) (some b) = .ok resultMap ∧
      ∀ level, resultMap.lookup level = some (index.countOf (unixRange a b) level : Int) := by
  obtain ⟨resultMap, hmap, hlookup, -⟩ := severityCounts_known hknown
  exact ⟨resultMap, (h.numberOfLogsBySeverity_eq hab).trans hmap, hlookup⟩

theorem Answers.known_of_severities (h : Answers client index) (hab : a ≤ b) {resultMap : AList fun _ : LogLevel => Int}
    (hmap : numberOfLogsBySeverity client (some a) (some b) = .ok resultMap) :
    ∀ doc ∈ index.kept (unixRange a b), doc.Known := by
  by_contra hunknown
  push Not at hunknown
  obtain ⟨e, he⟩ := severityCounts_unknown hunknown
  rw [h.numberOfLogsBySeverity_eq hab, he] at hmap
  cases hmap

theorem Answers.severitiesAdd_iff (h : Answers client index) (hab : a ≤ b) (hbc : b ≤ c) (hb : 1000 ∣ b) :
    SeveritiesAdd client a b c ↔ (∀ doc ∈ index.kept (unixRange a c), doc.Known) ∧
      ∀ doc ∈ index.docs, 1000 * (doc.logDate.toNat : Int) ≠ b := by
  have hcount : ∀ level, index.countOf (unixRange a b) level + index.countOf (unixRange b c) level =
      index.countOf (unixRange a c) level + index.docs.countP fun doc =>
        decide ((doc.severity.toNat : Int) = level.value) && decide ((doc.logDate.toNat : Int) = toUnixTime b) :=
    fun level => countP_kept_add (unix_le hab) (unix_le hbc) _
  have hparts : (∀ doc ∈ index.kept (unixRange a c), doc.Known) →
      (∀ doc ∈ index.kept (unixRange a b), doc.Known) ∧ ∀ doc ∈ index.kept (unixRange b c), doc.Known := by
    intro hknown
    exact ⟨fun doc hdoc => hknown doc ((mem_kept_iff (unix_le hab) (unix_le hbc)).mpr (.inl hdoc)),
      fun doc hdoc => hknown doc ((mem_kept_iff (unix_le hab) (unix_le hbc)).mpr (.inr hdoc))⟩
  constructor
  · rintro ⟨whole, early, late, hwhole, hearly, hlate, hadd⟩
    have hknown := h.known_of_severities (Int.le_trans hab hbc) hwhole
    refine ⟨hknown, fun doc hdoc heq => ?_⟩
    obtain ⟨wholeMap, hwholeMap, hwholeCount⟩ := h.severities (Int.le_trans hab hbc) hknown
    obtain ⟨earlyMap, hearlyMap, hearlyCount⟩ := h.severities hab (hparts hknown).1
    obtain ⟨lateMap, hlateMap, hlateCount⟩ := h.severities hbc (hparts hknown).2
    rw [hwhole] at hwholeMap
    rw [hearly] at hearlyMap
    rw [hlate] at hlateMap
    obtain rfl := Except.ok.inj hwholeMap
    obtain rfl := Except.ok.inj hearlyMap
    obtain rfl := Except.ok.inj hlateMap
    have hdate : (doc.logDate.toNat : Int) = toUnixTime b := (toUnixTime_eq_iff hb).mpr heq
    have hkept : doc ∈ index.kept (unixRange a c) :=
      (mem_kept_iff (unix_le hab) (unix_le hbc)).mpr (.inl ((mem_both_iff (unix_le hab) (unix_le hbc)).mpr ⟨hdoc, hdate⟩).1)
    have hlevel := (value_levelOfGroup (hknown doc hkept)).2
    have hpos : 0 < index.docs.countP fun doc' => decide ((doc'.severity.toNat : Int) =
        (levelOfGroup doc.severity.toNat).value) && decide ((doc'.logDate.toNat : Int) = toUnixTime b) := by
      rw [List.countP_pos_iff]
      exact ⟨doc, hdoc, by rw [decide_eq_true hlevel, decide_eq_true hdate]; rfl⟩
    obtain ⟨n, m, hn, hm, hsum⟩ := hadd (levelOfGroup doc.severity.toNat)
    rw [hearlyCount] at hn
    rw [hlateCount] at hm
    rw [hwholeCount] at hsum
    obtain rfl := Option.some.inj hn
    obtain rfl := Option.some.inj hm
    have htotal := Option.some.inj hsum
    have hlevelCount := hcount (levelOfGroup doc.severity.toNat)
    omega
  · rintro ⟨hknown, hnone⟩
    obtain ⟨whole, hwhole, hwholeCount⟩ := h.severities (Int.le_trans hab hbc) hknown
    obtain ⟨early, hearly, hearlyCount⟩ := h.severities hab (hparts hknown).1
    obtain ⟨late, hlate, hlateCount⟩ := h.severities hbc (hparts hknown).2
    refine ⟨whole, early, late, hwhole, hearly, hlate, fun level => ⟨_, _, hearlyCount level, hlateCount level, ?_⟩⟩
    have hzero : (index.docs.countP fun doc => decide ((doc.severity.toNat : Int) = level.value) &&
        decide ((doc.logDate.toNat : Int) = toUnixTime b)) = 0 := by
      rw [List.countP_eq_zero]
      intro doc hdoc hboth
      rw [Bool.and_eq_true, decide_eq_true_eq, decide_eq_true_eq] at hboth
      exact hnone doc hdoc ((toUnixTime_eq_iff hb).mp hboth.2)
    have hlevelCount := hcount level
    rw [hwholeCount]
    congr 1
    omega

/-- The ranges of two days or of two months that follow each other. -/
def adjacentRanges (zone : TimeZone) (now : Int) : List (DateRange × DateRange) :=
  [(.yesterday zone now, .today zone now), (.lastMonth zone now, .thisMonth zone now)]

theorem mem_adjacentRanges {zone : TimeZone} {now : Int} {ranges : DateRange × DateRange}
    (h : ranges ∈ adjacentRanges zone now) : ranges.1.fromDate ≤ ranges.1.toDate ∧ ranges.1.toDate = ranges.2.fromDate ∧
      ranges.2.fromDate ≤ ranges.2.toDate ∧ 1000 ∣ ranges.2.fromDate := by
  rcases List.mem_pair.mp h with rfl | rfl
  · have hcovers := DateRange.covers_today zone now
    exact ⟨(DateRange.covers_yesterday zone now).le, rfl, hcovers.le, hcovers.whole_second.1⟩
  · obtain ⟨_, _, -, hlast⟩ := DateRange.covers_lastMonth zone now
    obtain ⟨_, _, -, hthis⟩ := DateRange.covers_thisMonth zone now
    exact ⟨hlast.le, rfl, hthis.le, hthis.whole_second.1⟩

theorem Answers.noneInBoth_iff (h : Answers client index) (hlimit : 0 < limit) {early late : DateRange}
    (hearly : early.fromDate ≤ early.toDate) (hmeet : early.toDate = late.fromDate) (hlate : late.fromDate ≤ late.toDate)
    (hwhole : 1000 ∣ late.fromDate) (hkept : (index.kept (unixRange early.fromDate late.toDate)).length ≤ limit) :
    NoneInBoth client limit early late ↔ ∀ doc ∈ index.docs, 1000 * (doc.logDate.toNat : Int) ≠ late.fromDate := by
  rw [hmeet] at hearly
  obtain ⟨-, ids, ids', -, hids, hids', -, hperm, hperm'⟩ := h.found hlimit hearly hlate hkept
  rw [← disjoint_kept_iff hearly hlate hwhole, ← disjoint_perm hperm hperm']
  unfold NoneInBoth
  rw [hmeet]
  constructor
  · rintro ⟨found, found', hfound, hfound', hdisjoint⟩
    rw [hids] at hfound
    rw [hids'] at hfound'
    obtain rfl := Except.ok.inj hfound
    obtain rfl := Except.ok.inj hfound'
    exact hdisjoint
  · exact fun hdisjoint => ⟨ids, ids', hids, hids', hdisjoint⟩

end partition

section adjacent
variable {client : SphinxGroupClient} {index : SphinxIndex}

/-- Ranges that meet share exactly the logs at the instant where they meet. -/
theorem adjacent_ranges_partition_iff (h : Answers client index) {limit : Nat} (hlimit : 0 < limit) :
    (∀ a b c : Int, a ≤ b → b ≤ c → 1000 ∣ a → 1000 ∣ b → 1000 ∣ c →
      (index.kept (unixRange a c)).length ≤ limit →
      (SearchesPartition client limit a b c ∧ SeveritiesAdd client a b c ↔
        (∀ doc ∈ index.docs, 1000 * (doc.logDate.toNat : Int) ≠ b) ∧ ∀ doc ∈ index.kept (unixRange a c), doc.Known)) ∧
    ∀ (zone : TimeZone) (now : Int), ∀ ranges ∈ adjacentRanges zone now,
      (index.kept (unixRange ranges.1.fromDate ranges.2.toDate)).length ≤ limit →
      (NoneInBoth client limit ranges.1 ranges.2 ↔
        ∀ doc ∈ index.docs, 1000 * (doc.logDate.toNat : Int) ≠ ranges.2.fromDate) := by
  constructor
  · intro a b c hab hbc _ hb _ hkept
    rw [h.searchesPartition_iff hlimit hab hbc hb hkept, h.severitiesAdd_iff hab hbc hb]
    tauto
  · intro zone now ranges hranges hkept
    obtain ⟨hearly, hmeet, hlate, hwhole⟩ := mem_adjacentRanges hranges
    exact h.noneInBoth_iff hlimit hearly hmeet hlate hwhole hkept

/-- A log at midnight is found both in the range of the day before and in that of its day. -/
theorem midnight_log_found_twice :
    Answers (utcIndex [86400] (List.nodup_singleton _)).daemon (utcIndex [86400] (List.nodup_singleton _)) ∧
      ¬ NoneInBoth (utcIndex [86400] (List.nodup_singleton _)).daemon 20
        (.yesterday (.fixed 0) 90000000) (.today (.fixed 0) 90000000) ∧
      ¬ (SearchesPartition (utcIndex [86400] (List.nodup_singleton _)).daemon 20 0 86400000 172800000 ∧
        SeveritiesAdd (utcIndex [86400] (List.nodup_singleton _)).daemon 0 86400000 172800000) := by
  have hanswers := (utcIndex [86400] (List.nodup_singleton _)).daemon_answers
  have hdoc : (⟨86400, 86400, 6⟩ : IndexedLog) ∈ (utcIndex [86400] (List.nodup_singleton _)).docs := List.mem_cons_self
  have hlength : ∀ range, ((utcIndex [86400] (List.nodup_singleton _)).kept range).length ≤ 20 :=
    fun range => (List.length_filter_le _ _).trans (by decide)
  refine ⟨hanswers, fun hnone => ?_, fun hpartition => ?_⟩
  · rw [hanswers.noneInBoth_iff (by decide) (by decide) rfl (by decide) (by decide) (hlength _)] at hnone
    exact hnone _ hdoc (by decide)
  · have hsearch := (hanswers.searchesPartition_iff (by decide) (by decide) (by decide) (by decide) (hlength _)).mp
      hpartition.1
    exact hsearch _ hdoc (by decide)

/-- Logs beside the common end are found once. -/
theorem two_logs_partitioned :
    (SearchesPartition (utcIndex [1, 3] (by decide)).daemon 20 0 2000 4000 ∧
      SeveritiesAdd (utcIndex [1, 3] (by decide)).daemon 0 2000 4000) ∧
      NoneInBoth (utcIndex [1, 3] (by decide)).daemon 20 (.yesterday (.fixed 0) 90000000) (.today (.fixed 0) 90000000) := by
  have hpartition := adjacent_ranges_partition_iff (utcIndex [1, 3] (by decide)).daemon_answers (show 0 < 20 by decide)
  have hlength : ∀ range, ((utcIndex [1, 3] (by decide)).kept range).length ≤ 20 :=
    fun range => (List.length_filter_le _ _).trans (by decide)
  refine ⟨(hpartition.1 0 2000 4000 (by decide) (by decide) (by decide) (by decide) (by decide) (hlength _)).mpr ?_,
    (hpartition.2 (.fixed 0) 90000000 _ List.mem_cons_self (hlength _)).mpr (by decide)⟩
  exact ⟨by decide, by decide⟩

end adjacent
end Srvlog.Search
