import Srvlog.Search.IndexedLogs
import Srvlog.Search.LogSearch

/-! What a search shows of the logs while they are saved, indexed and dropped. -/
namespace Srvlog.Search
open Library Database
variable {c : Collation}

section queries

/-- The filters of a query on one document; the daemon matches the pattern with the texts. -/
def SphinxQuery.selects (fulltext : Text → Document → Bool) (q : SphinxQuery) (d : Document) : Bool :=
  (q.logDate.all fun range => decide (range.1 ≤ (d.logDate.toNat : Int) ∧ (d.logDate.toNat : Int) ≤ range.2)) &&
    (decide (q.facility = []) || decide ((d.facility.toNat : Int) ∈ q.facility)) &&
    (decide (q.hostId = []) || decide ((d.hostId.toNat : Int) ∈ q.hostId)) &&
    (decide (q.severity = []) || decide ((d.severity.toNat : Int) ∈ q.severity)) && fulltext q.pattern d

/-- A client of a daemon that serves these documents, and answers with all that are selected
unless the query asks for fewer. -/
structure Serves (fulltext : Text → Document → Bool) (docs : List Document) (client : SphinxClient) : Prop where
  range : ∀ min max, client.setFilterRange min max = decide (min ≤ max)
  filters : ∀ values, values ≠ [] → client.setFilter values = true
  limits : ∀ offset limit, client.setLimits offset limit = decide (0 ≤ offset ∧ 0 < limit)
  query : ∀ q, q.offset = 0 → ((docs.filter (q.selects fulltext)).length : Int) ≤ q.limit →
    ∃ ids, client.query q = some ⟨some ids, []⟩ ∧ ids.Perm ((docs.filter (q.selects fulltext)).map (·.docId))

/-- A daemon that answers so, the newest documents first. -/
def servingDaemon (fulltext : Text → Document → Bool) (docs : List Document) : SphinxClient where
  setFilterRange min max := decide (min ≤ max)
  setFilter _ := true
  setLimits offset limit := decide (0 ≤ offset ∧ 0 < limit)
  query q :=
    let sorted := (docs.filter (q.selects fulltext)).insertionSort fun a b => b.logDate.toNat ≤ a.logDate.toNat
    some ⟨some (((sorted.map (·.docId)).drop q.offset.toNat).take q.limit.toNat), []⟩

theorem serves_servingDaemon (fulltext : Text → Document → Bool) (docs : List Document) :
    Serves fulltext docs (servingDaemon fulltext docs) where
  range _ _ := rfl
  filters _ _ := rfl
  limits _ _ := rfl
  query q hoffset hcount := by
    refine ⟨_, rfl, ?_⟩
    have hperm := (List.perm_insertionSort (fun a b : Document => b.logDate.toNat ≤ a.logDate.toNat)
      (docs.filter (q.selects fulltext))).map (·.docId)
    have hlength := hperm.length_eq
    rw [List.length_map, List.length_map] at hlength
    rw [hoffset, Int.toNat_zero, List.drop_zero, List.take_of_length_le]
    · exact hperm
    · rw [List.length_map, hlength]
      omega

variable {fulltext : Text → Document → Bool} {docs : List Document} {client : SphinxClient} {filter : SearchFilter}
  {limit : Int}

/-- A search whose settings are accepted returns what the query has found. -/
theorem searchIndex_of_query {offset : Int} {ids : List Nat} (hrange : ∃ fromDate toDate, filter.fromDate = some fromDate ∧
      filter.toDate = some toDate ∧ client.setFilterRange (toUnixTime fromDate) (toUnixTime toDate) = true)
    (hfilters : ∀ values, values ≠ [] → client.setFilter values = true) (hlimits : client.setLimits offset limit = true)
    (hquery : client.query (filter.sphinxQuery offset limit) = some ⟨some ids, []⟩) :
    searchIndex client filter offset limit = .ok ids := by
  obtain ⟨fromDate, toDate, hfrom, hto, haccepted⟩ := hrange
  have hdate : setDate client filter.fromDate filter.toDate = .ok (filter.sphinxQuery offset limit).logDate := by
    simp [setDate, SearchFilter.sphinxQuery, hfrom, hto, haccepted]
  have hvalues (filterValues : Option (List Int)) (attributeName : Text) :
      setAttributeFilter client filterValues attributeName = .ok (filterValues.getD []) := by
    apply if_pos
    by_cases hnone : filterValues.getD [] = []
    · exact .inl hnone
    · exact .inr (hfilters _ hnone)
  rw [searchIndex, hdate, hvalues, hvalues, hvalues]
  rw [SearchFilter.sphinxQuery] at hquery
  simp [setLimits, hlimits, SearchFilter.sphinxQuery, hquery, matchedIds, bind, Except.bind]

/-- The range of dates, which every page asks for. -/
def SearchFilter.HasRange (filter : SearchFilter) : Prop :=
  ∃ fromDate toDate, filter.fromDate = some fromDate ∧ filter.toDate = some toDate ∧ toUnixTime fromDate ≤ toUnixTime toDate

theorem Serves.searchIndex_eq (h : Serves fulltext docs client) (hrange : filter.HasRange) (hlimit : 0 < limit)
    (hcount : ((docs.filter ((filter.sphinxQuery 0 limit).selects fulltext)).length : Int) ≤ limit) :
    ∃ ids, searchIndex client filter 0 limit = .ok ids ∧
      ids.Perm ((docs.filter ((filter.sphinxQuery 0 limit).selects fulltext)).map (·.docId)) := by
  obtain ⟨ids, hquery, hids⟩ := h.query (filter.sphinxQuery 0 limit) rfl hcount
  obtain ⟨fromDate, toDate, hfrom, hto, hle⟩ := hrange
  have haccepted : client.setFilterRange (toUnixTime fromDate) (toUnixTime toDate) = true := by
    rw [h.range]
    exact decide_eq_true hle
  have hlimits : client.setLimits 0 limit = true := by
    rw [h.limits]
    exact decide_eq_true ⟨Int.le_refl _, hlimit⟩
  exact ⟨ids, searchIndex_of_query ⟨fromDate, toDate, hfrom, hto, haccepted⟩ h.filters hlimits hquery, hids⟩

/-- The rows with the identifiers that the index has found. -/
theorem search_of_ids {s : Store c} (engine : Sorter logDateDesc) {offset : Int} {ids : List Nat}
    (hids : searchIndex client filter offset limit = .ok ids) (hcount : ids.length ≤ 1000) (hkeys : ∀ id ∈ ids, id < 2 ^ 32) :
    search client engine s filter offset limit = .ok (engine.sort (selectByIds s ids)) := by
  rw [search, hids]
  by_cases hnil : ids = []
  · subst hnil
    have hnone : selectByIds s [] = [] :=
      List.eq_nil_iff_forall_not_mem.mpr fun r hr => List.not_mem_nil (mem_selectByIds.mp hr).1
    have hempty : engine.sort [] = [] := (engine.perm []).eq_nil
    rw [hnone, hempty]
    rfl
  · have hlength : (collectionToCommaDelimitedString ids).length ≤ 65535 := by
      have hle := length_collectionToCommaDelimitedString hkeys
      omega
    simp [hasText_collectionToCommaDelimitedString hnil, getLogsByIds, if_pos hlength,
      inList_collectionToCommaDelimitedString hnil, bind, Except.bind]

end queries

section joins

/-- Every log is of a host that there is. -/
def Joined (s : Store c) : Prop := ∀ l ∈ s.logs.rows, ∃ h ∈ s.hosts.rows, h.1 = l.2.hostId

theorem Joined.saveLog {s : Store c} (h : Joined s) (p : LogParameters) : Joined (saveLog s p).2 := by
  rcases saveLog_cases s p with ⟨hostId, ⟨host, hhost, hkey, -⟩, hsave⟩ | ⟨-, hsave⟩
  · rw [hsave]
    intro l hl
    rcases List.mem_append.mp hl with hold | hnew
    · exact h l hold
    · rw [List.mem_singleton.mp hnew]
      exact ⟨host, hhost, hkey⟩
  · rw [hsave]
    exact h

theorem Joined.call {s : Store c} (h : Joined s) (a : StoreCall) : Joined (s.call a) := by
  cases a with
  | saveLog p => exact h.saveLog p
  | processOssecSnortMessage p date identifier => exact h.saveLog p
  | saveHost hostname ip =>
    change Joined (saveHost s hostname ip)
    rcases saveHost_cases s hostname ip with hsave | ⟨hosts, hsave, hsub⟩
    · rwa [hsave]
    · rw [hsave]
      intro l hl
      obtain ⟨host, hhost, hkey⟩ := h l hl
      exact ⟨host, hsub hhost, hkey⟩
  | saveUnprocessed =>
    intro l hl
    rcases mem_insertProcessed hl with ⟨l', hl', hsame⟩ | ⟨t, ht, hrow⟩
    · rw [← hsame]
      exact h l' hl'
    · obtain ⟨u, -, host, hhost, rfl⟩ := mem_selectToProcess.mp ht
      rw [hrow]
      exact ⟨host, (Hosts.mem_withName.mp hhost).1, rfl⟩

/-- Such a log is found by its key. -/
theorem Joined.getLogById_ne_nil {s : Store c} (h : Joined s) {l : Nat × LogRow} (hl : l ∈ s.logs.rows) :
    getLogById s l.1 ≠ [] := by
  obtain ⟨host, hhost, hkey⟩ := h l hl
  rw [getLogById, s.logs.filter_key hl, List.flatMap_singleton, ← hkey, s.hosts.filter_key hhost]
  exact List.cons_ne_nil _ _

end joins

namespace SearchIndexes
variable {strict : Bool} {unixTimestamp : Datetime → Nat} {s : SearchIndexes c} {as : List IndexAction}

theorem joined_step {s t : SearchIndexes c} {a : IndexAction} (hs : Joined s.store)
    (h : step strict unixTimestamp s a = some t) : Joined t.store := by
  cases a with
  | call a =>
    obtain rfl := Option.some.inj h
    exact hs.call a
  | dropPartitions dropped =>
    obtain rfl := Option.some.inj h
    exact fun l hl => hs l (List.mem_filter.mp hl).1
  | mainPre =>
    simp only [step] at h
    split at h
    · obtain rfl := Option.some.inj h
      unfold replaceCounter
      split
      · exact hs
      · cases strict <;> exact hs
    · cases h
  | mainQuery | mainRotate | mainFail | deltaQuery | deltaRotate | deltaFail =>
    simp only [step] at h
    split at h <;> cases h
    all_goals exact hs

theorem joined_run (h : Run (step strict unixTimestamp) initial as s) : Joined s.store :=
  h.invariant (I := fun s => Joined s.store) (fun _ _ _ hs ha => joined_step hs ha)
    fun _ hl => absurd hl List.not_mem_nil

/-- A document of either index with the key of a log is the log's own one. -/
theorem eq_document_of_docId (hs : Invariant unixTimestamp s) {l : Nat × LogRow} (hl : l ∈ s.store.logs.rows)
    {d : Document} (hd : d ∈ s.served) (hsame : d.docId = l.1) : d = document unixTimestamp l := by
  rcases List.mem_append.mp hd with hmain | hdelta
  · exact hs.main.eq_of_key docId_document hl (List.mem_filter.mp hmain).1 hsame
  · exact hs.delta.eq_of_key docId_document hl hdelta hsame

/-- What is in one of the indexes is served. -/
theorem mem_served (hs : Invariant unixTimestamp s) {l : Nat × LogRow} (hl : l ∈ s.store.logs.rows)
    (h : document unixTimestamp l ∈ s.main ∨ document unixTimestamp l ∈ s.delta) : document unixTimestamp l ∈ s.served := by
  by_cases hdelta : l.1 ∈ s.delta.map (·.docId)
  · obtain ⟨d, hd, hsame⟩ := List.mem_map.mp hdelta
    rw [← hs.delta.eq_of_key docId_document hl hd hsame]
    exact List.mem_append_right _ hd
  · rcases h with hmain | hdelta'
    · exact List.mem_append_left _ (List.mem_filter.mpr ⟨hmain, decide_eq_true hdelta⟩)
    · exact List.mem_append_right _ hdelta'

theorem docId_lt_of_served (hs : Invariant unixTimestamp s) {d : Document} (hd : d ∈ s.served) :
    d.docId < s.store.logs.autoIncrement := by
  have hcopies {first last : Nat} {docs : List Document}
      (h : Copies (document unixTimestamp) s.store.logs first last docs) (hd : d ∈ docs) : d.docId < last := by
    obtain ⟨rows, hrows, rfl⟩ := h
    obtain ⟨l, hl, rfl⟩ := List.mem_map.mp hd
    exact (hrows.marks l hl).2
  rcases List.mem_append.mp hd with hmain | hdelta
  · exact Nat.lt_of_lt_of_le (hcopies hs.main (List.mem_filter.mp hmain).1) (Nat.le_trans hs.mainMark_le hs.counted_le)
  · exact Nat.lt_of_lt_of_le (hcopies hs.delta hdelta) hs.deltaLast_le

/-- When the delta is queried under the counter of the main index only, a search shows each log
that was in the table at the query of the delta in place exactly when its filters select the
log, once and as it is in the database, whatever runs and calls have followed. -/
theorem search_shows_saved_logs (h : Run (step strict unixTimestamp) initial as s)
    (hqueries : AllSteps (step strict unixTimestamp) (Orderly (c := c)) initial as)
    {fulltext : Text → Document → Bool} {client : SphinxClient} (hserves : Serves fulltext s.served client)
    (engine : Sorter logDateDesc) {filter : SearchFilter} (hrange : filter.HasRange) {limit : Int} (hlimit : 0 < limit)
    (hcount : ((s.served.filter ((filter.sphinxQuery 0 limit).selects fulltext)).length : Int) ≤ min limit 1000)
    (hkeys : s.store.logs.autoIncrement ≤ 2 ^ 32) :
    ∃ logs, search client engine s.store filter 0 limit = .ok logs ∧ logs.Pairwise logDateDesc ∧
      (logs.map (·.logId)).Nodup ∧ (∀ r ∈ logs, r ∈ getLogById s.store r.logId) ∧
      ∀ l ∈ s.store.logs.rows, l.1 < s.deltaLast → (l.1 ∈ logs.map (·.logId) ↔
        (filter.sphinxQuery 0 limit).selects fulltext (document unixTimestamp l) = true) := by
  have hs := invariant_run h
  obtain ⟨ids, hsearch, hids⟩ := hserves.searchIndex_eq hrange hlimit (by omega)
  have hfound {id : Nat} : id ∈ ids ↔
      ∃ d ∈ s.served, (filter.sphinxQuery 0 limit).selects fulltext d = true ∧ d.docId = id := by
    rw [hids.mem_iff, List.mem_map]
    constructor
    · rintro ⟨d, hd, rfl⟩
      obtain ⟨hserved, hselected⟩ := List.mem_filter.mp hd
      exact ⟨d, hserved, hselected, rfl⟩
    · rintro ⟨d, hserved, hselected, rfl⟩
      exact ⟨d, List.mem_filter.mpr ⟨hserved, hselected⟩, rfl⟩
  have hlength : ids.length ≤ 1000 := by
    rw [hids.length_eq, List.length_map]
    omega
  have hsmall : ∀ id ∈ ids, id < 2 ^ 32 := by
    intro id hid
    obtain ⟨d, hd, -, rfl⟩ := hfound.mp hid
    exact Nat.lt_of_lt_of_le (docId_lt_of_served hs hd) hkeys
  have hperm := engine.perm (selectByIds s.store ids)
  refine ⟨_, search_of_ids engine hsearch hlength hsmall, engine.sorted _, ?_, fun r hr => ?_, fun l hl hsaved => ?_⟩
  · exact (hperm.map _).nodup_iff.mpr (nodup_selectByIds ids)
  · exact (mem_selectByIds.mp (hperm.mem_iff.mp hr)).2
  · rw [(hperm.map _).mem_iff]
    constructor
    · intro hmem
      obtain ⟨r, hr, hid⟩ := List.mem_map.mp hmem
      obtain ⟨d, hd, hselected, hsame⟩ := hfound.mp (hid ▸ (mem_selectByIds.mp hr).1)
      rwa [← eq_document_of_docId hs hl hd hsame]
    · intro hselected
      have hserved := mem_served hs hl (indexed_of_orderly h hqueries hl hsaved)
      obtain ⟨r, hr⟩ := List.exists_mem_of_ne_nil _ ((joined_run h).getLogById_ne_nil hl)
      have hid : r.logId = l.1 := by
        obtain ⟨l', hl', hjoin⟩ := List.mem_flatMap.mp hr
        obtain ⟨-, -, rfl⟩ := List.mem_map.mp hjoin
        exact of_decide_eq_true (List.mem_filter.mp hl').2
      refine List.mem_map.mpr ⟨r, mem_selectByIds.mpr ⟨?_, by rwa [hid]⟩, hid⟩
      rw [hid]
      exact hfound.mpr ⟨_, hserved, hselected, rfl⟩

section sample

def firstDayFilter : SearchFilter := ⟨some 0, some 86400000, none, none, none, none⟩

theorem first_log_shown : ∃ (s : SearchIndexes Collation.binary) (logs : List LogResult),
    search (servingDaemon (fun _ _ => true) s.served) (Sorter.insertion logDateDesc) s.store firstDayFilter 0 25 = .ok logs ∧
      s.store.logs.rows.length = 2 ∧ 1 ∈ logs.map (·.logId) := by
  have hrun : ∃ s : SearchIndexes Collation.binary, exec (step true zeroTimestamp) initial bothIndexes = some s ∧
      (1, logRow logOfH.toLogColumns 1 0) ∈ s.store.logs.rows ∧ 1 < s.deltaLast ∧ s.store.logs.rows.length = 2 ∧
        s.served.length = 2 ∧ s.store.logs.autoIncrement = 3 := ⟨_, rfl, List.mem_cons_self, by decide, rfl, rfl, rfl⟩
  obtain ⟨s, hexec, hl, hsaved, htwo, hserved, hcounter⟩ := hrun
  have hcount : ((s.served.filter ((firstDayFilter.sphinxQuery 0 25).selects fun _ _ => true)).length : Int) ≤ min 25 1000 := by
    have hle := List.length_filter_le ((firstDayFilter.sphinxQuery 0 25).selects fun _ _ => true) s.served
    omega
  obtain ⟨logs, hsearch, -, -, -, hshown⟩ := search_shows_saved_logs (exec_eq_some_iff.mp hexec) (by decide)
    (serves_servingDaemon (fun _ _ => true) s.served) (Sorter.insertion logDateDesc)
    ⟨0, 86400000, rfl, rfl, by decide⟩ (by decide) hcount (by omega)
  exact ⟨s, logs, hsearch, htwo, (hshown _ hl hsaved).mpr (by decide)⟩

end sample
end SearchIndexes
end Srvlog.Search
