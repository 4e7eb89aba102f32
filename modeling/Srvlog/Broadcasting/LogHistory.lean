import Srvlog.Broadcasting.InMemoryLogStorage
import Srvlog.Data.LogData
import Srvlog.Library.ConcurrentMap
import Mathlib.Data.List.Dedup
import Mathlib.Data.PNat.Defs

/-! The logs that the broadcasting service retains: one storage for every host and
program, created with the first log, and queried by lists of hosts and programs. -/
namespace Srvlog.Broadcasting
open Library Data InMemoryLogStorage

abbrev HostLogStorage := ConcurrentMap Text (InMemoryLogStorage LogData)
abbrev LogStorage := ConcurrentMap Text HostLogStorage

/-- The first part of `handleReceivedLogData`: a log without host or program is ignored. -/
def storeLogData (programLogStorageCapacity : ℕ+) (logStorage : LogStorage) (logData : LogData) : LogStorage :=
  match logData.host, logData.program with
  | some host, some program =>
    let hostLogStorage := (logStorage.lookup host).getD ∅
    let programLogList := (hostLogStorage.lookup program).getD
      (InMemoryLogStorage.new programLogStorageCapacity programLogStorageCapacity.pos)
    logStorage.insert host (hostLogStorage.insert program (programLogList.add logData))
  | _, _ => logStorage

def getLogDataListByHostAndProgram (logStorage : LogStorage) (host program : Text) : Option (List LogData) :=
  match logStorage.lookup host with
  | some hostLogStorage => match hostLogStorage.lookup program with
    | some programLogStorage => programLogStorage.asLogList LogData.date
    | none => some []
  | none => some []

/-- The lists may contain nulls, which no key equals. The hosts are visited in some
order, each of them adding the lists of its programs. -/
def getLogDataListByHostsAndPrograms (order : VisitOrder Text) (logStorage : LogStorage)
    (hosts programs : List (Option Text)) : Option (List LogData) := do
  let programsLogLists ← ((order.visit logStorage).filter fun entry => decide (some entry.1 ∈ hosts)).mapM
    fun entry => ((order.visit entry.2).filter fun entry => decide (some entry.1 ∈ programs)).mapM
      fun entry => entry.2.asLogList LogData.date
  sortByDate LogData.date programsLogLists.flatten.flatten

def isFrom (host program : Text) (logData : LogData) : Bool :=
  decide (logData.host = some host ∧ logData.program = some program)

/-- The logs that are kept of a host and program: the newest ones it has sent. -/
def retained (capacity : ℕ+) (logs : List LogData) (host program : Text) : List LogData :=
  (logs.filter (isFrom host program)).rtake capacity

/-- The logs that a query asks for, each pair of the lists taken once. -/
def retainedOf (capacity : ℕ+) (logs : List LogData) (hosts programs : List (Option Text)) : List LogData :=
  hosts.reduceOption.dedup.flatMap fun host =>
    programs.reduceOption.dedup.flatMap fun program => retained capacity logs host program

section storages

/-- The storage of a host and program, if there is one. -/
def programStorage (m : LogStorage) (host program : Text) : Option (InMemoryLogStorage LogData) :=
  (m.lookup host).bind fun hostLogStorage => hostLogStorage.lookup program

theorem lookup_getD_empty (m : LogStorage) (host program : Text) :
    ((m.lookup host).getD ∅).lookup program = programStorage m host program := by
  rw [programStorage]
  cases m.lookup host with
  | none => rfl
  | some _ => rfl

/-- A log changes the storage of its own host and program only. -/
theorem programStorage_storeLogData (capacity : ℕ+) (m : LogStorage) (x : LogData) (host program : Text) :
    programStorage (storeLogData capacity m x) host program =
      if isFrom host program x then
        some (((programStorage m host program).getD (InMemoryLogStorage.new capacity capacity.pos)).add x)
      else programStorage m host program := by
  unfold storeLogData
  split
  · next host' program' hhost hprogram =>
    by_cases hh : host = host'
    · subst hh
      rw [programStorage, AList.lookup_insert, Option.bind_some]
      by_cases hp : program = program'
      · subst hp
        have hfrom : isFrom host program x = true := decide_eq_true ⟨hhost, hprogram⟩
        rw [AList.lookup_insert, lookup_getD_empty, if_pos hfrom]
      · have hne : ¬ isFrom host program x = true := by simp [isFrom, hprogram, Ne.symm hp]
        rw [AList.lookup_insert_ne hp, lookup_getD_empty, if_neg hne]
    · have hne : ¬ isFrom host program x = true := by simp [isFrom, hhost, Ne.symm hh]
      rw [programStorage, AList.lookup_insert_ne hh, if_neg hne, programStorage]
  · next hnull =>
    rw [if_neg]
    intro hfrom
    obtain ⟨hhost, hprogram⟩ := of_decide_eq_true hfrom
    exact hnull host program hhost hprogram

/-- A storage, where there is one, has received the given logs; else there are none. -/
def StoredAt (capacity : ℕ+) (logs : List LogData) : Option (InMemoryLogStorage LogData) → Prop
  | some s => s.bufferSize = capacity ∧ s.Holds logs
  | none => logs = []

theorem StoredAt.add {capacity : ℕ+} {logs : List LogData} {s : Option (InMemoryLogStorage LogData)}
    (h : StoredAt capacity logs s) (x : LogData) :
    StoredAt capacity (logs ++ [x])
      (some ((s.getD (InMemoryLogStorage.new capacity capacity.pos)).add x)) := by
  cases s with
  | none =>
    rw [StoredAt] at h
    subst h
    exact ⟨by simp, (InMemoryLogStorage.holds_new _ capacity.pos).add x⟩
  | some s => exact ⟨by simpa using h.1, h.2.add x⟩

/-- Each storage has received the logs of its host and program, in order. -/
def Stored (capacity : ℕ+) (m : LogStorage) (logs : List LogData) : Prop :=
  ∀ host program, StoredAt capacity (logs.filter (isFrom host program)) (programStorage m host program)

theorem stored_empty (capacity : ℕ+) : Stored capacity ∅ [] := fun _ _ => rfl

theorem Stored.store {capacity : ℕ+} {m : LogStorage} {logs : List LogData} (h : Stored capacity m logs)
    (x : LogData) : Stored capacity (storeLogData capacity m x) (logs ++ [x]) := by
  intro host program
  rw [List.filter_append, programStorage_storeLogData, List.filter_singleton]
  cases isFrom host program x with
  | true => exact (h host program).add x
  | false =>
    rw [cond_false, List.append_nil]
    exact h host program

/-- The storages after the given logs, received one after the other. -/
def received (capacity : ℕ+) (logs : List LogData) : LogStorage := logs.foldl (storeLogData capacity) ∅

theorem stored_received (capacity : ℕ+) (logs : List LogData) : Stored capacity (received capacity logs) logs := by
  induction logs using List.reverseRecOn with
  | nil => exact stored_empty capacity
  | append_singleton logs x ih =>
    rw [received, List.foldl_append]
    exact ih.store x

end storages

section queries
variable {capacity : ℕ+} {m : LogStorage} {logs : List LogData}

private theorem mapM_eq_some_map {α β : Type} {f : α → Option β} {g : α → β} {l : List α}
    (h : ∀ x ∈ l, f x = some (g x)) : l.mapM f = some (l.map g) := by
  induction l with
  | nil => rfl
  | cons x l ih =>
    rw [List.mapM_cons, h x List.mem_cons_self, ih fun y hy => h y (List.mem_cons_of_mem _ hy)]
    rfl

private theorem map_eq_of_mapM {α β : Type} {f : α → Option β} {g : α → β} {l : List α} {r : List β}
    (h : l.mapM f = some r) (hg : ∀ x y, f x = some y → y = g x) : r = l.map g := by
  induction l generalizing r with
  | nil => exact (Option.some.inj h).symm
  | cons x l ih =>
    rw [List.mapM_cons] at h
    obtain ⟨y, hy, h⟩ := Option.bind_eq_some_iff.mp h
    obtain ⟨ys, hys, h⟩ := Option.bind_eq_some_iff.mp h
    obtain rfl := Option.some.inj h
    rw [List.map_cons, ← hg x y hy, ← ih hys]

/-- The lists that a query collects, before they are sorted together. -/
def collected (order : VisitOrder Text) (m : LogStorage) (hosts programs : List (Option Text)) : List LogData :=
  ((order.visit m).filter fun entry => decide (some entry.1 ∈ hosts)).flatMap fun entry =>
    ((order.visit entry.2).filter fun entry => decide (some entry.1 ∈ programs)).flatMap fun entry =>
      entry.2.sortedLogs LogData.date

private theorem flatten_collected (order : VisitOrder Text) (m : LogStorage) (hosts programs : List (Option Text)) :
    (((order.visit m).filter fun entry => decide (some entry.1 ∈ hosts)).map fun entry =>
      ((order.visit entry.2).filter fun entry => decide (some entry.1 ∈ programs)).map fun entry =>
        entry.2.sortedLogs LogData.date).flatten.flatten = collected order m hosts programs := by
  simp only [collected, List.flatMap_def, List.flatten_flatten, List.map_map, Function.comp_def]

/-- A query that does not throw sorts what it has collected. -/
theorem query_eq_some {order : VisitOrder Text} {hosts programs : List (Option Text)} {l : List LogData}
    (h : getLogDataListByHostsAndPrograms order m hosts programs = some l) :
    l = (collected order m hosts programs).insertionSort (dateLe LogData.date) := by
  obtain ⟨lists, hlists, h⟩ := Option.bind_eq_some_iff.mp h
  have hread := map_eq_of_mapM hlists fun _ _ hinner => map_eq_of_mapM hinner fun _ _ => asLogList_eq_some
  rw [hread, flatten_collected] at h
  exact sortByDate_eq_some _ h

theorem programStorage_eq_some {hs : HostLogStorage} {host program : Text} {s : InMemoryLogStorage LogData}
    (hh : (⟨host, hs⟩ : Sigma fun _ : Text => HostLogStorage) ∈ m.entries)
    (hp : (⟨program, s⟩ : Sigma fun _ : Text => InMemoryLogStorage LogData) ∈ hs.entries) :
    programStorage m host program = some s := by
  rw [programStorage, AList.mem_lookup_iff.mpr hh, Option.bind_some, AList.mem_lookup_iff.mpr hp]

theorem StoredAt.sortedLogs_perm {s : InMemoryLogStorage LogData} (h : StoredAt capacity logs (some s)) :
    (s.sortedLogs LogData.date).Perm (logs.rtake capacity) := h.1 ▸ h.2.sortedLogs_perm LogData.date

theorem StoredAt.asLogList {s : InMemoryLogStorage LogData} (h : StoredAt capacity logs (some s))
    (hdates : ∀ x ∈ logs, x.date ≠ none) : s.asLogList LogData.date = some (s.sortedLogs LogData.date) :=
  asLogList_of_dates fun x hx => hdates x (List.mem_of_mem_drop (h.2.perm.mem_iff.mp hx))

private theorem mem_names {V : Type} (names : List (Option Text)) (entry : Sigma fun _ : Text => V) :
    decide (some entry.1 ∈ names) = true ↔ entry.1 ∈ names.reduceOption.dedup := by
  rw [decide_eq_true_eq, List.mem_dedup, List.reduceOption_mem_iff]

private theorem mem_name {V : Type} (name : Text) (entry : Sigma fun _ : Text => V) :
    decide (some entry.1 ∈ [some name]) = true ↔ entry.1 = name := by simp

theorem collected_perm (h : Stored capacity m logs) (order : VisitOrder Text) (hosts programs : List (Option Text)) :
    (collected order m hosts programs).Perm (retainedOf capacity logs hosts programs) := by
  refine (visit_filter_perm order m (List.nodup_dedup _) (mem_names hosts) _).trans
    (List.Perm.flatMap_left _ fun host _ => ?_)
  have hat : ∀ program, StoredAt capacity (logs.filter (isFrom host program)) (programStorage m host program) :=
    h host
  unfold programStorage at hat
  cases hh : m.lookup host with
  | none =>
    rw [hh] at hat
    have hnil : ∀ program, retained capacity logs host program = [] := by
      intro program
      rw [retained, hat program, List.rtake_nil]
    simp [hnil]
  | some hs =>
    rw [hh] at hat
    rw [Option.toList_some, List.flatMap_singleton]
    refine (visit_filter_perm order hs (List.nodup_dedup _) (mem_names programs) _).trans
      (List.Perm.flatMap_left _ fun program _ => ?_)
    have hat := hat program
    rw [Option.bind_some] at hat
    cases hp : hs.lookup program with
    | none =>
      rw [hp] at hat
      rw [retained, hat, List.rtake_nil]
      exact .nil
    | some s =>
      rw [hp] at hat
      rw [Option.toList_some, List.flatMap_singleton]
      exact hat.sortedLogs_perm

/-- What a query returns, unless it throws: the retained logs of all pairs, sorted by date. -/
theorem query_spec (h : Stored capacity m logs) {order : VisitOrder Text} {hosts programs : List (Option Text)}
    {l : List LogData} (hl : getLogDataListByHostsAndPrograms order m hosts programs = some l) :
    l.Perm (retainedOf capacity logs hosts programs) ∧ l.Pairwise (dateLe LogData.date) := by
  rw [query_eq_some hl]
  exact ⟨(List.perm_insertionSort _ _).trans (collected_perm h order hosts programs), List.pairwise_insertionSort _ _⟩

theorem dates_of_retained (hdates : ∀ x ∈ logs, x.date ≠ none) {hosts programs : List (Option Text)} :
    ∀ x ∈ retainedOf capacity logs hosts programs, x.date ≠ none := by
  intro x hx
  obtain ⟨host, _, hx⟩ := List.mem_flatMap.mp hx
  obtain ⟨program, _, hx⟩ := List.mem_flatMap.mp hx
  exact hdates x (List.mem_filter.mp (List.mem_of_mem_drop hx)).1

/-- With dates no query throws. -/
theorem query_of_dates (h : Stored capacity m logs) (hdates : ∀ x ∈ logs, x.date ≠ none)
    (order : VisitOrder Text) (hosts programs : List (Option Text)) :
    getLogDataListByHostsAndPrograms order m hosts programs =
      some ((collected order m hosts programs).insertionSort (dateLe LogData.date)) := by
  have hread : ∀ entry ∈ (order.visit m).filter fun entry => decide (some entry.1 ∈ hosts),
      (((order.visit entry.2).filter fun entry => decide (some entry.1 ∈ programs)).mapM
        fun entry => entry.2.asLogList LogData.date) =
      some (((order.visit entry.2).filter fun entry => decide (some entry.1 ∈ programs)).map
        fun entry => entry.2.sortedLogs LogData.date) := by
    rintro ⟨host, hs⟩ hentry
    apply mapM_eq_some_map
    rintro ⟨program, s⟩ hs'
    have hh := (order.perm m).mem_iff.mp (List.mem_filter.mp hentry).1
    have hp := (order.perm hs).mem_iff.mp (List.mem_filter.mp hs').1
    have hat := h host program
    rw [programStorage_eq_some hh hp] at hat
    exact hat.asLogList fun x hx => hdates x (List.mem_filter.mp hx).1
  rw [getLogDataListByHostsAndPrograms, mapM_eq_some_map hread]
  change sortByDate _ _ = _
  rw [flatten_collected]
  exact sortByDate_of_dates _ fun x hx =>
    dates_of_retained hdates x ((collected_perm h order hosts programs).mem_iff.mp hx)

/-- The query of one host and program is the query of the lists with just these. -/
theorem query_singleton (h : Stored capacity m logs) (hdates : ∀ x ∈ logs, x.date ≠ none)
    (order : VisitOrder Text) (host program : Text) :
    getLogDataListByHostsAndPrograms order m [some host] [some program] =
      getLogDataListByHostAndProgram m host program := by
  rw [query_of_dates h hdates, collected, visit_filter_key order m (mem_name host),
    getLogDataListByHostAndProgram]
  have hat := h host program
  rw [programStorage] at hat
  cases hh : m.lookup host with
  | none => rfl
  | some hs =>
    rw [Option.toList_some, List.map_singleton, List.flatMap_singleton,
      visit_filter_key order hs (mem_name program)]
    dsimp only
    rw [hh, Option.bind_some] at hat
    cases hp : hs.lookup program with
    | none => rfl
    | some s =>
      rw [hp] at hat
      rw [Option.toList_some, List.map_singleton, List.flatMap_singleton]
      change some ((s.sortedLogs LogData.date).insertionSort _) = s.asLogList LogData.date
      rw [hat.asLogList fun x hx => hdates x (List.mem_filter.mp hx).1, (pairwise_sortedLogs _ s).insertionSort_eq]

end queries

theorem storeLogData_of_null {capacity : ℕ+} {m : LogStorage} {x : LogData}
    (h : (x.host.isSome && x.program.isSome) = false) : storeLogData capacity m x = m := by
  unfold storeLogData
  split
  · next hhost hprogram => simp [hhost, hprogram] at h
  · rfl

private theorem received_filter (capacity : ℕ+) (logs : List LogData) :
    received capacity logs = received capacity
      (logs.filter fun x => x.host.isSome && x.program.isSome) := by
  induction logs using List.reverseRecOn with
  | nil => rfl
  | append_singleton logs x ih =>
    rw [List.filter_append, received, received, List.foldl_append, List.foldl_append, ← received, ← received, ← ih,
      List.filter_singleton]
    cases hnamed : x.host.isSome && x.program.isSome with
    | true => rfl
    | false => exact storeLogData_of_null hnamed

/-- After any logs a query returns, whatever the order in which the maps are visited, the
newest logs of every pair of its lists, sorted by date. Logs without host or program leave
no trace, the query of one pair agrees with the query of its lists, and two orders give
the same logs with the same sequence of dates. -/
theorem queries_return_newest_logs (capacity : ℕ+) {logs : List LogData} (hdates : ∀ x ∈ logs, x.date ≠ none)
    (hosts programs : List (Option Text)) :
    (∀ order, ∃ l, getLogDataListByHostsAndPrograms order (received capacity logs) hosts programs = some l ∧
      l.Perm (retainedOf capacity logs hosts programs) ∧ l.Pairwise (dateLe LogData.date)) ∧
    received capacity logs = received capacity (logs.filter fun x => x.host.isSome && x.program.isSome) ∧
    (∀ order host program, getLogDataListByHostsAndPrograms order (received capacity logs) [some host] [some program] =
      getLogDataListByHostAndProgram (received capacity logs) host program) ∧
    (∀ order order' l l', getLogDataListByHostsAndPrograms order (received capacity logs) hosts programs = some l →
      getLogDataListByHostsAndPrograms order' (received capacity logs) hosts programs = some l' →
      l.Perm l' ∧ l.map LogData.date = l'.map LogData.date) := by
  have hstored := stored_received capacity logs
  refine ⟨fun order => ⟨_, query_of_dates hstored hdates order hosts programs, query_spec hstored
    (query_of_dates hstored hdates order hosts programs)⟩, received_filter capacity logs,
    fun order host program => query_singleton hstored hdates order host program, ?_⟩
  intro order order' r r' hr hr'
  obtain ⟨hperm, hsorted⟩ := query_spec hstored hr
  obtain ⟨hperm', hsorted'⟩ := query_spec hstored hr'
  have hsame := hperm.trans hperm'.symm
  have hle : (r.map LogData.date).Pairwise fun a b => a.getD 0 ≤ b.getD 0 := List.pairwise_map.mpr hsorted
  have hle' : (r'.map LogData.date).Pairwise fun a b => a.getD 0 ≤ b.getD 0 := List.pairwise_map.mpr hsorted'
  refine ⟨hsame, List.Perm.eq_of_pairwise (fun a b ha hb hab hba => ?_) hle hle' (hsame.map LogData.date)⟩
  obtain ⟨x, hx, rfl⟩ := List.mem_map.mp ha
  obtain ⟨y, hy, rfl⟩ := List.mem_map.mp hb
  obtain ⟨i, hi⟩ := Option.ne_none_iff_exists'.mp (dates_of_retained hdates x (hperm.mem_iff.mp hx))
  obtain ⟨j, hj⟩ := Option.ne_none_iff_exists'.mp (dates_of_retained hdates y (hperm'.mem_iff.mp hy))
  rw [hi, hj, Option.getD_some, Option.getD_some] at hab hba
  rw [hi, hj, le_antisymm hab hba]

def logAt (date : Int) (host program : Text) : LogData :=
  ⟨some date, some host, some 4, some 6, some "opened".toList, none, some program, none⟩

/-- The third log of host `a` and program `p` takes the place of their first one. -/
def sampleLogs : List LogData :=
  [logAt 5 ['a'] ['p'], logAt 3 ['b'] ['p'], logAt 4 ['a'] ['p'], logAt 1 ['a'] ['q'], logAt 2 ['a'] ['p'], logAt 6 ['b'] ['q']]

theorem newest_logs_queried : ∃ l,
    getLogDataListByHostsAndPrograms .stored (received 2 sampleLogs) [some ['a'], some ['b']] [some ['p'], some ['q']] =
      some l ∧ l.Perm (retainedOf 2 sampleLogs [some ['a'], some ['b']] [some ['p'], some ['q']]) ∧
      l.Pairwise (dateLe LogData.date) ∧ l.map LogData.date = [some 1, some 2, some 3, some 4, some 6] := by
  have hdates : ∀ x ∈ sampleLogs, x.date ≠ none := by decide
  have hdated : (getLogDataListByHostsAndPrograms .stored (received 2 sampleLogs) [some ['a'], some ['b']]
      [some ['p'], some ['q']]).map (List.map LogData.date) = some [some 1, some 2, some 3, some 4, some 6] := by decide
  obtain ⟨l, hl, hperm, hsorted⟩ :=
    (queries_return_newest_logs 2 hdates [some ['a'], some ['b']] [some ['p'], some ['q']]).1 .stored
  rw [hl] at hdated
  exact ⟨l, hl, hperm, hsorted, Option.some.inj hdated⟩

/-- Two hosts with logs of one date: the order of the visits is the order of the result. -/
theorem equal_dates_keep_visit_order :
    getLogDataListByHostsAndPrograms .stored (received 1 [logAt 0 "a".toList "p".toList, logAt 0 "b".toList "p".toList])
        [some "a".toList, some "b".toList] [some "p".toList] =
      some [logAt 0 "b".toList "p".toList, logAt 0 "a".toList "p".toList] ∧
    getLogDataListByHostsAndPrograms .reversed (received 1 [logAt 0 "a".toList "p".toList, logAt 0 "b".toList "p".toList])
        [some "a".toList, some "b".toList] [some "p".toList] =
      some [logAt 0 "a".toList "p".toList, logAt 0 "b".toList "p".toList] := by decide

end Srvlog.Broadcasting
