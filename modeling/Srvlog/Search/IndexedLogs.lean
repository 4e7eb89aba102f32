import Srvlog.Database.LogIdentifiers
import Srvlog.Search.SearchIndexes

/-! Which logs the two indexes have, over every interleaving of the application, the
maintenance of the partitions and the runs of the indexer. -/
namespace Srvlog.Search
open Library Database
variable {c : Collation}

/-- No call changes a log or gives a key out twice. -/
theorem follows_saveLog (s : Store c) (p : LogParameters) : s.logs.Follows (saveLog s p).2.logs := by
  rcases saveLog_cases s p with ⟨hostId, -, hsave⟩ | ⟨-, hsave⟩
  · rw [hsave]
    exact s.logs.follows_insert _
  · rw [hsave]
    exact .refl _

theorem follows_call (s : Store c) (a : StoreCall) : s.logs.Follows (s.call a).logs := by
  cases a with
  | saveLog p => exact follows_saveLog s p
  | saveHost hostname ip =>
    change s.logs.Follows (saveHost s hostname ip).logs
    rcases saveHost_cases s hostname ip with hsave | ⟨hosts, hsave, -⟩
    all_goals
      rw [hsave]
      exact .refl _
  | saveUnprocessed => exact s.logs.follows_insertAll _
  | processOssecSnortMessage p date identifier => exact follows_saveLog s p

namespace SearchIndexes
variable {strict : Bool} {unixTimestamp : Datetime → Nat}

theorem docId_document (l : Nat × LogRow) : (document unixTimestamp l).docId = l.1 := rfl

section invariant

/-- What a run over the main source has got so far. -/
def MainRunSound (unixTimestamp : Datetime → Nat) (s : SearchIndexes c) : MainRun → Prop
  | .idle => True
  | .counted => s.maxDocId.isSome = true
  | .collected docs => Copies (document unixTimestamp) s.store.logs 0 s.counted docs

def DeltaRunSound (unixTimestamp : Datetime → Nat) (s : SearchIndexes c) : DeltaRun → Prop
  | .idle => True
  | .collected docs first last =>
    Copies (document unixTimestamp) s.store.logs first last docs ∧ last ≤ s.store.logs.autoIncrement

/-- The counter separates the logs that were there at its replacement from the later ones, and
both indexes are copies of the logs between their marks. -/
structure Invariant (unixTimestamp : Datetime → Nat) (s : SearchIndexes c) : Prop where
  started : 0 < s.store.logs.autoIncrement
  counter : ∀ maxDocId, s.maxDocId = some maxDocId →
    maxDocId < s.counted ∧ ∀ l ∈ s.store.logs.rows, l.1 ≤ maxDocId ↔ l.1 < s.counted
  counted_le : s.counted ≤ s.store.logs.autoIncrement
  mainMark_le : s.mainMark ≤ s.counted
  main : Copies (document unixTimestamp) s.store.logs 0 s.mainMark s.main
  delta : Copies (document unixTimestamp) s.store.logs s.deltaFirst s.deltaLast s.delta
  deltaLast_le : s.deltaLast ≤ s.store.logs.autoIncrement
  mainRun : MainRunSound unixTimestamp s s.mainRun
  deltaRun : DeltaRunSound unixTimestamp s s.deltaRun

theorem invariant_initial : Invariant unixTimestamp (initial : SearchIndexes c) where
  started := Nat.one_pos
  counter := by rintro _ ⟨⟩
  counted_le := Nat.zero_le _
  mainMark_le := Nat.le_refl _
  main := .nil _ _
  delta := .nil _ _
  deltaLast_le := Nat.zero_le _
  mainRun := trivial
  deltaRun := trivial

/-- What the application or the maintenance does to the logs. -/
theorem Invariant.follows {s : SearchIndexes c} (hs : Invariant unixTimestamp s) {store : Store c}
    (h : s.store.logs.Follows store.logs) : Invariant unixTimestamp { s with store := store } where
  started := Nat.lt_of_lt_of_le hs.started h.counter
  counter maxDocId hmax := by
    obtain ⟨hlt, hsplit⟩ := hs.counter maxDocId hmax
    refine ⟨hlt, fun l hl => ?_⟩
    by_cases hold : l.1 < s.store.logs.autoIncrement
    · exact hsplit l (h.kept l hl hold)
    · have hcounted := hs.counted_le
      dsimp only
      omega
  counted_le := Nat.le_trans hs.counted_le h.counter
  mainMark_le := hs.mainMark_le
  main := hs.main.follows (Nat.le_trans hs.mainMark_le hs.counted_le) h
  delta := hs.delta.follows hs.deltaLast_le h
  deltaLast_le := Nat.le_trans hs.deltaLast_le h.counter
  mainRun := by
    have hmain := hs.mainRun
    dsimp only
    cases hrun : s.mainRun with
    | idle => trivial
    | counted =>
      rw [hrun] at hmain
      exact hmain
    | collected docs =>
      rw [hrun] at hmain
      exact Copies.follows hmain hs.counted_le h
  deltaRun := by
    have hdelta := hs.deltaRun
    dsimp only
    cases hrun : s.deltaRun with
    | idle => trivial
    | collected docs first last =>
      rw [hrun] at hdelta
      exact ⟨hdelta.1.follows hdelta.2 h, Nat.le_trans hdelta.2 h.counter⟩

/-- The replacement of the counter, by the largest key that there is. -/
theorem Invariant.replaceCounter {s : SearchIndexes c} (hs : Invariant unixTimestamp s) :
    Invariant unixTimestamp (replaceCounter strict s) := by
  have hreplaced (maxLogId : Nat) (hlt : maxLogId < s.store.logs.autoIncrement)
      (hmax : ∀ l ∈ s.store.logs.rows, l.1 ≤ maxLogId) : Invariant unixTimestamp
        { s with maxDocId := some maxLogId, counted := s.store.logs.autoIncrement, mainRun := .counted } :=
    { started := hs.started
      counter := by
        rintro _ ⟨⟩
        exact ⟨hlt, fun l hl => ⟨fun _ => s.store.logs.fresh l hl, fun _ => hmax l hl⟩⟩
      counted_le := Nat.le_refl _
      mainMark_le := Nat.le_trans hs.mainMark_le hs.counted_le
      main := hs.main
      delta := hs.delta
      deltaLast_le := hs.deltaLast_le
      mainRun := rfl
      deltaRun := by
        have hdelta := hs.deltaRun
        dsimp only
        cases hrun : s.deltaRun with
        | idle => trivial
        | collected docs first last =>
          rw [hrun] at hdelta
          exact hdelta }
  unfold SearchIndexes.replaceCounter
  cases hmax : (s.store.logs.rows.map Prod.fst).max? with
  | some maxLogId =>
    obtain ⟨hmem, hle⟩ := List.max?_eq_some_iff.mp hmax
    obtain ⟨l, hl, rfl⟩ := List.mem_map.mp hmem
    exact hreplaced _ (s.store.logs.fresh l hl) fun l' hl' => hle _ (List.mem_map_of_mem hl')
  | none =>
    have hempty : s.store.logs.rows = [] := List.map_eq_nil_iff.mp (List.max?_eq_none_iff.mp hmax)
    cases strict with
    | true => exact hs
    | false =>
      refine hreplaced 0 hs.started fun l hl => ?_
      rw [hempty] at hl
      exact absurd hl List.not_mem_nil

/-- The query of the main source selects the logs that were there at the replacement. -/
theorem Invariant.mainDocuments {s : SearchIndexes c} (hs : Invariant unixTimestamp s) (hcounter : s.maxDocId.isSome = true) :
    Copies (document unixTimestamp) s.store.logs 0 s.counted (mainDocuments unixTimestamp s) := by
  obtain ⟨maxDocId, hmax⟩ := Option.isSome_iff_exists.mp hcounter
  refine Copies.of_select fun l hl => ?_
  rw [hmax, Option.any_some, decide_eq_true_iff, (hs.counter maxDocId hmax).2 l hl]
  exact ⟨fun hlt => ⟨Nat.zero_le _, hlt⟩, And.right⟩

/-- The query of the delta source selects the later ones. -/
theorem Invariant.deltaDocuments {s : SearchIndexes c} (hs : Invariant unixTimestamp s) :
    Copies (document unixTimestamp) s.store.logs (if s.maxDocId.isSome then s.counted else s.store.logs.autoIncrement)
      s.store.logs.autoIncrement (deltaDocuments unixTimestamp s) := by
  refine Copies.of_select fun l hl => ?_
  have hfresh := s.store.logs.fresh l hl
  cases hmax : s.maxDocId with
  | none =>
    rw [Option.any_none, Option.isSome_none, if_neg Bool.false_ne_true]
    exact ⟨by rintro ⟨⟩, fun hmarks => absurd hmarks.1 (Nat.not_le.mpr hmarks.2)⟩
  | some maxDocId =>
    have hsplit := (hs.counter maxDocId hmax).2 l hl
    rw [Option.any_some, Option.isSome_some, if_pos rfl, decide_eq_true_iff]
    omega

theorem invariant_step {s t : SearchIndexes c} {a : IndexAction} (hs : Invariant unixTimestamp s)
    (h : step strict unixTimestamp s a = some t) : Invariant unixTimestamp t := by
  cases a with
  | call a =>
    obtain rfl := Option.some.inj h
    exact hs.follows (follows_call s.store a)
  | dropPartitions dropped =>
    obtain rfl := Option.some.inj h
    exact hs.follows (s.store.logs.follows_deleteWhere _)
  | mainPre =>
    simp only [step] at h
    split at h
    · obtain rfl := Option.some.inj h
      exact hs.replaceCounter
    · cases h
  | mainQuery =>
    simp only [step] at h
    split at h
    · next hcounted =>
      obtain rfl := Option.some.inj h
      have hcounter := hs.mainRun
      rw [hcounted] at hcounter
      exact { hs with mainRun := hs.mainDocuments hcounter }
    · cases h
  | mainRotate =>
    simp only [step] at h
    split at h
    · next docs hcollected =>
      obtain rfl := Option.some.inj h
      have hdocs := hs.mainRun
      rw [hcollected] at hdocs
      exact { hs with mainMark_le := Nat.le_refl _, main := hdocs, mainRun := trivial }
    · cases h
  | mainFail =>
    simp only [step] at h
    split at h
    · cases h
    · obtain rfl := Option.some.inj h
      exact { hs with mainRun := trivial }
  | deltaQuery =>
    simp only [step] at h
    split at h
    · obtain rfl := Option.some.inj h
      exact { hs with deltaRun := ⟨hs.deltaDocuments, Nat.le_refl _⟩ }
    · cases h
  | deltaRotate =>
    simp only [step] at h
    split at h
    · next docs first last hcollected =>
      obtain rfl := Option.some.inj h
      have hdocs := hs.deltaRun
      rw [hcollected] at hdocs
      exact { hs with delta := hdocs.1, deltaLast_le := hdocs.2, deltaRun := trivial }
    · cases h
  | deltaFail =>
    simp only [step] at h
    split at h
    · obtain rfl := Option.some.inj h
      exact { hs with deltaRun := trivial }
    · cases h

theorem invariant_run {s : SearchIndexes c} {as : List IndexAction} (h : Run (step strict unixTimestamp) initial as s) :
    Invariant unixTimestamp s :=
  h.invariant (fun _ _ _ hs ha => invariant_step hs ha) invariant_initial

end invariant

section gaps

/-- No log lies between the main index and the delta, now or after the run that is under way. -/
structure NoGap (s : SearchIndexes c) : Prop where
  indexes : s.deltaFirst ≤ s.mainMark
  deltaRun : ∀ docs first last, s.deltaRun = .collected docs first last → first ≤ s.mainMark

theorem noGap_step {s t : SearchIndexes c} {a : IndexAction} (hmark : s.mainMark ≤ s.counted) (hs : NoGap s)
    (hquery : s.Orderly a) (h : step strict unixTimestamp s a = some t) : NoGap t := by
  cases a with
  | call a | dropPartitions dropped =>
    obtain rfl := Option.some.inj h
    exact ⟨hs.indexes, hs.deltaRun⟩
  | mainPre =>
    simp only [step] at h
    split at h
    · obtain rfl := Option.some.inj h
      have hkept : (replaceCounter strict s).deltaFirst = s.deltaFirst ∧ (replaceCounter strict s).mainMark = s.mainMark ∧
          (replaceCounter strict s).deltaRun = s.deltaRun := by
        unfold replaceCounter
        split
        · exact ⟨rfl, rfl, rfl⟩
        · cases strict <;> exact ⟨rfl, rfl, rfl⟩
      obtain ⟨hfirst, hmain, hrun⟩ := hkept
      refine ⟨?_, ?_⟩
      · rw [hfirst, hmain]
        exact hs.indexes
      · rw [hrun, hmain]
        exact hs.deltaRun
    · cases h
  | mainQuery | mainFail =>
    simp only [step] at h
    split at h <;> cases h
    all_goals exact ⟨hs.indexes, hs.deltaRun⟩
  | mainRotate =>
    simp only [step] at h
    split at h
    · obtain rfl := Option.some.inj h
      exact ⟨Nat.le_trans hs.indexes hmark, fun docs first last hrun => Nat.le_trans (hs.deltaRun docs first last hrun) hmark⟩
    · cases h
  | deltaQuery =>
    simp only [step] at h
    split at h
    · obtain rfl := Option.some.inj h
      obtain ⟨hcounter, hmain⟩ := hquery
      refine ⟨hs.indexes, fun docs first last hrun => ?_⟩
      obtain ⟨-, rfl, -⟩ := DeltaRun.collected.inj hrun
      rw [if_pos hcounter]
      exact Nat.le_of_eq hmain.symm
    · cases h
  | deltaRotate =>
    simp only [step] at h
    split at h
    · next docs first last hcollected =>
      obtain rfl := Option.some.inj h
      exact ⟨hs.deltaRun docs first last hcollected, by rintro _ _ _ ⟨⟩⟩
    · cases h
  | deltaFail =>
    simp only [step] at h
    split at h
    · obtain rfl := Option.some.inj h
      exact ⟨hs.indexes, by rintro _ _ _ ⟨⟩⟩
    · cases h

variable {s : SearchIndexes c} {as : List IndexAction} {l : Nat × LogRow}

theorem mem_main_iff (h : Run (step strict unixTimestamp) initial as s) (hl : l ∈ s.store.logs.rows) :
    document unixTimestamp l ∈ s.main ↔ l.1 < s.mainMark := by
  rw [(invariant_run h).main.mem_iff docId_document hl]
  exact and_iff_right (Nat.zero_le _)

theorem mem_delta_iff (h : Run (step strict unixTimestamp) initial as s) (hl : l ∈ s.store.logs.rows) :
    document unixTimestamp l ∈ s.delta ↔ s.deltaFirst ≤ l.1 ∧ l.1 < s.deltaLast :=
  (invariant_run h).delta.mem_iff docId_document hl

/-- A log is in neither index exactly when it was saved after the replacement of the counter
that the main index in place was built with, and either before the replacement that the query
of the delta in place came after or else after this query. -/
theorem log_missing_iff (h : Run (step strict unixTimestamp) initial as s) (hl : l ∈ s.store.logs.rows) :
    (document unixTimestamp l ∉ s.main ∧ document unixTimestamp l ∉ s.delta) ↔
      s.mainMark ≤ l.1 ∧ (l.1 < s.deltaFirst ∨ s.deltaLast ≤ l.1) := by
  rw [mem_main_iff h hl, mem_delta_iff h hl]
  omega

/-- No log lies between the indexes. -/
theorem noGap_run (h : Run (step strict unixTimestamp) initial as s)
    (hqueries : AllSteps (step strict unixTimestamp) (Orderly (c := c)) initial as) : NoGap s :=
  (h.guarded_invariant (I := fun s => Invariant unixTimestamp s ∧ NoGap s) hqueries
    (fun s a t hs hquery ha => ⟨invariant_step hs.1 ha, noGap_step hs.1.mainMark_le hs.2 hquery ha⟩)
    ⟨invariant_initial, Nat.le_refl _, by rintro _ _ _ ⟨⟩⟩).2

theorem indexed_of_orderly (h : Run (step strict unixTimestamp) initial as s)
    (hqueries : AllSteps (step strict unixTimestamp) (Orderly (c := c)) initial as)
    (hl : l ∈ s.store.logs.rows) (hsaved : l.1 < s.deltaLast) :
    document unixTimestamp l ∈ s.main ∨ document unixTimestamp l ∈ s.delta := by
  have hindexes := (noGap_run h hqueries).indexes
  rw [mem_main_iff h hl, mem_delta_iff h hl]
  omega

/-- When no query of the delta comes between the replacement of the counter and the new main
index that it is for, every log that was there at the query of the delta in place is in an
index, and in one only until the next main index is in place. -/
theorem saved_logs_indexed (h : Run (step strict unixTimestamp) initial as s)
    (hqueries : AllSteps (step strict unixTimestamp) (Orderly (c := c)) initial as)
    (hl : l ∈ s.store.logs.rows) (hsaved : l.1 < s.deltaLast) :
    (document unixTimestamp l ∈ s.main ∨ document unixTimestamp l ∈ s.delta) ∧
      (s.mainMark = s.deltaFirst → ¬ (document unixTimestamp l ∈ s.main ∧ document unixTimestamp l ∈ s.delta)) := by
  refine ⟨indexed_of_orderly h hqueries hl hsaved, ?_⟩
  rw [mem_main_iff h hl, mem_delta_iff h hl]
  omega

end gaps

section samples

/-- The first log is indexed by the main run, the second one by the delta run. -/
def bothIndexes : List IndexAction :=
  [.call (.saveHost (some ⟨"h".toList, h_fits_hostname⟩) none), .call (.saveLog logOfH), .mainPre, .mainQuery,
    .mainRotate, .call (.saveLog logOfH), .deltaQuery, .deltaRotate]

def zeroTimestamp (_ : Datetime) : Nat := 0

theorem first_log_indexed : ∃ (s : SearchIndexes Collation.binary) (l : Nat × LogRow), l.1 = 1 ∧ s.main.length = 1 ∧
    s.delta.length = 1 ∧ (document zeroTimestamp l ∈ s.main ∨ document zeroTimestamp l ∈ s.delta) ∧
      (s.mainMark = s.deltaFirst → ¬ (document zeroTimestamp l ∈ s.main ∧ document zeroTimestamp l ∈ s.delta)) := by
  have hrun : ∃ s : SearchIndexes Collation.binary, exec (step true zeroTimestamp) initial bothIndexes = some s ∧
      (1, logRow logOfH.toLogColumns 1 0) ∈ s.store.logs.rows ∧ 1 < s.deltaLast ∧ s.main.length = 1 ∧
        s.delta.length = 1 := ⟨_, rfl, List.mem_cons_self, by decide, rfl, rfl⟩
  obtain ⟨s, hexec, hl, hsaved, hmain, hdelta⟩ := hrun
  exact ⟨s, _, rfl, hmain, hdelta, saved_logs_indexed (exec_eq_some_iff.mp hexec) (by decide) hl hsaved⟩

/-- The delta is queried while the main run has replaced the counter and still collects. -/
def queriedTooEarly : List IndexAction :=
  [.call (.saveHost (some ⟨"h".toList, h_fits_hostname⟩) none), .call (.saveLog logOfH), .mainPre, .deltaQuery, .deltaRotate]

theorem first_log_missing : ∃ (s : SearchIndexes Collation.binary) (l : Nat × LogRow), l.1 < s.deltaLast ∧
    ((document zeroTimestamp l ∉ s.main ∧ document zeroTimestamp l ∉ s.delta) ↔
      s.mainMark ≤ l.1 ∧ (l.1 < s.deltaFirst ∨ s.deltaLast ≤ l.1)) ∧ s.mainMark ≤ l.1 ∧ l.1 < s.deltaFirst := by
  have hrun : ∃ s : SearchIndexes Collation.binary, exec (step true zeroTimestamp) initial queriedTooEarly = some s ∧
      (1, logRow logOfH.toLogColumns 1 0) ∈ s.store.logs.rows ∧ 1 < s.deltaLast ∧ s.mainMark ≤ 1 ∧ 1 < s.deltaFirst :=
    ⟨_, rfl, List.mem_cons_self, by decide, by decide, by decide⟩
  obtain ⟨s, hexec, hl, hsaved, hmain, hdelta⟩ := hrun
  exact ⟨s, _, hsaved, log_missing_iff (exec_eq_some_iff.mp hexec) hl, hmain, hdelta⟩

end samples
end SearchIndexes
end Srvlog.Search
