import Srvlog.Database.StoreProcedures
import Mathlib.Data.List.Count

/-! Every log passed to `saveLog` is kept exactly once, in logs or in
unprocessed_logs, whatever calls follow. -/
namespace Srvlog.Database
open Library
variable {c : Collation}

/-- A hosts row with the given key and a name that equals the given one. -/
def Hosts.Registered (t : Hosts c) (hostId : Nat) (host : Varchar 60) : Prop :=
  ∃ h ∈ t.rows, h.1 = hostId ∧ c.equal h.2.hostname (some host) = true

/-- The rows account for the calls: a row carries the call's columns, and the
calls are numbered by the rows of both tables without gap or repetition. -/
structure Ledger (s : Store c) : Prop where
  once : (s.logs.rows.map (·.2.call) ++ s.unprocessedLogs.rows.map (·.2.call)).Perm
    (List.range s.saved.length)
  logged : ∀ r ∈ s.logs.rows, ∃ p, s.saved[r.2.call]? = some p ∧
    r.2.toLogColumns = p.1.toLogColumns ∧ r.2.logsPartitionKey = r.2.logDate.dateFormatYm ∧
    s.hosts.Registered r.2.hostId p.1.host
  pending : ∀ u ∈ s.unprocessedLogs.rows, ∃ p, s.saved[u.2.call]? = some p ∧
    u.2.toLogColumns = p.1.toLogColumns ∧ u.2.host = p.1.host ∧ u.1 = p.2

private theorem getElem?_append_of_some {α : Type} {l m : List α} {i : Nat} {a : α}
    (h : l[i]? = some a) : (l ++ m)[i]? = some a := by
  obtain ⟨hi, _⟩ := List.getElem?_eq_some_iff.mp h
  rw [List.getElem?_append_left hi, h]

section spec

theorem hostIdOf_eq_some {hosts : Hosts c} {host : Varchar 60} {hostId : Nat}
    (h : hostIdOf hosts host = some hostId) : hosts.Registered hostId host := by
  obtain ⟨r, hr, rfl⟩ := Option.map_eq_some_iff.mp h
  have hm := Hosts.mem_withName.mp (List.mem_of_mem_head? hr)
  exact ⟨r, hm.1, rfl, hm.2⟩

theorem hostIdOf_eq_none {hosts : Hosts c} {host : Varchar 60} :
    hostIdOf hosts host = none ↔ hosts.withName host = [] := by
  simp [hostIdOf]

/-- A log of a registered host goes to logs, any other to unprocessed_logs. -/
theorem saveLog_cases (s : Store c) (p : LogParameters) :
    (∃ hostId, s.hosts.Registered hostId p.host ∧ saveLog s p = (s.logs.autoIncrement, { s with
      logs := s.logs.insert (logRow p.toLogColumns hostId s.saved.length)
      saved := s.saved ++ [(p, s.logs.autoIncrement)] })) ∨
    (s.hosts.withName p.host = [] ∧ saveLog s p = (s.unprocessedLogs.autoIncrement, { s with
      unprocessedLogs := s.unprocessedLogs.insert { p with call := s.saved.length }
      saved := s.saved ++ [(p, s.unprocessedLogs.autoIncrement)] })) := by
  unfold saveLog
  cases h : hostIdOf s.hosts p.host with
  | some hostId => exact .inl ⟨hostId, hostIdOf_eq_some h, rfl⟩
  | none => exact .inr ⟨hostIdOf_eq_none.mp h, rfl⟩

theorem saveHost_cases (s : Store c) (hostname : Option (Varchar 120)) (ip : Option (Varchar 60)) :
    saveHost s hostname ip = s ∨ ∃ hosts : Hosts c, saveHost s hostname ip = { s with hosts := hosts } ∧
      s.hosts.rows ⊆ hosts.rows := by
  unfold saveHost
  cases h : s.hosts.insert? ⟨hostname, ip⟩ with
  | none => exact .inl rfl
  | some hosts =>
    refine .inr ⟨hosts, rfl, ?_⟩
    unfold Hosts.insert? at h
    split at h
    · obtain rfl := Option.some.inj h
      exact List.subset_append_left _ _
    · cases h

theorem mem_selectToProcess {hosts : Hosts c} {us : List (Nat × UnprocessedRow)} {t : TempRow} :
    t ∈ selectToProcess hosts us ↔ ∃ u ∈ us, ∃ h ∈ hosts.withName u.2.host,
      { u.2.toLogColumns with logId := u.1, hostId := h.1, call := u.2.call } = t := by
  simp [selectToProcess]

/-- The join doubles no row, so it numbers the same calls as the rows with a registered host. -/
theorem selectToProcess_calls (hosts : Hosts c) (us : List (Nat × UnprocessedRow)) :
    (selectToProcess hosts us).map (·.call) =
      (us.filter fun u => !(hosts.withName u.2.host).isEmpty).map (·.2.call) := by
  induction us with
  | nil => rfl
  | cons u us ih =>
    have hle := hosts.withName_length_le_one u.2.host
    rw [selectToProcess, List.flatMap_cons, List.map_append, ← selectToProcess, ih]
    match hw : hosts.withName u.2.host with
    | [] => simp [hw]
    | [h] => simp [hw]
    | _ :: _ :: _ => simp [hw] at hle

/-- The join selects a row if and only if a hosts row has its name. -/
theorem any_selectToProcess (hosts : Hosts c) (t : Table UnprocessedRow) {u : Nat × UnprocessedRow}
    (hu : u ∈ t.rows) : ((selectToProcess hosts t.rows).any fun r => decide (u.1 = r.logId)) =
      !(hosts.withName u.2.host).isEmpty := by
  rw [Bool.eq_iff_iff]
  simp only [List.any_eq_true, decide_eq_true_eq, Bool.not_eq_true', List.isEmpty_eq_false_iff]
  constructor
  · rintro ⟨r, hr, hk⟩ hnil
    obtain ⟨v, hv, w, hw, rfl⟩ := mem_selectToProcess.mp hr
    obtain rfl := t.eq_of_key_eq hu hv hk
    simp [hnil] at hw
  · intro hne
    obtain ⟨w, hw⟩ := List.exists_mem_of_ne_nil _ hne
    exact ⟨_, mem_selectToProcess.mpr ⟨u, hu, w, hw, rfl⟩, rfl⟩

/-- The delete removes exactly the rows that the join selected. -/
theorem deleteProcessed_rows (hosts : Hosts c) (t : Table UnprocessedRow) :
    (deleteProcessed t (selectToProcess hosts t.rows)).rows =
      t.rows.filter fun u => (hosts.withName u.2.host).isEmpty := by
  rw [deleteProcessed, Table.deleteWhere_rows]
  apply List.filter_congr
  intro u hu
  rw [any_selectToProcess hosts t hu, Bool.not_not]

/-- A logs row after the move was there before or is a moved row. -/
theorem mem_insertProcessed {logs : Table LogRow} {temp : List TempRow} {r : Nat × LogRow}
    (h : r ∈ (insertProcessed logs temp).rows) :
    (∃ l ∈ logs.rows, l.2 = r.2) ∨ ∃ t ∈ temp, r.2 = logRow t.toLogColumns t.hostId t.call := by
  have hv := List.mem_map_of_mem (f := Prod.snd) h
  rw [insertProcessed, Table.insertAll_values, List.mem_append] at hv
  rcases hv with hv | hv
  · obtain ⟨l, hl, he⟩ := List.mem_map.mp hv
    exact .inl ⟨l, hl, he⟩
  · obtain ⟨t, ht, he⟩ := List.mem_map.mp hv
    exact .inr ⟨t, ht, he.symm⟩

theorem insertProcessed_calls (logs : Table LogRow) (temp : List TempRow) :
    (insertProcessed logs temp).rows.map (·.2.call) = logs.rows.map (·.2.call) ++ temp.map (·.call) := by
  have hv := congrArg (List.map LogRow.call) (Table.insertAll_values logs
    (temp.map fun t => logRow t.toLogColumns t.hostId t.call))
  simpa [insertProcessed, logRow, Function.comp_def] using hv

end spec

section preservation

theorem ledger_empty : Ledger (Store.empty : Store c) where
  once := by simp [Store.empty]
  logged := by simp [Store.empty]
  pending := by simp [Store.empty]

theorem Ledger.saveLog {s : Store c} (h : Ledger s) (p : LogParameters) : Ledger (saveLog s p).2 := by
  rcases saveLog_cases s p with ⟨hostId, hreg, he⟩ | ⟨_, he⟩
  · rw [he]
    refine ⟨?_, ?_, ?_⟩
    · have hp := h.once.append_right [s.saved.length]
      simp only [Table.insert_rows, List.map_append, List.map_cons, List.map_nil, List.length_append,
        List.length_singleton, List.range_succ, logRow]
      refine List.Perm.trans ?_ hp
      rw [List.append_assoc, List.append_assoc]
      exact List.Perm.append_left _ List.perm_append_comm
    · intro r hr
      rcases List.mem_append.mp hr with hr | hr
      · obtain ⟨q, hq, hrest⟩ := h.logged r hr
        exact ⟨q, getElem?_append_of_some hq, hrest⟩
      · obtain rfl := List.mem_singleton.mp hr
        exact ⟨(p, s.logs.autoIncrement), by simp [logRow], rfl, rfl, hreg⟩
    · intro u hu
      obtain ⟨q, hq, hrest⟩ := h.pending u hu
      exact ⟨q, getElem?_append_of_some hq, hrest⟩
  · rw [he]
    refine ⟨?_, ?_, ?_⟩
    · have hp := h.once.append_right [s.saved.length]
      simpa [List.range_succ] using hp
    · intro r hr
      obtain ⟨q, hq, hrest⟩ := h.logged r hr
      exact ⟨q, getElem?_append_of_some hq, hrest⟩
    · intro u hu
      rcases List.mem_append.mp hu with hu | hu
      · obtain ⟨q, hq, hrest⟩ := h.pending u hu
        exact ⟨q, getElem?_append_of_some hq, hrest⟩
      · obtain rfl := List.mem_singleton.mp hu
        exact ⟨(p, s.unprocessedLogs.autoIncrement), by simp, rfl, rfl, rfl⟩

theorem Ledger.saveHost {s : Store c} (h : Ledger s) (hostname : Option (Varchar 120))
    (ip : Option (Varchar 60)) : Ledger (saveHost s hostname ip) := by
  rcases saveHost_cases s hostname ip with he | ⟨hosts, he, hsub⟩
  · rwa [he]
  · rw [he]
    refine ⟨h.once, fun r hr => ?_, h.pending⟩
    obtain ⟨q, hq, hcol, hkey, w, hw, hrest⟩ := h.logged r hr
    exact ⟨q, hq, hcol, hkey, w, hsub hw, hrest⟩

theorem Ledger.saveUnprocessed {s : Store c} (h : Ledger s) : Ledger (saveUnprocessed s) where
  once := by
    have hsplit := (List.filter_append_perm (fun u : Nat × UnprocessedRow =>
      !(s.hosts.withName u.2.host).isEmpty) s.unprocessedLogs.rows).map (·.2.call)
    simp only [Bool.not_not, List.map_append] at hsplit
    change (List.map _ (insertProcessed _ _).rows ++ List.map _ (deleteProcessed _ _).rows).Perm _
    rw [insertProcessed_calls, deleteProcessed_rows, selectToProcess_calls, List.append_assoc]
    exact (hsplit.append_left _).trans h.once
  logged := by
    intro r hr
    rcases mem_insertProcessed hr with ⟨l, hl, he⟩ | ⟨t, ht, he⟩
    · rw [← he]
      exact h.logged l hl
    · obtain ⟨u, hu, w, hw, rfl⟩ := mem_selectToProcess.mp ht
      obtain ⟨q, hq, hcol, hhost, _⟩ := h.pending u hu
      obtain ⟨hw, hname⟩ := Hosts.mem_withName.mp hw
      rw [he]
      exact ⟨q, hq, hcol, rfl, w, hw, rfl, by rwa [← hhost]⟩
  pending := fun u hu => h.pending u (List.mem_filter.mp hu).1

theorem Ledger.saveOssecLog {s : Store c} (h : Ledger s) (row : OssecRow) : Ledger (saveOssecLog s row) :=
  ⟨h.once, h.logged, h.pending⟩

theorem Ledger.call {s : Store c} (h : Ledger s) (a : StoreCall) : Ledger (s.call a) := by
  cases a with
  | saveLog p => exact h.saveLog p
  | saveHost hostname ip => exact h.saveHost hostname ip
  | saveUnprocessed => exact h.saveUnprocessed
  | processOssecSnortMessage p date identifier => exact (h.saveLog p).saveOssecLog _

theorem Ledger.calls {s : Store c} (h : Ledger s) (cs : List StoreCall) : Ledger (s.calls cs) := by
  induction cs generalizing s with
  | nil => exact h
  | cons a cs ih => exact ih (h.call a)

end preservation

section permanence

theorem logs_prefix_saveLog (s : Store c) (p : LogParameters) :
    s.logs.rows <+: (saveLog s p).2.logs.rows := by
  rcases saveLog_cases s p with ⟨hostId, _, he⟩ | ⟨_, he⟩
  · rw [he]
    exact List.prefix_append _ _
  · exact (congrArg (fun r => r.2.logs.rows) he.symm) ▸ List.prefix_rfl

theorem logs_prefix_call (s : Store c) (a : StoreCall) : s.logs.rows <+: (s.call a).logs.rows := by
  cases a with
  | saveLog p => exact logs_prefix_saveLog s p
  | saveHost hostname ip =>
    rcases saveHost_cases s hostname ip with he | ⟨_, he, _⟩
    all_goals exact (congrArg (fun r => r.logs.rows) he.symm) ▸ List.prefix_rfl
  | saveUnprocessed => exact Table.rows_prefix_insertAll _ _
  | processOssecSnortMessage p date identifier => exact logs_prefix_saveLog s p

theorem logs_prefix_calls (s : Store c) (cs : List StoreCall) : s.logs.rows <+: (s.calls cs).logs.rows := by
  induction cs generalizing s with
  | nil => exact List.prefix_rfl
  | cons a cs ih => exact (logs_prefix_call s a).trans (ih (s.call a))

/-- The log a call passes to `saveLog`. -/
def StoreCall.log : StoreCall → Option LogParameters
  | .saveLog p => some p
  | .processOssecSnortMessage p _ _ => some p
  | _ => none

theorem saved_saveLog (s : Store c) (p : LogParameters) :
    (saveLog s p).2.saved = s.saved ++ [(p, (saveLog s p).1)] := by
  rcases saveLog_cases s p with ⟨hostId, _, he⟩ | ⟨_, he⟩
  all_goals
    rw [he]

theorem saved_call (s : Store c) (a : StoreCall) :
    (s.call a).saved.map Prod.fst = s.saved.map Prod.fst ++ a.log.toList := by
  cases a with
  | saveLog p => simp [Store.call, saved_saveLog, StoreCall.log]
  | saveHost hostname ip =>
    rcases saveHost_cases s hostname ip with he | ⟨_, he, _⟩
    all_goals
      simp [Store.call, he, StoreCall.log]
  | saveUnprocessed => simp [Store.call, saveUnprocessed, StoreCall.log]
  | processOssecSnortMessage p date identifier =>
    simp [Store.call, processOssecSnortMessage, saveOssecLog, saved_saveLog, StoreCall.log]

theorem saved_calls (s : Store c) (cs : List StoreCall) :
    (s.calls cs).saved.map Prod.fst = s.saved.map Prod.fst ++ cs.filterMap StoreCall.log := by
  induction cs generalizing s with
  | nil => simp [Store.calls]
  | cons a cs ih =>
    rw [Store.calls, List.foldl_cons, ← Store.calls, ih, saved_call, List.append_assoc]
    cases h : a.log with
    | none => simp [h]
    | some p => simp [h]

end permanence

private theorem count_call {α : Type} (l : List α) (call : α → Nat) (k : Nat) :
    l.countP (fun r => decide (call r = k)) = (l.map call).count k := by
  rw [List.count, List.countP_map]
  exact List.countP_congr fun r _ => by simp

/-- After any calls on the empty database the logs passed to `saveLog` lie, each
exactly once and with its columns unchanged, in logs or in unprocessed_logs; rows of
logs name the host and the month of their log and stay there for good; and right
after `saveUnprocessed` no row is left behind whose host is registered. -/
theorem store_keeps_every_log (c : Collation) (cs : List StoreCall) :
    let s := (Store.empty : Store c).calls cs
    s.saved.map Prod.fst = cs.filterMap StoreCall.log ∧
    (∀ k p, (cs.filterMap StoreCall.log)[k]? = some p →
      s.logs.rows.countP (fun r => decide (r.2.call = k)) +
        s.unprocessedLogs.rows.countP (fun u => decide (u.2.call = k)) = 1 ∧
      (∀ r ∈ s.logs.rows, r.2.call = k → r.2.toLogColumns = p.toLogColumns ∧
        r.2.logsPartitionKey = r.2.logDate.dateFormatYm ∧ s.hosts.Registered r.2.hostId p.host) ∧
      (∀ u ∈ s.unprocessedLogs.rows, u.2.call = k →
        u.2.toLogColumns = p.toLogColumns ∧ u.2.host = p.host)) ∧
    (∀ r ∈ s.logs.rows, r.2.call < (cs.filterMap StoreCall.log).length) ∧
    (∀ u ∈ s.unprocessedLogs.rows, u.2.call < (cs.filterMap StoreCall.log).length) ∧
    (∀ more, s.logs.rows <+: (s.calls more).logs.rows) ∧
    (∀ u ∈ (saveUnprocessed s).unprocessedLogs.rows, ∀ h ∈ (saveUnprocessed s).hosts.rows,
      c.equal h.2.hostname (some u.2.host) = false) := by
  intro s
  have hled : Ledger s := ledger_empty.calls cs
  have hsaved : s.saved.map Prod.fst = cs.filterMap StoreCall.log := by
    exact (saved_calls Store.empty cs).trans (List.nil_append _)
  have hlen : s.saved.length = (cs.filterMap StoreCall.log).length := by rw [← hsaved, List.length_map]
  have hfst {k : Nat} {q : LogParameters × Nat} (hq : s.saved[k]? = some q) :
      (cs.filterMap StoreCall.log)[k]? = some q.1 := by rw [← hsaved, List.getElem?_map, hq]; rfl
  refine ⟨hsaved, fun k p hk => ⟨?_, fun r hr hc => ?_, fun u hu hc => ?_⟩, fun r hr => ?_, fun u hu => ?_,
    logs_prefix_calls s, fun u hu h hh => ?_⟩
  · obtain ⟨hlt, _⟩ := List.getElem?_eq_some_iff.mp hk
    rw [count_call s.logs.rows (·.2.call), count_call s.unprocessedLogs.rows (·.2.call), ← List.count_append,
      hled.once.count_eq]
    exact List.count_eq_one_of_mem List.nodup_range (List.mem_range.mpr (hlen ▸ hlt))
  · obtain ⟨q, hq, hcol, hkey, hreg⟩ := hled.logged r hr
    rw [hc] at hq
    obtain rfl := Option.some.inj ((hfst hq).symm.trans hk)
    exact ⟨hcol, hkey, hreg⟩
  · obtain ⟨q, hq, hcol, hhost, _⟩ := hled.pending u hu
    rw [hc] at hq
    obtain rfl := Option.some.inj ((hfst hq).symm.trans hk)
    exact ⟨hcol, hhost⟩
  · obtain ⟨q, hq, _⟩ := hled.logged r hr
    exact hlen ▸ (List.getElem?_eq_some_iff.mp hq).1
  · obtain ⟨q, hq, _⟩ := hled.pending u hu
    exact hlen ▸ (List.getElem?_eq_some_iff.mp hq).1
  · rw [saveUnprocessed, deleteProcessed_rows] at hu
    have hnil := (List.mem_filter.mp hu).2
    by_contra hne
    have hm : h ∈ s.hosts.withName u.2.host := Hosts.mem_withName.mpr ⟨hh, by simpa using hne⟩
    rw [List.isEmpty_iff.mp hnil] at hm
    cases hm

end Srvlog.Database
