import Srvlog.Database.StoreLedger
import Srvlog.Library.Runs

/-! Whether the identifier that `saveLog` returns names one log. The identifiers
of logs and unprocessed_logs come from two counters, and they stay apart only as
long as neither counter hands out a number the other one has already passed. -/
namespace Srvlog.Database
open Library
variable {c : Collation}

/-- Under the identifier returned for a log `getLogById` finds that log or nothing,
nothing while the log is in unprocessed_logs, and all alerts were saved for it. -/
def NamesOneLog (s : Store c) : Prop :=
  ∀ k p, s.saved[k]? = some p →
    (getLogById s p.2 = [] ∨ ∃ r, getLogById s p.2 = [r] ∧ r.call = k ∧
      r.toLogColumns = p.1.toLogColumns ∧ c.equal r.host (some p.1.host) = true) ∧
    ((∃ u ∈ s.unprocessedLogs.rows, u.2.call = k) → getLogById s p.2 = []) ∧
    ∀ o ∈ s.ossecLogs.rows, o.2.logId = p.2 → o.2.call = k

/-- A row of logs belongs to the log its key was returned for. -/
def OwnKeys (s : Store c) : Prop :=
  ∀ k p, s.saved[k]? = some p → ∀ l ∈ s.logs.rows, l.1 = p.2 → l.2.call = k

/-- What the two counters have to satisfy in front of a call: a counter that hands
out an identifier is not behind the other one, and a moved row gets back its own
identifier or one that unprocessed_logs has not handed out yet. -/
def CountersApart (s : Store c) : StoreCall → Prop
  | .saveLog p | .processOssecSnortMessage p _ _ =>
    if s.hosts.withName p.host = [] then s.logs.autoIncrement ≤ s.unprocessedLogs.autoIncrement
    else s.unprocessedLogs.autoIncrement ≤ s.logs.autoIncrement
  | .saveUnprocessed => ∀ j t, (selectToProcess s.hosts s.unprocessedLogs.rows)[j]? = some t →
    s.logs.autoIncrement + j = t.logId ∨ s.unprocessedLogs.autoIncrement ≤ s.logs.autoIncrement + j
  | .saveHost _ _ => True

/-- What holds of the identifiers after any calls: the logs are numbered without
gap, and the returned identifiers cover those of unprocessed_logs. -/
structure Numbered (s : Store c) : Prop where
  logs_pos : 1 ≤ s.logs.autoIncrement
  unprocessed_pos : 1 ≤ s.unprocessedLogs.autoIncrement
  dense : ∀ i, 1 ≤ i → i < s.logs.autoIncrement → ∃ l ∈ s.logs.rows, l.1 = i
  returned : ∀ i, 1 ≤ i → i < s.unprocessedLogs.autoIncrement →
    ∃ (k : Nat) (p : LogParameters × Nat), s.saved[k]? = some p ∧ p.2 = i
  below : ∀ p ∈ s.saved, p.2 < s.logs.autoIncrement ∨ p.2 < s.unprocessedLogs.autoIncrement
  alerts : ∀ o ∈ s.ossecLogs.rows, ∃ p, s.saved[o.2.call]? = some p ∧ p.2 = o.2.logId

/-- What holds in addition as long as the counters stay apart. -/
structure Apart (s : Store c) : Prop where
  ledger : Ledger s
  numbered : Numbered s
  distinct : (s.saved.map Prod.snd).Nodup
  own : OwnKeys s

section lookup

theorem getLogById_eq_nil {s : Store c} {i : Nat} (h : ∀ l ∈ s.logs.rows, l.1 ≠ i) :
    getLogById s i = [] := by
  rw [getLogById, List.filter_eq_nil_iff.mpr, List.flatMap_nil]
  intro l hl
  simpa using h l hl

/-- A row of logs is found under its key, because its host is never deleted. -/
theorem getLogById_eq_singleton {s : Store c} (h : Ledger s) {l : Nat × LogRow} (hl : l ∈ s.logs.rows) :
    ∃ r p, getLogById s l.1 = [r] ∧ r.call = l.2.call ∧ s.saved[l.2.call]? = some p ∧
      r.toLogColumns = p.1.toLogColumns ∧ c.equal r.host (some p.1.host) = true := by
  obtain ⟨p, hp, hcol, _, w, hw, hid, hname⟩ := h.logged l hl
  refine ⟨{ l.2.toLogColumns with logId := l.1, host := w.2.hostname, call := l.2.call }, p, ?_, rfl, hp,
    hcol, hname⟩
  rw [getLogById, s.logs.filter_key hl, List.flatMap_singleton, ← hid, s.hosts.filter_key hw]
  rfl

theorem call_lt {s : Store c} (h : Ledger s) {l : Nat × LogRow} (hl : l ∈ s.logs.rows) :
    l.2.call < s.saved.length := by
  obtain ⟨_, hp, _⟩ := h.logged l hl
  exact (List.getElem?_eq_some_iff.mp hp).1

theorem index_eq_of_id_eq {s : Store c} (h : (s.saved.map Prod.snd).Nodup) {k k' : Nat}
    {p p' : LogParameters × Nat} (hk : s.saved[k]? = some p) (hk' : s.saved[k']? = some p')
    (he : p.2 = p'.2) : k = k' := by
  have hlt : k < (s.saved.map Prod.snd).length := by
    rw [List.length_map]
    exact (List.getElem?_eq_some_iff.mp hk).1
  apply (List.getElem?_inj hlt h).mp
  rw [List.getElem?_map, List.getElem?_map, hk, hk', Option.map_some, Option.map_some, he]

/-- A log waits in unprocessed_logs only as long as no row of logs stems from it. -/
theorem not_pending {s : Store c} (h : Ledger s) {l : Nat × LogRow} (hl : l ∈ s.logs.rows)
    {u : Nat × UnprocessedRow} (hu : u ∈ s.unprocessedLogs.rows) : u.2.call ≠ l.2.call := by
  have hn := (h.once.nodup_iff.mpr List.nodup_range)
  rw [List.nodup_append] at hn
  exact (hn.2.2 _ (List.mem_map_of_mem hl) _ (List.mem_map_of_mem hu)).symm

theorem Apart.namesOneLog {s : Store c} (h : Apart s) : NamesOneLog s := by
  intro k p hk
  have halerts : ∀ o ∈ s.ossecLogs.rows, o.2.logId = p.2 → o.2.call = k := by
    intro o ho he
    obtain ⟨q, hq, hid⟩ := h.numbered.alerts o ho
    exact index_eq_of_id_eq h.distinct hq hk (hid.trans he)
  by_cases hrow : ∃ l ∈ s.logs.rows, l.1 = p.2
  · obtain ⟨l, hl, hid⟩ := hrow
    obtain ⟨r, q, hget, hc, hq, hcol, hname⟩ := getLogById_eq_singleton h.ledger hl
    obtain rfl := h.own k p hk l hl hid
    obtain rfl := Option.some.inj (hq.symm.trans hk)
    rw [← hid, hget]
    refine ⟨.inr ⟨r, rfl, hc, hcol, hname⟩, ?_, by rwa [hid]⟩
    rintro ⟨u, hu, he⟩
    exact absurd he (not_pending h.ledger hl hu)
  · have hnil := getLogById_eq_nil (s := s) (i := p.2) fun l hl hid => hrow ⟨l, hl, hid⟩
    exact ⟨.inl hnil, fun _ => hnil, halerts⟩

theorem NamesOneLog.own {s : Store c} (h : NamesOneLog s) (hled : Ledger s) : OwnKeys s := by
  intro k p hk l hl hid
  obtain ⟨r, q, hget, hc, _⟩ := getLogById_eq_singleton hled hl
  rcases (h k p hk).1 with hnil | ⟨r', hr', hc', _⟩
  · rw [← hid, hget] at hnil
    cases hnil
  · rw [← hid, hget] at hr'
    obtain rfl := List.singleton_inj.mp hr'
    exact hc.symm.trans hc'

end lookup

section numbering

theorem numbered_empty : Numbered (Store.empty : Store c) where
  logs_pos := le_refl 1
  unprocessed_pos := le_refl 1
  dense i h h' := absurd h' (Nat.not_lt.mpr h)
  returned i h h' := absurd h' (Nat.not_lt.mpr h)
  below := by simp [Store.empty]
  alerts := by simp [Store.empty]

private theorem getElem?_snoc_of_some {α : Type} {l : List α} {i : Nat} {a b : α}
    (h : l[i]? = some a) : (l ++ [b])[i]? = some a := by
  obtain ⟨hi, _⟩ := List.getElem?_eq_some_iff.mp h
  rw [List.getElem?_append_left hi, h]

theorem Numbered.saveLog {s : Store c} (h : Numbered s) (p : LogParameters) :
    Numbered (saveLog s p).2 := by
  rcases saveLog_cases s p with ⟨hostId, _, he⟩ | ⟨_, he⟩
  · rw [he]
    refine ⟨Nat.le_succ_of_le h.logs_pos, h.unprocessed_pos, fun i hi hlt => ?_, fun i hi hlt => ?_,
      fun q hq => ?_, fun o ho => ?_⟩
    · rcases Nat.lt_succ_iff_lt_or_eq.mp hlt with hlt | rfl
      · obtain ⟨l, hl, hid⟩ := h.dense i hi hlt
        exact ⟨l, List.mem_append_left _ hl, hid⟩
      · exact ⟨_, List.mem_append_right _ (List.mem_singleton_self _), rfl⟩
    · obtain ⟨k, q, hk, hid⟩ := h.returned i hi hlt
      exact ⟨k, q, getElem?_snoc_of_some hk, hid⟩
    · rcases List.mem_append.mp hq with hq | hq
      · exact (h.below q hq).imp_left Nat.lt_succ_of_lt
      · obtain rfl := List.mem_singleton.mp hq
        exact .inl (Nat.lt_succ_self _)
    · obtain ⟨q, hq, hid⟩ := h.alerts o ho
      exact ⟨q, getElem?_snoc_of_some hq, hid⟩
  · rw [he]
    refine ⟨h.logs_pos, Nat.le_succ_of_le h.unprocessed_pos, h.dense, fun i hi hlt => ?_,
      fun q hq => ?_, fun o ho => ?_⟩
    · rcases Nat.lt_succ_iff_lt_or_eq.mp hlt with hlt | rfl
      · obtain ⟨k, q, hk, hid⟩ := h.returned i hi hlt
        exact ⟨k, q, getElem?_snoc_of_some hk, hid⟩
      · exact ⟨s.saved.length, (p, s.unprocessedLogs.autoIncrement), by simp, rfl⟩
    · rcases List.mem_append.mp hq with hq | hq
      · exact (h.below q hq).imp_right Nat.lt_succ_of_lt
      · obtain rfl := List.mem_singleton.mp hq
        exact .inr (Nat.lt_succ_self _)
    · obtain ⟨q, hq, hid⟩ := h.alerts o ho
      exact ⟨q, getElem?_snoc_of_some hq, hid⟩

theorem Numbered.saveHost {s : Store c} (h : Numbered s) (hostname : Option (Varchar 120))
    (ip : Option (Varchar 60)) : Numbered (saveHost s hostname ip) := by
  rcases saveHost_cases s hostname ip with he | ⟨hosts, he, _⟩
  · rwa [he]
  · rw [he]
    exact ⟨h.logs_pos, h.unprocessed_pos, h.dense, h.returned, h.below, h.alerts⟩

theorem Numbered.saveUnprocessed {s : Store c} (h : Numbered s) : Numbered (saveUnprocessed s) where
  logs_pos := by
    simp only [Database.saveUnprocessed, insertProcessed, Table.insertAll_autoIncrement]
    exact Nat.le_add_right_of_le h.logs_pos
  unprocessed_pos := h.unprocessed_pos
  dense := by
    intro i hi hlt
    simp only [Database.saveUnprocessed, insertProcessed, Table.insertAll_autoIncrement, List.length_map] at hlt
    by_cases hold : i < s.logs.autoIncrement
    · obtain ⟨l, hl, hid⟩ := h.dense i hi hold
      exact ⟨l, (Table.rows_prefix_insertAll _ _).subset hl, hid⟩
    · have hj : i - s.logs.autoIncrement < (selectToProcess s.hosts s.unprocessedLogs.rows).length := by omega
      refine ⟨(i, _), Table.mem_insertAll.mpr (.inr ⟨i - s.logs.autoIncrement, _,
        by rw [List.getElem?_map, List.getElem?_eq_getElem hj]; rfl, Prod.ext ?_ rfl⟩), rfl⟩
      dsimp only
      omega
  returned := h.returned
  below := by
    intro p hp
    simp only [Database.saveUnprocessed, insertProcessed, Table.insertAll_autoIncrement]
    exact (h.below p hp).imp_left fun hlt => Nat.lt_add_right _ hlt
  alerts := h.alerts

theorem Numbered.saveOssecLog {s : Store c} (h : Numbered s) {row : OssecRow}
    (hrow : ∃ p, s.saved[row.call]? = some p ∧ p.2 = row.logId) : Numbered (saveOssecLog s row) where
  logs_pos := h.logs_pos
  unprocessed_pos := h.unprocessed_pos
  dense := h.dense
  returned := h.returned
  below := h.below
  alerts := by
    intro o ho
    rcases List.mem_append.mp ho with ho | ho
    · exact h.alerts o ho
    · obtain rfl := List.mem_singleton.mp ho
      exact hrow

theorem Numbered.call {s : Store c} (h : Numbered s) (a : StoreCall) : Numbered (s.call a) := by
  cases a with
  | saveLog p => exact h.saveLog p
  | saveHost hostname ip => exact h.saveHost hostname ip
  | saveUnprocessed => exact h.saveUnprocessed
  | processOssecSnortMessage p date identifier =>
    refine (h.saveLog p).saveOssecLog ⟨(p, (Database.saveLog s p).1), ?_, rfl⟩
    rw [saved_saveLog]
    simp

end numbering
section step

/-- The identifier of a new log is new when it reaches both counters. -/
private theorem distinct_snoc {s : Store c} (h : Apart s) (p : LogParameters) {i : Nat}
    (hl : s.logs.autoIncrement ≤ i) (hu : s.unprocessedLogs.autoIncrement ≤ i) :
    ((s.saved ++ [(p, i)]).map Prod.snd).Nodup := by
  rw [List.map_append, List.map_singleton, List.nodup_append]
  refine ⟨h.distinct, List.nodup_singleton _, ?_⟩
  rintro j hj _ hi rfl
  obtain rfl := List.mem_singleton.mp hi
  obtain ⟨q, hq, rfl⟩ := List.mem_map.mp hj
  have := h.numbered.below q hq
  omega

private theorem getElem?_snoc {α : Type} {l : List α} {a b : α} {k : Nat} (h : (l ++ [a])[k]? = some b) :
    l[k]? = some b ∨ k = l.length ∧ a = b := by
  rcases Nat.lt_trichotomy k l.length with hlt | rfl | hgt
  · rw [List.getElem?_append_left hlt] at h
    exact .inl h
  · simp only [List.getElem?_concat_length, Option.some.injEq] at h
    exact .inr ⟨rfl, h⟩
  · rw [List.getElem?_eq_none (by simp; omega)] at h
    cases h

theorem Apart.saveLog {s : Store c} (h : Apart s) (p : LogParameters)
    (hg : CountersApart s (.saveLog p)) : Apart (saveLog s p).2 := by
  have hled := h.ledger.saveLog p
  have hnum := h.numbered.saveLog p
  rcases saveLog_cases s p with ⟨hostId, ⟨w, hw, _, hname⟩, he⟩ | ⟨hnil, he⟩
  · have hle : s.unprocessedLogs.autoIncrement ≤ s.logs.autoIncrement := by
      rwa [CountersApart, if_neg (List.ne_nil_of_mem (Hosts.mem_withName.mpr ⟨hw, hname⟩))] at hg
    rw [he] at hled hnum ⊢
    refine ⟨hled, hnum, distinct_snoc h p (le_refl _) hle, fun k q hk l hl hid => ?_⟩
    rcases getElem?_snoc hk with hk | ⟨rfl, rfl⟩
    · rcases List.mem_append.mp hl with hl | hl
      · exact h.own k q hk l hl hid
      · obtain rfl := List.mem_singleton.mp hl
        have := h.numbered.below q (List.mem_of_getElem? hk)
        dsimp only at hid
        omega
    · rcases List.mem_append.mp hl with hl | hl
      · have := s.logs.fresh l hl
        dsimp only at hid
        omega
      · obtain rfl := List.mem_singleton.mp hl
        rfl
  · have hle : s.logs.autoIncrement ≤ s.unprocessedLogs.autoIncrement := by
      rwa [CountersApart, if_pos hnil] at hg
    rw [he] at hled hnum ⊢
    refine ⟨hled, hnum, distinct_snoc h p hle (le_refl _), fun k q hk l hl hid => ?_⟩
    rcases getElem?_snoc hk with hk | ⟨rfl, rfl⟩
    · exact h.own k q hk l hl hid
    · have := s.logs.fresh l hl
      dsimp only at hid
      omega

/-- A moved row keeps the call of the pending row, whose key is the returned identifier. -/
private theorem pending_of_selected {s : Store c} (h : Ledger s) {t : TempRow}
    (ht : t ∈ selectToProcess s.hosts s.unprocessedLogs.rows) :
    ∃ p, s.saved[t.call]? = some p ∧ p.2 = t.logId := by
  obtain ⟨u, hu, w, _, rfl⟩ := mem_selectToProcess.mp ht
  obtain ⟨p, hp, _, _, hid⟩ := h.pending u hu
  exact ⟨p, hp, hid.symm⟩

theorem Apart.saveUnprocessed {s : Store c} (h : Apart s) (hg : CountersApart s .saveUnprocessed) :
    Apart (saveUnprocessed s) := by
  refine ⟨h.ledger.saveUnprocessed, h.numbered.saveUnprocessed, h.distinct, fun k p hk l hl hid => ?_⟩
  rcases Table.mem_insertAll.mp hl with hl | ⟨j, r, hr, rfl⟩
  · exact h.own k p hk l hl hid
  · rw [List.getElem?_map, Option.map_eq_some_iff] at hr
    obtain ⟨t, ht, rfl⟩ := hr
    have hbelow := h.numbered.below p (List.mem_of_getElem? hk)
    dsimp only at hid
    rcases hg j t ht with hown | hpast
    · obtain ⟨q, hq, hqid⟩ := pending_of_selected h.ledger (List.mem_of_getElem? ht)
      exact index_eq_of_id_eq h.distinct hq hk (by rw [hqid, ← hown, hid])
    · omega

theorem Apart.call {s : Store c} (h : Apart s) {a : StoreCall} (hg : CountersApart s a) :
    Apart (s.call a) := by
  have hnum := h.numbered.call a
  cases a with
  | saveLog p => exact h.saveLog p hg
  | saveHost hostname ip =>
    refine ⟨h.ledger.saveHost hostname ip, hnum, ?_, ?_⟩
    all_goals
      rcases saveHost_cases s hostname ip with he | ⟨_, he, _⟩
      all_goals
        rw [Store.call, he]
        first | exact h.distinct | exact h.own
  | saveUnprocessed => exact h.saveUnprocessed hg
  | processOssecSnortMessage p date identifier =>
    have h' := h.saveLog p hg
    exact ⟨h'.ledger.saveOssecLog _, hnum, h'.distinct, h'.own⟩

theorem not_ownKeys_saveLog {s : Store c} (h : Apart s) {p : LogParameters}
    (hg : ¬ CountersApart s (.saveLog p)) : ¬ OwnKeys (saveLog s p).2 := by
  intro hown
  rcases saveLog_cases s p with ⟨hostId, ⟨w, hw, _, hname⟩, he⟩ | ⟨hnil, he⟩
  · rw [CountersApart, if_neg (List.ne_nil_of_mem (Hosts.mem_withName.mpr ⟨hw, hname⟩)), not_le] at hg
    obtain ⟨k, q, hk, hid⟩ := h.numbered.returned _ h.numbered.logs_pos hg
    rw [he] at hown
    have hcall := hown k q (getElem?_snoc_of_some hk) _ (List.mem_append_right _ (List.mem_singleton_self _))
      hid.symm
    have hlt := (List.getElem?_eq_some_iff.mp hk).1
    simp only [logRow] at hcall
    omega
  · rw [CountersApart, if_pos hnil, not_le] at hg
    obtain ⟨l, hl, hid⟩ := h.numbered.dense _ h.numbered.unprocessed_pos hg
    rw [he] at hown
    have hcall := hown s.saved.length (p, s.unprocessedLogs.autoIncrement) (by simp) l hl hid
    have hlt := call_lt h.ledger hl
    omega

theorem not_ownKeys_saveUnprocessed {s : Store c} (h : Apart s)
    (hg : ¬ CountersApart s .saveUnprocessed) : ¬ OwnKeys (saveUnprocessed s) := by
  intro hown
  simp only [CountersApart, not_forall, not_or, not_le] at hg
  obtain ⟨j, t, ht, hne, hlt⟩ := hg
  have hpos := h.numbered.logs_pos
  obtain ⟨k, q, hk, hid⟩ := h.numbered.returned (s.logs.autoIncrement + j) (by omega) hlt
  have hrow : (s.logs.autoIncrement + j, logRow t.toLogColumns t.hostId t.call) ∈
      (saveUnprocessed s).logs.rows :=
    Table.mem_insertAll.mpr (.inr ⟨j, _, by rw [List.getElem?_map, ht]; rfl, rfl⟩)
  obtain rfl : t.call = k := hown k q hk _ hrow hid.symm
  obtain ⟨q', hq', hid'⟩ := pending_of_selected h.ledger (List.mem_of_getElem? ht)
  obtain rfl := Option.some.inj (hq'.symm.trans hk)
  omega

/-- Where the counters clash the very next state has an identifier of two logs. -/
theorem not_namesOneLog_call {s : Store c} (h : Apart s) {a : StoreCall}
    (hg : ¬ CountersApart s a) : ¬ NamesOneLog (s.call a) := by
  intro hone
  have hown := hone.own (h.ledger.call a)
  cases a with
  | saveLog p => exact not_ownKeys_saveLog h hg hown
  | saveHost hostname ip => exact hg trivial
  | saveUnprocessed => exact not_ownKeys_saveUnprocessed h hg hown
  | processOssecSnortMessage p date identifier => exact not_ownKeys_saveLog (p := p) h hg hown

end step

theorem apart_empty : Apart (Store.empty : Store c) where
  ledger := ledger_empty
  numbered := numbered_empty
  distinct := by simp [Store.empty]
  own := by simp [OwnKeys, Store.empty]

private theorem namesOneLog_iff {s : Store c} (h : Apart s) (cs : List StoreCall) :
    (∀ before, before <+: cs → NamesOneLog (s.calls before)) ↔
      AllSteps (fun s a => some (s.call a)) CountersApart s cs := by
  induction cs generalizing s with
  | nil =>
    refine ⟨fun _ => trivial, fun _ before hb => ?_⟩
    obtain rfl := List.prefix_nil.mp hb
    exact h.namesOneLog
  | cons a cs ih =>
    constructor
    · intro hone
      have hg : CountersApart s a := by
        by_contra hg
        exact not_namesOneLog_call h hg (hone [a] ⟨cs, rfl⟩)
      refine ⟨hg, fun t ht => ?_⟩
      obtain rfl := Option.some.inj ht
      refine (ih (h.call hg)).mp fun before hb => hone (a :: before) ?_
      exact (List.prefix_cons_inj a).mpr hb
    · rintro ⟨hg, hrest⟩ before hb
      rcases List.prefix_cons_iff.mp hb with rfl | ⟨rest, rfl, hrestPrefix⟩
      · exact h.namesOneLog
      · exact (ih (h.call hg)).mpr (hrest _ rfl) rest hrestPrefix

/-- In a run of the store every identifier names one log, in every state passed,
exactly when the counters are apart in front of every call. -/
theorem identifiers_name_one_log_iff (c : Collation) (cs : List StoreCall) :
    (∀ before, before <+: cs → NamesOneLog ((Store.empty : Store c).calls before)) ↔
      AllSteps (fun s a => some (s.call a)) CountersApart (Store.empty : Store c) cs :=
  namesOneLog_iff apart_empty cs

/-- A log of host `h` at the epoch of the calendar, without further columns. -/
def logOfH : LogParameters where
  logDate := ⟨0, Datetime.zero_in_range⟩
  facility := none
  severity := none
  message := none
  program := none
  hash := none
  host := ⟨"h".toList, h_fits_host⟩

/-- The first log waits under identifier 1 of unprocessed_logs, the second gets 1 of logs. -/
def logsAroundRegistration : List StoreCall :=
  [.saveLog logOfH, .saveHost (some ⟨"h".toList, h_fits_hostname⟩) none, .saveLog logOfH]

theorem waiting_log_found_as_another :
    ¬ NamesOneLog ((Store.empty : Store Collation.binary).calls logsAroundRegistration) := by
  intro hone
  have hnil := (hone 0 (logOfH, 1) rfl).2.1 ⟨(1, { logOfH with call := 0 }), List.mem_singleton_self _, rfl⟩
  have hlen : (getLogById ((Store.empty : Store Collation.binary).calls logsAroundRegistration) 1).length = 1 := by
    decide
  simp [hnil] at hlen

end Srvlog.Database
