import Srvlog.Database.StoreLedger
import Srvlog.Library.Runs

/-! Two sessions run `saveUnprocessed` at the same time, statement by statement and
each with its own temporary table, while other calls of `saveLog` come in between. -/
namespace Srvlog.Database
open Library
variable {c : Collation}

inductive Session where
  | first
  | second
  deriving DecidableEq

def Session.other : Session → Session
  | first => second
  | second => first

/-- How far a session has come in `saveUnprocessed`. The deleted rows are kept until
the commit, since the other session sees them until then. -/
inductive Phase where
  | idle
  | selected (temp : List TempRow)
  | inserted (temp : List TempRow)
  | deleted (rows : List (Nat × UnprocessedRow))
  | finished

structure Sessions (c : Collation) where
  store : Store c
  phase : Session → Phase

def start (store : Store c) : Sessions c := ⟨store, fun _ => .idle⟩

inductive MoveStep where
  | select (i : Session)
  | insert (i : Session)
  | delete (i : Session)
  | commit (i : Session)
  | saveLog (p : LogParameters)

def Phase.uncommitted : Phase → List (Nat × UnprocessedRow)
  | deleted rows => rows
  | _ => []

/-- What a non-locking read of unprocessed_logs returns under read committed. -/
def visible (s : Sessions c) (i : Session) : List (Nat × UnprocessedRow) :=
  (s.phase i.other).uncommitted ++ s.store.unprocessedLogs.rows

def inTemp (temp : List TempRow) (ul : Nat × UnprocessedRow) : Bool :=
  temp.any fun t => decide (ul.1 = t.logId)

def moveStep (s : Sessions c) : MoveStep → Option (Sessions c)
  | .select i => match s.phase i with
    | .idle => some ⟨s.store,
        Function.update s.phase i (.selected (selectToProcess s.store.hosts (visible s i)))⟩
    | _ => none
  | .insert i => match s.phase i with
    | .selected temp => some ⟨{ s.store with logs := insertProcessed s.store.logs temp },
        Function.update s.phase i (.inserted temp)⟩
    | _ => none
  | .delete i => match s.phase i with
    | .inserted temp => some
        ⟨{ s.store with unprocessedLogs := deleteProcessed s.store.unprocessedLogs temp },
          Function.update s.phase i (.deleted (s.store.unprocessedLogs.rows.filter (inTemp temp)))⟩
    | _ => none
  | .commit i => match s.phase i with
    | .deleted _ => some ⟨s.store, Function.update s.phase i .finished⟩
    | _ => none
  | .saveLog p => some ⟨(saveLog s.store p).2, s.phase⟩

/-- A row of unprocessed_logs or its copy in a temporary table: key, columns and call. -/
abbrev Copy := Nat × LogColumns × Nat

def rowCopy (u : Nat × UnprocessedRow) : Copy := (u.1, u.2.toLogColumns, u.2.call)
def tempCopy (t : TempRow) : Copy := (t.logId, t.toLogColumns, t.call)

/-- The rows a session has selected and not yet given up by its commit. -/
def Phase.copies : Phase → List Copy
  | selected temp => temp.map tempCopy
  | inserted temp => temp.map tempCopy
  | deleted rows => rows.map rowCopy
  | _ => []

/-- A session selects no row that the other one has selected and not yet committed. -/
def SelectsApart (s : Sessions c) : MoveStep → Prop
  | .select i => ∀ t ∈ selectToProcess s.store.hosts (visible s i),
      t.logId ∉ (s.phase i.other).copies.map Prod.fst
  | _ => True

/-- The rows of logs, and those of unprocessed_logs, that stem from a call. -/
def logged (s : Store c) (k : Nat) : Nat := (s.logs.rows.map (·.2.call)).count k
def pending (s : Store c) (k : Nat) : Nat := (s.unprocessedLogs.rows.map (·.2.call)).count k

/-- Each log passed to `saveLog` has one row in logs and unprocessed_logs together,
and all its rows have its columns. -/
def KeptOnce (s : Store c) : Prop :=
  ∀ k p, s.saved[k]? = some p → logged s k + pending s k = 1 ∧
    (∀ r ∈ s.logs.rows, r.2.call = k → r.2.toLogColumns = p.1.toLogColumns) ∧
    (∀ u ∈ s.unprocessedLogs.rows, u.2.call = k → u.2.toLogColumns = p.1.toLogColumns)

section steps

theorem Session.other_ne (i : Session) : i.other ≠ i := by cases i <;> simp [other]
theorem Session.other_other (i : Session) : i.other.other = i := by cases i <;> rfl
theorem Session.eq_or (i j : Session) : j = i ∨ j = i.other := by cases i <;> cases j <;> simp [other]

/-- Everything that a step can do. -/
theorem moveStep_cases {s t : Sessions c} {a : MoveStep} (h : moveStep s a = some t) :
    (∃ i, a = .select i ∧ s.phase i = .idle ∧ t = ⟨s.store,
        Function.update s.phase i (.selected (selectToProcess s.store.hosts (visible s i)))⟩) ∨
    (∃ i temp, a = .insert i ∧ s.phase i = .selected temp ∧
      t = ⟨{ s.store with logs := insertProcessed s.store.logs temp },
        Function.update s.phase i (.inserted temp)⟩) ∨
    (∃ i temp, a = .delete i ∧ s.phase i = .inserted temp ∧
      t = ⟨{ s.store with unprocessedLogs := deleteProcessed s.store.unprocessedLogs temp },
        Function.update s.phase i (.deleted (s.store.unprocessedLogs.rows.filter (inTemp temp)))⟩) ∨
    (∃ i rows, a = .commit i ∧ s.phase i = .deleted rows ∧
      t = ⟨s.store, Function.update s.phase i .finished⟩) ∨
    (∃ p, a = .saveLog p ∧ t = ⟨(saveLog s.store p).2, s.phase⟩) := by
  cases a with
  | select i =>
    simp only [moveStep] at h
    split at h
    · exact .inl ⟨i, rfl, ‹_›, (Option.some.inj h).symm⟩
    · cases h
  | insert i =>
    simp only [moveStep] at h
    split at h
    · exact .inr (.inl ⟨i, _, rfl, ‹_›, (Option.some.inj h).symm⟩)
    · cases h
  | delete i =>
    simp only [moveStep] at h
    split at h
    · exact .inr (.inr (.inl ⟨i, _, rfl, ‹_›, (Option.some.inj h).symm⟩))
    · cases h
  | commit i =>
    simp only [moveStep] at h
    split at h
    · exact .inr (.inr (.inr (.inl ⟨i, _, rfl, ‹_›, (Option.some.inj h).symm⟩)))
    · cases h
  | saveLog p => exact .inr (.inr (.inr (.inr ⟨p, rfl, (Option.some.inj h).symm⟩)))

theorem select_eq_some {s t : Sessions c} {i : Session} (h : moveStep s (.select i) = some t) :
    s.phase i = .idle ∧ t = ⟨s.store,
      Function.update s.phase i (.selected (selectToProcess s.store.hosts (visible s i)))⟩ := by
  rcases moveStep_cases h with ⟨j, ha, hi, ht⟩ | ⟨j, _, ha, _⟩ | ⟨j, _, ha, _⟩ | ⟨j, _, ha, _⟩ | ⟨p, ha, _⟩
  · obtain rfl := MoveStep.select.inj ha
    exact ⟨hi, ht⟩
  all_goals cases ha

theorem phase_self (store : Store c) (phase : Session → Phase) (i : Session) (ph : Phase) :
    (Sessions.mk store (Function.update phase i ph)).phase i = ph := Function.update_self i ph phase

theorem phase_of_ne (store : Store c) (phase : Session → Phase) {i j : Session} (ph : Phase) (h : j ≠ i) :
    (Sessions.mk store (Function.update phase i ph)).phase j = phase j := Function.update_of_ne h ph phase

/-- A quantity of both sessions together changes by what the one session changes. -/
theorem both_update (f : Phase → Nat) (phase : Session → Phase) (i : Session) (ph : Phase) :
    f (Function.update phase i ph .first) + f (Function.update phase i ph .second) + f (phase i) =
      f (phase .first) + f (phase .second) + f ph := by
  cases i with
  | first =>
    rw [Function.update_self, Function.update_of_ne Session.noConfusion]
    omega
  | second =>
    rw [Function.update_self, Function.update_of_ne Session.noConfusion]
    omega

theorem logged_insertProcessed (s : Store c) (temp : List TempRow) (k : Nat) :
    logged { s with logs := insertProcessed s.logs temp } k = logged s k + (temp.map (·.call)).count k := by
  rw [logged, insertProcessed_calls, List.count_append, logged]

end steps

section genuine

/-- The columns are those of the log passed to the call. -/
def Stems (s : Store c) (columns : LogColumns) (call : Nat) : Prop :=
  ∃ p, s.saved[call]? = some p ∧ columns = p.1.toLogColumns

def Copied (s : Sessions c) (x : Copy) : Prop :=
  x ∈ s.store.unprocessedLogs.rows.map rowCopy ∨ ∃ i, x ∈ (s.phase i).copies

/-- The selected rows that the session has already put into logs. -/
def Phase.moved : Phase → List Copy
  | inserted temp => temp.map tempCopy
  | deleted rows => rows.map rowCopy
  | _ => []

/-- What holds in every interleaving: a key of unprocessed_logs means one log wherever
it is copied to, and moved rows are in logs. -/
structure Genuine (s : Sessions c) : Prop where
  stems : ∀ x, Copied s x → Stems s.store x.2.1 x.2.2
  bound : ∀ x, Copied s x → x.1 < s.store.unprocessedLogs.autoIncrement
  consistent : ∀ x y, Copied s x → Copied s y → x.1 = y.1 → x = y
  logged : ∀ r ∈ s.store.logs.rows, Stems s.store r.2.toLogColumns r.2.call
  moved : ∀ i, ∀ x ∈ (s.phase i).moved, x.2.2 ∈ s.store.logs.rows.map (·.2.call)

theorem Stems.saveLog {s : Store c} {columns : LogColumns} {k : Nat} (h : Stems s columns k)
    (p : LogParameters) : Stems (saveLog s p).2 columns k := by
  obtain ⟨q, hq, hcol⟩ := h
  refine ⟨q, ?_, hcol⟩
  obtain ⟨hlt, _⟩ := List.getElem?_eq_some_iff.mp hq
  rw [saved_saveLog, List.getElem?_append_left hlt, hq]

theorem stems_new (s : Store c) (p : LogParameters) :
    Stems (saveLog s p).2 p.toLogColumns s.saved.length := by
  refine ⟨(p, (Database.saveLog s p).1), ?_, rfl⟩
  rw [saved_saveLog, List.getElem?_concat_length]

theorem genuine_start {store : Store c} (h : Ledger store) : Genuine (start store) where
  stems := by
    rintro x (hx | ⟨i, hx⟩)
    · obtain ⟨u, hu, rfl⟩ := List.mem_map.mp hx
      obtain ⟨p, hp, hcol, _⟩ := h.pending u hu
      exact ⟨p, hp, hcol⟩
    · cases hx
  bound := by
    rintro x (hx | ⟨i, hx⟩)
    · obtain ⟨u, hu, rfl⟩ := List.mem_map.mp hx
      exact store.unprocessedLogs.fresh u hu
    · cases hx
  consistent := by
    rintro x y (hx | ⟨i, hx⟩) (hy | ⟨j, hy⟩) hk
    · obtain ⟨u, hu, rfl⟩ := List.mem_map.mp hx
      obtain ⟨v, hv, rfl⟩ := List.mem_map.mp hy
      rw [store.unprocessedLogs.eq_of_key_eq hu hv hk]
    all_goals first | cases hx | cases hy
  logged := by
    intro r hr
    obtain ⟨p, hp, hcol, _⟩ := h.logged r hr
    exact ⟨p, hp, hcol⟩
  moved i x hx := by cases hx

/-- A session only copies what is a row or a copy already. -/
theorem Copied.of_update {s : Sessions c} {store : Store c} {i : Session} {ph : Phase}
    (hrows : store.unprocessedLogs.rows ⊆ s.store.unprocessedLogs.rows)
    (hph : ∀ x ∈ ph.copies, Copied s x) {x : Copy}
    (h : Copied ⟨store, Function.update s.phase i ph⟩ x) : Copied s x := by
  rcases h with hx | ⟨j, hx⟩
  · exact .inl (List.map_subset _ hrows hx)
  · by_cases hj : j = i
    · subst hj
      rw [phase_self] at hx
      exact hph x hx
    · rw [phase_of_ne _ _ _ hj] at hx
      exact .inr ⟨j, hx⟩

theorem Genuine.of_update {s : Sessions c} (h : Genuine s) {store : Store c} {i : Session} {ph : Phase}
    (hsaved : store.saved = s.store.saved)
    (hcounter : store.unprocessedLogs.autoIncrement = s.store.unprocessedLogs.autoIncrement)
    (hrows : store.unprocessedLogs.rows ⊆ s.store.unprocessedLogs.rows)
    (hlogs : ∀ r ∈ store.logs.rows, Stems s.store r.2.toLogColumns r.2.call)
    (hcalls : s.store.logs.rows.map (·.2.call) ⊆ store.logs.rows.map (·.2.call))
    (hph : ∀ x ∈ ph.copies, Copied s x)
    (hmoved : ∀ x ∈ ph.moved, x.2.2 ∈ store.logs.rows.map (·.2.call)) :
    Genuine ⟨store, Function.update s.phase i ph⟩ where
  stems x hx := by
    rw [Stems, hsaved]
    exact h.stems x (hx.of_update hrows hph)
  bound x hx := by
    rw [hcounter]
    exact h.bound x (hx.of_update hrows hph)
  consistent x y hx hy := h.consistent x y (hx.of_update hrows hph) (hy.of_update hrows hph)
  logged r hr := by
    rw [Stems, hsaved]
    exact hlogs r hr
  moved j x hx := by
    by_cases hj : j = i
    · subst hj
      rw [phase_self] at hx
      exact hmoved x hx
    · rw [phase_of_ne _ _ _ hj] at hx
      exact hcalls (h.moved j x hx)

theorem mem_tempCopy_select {hosts : Hosts c} {us : List (Nat × UnprocessedRow)} {x : Copy}
    (h : x ∈ (selectToProcess hosts us).map tempCopy) : x ∈ us.map rowCopy := by
  obtain ⟨t, ht, rfl⟩ := List.mem_map.mp h
  obtain ⟨u, hu, w, _, rfl⟩ := mem_selectToProcess.mp ht
  exact List.mem_map_of_mem (f := rowCopy) hu

theorem copied_of_visible {s : Sessions c} {i : Session} {x : Copy}
    (h : x ∈ (visible s i).map rowCopy) : Copied s x := by
  rw [visible, List.map_append, List.mem_append] at h
  rcases h with h | h
  · refine .inr ⟨i.other, ?_⟩
    cases hph : s.phase i.other with
    | deleted rows => rwa [hph] at h
    | _ =>
      rw [hph] at h
      cases h
  · exact .inl h

theorem Copied.saveLog {s : Sessions c} {p : LogParameters} {x : Copy}
    (h : Copied ⟨(saveLog s.store p).2, s.phase⟩ x) :
    Copied s x ∨ (x = (s.store.unprocessedLogs.autoIncrement, p.toLogColumns, s.store.saved.length) ∧
      (Database.saveLog s.store p).2.unprocessedLogs.autoIncrement =
        s.store.unprocessedLogs.autoIncrement + 1) := by
  rcases h with hx | hx
  · rcases saveLog_cases s.store p with ⟨_, _, he⟩ | ⟨_, he⟩
    · rw [he] at hx
      exact .inl (.inl hx)
    · rw [he] at hx ⊢
      rw [Table.insert_rows, List.map_append, List.mem_append] at hx
      rcases hx with hx | hx
      · exact .inl (.inl hx)
      · exact .inr ⟨List.mem_singleton.mp hx, rfl⟩
  · exact .inl (.inr hx)

theorem counter_le_saveLog (s : Store c) (p : LogParameters) :
    s.unprocessedLogs.autoIncrement ≤ (saveLog s p).2.unprocessedLogs.autoIncrement := by
  rcases saveLog_cases s p with ⟨_, _, he⟩ | ⟨_, he⟩
  · rw [he]
  · rw [he]
    exact Nat.le_succ _

theorem Genuine.saveLog {s : Sessions c} (h : Genuine s) (p : LogParameters) :
    Genuine ⟨(saveLog s.store p).2, s.phase⟩ where
  stems x hx := by
    rcases hx.saveLog with hx | ⟨rfl, _⟩
    · exact (h.stems x hx).saveLog p
    · exact stems_new s.store p
  bound x hx := by
    rcases hx.saveLog with hx | ⟨rfl, hc⟩
    · exact (h.bound x hx).trans_le (counter_le_saveLog s.store p)
    · dsimp only
      omega
  consistent x y hx hy hk := by
    rcases hx.saveLog with hx | ⟨rfl, _⟩
    · rcases hy.saveLog with hy | ⟨rfl, _⟩
      · exact h.consistent x y hx hy hk
      · exact absurd hk (h.bound x hx).ne
    · rcases hy.saveLog with hy | ⟨rfl, _⟩
      · exact absurd hk.symm (h.bound y hy).ne
      · rfl
  logged r hr := by
    have hnew := stems_new s.store p
    rcases saveLog_cases s.store p with ⟨_, _, he⟩ | ⟨_, he⟩
    · have hr' := hr
      rw [he] at hr'
      rcases List.mem_append.mp hr' with hr' | hr'
      · exact (h.logged r hr').saveLog p
      · obtain rfl := List.mem_singleton.mp hr'
        exact hnew
    · have hr' := hr
      rw [he] at hr'
      exact (h.logged r hr').saveLog p
  moved i x hx := List.map_subset _ (logs_prefix_saveLog s.store p).subset (h.moved i x hx)

theorem Genuine.step {s t : Sessions c} {a : MoveStep} (h : Genuine s) (ha : moveStep s a = some t) :
    Genuine t := by
  rcases moveStep_cases ha with ⟨i, rfl, hi, rfl⟩ | ⟨i, temp, rfl, hi, rfl⟩ | ⟨i, temp, rfl, hi, rfl⟩ |
    ⟨i, rows, rfl, hi, rfl⟩ | ⟨p, rfl, rfl⟩
  · refine h.of_update rfl rfl (List.Subset.refl _) h.logged (List.Subset.refl _) ?_ ?_
    · exact fun x hx => copied_of_visible (mem_tempCopy_select hx)
    · rintro x ⟨⟩
  · have hcopied : ∀ x ∈ temp.map tempCopy, Copied s x := fun x hx => .inr ⟨i, by rwa [hi]⟩
    refine h.of_update rfl rfl (List.Subset.refl _) ?_ ?_ hcopied ?_
    · intro r hr
      rcases mem_insertProcessed hr with ⟨l, hl, he⟩ | ⟨t, ht, he⟩
      · rw [← he]
        exact h.logged l hl
      · rw [he]
        exact h.stems _ (hcopied _ (List.mem_map_of_mem ht))
    · rw [insertProcessed_calls]
      exact List.subset_append_left _ _
    · intro x hx
      obtain ⟨t, ht, rfl⟩ := List.mem_map.mp hx
      rw [insertProcessed_calls]
      exact List.mem_append_right _ (List.mem_map_of_mem ht)
  · have hsub : s.store.unprocessedLogs.rows.filter (inTemp temp) ⊆ s.store.unprocessedLogs.rows :=
      List.filter_sublist.subset
    refine h.of_update rfl rfl List.filter_sublist.subset h.logged (List.Subset.refl _) ?_ ?_
    · exact fun x hx => .inl (List.map_subset _ hsub hx)
    · intro x hx
      obtain ⟨u, hu, rfl⟩ := List.mem_map.mp hx
      obtain ⟨hu, hin⟩ := List.mem_filter.mp hu
      obtain ⟨t, ht, hk⟩ := List.any_eq_true.mp hin
      have hmoved : tempCopy t ∈ (s.phase i).moved := by
        rw [hi]
        exact List.mem_map_of_mem ht
      have hcopied : Copied s (tempCopy t) := .inr ⟨i, by rw [hi]; exact List.mem_map_of_mem ht⟩
      rw [h.consistent _ _ (.inl (List.mem_map_of_mem hu)) hcopied (of_decide_eq_true hk)]
      exact h.moved i _ hmoved
  · refine h.of_update rfl rfl (List.Subset.refl _) h.logged (List.Subset.refl _) ?_ ?_
    all_goals rintro x ⟨⟩
  · exact h.saveLog p

end genuine

section apart

/-- The temporary table of a session that has not deleted its rows yet. -/
def Phase.temp : Phase → List TempRow
  | selected temp => temp
  | inserted temp => temp
  | _ => []

/-- How often a call lies both in logs and, not yet deleted, in unprocessed_logs. -/
def Phase.doubled (k : Nat) : Phase → Nat
  | inserted temp => (temp.map (·.call)).count k
  | _ => 0

/-- What holds as long as the sessions select apart. -/
structure MovesApart (s : Sessions c) : Prop where
  balance : ∀ k, logged s.store k + pending s.store k =
    (List.range s.store.saved.length).count k +
      ((s.phase .first).doubled k + (s.phase .second).doubled k)
  present : ∀ i k, ((s.store.unprocessedLogs.rows.filter (inTemp (s.phase i).temp)).map (·.2.call)).count k =
    ((s.phase i).temp.map (·.call)).count k
  apart : ∀ i, ∀ x ∈ (s.phase i).copies.map Prod.fst, x ∉ (s.phase i.other).copies.map Prod.fst

/-- Disjointness for the one session that changes is enough. -/
private theorem apart_update {s : Sessions c} {store : Store c} {i : Session} {ph : Phase}
    (hph : ∀ x ∈ ph.copies.map Prod.fst, x ∉ (s.phase i.other).copies.map Prod.fst) (j : Session) (x : Nat)
    (hx : x ∈ ((Sessions.mk store (Function.update s.phase i ph)).phase j).copies.map Prod.fst) :
    x ∉ ((Sessions.mk store (Function.update s.phase i ph)).phase j.other).copies.map Prod.fst := by
  rcases Session.eq_or i j with rfl | rfl
  · rw [phase_self] at hx
    rw [phase_of_ne _ _ _ j.other_ne]
    exact hph x hx
  · rw [phase_of_ne _ _ _ i.other_ne] at hx
    rw [i.other_other, phase_self]
    exact fun hx' => hph x hx' hx

private theorem present_update {s : Sessions c} {store : Store c} {i : Session} {ph : Phase}
    (hi : ∀ k, ((store.unprocessedLogs.rows.filter (inTemp ph.temp)).map (·.2.call)).count k =
      (ph.temp.map (·.call)).count k)
    (hother : ∀ k, ((store.unprocessedLogs.rows.filter (inTemp (s.phase i.other).temp)).map (·.2.call)).count k =
      ((s.phase i.other).temp.map (·.call)).count k) (j : Session) (k : Nat) :
    ((store.unprocessedLogs.rows.filter
      (inTemp ((Sessions.mk store (Function.update s.phase i ph)).phase j).temp)).map (·.2.call)).count k =
      (((Sessions.mk store (Function.update s.phase i ph)).phase j).temp.map (·.call)).count k := by
  rcases Session.eq_or i j with rfl | rfl
  · rw [phase_self]
    exact hi k
  · rw [phase_of_ne _ _ _ i.other_ne]
    exact hother k

private theorem present_nil (rows : List (Nat × UnprocessedRow)) (k : Nat) :
    ((rows.filter (inTemp [])).map (·.2.call)).count k = (([] : List TempRow).map (·.call)).count k := by
  have hnil : rows.filter (inTemp []) = [] := List.filter_eq_nil_iff.mpr fun u _ => by simp [inTemp]
  rw [hnil]
  rfl

theorem movesApart_start {store : Store c} (h : Ledger store) : MovesApart (start store) where
  balance k := by
    have hc := h.once.count_eq k
    rw [List.count_append] at hc
    exact hc
  present i k := present_nil _ _
  apart i x hx := by cases hx

/-- Under the guard a session selects rows of the table only, none that waits for a commit. -/
theorem select_eq {s : Sessions c} {i : Session} (hg : SelectsApart s (.select i)) :
    selectToProcess s.store.hosts (visible s i) =
      selectToProcess s.store.hosts s.store.unprocessedLogs.rows := by
  have hnil : selectToProcess s.store.hosts (s.phase i.other).uncommitted = [] := by
    rw [List.eq_nil_iff_forall_not_mem]
    intro t ht
    have hsel : t ∈ selectToProcess s.store.hosts (visible s i) := by
      obtain ⟨u, hu, hw⟩ := mem_selectToProcess.mp ht
      exact mem_selectToProcess.mpr ⟨u, List.mem_append_left _ hu, hw⟩
    apply hg t hsel
    obtain ⟨u, hu, w, _, rfl⟩ := mem_selectToProcess.mp ht
    cases hph : s.phase i.other with
    | deleted rows =>
      rw [hph] at hu
      exact List.mem_map_of_mem (f := Prod.fst) (List.mem_map_of_mem (f := rowCopy) hu)
    | _ =>
      rw [hph] at hu
      cases hu
  rw [visible, selectToProcess, List.flatMap_append, ← selectToProcess, ← selectToProcess, hnil, List.nil_append]

theorem MovesApart.select {s : Sessions c} (h : MovesApart s) {i : Session} (hi : s.phase i = .idle)
    (hg : SelectsApart s (.select i)) : MovesApart ⟨s.store,
      Function.update s.phase i (.selected (selectToProcess s.store.hosts (visible s i)))⟩ where
  balance k := by
    have hb := h.balance k
    have hd := both_update (Phase.doubled k) s.phase i
      (.selected (selectToProcess s.store.hosts (visible s i)))
    rw [hi] at hd
    simp only [Phase.doubled] at hd hb ⊢
    omega
  present := by
    refine present_update (fun k => ?_) (h.present i.other)
    rw [select_eq hg, Phase.temp, selectToProcess_calls, List.filter_congr]
    exact fun u hu => any_selectToProcess _ _ hu
  apart := by
    refine apart_update fun x hx => ?_
    rw [Phase.copies, List.map_map] at hx
    obtain ⟨t, ht, rfl⟩ := List.mem_map.mp hx
    exact hg t ht

theorem MovesApart.insert {s : Sessions c} (h : MovesApart s) {i : Session} {temp : List TempRow}
    (hi : s.phase i = .selected temp) :
    MovesApart ⟨{ s.store with logs := insertProcessed s.store.logs temp },
      Function.update s.phase i (.inserted temp)⟩ where
  balance k := by
    have hb := h.balance k
    have hd := both_update (Phase.doubled k) s.phase i (.inserted temp)
    have hl := logged_insertProcessed s.store temp k
    rw [hi] at hd
    simp only [Phase.doubled, pending] at hd hb ⊢
    omega
  present := by
    refine present_update (fun k => ?_) (h.present i.other)
    have hp := h.present i k
    rwa [hi] at hp
  apart := by
    refine apart_update fun x hx => ?_
    apply h.apart i x
    rwa [hi]

/-- The rows left by the delete, filtered by another temporary table, are those it had. -/
private theorem filter_deleteProcessed {t : Table UnprocessedRow} {temp temp' : List TempRow}
    (h : ∀ r ∈ temp', r.logId ∉ temp.map (·.logId)) :
    (deleteProcessed t temp).rows.filter (inTemp temp') = t.rows.filter (inTemp temp') := by
  rw [deleteProcessed, Table.deleteWhere_rows, List.filter_filter]
  apply List.filter_congr
  intro u _
  cases hin : inTemp temp' u with
  | false => rfl
  | true =>
    obtain ⟨r, hr, hk⟩ := List.any_eq_true.mp hin
    rw [Bool.true_and, Bool.not_eq_true', List.any_eq_false]
    intro r' hr' hk'
    apply h r hr
    rw [← of_decide_eq_true hk, of_decide_eq_true hk']
    exact List.mem_map_of_mem hr'

/-- The keys of a temporary table are claimed by its session. -/
theorem logId_mem_copies (ph : Phase) {r : TempRow} (h : r ∈ ph.temp) :
    r.logId ∈ ph.copies.map Prod.fst := by
  cases ph with
  | selected temp => exact List.mem_map_of_mem (f := Prod.fst) (List.mem_map_of_mem (f := tempCopy) h)
  | inserted temp => exact List.mem_map_of_mem (f := Prod.fst) (List.mem_map_of_mem (f := tempCopy) h)
  | _ => cases h

theorem MovesApart.delete {s : Sessions c} (h : MovesApart s) {i : Session} {temp : List TempRow}
    (hi : s.phase i = .inserted temp) :
    MovesApart ⟨{ s.store with unprocessedLogs := deleteProcessed s.store.unprocessedLogs temp },
      Function.update s.phase i (.deleted (s.store.unprocessedLogs.rows.filter (inTemp temp)))⟩ where
  balance k := by
    have hb := h.balance k
    have hp := h.present i k
    have hd := both_update (Phase.doubled k) s.phase i
      (.deleted (s.store.unprocessedLogs.rows.filter (inTemp temp)))
    have hrows := ((List.filter_append_perm (inTemp temp) s.store.unprocessedLogs.rows).map
      (·.2.call)).count_eq k
    rw [List.map_append, List.count_append] at hrows
    rw [hi] at hd hp
    simp only [Phase.doubled, Phase.temp, logged, pending] at hd hb hp ⊢
    rw [deleteProcessed, Table.deleteWhere_rows]
    change _ + (List.map _ (List.filter (fun u => !inTemp temp u) _)).count k = _
    omega
  present := by
    refine present_update (present_nil _) fun k => ?_
    rw [filter_deleteProcessed]
    · exact h.present i.other k
    · intro r hr hmem
      have ha := h.apart i.other _ (logId_mem_copies _ hr)
      rw [i.other_other, hi, Phase.copies, List.map_map] at ha
      exact ha hmem
  apart := by
    refine apart_update fun x hx => ?_
    apply h.apart i x
    rw [Phase.copies, List.map_map] at hx
    obtain ⟨u, hu, rfl⟩ := List.mem_map.mp hx
    obtain ⟨r, hr, hk⟩ := List.any_eq_true.mp (List.mem_filter.mp hu).2
    have hkey : u.1 = r.logId := of_decide_eq_true hk
    have hclaimed := logId_mem_copies (.inserted temp) hr
    rw [← hkey] at hclaimed
    rwa [hi]

theorem MovesApart.commit {s : Sessions c} (h : MovesApart s) {i : Session}
    {rows : List (Nat × UnprocessedRow)} (hi : s.phase i = .deleted rows) :
    MovesApart ⟨s.store, Function.update s.phase i .finished⟩ where
  balance k := by
    have hb := h.balance k
    have hd := both_update (Phase.doubled k) s.phase i .finished
    rw [hi] at hd
    simp only [Phase.doubled] at hd hb ⊢
    omega
  present := present_update (present_nil _) (h.present i.other)
  apart := apart_update fun x hx => by cases hx

theorem MovesApart.saveLog {s : Sessions c} (h : MovesApart s) (hgen : Genuine s) (p : LogParameters) :
    MovesApart ⟨(saveLog s.store p).2, s.phase⟩ where
  balance k := by
    have hb := h.balance k
    rcases saveLog_cases s.store p with ⟨_, _, he⟩ | ⟨_, he⟩
    all_goals
      simp only [he, logged, pending, logRow, Table.insert_rows, List.map_append, List.map_singleton,
        List.length_append, List.length_singleton, List.range_succ, List.count_append] at hb ⊢
      omega
  present i k := by
    have hnew (row : UnprocessedRow) :
        inTemp (s.phase i).temp (s.store.unprocessedLogs.autoIncrement, row) = false := by
      rw [inTemp, List.any_eq_false]
      intro r hr hk
      obtain ⟨x, hx, hxid⟩ := List.mem_map.mp (logId_mem_copies _ hr)
      have hlt := hgen.bound x (.inr ⟨i, hx⟩)
      have hkey : s.store.unprocessedLogs.autoIncrement = r.logId := of_decide_eq_true hk
      omega
    rcases saveLog_cases s.store p with ⟨_, _, he⟩ | ⟨_, he⟩
    · rw [he]
      exact h.present i k
    · rw [he, Table.insert_rows, List.filter_append, List.filter_singleton, hnew, cond_false, List.append_nil]
      exact h.present i k
  apart := h.apart

theorem MovesApart.step {s t : Sessions c} {a : MoveStep} (h : MovesApart s) (hgen : Genuine s)
    (hg : SelectsApart s a) (ha : moveStep s a = some t) : MovesApart t := by
  rcases moveStep_cases ha with ⟨i, rfl, hi, rfl⟩ | ⟨i, temp, rfl, hi, rfl⟩ | ⟨i, temp, rfl, hi, rfl⟩ |
    ⟨i, rows, rfl, hi, rfl⟩ | ⟨p, rfl, rfl⟩
  · exact h.select hi hg
  · exact h.insert hi
  · exact h.delete hi
  · exact h.commit hi
  · exact h.saveLog hgen p

end apart

section clash

/-- How often a call lies in a temporary table that is still to be inserted. -/
def Phase.toInsert (k : Nat) : Phase → Nat
  | selected temp => (temp.map (·.call)).count k
  | _ => 0

/-- The rows of logs that stem from a call and those that are certain to come. -/
def due (s : Sessions c) (k : Nat) : Nat :=
  logged s.store k + ((s.phase .first).toInsert k + (s.phase .second).toInsert k)

theorem due_le_step {s t : Sessions c} {a : MoveStep} (ha : moveStep s a = some t) (k : Nat) :
    due s k ≤ due t k := by
  rcases moveStep_cases ha with ⟨i, rfl, hi, rfl⟩ | ⟨i, temp, rfl, hi, rfl⟩ | ⟨i, temp, rfl, hi, rfl⟩ |
    ⟨i, rows, rfl, hi, rfl⟩ | ⟨p, rfl, rfl⟩
  · have hd := both_update (Phase.toInsert k) s.phase i
      (.selected (selectToProcess s.store.hosts (visible s i)))
    rw [hi] at hd
    simp only [due, Phase.toInsert] at hd ⊢
    omega
  · have hd := both_update (Phase.toInsert k) s.phase i (.inserted temp)
    have hl := logged_insertProcessed s.store temp k
    rw [hi] at hd
    simp only [due, Phase.toInsert] at hd ⊢
    omega
  · have hd := both_update (Phase.toInsert k) s.phase i
      (.deleted (s.store.unprocessedLogs.rows.filter (inTemp temp)))
    rw [hi] at hd
    simp only [due, Phase.toInsert, logged] at hd ⊢
    omega
  · have hd := both_update (Phase.toInsert k) s.phase i .finished
    rw [hi] at hd
    simp only [due, Phase.toInsert] at hd ⊢
    omega
  · have hsub : (s.store.logs.rows.map (·.2.call)).Sublist ((saveLog s.store p).2.logs.rows.map (·.2.call)) :=
      (logs_prefix_saveLog s.store p).sublist.map _
    have hle := hsub.count_le k
    simp only [due, logged]
    omega

theorem due_le_run {s t : Sessions c} {as : List MoveStep} (h : Run moveStep s as t) (k : Nat) :
    due s k ≤ due t k := by
  induction h with
  | nil => exact le_refl _
  | cons ha _ ih => exact (due_le_step ha k).trans ih

theorem due_select (s : Sessions c) (i : Session) (temp : List TempRow) (k : Nat) :
    due ⟨s.store, Function.update s.phase i (.selected temp)⟩ k =
      logged s.store k + (s.phase i.other).toInsert k + (temp.map (·.call)).count k := by
  have hne : Session.first ≠ .second := Session.noConfusion
  cases i with
  | first =>
    simp only [due, Function.update_self, Function.update_of_ne hne.symm, Session.other, Phase.toInsert]
    omega
  | second =>
    simp only [due, Function.update_self, Function.update_of_ne hne, Session.other, Phase.toInsert]
    omega

/-- A row that both sessions select is certain to get two rows in logs. -/
theorem due_of_clash {s t : Sessions c} {a : MoveStep} (hgen : Genuine s) (hg : ¬ SelectsApart s a)
    (ha : moveStep s a = some t) : ∃ k, 2 ≤ due t k := by
  cases a with
  | select i =>
    obtain ⟨hi, rfl⟩ := select_eq_some ha
    simp only [SelectsApart, not_forall, not_not] at hg
    obtain ⟨r, hr, hclash⟩ := hg
    obtain ⟨y, hy, hk⟩ := List.mem_map.mp hclash
    have hcopied : Copied s (tempCopy r) := copied_of_visible (mem_tempCopy_select (List.mem_map_of_mem hr))
    have hyr : y = tempCopy r := hgen.consistent _ _ (.inr ⟨i.other, hy⟩) hcopied hk
    have hother : 0 < logged s.store r.call + (s.phase i.other).toInsert r.call := by
      cases hph : s.phase i.other with
      | selected temp =>
        rw [hph, hyr] at hy
        obtain ⟨r', hr', he⟩ := List.mem_map.mp hy
        have hc : r'.call = r.call := congrArg (fun x : Copy => x.2.2) he
        have hpos : 0 < (temp.map (·.call)).count r.call :=
          List.count_pos_iff.mpr (hc ▸ List.mem_map_of_mem hr')
        exact Nat.add_pos_right _ hpos
      | inserted temp =>
        have hm := hgen.moved i.other y (by rwa [hph] at hy ⊢)
        rw [hyr] at hm
        exact Nat.add_pos_left (List.count_pos_iff.mpr hm) _
      | deleted rows =>
        have hm := hgen.moved i.other y (by rwa [hph] at hy ⊢)
        rw [hyr] at hm
        exact Nat.add_pos_left (List.count_pos_iff.mpr hm) _
      | _ =>
        rw [hph] at hy
        cases hy
    have hown : 0 < ((selectToProcess s.store.hosts (visible s i)).map (·.call)).count r.call :=
      List.count_pos_iff.mpr (List.mem_map_of_mem hr)
    refine ⟨r.call, ?_⟩
    rw [due_select]
    omega
  | _ => exact absurd trivial hg

end clash

theorem keptOnce_of_finished {s : Sessions c} (hgen : Genuine s) (h : MovesApart s)
    (hf : ∀ i, s.phase i = .finished) : KeptOnce s.store := by
  intro k p hk
  refine ⟨?_, fun r hr hc => ?_, fun u hu hc => ?_⟩
  · have hb := h.balance k
    have hlt := (List.getElem?_eq_some_iff.mp hk).1
    have hone := List.count_eq_one_of_mem List.nodup_range (List.mem_range.mpr hlt)
    rw [hf, hf, hone] at hb
    exact hb
  · obtain ⟨q, hq, hcol⟩ := hgen.logged r hr
    rw [hc] at hq
    obtain rfl := Option.some.inj (hq.symm.trans hk)
    exact hcol
  · obtain ⟨q, hq, hcol⟩ := hgen.stems _ (.inl (List.mem_map_of_mem hu))
    change s.store.saved[u.2.call]? = some q at hq
    rw [hc] at hq
    obtain rfl := Option.some.inj (hq.symm.trans hk)
    exact hcol

theorem not_keptOnce_of_due {s : Sessions c} (hgen : Genuine s) (hf : ∀ i, s.phase i = .finished)
    {k : Nat} (h : 2 ≤ due s k) : ¬ KeptOnce s.store := by
  intro hkept
  rw [due, hf, hf] at h
  change 2 ≤ logged s.store k + 0 at h
  have hmem : k ∈ s.store.logs.rows.map (·.2.call) := by
    apply List.count_pos_iff.mp
    change 0 < logged s.store k
    omega
  obtain ⟨r, hr, rfl⟩ := List.mem_map.mp hmem
  obtain ⟨p, hp, _⟩ := hgen.logged r hr
  have hone := (hkept _ p hp).1
  omega

/-- Two sessions that have both finished, with any calls of `saveLog` in between, have
kept each log exactly once if and only if they selected apart. -/
theorem concurrent_moves_keep_logs_iff (c : Collation) (before : List StoreCall) {as : List MoveStep}
    {t : Sessions c} (h : Run moveStep (start ((Store.empty : Store c).calls before)) as t)
    (hf : ∀ i, t.phase i = .finished) :
    KeptOnce t.store ↔ AllSteps moveStep SelectsApart (start ((Store.empty : Store c).calls before)) as := by
  have hled : Ledger ((Store.empty : Store c).calls before) := ledger_empty.calls before
  have hgen : ∀ {s : Sessions c} {bs}, Run moveStep (start ((Store.empty : Store c).calls before)) bs s →
      Genuine s := fun hr => hr.invariant (fun _ _ _ hs ha => hs.step ha) (genuine_start hled)
  constructor
  · intro hkept
    by_contra hg
    obtain ⟨bs, a, ds, u, v, rfl, hu, _, hclash, ha, hv⟩ := h.first_violation hg
    obtain ⟨k, hk⟩ := due_of_clash (hgen hu) hclash ha
    exact not_keptOnce_of_due (hgen h) hf (hk.trans (due_le_run hv k)) hkept
  · intro hg
    have hboth := h.guarded_invariant (I := fun s => Genuine s ∧ MovesApart s) hg
      (fun _ _ _ hs hga ha => ⟨hs.1.step ha, hs.2.step hs.1 hga ha⟩)
      ⟨genuine_start hled, movesApart_start hled⟩
    exact keptOnce_of_finished hboth.1 hboth.2 hf

/-- One log of host `h` waits in unprocessed_logs, and the host is registered. -/
def oneWaiting : List StoreCall :=
  [.saveLog ⟨⟨⟨0, Datetime.zero_in_range⟩, none, none, none, none, none⟩, ⟨"h".toList, h_fits_host⟩⟩,
    .saveHost (some ⟨"h".toList, h_fits_hostname⟩) none]

def oneAfterTheOther : List MoveStep :=
  [.select .first, .insert .first, .delete .first, .commit .first,
    .select .second, .insert .second, .delete .second, .commit .second]

theorem one_after_the_other_keeps_logs : ∃ t : Sessions Collation.binary,
    Run moveStep (start (Store.empty.calls oneWaiting)) oneAfterTheOther t ∧ (∀ i, t.phase i = .finished) ∧
      (KeptOnce t.store ↔ AllSteps moveStep SelectsApart
        (start ((Store.empty : Store Collation.binary).calls oneWaiting)) oneAfterTheOther) := by
  have hex : ∃ t : Sessions Collation.binary, Run moveStep (start (Store.empty.calls oneWaiting)) oneAfterTheOther t ∧
      ∀ i, t.phase i = .finished := ⟨_, exec_eq_some_iff.mp rfl, fun i => by cases i <;> rfl⟩
  obtain ⟨t, hrun, hf⟩ := hex
  exact ⟨t, hrun, hf, concurrent_moves_keep_logs_iff Collation.binary oneWaiting hrun hf⟩

def bothSelectFirst : List MoveStep :=
  [.select .first, .select .second, .insert .first, .insert .second,
    .delete .first, .commit .first, .delete .second, .commit .second]

/-- Both sessions select the waiting log, which then has two rows in logs. -/
theorem both_select_first_doubles_log : ∃ t : Sessions Collation.binary,
    Run moveStep (start (Store.empty.calls oneWaiting)) bothSelectFirst t ∧
      (∀ i, t.phase i = .finished) ∧ ¬ KeptOnce t.store := by
  refine ⟨_, exec_eq_some_iff.mp rfl, fun i => by cases i <;> rfl, fun h => ?_⟩
  have hone := (h 0 _ rfl).1
  revert hone
  decide

end Srvlog.Database
