import Srvlog.Database.StoreLedger
import Srvlog.Library.SqlText
import Srvlog.Web.AddHostsPage

/-! Submitting the page as it was opened for the unprocessed hosts, and moving their logs
afterwards. -/
namespace Srvlog.Web
open Library Database AddHostsPage
variable {c : Collation}

section distinct

/-- The names that the query may answer with: one of each class of equal names, in any order. -/
structure SelectsHosts (s : Store c) (names : List (Varchar 60)) : Prop where
  sound : ∀ name ∈ names, ∃ u ∈ s.unprocessedLogs.rows, u.2.host = name
  complete : ∀ u ∈ s.unprocessedLogs.rows, ∃ name ∈ names, c.same name.chars u.2.host.chars = true
  distinct : names.Pairwise fun a b => c.same a.chars b.chars = false

theorem selectsHosts_getUnprocessedHostsName (s : Store c) : SelectsHosts s (getUnprocessedHostsName s) where
  sound name hname := by
    obtain ⟨u, hu, hhost⟩ := List.mem_map.mp ((List.pwFilter_sublist _).mem hname)
    exact ⟨u, hu, hhost⟩
  complete u hu := by
    exact @exists_same_of_mem _ (fun a b : Varchar 60 => c.same a.chars b.chars) (fun a => c.refl a.chars)
      (fun a b => c.symm a.chars b.chars) (fun a b d => c.trans a.chars b.chars d.chars) _ _ (List.mem_map_of_mem hu)
  distinct := List.pairwise_pwFilter _

theorem SelectsHosts.nodup {s : Store c} {names : List (Varchar 60)} (h : SelectsHosts s names) :
    (names.map (·.chars)).Nodup := by
  rw [List.Nodup, List.pairwise_map]
  refine h.distinct.imp fun {a b} hdiffer heq => ?_
  rw [heq, c.refl] at hdiffer
  cases hdiffer

end distinct

section inserts
variable {hosts after : Hosts c}

def hostDataOf (name : Varchar 60) : HostData := ⟨name.chars, []⟩

/-- Names are compared by their characters, whatever the width of their columns. -/
theorem equal_chars {m : Nat} (hostname : Option (Varchar m)) (name : Varchar 60) (h : name.chars.length ≤ 120) :
    c.equal hostname (some (⟨name.chars, h⟩ : Varchar 120)) = c.equal hostname (some name) := by
  cases hostname with
  | none => rfl
  | some hostname => rfl

/-- The insert of a name that comes from unprocessed_logs fails only for a registered host. -/
theorem saveHostData_cases (hosts : Hosts c) (name : Varchar 60) :
    (hosts.withName name ≠ [] ∧ saveHostData hosts (hostDataOf name) = none) ∨
      ∃ after, hosts.withName name = [] ∧ saveHostData hosts (hostDataOf name) = some after ∧
        ∃ row : Nat × HostRow, after.rows = hosts.rows ++ [row] ∧ c.equal row.2.hostname (some name) = true ∧
          ∀ other : Varchar 60, c.equal row.2.hostname (some other) = c.same name.chars other.chars := by
  have hlong : name.chars.length ≤ 120 := name.fits.trans (by decide)
  have hcall : saveHostData hosts (hostDataOf name) =
      hosts.insert? ⟨some ⟨name.chars, hlong⟩, some ⟨[], by decide⟩⟩ := by
    unfold saveHostData hostDataOf varchar?
    dsimp only
    rw [dif_pos hlong]
    rfl
  rw [hcall, Hosts.insert?]
  split
  · next hfree =>
    right
    refine ⟨_, ?_, rfl, _, rfl, c.refl _, fun _ => rfl⟩
    rw [List.eq_nil_iff_forall_not_mem]
    intro p hp
    obtain ⟨hp, hequal⟩ := Hosts.mem_withName.mp hp
    have hno := hfree p hp
    rw [equal_chars, hequal] at hno
    cases hno
  · next htaken =>
    left
    refine ⟨fun hnil => htaken fun p hp => ?_, rfl⟩
    rw [equal_chars, Bool.eq_false_iff]
    intro hequal
    have hmem := Hosts.mem_withName.mpr ⟨hp, hequal⟩
    rw [hnil] at hmem
    cases hmem

theorem withName_append {name : Varchar 60} {row : Nat × HostRow} (h : after.rows = hosts.rows ++ [row]) :
    after.withName name = hosts.withName name ++ [row].filter fun p => c.equal p.2.hostname (some name) := by
  rw [Hosts.withName, h, List.filter_append, ← Hosts.withName]

/-- Hosts that are all new, and different from each other, are registered together. -/
theorem saveHosts_new {names : List (Varchar 60)} (hnew : ∀ name ∈ names, hosts.withName name = [])
    (hdistinct : names.Pairwise fun a b => c.same a.chars b.chars = false) :
    ∃ after, saveHosts hosts (names.map hostDataOf) = some after ∧ (∀ name ∈ names, after.withName name ≠ []) ∧
      ∀ name : Varchar 60, hosts.withName name ≠ [] → after.withName name ≠ [] := by
  induction names generalizing hosts with
  | nil => exact ⟨hosts, rfl, fun _ hname => absurd hname List.not_mem_nil, fun _ h => h⟩
  | cons name names ih =>
    rw [List.forall_mem_cons] at hnew
    rw [List.pairwise_cons] at hdistinct
    rcases saveHostData_cases hosts name with ⟨htaken, -⟩ | ⟨next, -, hsave, row, hrows, hrow, hsame⟩
    · exact absurd hnew.1 htaken
    have hrest : ∀ other ∈ names, next.withName other = [] := by
      intro other hother
      rw [withName_append hrows, hnew.2 other hother, List.nil_append, List.filter_singleton, hsame,
        hdistinct.1 other hother]
      rfl
    have hkept : ∀ other : Varchar 60, hosts.withName other ≠ [] → next.withName other ≠ [] := by
      intro other hother
      rw [withName_append hrows]
      exact List.append_ne_nil_of_left_ne_nil hother _
    have hadded : next.withName name ≠ [] := by
      rw [withName_append hrows, List.filter_singleton, hrow]
      exact List.append_ne_nil_of_right_ne_nil _ (List.cons_ne_nil _ _)
    obtain ⟨after, hafter, hnames, hall⟩ := ih hrest hdistinct.2
    refine ⟨after, ?_, ?_, fun other hother => hall other (hkept other hother)⟩
    · rw [saveHosts, List.map_cons, List.foldlM_cons, hsave]
      exact hafter
    · rw [List.forall_mem_cons]
      exact ⟨hall name hadded, hnames⟩

/-- A registered host among them undoes it all. -/
theorem withName_of_saveHosts {names : List (Varchar 60)} (h : saveHosts hosts (names.map hostDataOf) = some after) :
    ∀ name ∈ names, hosts.withName name = [] := by
  induction names generalizing hosts with
  | nil => exact fun _ hname => absurd hname List.not_mem_nil
  | cons name names ih =>
    rw [saveHosts, List.map_cons, List.foldlM_cons] at h
    rcases saveHostData_cases hosts name with ⟨-, hfail⟩ | ⟨next, hnone, hsave, row, hrows, -⟩
    · rw [hfail] at h
      cases h
    rw [hsave] at h
    have hrest := ih h
    rw [List.forall_mem_cons]
    refine ⟨hnone, fun other hother => ?_⟩
    have hother := hrest other hother
    rw [withName_append hrows] at hother
    exact (List.append_eq_nil_iff.mp hother).1

end inserts
section workflow
variable {s : Store c} {names : List (Varchar 60)}

/-- The form as it was opened is submitted with success, and the move that follows leaves
no unprocessed log: each is in logs, under a host of its name. -/
def ClearsBacklog (s : Store c) (names : List (Varchar 60)) : Prop :=
  ∃ text s', openedText (names.map (·.chars)) = some text ∧ onSubmit s text = (.info, s') ∧
    (∀ u ∈ s.unprocessedLogs.rows, s'.hosts.withName u.2.host ≠ []) ∧
    (saveUnprocessed s').unprocessedLogs.rows = [] ∧
    ∀ u ∈ s.unprocessedLogs.rows, ∃ l ∈ (saveUnprocessed s').logs.rows, l.2.toLogColumns = u.2.toLogColumns ∧
      l.2.call = u.2.call ∧ s'.hosts.Registered l.2.hostId u.2.host

theorem onSubmit_joinHosts (hne : names ≠ []) (hnodup : (names.map (·.chars)).Nodup)
    (hnamed : ∀ name ∈ names, WellNamed name.chars) :
    onSubmit s (joinHosts (names.map (·.chars))) = match saveHosts s.hosts (names.map hostDataOf) with
      | none => (.duplicateError, s)
      | some hosts => (.info, { s with hosts := hosts }) := by
  have hnames : ∀ name ∈ names.map (·.chars), WellNamed name := by
    intro chars hchars
    obtain ⟨name, hname, rfl⟩ := List.mem_map.mp hchars
    exact hnamed name hname
  have hchars : names.map (·.chars) ≠ [] := fun h => hne (List.map_eq_nil_iff.mp h)
  rw [onSubmit, parseHosts_joinHosts hchars hnodup hnames, List.map_map]
  rfl

theorem withName_ne_nil_of_same {hosts : Hosts c} {a b : Varchar 60} (h : c.same a.chars b.chars = true)
    (hne : hosts.withName a ≠ []) : hosts.withName b ≠ [] := by
  obtain ⟨row, hrow⟩ := List.exists_mem_of_ne_nil _ hne
  obtain ⟨hrow, hequal⟩ := Hosts.mem_withName.mp hrow
  apply List.ne_nil_of_mem (a := row)
  refine Hosts.mem_withName.mpr ⟨hrow, ?_⟩
  cases hname : row.2.hostname with
  | none =>
    rw [hname] at hequal
    cases hequal
  | some hostname =>
    rw [hname] at hequal
    exact c.trans _ _ _ hequal h

/-- When every host has a row, the move takes every log. -/
theorem saveUnprocessed_moves_all (hall : ∀ u ∈ s.unprocessedLogs.rows, s.hosts.withName u.2.host ≠ []) :
    (saveUnprocessed s).unprocessedLogs.rows = [] ∧
      ∀ u ∈ s.unprocessedLogs.rows, ∃ l ∈ (saveUnprocessed s).logs.rows, l.2.toLogColumns = u.2.toLogColumns ∧
        l.2.call = u.2.call ∧ s.hosts.Registered l.2.hostId u.2.host := by
  constructor
  · change (deleteProcessed s.unprocessedLogs (selectToProcess s.hosts s.unprocessedLogs.rows)).rows = []
    rw [deleteProcessed_rows, List.filter_eq_nil_iff]
    intro u hu hempty
    exact hall u hu (List.isEmpty_iff.mp hempty)
  · intro u hu
    obtain ⟨row, hrow⟩ := List.exists_mem_of_ne_nil _ (hall u hu)
    have htemp := mem_selectToProcess.mpr ⟨u, hu, row, hrow, rfl⟩
    have hvalue : logRow u.2.toLogColumns row.1 u.2.call ∈
        (insertProcessed s.logs (selectToProcess s.hosts s.unprocessedLogs.rows)).rows.map Prod.snd := by
      rw [insertProcessed, Table.insertAll_values]
      exact List.mem_append_right _
        (List.mem_map_of_mem (f := fun t : TempRow => logRow t.toLogColumns t.hostId t.call) htemp)
    obtain ⟨l, hl, hrow'⟩ := List.mem_map.mp hvalue
    obtain ⟨hmem, hequal⟩ := Hosts.mem_withName.mp hrow
    refine ⟨l, hl, ?_⟩
    rw [hrow']
    exact ⟨rfl, rfl, row, hmem, rfl, hequal⟩

theorem clearsBacklog_iff (hrows : s.unprocessedLogs.rows ≠ []) (hselects : SelectsHosts s names)
    (hnamed : ∀ u ∈ s.unprocessedLogs.rows, WellNamed u.2.host.chars) :
    ClearsBacklog s names ↔ ∀ u ∈ s.unprocessedLogs.rows, s.hosts.withName u.2.host = [] := by
  have hne : names ≠ [] := by
    obtain ⟨u, hu⟩ := List.exists_mem_of_ne_nil _ hrows
    obtain ⟨name, hname, -⟩ := hselects.complete u hu
    exact List.ne_nil_of_mem hname
  have hopened : openedText (names.map (·.chars)) = some (joinHosts (names.map (·.chars))) :=
    if_neg fun h => hne (List.map_eq_nil_iff.mp h)
  have hsubmit := @onSubmit_joinHosts c s names hne hselects.nodup fun name hname => by
    obtain ⟨u, hu, rfl⟩ := hselects.sound name hname
    exact hnamed u hu
  constructor
  · rintro ⟨text, s', htext, hinfo, -⟩ u hu
    obtain rfl := Option.some.inj (hopened.symm.trans htext)
    rw [hsubmit] at hinfo
    cases hsave : saveHosts s.hosts (names.map hostDataOf) with
    | none =>
      rw [hsave] at hinfo
      cases hinfo
    | some after =>
      obtain ⟨name, hname, hsame⟩ := hselects.complete u hu
      have hfree := withName_of_saveHosts hsave name hname
      by_contra htaken
      exact withName_ne_nil_of_same (c.symm _ _ hsame) htaken hfree
  · intro hfree
    have hnew : ∀ name ∈ names, s.hosts.withName name = [] := by
      intro name hname
      obtain ⟨u, hu, rfl⟩ := hselects.sound name hname
      exact hfree u hu
    obtain ⟨after, hsave, hnames, -⟩ := saveHosts_new hnew hselects.distinct
    rw [hsave] at hsubmit
    have hregistered : ∀ u ∈ s.unprocessedLogs.rows, after.withName u.2.host ≠ [] := by
      intro u hu
      obtain ⟨name, hname, hsame⟩ := hselects.complete u hu
      exact withName_ne_nil_of_same hsame (hnames name hname)
    obtain ⟨hempty, hmoved⟩ := @saveUnprocessed_moves_all c { s with hosts := after } hregistered
    exact ⟨_, _, hopened, hsubmit, hregistered, hempty, hmoved⟩

end workflow

section runs

/-- The host names of a call are ones that the page can read back. -/
def WellNamedCall : StoreCall → Prop
  | .saveLog p | .processOssecSnortMessage p _ _ => WellNamed p.host.chars
  | .saveHost hostname _ => ∀ name ∈ hostname, WellNamed name.chars
  | .saveUnprocessed => True

/-- The hosts of the unprocessed logs are hosts of the calls. -/
theorem wellNamed_unprocessed {cs : List StoreCall} (h : ∀ call ∈ cs, WellNamedCall call) :
    ∀ u ∈ ((Store.empty : Store c).calls cs).unprocessedLogs.rows, WellNamed u.2.host.chars := by
  intro u hu
  obtain ⟨q, hq, -, hhost, -⟩ := (ledger_empty.calls cs).pending u hu
  have hlog : q.1 ∈ cs.filterMap StoreCall.log := by
    have hsaved : ((Store.empty : Store c).calls cs).saved.map Prod.fst = cs.filterMap StoreCall.log :=
      (saved_calls Store.empty cs).trans (List.nil_append _)
    rw [← hsaved]
    exact List.mem_map_of_mem (List.mem_of_getElem? hq)
  obtain ⟨call, hcall, hparameters⟩ := List.mem_filterMap.mp hlog
  have hnamed := h call hcall
  rw [hhost]
  cases call with
  | saveLog p =>
    obtain rfl := Option.some.inj hparameters
    exact hnamed
  | processOssecSnortMessage p date identifier =>
    obtain rfl := Option.some.inj hparameters
    exact hnamed
  | saveHost hostname ip => cases hparameters
  | saveUnprocessed => cases hparameters

/-- After any calls that leave unprocessed logs, the page clears them exactly when none of
them is of a host that is registered already. -/
theorem backlog_cleared_iff {cs : List StoreCall} (hcalls : ∀ call ∈ cs, WellNamedCall call)
    (hrows : ((Store.empty : Store c).calls cs).unprocessedLogs.rows ≠ []) {names : List (Varchar 60)}
    (hselects : SelectsHosts ((Store.empty : Store c).calls cs) names) :
    ClearsBacklog ((Store.empty : Store c).calls cs) names ↔
      ∀ u ∈ ((Store.empty : Store c).calls cs).unprocessedLogs.rows,
        ((Store.empty : Store c).calls cs).hosts.withName u.2.host = [] :=
  clearsBacklog_iff hrows hselects (wellNamed_unprocessed hcalls)

end runs

section example_runs

def hostA : Varchar 60 := ⟨['a'], by decide⟩
def hostB : Varchar 60 := ⟨['b'], by decide⟩

def logOf (host : Varchar 60) : LogParameters :=
  { logDate := ⟨0, Datetime.zero_in_range⟩
    facility := none, severity := none, message := none, program := none, hash := none, host }

def unregistered : Store .binary := Store.empty.calls [.saveLog (logOf hostA), .saveLog (logOf hostB), .saveLog (logOf hostA)]

theorem two_hosts_cleared : ClearsBacklog unregistered (getUnprocessedHostsName unregistered) := by
  refine (backlog_cleared_iff ?_ (by decide) (selectsHosts_getUnprocessedHostsName _)).mpr (by decide)
  intro call hcall
  simp only [List.mem_cons, List.not_mem_nil, or_false] at hcall
  rcases hcall with rfl | rfl | rfl
  all_goals exact wellNamed_singleton (by decide)

/-- A host that is registered while a log of it waits, and then a log of a second host. -/
def partlyRegistered : Store .binary :=
  Store.empty.calls [.saveLog (logOf hostA), .saveHost (some ⟨['a'], by decide⟩) none, .saveLog (logOf hostB)]

theorem registered_host_blocks_page :
    openedText ((getUnprocessedHostsName partlyRegistered).map (·.chars)) = some ['a', ';', 'b'] ∧
      (onSubmit partlyRegistered ['a', ';', 'b']).1 = .duplicateError ∧
      ¬ ClearsBacklog partlyRegistered (getUnprocessedHostsName partlyRegistered) := by
  have hopened : openedText ((getUnprocessedHostsName partlyRegistered).map (·.chars)) = some ['a', ';', 'b'] := by decide
  have hfail : (onSubmit partlyRegistered ['a', ';', 'b']).1 = .duplicateError := by decide
  refine ⟨hopened, hfail, ?_⟩
  rintro ⟨text, s', htext, hinfo, -⟩
  obtain rfl := Option.some.inj (hopened.symm.trans htext)
  rw [hinfo] at hfail
  cases hfail

end example_runs
end Srvlog.Web
