import Srvlog.Database.StoreLedger
import Srvlog.Library.SqlText

/-! The statistic of the alerts that a firewall logged on one day. -/
namespace Srvlog.Database
open Library
variable {c : Collation}

def FIREWALL : Varchar 60 := ⟨"firewall".toList, by decide⟩
def SNORT : Text := "snort".toList
def CLASSIFICATION : Text := " [Classification: ".toList
def STARTUP : Text := "startup".toList

/-- From the start of the date's day to the start of the next one. -/
def OnDay (day date : Datetime) : Prop :=
  day.seconds / 86400 * 86400 ≤ date.seconds ∧ date.seconds < (day.seconds / 86400 + 1) * 86400

instance (day date : Datetime) : Decidable (OnDay day date) :=
  inferInstanceAs (Decidable (day.seconds / 86400 * 86400 ≤ date.seconds ∧ date.seconds < (day.seconds / 86400 + 1) * 86400))

/-- The rows of logs, joined with hosts, that the statistic is about. -/
def firewallLogs (s : Store c) (day : Datetime) : List LogRow :=
  (s.logs.rows.filter fun l => decide (OnDay day l.2.logDate)).flatMap fun l =>
    (s.hosts.rows.filter fun h => decide (h.1 = l.2.hostId) && c.equal h.2.hostname (some FIREWALL)).map fun _ => l.2

/-- The expression that is selected and grouped by, for the logs with a program. -/
def alertClass (c : Collation) (row : LogRow) : Option Text :=
  row.program.map fun program =>
    if c.same program.chars SNORT then match row.message with
      | some message => if likeContains c.same CLASSIFICATION message.chars then
          substringIndex (substringIndex message.chars [' ', '['] 2) [']', ' '] (-1)
        else STARTUP
      | none => STARTUP
    else program.chars

def alertClasses (s : Store c) (day : Datetime) : List Text := (firewallLogs s day).filterMap (alertClass c)

/-- The rows that `get_firewall_alerts` may answer with: it does not say which of equal
classes it shows, nor how it orders equal counts. -/
structure FirewallAlerts (s : Store c) (day : Datetime) (rows : List (Text × Nat)) : Prop where
  grouped : GroupedBy c.same (alertClasses s day) rows
  ordered : rows.Pairwise fun a b => b.2 ≤ a.2

def getFirewallAlerts (s : Store c) (day : Datetime) : List (Text × Nat) := groupedRows c.same (alertClasses s day)

theorem firewallAlerts_getFirewallAlerts (s : Store c) (day : Datetime) : FirewallAlerts s day (getFirewallAlerts s day) where
  grouped := groupedBy_groupedRows c.refl c.symm c.trans _
  ordered := ordered_groupedRows _ _

section inserts
variable {s : Store c} {day : Datetime}

/-- The row of a new log counts when its host is the firewall. -/
theorem alertClasses_insert (row : LogRow) : alertClasses { s with logs := s.logs.insert row } day =
    alertClasses s day ++ (if OnDay day row.logDate then
      (s.hosts.rows.filter fun h => decide (h.1 = row.hostId) && c.equal h.2.hostname (some FIREWALL)).filterMap
        fun _ => alertClass c row
      else []) := by
  unfold alertClasses firewallLogs
  rw [Table.insert_rows, List.filter_append, List.flatMap_append, List.filterMap_append]
  congr 1
  rw [List.filter_singleton]
  by_cases hday : OnDay day row.logDate
  · rw [if_pos hday, decide_eq_true hday, cond_true, List.flatMap_singleton, List.filterMap_map]
    rfl
  · rw [if_neg hday, decide_eq_false hday, cond_false]
    rfl

/-- A registered host is one row, which is joined when its name is the firewall's. -/
theorem firewallHosts_of_registered {hosts : Hosts c} {hostId : Nat} {host : Varchar 60}
    (h : hosts.Registered hostId host) (shown : Option Text) :
    ((hosts.rows.filter fun h => decide (h.1 = hostId) && c.equal h.2.hostname (some FIREWALL)).filterMap fun _ => shown) =
      if c.same host.chars FIREWALL.chars = true then shown.toList else [] := by
  obtain ⟨r, hr, rfl, hname⟩ := h
  have hcomm : (fun h : Nat × HostRow => decide (h.1 = r.1) && c.equal h.2.hostname (some FIREWALL)) =
      fun h => c.equal h.2.hostname (some FIREWALL) && decide (h.1 = r.1) := by
    funext h
    exact Bool.and_comm _ _
  have hequal : c.equal r.2.hostname (some FIREWALL) = c.same host.chars FIREWALL.chars := by
    cases hhostname : r.2.hostname with
    | none =>
      rw [hhostname] at hname
      cases hname
    | some name =>
      rw [hhostname] at hname
      apply Bool.eq_iff_iff.mpr
      constructor
      · exact c.trans _ _ _ (c.symm _ _ hname)
      · exact c.trans _ _ _ hname
  rw [hcomm, ← List.filter_filter, hosts.filter_key hr, List.filter_singleton, hequal]
  cases c.same host.chars FIREWALL.chars with
  | false => rfl
  | true => cases shown <;> rfl

theorem alertClasses_insert_logRow {columns : LogColumns} {hostId call : Nat} {host : Varchar 60}
    (h : s.hosts.Registered hostId host) : alertClasses { s with logs := s.logs.insert (logRow columns hostId call) } day =
      alertClasses s day ++ (if OnDay day columns.logDate ∧ c.same host.chars FIREWALL.chars = true then
        (alertClass c (logRow columns hostId call)).toList else []) := by
  rw [alertClasses_insert, ite_and]
  congr 2
  exact firewallHosts_of_registered h _

variable {p : LogParameters}

theorem alertClasses_saveLog_firewall {shown : Text} (hregistered : s.hosts.withName FIREWALL ≠ [])
    (hhost : c.same p.host.chars FIREWALL.chars = true) (hday : OnDay day p.logDate)
    (hshown : ∀ hostId call, alertClass c (logRow p.toLogColumns hostId call) = some shown) :
    alertClasses (saveLog s p).2 day = alertClasses s day ++ [shown] := by
  rcases saveLog_cases s p with ⟨hostId, hin, hsave⟩ | ⟨hout, -⟩
  · rw [hsave]
    refine (alertClasses_insert_logRow hin).trans ?_
    rw [if_pos ⟨hday, hhost⟩, hshown]
    rfl
  · obtain ⟨r, hr⟩ := List.exists_mem_of_ne_nil _ hregistered
    obtain ⟨hrow, hname⟩ := Hosts.mem_withName.mp hr
    have hsame : c.equal r.2.hostname (some p.host) = true := by
      cases hhostname : r.2.hostname with
      | none =>
        rw [hhostname] at hname
        cases hname
      | some name =>
        rw [hhostname] at hname
        exact c.trans _ _ _ hname (c.symm _ _ hhost)
    exact absurd (Hosts.mem_withName.mpr ⟨hrow, hsame⟩) (hout ▸ List.not_mem_nil)

theorem alertClasses_saveLog_other (h : c.same p.host.chars FIREWALL.chars = false ∨ ¬ OnDay day p.logDate) :
    alertClasses (saveLog s p).2 day = alertClasses s day := by
  rcases saveLog_cases s p with ⟨hostId, hin, hsave⟩ | ⟨-, hsave⟩
  · have hout : ¬ (OnDay day p.logDate ∧ c.same p.host.chars FIREWALL.chars = true) := by
      rintro ⟨hday, hhost⟩
      rcases h with hother | hother
      · exact absurd (hother.symm.trans hhost) Bool.false_ne_true
      · exact hother hday
    rw [hsave]
    refine (alertClasses_insert_logRow hin).trans ?_
    rw [if_neg hout, List.append_nil]
  · rw [hsave]
    rfl

theorem hosts_saveLog : (saveLog s p).2.hosts = s.hosts := by
  rcases saveLog_cases s p with ⟨hostId, -, hsave⟩ | ⟨-, hsave⟩
  all_goals rw [hsave]

end inserts
end Srvlog.Database
