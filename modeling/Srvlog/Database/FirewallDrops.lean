import Srvlog.Database.FirewallAlerts
import Srvlog.Library.SqlWords

/-! The statistic of the packets that a firewall dropped on one day, beside the one of its alerts. -/
namespace Srvlog.Database
open Library
variable {c : Collation}

def DROP : Text := "Drop ".toList
def PACKET : Text := " packet:".toList

/-- The columns that rows are selected and grouped by. -/
structure DropClass where
  sourceIp : Text
  destinationIp : Text
  sourcePort : Text
  destinationPort : Text
  protocol : Text
  deriving DecidableEq

section procedure

/-- The message is like `%Drop % packet:%`. -/
def isDrop (c : Collation) (message : SqlText) : Bool := likeInOrder c.same [DROP, PACKET] message.chars

def dropColumn (c : Collation) (columns : LogColumns) (key : Text) : Text := match columns.message with
  | some message => if isDrop c message then substringIndex (substringIndex message.chars (' ' :: key) (-1)) [' '] 1
    else STARTUP
  | none => STARTUP

def dropClass (c : Collation) (columns : LogColumns) : DropClass where
  sourceIp := dropColumn c columns "SRC=".toList
  destinationIp := dropColumn c columns "DST=".toList
  sourcePort := dropColumn c columns "SPT=".toList
  destinationPort := dropColumn c columns "DPT=".toList
  protocol := dropColumn c columns "PROTO=".toList

def sameDrop (c : Collation) (a b : DropClass) : Bool :=
  c.same a.sourceIp b.sourceIp && c.same a.destinationIp b.destinationIp && c.same a.sourcePort b.sourcePort &&
    c.same a.destinationPort b.destinationPort && c.same a.protocol b.protocol

def dropClasses (s : Store c) (day : Datetime) : List DropClass :=
  ((firewallLogs s day).filter fun row => row.program.isNone).map fun row => dropClass c row.toLogColumns

/-- The rows that `get_firewall_drop` may answer with. -/
structure FirewallDrops (s : Store c) (day : Datetime) (rows : List (DropClass × Nat)) : Prop where
  grouped : GroupedBy (sameDrop c) (dropClasses s day) rows
  ordered : rows.Pairwise fun a b => b.2 ≤ a.2

def getFirewallDrop (s : Store c) (day : Datetime) : List (DropClass × Nat) := groupedRows (sameDrop c) (dropClasses s day)

theorem sameDrop_iff {a b : DropClass} : sameDrop c a b = true ↔ c.same a.sourceIp b.sourceIp = true ∧
    c.same a.destinationIp b.destinationIp = true ∧ c.same a.sourcePort b.sourcePort = true ∧
    c.same a.destinationPort b.destinationPort = true ∧ c.same a.protocol b.protocol = true := by
  simp only [sameDrop, Bool.and_eq_true, and_assoc]

theorem sameDrop_refl (a : DropClass) : sameDrop c a a = true :=
  sameDrop_iff.mpr ⟨c.refl _, c.refl _, c.refl _, c.refl _, c.refl _⟩

theorem sameDrop_symm (a b : DropClass) (h : sameDrop c a b = true) : sameDrop c b a = true := by
  obtain ⟨hsource, hdestination, hspt, hdpt, hprotocol⟩ := sameDrop_iff.mp h
  exact sameDrop_iff.mpr ⟨c.symm _ _ hsource, c.symm _ _ hdestination, c.symm _ _ hspt, c.symm _ _ hdpt, c.symm _ _ hprotocol⟩

theorem sameDrop_trans (a b d : DropClass) (h : sameDrop c a b = true) (h' : sameDrop c b d = true) :
    sameDrop c a d = true := by
  obtain ⟨hsource, hdestination, hspt, hdpt, hprotocol⟩ := sameDrop_iff.mp h
  obtain ⟨hsource', hdestination', hspt', hdpt', hprotocol'⟩ := sameDrop_iff.mp h'
  exact sameDrop_iff.mpr ⟨c.trans _ _ _ hsource hsource', c.trans _ _ _ hdestination hdestination',
    c.trans _ _ _ hspt hspt', c.trans _ _ _ hdpt hdpt', c.trans _ _ _ hprotocol hprotocol'⟩

theorem firewallDrops_getFirewallDrop (s : Store c) (day : Datetime) : FirewallDrops s day (getFirewallDrop s day) where
  grouped := groupedBy_groupedRows sameDrop_refl sameDrop_symm sameDrop_trans _
  ordered := ordered_groupedRows _ _

end procedure

section words

/-- What a message says behind a key: the rest of the last of its words, the first one apart,
that begins with the key. Without such a word its first word is taken. -/
def wordOfMessage (c : Collation) (message : Option SqlText) (key : Text) : Text := match message with
  | some message => if isDrop c message then lastWordValue key (message.chars.splitOn ' ') else STARTUP
  | none => STARTUP

def packetOfMessage (c : Collation) (message : Option SqlText) : DropClass where
  sourceIp := wordOfMessage c message "SRC=".toList
  destinationIp := wordOfMessage c message "DST=".toList
  sourcePort := wordOfMessage c message "SPT=".toList
  destinationPort := wordOfMessage c message "DPT=".toList
  protocol := wordOfMessage c message "PROTO=".toList

theorem dropColumn_eq (columns : LogColumns) {key : Text} (hkey : ' ' ∉ key) :
    dropColumn c columns key = wordOfMessage c columns.message key := by
  unfold dropColumn wordOfMessage
  cases columns.message with
  | none => rfl
  | some message => simp only [substringIndex_words hkey]

theorem dropClass_eq (columns : LogColumns) : dropClass c columns = packetOfMessage c columns.message := by
  unfold dropClass packetOfMessage
  rw [dropColumn_eq columns (by decide), dropColumn_eq columns (by decide), dropColumn_eq columns (by decide),
    dropColumn_eq columns (by decide), dropColumn_eq columns (by decide)]

end words

section calls

/-- A log that the firewall sends on the day. -/
def OfFirewall (c : Collation) (day : Datetime) (p : LogParameters) : Prop :=
  OnDay day p.logDate ∧ c.same p.host.chars FIREWALL.chars = true

instance OfFirewall.decidable (c : Collation) (day : Datetime) (p : LogParameters) : Decidable (OfFirewall c day p) :=
  inferInstanceAs (Decidable (OnDay day p.logDate ∧ c.same p.host.chars FIREWALL.chars = true))

/-- A log that waits for its host. -/
def UnprocessedRow.toParameters (row : UnprocessedRow) : LogParameters := ⟨row.toLogColumns, row.host⟩

variable {s : Store c} {day : Datetime}

/-- The test of a call by its number. -/
def savedAs (s : Store c) (q : LogParameters → Bool) (call : Nat) : Bool := (s.saved[call]?).any fun p => q p.1

theorem length_firewallHosts {hosts : Hosts c} {hostId : Nat} {host : Varchar 60} (h : hosts.Registered hostId host) :
    (hosts.rows.filter fun h => decide (h.1 = hostId) && c.equal h.2.hostname (some FIREWALL)).length =
      if c.same host.chars FIREWALL.chars = true then 1 else 0 := by
  have hlength := congrArg List.length (firewallHosts_of_registered h (some []))
  rw [List.filterMap_eq_map', List.length_map] at hlength
  rw [hlength]
  split <;> rfl

/-- Each log of the firewall is joined with one row of hosts, any other log with none. -/
theorem countP_joined {rows : List (Nat × LogRow)} (q : LogColumns → Bool)
    (hrows : ∀ r ∈ rows, ∃ p, s.saved[r.2.call]? = some p ∧ r.2.toLogColumns = p.1.toLogColumns ∧
      s.hosts.Registered r.2.hostId p.1.host) :
    ((rows.filter fun l => decide (OnDay day l.2.logDate)).flatMap fun l =>
      (s.hosts.rows.filter fun h => decide (h.1 = l.2.hostId) && c.equal h.2.hostname (some FIREWALL)).map fun _ =>
        l.2).countP (fun row => q row.toLogColumns) =
      (rows.map (·.2.call)).countP (savedAs s fun p => decide (OfFirewall c day p) && q p.toLogColumns) := by
  induction rows with
  | nil => rfl
  | cons l rows ih =>
    rw [List.forall_mem_cons] at hrows
    obtain ⟨⟨p, hp, hcolumns, hregistered⟩, hrest⟩ := hrows
    have hjoined : ((s.hosts.rows.filter fun h => decide (h.1 = l.2.hostId) && c.equal h.2.hostname (some FIREWALL)).map
        fun _ => l.2).countP (fun row => q row.toLogColumns) =
          if (decide (c.same p.1.host.chars FIREWALL.chars = true) && q p.1.toLogColumns) = true then 1 else 0 := by
      have hlength := length_firewallHosts hregistered
      by_cases hsame : c.same p.1.host.chars FIREWALL.chars = true
      · rw [if_pos hsame] at hlength
        obtain ⟨host, hhost⟩ := List.length_eq_one_iff.mp hlength
        rw [hhost, List.map_singleton, List.countP_singleton, hcolumns, decide_eq_true hsame, Bool.true_and]
      · rw [if_neg hsame] at hlength
        rw [List.length_eq_zero_iff.mp hlength, decide_eq_false hsame, Bool.false_and, if_neg Bool.false_ne_true]
        rfl
    have hsaved : savedAs s (fun p => decide (OfFirewall c day p) && q p.toLogColumns) l.2.call =
        (decide (OnDay day l.2.logDate) && (decide (c.same p.1.host.chars FIREWALL.chars = true) && q p.1.toLogColumns)) := by
      rw [savedAs, hp, Option.any_some, congrArg LogColumns.logDate hcolumns, ← Bool.and_assoc, ← Bool.decide_and]
      rfl
    rw [List.map_cons, List.countP_cons, ← ih hrest, hsaved, List.filter_cons]
    by_cases hday : OnDay day l.2.logDate
    · rw [if_pos (decide_eq_true hday), List.flatMap_cons, List.countP_append, hjoined, decide_eq_true hday, Bool.true_and,
        Nat.add_comm]
    · rw [decide_eq_false hday, Bool.false_and, if_neg Bool.false_ne_true, if_neg Bool.false_ne_true, Nat.add_zero]

theorem countP_waiting {rows : List (Nat × UnprocessedRow)} (q : LogColumns → Bool)
    (hrows : ∀ u ∈ rows, ∃ p, s.saved[u.2.call]? = some p ∧ u.2.toLogColumns = p.1.toLogColumns ∧ u.2.host = p.1.host ∧
      u.1 = p.2) :
    rows.countP (fun u => decide (OfFirewall c day u.2.toParameters) && q u.2.toLogColumns) =
      (rows.map (·.2.call)).countP (savedAs s fun p => decide (OfFirewall c day p) && q p.toLogColumns) := by
  rw [List.countP_map]
  refine List.countP_congr fun u hu => ?_
  obtain ⟨p, hp, hcolumns, hhost, -⟩ := hrows u hu
  have hsame : u.2.toParameters = p.1 := by
    unfold UnprocessedRow.toParameters
    rw [hcolumns, hhost]
  rw [Function.comp_apply, savedAs, hp, Option.any_some, hsame, hcolumns]

theorem countP_range {α : Type} (q : α → Bool) (l : List α) :
    (List.range l.length).countP (fun i => (l[i]?).any q) = l.countP q := by
  induction l with
  | nil => rfl
  | cons a l ih =>
    rw [List.length_cons, List.range_succ_eq_map, List.countP_cons, List.countP_map, List.countP_cons, ← ih]
    rfl

/-- The logs of the firewall are the ones that its calls have saved, apart from those that wait. -/
theorem countP_firewallLogs (h : Ledger s) (q : LogColumns → Bool) :
    (firewallLogs s day).countP (fun row => q row.toLogColumns) +
      s.unprocessedLogs.rows.countP (fun u => decide (OfFirewall c day u.2.toParameters) && q u.2.toLogColumns) =
        (s.saved.map Prod.fst).countP fun p => decide (OfFirewall c day p) && q p.toLogColumns := by
  have hlogged : ∀ r ∈ s.logs.rows, ∃ p, s.saved[r.2.call]? = some p ∧ r.2.toLogColumns = p.1.toLogColumns ∧
      s.hosts.Registered r.2.hostId p.1.host := by
    intro r hr
    obtain ⟨p, hp, hcolumns, -, hregistered⟩ := h.logged r hr
    exact ⟨p, hp, hcolumns, hregistered⟩
  rw [firewallLogs, countP_joined q hlogged, countP_waiting q h.pending, ← List.countP_append, h.once.countP_eq,
    List.countP_map]
  exact countP_range _ s.saved

/-- A log has a program or none. -/
theorem length_classes (s : Store c) (day : Datetime) :
    (dropClasses s day).length + (alertClasses s day).length = (firewallLogs s day).length := by
  have hshown (row : LogRow) : (alertClass c row).isSome = !row.program.isNone := by
    rw [alertClass]
    cases row.program <;> rfl
  rw [dropClasses, alertClasses, List.length_map, List.length_filterMap_eq_countP, ← List.countP_eq_length_filter,
    List.length_eq_countP_add_countP fun row : LogRow => row.program.isNone]
  congr 1
  refine List.countP_congr fun row _ => ?_
  rw [hshown, Bool.not_eq_true', decide_eq_true_iff, Bool.not_eq_true]

/-- Whatever calls there have been, each log that the firewall has sent on a day is counted by
one of the two statistics, once, unless it waits for its host; and a row of the dropped packets
counts those whose words say what it shows. -/
theorem firewall_logs_counted_once (c : Collation) (cs : List StoreCall) (day : Datetime) {drops : List (DropClass × Nat)}
    {alerts : List (Text × Nat)} (hdrops : FirewallDrops ((Store.empty : Store c).calls cs) day drops)
    (halerts : FirewallAlerts ((Store.empty : Store c).calls cs) day alerts) :
    let waiting := ((Store.empty : Store c).calls cs).unprocessedLogs.rows.map (·.2.toParameters)
    (drops.map Prod.snd).sum + (alerts.map Prod.snd).sum + waiting.countP (fun p => decide (OfFirewall c day p)) =
        (cs.filterMap StoreCall.log).countP (fun p => decide (OfFirewall c day p)) ∧
      ∀ row ∈ drops, row.2 + waiting.countP (fun p => decide (OfFirewall c day p) && (p.program.isNone &&
          sameDrop c row.1 (packetOfMessage c p.message))) =
        (cs.filterMap StoreCall.log).countP fun p => decide (OfFirewall c day p) && (p.program.isNone &&
          sameDrop c row.1 (packetOfMessage c p.message)) := by
  intro waiting
  have hledger : Ledger ((Store.empty : Store c).calls cs) := ledger_empty.calls cs
  have hsaved : ((Store.empty : Store c).calls cs).saved.map Prod.fst = cs.filterMap StoreCall.log :=
    (saved_calls Store.empty cs).trans (List.nil_append _)
  have hcount (q : LogColumns → Bool) : (firewallLogs ((Store.empty : Store c).calls cs) day).countP
      (fun row => q row.toLogColumns) + waiting.countP (fun p => decide (OfFirewall c day p) && q p.toLogColumns) =
        (cs.filterMap StoreCall.log).countP fun p => decide (OfFirewall c day p) && q p.toLogColumns := by
    rw [← hsaved, ← countP_firewallLogs hledger q, List.countP_map]
    rfl
  refine ⟨?_, fun row hrow => ?_⟩
  · have hall := hcount fun _ => true
    simp only [Bool.and_true, List.countP_true] at hall
    rw [← hall, hdrops.grouped.sum_counts sameDrop_symm sameDrop_trans, halerts.grouped.sum_counts c.symm c.trans,
      length_classes]
  · have hclasses : (dropClasses ((Store.empty : Store c).calls cs) day).countP (sameDrop c row.1) =
        (firewallLogs ((Store.empty : Store c).calls cs) day).countP fun l => l.program.isNone &&
          sameDrop c row.1 (packetOfMessage c l.message) := by
      rw [dropClasses, List.countP_map, List.countP_filter]
      refine List.countP_congr fun l _ => ?_
      rw [Function.comp_apply, dropClass_eq, Bool.and_comm]
    rw [(hdrops.grouped.counts row hrow).2, hclasses]
    exact hcount fun columns => columns.program.isNone && sameDrop c row.1 (packetOfMessage c columns.message)

end calls

section sample

def droppedPing : Text := "fw: Drop in packet: SRC=10.0.0.1 DST=10.0.0.2 PROTO=ICMP".toList

theorem droppedPing_fits : (droppedPing.map Char.utf8Size).sum ≤ 65535 := by decide
theorem firewall_fits_hostname : "firewall".toList.length ≤ 120 := by decide

def logOfFirewall : LogParameters where
  logDate := ⟨0, Datetime.zero_in_range⟩
  facility := none
  severity := none
  message := some ⟨droppedPing, droppedPing_fits⟩
  program := none
  hash := none
  host := FIREWALL

/-- The first of the two packets waits for the host. -/
def firewallCalls : List StoreCall :=
  [.saveLog logOfFirewall, .saveHost (some ⟨"firewall".toList, firewall_fits_hostname⟩) none, .saveLog logOfFirewall]

/-- For want of ports the first word is shown. -/
def shownPing : DropClass where
  sourceIp := "10.0.0.1".toList
  destinationIp := "10.0.0.2".toList
  sourcePort := "fw:".toList
  destinationPort := "fw:".toList
  protocol := "ICMP".toList

theorem dropped_ping_counted : let s := (Store.empty : Store Collation.binary).calls firewallCalls
    getFirewallDrop s logOfFirewall.logDate = [(shownPing, 1)] ∧ getFirewallAlerts s logOfFirewall.logDate = [] ∧
      1 + 0 + (s.unprocessedLogs.rows.map (·.2.toParameters)).countP
        (fun p => decide (OfFirewall Collation.binary logOfFirewall.logDate p)) =
          [logOfFirewall, logOfFirewall].countP fun p => decide (OfFirewall Collation.binary logOfFirewall.logDate p) := by
  intro s
  have hdrops : getFirewallDrop s logOfFirewall.logDate = [(shownPing, 1)] := by decide
  have halerts : getFirewallAlerts s logOfFirewall.logDate = [] := by decide
  have hcounted := (firewall_logs_counted_once Collation.binary firewallCalls logOfFirewall.logDate
    (firewallDrops_getFirewallDrop _ _) (firewallAlerts_getFirewallAlerts _ _)).1
  refine ⟨hdrops, halerts, ?_⟩
  change ((getFirewallDrop s logOfFirewall.logDate).map Prod.snd).sum +
    ((getFirewallAlerts s logOfFirewall.logDate).map Prod.snd).sum + _ = _ at hcounted
  rw [hdrops, halerts] at hcounted
  exact hcounted

end sample
end Srvlog.Database
