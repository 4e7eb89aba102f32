import Srvlog.Collector.DatabaseCollector
import Srvlog.Database.FirewallAlerts
import Srvlog.Syslog.TagParsing

/-! The alerts that the snort of the firewall sends through syslog, and the statistic that
the store makes of them. -/
namespace Srvlog.Syslog
open Library Data Collector Database

section alerts

/-- The parts of `[HOST ]snort[PID]: [g:s:r] TEXT [Classification: C] [Priority: p] REST`. -/
structure FirewallAlert where
  host : Option Text
  pid : Text
  generatorId : Text
  signatureId : Text
  revision : Text
  text : Text
  classification : Text
  priority : Text
  rest : Text
  host_free : ∀ h ∈ host, ' ' ∉ h ∧ '[' ∉ h ∧ ':' ∉ h
  host_length : ∀ h ∈ host, utf16Length h ≤ 26
  numeric : ∀ number ∈ [pid, generatorId, signatureId, revision], number ≠ [] ∧ ∀ ch ∈ number, ch.isDigit
  filled : ∀ t ∈ [text, classification], t ≠ [] ∧ ¬ [' ', '['] <:+: t ∧ ¬ [']', ' '] <:+: t
  text_head : text.head? ≠ some '['

namespace FirewallAlert
variable (alert : FirewallAlert)

def tag : Text := match alert.host with
  | some host => host ++ ' ' :: SNORT
  | none => SNORT

def identifier : Text := alert.generatorId ++ ':' :: (alert.signatureId ++ ':' :: alert.revision)

/-- What stands behind the first bracket. -/
def body : Text :=
  alert.pid ++ "]: [".toList ++ alert.identifier ++ "] ".toList ++ alert.text ++ CLASSIFICATION ++ alert.classification ++
    "] [Priority: ".toList ++ alert.priority ++ "] ".toList ++ alert.rest

def message : Text := alert.tag ++ '[' :: alert.body

end FirewallAlert
end alerts

namespace FirewallAlert
variable (alert : FirewallAlert)

/-- The tag as rfc3164 has it. -/
def hostAndTag : Tag where
  host := alert.host
  name := SNORT
  filled := by decide
  free := by
    intro word hword
    rcases List.mem_append.mp hword with hhost | hlast
    · exact alert.host_free word (Option.mem_toList.mp hhost)
    · obtain rfl := List.mem_singleton.mp hlast
      decide
  short := by
    cases hhost : alert.host with
    | none => decide
    | some host =>
      have hlength := alert.host_length host hhost
      have htail : utf16Length (' ' :: SNORT) = 6 := by decide
      have htext : [' '].intercalate ((some host).toList ++ [SNORT]) = host ++ ' ' :: SNORT := by
        simp [List.intercalate_cons_cons]
      rw [htext, utf16Length_append]
      omega

/-- The tag of an alert is read from its message, and what stands behind it is stored. -/
theorem parseTag_message : parseTag alert.message = .ok (some SNORT, '[' :: alert.body) :=
  alert.hostAndTag.parseTag_text ⟨alert.hostAndTag.no_bracket, alert.hostAndTag.no_colon, Or.inl rfl⟩

/-- The bracket that the procedure cuts at is the one behind the text. -/
theorem substringIndex_body :
    substringIndex (substringIndex ('[' :: alert.body) [' ', '['] 2) [']', ' '] (-1) = alert.text := by
  have hnumber {number : Text} (hmem : number ∈ [alert.pid, alert.generatorId, alert.signatureId, alert.revision]) :
      ' ' ∉ number := fun hblank => absurd ((alert.numeric number hmem).2 ' ' hblank) (by decide)
  have hidentifier : ' ' ∉ alert.identifier ++ [']'] := by
    simp [identifier, hnumber]
  have htext := alert.filled alert.text List.mem_cons_self
  have hpid : ¬ [' ', '['] <:+: '[' :: (alert.pid ++ [']', ':']) := by
    intro hin
    have hblank : ' ' ∈ '[' :: (alert.pid ++ [']', ':']) := hin.subset List.mem_cons_self
    simp [hnumber] at hblank
  have hmiddle : ¬ [' ', '['] <:+: (alert.identifier ++ [']']) ++ ' ' :: alert.text := by
    intro hin
    rcases List.infix_cons_iff.mp (infix_of_head? rfl hidentifier hin) with hstarts | hwithin
    · obtain ⟨t, heq⟩ := (List.cons_prefix_cons.mp hstarts).2
      exact alert.text_head (by rw [← heq]; rfl)
    · exact htext.2.1 hwithin
  have hbody : '[' :: alert.body = ('[' :: (alert.pid ++ [']', ':'])) ++ ' ' :: '[' ::
      (((alert.identifier ++ [']']) ++ ' ' :: alert.text) ++ ' ' :: '[' :: ("Classification: ".toList ++
        alert.classification ++ "] [Priority: ".toList ++ alert.priority ++ "] ".toList ++ alert.rest)) := by
    have hopen : "]: [".toList = [']', ':', ' ', '['] := by decide
    have hclose : "] ".toList = [']', ' '] := by decide
    have hclassification : CLASSIFICATION = ' ' :: '[' :: "Classification: ".toList := by decide
    simp only [body, hopen, hclose, hclassification, List.append_assoc, List.cons_append, List.nil_append]
  have hcut : ('[' :: (alert.pid ++ [']', ':'])) ++ ' ' :: '[' :: ((alert.identifier ++ [']']) ++ ' ' :: alert.text) =
      ('[' :: (alert.pid ++ [']', ':', ' ', '['] ++ alert.identifier)) ++ ']' :: ' ' :: alert.text := by simp
  rw [hbody, substringIndex_second (by decide) hpid hmiddle, hcut, substringIndex_last (by decide) htext.2.2]

theorem alertClass_body {c : Collation} {row : LogRow} {message : SqlText} {program : Varchar 60}
    (hprogram : row.program = some program) (hsnort : program.chars = SNORT) (hmessage : row.message = some message)
    (hbody : message.chars = '[' :: alert.body) : alertClass c row = some alert.text := by
  have hlike : likeContains c.same CLASSIFICATION message.chars = true := by
    refine likeContains_of_infix c.refl ?_
    rw [hbody]
    refine List.IsInfix.trans ?_ (List.suffix_cons '[' alert.body).isInfix
    unfold body
    simp only [List.append_assoc]
    refine ⟨alert.pid ++ ("]: [".toList ++ (alert.identifier ++ ("] ".toList ++ alert.text))), alert.classification ++
      ("] [Priority: ".toList ++ (alert.priority ++ ("] ".toList ++ alert.rest))), ?_⟩
    simp only [List.append_assoc]
  rw [alertClass, hprogram, Option.map_some, hsnort, if_pos (c.refl _), hmessage]
  dsimp only
  rw [if_pos hlike, hbody, substringIndex_body]

end FirewallAlert

/-- An event, with the time at which it comes in. -/
structure ReceivedEvent where
  now : Int
  event : SyslogServerEvent

section reports
variable (c : Collation) (dates : DateColumns) (day : Datetime) (received : ReceivedEvent)

/-- The event is of the firewall and of that day, and brings the alert. -/
structure Carries (alert : FirewallAlert) : Prop where
  kind : received.event.kind = .plain
  message : received.event.message = some alert.message
  fits : utf8Length alert.message ≤ MESSAGE_MAX_BYTES
  host : ∃ host : Varchar 60, received.event.host = some host.chars ∧ c.same host.chars FIREWALL.chars = true
  onDay : OnDay day (dates.toDatetime (received.event.date.getD received.now))
  ossec : isSnortMessageFromOssec (getRawMessage received.event.raw) = false
  snort : isMessageFromSnort (getRawMessage received.event.raw) = false
  suricata : isMessageFromSurricata (getRawMessage received.event.raw) = false

/-- The event is of another host or of another day. -/
def OfOthers : Prop :=
  (∀ host ∈ received.event.host, c.same host FIREWALL.chars = false) ∨
    ¬ OnDay day (dates.toDatetime (received.event.date.getD received.now))

/-- What the event brings to the statistic. -/
def Reports : Option FirewallAlert → Prop
  | some alert => Carries c dates day received alert
  | none => OfOthers c dates day received

end reports

section runs
variable {c : Collation} (toString : LogData → Text) (dates : DateColumns) (platform : Platform) (mapper : SuricataMapper)

def receive (db : LogDatabase c) (received : ReceivedEvent) : LogDatabase c :=
  (event (databaseCollector toString dates received.now) platform mapper received.event db).2

variable {toString dates platform mapper} {day : Datetime} {db : LogDatabase c} {received : ReceivedEvent}

/-- Whatever becomes of an event of another host or day, it is not counted. -/
theorem receive_others (h : OfOthers c dates day received) :
    (receive toString dates platform mapper db received).store.hosts = db.store.hosts ∧
      alertClasses (receive toString dates platform mapper db received).store day = alertClasses db.store day := by
  have hkeeps : Keeps (fun after : LogDatabase c => after.store.hosts = db.store.hosts ∧
      alertClasses after.store day = alertClasses db.store day)
      (event (databaseCollector toString dates received.now) platform mapper received.event) := by
    refine event_keeps ?_ ?_ ?_
    · rintro log hhost hdate before ⟨hhosts, hclasses⟩
      rcases @saveLog_databaseCollector c toString dates received.now before log with hsame | ⟨p, hsave, hlogDate, hname⟩
      · rw [hsame]
        exact ⟨hhosts, hclasses⟩
      · have hother : c.same p.host.chars FIREWALL.chars = false ∨ ¬ OnDay day p.logDate := by
          rw [hlogDate, hdate]
          exact h.imp_left fun hhosts => hhosts p.host.chars (hhost ▸ hname)
        rw [hsave]
        exact ⟨hosts_saveLog.trans hhosts, (alertClasses_saveLog_other hother).trans hclasses⟩
    · intro data before hbefore
      unfold databaseCollector
      dsimp only
      split <;> exact hbefore
    · intro data before hbefore
      unfold databaseCollector
      dsimp only
      split <;> exact hbefore
  exact hkeeps db ⟨rfl, rfl⟩

/-- An alert of the firewall is counted under its text. -/
theorem receive_alert {alert : FirewallAlert} (h : Carries c dates day received alert)
    (hregistered : db.store.hosts.withName FIREWALL ≠ []) :
    (receive toString dates platform mapper db received).store.hosts = db.store.hosts ∧
      alertClasses (receive toString dates platform mapper db received).store day =
        alertClasses db.store day ++ [alert.text] := by
  obtain ⟨host, hhost, hfirewall⟩ := h.host
  have hfits : utf8Length ('[' :: alert.body) ≤ MESSAGE_MAX_BYTES :=
    Nat.le_trans (utf8Length_le_of_suffix (List.suffix_append alert.tag _)) h.fits
  obtain ⟨message, hmessage⟩ : ∃ message : SqlText, message.chars = '[' :: alert.body := ⟨⟨_, hfits⟩, rfl⟩
  obtain ⟨program, hprogram⟩ : ∃ program : Varchar 60, program.chars = SNORT := ⟨⟨SNORT, by decide⟩, rfl⟩
  have htag := alert.parseTag_message
  rw [← hmessage, ← hprogram] at htag
  have hne : message.chars ≠ [] := by
    rw [hmessage]
    exact List.cons_ne_nil _ _
  have hlog := logOfEvent_of_parseTag h.kind h.message htag
  rw [hhost] at hlog
  have hcall : receive toString dates platform mapper db received = _ :=
    (event_of_plainLog hlog h.ossec h.snort h.suricata db).trans (saveLog_of_fits hne)
  rw [hcall]
  exact ⟨hosts_saveLog, alertClasses_saveLog_firewall hregistered hfirewall h.onDay fun hostId call =>
    alert.alertClass_body rfl hprogram rfl hmessage⟩

/-- The texts of the alerts are counted in the order in which these come in. -/
theorem alertClasses_receive {reports : List (ReceivedEvent × Option FirewallAlert)}
    (hreports : ∀ r ∈ reports, Reports c dates day r.1 r.2) (hregistered : db.store.hosts.withName FIREWALL ≠ []) :
    alertClasses ((reports.map (·.1)).foldl (receive toString dates platform mapper) db).store day =
      alertClasses db.store day ++ reports.filterMap fun r => r.2.map FirewallAlert.text := by
  induction reports generalizing db with
  | nil => exact (List.append_nil _).symm
  | cons r reports ih =>
    rw [List.forall_mem_cons] at hreports
    obtain ⟨received, alert⟩ := r
    cases alert with
    | none =>
      obtain ⟨hhosts, hclasses⟩ := @receive_others c toString dates platform mapper day db received hreports.1
      refine (ih hreports.2 (hhosts ▸ hregistered)).trans ?_
      rw [hclasses, List.filterMap_cons_none (by rfl)]
    | some alert =>
      obtain ⟨hhosts, hclasses⟩ :=
        @receive_alert c toString dates platform mapper day db received alert hreports.1 hregistered
      refine (ih hreports.2 (hhosts ▸ hregistered)).trans ?_
      rw [hclasses, List.filterMap_cons_some (by rfl), List.append_assoc]
      rfl

end runs

def sampleAlert : FirewallAlert where
  host := some "gate".toList
  pid := "71".toList
  generatorId := "1".toList
  signatureId := "20".toList
  revision := "3".toList
  text := "scan".toList
  classification := "probe".toList
  priority := "2".toList
  rest := "seen".toList
  host_free := by
    rintro h ⟨⟩
    decide
  host_length := by
    rintro h ⟨⟩
    decide
  numeric := by decide
  filled := by decide
  text_head := by decide

def sampleEvent (host : Text) (date : Int) : ReceivedEvent where
  now := date
  event := ⟨.plain, some date, none, none, some host, some sampleAlert.message, sampleAlert.message⟩

def firewallOnly : LogDatabase Collation.binary where
  store := saveHost Store.empty (some ⟨FIREWALL.chars, by decide⟩) none
  snortLogs := Table.empty

def firstDay : Datetime := utcColumns.toDatetime 0

theorem carries_sampleEvent {date : Int} (hday : OnDay firstDay (utcColumns.toDatetime date)) :
    Carries Collation.binary utcColumns firstDay (sampleEvent FIREWALL.chars date) sampleAlert where
  kind := rfl
  message := rfl
  fits := by decide
  host := ⟨FIREWALL, rfl, by decide⟩
  onDay := hday
  ossec := show isSnortMessageFromOssec (getRawMessage sampleAlert.message) = false by decide
  snort := show isMessageFromSnort (getRawMessage sampleAlert.message) = false by decide
  suricata := show isMessageFromSurricata (getRawMessage sampleAlert.message) = false by decide

/-- Two alerts of the day between events of another host and of the next day. -/
def sampleReports : List (ReceivedEvent × Option FirewallAlert) :=
  [(sampleEvent FIREWALL.chars 1000, some sampleAlert), (sampleEvent "other".toList 2000, none),
    (sampleEvent FIREWALL.chars 86400000, none), (sampleEvent FIREWALL.chars 3000, some sampleAlert)]

def quietPlatform : Platform := ⟨1970, id, fun _ => []⟩

/-- A mapper that is not asked. -/
def quietMapper : SuricataMapper :=
  ⟨fun _ => .error .ioException, fun _ => .error .ioException, fun _ => .error .ioException, fun _ => []⟩

end Srvlog.Syslog
