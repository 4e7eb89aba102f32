import Srvlog.Collector.Ingestion
import Srvlog.Library.Runs
import Srvlog.Search.LogStatistics
import Srvlog.Web.LogDataTableUtil

/-! What the viewers need of the severities, and what the adapters guarantee. -/
namespace Srvlog.Web
open Library Data Collector Json Syslog Logback Search

section guarantees
variable {toString : LogData → Text} {adapters : Adapters} {now : Int} {collector after : LogCollector}

theorem known_of_logOfEvent {e : SyslogServerEvent} {log : LogData} (h : logOfEvent e = .ok log) : KnownSeverity log := by
  obtain ⟨program, message, rfl⟩ := logOfEvent_cases h
  exact ⟨_, rfl⟩

/-- Whatever an event becomes, it adds only logs whose severity is known. -/
def AddsKnown (collector after : LogCollector) : Prop :=
  ∃ logs, after.stored = collector.stored ++ logs ∧ ∀ log ∈ logs, KnownSeverity log

theorem AddsKnown.of_stored_eq (h : after.stored = collector.stored) : AddsKnown collector after :=
  ⟨[], by rw [h, List.append_nil], fun _ hlog => absurd hlog List.not_mem_nil⟩

theorem AddsKnown.of_saveLog {logData saved : LogData}
    (h : (simpleLogCollector toString now).saveLog logData collector = (.ok saved, after))
    (hknown : KnownSeverity logData) : AddsKnown collector after := by
  refine ⟨[logData], stored_of_saveLog h, fun log hlog => ?_⟩
  obtain rfl := List.mem_singleton.mp hlog
  exact hknown

theorem addsKnown_of_processOssecSnortMessage {platform : Platform} {rawMessage : Text} {log : LogData}
    (h : processOssecSnortMessage (simpleLogCollector toString now) platform rawMessage log collector = (.ok ⟨⟩, after))
    (hknown : KnownSeverity log) : AddsKnown collector after := by
  unfold processOssecSnortMessage at h
  obtain ⟨message, between, hmessage, hlog⟩ := bind_eq_ok h
  obtain ⟨-, rfl⟩ := ofResult_eq_ok hmessage
  obtain ⟨saved, stored, hsave, halert⟩ := bind_eq_ok hlog
  obtain ⟨ossecLogData, stored', hossec, hother⟩ := bind_eq_ok halert
  obtain ⟨-, rfl⟩ := ofResult_eq_ok hossec
  obtain ⟨logs, hstored, hlogs⟩ := AddsKnown.of_saveLog hsave hknown
  exact ⟨logs, (stored_of_otherCall hother).trans hstored, hlogs⟩

theorem stored_of_processRawSnortMessage {rawMessage : Text}
    (h : processRawSnortMessage (simpleLogCollector toString now) rawMessage collector = (.ok ⟨⟩, after)) :
    after.stored = collector.stored := by
  unfold processRawSnortMessage at h
  obtain ⟨message, between, hmessage, hother⟩ := bind_eq_ok h
  obtain ⟨-, rfl⟩ := ofResult_eq_ok hmessage
  exact stored_of_otherCall hother

theorem stored_of_processRawMessage {mapper : SuricataMapper} {rawMessage : Text}
    (h : processRawMessage mapper (simpleLogCollector toString now) rawMessage collector = (.ok ⟨⟩, after)) :
    after.stored = collector.stored := by
  unfold processRawMessage at h
  cases hparsed : createSnortLogData mapper rawMessage with
  | ok snortLogData =>
    rw [hparsed] at h
    exact stored_of_otherCall h
  | error e =>
    rw [hparsed] at h
    cases e with
    | ioException =>
      obtain ⟨-, rfl⟩ := Prod.mk.inj h
      rfl
    | _ => cases h

theorem addsKnown_of_event {platform : Platform} {mapper : SuricataMapper} {e : SyslogServerEvent}
    (h : event (simpleLogCollector toString now) platform mapper e collector = (.ok ⟨⟩, after)) :
    AddsKnown collector after := by
  unfold event at h
  obtain ⟨log, between, hread, hrest⟩ := bind_eq_ok h
  obtain ⟨hlog, rfl⟩ := ofResult_eq_ok hread
  have hknown := known_of_logOfEvent hlog
  dsimp only at hrest
  by_cases hossec : isSnortMessageFromOssec (getRawMessage e.raw) = true
  · rw [if_pos hossec] at hrest
    exact addsKnown_of_processOssecSnortMessage hrest hknown
  rw [if_neg hossec] at hrest
  by_cases hsnort : isMessageFromSnort (getRawMessage e.raw) = true
  · rw [if_pos hsnort] at hrest
    exact .of_stored_eq (stored_of_processRawSnortMessage hrest)
  rw [if_neg hsnort] at hrest
  by_cases hsuricata : isMessageFromSurricata (getRawMessage e.raw) = true
  · rw [if_pos hsuricata] at hrest
    exact .of_stored_eq (stored_of_processRawMessage hrest)
  rw [if_neg hsuricata] at hrest
  obtain ⟨saved, stored, hsave, hdone⟩ := bind_eq_ok hrest
  obtain ⟨-, rfl⟩ := Prod.mk.inj hdone
  exact .of_saveLog hsave hknown

theorem addsKnown_of_processEvent {levels : LevelToSyslogSeverity} {program : Text} {e : ServerLogbackEvent}
    (h : processEvent levels program (simpleLogCollector toString now) e collector = (.ok ⟨⟩, after)) :
    AddsKnown collector after := by
  obtain ⟨log, between, hread, hrest⟩ := bind_eq_ok h
  obtain ⟨hlog, rfl⟩ := ofResult_eq_ok hread
  obtain ⟨saved, stored, hsave, hdone⟩ := bind_eq_ok hrest
  obtain ⟨-, rfl⟩ := Prod.mk.inj hdone
  exact .of_saveLog hsave (severity_of_buildLogData hlog)

/-- Every message of a request has a severity from 0 to 7. Other inputs need no condition. -/
def KnownInput : Input → Prop
  | .json _ request => ∀ messages, request.messages = some messages →
    ∀ message, some message ∈ messages → ∃ severity, message.severity = some severity ∧ 0 ≤ severity ∧ severity ≤ 7
  | .syslog _ _ | .logback _ _ => True

def AllKnown (collector : LogCollector) : Prop := ∀ log ∈ collector.stored, KnownSeverity log

theorem AddsKnown.allKnown_iff (h : AddsKnown collector after) : AllKnown after ↔ AllKnown collector := by
  obtain ⟨logs, hstored, hlogs⟩ := h
  rw [AllKnown, hstored, List.forall_mem_append]
  exact and_iff_left hlogs

theorem messages_of_error_response {uuid removeIpAddress : Text} {logs : SaveLogsRequest}
    (h : saveLogs uuid removeIpAddress (some logs) collector =
      (.ok (.error uuid logs.requestId "No messages".toList), collector)) : logs.messages = none := by
  obtain ⟨requestId, messages⟩ := logs
  cases messages with
  | none => rfl
  | some messages =>
    obtain ⟨-, between, -, hresponse⟩ := bind_eq_ok h
    have hstatus := congrArg (fun result => result.1.map SaveLogsResponse.status) hresponse
    cases hstatus

/-- One accepted input keeps the severities known exactly when its own are. -/
theorem allKnown_of_accept {input : Input} (h : accept toString adapters collector input = some after) :
    AllKnown after ↔ AllKnown collector ∧ KnownInput input := by
  cases input with
  | syslog now e =>
    unfold accept at h
    dsimp only at h
    split at h
    · next hevent =>
      obtain rfl := Option.some.inj h
      rw [(addsKnown_of_event hevent).allKnown_iff, KnownInput, and_true]
    · cases h
  | logback now e =>
    unfold accept at h
    dsimp only at h
    split at h
    · next hevent =>
      obtain rfl := Option.some.inj h
      rw [(addsKnown_of_processEvent hevent).allKnown_iff, KnownInput, and_true]
    · cases h
  | json removeIpAddress request =>
    unfold accept at h
    dsimp only at h
    rcases @saveLogs_cases adapters.uuid removeIpAddress request collector with
      ⟨e, between, hfail⟩ | hnone | ⟨messages, between, hmessages, hsaved, hstored⟩
    · rw [hfail] at h
      cases h
    · rw [hnone] at h
      obtain rfl := Option.some.inj h
      refine (and_iff_left ?_).symm
      intro messages hmessages
      rw [messages_of_error_response hnone] at hmessages
      cases hmessages
    · rw [hsaved] at h
      obtain rfl := Option.some.inj h
      rw [AllKnown, hstored, List.forall_mem_append, ← AllKnown]
      refine and_congr_right fun _ => ?_
      constructor
      · intro hall others hothers message hmessage
        obtain rfl := Option.some.inj (hmessages.symm.trans hothers)
        obtain ⟨message', hmem, hsame⟩ := List.mem_map.mp hmessage
        obtain rfl := Option.some.inj hsame
        exact knownSeverity_iff.mp (hall _ (List.mem_map_of_mem hmem))
      · intro hknown log hlog
        obtain ⟨message, hmem, rfl⟩ := List.mem_map.mp hlog
        exact knownSeverity_iff.mpr (hknown _ hmessages message (List.mem_map_of_mem hmem))

theorem allKnown_of_run {inputs : List Input} (h : Run (accept toString adapters) collector inputs after) :
    AllKnown after ↔ AllKnown collector ∧ ∀ input ∈ inputs, KnownInput input := by
  induction h with
  | nil => exact ⟨fun hknown => ⟨hknown, fun _ hinput => absurd hinput List.not_mem_nil⟩, And.left⟩
  | cons hstep _ ih => rw [ih, allKnown_of_accept hstep, List.forall_mem_cons, and_assoc]

end guarantees

section statistics
variable {client : SphinxGroupClient} {rows : List LogData}

/-- How an integer attribute takes a severity: null is zero, a number is taken modulo 2^32. -/
def attrUint : Option Int → UInt32
  | none => 0
  | some n => UInt32.ofInt n

/-- Each row of a group query that the daemon answers has both attributes, and its group is
the severity of an indexed log. -/
def GroupsSeverities (client : SphinxGroupClient) (rows : List LogData) : Prop :=
  ∀ query reply, query.groupBy = .severity → client.groupQuery query = some reply → ∀ sm ∈ reply.rows.getD [],
    ∃ row ∈ rows, sm.groupBy = some ((attrUint row.severity).toNat : Int) ∧ sm.count.isSome

def cannotFindGroup : SearchError :=
  .indexerService "Cannot find group date or count value in the search result".toList

theorem toNat_attrUint (level : LogLevel) : ((attrUint (some level.value)).toNat : Int) = level.value := by
  cases level <;> decide

theorem severityKey_attrUint {row : LogData} (h : KnownSeverity row) :
    ∃ level, severityKey ((attrUint row.severity).toNat : Int) = .ok (some level) := by
  obtain ⟨level, hlevel⟩ := h
  refine ⟨level, ?_⟩
  rw [severityKey, severityKey_eq, hlevel, toNat_attrUint, LogLevel.levelForValue_value]

/-- Rows with known severities all have an entry. -/
theorem putMatches_of_known (hknown : ∀ row ∈ rows, KnownSeverity row) {matched : List SphinxMatch}
    (h : ∀ sm ∈ matched, ∃ row ∈ rows, sm.groupBy = some ((attrUint row.severity).toNat : Int) ∧ sm.count.isSome)
    (resultMap : AList fun _ : LogLevel => Int) : ∃ counts, putMatches severityKey matched resultMap = .ok counts := by
  induction matched generalizing resultMap with
  | nil => exact ⟨resultMap, rfl⟩
  | cons sm matched ih =>
    rw [List.forall_mem_cons] at h
    obtain ⟨row, hrow, hgroup, hcount⟩ := h.1
    obtain ⟨level, hlevel⟩ := severityKey_attrUint (hknown row hrow)
    obtain ⟨count, hcount⟩ := Option.isSome_iff_exists.mp hcount
    obtain ⟨counts, hcounts⟩ := ih h.2 (resultMap.insert level count)
    refine ⟨counts, ?_⟩
    rw [putMatches, hgroup, hcount]
    dsimp only
    rw [hlevel]
    exact hcounts

theorem setDate_cases (client : SphinxClient) (fromDate toDate : Option Int) :
    (∃ t, setDate client fromDate toDate = .error (.indexerService ('W' :: t))) ∨
      ∃ logDate, setDate client fromDate toDate = .ok logDate := by
  unfold setDate
  split
  · split
    · exact .inr ⟨_, rfl⟩
    · exact .inl ⟨"hile trying to set date range".toList, by simp⟩
  · exact .inr ⟨_, rfl⟩

theorem matchedRows_cases (reply : GroupReply) :
    (∃ t, matchedRows reply = .error (.indexerService ('W' :: t))) ∨ matchedRows reply = .ok (reply.rows.getD []) := by
  unfold matchedRows
  dsimp only
  split
  · exact .inl ⟨"hile sending query to Sphinx Daemon: ".toList ++ reply.lastError, by simp⟩
  · exact .inr rfl

theorem queryGroups_cases (client : SphinxGroupClient) (query : GroupQuery) :
    (∃ t, queryGroups client query = .error (.indexerService ('W' :: t))) ∨
      ∃ reply, client.groupQuery query = some reply ∧ queryGroups client query = .ok (reply.rows.getD []) := by
  unfold queryGroups
  split
  · next reply hreply =>
    rcases matchedRows_cases reply with hfail | hrows
    · exact .inl hfail
    · exact .inr ⟨reply, hreply, hrows⟩
  · exact .inl ⟨"hile sending query to Sphinx Daemon".toList, by simp⟩

theorem numberOfLogsBySeverity_of_setDate {fromDate toDate : Option Int} {logDate : Option (Int × Int)}
    (h : setDate client.toSphinxClient fromDate toDate = .ok logDate) :
    numberOfLogsBySeverity client fromDate toDate = if client.setGroupBy .severity = true then
      queryGroups client ⟨logDate, none, .severity⟩ >>= fun rows =>
        putMatches severityKey rows initTreeMapNumberOfLogsBySeverity
      else .error (.indexerService "While trying to set group by severity".toList) := by
  rw [numberOfLogsBySeverity, h]
  rfl

theorem numberOfLogsBySeverity_of_rows {fromDate toDate : Option Int} {logDate : Option (Int × Int)}
    {matched : List SphinxMatch} (hdate : setDate client.toSphinxClient fromDate toDate = .ok logDate)
    (hgroup : client.setGroupBy .severity = true)
    (hrows : queryGroups client ⟨logDate, none, .severity⟩ = .ok matched) :
    numberOfLogsBySeverity client fromDate toDate = putMatches severityKey matched initTreeMapNumberOfLogsBySeverity := by
  rw [numberOfLogsBySeverity_of_setDate hdate, if_pos hgroup, hrows]
  rfl

/-- The failures in front of the map all have a message that begins with another letter. -/
theorem numberOfLogsBySeverity_cases (client : SphinxGroupClient) (fromDate toDate : Option Int) :
    (∃ t, numberOfLogsBySeverity client fromDate toDate = .error (.indexerService ('W' :: t))) ∨
      ∃ query reply, query.groupBy = .severity ∧ client.groupQuery query = some reply ∧
        numberOfLogsBySeverity client fromDate toDate =
          putMatches severityKey (reply.rows.getD []) initTreeMapNumberOfLogsBySeverity := by
  rcases setDate_cases client.toSphinxClient fromDate toDate with ⟨t, hfail⟩ | ⟨logDate, hdate⟩
  · left
    refine ⟨t, ?_⟩
    rw [numberOfLogsBySeverity, hfail]
    rfl
  rw [numberOfLogsBySeverity_of_setDate hdate]
  by_cases hgroup : client.setGroupBy .severity = true
  · rw [if_pos hgroup]
    rcases queryGroups_cases client ⟨logDate, none, .severity⟩ with ⟨t, hfail⟩ | ⟨reply, hreply, hrows⟩
    · rw [hfail]
      exact .inl ⟨t, rfl⟩
    · rw [hrows]
      exact .inr ⟨_, reply, rfl, hreply, rfl⟩
  · rw [if_neg hgroup]
    exact .inl ⟨"hile trying to set group by severity".toList, by simp⟩

/-- With known severities the map is never the part that fails. -/
theorem numberOfLogsBySeverity_ne (hknown : ∀ row ∈ rows, KnownSeverity row) (h : GroupsSeverities client rows)
    (fromDate toDate : Option Int) : numberOfLogsBySeverity client fromDate toDate ≠ .error cannotFindGroup := by
  rcases numberOfLogsBySeverity_cases client fromDate toDate with ⟨t, hfail⟩ | ⟨query, reply, hgroup, hreply, hmap⟩
  · rw [hfail]
    intro hsame
    have hletters := congrArg List.head? (SearchError.indexerService.inj (Except.error.inj hsame))
    simp at hletters
  · obtain ⟨counts, hcounts⟩ :=
      putMatches_of_known hknown (h query reply hgroup hreply) initTreeMapNumberOfLogsBySeverity
    rw [hmap, hcounts]
    intro hsame
    cases hsame

end statistics

/-- What the viewers need of the rows that were stored. -/
structure ViewersWork (rows : List LogData) : Prop where
  known : ∀ row ∈ rows, KnownSeverity row
  statistics : ∀ client, GroupsSeverities client rows → ∀ fromDate toDate,
    numberOfLogsBySeverity client fromDate toDate ≠ .error cannotFindGroup
  pages : ∀ page, page ⊆ rows → ∃ classes, highlightPage page = .ok classes

theorem viewersWork_iff {rows : List LogData} : ViewersWork rows ↔ ∀ row ∈ rows, KnownSeverity row := by
  constructor
  · exact ViewersWork.known
  · intro hknown
    refine ⟨hknown, ?_, ?_⟩
    · exact fun client hgroups fromDate toDate => numberOfLogsBySeverity_ne hknown hgroups fromDate toDate
    · exact fun page hpage => highlightPage_iff.mpr fun row hrow => hknown row (hpage hrow)

section runs
variable {toString : LogData → Text} {adapters : Adapters} {outcomes : Nat → Option Throwable} {after : LogCollector}

/-- The collector leaves severities as they are. -/
theorem known_rows_iff {stored rows : List LogData} (h : HandedTo toString stored rows) :
    (∀ row ∈ rows, KnownSeverity row) ↔ ∀ log ∈ stored, KnownSeverity log := by
  unfold HandedTo at h
  induction h with
  | nil => exact ⟨fun _ _ hlog => absurd hlog List.not_mem_nil, fun _ _ hrow => absurd hrow List.not_mem_nil⟩
  | cons hhanded _ ih =>
    obtain ⟨now, hrow⟩ := hhanded
    obtain ⟨-, rfl⟩ := (acceptedLog_eq_ok_iff toString).mp hrow
    rw [List.forall_mem_cons, List.forall_mem_cons, ih]
    exact Iff.rfl

/-- After any inputs that were accepted, the viewers work exactly when every message of the
JSON adapter came with a severity that is known. -/
theorem viewers_work_after_run_iff {inputs : List Input} (h : Run (accept toString adapters) ⟨[], outcomes⟩ inputs after)
    {rows : List LogData} (hrows : HandedTo toString after.stored rows) :
    ViewersWork rows ↔ ∀ input ∈ inputs, KnownInput input := by
  rw [viewersWork_iff, known_rows_iff hrows, ← AllKnown, allKnown_of_run h]
  exact and_iff_right fun _ hlog => absurd hlog List.not_mem_nil

end runs

section inputs

/-- The conversion as logback documents it. -/
def documentedLevels : LevelToSyslogSeverity where
  convert e := match syslogSeverity e.level with
    | some level => .ok level.value
    | none => .error (.runtimeException "Level is not a valid level for a printing method".toList)
  documented {e severity} h := by
    cases hlevel : syslogSeverity e.level with
    | none =>
      rw [hlevel] at h
      cases h
    | some level =>
      rw [hlevel] at h
      obtain rfl := Except.ok.inj h
      rfl

/-- Adapters whose parsers for alerts are not asked. -/
def quietAdapters : Adapters where
  platform := ⟨2020, id, fun _ => []⟩
  mapper := ⟨fun _ => .error .ioException, fun _ => .error .ioException, fun _ => .error .ioException, fun _ => []⟩
  levels := documentedLevels
  program := "paynet".toList
  uuid := []

def jsonMessage (severity : Option Int) : SaveLogsMessage := ⟨0, none, none, severity, none⟩

def jsonInput (severity : Option Int) : Input := .json "host".toList ⟨none, some [some (jsonMessage severity)]⟩

def logbackInput : Input := .logback 0 ⟨⟨.TRACE, 0, "started".toList, none, none⟩, ⟨"10.0.0.1".toList, "app.local".toList⟩⟩

def syslogInput : Input := .syslog 0 ⟨.structured none, some 0, none, none, some "db".toList, none, []⟩

def rowOf (severity : Option Int) : LogData := mapMessage "host".toList (jsonMessage severity)

theorem knownInput_jsonInput {severity : Int} (h : 0 ≤ severity ∧ severity ≤ 7) :
    KnownInput (jsonInput (some severity)) := by
  intro messages hmessages message hmessage
  obtain rfl := Option.some.inj hmessages
  obtain rfl := Option.some.inj (List.mem_singleton.mp hmessage)
  exact ⟨severity, rfl, h⟩

theorem viewers_work_after_known_inputs : ∃ after rows,
    Run (accept (fun _ => []) quietAdapters) ⟨[], fun _ => none⟩ [syslogInput, logbackInput, jsonInput (some 3)] after ∧
      HandedTo (fun _ => []) after.stored rows ∧ rows.map (·.severity) = [some 6, some 7, some 3] ∧ ViewersWork rows := by
  have hrun : Run (accept (fun _ => []) quietAdapters) ⟨[], fun _ => none⟩
      [syslogInput, logbackInput, jsonInput (some 3)] _ :=
    .cons rfl (.cons rfl (.cons rfl (.nil _)))
  suffices h : ∃ rows, HandedTo (fun _ => []) _ rows ∧ rows.map (·.severity) = [some 6, some 7, some 3] by
    obtain ⟨rows, hrows, hseverities⟩ := h
    refine ⟨_, rows, hrun, hrows, hseverities, (viewers_work_after_run_iff hrun hrows).mpr ?_⟩
    rw [List.forall_mem_cons, List.forall_mem_cons, List.forall_mem_singleton]
    exact ⟨trivial, trivial, knownInput_jsonInput (by decide)⟩
  exact ⟨_, .cons ⟨0, rfl⟩ (.cons ⟨0, rfl⟩ (.cons ⟨0, rfl⟩ .nil)), rfl⟩

/-- A daemon that has indexed the log of one message. -/
def oneLogClient (severity : Option Int) : SphinxGroupClient where
  setFilterRange _ _ := true
  setFilter _ := true
  setLimits _ _ := true
  setGroupBy _ := true
  query _ := none
  groupQuery _ := some ⟨some [⟨some (attrUint severity).toNat, some 1⟩], []⟩

theorem numberOfLogsBySeverity_oneLogClient (severity : Option Int) :
    numberOfLogsBySeverity (oneLogClient severity) (some 0) (some 1000) =
      putMatches severityKey [⟨some ((attrUint severity).toNat : Int), some 1⟩] initTreeMapNumberOfLogsBySeverity := by
  have hdate : setDate (oneLogClient severity).toSphinxClient (some 0) (some 1000) =
      .ok (some (toUnixTime 0, toUnixTime 1000)) := by
    unfold setDate
    exact if_pos rfl
  have hquery (query : GroupQuery) : queryGroups (oneLogClient severity) query =
      .ok [⟨some ((attrUint severity).toNat : Int), some 1⟩] := by
    unfold queryGroups matchedRows
    exact if_neg fun h => h.2 rfl
  have hgroup : (oneLogClient severity).setGroupBy .severity = true := rfl
  exact numberOfLogsBySeverity_of_rows hdate hgroup (hquery _)

/-- A message with the severity 9 is accepted. Nothing but its severity is unusual. -/
theorem viewers_broken_by_json_message : ∃ after rows,
    Run (accept (fun _ => []) quietAdapters) ⟨[], fun _ => none⟩ [jsonInput (some 9)] after ∧
      HandedTo (fun _ => []) after.stored rows ∧ GroupsSeverities (oneLogClient (some 9)) rows ∧
      numberOfLogsBySeverity (oneLogClient (some 9)) (some 0) (some 1000) = .error cannotFindGroup ∧
      highlightPage rows = .error .nullPointerException ∧ ¬ ViewersWork rows := by
  have hfails : numberOfLogsBySeverity (oneLogClient (some 9)) (some 0) (some 1000) = .error cannotFindGroup := by
    have hkey : severityKey ((attrUint (some 9)).toNat : Int) = .ok none := by
      rw [severityKey, severityKey_eq, show (attrUint (some 9)).toNat = 9 by decide]
      rfl
    rw [numberOfLogsBySeverity_oneLogClient, putMatches]
    dsimp only
    rw [hkey]
    rfl
  have hgroups : GroupsSeverities (oneLogClient (some 9)) [rowOf (some 9)] := by
    intro query reply _ hreply sm hsm
    obtain rfl := Option.some.inj hreply
    obtain rfl := List.mem_singleton.mp hsm
    exact ⟨_, List.mem_singleton_self _, rfl, rfl⟩
  refine ⟨_, [rowOf (some 9)], .cons rfl (.nil _), .cons ⟨0, rfl⟩ .nil, hgroups, hfails, rfl, fun hwork => ?_⟩
  exact hwork.statistics _ hgroups _ _ hfails

end inputs
end Srvlog.Web
