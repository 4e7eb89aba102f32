import Srvlog.Collector.TruncationUtil
import Srvlog.Data.LogLevel
import Srvlog.Syslog.OssecSnortMessage
import Srvlog.Syslog.SuricataMessage

/-! The handler for the events of the syslog server: the tag of a message, and the parsers
that an event may be passed to. -/
namespace Srvlog.Syslog
open Library Data Collector

section event

/-- An event as the syslog server parsed it. The kind of a structured event (rfc5424)
carries the name of the application, any other event is of rfc3164. -/
inductive EventKind where
  | structured (applicationName : Option Text)
  | plain

structure SyslogServerEvent where
  kind : EventKind
  date : Option Int
  facility : Option Nat
  level : Option LogLevel
  host : Option Text
  message : Option Text
  raw : Text

end event

section tag

/-- `indexOf`, which counts characters of 16 bits. -/
def indexOf (ch : Char) (t : Text) : Int := if ch ∈ t then utf16Length (t.takeWhile fun c => decide (c ≠ ch)) else -1

/-- The program and the message after the tag in front of the first such character. -/
def parseProgramField (message : Text) (tagTermination : Char) : Except JavaException (Option Text × Text) :=
  let hostAndTag := message.takeWhile fun c => decide (c ≠ tagTermination)
  let rest := message.dropWhile fun c => decide (c ≠ tagTermination)
  let hostAndTagSplited := splitAtChar ' ' hostAndTag
  if hostAndTagSplited.length ≤ 2 ∧ utf16Length hostAndTag ≤ 32 then
    match hostAndTagSplited with
    | [] => .error .arrayIndexOutOfBoundsException
    | [tag] => .ok (some tag, rest)
    | _ :: tag :: _ => .ok (some tag, rest)
  else .ok (none, message)

/-- The part of `event` for events of rfc3164. -/
def parseTag (message : Text) : Except JavaException (Option Text × Text) :=
  let tagIdx := indexOf '[' message
  let tagEndIdx := indexOf ':' message
  if tagIdx = -1 ∧ tagEndIdx > 1 then parseProgramField message ':'
  else if tagEndIdx > -1 ∧ tagEndIdx < tagIdx then parseProgramField message ':'
  else if tagIdx > -1 then parseProgramField message '['
  else if ' ' ∈ message then .ok (none, (message.dropWhile fun c => decide (c ≠ ' ')).tail)
  else .ok (none, message)

/-- The log of an event, before it is passed on. -/
def logOfEvent (e : SyslogServerEvent) : Except JavaException LogData := do
  let log (program message : Option Text) : LogData := {
    date := e.date
    facility := some (e.facility.elim 16 fun facility => (facility >>> 3 : Nat))
    severity := some (e.level.getD .info).value
    host := e.host
    program
    message
    id := none
    hash := none }
  match e.kind with
  | .structured applicationName => return log applicationName e.message
  | .plain => match e.message with
    | none => .error .nullPointerException
    | some message =>
      let (program, rest) ← parseTag message
      return log program (some rest)

end tag

section managers
variable {σ : Type} (collector : ILogCollector σ) (platform : Platform) (mapper : SuricataMapper)

def processOssecSnortMessage (rawMessage : Text) (logData : LogData) : Action σ JavaException PUnit := do
  let ossecSnortMessage ← ofResult (createOssecSnortMessage platform rawMessage)
  let logData ← collector.saveLog { logData with hash := some ossecSnortMessage.hash }
  let ossecLogData ← ofResult { ossecSnortMessage with logDataId := logData.id }.toOssecLogData
  collector.saveOssecLog ossecLogData

def processRawSnortMessage (rawMessage : Text) : Action σ JavaException PUnit := do
  let message ← ofResult (createSnortMessage rawMessage)
  collector.saveSnortLog message.toSnortLogData

/-- `SyslogAdapter.event`. -/
def event (e : SyslogServerEvent) : Action σ JavaException PUnit := do
  let log ← ofResult (logOfEvent e)
  let rawMessage := getRawMessage e.raw
  if isSnortMessageFromOssec rawMessage then processOssecSnortMessage collector platform rawMessage log
  else if isMessageFromSnort rawMessage then processRawSnortMessage collector rawMessage
  else if isMessageFromSurricata rawMessage then processRawMessage mapper collector rawMessage
  else
    let _ ← collector.saveLog log

end managers

section rules
variable {σ : Type} {collector : ILogCollector σ} {platform : Platform} {mapper : SuricataMapper} {I : σ → Prop}

theorem logOfEvent_cases {e : SyslogServerEvent} {log : LogData} (h : logOfEvent e = .ok log) :
    ∃ program message, log = {
      date := e.date
      facility := some (e.facility.elim 16 fun facility => (facility >>> 3 : Nat))
      severity := some (e.level.getD .info).value
      host := e.host, program, message, id := none, hash := none } := by
  unfold logOfEvent at h
  cases hkind : e.kind with
  | structured applicationName =>
    rw [hkind] at h
    exact ⟨_, _, (Except.ok.inj h).symm⟩
  | plain =>
    rw [hkind] at h
    cases hmessage : e.message with
    | none =>
      rw [hmessage] at h
      cases h
    | some message =>
      rw [hmessage] at h
      dsimp only at h
      cases htag : parseTag message with
      | error failure =>
        rw [htag] at h
        cases h
      | ok tag =>
        rw [htag] at h
        exact ⟨_, _, (Except.ok.inj h).symm⟩

theorem logOfEvent_of_parseTag {e : SyslogServerEvent} {message rest : Text} {program : Option Text}
    (hkind : e.kind = .plain) (hmessage : e.message = some message) (htag : parseTag message = .ok (program, rest)) :
    logOfEvent e = .ok {
      date := e.date
      facility := some (e.facility.elim 16 fun facility => (facility >>> 3 : Nat))
      severity := some (e.level.getD .info).value
      host := e.host, program, message := some rest, id := none, hash := none } := by
  unfold logOfEvent
  rw [hkind, hmessage]
  dsimp only
  rw [htag]
  rfl

theorem event_of_log {e : SyslogServerEvent} {log : LogData} (hlog : logOfEvent e = .ok log) (s : σ) :
    event collector platform mapper e s =
      (if isSnortMessageFromOssec (getRawMessage e.raw) then
        processOssecSnortMessage collector platform (getRawMessage e.raw) log
      else if isMessageFromSnort (getRawMessage e.raw) then processRawSnortMessage collector (getRawMessage e.raw)
      else if isMessageFromSurricata (getRawMessage e.raw) then processRawMessage mapper collector (getRawMessage e.raw)
      else do
        let _ ← collector.saveLog log) s :=
  bind_of_ok (congrArg (·, s) hlog)

/-- An event that no parser takes is saved as a log. -/
theorem event_of_plainLog {e : SyslogServerEvent} {log : LogData} (hlog : logOfEvent e = .ok log)
    (hossec : isSnortMessageFromOssec (getRawMessage e.raw) = false)
    (hsnort : isMessageFromSnort (getRawMessage e.raw) = false)
    (hsuricata : isMessageFromSurricata (getRawMessage e.raw) = false) (s : σ) :
    (event collector platform mapper e s).2 = (collector.saveLog log s).2 := by
  rw [event_of_log hlog, hossec, hsnort, hsuricata]
  simp only [Bool.false_eq_true, if_false]
  rcases hsave : collector.saveLog log s with ⟨e | saved, after⟩
  · rw [bind_of_error hsave]
  · rw [bind_of_ok hsave]
    rfl

/-- What every call of the collector keeps is kept by an event. Its log comes with the
event's host and date, whatever else becomes of it. -/
theorem event_keeps {e : SyslogServerEvent}
    (hlog : ∀ log : LogData, log.host = e.host → log.date = e.date → Keeps I (collector.saveLog log))
    (hsnort : ∀ data, Keeps I (collector.saveSnortLog data)) (hossec : ∀ data, Keeps I (collector.saveOssecLog data)) :
    Keeps I (event collector platform mapper e) := by
  refine Keeps.bind_ofResult fun log hread => ?_
  obtain ⟨program, message, rfl⟩ := logOfEvent_cases hread
  dsimp only
  split
  · refine Keeps.bind_ofResult fun ossecSnortMessage _ => ?_
    refine Keeps.bind (hlog _ rfl rfl) fun logData => ?_
    exact Keeps.bind_ofResult fun ossecLogData _ => hossec ossecLogData
  split
  · exact Keeps.bind_ofResult fun message _ => hsnort _
  split
  · unfold processRawMessage
    split
    · exact hsnort _
    · exact fun s hs => hs
    · exact fun s hs => hs
  · exact Keeps.bind (hlog _ rfl rfl) fun _ s hs => hs

end rules
end Srvlog.Syslog
