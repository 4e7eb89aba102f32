import Srvlog.Collector.SimpleLogCollector
import Srvlog.Json.BatchAtomicity
import Srvlog.Logback.LogbackAdapter
import Srvlog.Syslog.SyslogAdapter

/-! The adapters behind which logs come in, all of them in front of one collector. -/
namespace Srvlog.Collector
open Library Data Json Syslog Logback

/-- What an adapter of syslog or logback gets to see when the collector throws. -/
def exceptionOf : Throwable → JavaException
  | .exception e => e
  | .processJson e => .runtimeException e.message
  | .error message => .runtimeException message

-- `LogData.toString`
variable (toString : LogData → Text)

/-- A call that stores no log, and succeeds or fails in its turn. -/
def otherCall : Action LogCollector JavaException PUnit := fun collector =>
  match collector.outcomes 0 with
  | none => (.ok ⟨⟩, ⟨collector.stored, fun n => collector.outcomes (n + 1)⟩)
  | some e => (.error (exceptionOf e), ⟨collector.stored, fun n => collector.outcomes (n + 1)⟩)

/-- The collector at the given time, over the same logs as the JSON adapter. -/
def simpleLogCollector (now : Int) : ILogCollector LogCollector where
  saveLog logData := do
    let accepted ← ofResult (acceptedLog toString now logData)
    fun collector => match Json.saveLog logData collector with
      | (.ok _, after) => (.ok { accepted with id := some after.stored.length }, after)
      | (.error e, after) => (.error (exceptionOf e), after)
  saveSnortLog _ := otherCall
  saveOssecLog _ := otherCall

/-- An input of one of the adapters, with the time at which it comes in. -/
inductive Input where
  | syslog (now : Int) (e : SyslogServerEvent)
  | logback (now : Int) (e : ServerLogbackEvent)
  | json (removeIpAddress : Text) (request : SaveLogsRequest)

structure Adapters where
  platform : Platform
  mapper : SuricataMapper
  levels : LevelToSyslogSeverity
  program : Text
  uuid : Text

/-- The state after an input that its adapter accepts. -/
def accept (adapters : Adapters) (collector : LogCollector) : Input → Option LogCollector
  | .syslog now e => match event (simpleLogCollector toString now) adapters.platform adapters.mapper e collector with
    | (.ok _, after) => some after
    | (.error _, _) => none
  | .logback now e =>
    match processEvent adapters.levels adapters.program (simpleLogCollector toString now) e collector with
    | (.ok _, after) => some after
    | (.error _, _) => none
  | .json removeIpAddress request => match Json.saveLogs adapters.uuid removeIpAddress (some request) collector with
    | (.ok _, after) => some after
    | (.error _, _) => none

/-- The log that the collector hands to the database for each log that it stored. -/
def HandedTo (stored rows : List LogData) : Prop :=
  List.Forall₂ (fun log row => ∃ now, acceptedLog toString now log = .ok row) stored rows

section steps
variable {toString} {now : Int} {collector after : LogCollector}

theorem stored_of_saveLog {logData saved : LogData}
    (h : (simpleLogCollector toString now).saveLog logData collector = (.ok saved, after)) :
    after.stored = collector.stored ++ [logData] := by
  obtain ⟨accepted, between, haccepted, hsave⟩ := bind_eq_ok h
  obtain ⟨-, rfl⟩ := ofResult_eq_ok haccepted
  unfold Json.saveLog at hsave
  cases houtcome : between.outcomes 0 with
  | none =>
    rw [houtcome] at hsave
    obtain ⟨-, rfl⟩ := Prod.mk.inj hsave
    rfl
  | some e =>
    rw [houtcome] at hsave
    cases hsave

theorem stored_of_otherCall (h : otherCall collector = (.ok ⟨⟩, after)) : after.stored = collector.stored := by
  unfold otherCall at h
  cases houtcome : collector.outcomes 0 with
  | none =>
    rw [houtcome] at h
    obtain ⟨-, rfl⟩ := Prod.mk.inj h
    rfl
  | some e =>
    rw [houtcome] at h
    cases h

end steps
end Srvlog.Collector
