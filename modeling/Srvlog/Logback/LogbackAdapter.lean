import Srvlog.Collector.LogCollector
import Srvlog.Data.LogLevel

/-! The adapter for the events of logback, which arrive as serialised objects. -/
namespace Srvlog.Logback
open Library Data Collector

inductive Level where
  | OFF | ERROR | WARN | INFO | DEBUG | TRACE | ALL
  deriving DecidableEq

/-- An event. The throwable is the text that `ThrowableProxyUtil` makes of it, the program
is the property of the context. -/
structure LoggingEvent where
  level : Level
  timeStamp : Int
  formattedMessage : Text
  throwableProxy : Option Text
  program : Option Text

structure InetAddress where
  hostAddress : Text
  hostName : Text

structure ServerLogbackEvent where
  logEvent : LoggingEvent
  host : InetAddress

/-- The severity of the levels that a logger can print at. -/
def syslogSeverity : Level → Option LogLevel
  | .DEBUG | .TRACE => some .debug
  | .INFO => some .info
  | .WARN => some .warn
  | .ERROR => some .error
  | .OFF | .ALL => none

/-- What the conversion of logback returns is documented, other levels make it throw. -/
structure LevelToSyslogSeverity where
  convert : LoggingEvent → Except JavaException Int
  documented {e : LoggingEvent} {severity : Int} : convert e = .ok severity →
    (syslogSeverity e.level).map LogLevel.value = some severity

/-- `equalsIgnoreCase`, for texts of ASCII characters. -/
def equalsIgnoreCase (a b : Text) : Bool := decide (a.map Char.toLower = b.map Char.toLower)

def extractHostname (inetAddress : InetAddress) : Text :=
  if equalsIgnoreCase inetAddress.hostName inetAddress.hostAddress then inetAddress.hostName
  else inetAddress.hostName.takeWhile fun ch => decide (ch ≠ '.')

def getLogbackMessage (logEvent : LoggingEvent) : Text :=
  logEvent.formattedMessage ++ logEvent.throwableProxy.elim [] ('\n' :: ·)

def getLogbackProgram (logEvent : LoggingEvent) (defaultProgram : Text) : Text := logEvent.program.getD defaultProgram

section adapter
variable {σ : Type} (levels : LevelToSyslogSeverity) (program : Text) (collector : ILogCollector σ)

def buildLogData (logEvent : ServerLogbackEvent) (program : Text) : Except JavaException LogData := do
  let severity ← levels.convert logEvent.logEvent
  return {
    date := some logEvent.logEvent.timeStamp
    host := some (extractHostname logEvent.host)
    facility := some 1
    severity := some severity
    message := some (getLogbackMessage logEvent.logEvent)
    id := none
    program := some program
    hash := none }

/-- `processEvent` of both adapters, over TCP and over UDP. -/
def processEvent (logEvent : ServerLogbackEvent) : Action σ JavaException PUnit := do
  let logData ← ofResult (buildLogData levels logEvent (getLogbackProgram logEvent.logEvent program))
  let _ ← collector.saveLog logData

end adapter

theorem severity_of_buildLogData {levels : LevelToSyslogSeverity} {logEvent : ServerLogbackEvent} {program : Text}
    {logData : LogData} (h : buildLogData levels logEvent program = .ok logData) :
    ∃ level : LogLevel, logData.severity = some level.value := by
  unfold buildLogData at h
  cases hconvert : levels.convert logEvent.logEvent with
  | error e =>
    rw [hconvert] at h
    cases h
  | ok severity =>
    obtain ⟨level, -, hlevel⟩ := Option.map_eq_some_iff.mp (levels.documented hconvert)
    rw [hconvert] at h
    obtain rfl := Except.ok.inj h
    exact ⟨level, congrArg some hlevel.symm⟩

end Srvlog.Logback
