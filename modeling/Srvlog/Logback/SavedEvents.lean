import Srvlog.Collector.DatabaseCollector
import Srvlog.Database.StoreLedger
import Srvlog.Logback.LogbackAdapter

/-! What the processing of an event leaves in the database, and what is stored when the turns of
an adapter and the calls of the others alternate. -/
namespace Srvlog.Logback
open Library Data Collector Database

section event
variable {c : Collation} (dates : DateColumns) (levels : LevelToSyslogSeverity) (program : Text)

/-- The parameters that the log of an event is saved with: the level has a severity, and the
texts fit the columns. -/
def logOfEvent (logEvent : ServerLogbackEvent) : Option LogParameters :=
  (buildLogData levels logEvent (getLogbackProgram logEvent.logEvent program)).toOption.bind fun logData =>
    logParameters dates { logData with message := truncateString MESSAGE_MAX_BYTES logData.message }

variable {dates levels program} {toString : LogData → Text} {now : Int} {db : LogDatabase c}

/-- A log with a host and a date is saved, or the procedure refuses it. -/
theorem saveLog_of_host_and_date {logData : LogData} {date : Int} (hhost : logData.host ≠ none)
    (hdate : logData.date = some date) :
    (((databaseCollector toString dates now).saveLog logData db).1.isOk =
      (logParameters dates { logData with message := truncateString MESSAGE_MAX_BYTES logData.message }).isSome) ∧
    ((databaseCollector toString dates now).saveLog logData db).2.store =
      ((logParameters dates { logData with message := truncateString MESSAGE_MAX_BYTES logData.message }).map fun p =>
        (saveLog db.store p).2).getD db.store := by
  have haccepted : acceptedLog toString now logData =
      .ok { logData with message := truncateString MESSAGE_MAX_BYTES logData.message } := by
    refine (acceptedLog_eq_ok_iff toString).mpr ⟨hhost, ?_⟩
    rw [hdate, Option.getD_some, ← hdate]
  have hcall : (databaseCollector toString dates now).saveLog logData db = _ :=
    bind_of_ok (congrArg (·, db) haccepted)
  rw [hcall]
  cases hp : logParameters dates { logData with message := truncateString MESSAGE_MAX_BYTES logData.message } with
  | none => exact ⟨rfl, rfl⟩
  | some p => exact ⟨rfl, rfl⟩

theorem host_and_date_of_buildLogData {logEvent : ServerLogbackEvent} {logData : LogData}
    (h : buildLogData levels logEvent program = .ok logData) :
    logData.host ≠ none ∧ logData.date = some logEvent.logEvent.timeStamp := by
  unfold buildLogData at h
  cases hconvert : levels.convert logEvent.logEvent with
  | error e =>
    rw [hconvert] at h
    cases h
  | ok severity =>
    rw [hconvert] at h
    obtain rfl := Except.ok.inj h
    exact ⟨Option.some_ne_none _, rfl⟩

/-- The call returns exactly when the log is saved. -/
theorem processEvent_databaseCollector {logEvent : ServerLogbackEvent} :
    (processEvent levels program (databaseCollector toString dates now) logEvent db).1.isOk =
      (logOfEvent dates levels program logEvent).isSome ∧
    (processEvent levels program (databaseCollector toString dates now) logEvent db).2.store =
      ((logOfEvent dates levels program logEvent).map fun p => (saveLog db.store p).2).getD db.store := by
  cases hbuild : buildLogData levels logEvent (getLogbackProgram logEvent.logEvent program) with
  | error e =>
    have hcall : processEvent levels program (databaseCollector toString dates now) logEvent db = _ :=
      bind_of_error (congrArg (·, db) hbuild)
    rw [logOfEvent, hbuild, hcall]
    exact ⟨rfl, rfl⟩
  | ok logData =>
    obtain ⟨hhost, hdate⟩ := host_and_date_of_buildLogData hbuild
    obtain ⟨hok, hstore⟩ := @saveLog_of_host_and_date c dates toString now db logData _ hhost hdate
    have hcall : processEvent levels program (databaseCollector toString dates now) logEvent db = _ :=
      bind_of_ok (congrArg (·, db) hbuild)
    rw [logOfEvent, hbuild, hcall]
    exact ⟨bind_pure_isOk.trans hok, (congrArg LogDatabase.store bind_pure_state).trans hstore⟩

end event

section turns
variable {c : Collation} {γ : Type} {logOf : γ → Option LogParameters}

/-- The logs that a turn of the adapter or a call of another one hands to the procedure. -/
def logsOfTurn (logOf : γ → Option LogParameters) : γ ⊕ StoreCall → List LogParameters
  | .inl turn => (logOf turn).toList
  | .inr call => call.log.toList

/-- The store is the one before with the turns so far. -/
def Stored (logOf : γ → Option LogParameters) (before : Store c) (turns : List (γ ⊕ StoreCall)) (s : Store c) : Prop :=
  Ledger s ∧ s.saved.map Prod.fst = before.saved.map Prod.fst ++ turns.flatMap (logsOfTurn logOf)

theorem Stored.initial {before : Store c} (h : Ledger before) : Stored logOf before [] before :=
  ⟨h, (List.append_nil _).symm⟩

theorem Stored.other {before s : Store c} {turns : List (γ ⊕ StoreCall)} (h : Stored logOf before turns s)
    (call : StoreCall) : Stored logOf before (turns ++ [.inr call]) (s.call call) := by
  refine ⟨h.1.call call, (saved_call s call).trans ?_⟩
  rw [h.2, List.append_assoc, List.flatMap_append, List.flatMap_singleton]
  rfl

theorem Stored.turn {before s : Store c} {turns : List (γ ⊕ StoreCall)} (h : Stored logOf before turns s) (turn : γ) :
    Stored logOf before (turns ++ [.inl turn]) (((logOf turn).map fun p => (saveLog s p).2).getD s) := by
  have hlogs : turns.flatMap (logsOfTurn logOf) ++ (logOf turn).toList =
      (turns ++ [Sum.inl turn]).flatMap (logsOfTurn logOf) := by
    rw [List.flatMap_append, List.flatMap_singleton]
    rfl
  unfold Stored
  rw [← hlogs, ← List.append_assoc, ← h.2]
  cases logOf turn with
  | none => exact ⟨h.1, (List.append_nil _).symm⟩
  | some p =>
    refine ⟨h.1.saveLog p, ?_⟩
    change ((saveLog s p).2.saved).map Prod.fst = _
    rw [saved_saveLog, List.map_append]
    rfl

/-- A call of another adapter. -/
def otherCall (db : LogDatabase c) (call : StoreCall) : LogDatabase c := { db with store := db.store.call call }

end turns

section samples

/-- The conversion as logback documents it. -/
def printableLevels : LevelToSyslogSeverity where
  convert e := match syslogSeverity e.level with
    | some level => .ok level.value
    | none => .error (.runtimeException [])
  documented {e severity} h := by
    cases hlevel : syslogSeverity e.level with
    | none =>
      rw [hlevel] at h
      cases h
    | some level =>
      rw [hlevel] at h
      obtain rfl := Except.ok.inj h
      rfl

def startedEvent : LoggingEvent := ⟨.INFO, 0, "started".toList, none, none⟩

def emptyTables : LogDatabase Collation.binary := ⟨Store.empty, Table.empty⟩

end samples
end Srvlog.Logback
