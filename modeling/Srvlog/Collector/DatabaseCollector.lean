import Srvlog.Collector.LogCollector
import Srvlog.Collector.SimpleLogCollector
import Srvlog.Database.SnortLogs
import Srvlog.Database.StoreProcedures

/-! The collector in front of the database, with the parameters that it passes to the
procedures. -/
namespace Srvlog.Collector
open Library Data Database

/-- How the driver writes dates to columns and reads them back. -/
structure DateColumns where
  toDatetime : Int → Datetime
  ofDatetime : Datetime → Int

section parameters
variable (dates : DateColumns)

/-- The collector has filled in the date and has refused a missing host. -/
def logParameters (logData : LogData) : Option LogParameters := do
  let date ← logData.date
  let host ← (← logData.host) |> varchar? 60
  let message ← logData.message.mapM sqlText?
  let program ← logData.program.mapM (varchar? 60)
  let hash ← logData.hash.mapM (varchar? 32)
  return {
    logDate := dates.toDatetime date
    facility := logData.facility
    severity := logData.severity
    message, program, hash, host }

def snortColumns (data : SnortLogData) : Option SnortColumns := do
  let program ← (← data.program) |> varchar? 60
  let sensorName ← (← data.sensorName) |> varchar? 60
  let date ← data.date
  let priority ← unsigned? data.priority
  let classification ← (← data.classification) |> varchar? 255
  let alertCause ← (← data.alertCause) |> varchar? 255
  let generatorId ← unsigned? data.generatorId
  let signatureId ← unsigned? data.signatureId
  let signatureRevision ← unsigned? data.signatureRevision
  let protocolNumber ← unsigned? data.protocolNumber
  let protocolAlias ← data.protocolAlias.mapM (varchar? 60)
  let protocolVersion ← unsigned? data.protocolVersion
  let sourceIp ← data.sourceIp.mapM (varchar? 60)
  let destinationIp ← data.destinationIp.mapM (varchar? 60)
  let headerLength ← unsigned? data.headerLength
  let serviceType ← unsigned? data.serviceType
  let datagramLength ← unsigned? data.datagramLength
  let identification ← unsigned? data.identification
  let flags ← unsigned? data.flags
  let fragmentOffset ← unsigned? data.fragmentOffset
  let timeToLive ← unsigned? data.timeToLive
  let checksum ← unsigned? data.checksum
  let sourcePort ← unsigned? data.sourcePort
  let destinationPort ← unsigned? data.destinationPort
  let host ← data.host.mapM (varchar? 60)
  let xForwardedFor ← data.xForwardedFor.mapM (varchar? 60)
  let xRealIp ← data.xRealIp.mapM (varchar? 60)
  let payload ← (← data.payload) |> sqlText?
  return {
    program, sensorName, date := dates.toDatetime date, priority, classification, alertCause
    generatorId, signatureId, signatureRevision, protocolNumber, protocolAlias, protocolVersion, sourceIp
    destinationIp, headerLength, serviceType, datagramLength, identification, flags, fragmentOffset, timeToLive
    checksum, sourcePort, destinationPort, host, xForwardedFor, xRealIp, payload }

/-- The row of an alert; `call` is the number of the `saveLog` call that it follows. -/
def ossecRow (ossecLogData : OssecLogData) (call : Nat) : Option OssecRow := do
  let logId ← unsigned? ossecLogData.logId
  let identifier ← varchar? 60 ossecLogData.identifier
  let hash ← varchar? 32 ossecLogData.hash
  return ⟨logId, dates.toDatetime ossecLogData.date, identifier, some hash, call⟩

end parameters

/-- All tables that logs and alerts are stored in. -/
structure LogDatabase (c : Collation) where
  store : Store c
  snortLogs : Table SnortRow

/-- The procedure refuses its parameters. -/
def dataTruncation : JavaException := .runtimeException "Data truncation".toList

section collector
variable {c : Collation} (toString : LogData → Text) (dates : DateColumns) (now : Int)

/-- `save_snort_log` takes the partition key from the time of the call. -/
def insertSnortLog (db : LogDatabase c) (columns : SnortColumns) : LogDatabase c :=
  { db with snortLogs := db.snortLogs.insert { columns with
      snortLogsPartitionKey := (dates.toDatetime now).dateFormatYm } }

def databaseCollector : ILogCollector (LogDatabase c) where
  saveLog logData := do
    let accepted ← ofResult (acceptedLog toString now logData)
    fun db => match logParameters dates accepted with
      | none => (.error dataTruncation, db)
      | some p => (.ok { accepted with id := some (saveLog db.store p).1 }, { db with store := (saveLog db.store p).2 })
  saveSnortLog data := fun db => match snortColumns dates data with
    | none => (.error dataTruncation, db)
    | some columns => (.ok ⟨⟩, insertSnortLog dates now db columns)
  saveOssecLog ossecLogData := fun db => match ossecRow dates ossecLogData (db.store.saved.length - 1) with
    | none => (.error dataTruncation, db)
    | some row => (.ok ⟨⟩, { db with store := saveOssecLog db.store row })

end collector

/-- A driver and a server that both keep the time in UTC; year 1970 begins with day 719528. -/
def utcColumns : DateColumns where
  toDatetime ms :=
    let seconds := (ms / 1000 + 719528 * 86400).toNat
    if h : yearOfDay (seconds / 86400) ≤ 9999 then ⟨seconds, h⟩ else ⟨0, Datetime.zero_in_range⟩
  ofDatetime date := (date.seconds - 719528 * 86400) * 1000

section rules
variable {c : Collation} {toString : LogData → Text} {dates : DateColumns} {now : Int} {db : LogDatabase c}

theorem logParameters_eq_some {logData : LogData} {p : LogParameters} (h : logParameters dates logData = some p) :
    (∃ date, logData.date = some date ∧ p.logDate = dates.toDatetime date) ∧ logData.host = some p.host.chars := by
  simp only [logParameters, bind, Option.bind_eq_some_iff, pure, Option.some.injEq] at h
  obtain ⟨date, hdate, chars, hchars, host, hhost, -, -, -, -, -, -, rfl⟩ := h
  exact ⟨⟨date, hdate, rfl⟩, hchars.trans (congrArg some (varchar?_eq_some hhost).symm)⟩

theorem hash_of_logParameters {logData : LogData} {p : LogParameters} (h : logParameters dates logData = some p) :
    p.hash.map (·.chars) = logData.hash := by
  simp only [logParameters, bind, Option.bind_eq_some_iff, pure, Option.some.injEq] at h
  obtain ⟨_, -, _, -, _, -, _, -, _, -, hash, hhash, rfl⟩ := h
  cases hlog : logData.hash with
  | none =>
    rw [hlog] at hhash
    rw [← Option.some.inj hhash]
    rfl
  | some chars =>
    rw [hlog] at hhash
    obtain ⟨value, hvalue, rfl⟩ := Option.map_eq_some_iff.mp hhash
    exact congrArg some (varchar?_eq_some hvalue)

theorem logParameters_of_fits {date : Int} {facility severity id : Option Int} {message : SqlText}
    {program host : Varchar 60} :
    logParameters dates ⟨some date, some host.chars, facility, severity, some message.chars, id, some program.chars, none⟩ =
      some ⟨⟨dates.toDatetime date, facility, severity, some message, some program, none⟩, host⟩ := by
  simp [logParameters, varchar?, sqlText?, message.fits, program.fits, host.fits]

theorem saveLog_of_parameters {logData accepted : LogData} {p : LogParameters}
    (haccepted : acceptedLog toString now logData = .ok accepted) (hp : logParameters dates accepted = some p) :
    (databaseCollector toString dates now).saveLog logData db =
      (.ok { accepted with id := some (saveLog db.store p).1 }, { db with store := (saveLog db.store p).2 }) := by
  have hcall : (databaseCollector toString dates now).saveLog logData db = _ :=
    bind_of_ok (congrArg (·, db) haccepted)
  rw [hcall, hp]

/-- What a call that succeeds has saved, and what it returns. -/
theorem saveLog_eq_ok {logData saved : LogData} {after : LogDatabase c}
    (h : (databaseCollector toString dates now).saveLog logData db = (.ok saved, after)) :
    ∃ p, p.hash.map (·.chars) = logData.hash ∧ saved.id = some ((saveLog db.store p).1 : Int) ∧
      after = { db with store := (saveLog db.store p).2 } := by
  obtain ⟨accepted, before, hread, hsave⟩ := bind_eq_ok h
  obtain ⟨haccepted, rfl⟩ := ofResult_eq_ok hread
  obtain ⟨-, rfl⟩ := (acceptedLog_eq_ok_iff toString).mp haccepted
  split at hsave
  · cases hsave
  · next p hp =>
    obtain ⟨hsaved, rfl⟩ := Prod.mk.inj hsave
    obtain rfl := Except.ok.inj hsaved
    have hhash := hash_of_logParameters hp
    exact ⟨p, hhash, rfl, rfl⟩

theorem saveSnortLog_eq_ok {data : SnortLogData} {after : LogDatabase c}
    (h : (databaseCollector toString dates now).saveSnortLog data db = (.ok ⟨⟩, after)) :
    ∃ columns, snortColumns dates data = some columns ∧ after = insertSnortLog dates now db columns := by
  unfold databaseCollector at h
  dsimp only at h
  split at h
  · cases h
  · next columns hcolumns => exact ⟨columns, hcolumns, (Prod.mk.inj h).2.symm⟩

theorem saveOssecLog_eq_ok {data : OssecLogData} {after : LogDatabase c}
    (h : (databaseCollector toString dates now).saveOssecLog data db = (.ok ⟨⟩, after)) :
    ∃ row, ossecRow dates data (db.store.saved.length - 1) = some row ∧
      after = { db with store := saveOssecLog db.store row } := by
  unfold databaseCollector at h
  dsimp only at h
  split at h
  · cases h
  · next row hrow => exact ⟨row, hrow, (Prod.mk.inj h).2.symm⟩

/-- The identifier of a stored log fits, so an alert is refused for its texts only. -/
theorem ossecRow_eq_some {logId call : Nat} {identifier hash : Text} {date : Int} {row : OssecRow} :
    ossecRow dates ⟨logId, identifier, hash, date⟩ call = some row ↔ ∃ identifier' hash',
      varchar? 60 identifier = some identifier' ∧ varchar? 32 hash = some hash' ∧
        row = ⟨logId, dates.toDatetime date, identifier', some hash', call⟩ := by
  have hlogId : unsigned? (logId : Int) = some logId := by simp [unsigned?]
  unfold ossecRow
  rw [hlogId]
  simp only [bind, Option.bind_some, Option.bind_eq_some_iff, pure, Option.some.injEq]
  constructor
  · rintro ⟨identifier', hidentifier, hash', hhash, rfl⟩
    exact ⟨identifier', hash', hidentifier, hhash, rfl⟩
  · rintro ⟨identifier', hash', hidentifier, hhash, rfl⟩
    exact ⟨identifier', hidentifier, hash', hhash, rfl⟩

/-- The date of a log without one is the time of the call. -/
theorem saveLog_of_fits {date facility severity : Option Int} {message : SqlText} {program host : Varchar 60}
    (hne : message.chars ≠ []) : ((databaseCollector toString dates now).saveLog
      ⟨date, some host.chars, facility, severity, some message.chars, none, some program.chars, none⟩ db).2 =
        { db with store := (saveLog db.store
          ⟨⟨dates.toDatetime (date.getD now), facility, severity, some message, some program, none⟩, host⟩).2 } := by
  have hwhole : truncateString MESSAGE_MAX_BYTES (some message.chars) = some message.chars :=
    truncateString_of_fits hne message.fits
  have haccepted : acceptedLog toString now
      ⟨date, some host.chars, facility, severity, some message.chars, none, some program.chars, none⟩ =
        .ok ⟨some (date.getD now), some host.chars, facility, severity, some message.chars, none, some program.chars,
          none⟩ := by
    refine (acceptedLog_eq_ok_iff toString).mpr ⟨Option.some_ne_none _, ?_⟩
    dsimp only
    rw [hwhole]
  rw [saveLog_of_parameters haccepted logParameters_of_fits]

/-- A log either leaves the database as it is or is saved with its host, under its date or
under the time of the call. -/
theorem saveLog_databaseCollector (logData : LogData) :
    ((databaseCollector toString dates now).saveLog logData db).2 = db ∨
      ∃ p, ((databaseCollector toString dates now).saveLog logData db).2 = { db with store := (saveLog db.store p).2 } ∧
        p.logDate = dates.toDatetime (logData.date.getD now) ∧ logData.host = some p.host.chars := by
  cases haccepted : acceptedLog toString now logData with
  | error e =>
    left
    exact congrArg Prod.snd (bind_of_error (congrArg (·, db) haccepted))
  | ok accepted =>
    have hcall : (databaseCollector toString dates now).saveLog logData db = _ :=
      bind_of_ok (congrArg (·, db) haccepted)
    obtain ⟨-, rfl⟩ := (acceptedLog_eq_ok_iff toString).mp haccepted
    rw [hcall]
    dsimp only
    split
    · exact .inl rfl
    · next p hp =>
      obtain ⟨⟨date, hdate, hlogDate⟩, hhost⟩ := logParameters_eq_some hp
      obtain rfl := Option.some.inj hdate
      exact .inr ⟨p, rfl, hlogDate, hhost⟩

end rules
end Srvlog.Collector
