import Srvlog.Collector.DatabaseCollector
import Srvlog.Database.SnortQueries
import Srvlog.Database.StoreLedger
import Srvlog.Syslog.SyslogAdapter

/-! The alerts of ossec with the snort rows that belong to them, which come in by messages
of their own, before or after the alert. -/
namespace Srvlog.Syslog
open Library Data Collector Database
variable {c : Collation}

section readers
variable (dates : DateColumns)

/-- The rows are found by their hash, so they have one. -/
def readOssecLog (row : OssecRow) : OssecLogData where
  logId := row.logId
  identifier := row.identifier.chars
  hash := row.hash.elim [] (·.chars)
  date := dates.ofDatetime row.date

/-- Numbers that are null are read as zero. -/
def readColumns (columns : SnortColumns) : SnortLogData where
  program := some columns.program.chars
  sensorName := some columns.sensorName.chars
  date := some (dates.ofDatetime columns.date)
  priority := columns.priority
  classification := some columns.classification.chars
  alertCause := some columns.alertCause.chars
  generatorId := columns.generatorId
  signatureId := columns.signatureId
  signatureRevision := columns.signatureRevision
  payload := some columns.payload.chars
  protocolNumber := columns.protocolNumber.getD 0
  protocolAlias := columns.protocolAlias.map (·.chars)
  protocolVersion := columns.protocolVersion.getD 0
  sourceIp := columns.sourceIp.map (·.chars)
  destinationIp := columns.destinationIp.map (·.chars)
  headerLength := columns.headerLength.getD 0
  serviceType := columns.serviceType.getD 0
  datagramLength := columns.datagramLength.getD 0
  identification := columns.identification.getD 0
  flags := columns.flags.getD 0
  fragmentOffset := columns.fragmentOffset.getD 0
  timeToLive := columns.timeToLive.getD 0
  checksum := columns.checksum.getD 0
  sourcePort := columns.sourcePort.getD 0
  destinationPort := columns.destinationPort.getD 0
  host := columns.host.map (·.chars)
  xForwardedFor := columns.xForwardedFor.map (·.chars)
  xRealIp := columns.xRealIp.map (·.chars)

def readSnortLog (row : Nat × SnortRow) : SnortLogData :=
  { readColumns dates row.2.toSnortColumns with id := some (row.1 : Int) }

/-- The dates of the window are computed from the date of the alert as it is read. -/
def snortLogsParameters (ossecSnortMessage : OssecSnortMessage) (signature : SnortSignature) : SnortLogsParameters where
  generatorId := signature.generatorId
  signatureId := signature.signatureId
  signatureRevision := signature.signatureRevision
  dateFrom := dates.toDatetime ossecSnortMessage.dateFrom
  dateTo := dates.toDatetime ossecSnortMessage.dateTo

/-- `SimpleLogCollector.getSnortLogs`. -/
def getSnortLogs (db : LogDatabase c) (ossecSnortMessage : OssecSnortMessage) : Except JavaException (List SnortLogData) := do
  let signature ← createSnortSignature ossecSnortMessage.identifier
  return (Database.getSnortLogs db.snortLogs (snortLogsParameters dates ossecSnortMessage signature)).map (readSnortLog dates)

/-- The alerts, each with its snort rows. -/
def correlate (db : LogDatabase c) (rows : List (Nat × OssecRow)) :
    Except JavaException (List (OssecLogData × List SnortLogData)) :=
  rows.mapM fun row => do
    let snortLogs ← getSnortLogs dates db (.ofOssecLogData (readOssecLog dates row.2))
    return (readOssecLog dates row.2, snortLogs)

end readers

section messages
variable (toString : LogData → Text) (dates : DateColumns) (platform : Platform)

/-- A message of ossec, with the log that comes with it, or one of barnyard2. -/
inductive IdsMessage where
  | ossec (rawMessage : Text) (logData : LogData)
  | snort (rawMessage : Text)

/-- The message is processed at the given time. -/
def processMessage (now : Int) : IdsMessage → Action (LogDatabase c) JavaException PUnit
  | .ossec rawMessage logData => processOssecSnortMessage (databaseCollector toString dates now) platform rawMessage logData
  | .snort rawMessage => processRawSnortMessage (databaseCollector toString dates now) rawMessage

/-- Messages in the order and at the times at which they are processed. -/
def processMessages (db : LogDatabase c) (messages : List (Int × IdsMessage)) : LogDatabase c :=
  messages.foldl (fun db message => (processMessage toString dates platform message.1 message.2 db).2) db

/-- A signature can be read from an identifier. -/
def Readable (identifier : Text) : Prop := ∃ signature, createSnortSignature identifier = .ok signature

/-- The message is processed without an exception, and so is the identifier of its alert. -/
structure WellFormed (c : Collation) (message : IdsMessage) : Prop where
  accepted : ∀ now (db : LogDatabase c), (processMessage toString dates platform now message db).1 = .ok ⟨⟩
  readable : ∀ rawMessage logData ossecSnortMessage, message = .ossec rawMessage logData →
    createOssecSnortMessage platform rawMessage = .ok ossecSnortMessage → Readable ossecSnortMessage.identifier

end messages

section results
variable (dates : DateColumns)

/-- Equal results, but for the identifiers of the rows and for rows with equal dates. -/
structure SameCorrelation (a b : OssecLogData × List SnortLogData) : Prop where
  alert : { a.1 with logId := 0 } = { b.1 with logId := 0 }
  snortLogs : SameUpToTies SnortLogData.date (a.2.map fun data => { data with id := none })
    (b.2.map fun data => { data with id := none })

/-- The columns have the signature of the alert and a date between five minutes before it
and one minute after it. -/
def belongs (alert : OssecRow) (signature : SnortSignature) (columns : SnortColumns) : Bool :=
  decide ((columns.generatorId : Int) = signature.generatorId ∧ (columns.signatureId : Int) = signature.signatureId ∧
    (columns.signatureRevision : Int) = signature.signatureRevision ∧
      (dates.toDatetime (dates.ofDatetime alert.date - 5 * 60 * 1000)).seconds ≤ columns.date.seconds ∧
        columns.date.seconds ≤ (dates.toDatetime (dates.ofDatetime alert.date + 60 * 1000)).seconds)

/-- The result is the alert of the row with exactly the snort rows that belong to it. -/
def Correlated (db : LogDatabase c) (row : Nat × OssecRow) (result : OssecLogData × List SnortLogData) : Prop :=
  result.1 = readOssecLog dates row.2 ∧ ∃ signature, createSnortSignature row.2.identifier.chars = .ok signature ∧
    result.2.Perm ((db.snortLogs.rows.filter fun l => belongs dates row.2 signature l.2.toSnortColumns).map
      (readSnortLog dates))

/-- To each alert belong so few rows that the query leaves none out. -/
def Limited (db : LogDatabase c) : Prop :=
  ∀ alert ∈ ossecContents db.store, ∀ signature, createSnortSignature alert.identifier.chars = .ok signature →
    (snortContents db.snortLogs).countP (belongs dates alert signature) ≤ 10

end results

section contents
variable (dates : DateColumns) (platform : Platform)

/-- What the message adds to the alerts. -/
def ossecContentOf : IdsMessage → Option OssecRow
  | .ossec rawMessage _ => (createOssecSnortMessage platform rawMessage).toOption.bind fun message =>
    ossecRow dates ⟨(0 : Nat), message.identifier, message.hash, message.date⟩ 0
  | .snort _ => none

/-- What the message adds to the snort rows. -/
def snortContentOf : IdsMessage → Option SnortColumns
  | .ossec _ _ => none
  | .snort rawMessage => (createSnortMessage rawMessage).toOption.bind fun message =>
    snortColumns dates message.toSnortLogData

variable {toString : LogData → Text} {dates platform} {now : Int} {db after : LogDatabase c}

/-- A processed alert is saved as the store's procedure does. -/
theorem processOssecSnortMessage_eq_ok {rawMessage : Text} {logData : LogData}
    (h : processOssecSnortMessage (databaseCollector toString dates now) platform rawMessage logData db =
      (.ok ⟨⟩, after)) :
    ∃ message p identifier hash, createOssecSnortMessage platform rawMessage = .ok message ∧ p.hash = some hash ∧
      varchar? 60 message.identifier = some identifier ∧ varchar? 32 message.hash = some hash ∧
        after = { db with
          store := Database.processOssecSnortMessage db.store p (dates.toDatetime message.date) identifier } := by
  obtain ⟨message, _, hread, hlog⟩ := bind_eq_ok h
  obtain ⟨hmessage, hsame⟩ := ofResult_eq_ok hread
  rw [hsame] at hlog
  obtain ⟨saved, _, hsave, halert⟩ := bind_eq_ok hlog
  obtain ⟨p, hhash, hid, rfl⟩ := saveLog_eq_ok hsave
  obtain ⟨ossecLogData, _, hconvert, hinsert⟩ := bind_eq_ok halert
  obtain ⟨hdata, rfl⟩ := ofResult_eq_ok hconvert
  unfold OssecSnortMessage.toOssecLogData at hdata
  dsimp only at hdata
  rw [hid] at hdata
  obtain rfl := Except.ok.inj hdata
  obtain ⟨row, hrow, rfl⟩ := saveOssecLog_eq_ok hinsert
  obtain ⟨identifier, hash, hidentifier, hvalue, rfl⟩ := ossecRow_eq_some.mp hrow
  have hp : p.hash = some hash := by
    obtain ⟨value, hsome, hchars⟩ := Option.map_eq_some_iff.mp hhash
    rw [hsome]
    obtain ⟨chars, _⟩ := value
    obtain ⟨chars', _⟩ := hash
    obtain rfl : chars = chars' := hchars.trans (varchar?_eq_some hvalue).symm
    rfl
  refine ⟨message, p, identifier, hash, hmessage, hp, hidentifier, hvalue, ?_⟩
  have hcall : (saveLog db.store p).2.saved.length - 1 = db.store.saved.length := by
    rw [saved_saveLog, List.length_append]
    rfl
  unfold Database.processOssecSnortMessage
  dsimp only
  rw [hcall, hp]

/-- An alert is accepted when its log is, and when its texts fit. -/
theorem processOssecSnortMessage_of_fits {rawMessage : Text} {logData accepted : LogData} {message : OssecSnortMessage}
    {p : LogParameters} {identifier : Varchar 60} {hash : Varchar 32}
    (hmessage : createOssecSnortMessage platform rawMessage = .ok message)
    (haccepted : acceptedLog toString now { logData with hash := some message.hash } = .ok accepted)
    (hp : logParameters dates accepted = some p) (hidentifier : varchar? 60 message.identifier = some identifier)
    (hhash : varchar? 32 message.hash = some hash) :
    (processOssecSnortMessage (databaseCollector toString dates now) platform rawMessage logData db).1 = .ok ⟨⟩ := by
  have hread : ofResult (createOssecSnortMessage platform rawMessage) db = (.ok message, db) := congrArg (·, db) hmessage
  unfold processOssecSnortMessage
  rw [bind_of_ok hread, bind_of_ok (saveLog_of_parameters haccepted hp)]
  refine congrArg Prod.fst (bind_of_ok rfl) |>.trans ?_
  unfold databaseCollector
  dsimp only
  rw [ossecRow_eq_some.mpr ⟨identifier, hash, hidentifier, hhash, rfl⟩]

theorem processRawSnortMessage_of_fits {rawMessage : Text} (h : ((createSnortMessage rawMessage).toOption.bind
    fun message => snortColumns dates message.toSnortLogData).isSome) :
    (processRawSnortMessage (databaseCollector toString dates now) rawMessage db).1 = .ok ⟨⟩ := by
  obtain ⟨columns, hcolumns⟩ := Option.isSome_iff_exists.mp h
  cases hmessage : createSnortMessage rawMessage with
  | error failure =>
    rw [hmessage] at hcolumns
    cases hcolumns
  | ok message =>
    rw [hmessage] at hcolumns
    have hread : ofResult (createSnortMessage rawMessage) db = (.ok message, db) := congrArg (·, db) hmessage
    have hfits : snortColumns dates message.toSnortLogData = some columns := hcolumns
    unfold processRawSnortMessage
    rw [bind_of_ok hread]
    unfold databaseCollector
    dsimp only
    rw [hfits]

/-- Every message that is processed adds its contents, whatever is stored already. -/
theorem processMessage_contents {message : IdsMessage}
    (h : (processMessage toString dates platform now message db).1 = .ok ⟨⟩) :
    ossecContents (processMessage toString dates platform now message db).2.store =
        ossecContents db.store ++ (ossecContentOf dates platform message).toList ∧
      snortContents (processMessage toString dates platform now message db).2.snortLogs =
        snortContents db.snortLogs ++ (snortContentOf dates message).toList := by
  obtain ⟨after, hafter⟩ : ∃ after, processMessage toString dates platform now message db = (.ok ⟨⟩, after) :=
    ⟨_, Prod.ext h rfl⟩
  rw [hafter]
  cases message with
  | ossec rawMessage logData =>
    obtain ⟨message, p, identifier, hash, hmessage, hp, hidentifier, hhash, rfl⟩ :=
      processOssecSnortMessage_eq_ok hafter
    have hcontent : ossecContentOf dates platform (.ossec rawMessage logData) =
        some ⟨0, dates.toDatetime message.date, identifier, some hash, 0⟩ := by
      rw [ossecContentOf, hmessage]
      exact ossecRow_eq_some.mpr ⟨identifier, hash, hidentifier, hhash, rfl⟩
    rw [hcontent]
    refine ⟨?_, (List.append_nil _).symm⟩
    unfold Database.processOssecSnortMessage saveOssecLog ossecContents
    dsimp only
    rw [Table.insert_rows, List.map_append, hp]
    rcases saveLog_cases db.store p with ⟨hostId, -, hsave⟩ | ⟨-, hsave⟩
    all_goals
      rw [hsave]
      rfl
  | snort rawMessage =>
    obtain ⟨message, _, hread, hsave⟩ := bind_eq_ok hafter
    obtain ⟨hmessage, rfl⟩ := ofResult_eq_ok hread
    obtain ⟨columns, hcolumns, rfl⟩ := saveSnortLog_eq_ok hsave
    have hcontent : snortContentOf dates (.snort rawMessage) = some columns := by
      rw [snortContentOf, hmessage]
      exact hcolumns
    rw [hcontent]
    refine ⟨(List.append_nil _).symm, ?_⟩
    exact List.map_append

theorem WellFormed.readable_content {message : IdsMessage} (h : WellFormed toString dates platform c message)
    {alert : OssecRow} (halert : ossecContentOf dates platform message = some alert) : Readable alert.identifier.chars := by
  cases message with
  | ossec rawMessage logData =>
    unfold ossecContentOf at halert
    dsimp only at halert
    cases hmessage : createOssecSnortMessage platform rawMessage with
    | error failure =>
      rw [hmessage] at halert
      cases halert
    | ok message =>
      rw [hmessage] at halert
      obtain ⟨identifier, hash, hidentifier, -, rfl⟩ := ossecRow_eq_some.mp halert
      dsimp only
      rw [varchar?_eq_some hidentifier]
      exact h.readable rawMessage logData message rfl hmessage
  | snort rawMessage => cases halert

/-- The contents of a run do not depend on its order. -/
theorem processMessages_contents {messages : List (Int × IdsMessage)}
    (h : ∀ message ∈ messages, WellFormed toString dates platform c message.2) :
    ossecContents (processMessages toString dates platform db messages).store =
        ossecContents db.store ++ messages.filterMap (fun message => ossecContentOf dates platform message.2) ∧
      snortContents (processMessages toString dates platform db messages).snortLogs =
        snortContents db.snortLogs ++ messages.filterMap (fun message => snortContentOf dates message.2) := by
  induction messages generalizing db with
  | nil => exact ⟨(List.append_nil _).symm, (List.append_nil _).symm⟩
  | cons message messages ih =>
    rw [List.forall_mem_cons] at h
    obtain ⟨hossec, hsnort⟩ := processMessage_contents (h.1.accepted message.1 db)
    have htail := @ih (processMessage toString dates platform message.1 message.2 db).2 h.2
    rw [hossec, hsnort, List.append_assoc, List.append_assoc] at htail
    have hcons {β : Type} (f : Int × IdsMessage → Option β) :
        (message :: messages).filterMap f = (f message).toList ++ messages.filterMap f := by
      rw [List.filterMap_cons]
      cases f message <;> rfl
    rw [hcons, hcons]
    exact htail

end contents

section queries
variable {dates : DateColumns} {db db' : LogDatabase c} {hash : Varchar 32} {rows rows' : List (Nat × OssecRow)}

theorem mem_ossecContents (h : OssecLogsByHash db.store hash rows) {row : Nat × OssecRow} (hrow : row ∈ rows) :
    row.2.content ∈ ossecContents db.store :=
  List.mem_map_of_mem (List.mem_filter.mp (h.mem_iff.mp hrow)).1

/-- The rows of a hash have the same contents when the tables have. -/
theorem contents_perm (h : OssecLogsByHash db.store hash rows) (h' : OssecLogsByHash db'.store hash rows')
    (hcontents : (ossecContents db.store).Perm (ossecContents db'.store)) :
    (rows.map (·.2.content)).Perm (rows'.map (·.2.content)) := by
  have hfilter (s : Store c) : (s.ossecLogs.rows.filter fun l => c.equal l.2.hash (some hash)).map (·.2.content) =
      (ossecContents s).filter fun l => c.equal l.hash (some hash) := by
    unfold ossecContents
    rw [List.filter_map]
    rfl
  refine (h.map _).trans (List.Perm.trans ?_ (h'.map _).symm)
  rw [hfilter, hfilter]
  exact hcontents.filter _

theorem Limited.of_perm (h : Limited dates db) (hossec : (ossecContents db.store).Perm (ossecContents db'.store))
    (hsnort : (snortContents db.snortLogs).Perm (snortContents db'.snortLogs)) : Limited dates db' := by
  intro alert halert signature hsignature
  rw [← hsnort.countP_eq]
  exact h alert (hossec.mem_iff.mpr halert) signature hsignature

/-- What the collector reads for an alert with a readable identifier. -/
def correlation (dates : DateColumns) (db : LogDatabase c) (signature : SnortSignature) (row : Nat × OssecRow) :
    OssecLogData × List SnortLogData :=
  (readOssecLog dates row.2, (Database.getSnortLogs db.snortLogs
    (snortLogsParameters dates (.ofOssecLogData (readOssecLog dates row.2)) signature)).map (readSnortLog dates))

theorem correlate_eq_ok (hreadable : ∀ row ∈ rows, Readable row.2.identifier.chars) :
    ∃ results, correlate dates db rows = .ok results ∧ List.Forall₂ (fun row result => row ∈ rows ∧
      ∃ signature, createSnortSignature row.2.identifier.chars = .ok signature ∧
        result = correlation dates db signature row) rows results := by
  refine mapM_eq_ok_of_forall fun row hrow => ?_
  obtain ⟨signature, hsignature⟩ := hreadable row hrow
  refine ⟨correlation dates db signature row, ?_, hrow, signature, hsignature, rfl⟩
  have hread : getSnortLogs dates db (.ofOssecLogData (readOssecLog dates row.2)) =
      .ok (correlation dates db signature row).2 := by
    unfold getSnortLogs
    rw [show createSnortSignature (OssecSnortMessage.ofOssecLogData (readOssecLog dates row.2)).identifier =
      .ok signature from hsignature]
    rfl
  rw [hread]
  rfl

theorem selects_eq_belongs (alert : OssecRow) (signature : SnortSignature) :
    (snortLogsParameters dates (.ofOssecLogData (readOssecLog dates alert)) signature).selects =
      belongs dates alert signature := by
  funext columns
  rfl

theorem Limited.length_le (h : Limited dates db) {alert : OssecRow} {signature : SnortSignature}
    (halert : alert.content ∈ ossecContents db.store)
    (hsignature : createSnortSignature alert.identifier.chars = .ok signature) :
    (db.snortLogs.rows.filter fun l => (snortLogsParameters dates (.ofOssecLogData (readOssecLog dates alert))
      signature).selects l.2.toSnortColumns).length ≤ 10 := by
  have hlimit := h alert.content halert signature hsignature
  unfold snortContents at hlimit
  rw [List.countP_map, List.countP_eq_length_filter] at hlimit
  rw [selects_eq_belongs]
  exact hlimit

/-- The limit of the query cuts nothing off, so it reads exactly what belongs to the alert. -/
theorem Limited.correlated (h : Limited dates db) {row : Nat × OssecRow} {signature : SnortSignature}
    (hrow : row.2.content ∈ ossecContents db.store)
    (hsignature : createSnortSignature row.2.identifier.chars = .ok signature) :
    Correlated dates db row (correlation dates db signature row) := by
  refine ⟨rfl, signature, hsignature, ?_⟩
  rw [← selects_eq_belongs]
  exact (getSnortLogs_perm (h.length_le hrow hsignature)).map _

theorem Limited.sameCorrelation (h : Limited dates db)
    (hsnort : (snortContents db.snortLogs).Perm (snortContents db'.snortLogs)) {row row' : Nat × OssecRow}
    {signature : SnortSignature} (hrow : row.2.content ∈ ossecContents db.store)
    (hsame : row.2.content = row'.2.content)
    (hsignature : createSnortSignature row.2.identifier.chars = .ok signature) :
    SameCorrelation (correlation dates db signature row) (correlation dates db' signature row') := by
  obtain ⟨_, logId, date, identifier, hash, call⟩ := row
  obtain ⟨_, logId', date', identifier', hash', call'⟩ := row'
  obtain ⟨-, rfl, rfl, rfl, -⟩ := OssecRow.mk.inj hsame
  have hties := getSnortLogs_sameUpToTies hsnort (h.length_le hrow hsignature)
  have hcolumns (l : List (Nat × SnortRow)) : (l.map (readSnortLog dates)).map (fun data => { data with id := none }) =
      (l.map (·.2.toSnortColumns)).map (readColumns dates) := by
    rw [List.map_map, List.map_map]
    rfl
  refine ⟨rfl, ?_⟩
  unfold correlation
  dsimp only
  rw [hcolumns, hcolumns]
  exact hties.map (g := fun date => some (dates.ofDatetime date)) fun _ => rfl

end queries

/-- Messages that are processed in another order, at other times, give the same alerts with
the same snort rows. An alert may come at another place, as the query for a hash has no order. -/
theorem correlation_of_perm {toString : LogData → Text} {dates : DateColumns} {platform : Platform} {db : LogDatabase c}
    {messages messages' : List (Int × IdsMessage)} (hperm : (messages.map (·.2)).Perm (messages'.map (·.2)))
    (hwellFormed : ∀ message ∈ messages, WellFormed toString dates platform c message.2)
    (hstored : ∀ alert ∈ ossecContents db.store, Readable alert.identifier.chars)
    (hlimited : Limited dates (processMessages toString dates platform db messages)) (hash : Varchar 32)
    {rows rows' : List (Nat × OssecRow)}
    (hrows : OssecLogsByHash (processMessages toString dates platform db messages).store hash rows)
    (hrows' : OssecLogsByHash (processMessages toString dates platform db messages').store hash rows') :
    ∃ results results' paired,
      correlate dates (processMessages toString dates platform db messages) rows = .ok results ∧
      correlate dates (processMessages toString dates platform db messages') rows' = .ok results' ∧
      List.Forall₂ (Correlated dates (processMessages toString dates platform db messages)) rows results ∧
      List.Forall₂ (Correlated dates (processMessages toString dates platform db messages')) rows' results' ∧
      paired.Perm results' ∧ List.Forall₂ SameCorrelation results paired := by
  have hwellFormed' : ∀ message ∈ messages', WellFormed toString dates platform c message.2 := by
    intro message hmessage
    obtain ⟨other, hother, heq⟩ := List.mem_map.mp (hperm.mem_iff.mpr (List.mem_map_of_mem hmessage))
    exact heq ▸ hwellFormed other hother
  have hadded {β : Type} (f : IdsMessage → Option β) :
      (messages.filterMap fun message => f message.2).Perm (messages'.filterMap fun message => f message.2) := by
    have hfilter := hperm.filterMap f
    rwa [List.filterMap_map, List.filterMap_map] at hfilter
  obtain ⟨hossec, hsnort⟩ := @processMessages_contents c dates platform toString db messages hwellFormed
  obtain ⟨hossec', hsnort'⟩ := @processMessages_contents c dates platform toString db messages' hwellFormed'
  have hreadable : ∀ alert ∈ ossecContents (processMessages toString dates platform db messages).store,
      Readable alert.identifier.chars := by
    intro alert halert
    rw [hossec] at halert
    rcases List.mem_append.mp halert with hbefore | hnew
    · exact hstored alert hbefore
    · obtain ⟨message, hmessage, hcontent⟩ := List.mem_filterMap.mp hnew
      exact (hwellFormed message hmessage).readable_content hcontent
  generalize processMessages toString dates platform db messages = final at *
  generalize processMessages toString dates platform db messages' = final' at *
  have hossecPerm : (ossecContents final.store).Perm (ossecContents final'.store) := by
    rw [hossec, hossec']
    exact (hadded _).append_left _
  have hsnortPerm : (snortContents final.snortLogs).Perm (snortContents final'.snortLogs) := by
    rw [hsnort, hsnort']
    exact (hadded _).append_left _
  have hlimited' := hlimited.of_perm hossecPerm hsnortPerm
  obtain ⟨results, hresults, hall⟩ := @correlate_eq_ok c dates final rows fun row hrow =>
    hreadable row.2.content (mem_ossecContents hrows hrow)
  obtain ⟨results', hresults', hall'⟩ := @correlate_eq_ok c dates final' rows' fun row hrow =>
    hreadable row.2.content (hossecPerm.mem_iff.mpr (mem_ossecContents hrows' hrow))
  obtain ⟨paired, hpaired, hperm'⟩ := exists_pairing (contents_perm hrows hrows' hossecPerm)
  obtain ⟨partners, hpartners, hsame⟩ := List.perm_comp_forall₂ hpaired hall'
  refine ⟨results, results', partners, hresults, hresults', ?_, ?_, hsame, ?_⟩
  · refine hall.imp ?_
    rintro row result ⟨hrow, signature, hsignature, rfl⟩
    exact hlimited.correlated (mem_ossecContents hrows hrow) hsignature
  · refine hall'.imp ?_
    rintro row result ⟨hrow, signature, hsignature, rfl⟩
    exact hlimited'.correlated (mem_ossecContents hrows' hrow) hsignature
  · refine forall₂_of_pairs ?_ hperm' hall hpartners
    rintro row row' _ _ hcontent ⟨hrow, signature, hsignature, rfl⟩ ⟨-, signature', hsignature', rfl⟩
    have hidentifier := congrArg OssecRow.identifier hcontent
    change row.2.identifier = row'.2.identifier at hidentifier
    rw [← hidentifier, hsignature] at hsignature'
    obtain rfl := Except.ok.inj hsignature'
    exact hlimited.sameCorrelation hsnortPerm (mem_ossecContents hrows hrow) hcontent hsignature

section samples

/-- The digest of the alert below, which is the only text that is hashed. -/
def sampleMd5 (text : Text) : Text :=
  if text = "log-1 ossec: Alert Level: 12; snort[7]: [129:15:1] x".toList then "2bab9533b5b4c1f0eb35d4f33e755a0e".toList
  else []

/-- The clock shows 2017, in UTC. -/
def samplePlatform : Platform := ⟨2017, id, sampleMd5⟩

def sampleOssecMessage : Text :=
  "Oct 12 07:14:00 log-1 ossec: Alert Level: 12; snort[7]: [129:15:1] x".toList

def sampleSnortMessage : Text :=
  "[SNORTIDS[LOG]: [sensor] ] || 2017-10-12 07:13:42.088 3 [129:15:1] || Reset || 1 41 |".toList

def sampleLog : LogData := ⟨some 0, some "log-1".toList, none, none, none, none, none, none⟩

def sampleAlertMessage : OssecSnortMessage :=
  ⟨1507792440000, "[129:15:1]".toList, "2bab9533b5b4c1f0eb35d4f33e755a0e".toList, none⟩

theorem createOssecSnortMessage_sample :
    createOssecSnortMessage samplePlatform sampleOssecMessage = .ok sampleAlertMessage := by
  decide

theorem wellFormed_ossec (toString : LogData → Text) :
    WellFormed toString utcColumns samplePlatform c (.ossec sampleOssecMessage sampleLog) where
  accepted now db := by
    have haccepted : acceptedLog toString now { sampleLog with hash := some sampleAlertMessage.hash } = .ok _ :=
      (acceptedLog_eq_ok_iff toString).mpr ⟨Option.some_ne_none _, rfl⟩
    exact processOssecSnortMessage_of_fits createOssecSnortMessage_sample haccepted rfl rfl rfl
  readable rawMessage logData message hsame hmessage := by
    obtain ⟨rfl, rfl⟩ := IdsMessage.ossec.inj hsame
    rw [createOssecSnortMessage_sample] at hmessage
    obtain rfl := Except.ok.inj hmessage
    exact ⟨⟨129, 15, 1⟩, by decide⟩

theorem wellFormed_snort (toString : LogData → Text) :
    WellFormed toString utcColumns samplePlatform c (.snort sampleSnortMessage) where
  accepted now db := processRawSnortMessage_of_fits (by decide)
  readable rawMessage logData message hsame := by cases hsame

def sampleMessages : List (Int × IdsMessage) :=
  [(0, .ossec sampleOssecMessage sampleLog), (0, .snort sampleSnortMessage)]

def swappedMessages : List (Int × IdsMessage) :=
  [(5000, .snort sampleSnortMessage), (9000, .ossec sampleOssecMessage sampleLog)]

def emptyDatabase : LogDatabase Collation.binary := ⟨Store.empty, Table.empty⟩

def processed (messages : List (Int × IdsMessage)) : LogDatabase Collation.binary :=
  processMessages (fun _ => []) utcColumns samplePlatform emptyDatabase messages

def sampleHash : Varchar 32 := ⟨sampleAlertMessage.hash, by decide⟩

def alertsOf (messages : List (Int × IdsMessage)) : List (Nat × OssecRow) :=
  (processed messages).store.ossecLogs.rows.filter fun l =>
    Collation.binary.equal l.2.hash (some sampleHash)

/-- An alert and its snort row, in both orders. -/
theorem correlation_of_sampleMessages : (alertsOf sampleMessages).length = 1 ∧ ∃ results results' paired,
    correlate utcColumns (processed sampleMessages) (alertsOf sampleMessages) = .ok results ∧
    correlate utcColumns (processed swappedMessages) (alertsOf swappedMessages) = .ok results' ∧
    List.Forall₂ (Correlated utcColumns (processed sampleMessages)) (alertsOf sampleMessages) results ∧
    List.Forall₂ (Correlated utcColumns (processed swappedMessages)) (alertsOf swappedMessages) results' ∧
    paired.Perm results' ∧ List.Forall₂ SameCorrelation results paired := by
  have hwellFormed : ∀ message ∈ sampleMessages,
      WellFormed (fun _ => []) utcColumns samplePlatform Collation.binary message.2 := by
    unfold sampleMessages
    rw [List.forall_mem_cons, List.forall_mem_singleton]
    exact ⟨wellFormed_ossec _, wellFormed_snort _⟩
  have hlimited : Limited utcColumns (processed sampleMessages) := by
    intro alert _ signature _
    have hcount : (snortContents (processed sampleMessages).snortLogs).length ≤ 2 := by
      have hcontents : snortContents (processed sampleMessages).snortLogs = _ := (processMessages_contents hwellFormed).2
      have hempty : snortContents emptyDatabase.snortLogs = [] := rfl
      rw [hcontents, hempty, List.nil_append]
      exact List.length_filterMap_le _ _
    exact Nat.le_trans List.countP_le_length (Nat.le_trans hcount (by decide))
  refine ⟨by decide, ?_⟩
  have hperm : (sampleMessages.map (·.2)).Perm (swappedMessages.map (·.2)) := List.Perm.swap _ _ _
  have hstored : ∀ alert ∈ ossecContents emptyDatabase.store, Readable alert.identifier.chars :=
    fun _ halert => absurd halert List.not_mem_nil
  have hrows (messages : List (Int × IdsMessage)) :
      OssecLogsByHash (processed messages).store sampleHash (alertsOf messages) := List.Perm.refl _
  exact correlation_of_perm hperm hwellFormed hstored hlimited sampleHash (hrows sampleMessages) (hrows swappedMessages)

end samples
end Srvlog.Syslog
