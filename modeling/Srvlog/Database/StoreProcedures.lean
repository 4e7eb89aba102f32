import Srvlog.Database.Schema

/-! The procedures that write the log store: `saveLog`, `saveHost`,
`saveUnprocessed` and `saveOssecLog`, statement by statement. -/
namespace Srvlog.Database
open Library

/-- The parameters of `saveLog`. The collector fills in the date and refuses a
missing host before it calls the procedure. -/
structure LogParameters extends LogColumns where
  host : Varchar 60
  deriving DecidableEq

/-- The database. `saved` is an auxiliary variable that lists the `saveLog` calls
so far, each with the identifier it returned. -/
structure Store (c : Collation) where
  hosts : Hosts c
  logs : Table LogRow
  unprocessedLogs : Table UnprocessedRow
  ossecLogs : Table OssecRow
  saved : List (LogParameters × Nat)

def Store.empty {c : Collation} : Store c :=
  ⟨Hosts.empty, Table.empty, Table.empty, Table.empty, []⟩

/-- A row of temp_logs_to_process; the key is the row's key in unprocessed_logs. -/
structure TempRow extends LogColumns where
  logId : Nat
  hostId : Nat
  call : Nat
  deriving DecidableEq

section statements
variable {c : Collation}

/-- `select host_id into v_host_id from hosts where hostname = i_host`. -/
def hostIdOf (hosts : Hosts c) (host : Varchar 60) : Option Nat :=
  ((hosts.withName host).head?).map Prod.fst

/-- Both inserts into logs take the partition key from the row's own date. -/
def logRow (columns : LogColumns) (hostId call : Nat) : LogRow :=
  { columns with logsPartitionKey := columns.logDate.dateFormatYm, hostId := hostId, call := call }

/-- The insert into temp_logs_to_process: unprocessed rows joined with hosts. -/
def selectToProcess (hosts : Hosts c) (unprocessed : List (Nat × UnprocessedRow)) : List TempRow :=
  unprocessed.flatMap fun ul => (hosts.withName ul.2.host).map fun h =>
    { ul.2.toLogColumns with logId := ul.1, hostId := h.1, call := ul.2.call }

def insertProcessed (logs : Table LogRow) (temp : List TempRow) : Table LogRow :=
  logs.insertAll (temp.map fun t => logRow t.toLogColumns t.hostId t.call)

/-- The delete joins unprocessed_logs with the temporary table on the key. -/
def deleteProcessed (unprocessed : Table UnprocessedRow) (temp : List TempRow) : Table UnprocessedRow :=
  unprocessed.deleteWhere fun ul => temp.any fun t => decide (ul.1 = t.logId)

/-- `save_log`: the identifier comes from the counter of the table that takes the row. -/
def saveLog (s : Store c) (p : LogParameters) : Nat × Store c :=
  match hostIdOf s.hosts p.host with
  | some hostId =>
    (s.logs.autoIncrement, { s with
      logs := s.logs.insert (logRow p.toLogColumns hostId s.saved.length)
      saved := s.saved ++ [(p, s.logs.autoIncrement)] })
  | none =>
    (s.unprocessedLogs.autoIncrement, { s with
      unprocessedLogs := s.unprocessedLogs.insert { p with call := s.saved.length }
      saved := s.saved ++ [(p, s.unprocessedLogs.autoIncrement)] })

/-- `save_host`; a failing insert leaves the database as it was. -/
def saveHost (s : Store c) (hostname : Option (Varchar 120)) (ip : Option (Varchar 60)) : Store c :=
  match s.hosts.insert? ⟨hostname, ip⟩ with
  | some hosts => { s with hosts := hosts }
  | none => s

/-- `save_unprocessed`; the temporary table lives as long as the call. -/
def saveUnprocessed (s : Store c) : Store c :=
  let temp := selectToProcess s.hosts s.unprocessedLogs.rows
  { s with
    logs := insertProcessed s.logs temp
    unprocessedLogs := deleteProcessed s.unprocessedLogs temp }

def saveOssecLog (s : Store c) (row : OssecRow) : Store c :=
  { s with ossecLogs := s.ossecLogs.insert row }

/-- `processOssecSnortMessage` stores the log and then the alert under the returned identifier. -/
def processOssecSnortMessage (s : Store c) (p : LogParameters) (date : Datetime)
    (identifier : Varchar 60) : Store c :=
  let (logId, s') := saveLog s p
  saveOssecLog s' ⟨logId, date, identifier, p.hash, s.saved.length⟩

structure LogResult extends LogColumns where
  logId : Nat
  host : Option (Varchar 120)
  call : Nat
  deriving DecidableEq

/-- `get_log_by_id`: logs joined with hosts, for one identifier. -/
def getLogById (s : Store c) (logId : Nat) : List LogResult :=
  (s.logs.rows.filter fun l => decide (l.1 = logId)).flatMap fun l =>
    (s.hosts.rows.filter fun h => decide (h.1 = l.2.hostId)).map fun h =>
      { l.2.toLogColumns with logId := l.1, host := h.2.hostname, call := l.2.call }

end statements

/-- The calls that a run of the store consists of, each executed as one step. -/
inductive StoreCall where
  | saveLog (p : LogParameters)
  | saveHost (hostname : Option (Varchar 120)) (ip : Option (Varchar 60))
  | saveUnprocessed
  | processOssecSnortMessage (p : LogParameters) (date : Datetime) (identifier : Varchar 60)

def Store.call {c : Collation} (s : Store c) : StoreCall → Store c
  | .saveLog p => (Database.saveLog s p).2
  | .saveHost hostname ip => Database.saveHost s hostname ip
  | .saveUnprocessed => Database.saveUnprocessed s
  | .processOssecSnortMessage p date identifier =>
    Database.processOssecSnortMessage s p date identifier

/-- The state after a sequence of calls. -/
def Store.calls {c : Collation} (s : Store c) (cs : List StoreCall) : Store c := cs.foldl Store.call s

end Srvlog.Database
