import Srvlog.Database.SnortLogs
import Srvlog.Library.AutoIncrementTable
import Srvlog.Library.Runs
import Srvlog.Library.UniqueIndexes
import Mathlib.Data.List.Dedup

/-! The migration that copies snort_logs into a partitioned table while the application
goes on writing, statement by statement. Triggers record the rows that are written
meanwhile, and a last insert copies these. -/
namespace Srvlog.Database
open Library

section tables

/-- The indexes that the new table is created with. -/
def snortLogsNewIndexes : List (IndexOn (Nat × SnortRow)) := [
  ⟨"pk_id".toList, false, fun a b => decide (a.1 = b.1)⟩,
  ⟨"idx_snort_logs_date".toList, false, fun a b => decide (a.2.date = b.2.date)⟩,
  ⟨"idx_snort_logs_generator_id".toList, false, fun a b => decide (a.2.generatorId = b.2.generatorId)⟩,
  ⟨"idx_snort_logs_signature_id".toList, false, fun a b => decide (a.2.signatureId = b.2.signatureId)⟩]

/-- The bounds of its partitions. -/
def snortLogsNewPartitions : List Nat :=
  [201502, 201503, 201504, 201505, 201506, 201507, 201508, 201509, 201510, 201511, 201512]

def hasPartition (row : Nat × SnortRow) : Bool :=
  snortLogsNewPartitions.any fun bound => decide (row.2.snortLogsPartitionKey < bound)

/-- The columns of a select from snort_logs. -/
def newRow (row : Nat × SnortColumns) : Nat × SnortRow :=
  (row.1, { row.2 with snortLogsPartitionKey := row.2.date.dateFormatYm })

end tables

/-- The arguments of `mi_copy_table_data`. -/
def maxId : Nat := 40000000
def copyCount : Nat := 1000000

structure Migration where
  snortLogs : Table SnortColumns
  trgSnortLogsAi : Bool
  trgSnortLogsAu : Bool
  identifiers : List Nat
  currentId : Nat
  snortLogsNew : List (Nat × SnortRow)

/-- The first two are writes of the application. -/
inductive MigrationStep where
  | insert (row : SnortColumns)
  | update (id : Nat) (row : SnortColumns)
  | createTriggerAi
  | createTriggerAu
  | copyNext

namespace Migration

/-- Before the migration: rows with the identifiers that it expects, and nothing copied. -/
structure Initial (s : Migration) : Prop where
  ids : ∀ p ∈ s.snortLogs.rows, 1 ≤ p.1 ∧ p.1 ≤ maxId
  counter : 1 ≤ s.snortLogs.autoIncrement
  trgSnortLogsAi : s.trgSnortLogsAi = false
  trgSnortLogsAu : s.trgSnortLogsAu = false
  identifiers : s.identifiers = []
  currentId : s.currentId = 1
  snortLogsNew : s.snortLogsNew = []

def ids (s : Migration) : List Nat := s.snortLogs.rows.map Prod.fst

/-- The insert and the trigger on it. -/
def insert (s : Migration) (row : SnortColumns) : Migration :=
  { s with
    snortLogs := s.snortLogs.insert row
    identifiers := if s.trgSnortLogsAi then s.identifiers ++ [s.snortLogs.autoIncrement] else s.identifiers }

/-- The update of one row and the trigger on it. Without such a row nothing happens. -/
def update (s : Migration) (id : Nat) (row : SnortColumns) : Migration :=
  { s with
    snortLogs := s.snortLogs.modify fun key old => if key = id then row else old
    identifiers := if s.trgSnortLogsAu ∧ id ∈ s.ids then s.identifiers ++ [id] else s.identifiers }

/-- The rows of the next range of identifiers. -/
def nextRows (s : Migration) : List (Nat × SnortRow) :=
  (s.snortLogs.rows.filter fun p => decide (s.currentId ≤ p.1 ∧ p.1 < s.currentId + copyCount)).map newRow

/-- The insert in the loop; rows without a partition make it fail. -/
def copyNext (s : Migration) : Option Migration :=
  if s.nextRows.all hasPartition then
    (insertSelect snortLogsNewIndexes s.snortLogsNew s.nextRows).map fun snortLogsNew =>
      { s with currentId := s.currentId + copyCount, snortLogsNew := snortLogsNew }
  else none

/-- The rows of the last select, which joins snort_logs with the recorded identifiers. -/
def recordedRows (s : Migration) : List (Nat × SnortRow) :=
  (s.snortLogs.rows.flatMap fun p =>
    (s.identifiers.filter fun id => decide (id = p.1)).map fun _ => newRow p).dedup

/-- The new table after the last insert, which comes when the loop has ended. -/
def insertRecorded (s : Migration) : Option (List (Nat × SnortRow)) :=
  if s.trgSnortLogsAu ∧ maxId ≤ s.currentId ∧ s.recordedRows.all hasPartition then
    some (s.recordedRows.foldl (insertOrUpdate snortLogsNewIndexes) s.snortLogsNew)
  else none

end Migration

/-- The statements of the migration come in the order of the script. -/
def migrationStep (s : Migration) : MigrationStep → Option Migration
  | .insert row => some (s.insert row)
  | .update id row => some (s.update id row)
  | .createTriggerAi => if s.trgSnortLogsAi then none else some { s with trgSnortLogsAi := true }
  | .createTriggerAu =>
    if s.trgSnortLogsAi ∧ ¬ s.trgSnortLogsAu then some { s with trgSnortLogsAu := true } else none
  | .copyNext => if s.trgSnortLogsAu ∧ s.currentId < maxId then s.copyNext else none

end Srvlog.Database
