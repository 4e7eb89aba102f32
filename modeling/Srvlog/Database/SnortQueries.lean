import Srvlog.Database.SnortLogs
import Srvlog.Database.StoreProcedures
import Srvlog.Library.OrderedRows

/-! The queries for the alerts of ossec with one hash, and for the snort rows that belong
to one of them. -/
namespace Srvlog.Database
open Library
variable {c : Collation}

/-- The rows that `get_ossec_logs_by_hash` may answer with: it does not say in which order. -/
def OssecLogsByHash (s : Store c) (hash : Varchar 32) (rows : List (Nat × OssecRow)) : Prop :=
  rows.Perm (s.ossecLogs.rows.filter fun l => c.equal l.2.hash (some hash))

/-- The parameters of `get_snort_logs`. -/
structure SnortLogsParameters where
  generatorId : Int
  signatureId : Int
  signatureRevision : Int
  dateFrom : Datetime
  dateTo : Datetime
  deriving DecidableEq

def SnortLogsParameters.selects (p : SnortLogsParameters) (columns : SnortColumns) : Bool :=
  decide ((columns.generatorId : Int) = p.generatorId ∧ (columns.signatureId : Int) = p.signatureId ∧
    (columns.signatureRevision : Int) = p.signatureRevision ∧ p.dateFrom.seconds ≤ columns.date.seconds ∧
      columns.date.seconds ≤ p.dateTo.seconds)

/-- `order by date desc, id desc`. -/
def newestFirst (a b : Nat × SnortRow) : Prop :=
  b.2.date.seconds < a.2.date.seconds ∨ b.2.date.seconds = a.2.date.seconds ∧ b.1 ≤ a.1

instance : DecidableRel newestFirst := fun a b =>
  inferInstanceAs (Decidable (b.2.date.seconds < a.2.date.seconds ∨ b.2.date.seconds = a.2.date.seconds ∧ b.1 ≤ a.1))

instance : Std.Total newestFirst where
  total a b := by
    unfold newestFirst
    omega

instance : IsTrans (Nat × SnortRow) newestFirst where
  trans a b d := by
    unfold newestFirst
    omega

def getSnortLogs (snortLogs : Table SnortRow) (p : SnortLogsParameters) : List (Nat × SnortRow) :=
  firstRows (fun l => p.selects l.2.toSnortColumns) newestFirst 10 snortLogs.rows

/-- The columns of the rows of a table, whatever their identifiers. -/
def snortContents (snortLogs : Table SnortRow) : List SnortColumns := snortLogs.rows.map (·.2.toSnortColumns)

/-- An alert without what the store gives it. -/
def OssecRow.content (row : OssecRow) : OssecRow := { row with logId := 0, call := 0 }

def ossecContents (s : Store c) : List OssecRow := s.ossecLogs.rows.map (·.2.content)

theorem getSnortLogs_perm {snortLogs : Table SnortRow} {p : SnortLogsParameters}
    (h : (snortLogs.rows.filter fun l => p.selects l.2.toSnortColumns).length ≤ 10) :
    (getSnortLogs snortLogs p).Perm (snortLogs.rows.filter fun l => p.selects l.2.toSnortColumns) := firstRows_perm h

/-- Only rows with equal dates can come in another order. -/
theorem getSnortLogs_sameUpToTies {t t' : Table SnortRow} {p : SnortLogsParameters}
    (hcontents : (snortContents t).Perm (snortContents t'))
    (hlimit : (t.rows.filter fun l => p.selects l.2.toSnortColumns).length ≤ 10) :
    SameUpToTies (fun columns : SnortColumns => columns.date) ((getSnortLogs t p).map (·.2.toSnortColumns))
      ((getSnortLogs t' p).map (·.2.toSnortColumns)) := by
  have : Std.Antisymm fun a b : Datetime => b.seconds ≤ a.seconds := by
    refine ⟨fun a b hab hba => ?_⟩
    obtain ⟨seconds, _⟩ := a
    obtain ⟨seconds', _⟩ := b
    obtain rfl : seconds = seconds' := Nat.le_antisymm hba hab
    rfl
  refine firstRows_sameUpToTies (fun l : Nat × SnortRow => l.2.toSnortColumns) (fun columns => columns.date)
    (fun a b => b.seconds ≤ a.seconds) (fun _ => rfl) ?_ hcontents hlimit
  intro x y hxy
  unfold newestFirst at hxy
  omega

end Srvlog.Database
