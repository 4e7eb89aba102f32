import Srvlog.Database.StoreLedger
import Srvlog.Library.Runs
import Srvlog.Library.TableCopies

/-! The two indexes of the search and the runs of the indexer that build them from the logs:
the main index up to a counter that the run puts into the database, the delta index behind it. -/
namespace Srvlog.Search
open Library Database

/-- What the indexes have of a log. -/
structure Document where
  docId : Nat
  message : Option SqlText
  program : Option (Varchar 60)
  logDate : UInt32
  facility : UInt32
  severity : UInt32
  hostId : UInt32
  deriving DecidableEq

/-- Null is stored as zero. -/
def attrUint (value : Option Int) : UInt32 := value.elim 0 UInt32.ofInt

/-- The run of the indexer over the source srvlog_logs_main. -/
inductive MainRun where
  | idle
  | counted
  | collected (docs : List Document)

/-- The run over srvlog_logs_delta. The marks are those of its query. -/
inductive DeltaRun where
  | idle
  | collected (docs : List Document) (first last : Nat)

/-- The database, the indexes that the daemon serves, and the runs that build new ones. `maxDocId`
is the row of sph_counter. The last four fields are auxiliary variables, values of the counter
of logs: at the replacement of `maxDocId`, at the one that the main index in place was built
after, at the one before the query of the delta index in place, and at this query. -/
structure SearchIndexes (c : Collation) where
  store : Store c
  maxDocId : Option Nat
  mainRun : MainRun
  deltaRun : DeltaRun
  main : List Document
  delta : List Document
  counted : Nat
  mainMark : Nat
  deltaFirst : Nat
  deltaLast : Nat

inductive IndexAction where
  | call (a : StoreCall)
  | dropPartitions (dropped : Nat → Bool)
  | mainPre
  | mainQuery
  | mainRotate
  | mainFail
  | deltaQuery
  | deltaRotate
  | deltaFail

namespace SearchIndexes
variable {c : Collation}

def initial : SearchIndexes c where
  store := .empty
  maxDocId := none
  mainRun := .idle
  deltaRun := .idle
  main := []
  delta := []
  counted := 0
  mainMark := 0
  deltaFirst := 0
  deltaLast := 0

/-- A server in strict mode refuses null for the counter, another one stores zero. -/
def replaceCounter (strict : Bool) (s : SearchIndexes c) : SearchIndexes c :=
  match (s.store.logs.rows.map Prod.fst).max? with
  | some maxLogId => { s with maxDocId := some maxLogId, counted := s.store.logs.autoIncrement, mainRun := .counted }
  | none => if strict then s else
    { s with maxDocId := some 0, counted := s.store.logs.autoIncrement, mainRun := .counted }

section runs
variable (strict : Bool) (unixTimestamp : Datetime → Nat)

def document (l : Nat × LogRow) : Document where
  docId := l.1
  message := l.2.message
  program := l.2.program
  logDate := .ofNat (unixTimestamp l.2.logDate)
  facility := attrUint l.2.facility
  severity := attrUint l.2.severity
  hostId := .ofNat l.2.hostId

/-- `log_id <= (select max_doc_id ...)`, which selects nothing without a row of the counter. -/
def mainDocuments (s : SearchIndexes c) : List Document :=
  (s.store.logs.rows.filter fun l => s.maxDocId.any fun maxDocId => decide (l.1 ≤ maxDocId)).map (document unixTimestamp)

def deltaDocuments (s : SearchIndexes c) : List Document :=
  (s.store.logs.rows.filter fun l => s.maxDocId.any fun maxDocId => decide (maxDocId < l.1)).map (document unixTimestamp)

/-- One statement of the application, of the partitions' maintenance or of a run of the
indexer. A run can fail at any point; only one run at a time builds an index. -/
def step (s : SearchIndexes c) : IndexAction → Option (SearchIndexes c)
  | .call a => some { s with store := s.store.call a }
  | .dropPartitions dropped => some { s with store := { s.store with
      logs := s.store.logs.deleteWhere fun l => dropped l.2.logsPartitionKey } }
  | .mainPre => match s.mainRun with
    | .idle => some (replaceCounter strict s)
    | _ => none
  | .mainQuery => match s.mainRun with
    | .counted => some { s with mainRun := .collected (mainDocuments unixTimestamp s) }
    | _ => none
  | .mainRotate => match s.mainRun with
    | .collected docs => some { s with mainRun := .idle, main := docs, mainMark := s.counted }
    | _ => none
  | .mainFail => match s.mainRun with
    | .idle => none
    | _ => some { s with mainRun := .idle }
  | .deltaQuery => match s.deltaRun with
    | .idle =>
      let first := if s.maxDocId.isSome then s.counted else s.store.logs.autoIncrement
      some { s with deltaRun := .collected (deltaDocuments unixTimestamp s) first s.store.logs.autoIncrement }
    | _ => none
  | .deltaRotate => match s.deltaRun with
    | .collected docs first last => some { s with deltaRun := .idle, delta := docs, deltaFirst := first, deltaLast := last }
    | _ => none
  | .deltaFail => match s.deltaRun with
    | .collected _ _ _ => some { s with deltaRun := .idle }
    | .idle => none

end runs

/-- What a search over both indexes looks through. Of two documents with the same identifier it
takes the one of the index that is named last, the delta. -/
def served (s : SearchIndexes c) : List Document :=
  (s.main.filter fun d => decide (d.docId ∉ s.delta.map (·.docId))) ++ s.delta

/-- The counter is still the one that the main index in place was built with. -/
def CounterOfMain (s : SearchIndexes c) : Prop := s.maxDocId.isSome = true ∧ s.mainMark = s.counted

/-- The delta is queried under the counter of the main index only. -/
def Orderly (s : SearchIndexes c) : IndexAction → Prop
  | .deltaQuery => s.CounterOfMain
  | _ => True

instance Orderly.decidable : ∀ (s : SearchIndexes c) (a : IndexAction), Decidable (s.Orderly a)
  | s, .deltaQuery => inferInstanceAs (Decidable (s.maxDocId.isSome = true ∧ s.mainMark = s.counted))
  | _, .call _ | _, .dropPartitions _ | _, .mainPre | _, .mainQuery | _, .mainRotate | _, .mainFail | _, .deltaRotate
  | _, .deltaFail => isTrue trivial

end SearchIndexes
end Srvlog.Search
