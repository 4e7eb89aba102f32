import Srvlog.Data.LogData
import Srvlog.Data.SnortLogData
import Srvlog.Library.JavaText
import Srvlog.Library.Transaction

/-! The collector that the adapters hand their records to. -/
namespace Srvlog.Collector
open Library Data

/-- `saveLog` returns the record as it is afterwards, with its identifier. -/
structure ILogCollector (σ : Type) where
  saveLog : LogData → Action σ JavaException LogData
  saveSnortLog : SnortLogData → Action σ JavaException PUnit
  saveOssecLog : OssecLogData → Action σ JavaException PUnit

/-- The calls of a collector that accepts them all. -/
inductive CollectorCall where
  | saveLog (log : LogData)
  | saveSnortLog (snortLog : SnortLogData)
  | saveOssecLog (ossecLog : OssecLogData)
  deriving DecidableEq

/-- The identifiers are the numbers of the calls. -/
def acceptingCollector : ILogCollector (List CollectorCall) where
  saveLog log := fun calls => (.ok { log with id := some calls.length }, calls ++ [.saveLog log])
  saveSnortLog snortLog := fun calls => (.ok ⟨⟩, calls ++ [.saveSnortLog snortLog])
  saveOssecLog ossecLog := fun calls => (.ok ⟨⟩, calls ++ [.saveOssecLog ossecLog])

end Srvlog.Collector
