import Srvlog.Collector.TruncationUtil
import Srvlog.Data.LogData
import Srvlog.Library.JavaText

/-! What the collector makes of a log before it hands it on. -/
namespace Srvlog.Collector
open Library Data

def MESSAGE_MAX_BYTES : Nat := 65535

-- `LogData.toString`, which prints the date in the local time zone
variable (toString : LogData → Text)

/-- The log that `saveLog` hands to the broadcasting service and to the database at the
given time. Without a host it throws. -/
def acceptedLog (now : Int) (logData : LogData) : Except JavaException LogData :=
  let logData := { logData with date := some (logData.date.getD now) }
  if logData.host = none then .error (.runtimeException ("Cannot save logData without host: ".toList ++ toString logData))
  else .ok { logData with message := truncateString MESSAGE_MAX_BYTES logData.message }

theorem acceptedLog_eq_ok_iff {now : Int} {logData accepted : LogData} : acceptedLog toString now logData = .ok accepted ↔
    logData.host ≠ none ∧ accepted = { logData with
      date := some (logData.date.getD now)
      message := truncateString MESSAGE_MAX_BYTES logData.message } := by
  unfold acceptedLog
  dsimp only
  split
  · next hnone =>
    constructor
    · intro h
      cases h
    · exact fun h => absurd hnone h.1
  · next hhost =>
    constructor
    · intro h
      exact ⟨hhost, (Except.ok.inj h).symm⟩
    · rintro ⟨-, rfl⟩
      rfl

end Srvlog.Collector
