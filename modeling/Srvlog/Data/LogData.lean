import Srvlog.Library.Text

/-! The log record that all parts of the program pass around. -/
namespace Srvlog.Data
open Library

/-- Every field may be null. Dates count milliseconds from the epoch. -/
structure LogData where
  date : Option Int
  host : Option Text
  facility : Option Int
  severity : Option Int
  message : Option Text
  id : Option Int
  program : Option Text
  hash : Option Text
  deriving DecidableEq

end Srvlog.Data
