import Srvlog.Broadcasting.LogBroadcastingService
import Srvlog.Collector.SimpleLogCollector
import Srvlog.Library.Decimal
import Srvlog.Library.Regex
import Srvlog.Library.Transaction

/-! The terminal page: what its handler prints for the messages of the web socket. -/
namespace Srvlog.Web
open Library Data Broadcasting Collector

def isLineBreak (ch : Char) : Bool := decide (ch ∈ ['\r', '\n'])

section script

/-- Reading a member of null. -/
inductive TypeError where
  | null
  deriving DecidableEq

/-- The lines printed so far are not taken back. -/
abbrev Terminal := Action (List Text) TypeError

def println (line : Text) : Terminal PUnit := fun printed => (.ok ⟨⟩, printed ++ [line])

/-- The local form of a date, which has no line breaks. -/
structure LocalTime where
  toLocaleString : Int → Text
  single_line : ∀ date, ∀ ch ∈ toLocaleString date, isLineBreak ch = false

/-- `getMilliseconds` as text. Outside of the range of dates it is not a number. -/
def milliseconds (logDate : Int) : Text :=
  if logDate.natAbs ≤ 8640000000000000 then decimal (logDate % 1000).toNat else "NaN".toList

/-- A string operand of `+`. -/
def stringOf (t : Option Text) : Text := t.getD "null".toList

/-- `/\r?\n|\r|\n/`. -/
def lineBreakRegex : Regex :=
  .alt (.seq (.repeated true 0 (some 1) fun ch => decide (ch = '\r')) (.literal ['\n']))
    (.alt (.literal ['\r']) (.literal ['\n']))

def isMultilineMessage : Option Text → Terminal Bool
  | none => throw .null
  | some text => return decide ('\n' ∈ text)

variable (localTime : LocalTime)

/-- The text in front of the message; the date is null only when the log has none. -/
def header (item : LogData) : Text :=
  let logDate := item.date.getD 0
  localTime.toLocaleString logDate ++ ' ' :: (milliseconds logDate ++ "ms [".toList ++ stringOf item.host ++
    "] [".toList ++ stringOf item.program ++ "] ".toList)

def printLines (item : LogData) : List Text → Terminal PUnit
  | [] => return
  | line :: lines => do
    println (header localTime item ++ line)
    lines.forM println

def printMultilineMessage (item : LogData) : Terminal PUnit :=
  match item.message with
  | none => throw .null
  | some message => printLines localTime item (lineBreakRegex.split message)

def printItem (item : LogData) : Terminal PUnit := do
  if ← isMultilineMessage item.message then printMultilineMessage localTime item
  else println (header localTime item ++ stringOf item.message)

def onmessage (response : LogBroadcastingResponse) : Terminal PUnit :=
  if response.success then response.logDataList.forM (printItem localTime)
  else println ("WEBSOCKET: Log subscription error message: [".toList ++ stringOf response.errorMessage ++ "]".toList)

end script
end Srvlog.Web
