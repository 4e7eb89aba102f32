import Srvlog.Data.SnortLogData
import Srvlog.Library.GregorianCalendar
import Srvlog.Syslog.SnortMessage

/-! The parser for alerts of the intrusion detection system that ossec passes on. -/
namespace Srvlog.Syslog
open Library Data

section patterns

/-- What the dot of jregex does not take. -/
def isLineEnd (ch : Char) : Bool := decide (ch ∈ ['\r', '\n'])

/-- `[A-Z][a-z]{2} +\d{1,2} \d{1,2}:\d{2}:\d{2}`. -/
def ossecDateRegex : Regex :=
  .seq (.repeated true 1 (some 1) Char.isUpper) (.seq (.repeated true 2 (some 2) Char.isLower)
    (.seq (.repeated true 1 none fun ch => decide (ch = ' ')) (.seq (digitsUpTo 2) (.seq (.literal [' '])
      (.seq (digitsUpTo 2) (.seq (.literal [':']) (.seq (digitsOf 2) (.seq (.literal [':']) (digitsOf 2)))))))))

/-- `.+?`. -/
def someText : Regex := .repeated false 1 none fun ch => !isLineEnd ch

/-- `\[\d+:\d+:\d+\]`. -/
def identifierRegex : Regex :=
  .seq (.literal ['[']) (.seq digits (.seq (.literal [':']) (.seq digits (.seq (.literal [':'])
    (.seq digits (.literal [']']))))))

def MESSAGE_REGEX : Regex :=
  .seq (.group "DATE".toList ossecDateRegex) (.seq someText (.seq (.literal " ossec: Alert Level:".toList)
    (.seq someText (.seq (.alt (.literal "snort".toList) (.literal "suricata".toList)) (.seq (.literal ['['])
      (.seq digits (.seq (.literal "]: ".toList) (.group "IDENTIFIER".toList identifierRegex))))))))

/-- `replaceFirst` with the empty text. -/
def removeFirst (r : Regex) (text : Text) : Text :=
  match r.findIn text with
  | some (skipped, x) => skipped ++ x.rest
  | none => text

/-- The text of an event without the priority `^<\d+>` in front of it. -/
def getRawMessage (raw : Text) : Text :=
  removeFirst (.seq .start (.seq (.literal ['<']) (.seq digits (.literal ['>'])))) raw

def stripOssecDate (rawMessage : Text) : Text :=
  removeFirst (.seq .start (.seq ossecDateRegex (.literal [' ']))) rawMessage

def isSnortMessageFromOssec (rawMessage : Text) : Bool := MESSAGE_REGEX.occursIn rawMessage

end patterns

/-- What the parser takes from the platform: the year of the clock, the instant of a local
time in the default time zone, both in milliseconds, and the hexadecimal digest of a text. -/
structure Platform where
  year : Int
  instantOf : Int → Int
  md5 : Text → Text

structure OssecSnortMessage where
  date : Int
  identifier : Text
  hash : Text
  logDataId : Option Int
  deriving DecidableEq

section parser
variable (platform : Platform)

/-- The names that the format `MMM` reads in English, for texts of three letters. -/
def MONTHS : List Text :=
  ["Jan", "Feb", "Mar", "Apr", "May", "Jun", "Jul", "Aug", "Sep", "Oct", "Nov", "Dec"].map String.toList

/-- `replaceAll(" +", " ")`. -/
def collapseBlanks : Text → Text
  | [] => []
  | [ch] => [ch]
  | ch :: next :: t => if ch = ' ' ∧ next = ' ' then collapseBlanks (next :: t) else ch :: collapseBlanks (next :: t)

/-- The format `yyyy MMM d HH:mm:ss`, on a date of the pattern behind the year of the clock. -/
def parseOssecDate (date : Text) : Except JavaException Int :=
  match MONTHS.findIdx? fun name => decide (name = date.take 3),
    parseNumbers [' ', ':', ':'] ((date.drop 3).dropWhile fun ch => decide (ch = ' ')) with
  | some month, some [day, hour, minute, second] =>
    .ok (platform.instantOf (utcTime platform.year (month + 1) day hour minute second 0))
  | _, _ => .error (.runtimeException ("java.text.ParseException: Unparseable date: \"".toList ++
      (valueOf platform.year ++ ' ' :: collapseBlanks date) ++ "\"".toList))

def createOssecSnortMessage (rawMessage : Text) : Except JavaException OssecSnortMessage :=
  match MESSAGE_REGEX.findIn rawMessage with
  | none => .error (.runtimeException ("Message does not look like message from Ossec with snort alert. ".toList ++
      "Check message with method isSnortMessageFromOssec() first.".toList))
  | some (_, x) => do
    let date ← parseOssecDate platform ((groupOf x "DATE".toList).getD [])
    return ⟨date, (groupOf x "IDENTIFIER".toList).getD [], platform.md5 (stripOssecDate rawMessage), none⟩

end parser

namespace OssecSnortMessage

/-- The message of a stored alert. -/
def ofOssecLogData (ossecLogData : OssecLogData) : OssecSnortMessage :=
  ⟨ossecLogData.date, ossecLogData.identifier, ossecLogData.hash, some ossecLogData.logId⟩

def dateTo (message : OssecSnortMessage) : Int := message.date + 60000

def dateFrom (message : OssecSnortMessage) : Int := message.date - 300000

def toOssecLogData (message : OssecSnortMessage) : Except JavaException OssecLogData :=
  match message.logDataId with
  | none => .error (.runtimeException "You must set saved LogData first".toList)
  | some logId => .ok ⟨logId, message.identifier, message.hash, message.date⟩

end OssecSnortMessage
end Srvlog.Syslog
