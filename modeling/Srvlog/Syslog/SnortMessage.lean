import Srvlog.Library.GregorianCalendar
import Srvlog.Library.Scanner
import Srvlog.Syslog.SnortHeaders

/-! The parser for the messages of the barnyard2 syslog_full output plugin. -/
namespace Srvlog.Syslog
open Library Data

structure SnortMessage where
  sensorName : Option Text
  date : Int
  priority : Int
  classification : Text
  alertCause : Text
  signature : SnortSignature
  ipHeader : Option IpHeader
  protocolHeader : Option ProtocolHeader
  httpHeader : Option HttpHeader
  payload : Text
  deriving DecidableEq

def isMessageFromSnort (rawMessage : Text) : Bool := contains rawMessage "SNORTIDS[LOG]:".toList

/-- So many digits, as in `\d{4}`. -/
def digitsOf (count : Nat) : Regex := .repeated true count (some count) Char.isDigit

/-- `(?<=\[SNORTIDS\[LOG\]: \[).*?(?=\] \] \|\|)`. -/
def sensorNameRegex : Regex :=
  .seq (.precededBy "[SNORTIDS[LOG]: [".toList)
    (.seq (.repeated false 0 none fun ch => !isLineSeparator ch) (.followedBy "] ] ||".toList))

/-- `\d{4}-\d{2}-\d{2} \d{2}:\d{2}:\d{2}.\d{3}`. -/
def dateRegex : Regex :=
  .seq (digitsOf 4) (.seq (.literal ['-']) (.seq (digitsOf 2) (.seq (.literal ['-']) (.seq (digitsOf 2)
    (.seq (.literal [' ']) (.seq (digitsOf 2) (.seq (.literal [':']) (.seq (digitsOf 2) (.seq (.literal [':'])
      (.seq (digitsOf 2) (.seq (.repeated true 1 (some 1) fun ch => !isLineSeparator ch) (digitsOf 3))))))))))))

def payloadRegex : Regex := .repeated true 1 none fun ch => decide (ch ∈ "0123456789ABCDEF".toList)

/-- The format `yyyy-MM-dd HH:mm:ss.S` in UTC, on texts that match `dateRegex`. -/
def parseDate (date : Option Text) : Except JavaException Int :=
  match date with
  | none => .error .nullPointerException
  | some t => match parseNumbers ['-', '-', ' ', ':', ':', '.'] t with
    | some [year, month, day, hour, minute, second, milli] => .ok (utcTime year month day hour minute second milli)
    | _ => .error (.runtimeException ("java.text.ParseException: Unparseable date: \"".toList ++ t ++ "\"".toList))

/-- The loop of `decodePayload` over the pairs of digits. -/
def decodePairs : Text → Except JavaException Text
  | high :: low :: rest => do
    let code ← parseInt 16 (some [high, low])
    let decoded ← decodePairs rest
    return Char.ofNat code.toNat :: decoded
  | _ => .ok []

def decodePayload (payloadInHex : Option Text) : Except JavaException Text :=
  match payloadInHex with
  | none => .error .nullPointerException
  | some t => if t.length % 2 ≠ 0 then .error (.runtimeException ("Wrong length: ".toList ++ valueOf t.length))
    else decodePairs t

/-- The IP header is searched in the whole message, the header of its protocol is the next
section that the scanner has not read. -/
def readHeaders (rawSnortMessage : Text) (scanner : Scanner) :
    Except JavaException (Option IpHeader × Option ProtocolHeader × Scanner) :=
  if isContainsIpHeader rawSnortMessage then do
    let ipHeader ← createIpHeader rawSnortMessage
    let (_, scanner) ← scanner.next "||".toList
    if ipHeader.protocolNumber = TCP then
      let (section', scanner) ← scanner.next "||".toList
      let protocolHeader ← parseTcpHeader section'
      return (some ipHeader, some protocolHeader, scanner)
    else if ipHeader.protocolNumber = UDP then
      let (section', scanner) ← scanner.next "||".toList
      let protocolHeader ← parseUdpHeader section'
      return (some ipHeader, some protocolHeader, scanner)
    else if ipHeader.protocolNumber = ICMP then
      let (_, scanner) ← scanner.next "||".toList
      return (some ipHeader, none, scanner)
    else return (some ipHeader, none, scanner)
  else .ok (none, none, scanner)

def createSnortMessage (rawSnortMessage : Text) : Except JavaException SnortMessage :=
  if isMessageFromSnort rawSnortMessage then do
    let (sensorName, scanner) := Scanner.findInLine sensorNameRegex ⟨[], rawSnortMessage⟩
    let (dateText, scanner) := scanner.findInLine dateRegex
    let date ← parseDate dateText
    let (priorityText, scanner) := scanner.findInLine (digitsUpTo 2)
    let priority ← parseInt 10 priorityText
    let (classification, scanner) ← scanner.next "||".toList
    let (alertCause, scanner) ← scanner.next "||".toList
    let signature ← createSnortSignature (trim classification)
    let (ipHeader, protocolHeader, scanner) ← readHeaders rawSnortMessage scanner
    let (_, scanner) := scanner.findInLine digits
    let (payloadInHex, _) := scanner.findInLine payloadRegex
    let payload ← decodePayload payloadInHex
    let httpHeader ← if (ipHeader.map (·.protocolNumber)) = some TCP ∧ isContainsHttpHeader payload then
        (createHttpHeader payload).map some
      else .ok none
    return {
      sensorName, date, priority, classification := trim classification, alertCause := trim alertCause
      signature, ipHeader, protocolHeader, httpHeader, payload }
  else .error (.runtimeException ("Message does not look like message from Snort. ".toList ++
    "Check message with method isMessageFromSnort() first.".toList))

def SnortMessage.toSnortLogData (message : SnortMessage) : SnortLogData :=
  let data := message.signature.fillSnortLogData {
    program := some "snort".toList
    sensorName := message.sensorName
    date := some message.date
    priority := message.priority
    classification := some message.classification
    alertCause := some message.alertCause
    payload := some message.payload }
  let data := message.ipHeader.elim data fun header => header.fillSnortLogData data
  let data := message.protocolHeader.elim data fun header => header.fillSnortLogData data
  message.httpHeader.elim data fun header => header.fillSnortLogData data

/-- Every part fills fields of its own, which are null or zero without the part. -/
theorem SnortMessage.toSnortLogData_eq (message : SnortMessage) : message.toSnortLogData = {
    program := some "snort".toList
    sensorName := message.sensorName
    date := some message.date
    priority := message.priority
    classification := some message.classification
    alertCause := some message.alertCause
    generatorId := message.signature.generatorId
    signatureId := message.signature.signatureId
    signatureRevision := message.signature.signatureRevision
    payload := some message.payload
    protocolNumber := message.ipHeader.elim 0 (·.protocolNumber)
    protocolAlias := message.ipHeader.map (·.protocolAlias)
    protocolVersion := message.ipHeader.elim 0 (·.protocolVersion)
    sourceIp := message.ipHeader.bind (·.sourceIp)
    destinationIp := message.ipHeader.bind (·.destinationIp)
    headerLength := message.ipHeader.elim 0 (·.headerLength)
    serviceType := message.ipHeader.elim 0 (·.serviceType)
    datagramLength := message.ipHeader.elim 0 (·.datagramLength)
    identification := message.ipHeader.elim 0 (·.identification)
    flags := message.ipHeader.elim 0 (·.flags)
    fragmentOffset := message.ipHeader.elim 0 (·.fragmentOffset)
    timeToLive := message.ipHeader.elim 0 (·.timeToLive)
    checksum := message.ipHeader.elim 0 (·.checksum)
    sourcePort := message.protocolHeader.elim 0 (·.sourcePort)
    destinationPort := message.protocolHeader.elim 0 (·.destinationPort)
    host := message.httpHeader.bind (·.host)
    xForwardedFor := message.httpHeader.bind (·.xForwardedFor)
    xRealIp := message.httpHeader.bind (·.xRealIp) } := by
  unfold SnortMessage.toSnortLogData
  cases message.ipHeader <;> cases message.protocolHeader <;> cases message.httpHeader <;> rfl

end Srvlog.Syslog
