import Srvlog.Collector.LogCollector
import Srvlog.Library.Base64

/-! The manager for the JSON events of suricata. -/
namespace Srvlog.Syslog
open Library Data Collector

section json

/-- A tree of Jackson. The other scalars keep the text that `asText` gives. -/
inductive JsonNode where
  | object (fields : List (Text × JsonNode))
  | array (elements : List JsonNode)
  | text (value : Text)
  | scalar (literal : Text)

namespace JsonNode

def get (aRoot : JsonNode) (aName : Text) : Option JsonNode :=
  match aRoot with
  | object fields => fields.lookup aName
  | _ => none

def set (aRoot : JsonNode) (aName : Text) (value : JsonNode) : JsonNode :=
  match aRoot with
  | object fields => object (fields.map fun field => if field.1 = aName then (aName, value) else field)
  | node => node

def asText : JsonNode → Text
  | text value => value
  | scalar literal => literal
  | object _ | array _ => []

end JsonNode

structure SuricataAlert where
  category : Option Text := none
  severity : Int := 0
  signature : Option Text := none
  gid : Int := 0
  signatureId : Int := 0
  rev : Int := 0

structure SuricataHttp where
  hostname : Option Text := none

structure SuricataJsonMessage where
  timestamp : Option Int
  in_iface : Option Text
  src_ip : Option Text
  src_port : Int
  dest_ip : Option Text
  dest_port : Int
  proto : Option Text
  alert : Option SuricataAlert
  http : Option SuricataHttp

/-- The mapper of Jackson and the hex dump of netty. Reading and writing may throw an
`IOException`, converting an `IllegalArgumentException`. -/
structure SuricataMapper where
  readTree : Text → Except JavaException JsonNode
  convertValue : JsonNode → Except JavaException SuricataJsonMessage
  writeValueAsString : JsonNode → Except JavaException Text
  prettyHexDump : List UInt8 → Text

end json

section manager
variable (mapper : SuricataMapper)

def isMessageFromSurricata (aRawMessage : Text) : Bool :=
  contains aRawMessage "suricata".toList && contains aRawMessage ['{'] && contains aRawMessage "flow_id".toList

def utf8Text (bytes : List UInt8) : Option Text := (ByteArray.mk bytes.toArray).utf8Decode?.map Array.toList

def replaceNode (aRoot : JsonNode) (aName : Text) : Except JavaException JsonNode :=
  match aRoot.get aName with
  | none => .ok aRoot
  | some payloadNode =>
    let base64 := payloadNode.asText
    if base64 = [] then .ok aRoot
    else match decodeBase64 base64 with
      | none => .error (.runtimeException "Illegal base64".toList)
      | some bytes => .ok (aRoot.set aName (.text ((utf8Text bytes).getD (mapper.prettyHexDump bytes))))

def replaceBase64ToUtf8 (aRoot : JsonNode) : Except JavaException JsonNode := do
  let aRoot ← replaceNode mapper aRoot "payload".toList
  let aRoot ← replaceNode mapper aRoot "packet".toList
  match aRoot.get "http".toList with
  | none => return aRoot
  | some httpNode => return aRoot.set "http".toList (← replaceNode mapper httpNode "http_response_body".toList)

/-- A date that is null cannot be copied. -/
def convertToSnort (aJson : Text) (aEvent : SuricataJsonMessage) : Except JavaException SnortLogData :=
  let alert := aEvent.alert.getD {}
  let http := aEvent.http.getD {}
  match aEvent.timestamp with
  | none => .error .nullPointerException
  | some timestamp => .ok {
      program := some "suricata".toList
      sensorName := aEvent.in_iface
      date := some timestamp
      priority := alert.severity
      classification := alert.signature
      alertCause := alert.category
      payload := some aJson
      generatorId := alert.gid
      signatureId := alert.signatureId
      signatureRevision := alert.rev
      protocolAlias := aEvent.proto
      sourceIp := aEvent.src_ip
      destinationIp := aEvent.dest_ip
      sourcePort := aEvent.src_port
      destinationPort := aEvent.dest_port
      host := http.hostname }

def extractJson (aRawMessage : Text) : Except JavaException Text :=
  if '{' ∈ aRawMessage then .ok (aRawMessage.dropWhile fun ch => decide (ch ≠ '{'))
  else .error (.runtimeException ("Cannot find char '\x7b' in the message ".toList ++ aRawMessage))

def createSnortLogData (aRawMessage : Text) : Except JavaException SnortLogData := do
  let jsonText ← extractJson aRawMessage
  let jsonRoot ← mapper.readTree jsonText
  let surricataMessage ← mapper.convertValue jsonRoot
  let jsonRoot ← replaceBase64ToUtf8 mapper jsonRoot
  let payloadJson ← mapper.writeValueAsString jsonRoot
  convertToSnort (replace ['\\', 'r'] [] (replace ['\\', 'n'] ['\n'] payloadJson)) surricataMessage

/-- An `IOException` is only written to the log. -/
def processRawMessage {σ : Type} (collector : ILogCollector σ) (aRawMessage : Text) : Action σ JavaException PUnit :=
  match createSnortLogData mapper aRawMessage with
  | .ok snortLogData => collector.saveSnortLog snortLogData
  | .error .ioException => return
  | .error e => throw e

end manager
end Srvlog.Syslog
