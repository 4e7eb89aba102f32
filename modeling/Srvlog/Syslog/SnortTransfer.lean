import Srvlog.Syslog.SnortRoundTrip

/-! Messages made of transfer objects. A transfer object has no parts: its fields tell which
of them the message had. -/
namespace Srvlog.Data.SnortLogData
open Library Syslog

def getDate (data : SnortLogData) : Except JavaException Int :=
  data.date.elim (.error .nullPointerException) .ok

def createSnortSignature (data : SnortLogData) : SnortSignature :=
  ⟨data.generatorId, data.signatureId, data.signatureRevision⟩

def isContainsIpHeader (data : SnortLogData) : Bool := !isEmpty data.protocolAlias

/-- The alias is not null behind the check. -/
def createIpHeader (data : SnortLogData) : Except JavaException IpHeader :=
  if data.isContainsIpHeader then .ok {
    protocolNumber := data.protocolNumber
    protocolAlias := data.protocolAlias.getD []
    sourceIp := data.sourceIp
    destinationIp := data.destinationIp
    protocolVersion := data.protocolVersion
    headerLength := data.headerLength
    serviceType := data.serviceType
    datagramLength := data.datagramLength
    identification := data.identification
    flags := data.flags
    fragmentOffset := data.fragmentOffset
    timeToLive := data.timeToLive
    checksum := data.checksum }
  else .error (.runtimeException ("Snort message does not contains ip header. ".toList ++
    "Check message with method isContainsIPHeader() first".toList))

def createProtocolHeader (data : SnortLogData) : ProtocolHeader := ⟨data.sourcePort, data.destinationPort⟩

def isContainsHttpHeader (data : SnortLogData) : Bool :=
  !isEmpty data.host || !isEmpty data.xForwardedFor || !isEmpty data.xRealIp

def createHttpHeader (data : SnortLogData) : HttpHeader := ⟨data.host, data.xForwardedFor, data.xRealIp⟩

def getSignature (data : SnortLogData) : SnortSignature := data.createSnortSignature
def getIpHeader (data : SnortLogData) : Except JavaException IpHeader := data.createIpHeader
def getProtocolHeader (data : SnortLogData) : ProtocolHeader := data.createProtocolHeader
def getHttpHeader (data : SnortLogData) : HttpHeader := data.createHttpHeader

end Srvlog.Data.SnortLogData

namespace Srvlog.Syslog
open Library Data

/-- Unlike those of a message from the text, its texts may be null. -/
structure TransferredSnortMessage where
  sensorName : Option Text
  date : Int
  priority : Int
  classification : Option Text
  alertCause : Option Text
  signature : SnortSignature
  ipHeader : Option IpHeader
  protocolHeader : Option ProtocolHeader
  httpHeader : Option HttpHeader
  payload : Option Text
  deriving DecidableEq

/-- `createSnortMessage` of a transfer object. -/
def createTransferredSnortMessage (snortLogData : SnortLogData) : Except JavaException TransferredSnortMessage := do
  let date ← snortLogData.getDate
  let ipHeader ← (if snortLogData.isContainsIpHeader then snortLogData.getIpHeader.map some else .ok none)
  let protocolHeader := ipHeader.bind fun header =>
    if header.protocolNumber = TCP ∨ header.protocolNumber = UDP then some snortLogData.getProtocolHeader else none
  return {
    sensorName := snortLogData.sensorName
    date, priority := snortLogData.priority
    classification := snortLogData.classification
    alertCause := snortLogData.alertCause
    signature := snortLogData.getSignature
    ipHeader, protocolHeader, payload := snortLogData.payload
    httpHeader := if snortLogData.isContainsHttpHeader then some snortLogData.getHttpHeader else none }

def TransferredSnortMessage.toSnortLogData (message : TransferredSnortMessage) : SnortLogData :=
  let data := message.signature.fillSnortLogData {
    program := some "snort".toList
    sensorName := message.sensorName
    date := some message.date
    priority := message.priority
    classification := message.classification
    alertCause := message.alertCause
    payload := message.payload }
  let data := message.ipHeader.elim data fun header => header.fillSnortLogData data
  let data := message.protocolHeader.elim data fun header => header.fillSnortLogData data
  message.httpHeader.elim data fun header => header.fillSnortLogData data

namespace SnortMessage

/-- The same object, with texts that could be null. -/
def toTransferred (message : SnortMessage) : TransferredSnortMessage where
  sensorName := message.sensorName
  date := message.date
  priority := message.priority
  classification := some message.classification
  alertCause := some message.alertCause
  signature := message.signature
  ipHeader := message.ipHeader
  protocolHeader := message.protocolHeader
  httpHeader := message.httpHeader
  payload := some message.payload

/-- The parts that the fields of a transfer object can tell: an IP header has an alias, and
there are ports where the number of its protocol says so. -/
structure Recoverable (message : SnortMessage) : Prop where
  protocolAlias : ∀ header ∈ message.ipHeader, header.protocolAlias ≠ []
  protocolHeader : message.protocolHeader.isSome ↔
    ∃ header ∈ message.ipHeader, header.protocolNumber = TCP ∨ header.protocolNumber = UDP

end SnortMessage

section parser

/-- The switch reads ports for TCP and UDP, and no other branch does. -/
theorem readHeaders_cases {rawSnortMessage : Text} {scanner after : Scanner} {ipHeader : Option IpHeader}
    {protocolHeader : Option ProtocolHeader}
    (h : readHeaders rawSnortMessage scanner = .ok (ipHeader, protocolHeader, after)) :
    (ipHeader = none ∧ protocolHeader = none) ∨ ∃ header, createIpHeader rawSnortMessage = .ok header ∧
      ipHeader = some header ∧
        (protocolHeader.isSome ↔ header.protocolNumber = TCP ∨ header.protocolNumber = UDP) := by
  unfold readHeaders at h
  split at h
  · obtain ⟨header, hheader, h⟩ := exists_of_bind_eq_ok h
    obtain ⟨_, -, h⟩ := exists_of_bind_eq_ok h
    refine .inr ⟨header, hheader, ?_⟩
    dsimp only at h
    split at h
    · next htcp =>
      obtain ⟨_, -, h⟩ := exists_of_bind_eq_ok h
      obtain ⟨ports, -, h⟩ := exists_of_bind_eq_ok h
      cases h
      exact ⟨rfl, iff_of_true rfl (.inl htcp)⟩
    split at h
    · next hudp =>
      obtain ⟨_, -, h⟩ := exists_of_bind_eq_ok h
      obtain ⟨ports, -, h⟩ := exists_of_bind_eq_ok h
      cases h
      exact ⟨rfl, iff_of_true rfl (.inr hudp)⟩
    next htcp hudp =>
    have hnone : ipHeader = some header ∧ protocolHeader = none := by
      split at h
      · obtain ⟨_, -, h⟩ := exists_of_bind_eq_ok h
        cases h
        exact ⟨rfl, rfl⟩
      · cases h
        exact ⟨rfl, rfl⟩
    obtain ⟨rfl, rfl⟩ := hnone
    exact ⟨rfl, iff_of_false Bool.false_ne_true (not_or.mpr ⟨htcp, hudp⟩)⟩
  · cases h
    exact .inl ⟨rfl, rfl⟩

/-- The headers of a message are the ones that the parser reads behind the cause. -/
theorem readHeaders_of_createSnortMessage {rawSnortMessage : Text} {message : SnortMessage}
    (h : createSnortMessage rawSnortMessage = .ok message) : ∃ scanner after,
      readHeaders rawSnortMessage scanner = .ok (message.ipHeader, message.protocolHeader, after) := by
  unfold createSnortMessage at h
  split at h
  · obtain ⟨_, -, h⟩ := exists_of_bind_eq_ok h
    obtain ⟨_, -, h⟩ := exists_of_bind_eq_ok h
    obtain ⟨_, -, h⟩ := exists_of_bind_eq_ok h
    obtain ⟨⟨_, scanner⟩, -, h⟩ := exists_of_bind_eq_ok h
    obtain ⟨_, -, h⟩ := exists_of_bind_eq_ok h
    obtain ⟨⟨ipHeader, protocolHeader, after⟩, hheaders, h⟩ := exists_of_bind_eq_ok h
    obtain ⟨_, -, h⟩ := exists_of_bind_eq_ok h
    refine ⟨scanner, after, hheaders.trans ?_⟩
    -- Both branches of the HTTP header build the same message around it.
    dsimp only at h
    split at h
    all_goals
      obtain ⟨_, -, h⟩ := exists_of_bind_eq_ok h
      obtain rfl := Except.ok.inj h
      rfl
  · cases h

theorem recoverable_of_createSnortMessage {rawSnortMessage : Text} {message : SnortMessage}
    (h : createSnortMessage rawSnortMessage = .ok message) : message.Recoverable := by
  obtain ⟨_, _, hheaders⟩ := readHeaders_of_createSnortMessage h
  rcases readHeaders_cases hheaders with ⟨hip, hprotocol⟩ | ⟨header, hheader, hip, hports⟩
  · refine ⟨?_, ?_⟩
    · rw [hip]
      exact fun header hmem => absurd hmem (Option.not_mem_none header)
    · rw [hip, hprotocol]
      exact iff_of_false Bool.false_ne_true fun ⟨header, hmem, _⟩ => Option.not_mem_none header hmem
  · refine ⟨fun header' hmem => ?_, hports.trans ⟨fun h => ⟨header, hip, h⟩, ?_⟩⟩
    · obtain rfl := Option.some.inj (hip.symm.trans hmem)
      rw [createIpHeader_alias hheader]
      exact getAlias_ne_nil _
    · rintro ⟨header', hmem, h⟩
      obtain rfl := Option.some.inj (hip.symm.trans hmem)
      exact h

end parser

section transfer
variable (message : SnortMessage)

theorem getDate_toSnortLogData : message.toSnortLogData.getDate = .ok message.date := by
  rw [message.toSnortLogData_eq]
  rfl

theorem getSignature_toSnortLogData : message.toSnortLogData.getSignature = message.signature := by
  rw [message.toSnortLogData_eq]
  rfl

/-- No part overwrites the fields that the message has of its own. -/
theorem texts_toSnortLogData : message.toSnortLogData.sensorName = message.sensorName ∧
    message.toSnortLogData.priority = message.priority ∧
      message.toSnortLogData.classification = some message.classification ∧
        message.toSnortLogData.alertCause = some message.alertCause ∧
          message.toSnortLogData.payload = some message.payload := by
  rw [message.toSnortLogData_eq]
  exact ⟨rfl, rfl, rfl, rfl, rfl⟩

theorem isContainsIpHeader_toSnortLogData :
    message.toSnortLogData.isContainsIpHeader = !isEmpty (message.ipHeader.map (·.protocolAlias)) := by
  rw [message.toSnortLogData_eq]
  rfl

variable {message}

theorem ipHeader_toSnortLogData (h : message.Recoverable) : (if message.toSnortLogData.isContainsIpHeader then
    message.toSnortLogData.getIpHeader.map some else .ok none) = .ok message.ipHeader := by
  cases hip : message.ipHeader with
  | none =>
    have habsent : message.toSnortLogData.isContainsIpHeader = false := by
      rw [isContainsIpHeader_toSnortLogData, hip]
      rfl
    rw [habsent]
    rfl
  | some header =>
    have hpresent : message.toSnortLogData.isContainsIpHeader = true := by
      rw [isContainsIpHeader_toSnortLogData, hip]
      exact congrArg (!·) (List.isEmpty_eq_false_iff.mpr (h.protocolAlias header hip))
    rw [if_pos hpresent, SnortLogData.getIpHeader, SnortLogData.createIpHeader, if_pos hpresent,
      message.toSnortLogData_eq, hip]
    rfl

theorem protocolHeader_toSnortLogData (h : message.Recoverable) : (message.ipHeader.bind fun header =>
    if header.protocolNumber = TCP ∨ header.protocolNumber = UDP then some message.toSnortLogData.getProtocolHeader
    else none) = message.protocolHeader := by
  cases hprotocol : message.protocolHeader with
  | none =>
    refine Option.bind_eq_none_iff.mpr fun header hip => if_neg fun hports => ?_
    have hsome := h.protocolHeader.mpr ⟨header, hip, hports⟩
    rw [hprotocol] at hsome
    cases hsome
  | some ports =>
    obtain ⟨header, hip, hports⟩ := h.protocolHeader.mp (Option.isSome_of_mem hprotocol)
    have hread : message.toSnortLogData.getProtocolHeader = ports := by
      rw [message.toSnortLogData_eq, hprotocol]
      rfl
    rw [Option.mem_def.mp hip, Option.bind_some, if_pos hports, hread]

theorem httpHeader_toSnortLogData : (if message.toSnortLogData.isContainsHttpHeader then
    some message.toSnortLogData.getHttpHeader else none) =
      if message.toSnortLogData.isContainsHttpHeader then message.httpHeader else none := by
  cases hhttp : message.httpHeader with
  | none =>
    have habsent : message.toSnortLogData.isContainsHttpHeader = false := by
      rw [message.toSnortLogData_eq, hhttp]
      rfl
    rw [habsent]
    rfl
  | some header =>
    have hread : message.toSnortLogData.getHttpHeader = header := by
      rw [message.toSnortLogData_eq, hhttp]
      rfl
    rw [hread]

/-- The transfer loses nothing but HTTP headers that are all empty. -/
theorem createTransferredSnortMessage_toSnortLogData (h : message.Recoverable) :
    createTransferredSnortMessage message.toSnortLogData = .ok { message.toTransferred with
      httpHeader := if message.toSnortLogData.isContainsHttpHeader then message.httpHeader else none } := by
  obtain ⟨hsensor, hpriority, hclassification, hcause, hpayload⟩ := texts_toSnortLogData message
  unfold createTransferredSnortMessage
  rw [getDate_toSnortLogData, ipHeader_toSnortLogData h, getSignature_toSnortLogData, httpHeader_toSnortLogData,
    hsensor, hpriority, hclassification, hcause, hpayload]
  refine congrArg Except.ok ?_
  rw [protocolHeader_toSnortLogData h]
  rfl

end transfer

section survival

/-- Equal in every field, where an HTTP header that is null counts as an empty one. -/
structure SameAlert (a b : SnortLogData) : Prop where
  fields : { a with host := none, xForwardedFor := none, xRealIp := none } =
    { b with host := none, xForwardedFor := none, xRealIp := none }
  host : a.host.getD [] = b.host.getD []
  xForwardedFor : a.xForwardedFor.getD [] = b.xForwardedFor.getD []
  xRealIp : a.xRealIp.getD [] = b.xRealIp.getD []

theorem SameAlert.refl (a : SnortLogData) : SameAlert a a := ⟨rfl, rfl, rfl, rfl⟩

/-- Without its HTTP header a message has null in the three fields. -/
theorem toSnortLogData_withoutHttpHeader (message : SnortMessage) :
    { message.toTransferred with httpHeader := none }.toSnortLogData =
      { message.toSnortLogData with host := none, xForwardedFor := none, xRealIp := none } := by
  change { message with httpHeader := none }.toSnortLogData = _
  rw [SnortMessage.toSnortLogData_eq, SnortMessage.toSnortLogData_eq]
  rfl

theorem SameAlert.withoutHttpHeader {message : SnortMessage}
    (h : message.toSnortLogData.isContainsHttpHeader = false) :
    SameAlert { message.toTransferred with httpHeader := none }.toSnortLogData message.toSnortLogData := by
  obtain ⟨hheader, hreal⟩ := Bool.or_eq_false_iff.mp h
  obtain ⟨hhost, hforwarded⟩ := Bool.or_eq_false_iff.mp hheader
  rw [toSnortLogData_withoutHttpHeader]
  exact ⟨rfl, (getD_of_isEmpty hhost).symm, (getD_of_isEmpty hforwarded).symm, (getD_of_isEmpty hreal).symm⟩

theorem alert_survives_transfer {rawSnortMessage : Text} {message : SnortMessage}
    (h : createSnortMessage rawSnortMessage = .ok message) : ∃ transferred,
      createTransferredSnortMessage message.toSnortLogData = .ok transferred ∧
        SameAlert transferred.toSnortLogData message.toSnortLogData := by
  refine ⟨_, createTransferredSnortMessage_toSnortLogData (recoverable_of_createSnortMessage h), ?_⟩
  cases hcontains : message.toSnortLogData.isContainsHttpHeader with
  | true => exact .refl _
  | false => exact .withoutHttpHeader hcontains

/-- A request over TCP, with the header of its host in the payload. -/
def requestRecord : SnortRecord :=
  { sampleRecord "sensor".toList (by decide) (by decide) (some samplePacket) with
    payload := [72, 111, 115, 116, 58, 97]
    payload_ne_nil := by decide }

theorem request_survives_transfer : requestRecord.message.httpHeader = some ⟨some ['a'], none, none⟩ ∧ ∃ transferred,
    createTransferredSnortMessage requestRecord.message.toSnortLogData = .ok transferred ∧
      SameAlert transferred.toSnortLogData requestRecord.message.toSnortLogData :=
  ⟨by decide, alert_survives_transfer (requestRecord.createSnortMessage_render (by decide))⟩

end survival

end Srvlog.Syslog
