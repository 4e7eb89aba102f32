import Srvlog.Library.JavaText
import Srvlog.Library.Regex
import Srvlog.Data.SnortLogData

/-! The parts of an alert that are found by patterns of their own: the signature, the IP
header, the header of the protocol and the HTTP headers in the payload. -/
namespace Srvlog.Syslog
open Library Data

def digits : Regex := .repeated true 1 none Char.isDigit

/-- Between so many digits, as in `\d{1,3}`. -/
def digitsUpTo (most : Nat) : Regex := .repeated true 1 (some most) Char.isDigit

def groupOf (x : Match) (name : Text) : Option Text := x.groups.lookup name

section signature

structure SnortSignature where
  generatorId : Int
  signatureId : Int
  signatureRevision : Int
  deriving DecidableEq

/-- `\[({GENERATOR_ID}\d+):({SIGNATURE_ID}\d+):({SIGNATURE_REVISION}\d+)\]`. -/
def SIGNATURE_REGEX : Regex :=
  .seq (.literal ['[']) (.seq (.separated [':']
    [("GENERATOR_ID".toList, digits), ("SIGNATURE_ID".toList, digits), ("SIGNATURE_REVISION".toList, digits)])
    (.literal [']']))

def createSnortSignature (classification : Text) : Except JavaException SnortSignature :=
  match SIGNATURE_REGEX.findIn classification with
  | none => .error (.runtimeException "Classification does not look like snort signature.".toList)
  | some (_, x) => do
    let generatorId ← parseInt 10 (groupOf x "GENERATOR_ID".toList)
    let signatureId ← parseInt 10 (groupOf x "SIGNATURE_ID".toList)
    let signatureRevision ← parseInt 10 (groupOf x "SIGNATURE_REVISION".toList)
    return ⟨generatorId, signatureId, signatureRevision⟩

def SnortSignature.fillSnortLogData (signature : SnortSignature) (data : SnortLogData) : SnortLogData :=
  { data with
    generatorId := signature.generatorId
    signatureId := signature.signatureId
    signatureRevision := signature.signatureRevision }

end signature

section registry

def ICMP : Int := 1
def TCP : Int := 6
def UDP : Int := 17

/-- The aliases in the order in which the registry adds them; a later one replaces an earlier one. -/
def PROTOCOL_ALIAS_REGISTRY : List (Int × String) :=
  [(0, "IP"), (ICMP, "ICMP"), (2, "IGMP"), (3, "GGP"), (4, "IP-ENCAP"), (5, "ST"), (TCP, "TCP"), (8, "EGP"),
    (9, "IGP"), (12, "PUP"), (UDP, "UDP"), (20, "HMP"), (22, "XNS-IDP"), (27, "RDP"), (29, "ISO-TP4"),
    (33, "DCPP"), (36, "XTP"), (37, "DDP"), (38, "IDPR-CMTP"), (41, "IPv6"), (43, "IPv6-Route"),
    (43, "IPv6-Frag"), (45, "IDRP"), (46, "RSVP"), (47, "GRE"), (50, "IPSEC-ESP"), (51, "IPSEC-AH"),
    (57, "SKIP"), (58, "IPv6-ICMP"), (59, "IPv6-NoNxt"), (60, "IPv6-Opts"), (73, "RSPF CPHB"), (81, "VMTP"),
    (88, "EIGRP"), (89, "OSPFIGP"), (93, "AX.25"), (94, "IPIP"), (97, "ETHERIP"), (98, "ENCAP"),
    (99, "private encryption scheme"), (103, "PIM"), (108, "IPCOMP"), (112, "VRRP"), (115, "ISIS"),
    (132, "SCTP"), (133, "FC"), (135, "Mobility-Header"), (136, "UPD-Lite"), (137, "MPLS-in-IP"),
    (138, "manet"), (139, "HIP"), (140, "Shim6"), (141, "WESP"), (142, "ROHC")]

/-- `String.valueOf` of an int. -/
def valueOf (n : Int) : Text := (if n < 0 then ['-'] else []) ++ decimal n.natAbs

def getAlias (protocolNumber : Int) : Text :=
  match PROTOCOL_ALIAS_REGISTRY.reverse.lookup protocolNumber with
  | some protocolAlias => protocolAlias.toList
  | none => valueOf protocolNumber

theorem valueOf_ne_nil (n : Int) : valueOf n ≠ [] :=
  List.append_ne_nil_of_right_ne_nil _ (decimal_ne_nil n.natAbs)

theorem getAlias_ne_nil (protocolNumber : Int) : getAlias protocolNumber ≠ [] := by
  have hregistry : ∀ entry ∈ PROTOCOL_ALIAS_REGISTRY, entry.2.toList ≠ [] := by decide
  unfold getAlias
  split
  · next protocolAlias hlookup =>
    obtain ⟨before, after, hsplit, -⟩ := List.lookup_eq_some_iff.mp hlookup
    refine hregistry (protocolNumber, protocolAlias) (List.mem_reverse.mp ?_)
    rw [hsplit]
    exact List.mem_append_right before List.mem_cons_self
  · exact valueOf_ne_nil protocolNumber

end registry

section ipHeader

structure IpHeader where
  protocolNumber : Int
  protocolAlias : Text
  sourceIp : Option Text
  destinationIp : Option Text
  protocolVersion : Int
  headerLength : Int
  serviceType : Int
  datagramLength : Int
  identification : Int
  flags : Int
  fragmentOffset : Int
  timeToLive : Int
  checksum : Int
  deriving DecidableEq

def dottedAddress : Regex :=
  .seq (digitsUpTo 3) (.seq (.literal ['.']) (.seq (digitsUpTo 3) (.seq (.literal ['.'])
    (.seq (digitsUpTo 3) (.seq (.literal ['.']) (digitsUpTo 3))))))

/-- The twelve fields of the header. -/
def ipHeaderFields : List (Text × Regex) :=
  [("PROTOCOL".toList, digitsUpTo 3), ("SOURCE_IP".toList, dottedAddress), ("DESTINATION_IP".toList, dottedAddress),
    ("PROTOCOL_VERSION".toList, digitsUpTo 1), ("HEADER_LENGTH".toList, digits), ("SERVICE_TYPE".toList, digits),
    ("DATAGRAM_LENGTH".toList, digits), ("IDENTIFICATION".toList, digits), ("FLAGS".toList, digits),
    ("FRAGMENT_OFFSET".toList, digits), ("TIME_TO_LIVE".toList, digits), ("CHECKSUM".toList, digits)]

def IP_HEADER_REGEX : Regex :=
  .seq (.precededBy "|| ".toList) (.seq (.separated [' '] ipHeaderFields) (.followedBy " ||".toList))

def isContainsIpHeader (rawSnortMessage : Text) : Bool := IP_HEADER_REGEX.occursIn rawSnortMessage

def createIpHeader (rawSnortMessage : Text) : Except JavaException IpHeader :=
  match IP_HEADER_REGEX.findIn rawSnortMessage with
  | none => .error (.runtimeException ("Snort message does not contains ip header. ".toList ++
      "Check message with method isMessageContainsIPHeader() first".toList))
  | some (_, x) => do
    let protocolNumber ← parseInt 10 (groupOf x "PROTOCOL".toList)
    let protocolVersion ← parseInt 10 (groupOf x "PROTOCOL_VERSION".toList)
    let headerLength ← parseInt 10 (groupOf x "HEADER_LENGTH".toList)
    let serviceType ← parseInt 10 (groupOf x "SERVICE_TYPE".toList)
    let datagramLength ← parseInt 10 (groupOf x "DATAGRAM_LENGTH".toList)
    let identification ← parseInt 10 (groupOf x "IDENTIFICATION".toList)
    let flags ← parseInt 10 (groupOf x "FLAGS".toList)
    let fragmentOffset ← parseInt 10 (groupOf x "FRAGMENT_OFFSET".toList)
    let timeToLive ← parseInt 10 (groupOf x "TIME_TO_LIVE".toList)
    let checksum ← parseInt 10 (groupOf x "CHECKSUM".toList)
    return {
      protocolNumber, protocolAlias := getAlias protocolNumber
      sourceIp := groupOf x "SOURCE_IP".toList, destinationIp := groupOf x "DESTINATION_IP".toList
      protocolVersion, headerLength, serviceType, datagramLength, identification, flags, fragmentOffset
      timeToLive, checksum }

theorem createIpHeader_alias {rawSnortMessage : Text} {header : IpHeader}
    (h : createIpHeader rawSnortMessage = .ok header) : header.protocolAlias = getAlias header.protocolNumber := by
  unfold createIpHeader at h
  split at h
  · cases h
  · obtain ⟨protocolNumber, -, h⟩ := exists_of_bind_eq_ok h
    obtain ⟨_, -, h⟩ := exists_of_bind_eq_ok h
    obtain ⟨_, -, h⟩ := exists_of_bind_eq_ok h
    obtain ⟨_, -, h⟩ := exists_of_bind_eq_ok h
    obtain ⟨_, -, h⟩ := exists_of_bind_eq_ok h
    obtain ⟨_, -, h⟩ := exists_of_bind_eq_ok h
    obtain ⟨_, -, h⟩ := exists_of_bind_eq_ok h
    obtain ⟨_, -, h⟩ := exists_of_bind_eq_ok h
    obtain ⟨_, -, h⟩ := exists_of_bind_eq_ok h
    obtain ⟨_, -, h⟩ := exists_of_bind_eq_ok h
    obtain rfl := Except.ok.inj h
    rfl

def IpHeader.fillSnortLogData (header : IpHeader) (data : SnortLogData) : SnortLogData :=
  { data with
    protocolNumber := header.protocolNumber
    protocolAlias := some header.protocolAlias
    protocolVersion := header.protocolVersion
    sourceIp := header.sourceIp
    destinationIp := header.destinationIp
    headerLength := header.headerLength
    serviceType := header.serviceType
    datagramLength := header.datagramLength
    identification := header.identification
    flags := header.flags
    fragmentOffset := header.fragmentOffset
    timeToLive := header.timeToLive
    checksum := header.checksum }

end ipHeader

section protocolHeader

structure ProtocolHeader where
  sourcePort : Int
  destinationPort : Int
  deriving DecidableEq

def TCP_HEADER_REGEX : Regex := .separated [' ']
  [("SOURCE_PORT".toList, digits), ("DESTINATION_PORT".toList, digits), ("SEQUENCE_NUMBER".toList, digits),
    ("ACKNOWLEDGEMENT_NUMBER".toList, digits), ("OFFSET".toList, digits), ("RESERVED".toList, digits),
    ("FLAGS".toList, digits), ("WINDOW_SIZE".toList, digits), ("CHECKSUM".toList, digits),
    ("URGENT_POINTER".toList, digits)]

def UDP_HEADER_REGEX : Regex := .separated [' ']
  [("SOURCE_PORT".toList, digits), ("DESTINATION_PORT".toList, digits), ("DATAGRAM_LENGTH".toList, digits),
    ("CHECKSUM".toList, digits)]

/-- Both parsers complain about UDP. -/
def parseProtocolHeader (regex : Regex) (rawProtocolHeader : Text) : Except JavaException ProtocolHeader :=
  match regex.findIn rawProtocolHeader with
  | none => .error (.runtimeException "Given protocol header is not UDP header.".toList)
  | some (_, x) => do
    let sourcePort ← parseInt 10 (groupOf x "SOURCE_PORT".toList)
    let destinationPort ← parseInt 10 (groupOf x "DESTINATION_PORT".toList)
    return ⟨sourcePort, destinationPort⟩

def parseTcpHeader : Text → Except JavaException ProtocolHeader := parseProtocolHeader TCP_HEADER_REGEX
def parseUdpHeader : Text → Except JavaException ProtocolHeader := parseProtocolHeader UDP_HEADER_REGEX

def ProtocolHeader.fillSnortLogData (header : ProtocolHeader) (data : SnortLogData) : SnortLogData :=
  { data with sourcePort := header.sourcePort, destinationPort := header.destinationPort }

end protocolHeader

section httpHeader

structure HttpHeader where
  host : Option Text
  xForwardedFor : Option Text
  xRealIp : Option Text
  deriving DecidableEq

/-- A header name in any case, a colon, and the rest of the line as the named group. -/
def httpHeaderRegex (name group : Text) : Regex :=
  .seq (name.foldr (fun ch r => .seq (.repeated true 1 (some 1) fun c => decide (c.toLower = ch.toLower)) r)
    (.literal [':'])) (.group group (.repeated true 1 none fun c => decide (c ∉ ['\r', '\n'])))

def HOST_REGEX : Regex := httpHeaderRegex "Host".toList "HOST".toList
def X_FORWARDED_FOR_REGEX : Regex := httpHeaderRegex "X-Forwarded-For".toList "X_FORWARDED_FOR".toList
def X_REAL_IP_REGEX : Regex := httpHeaderRegex "X-Real-IP".toList "X_REAL_IP".toList

def isContainsHttpHeader (payload : Text) : Bool :=
  HOST_REGEX.occursIn payload || X_FORWARDED_FOR_REGEX.occursIn payload || X_REAL_IP_REGEX.occursIn payload

/-- The trimmed group of the first match; without a match the group is null. -/
def trimmedGroup (regex : Regex) (payload group : Text) : Option Text :=
  (regex.findIn payload).bind fun found => (groupOf found.2 group).map trim

def createHttpHeader (payload : Text) : Except JavaException HttpHeader :=
  if isContainsHttpHeader payload then
    .ok ⟨trimmedGroup HOST_REGEX payload "HOST".toList,
      trimmedGroup X_FORWARDED_FOR_REGEX payload "X_FORWARDED_FOR".toList,
      trimmedGroup X_REAL_IP_REGEX payload "X_REAL_IP".toList⟩
  else .error (.runtimeException ("Message does not look like http query. ".toList ++
    "Check message with method isContainsHttpHeader() first".toList))

def HttpHeader.fillSnortLogData (header : HttpHeader) (data : SnortLogData) : SnortLogData :=
  { data with host := header.host, xForwardedFor := header.xForwardedFor, xRealIp := header.xRealIp }

end httpHeader
end Srvlog.Syslog
