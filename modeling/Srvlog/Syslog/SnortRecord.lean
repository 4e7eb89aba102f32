import Srvlog.Syslog.SnortMessage

/-! The alerts that barnyard2 writes, their text, and the data that the parser should
read from it. -/
namespace Srvlog.Syslog
open Library Data

/-- A date and time in UTC, as it is written. -/
structure Timestamp where
  year : Nat
  month : Nat
  day : Nat
  hour : Nat
  minute : Nat
  second : Nat
  milli : Nat
  year_lt : year < 10000
  month_range : 1 ≤ month ∧ month ≤ 12
  day_range : 1 ≤ day ∧ day ≤ 31
  hour_lt : hour < 24
  minute_lt : minute < 60
  second_lt : second < 60
  milli_lt : milli < 1000

def padded (width n : Nat) : Text := lpad (decimal n) width '0'

theorem isDigit_of_mem_padded {width n : Nat} {ch : Char} (h : ch ∈ padded width n) : ch.isDigit := by
  unfold padded lpad at h
  split at h
  · exact isDigit_of_mem_decimal (List.mem_of_mem_take h)
  · rcases List.mem_append.mp h with h | h
    · rw [List.eq_of_mem_replicate h]
      rfl
    · exact isDigit_of_mem_decimal h

theorem padded_ne_nil {width n : Nat} (h : 0 < width) : padded width n ≠ [] :=
  List.ne_nil_of_length_pos (by rwa [padded, length_lpad])

def Timestamp.text (t : Timestamp) : Text :=
  padded 4 t.year ++ '-' :: (padded 2 t.month ++ '-' :: (padded 2 t.day ++ ' ' :: (padded 2 t.hour ++ ':' ::
    (padded 2 t.minute ++ ':' :: (padded 2 t.second ++ '.' :: padded 3 t.milli)))))

def Timestamp.instant (t : Timestamp) : Int := utcTime t.year t.month t.day t.hour t.minute t.second t.milli

structure Address where
  octets : Fin 4 → Fin 256

def Address.text (address : Address) : Text :=
  decimal (address.octets 0) ++ '.' :: (decimal (address.octets 1) ++ '.' :: (decimal (address.octets 2) ++ '.' ::
    decimal (address.octets 3)))

/-- What follows the IP header. Only the ports have to fit an int. -/
inductive Transport where
  | tcp (sourcePort destinationPort : Fin (2 ^ 31)) (numbers : Fin 8 → Nat)
  | udp (sourcePort destinationPort : Fin (2 ^ 31)) (numbers : Fin 2 → Nat)
  | icmp (numbers : List Nat)
  | other (protocolNumber : Fin 256) (unknown : protocolNumber.val ∉ [1, 6, 17])

def numbersText (numbers : List Nat) : Text := [' '].intercalate (numbers.map decimal)

namespace Transport

def protocolNumber : Transport → Nat
  | tcp _ _ _ => 6
  | udp _ _ _ => 17
  | icmp _ => 1
  | other protocolNumber _ => protocolNumber

/-- The section behind the IP header. -/
def sections : Transport → List Text
  | tcp sourcePort destinationPort numbers =>
    [numbersText (sourcePort.val :: destinationPort.val :: List.ofFn numbers)]
  | udp sourcePort destinationPort numbers =>
    [numbersText (sourcePort.val :: destinationPort.val :: List.ofFn numbers)]
  | icmp numbers => [numbersText numbers]
  | other _ _ => []

theorem protocolNumber_lt (transport : Transport) : transport.protocolNumber < 256 := by
  cases transport with
  | tcp => exact (by decide : 6 < 256)
  | udp => exact (by decide : 17 < 256)
  | icmp => exact (by decide : 1 < 256)
  | other protocolNumber _ => exact protocolNumber.isLt

end Transport

structure Packet where
  source : Address
  destination : Address
  version : Fin 10
  headerLength : Fin (2 ^ 31)
  serviceType : Fin (2 ^ 31)
  datagramLength : Fin (2 ^ 31)
  identification : Fin (2 ^ 31)
  flags : Fin (2 ^ 31)
  fragmentOffset : Fin (2 ^ 31)
  timeToLive : Fin (2 ^ 31)
  checksum : Fin (2 ^ 31)
  transport : Transport

/-- The section of the IP header, with twelve fields. -/
def Packet.headerText (p : Packet) : Text :=
  [' '].intercalate [decimal p.transport.protocolNumber, p.source.text, p.destination.text, decimal p.version,
    decimal p.headerLength, decimal p.serviceType, decimal p.datagramLength, decimal p.identification,
    decimal p.flags, decimal p.fragmentOffset, decimal p.timeToLive, decimal p.checksum]

section signatures

def IsNumber (t : Text) : Prop := t ≠ [] ∧ ∀ ch ∈ t, ch.isDigit

def signatureText (generatorId signatureId signatureRevision : Text) : Text :=
  '[' :: ([':'].intercalate [generatorId, signatureId, signatureRevision] ++ [']'])

def IsSignature (t : Text) : Prop := ∃ g s r, t = signatureText g s r ∧ IsNumber g ∧ IsNumber s ∧ IsNumber r

/-- The first signature in the text has these three ints. -/
def FirstSignature (classification : Text) (signature : SnortSignature) : Prop :=
  ∃ before g s r after, classification = before ++ (signatureText g s r ++ after) ∧
    (IsNumber g ∧ digitsValue g < 2 ^ 31) ∧ (IsNumber s ∧ digitsValue s < 2 ^ 31) ∧
    (IsNumber r ∧ digitsValue r < 2 ^ 31) ∧ signature = ⟨digitsValue g, digitsValue s, digitsValue r⟩ ∧
    ∀ before' t after', IsSignature t → classification = before' ++ (t ++ after') → before.length ≤ before'.length

end signatures

def SingleLine (t : Text) : Prop := ∀ ch ∈ t, isLineSeparator ch = false

instance (t : Text) : Decidable (SingleLine t) := inferInstanceAs (Decidable (∀ ch ∈ t, isLineSeparator ch = false))

/-- The bytes of a payload are written as numerals. -/
instance neZero_byte : NeZero 256 := ⟨by decide⟩

/-- The cause may not look like an IP header between its separators. -/
structure SnortRecord where
  sensorName : Text
  timestamp : Timestamp
  priority : Fin 100
  classification : Text
  signature : SnortSignature
  alertCause : Text
  packet : Option Packet
  payloadLength : Nat
  payload : List (Fin 256)
  sensorName_line : SingleLine sensorName
  sensorName_end : ¬ "] ] ||".toList <:+: sensorName
  classification_line : SingleLine classification
  classification_bar : '|' ∉ classification
  classification_trimmed : trim classification = classification
  first_signature : FirstSignature classification signature
  alertCause_line : SingleLine alertCause
  alertCause_bar : '|' ∉ alertCause
  alertCause_trimmed : trim alertCause = alertCause
  alertCause_ne_nil : alertCause ≠ []
  alertCause_no_header : isContainsIpHeader ("|| ".toList ++ alertCause ++ " ||".toList) = false
  payload_ne_nil : payload ≠ []

/-- An upper-case hexadecimal digit. -/
def hexDigit (n : Nat) : Char := "0123456789ABCDEF".toList.getD n '0'

def hexText (payload : List (Fin 256)) : Text :=
  payload.flatMap fun b : Fin 256 => [hexDigit (b.val / 16), hexDigit (b.val % 16)]

theorem hexText_cons (b : Fin 256) (payload : List (Fin 256)) :
    hexText (b :: payload) = hexDigit (b.val / 16) :: hexDigit (b.val % 16) :: hexText payload :=
  List.flatMap_cons

namespace SnortRecord

def sections (r : SnortRecord) : List Text :=
  [r.timestamp.text ++ ' ' :: (decimal r.priority ++ ' ' :: r.classification), r.alertCause] ++
    r.packet.elim [] (fun p => p.headerText :: p.transport.sections) ++
    [decimal r.payloadLength ++ ' ' :: hexText r.payload]

/-- The message as barnyard2 writes it. -/
def render (r : SnortRecord) : Text :=
  "| [SNORTIDS[LOG]: [".toList ++ (r.sensorName ++ ("] ] || ".toList ++
    (" || ".toList.intercalate r.sections ++ ['|'])))

def payloadText (r : SnortRecord) : Text := r.payload.map fun b : Fin 256 => Char.ofNat b.val

/-- The HTTP headers of the payload of a TCP packet. -/
def httpHeader (r : SnortRecord) : Option HttpHeader :=
  if r.packet.map (·.transport.protocolNumber) = some 6 then (createHttpHeader r.payloadText).toOption else none

/-- The data of the alert without its packet. -/
def alertData (r : SnortRecord) : SnortLogData where
  program := some "snort".toList
  sensorName := some r.sensorName
  date := some r.timestamp.instant
  priority := r.priority
  classification := some r.classification
  alertCause := some r.alertCause
  generatorId := r.signature.generatorId
  signatureId := r.signature.signatureId
  signatureRevision := r.signature.signatureRevision
  payload := some r.payloadText

end SnortRecord

def Packet.fill (p : Packet) (data : SnortLogData) : SnortLogData :=
  let data := { data with
    protocolNumber := p.transport.protocolNumber
    protocolAlias := some (getAlias p.transport.protocolNumber)
    protocolVersion := p.version
    sourceIp := some p.source.text
    destinationIp := some p.destination.text
    headerLength := p.headerLength
    serviceType := p.serviceType
    datagramLength := p.datagramLength
    identification := p.identification
    flags := p.flags
    fragmentOffset := p.fragmentOffset
    timeToLive := p.timeToLive
    checksum := p.checksum }
  match p.transport with
  | .tcp sourcePort destinationPort _ | .udp sourcePort destinationPort _ =>
    { data with sourcePort := sourcePort, destinationPort := destinationPort }
  | .icmp _ | .other _ _ => data

/-- What the parser should read: the fields of the record, all of the IP header or none of
it, and ports for TCP and UDP only. -/
def SnortRecord.toSnortLogData (r : SnortRecord) : SnortLogData :=
  let data := r.packet.elim r.alertData fun p => p.fill r.alertData
  r.httpHeader.elim data fun header => header.fillSnortLogData data

end Srvlog.Syslog
