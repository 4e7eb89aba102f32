import Srvlog.Library.Text

/-! The records of the alerts of the intrusion detection systems. -/
namespace Srvlog.Data
open Library

/-- Objects may be null, and numbers start at zero. Dates count milliseconds from the epoch. -/
structure SnortLogData where
  id : Option Int := none
  program : Option Text := none
  sensorName : Option Text := none
  date : Option Int := none
  priority : Int := 0
  classification : Option Text := none
  alertCause : Option Text := none
  generatorId : Int := 0
  signatureId : Int := 0
  signatureRevision : Int := 0
  payload : Option Text := none
  protocolNumber : Int := 0
  protocolAlias : Option Text := none
  protocolVersion : Int := 0
  sourceIp : Option Text := none
  destinationIp : Option Text := none
  headerLength : Int := 0
  serviceType : Int := 0
  datagramLength : Int := 0
  identification : Int := 0
  flags : Int := 0
  fragmentOffset : Int := 0
  timeToLive : Int := 0
  checksum : Int := 0
  sourcePort : Int := 0
  destinationPort : Int := 0
  host : Option Text := none
  xForwardedFor : Option Text := none
  xRealIp : Option Text := none
  deriving DecidableEq

structure OssecLogData where
  logId : Int
  identifier : Text
  hash : Text
  date : Int
  deriving DecidableEq

end Srvlog.Data
