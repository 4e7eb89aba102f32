import Srvlog.Database.Schema

/-! The columns of the table snort_logs. -/
namespace Srvlog.Database
open Library

structure SnortColumns where
  program : Varchar 60
  sensorName : Varchar 60
  date : Datetime
  priority : Nat
  classification : Varchar 255
  alertCause : Varchar 255
  generatorId : Nat
  signatureId : Nat
  signatureRevision : Nat
  protocolNumber : Option Nat
  protocolAlias : Option (Varchar 60)
  protocolVersion : Option Nat
  sourceIp : Option (Varchar 60)
  destinationIp : Option (Varchar 60)
  headerLength : Option Nat
  serviceType : Option Nat
  datagramLength : Option Nat
  identification : Option Nat
  flags : Option Nat
  fragmentOffset : Option Nat
  timeToLive : Option Nat
  checksum : Option Nat
  sourcePort : Option Nat
  destinationPort : Option Nat
  host : Option (Varchar 60)
  xForwardedFor : Option (Varchar 60)
  xRealIp : Option (Varchar 60)
  payload : SqlText
  deriving DecidableEq

/-- A row of the partitioned table. -/
structure SnortRow extends SnortColumns where
  snortLogsPartitionKey : Nat
  deriving DecidableEq

end Srvlog.Database
