import Srvlog.Data.LogData
import Srvlog.Library.JavaText
import Srvlog.Library.Transaction

/-! The JSON adapter: the service that saves the messages of a request one after the
other, the processor of the request's body, and the handler of the HTTP request. -/
namespace Srvlog.Json
open Library Data

abbrev Bytes := List UInt8

section messages

structure SaveLogsMessage where
  time : Int
  program : Option Text
  facility : Option Int
  severity : Option Int
  message : Option Text
  deriving DecidableEq

/-- The list and its elements may be null. -/
structure SaveLogsRequest where
  requestId : Option Text
  messages : Option (List (Option SaveLogsMessage))
  deriving DecidableEq

inductive SaveLogsStatus where
  | SUCCESS
  | ERROR
  deriving DecidableEq

structure SaveLogsResponse where
  requestId : Option Text
  status : SaveLogsStatus
  errorMessage : Option Text
  errorId : Option Text
  deriving DecidableEq

def SaveLogsResponse.error (uuid : Text) (requestId : Option Text) (errorMessage : Text) : SaveLogsResponse :=
  ⟨requestId, .ERROR, some errorMessage, some uuid⟩

def SaveLogsResponse.success (requestId : Option Text) : SaveLogsResponse := ⟨requestId, .SUCCESS, none, none⟩

structure ProcessJsonException where
  requestId : Option Text
  statusCode : Nat
  message : Text

/-- What can be thrown; an error is not an exception and is not caught. -/
inductive Throwable where
  | exception (e : JavaException)
  | processJson (e : ProcessJsonException)
  | error (message : Text)

end messages

section collector

/-- The logs that are stored, and what becomes of the coming calls of `saveLog`. -/
structure LogCollector where
  stored : List LogData
  outcomes : Nat → Option Throwable

/-- Each call either stores its log or throws and stores nothing. -/
def saveLog (log : LogData) : Action LogCollector Throwable PUnit := fun collector =>
  match collector.outcomes 0 with
  | none => (.ok ⟨⟩, ⟨collector.stored ++ [log], fun n => collector.outcomes (n + 1)⟩)
  | some e => (.error e, ⟨collector.stored, fun n => collector.outcomes (n + 1)⟩)

end collector

section service

def mapMessage (removeIpAddress : Text) (message : SaveLogsMessage) : LogData where
  date := some message.time
  host := some removeIpAddress
  facility := message.facility
  severity := message.severity
  message := message.message
  id := none
  program := message.program
  hash := none

/-- The body of the loop of `saveLogs`; a null message fails in `mapMessage`. -/
def saveMessage (removeIpAddress : Text) : Option SaveLogsMessage → Action LogCollector Throwable PUnit
  | none => throw (.exception .nullPointerException)
  | some message => tryCatch (saveLog (mapMessage removeIpAddress message)) fun
    | .error text => throw (.error text)
    | .exception _ | .processJson _ => throw (.exception (.runtimeException "Cannot save log message".toList))

def saveLogs (uuid removeIpAddress : Text) : Option SaveLogsRequest → Action LogCollector Throwable SaveLogsResponse
  | none => throw (.exception .nullPointerException)
  | some logs => match logs.messages with
    | none => return .error uuid logs.requestId "No messages".toList
    | some messages => do
      messages.forM (saveMessage removeIpAddress)
      return .success logs.requestId

end service

/-- How reading a request fails. -/
inductive JsonReadException where
  | unrecognizedProperty (propertyName : Text)
  | parseOrMapping (message : Text)
  | other

/-- The mapper writes every response, and its status can be read back. -/
structure ObjectMapper where
  readValue : Bytes → Except JsonReadException (Option SaveLogsRequest)
  writeValueAsBytes : SaveLogsResponse → Except JavaException Bytes
  status : Bytes → Option SaveLogsStatus
  writes (response : SaveLogsResponse) :
    ∃ bytes, writeValueAsBytes response = .ok bytes ∧ status bytes = some response.status

structure HttpRequest where
  requestUri : Text
  token : Option Text
  remoteAddress : Text
  body : Bytes

structure HttpResponse where
  statusCode : Nat
  reasonPhrase : Text
  body : Bytes

def NOT_FOUND : HttpResponse := ⟨404, "Not found".toList, []⟩
def UNAUTHORIZED : HttpResponse := ⟨401, "Unauthorized".toList, []⟩

/-- `saveLogs` is called through the proxy that its transaction annotation asks for. -/
structure SaveLogsAdapter where
  path : Text
  token : Text
  mapper : ObjectMapper
  transactions : TransactionManager LogCollector Throwable LogCollector.stored
  uuid : Text
  getMessage : JavaException → Text

namespace SaveLogsAdapter
variable (adapter : SaveLogsAdapter)

def parseRequest (json : Bytes) : Except ProcessJsonException (Option SaveLogsRequest) :=
  match adapter.mapper.readValue json with
  | .ok request => .ok request
  | .error e => .error ⟨some ("server-".toList ++ adapter.uuid), 405, match e with
    | .unrecognizedProperty propertyName => "Unknown field '".toList ++
      replace "com.payneteasy.srvlog.adapter.json.messages.".toList [] propertyName ++ "'".toList
    | .parseOrMapping message => "Json: ".toList ++ message
    | .other => "Unknown exception while parsing json".toList⟩

def processJson (remoteIpAddress : Text) (json : Bytes) : Action LogCollector Throwable Bytes :=
  match adapter.parseRequest json with
  | .error e => throw (.processJson e)
  | .ok request => do
    let response ← adapter.transactions.required (saveLogs adapter.uuid remoteIpAddress request)
    match adapter.mapper.writeValueAsBytes response with
    | .ok bytes => return bytes
    | .error _ => throw (.processJson ⟨request.bind (·.requestId), 500, "Cannot write logs".toList⟩)

/-- `createJson` fails when the error message cannot be written. -/
def createJson (e : ProcessJsonException) : Except Throwable Bytes :=
  match adapter.mapper.writeValueAsBytes (.error adapter.uuid e.requestId e.message) with
  | .ok bytes => .ok bytes
  | .error _ => .error (.exception (.runtimeException "Cannot write error message".toList))

def isTokenOk (requestToken : Option Text) : Bool := decide (requestToken = some adapter.token)

def handleRequest (request : HttpRequest) : Action LogCollector Throwable HttpResponse :=
  if adapter.path ≠ request.requestUri then return NOT_FOUND
  else if !adapter.isTokenOk request.token then return UNAUTHORIZED
  else fun collector => match adapter.processJson request.remoteAddress request.body collector with
    | (.ok bytes, after) => (.ok ⟨200, "OK".toList, bytes⟩, after)
    | (.error (.processJson e), after) => ((adapter.createJson e).map fun body =>
        ⟨e.statusCode, "Json Error ".toList ++ adapter.uuid ++ " -".toList ++ e.message, body⟩, after)
    | (.error (.exception e), after) =>
      (.ok ⟨500, "Unknown Error: ".toList ++ adapter.uuid ++ " - ".toList ++ adapter.getMessage e, []⟩, after)
    | (.error (.error message), after) => (.error (.error message), after)

end SaveLogsAdapter
end Srvlog.Json
