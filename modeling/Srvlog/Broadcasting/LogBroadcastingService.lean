import Srvlog.Broadcasting.LogHistory

/-! The broadcasting service: sessions subscribe with lists of hosts and programs, get the
retained logs and from then on every received log of these. Each call finishes before the
next one starts. -/
namespace Srvlog.Broadcasting
open Library Data

/-- A web socket session, compared by identity. -/
structure Session where
  number : Nat
  deriving DecidableEq

/-- The constants of `Subscription.State`. -/
inductive SubscriptionState where
  | INITIAL
  | ONLINE_BROADCASTING
  deriving DecidableEq

structure Subscription where
  subscriptionHosts : List (Option Text)
  subscriptionPrograms : List (Option Text)
  subscriptionState : SubscriptionState
  deriving DecidableEq

def Subscription.initialState : Subscription := ⟨[], [], .INITIAL⟩

def Subscription.isBroadcastCandidateFor (s : Subscription) (host program : Text) : Bool :=
  decide (s.subscriptionState = .ONLINE_BROADCASTING) && decide (some host ∈ s.subscriptionHosts) &&
    decide (some program ∈ s.subscriptionPrograms)

/-- `Subscription.State.valueOf`, which throws for any other name. -/
def SubscriptionState.valueOf (name : Text) : Option SubscriptionState :=
  if name = "INITIAL".toList then some .INITIAL
  else if name = "ONLINE_BROADCASTING".toList then some .ONLINE_BROADCASTING
  else none

structure LogBroadcastingRequest where
  hosts : Option (List (Option Text))
  programs : Option (List (Option Text))
  subscriptionState : Option Text
  deriving DecidableEq

structure LogBroadcastingResponse where
  success : Bool
  logDataList : List LogData
  errorMessage : Option Text
  deriving DecidableEq

/-- What a call does to the outside: a send that succeeds or fails, or a session closed. -/
inductive Event where
  | send (session : Session) (response : LogBroadcastingResponse) (succeeded : Bool)
  | close (session : Session)
  deriving DecidableEq

structure LogBroadcastingService where
  programLogStorageCapacity : ℕ+
  logStorage : LogStorage
  subscriptionStorage : ConcurrentMap Session Subscription

def LogBroadcastingService.new (programLogStorageCapacity : ℕ+) : LogBroadcastingService :=
  ⟨programLogStorageCapacity, ∅, ∅⟩

/-- How the try block of a request goes on after the request text has been read. -/
inductive RequestOutcome where
  | thrown
  | ignored
  | incorrectParameters
  | history (hosts programs : List (Option Text)) (logDataList : List LogData)

section requests

-- Jackson's `readValue`: it throws, or returns null or a request
variable (readValue : Text → Option (Option LogBroadcastingRequest))

def incorrectRequestParametersResponse : LogBroadcastingResponse :=
  ⟨false, [], some "Incorrect request parameters".toList⟩

def unsuccessfulResponse (errorId : Text) : LogBroadcastingResponse :=
  ⟨false, [], some ("Error while handling web socket message on server side. Error id [".toList ++ errorId ++
    "]".toList)⟩

/-- The part of the request from the lists on; a null list throws. -/
def historyOutcome (order : VisitOrder Text) (service : LogBroadcastingService)
    (request : LogBroadcastingRequest) : RequestOutcome :=
  match request.hosts with
  | none => .thrown
  | some hosts =>
    if hosts = [] then .incorrectParameters
    else match request.programs with
      | none => .thrown
      | some programs =>
        if programs = [] then .incorrectParameters
        else match getLogDataListByHostsAndPrograms order service.logStorage hosts programs with
          | none => .thrown
          | some logDataList => .history hosts programs logDataList

/-- A request for any other state than INITIAL needs a session registered as INITIAL. -/
def requestOutcome (order : VisitOrder Text) (service : LogBroadcastingService) (session : Session)
    (requestText : Text) : RequestOutcome :=
  match readValue requestText with
  | none => .thrown
  | some none => .thrown
  | some (some request) =>
    match request.subscriptionState.bind SubscriptionState.valueOf with
    | none => .thrown
    | some .INITIAL => historyOutcome order service request
    | some _ => match service.subscriptionStorage.lookup session with
      | none => .thrown
      | some subscription =>
        if subscription.subscriptionState = .INITIAL then historyOutcome order service request else .ignored

/-- The success of the first send of the request and that of the second one, which only
follows an exception. A session that is not registered makes the last statement of the
try block throw, after the history has been sent. -/
def handleLogBroadcastingRequest (order : VisitOrder Text) (sends : Bool × Bool) (errorId : Text)
    (service : LogBroadcastingService) (session : Session) (requestText : Text) :
    LogBroadcastingService × List Event :=
  match requestOutcome readValue order service session requestText with
  | .ignored => (service, [])
  | .thrown => (service, [.send session (unsuccessfulResponse errorId) sends.1])
  | .incorrectParameters =>
    (service, .send session incorrectRequestParametersResponse sends.1 ::
      if sends.1 then [] else [.send session (unsuccessfulResponse errorId) sends.2])
  | .history hosts programs logDataList =>
    if sends.1 then
      match service.subscriptionStorage.lookup session with
      | some _ =>
        ({ service with subscriptionStorage :=
            service.subscriptionStorage.insert session ⟨hosts, programs, .ONLINE_BROADCASTING⟩ },
          [.send session ⟨true, logDataList, none⟩ true])
      | none =>
        (service, [.send session ⟨true, logDataList, none⟩ true,
          .send session (unsuccessfulResponse errorId) sends.2])
    else
      (service, [.send session ⟨true, logDataList, none⟩ false,
        .send session (unsuccessfulResponse errorId) sends.2])

end requests

section broadcasts

/-- One turn of the loop over the subscriptions; a session whose send fails is removed and closed. -/
def broadcastToSubscriber (sent : Session → Bool) (host program : Text) (logData : LogData)
    (state : ConcurrentMap Session Subscription × List Event)
    (entry : Sigma fun _ : Session => Subscription) : ConcurrentMap Session Subscription × List Event :=
  if entry.2.isBroadcastCandidateFor host program then
    if sent entry.1 then (state.1, state.2 ++ [.send entry.1 ⟨true, [logData], none⟩ true])
    else (state.1.erase entry.1, state.2 ++ [.send entry.1 ⟨true, [logData], none⟩ false, .close entry.1])
  else state

def broadcastLogDataToSubscribers (order : VisitOrder Session) (sent : Session → Bool)
    (service : LogBroadcastingService) (host program : Text) (logData : LogData) :
    LogBroadcastingService × List Event :=
  let (subscriptionStorage, events) := (order.visit service.subscriptionStorage).foldl
    (broadcastToSubscriber sent host program logData) (service.subscriptionStorage, [])
  ({ service with subscriptionStorage := subscriptionStorage }, events)

def handleReceivedLogData (order : VisitOrder Session) (sent : Session → Bool)
    (service : LogBroadcastingService) (logData : LogData) : LogBroadcastingService × List Event :=
  match logData.host, logData.program with
  | some host, some program =>
    broadcastLogDataToSubscribers order sent { service with
      logStorage := storeLogData service.programLogStorageCapacity service.logStorage logData } host program logData
  | _, _ => (service, [])

end broadcasts

def saveBroadcastingSession (service : LogBroadcastingService) (session : Session) (subscription : Subscription) :
    LogBroadcastingService :=
  { service with subscriptionStorage := service.subscriptionStorage.insert session subscription }

def removeBroadcastingSession (service : LogBroadcastingService) (session : Session) : LogBroadcastingService :=
  { service with subscriptionStorage := service.subscriptionStorage.erase session }

/-- The calls of a sequential run, each with the outcomes of its sends and the order in
which it visits the maps. The web socket handler saves sessions in the initial state. -/
inductive ServiceCall where
  | saveBroadcastingSession (session : Session)
  | removeBroadcastingSession (session : Session)
  | handleLogBroadcastingRequest (session : Session) (requestText : Text) (order : VisitOrder Text)
      (sends : Bool × Bool) (errorId : Text)
  | handleReceivedLogData (logData : LogData) (order : VisitOrder Session) (sent : Session → Bool)

section runs
variable (readValue : Text → Option (Option LogBroadcastingRequest))

def LogBroadcastingService.call (service : LogBroadcastingService) :
    ServiceCall → LogBroadcastingService × List Event
  | .saveBroadcastingSession session => (saveBroadcastingSession service session Subscription.initialState, [])
  | .removeBroadcastingSession session => (removeBroadcastingSession service session, [])
  | .handleLogBroadcastingRequest session requestText order sends errorId =>
    handleLogBroadcastingRequest readValue order sends errorId service session requestText
  | .handleReceivedLogData logData order sent => handleReceivedLogData order sent service logData

/-- The state after a run and all that its calls have done to the outside. -/
def LogBroadcastingService.run (service : LogBroadcastingService) :
    List ServiceCall → LogBroadcastingService × List Event
  | [] => (service, [])
  | c :: cs =>
    let (service', events) := service.call readValue c
    let (service'', events') := service'.run cs
    (service'', events ++ events')

end runs
end Srvlog.Broadcasting
