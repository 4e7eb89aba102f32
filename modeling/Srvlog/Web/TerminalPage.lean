import Srvlog.Broadcasting.AskedForLogs
import Srvlog.Library.JsonText
import Srvlog.Web.ChosenValues
import Srvlog.Web.Terminal

/-! The terminal page and the service that it subscribes to: two dropdowns, a web socket for
every change of what is selected, a terminal for each, and messages on their way. -/
namespace Srvlog.Web
open Library Data Broadcasting

/-- `readyState`. -/
inductive ReadyState where
  | CONNECTING
  | OPEN
  | CLOSING
  | CLOSED
  deriving DecidableEq

/-- A socket with the lists that its handlers were made with, whether the service knows its
session, and what is on its way in both directions. -/
structure PageSocket where
  selectedHosts : List Text
  selectedPrograms : List Text
  readyState : ReadyState
  opened : Bool
  toServer : List Text
  toPage : List LogBroadcastingResponse
  deriving DecidableEq

/-- What one of the handlers of a socket prints. -/
inductive Output where
  | message (response : LogBroadcastingResponse)
  | closed (failure : Option (Nat × Text))
  | error
  deriving DecidableEq

/-- The socket and the terminal created last are `socket` and `term`, and the last terminal is
the one that can be seen; `terminalIO` is the terminal whose callback came last. The last field
is auxiliary: the messages handled since the selection last changed. -/
structure TerminalPage where
  hosts : MultiSelect
  programs : MultiSelect
  sockets : List PageSocket
  terminals : List (List Output)
  notReady : List Nat
  terminalIO : Option Nat
  service : LogBroadcastingService
  handled : List LogBroadcastingResponse

inductive PageAction where
  | hosts (action : UserAction)
  | programs (action : UserAction)
  | onTerminalReady
  | onopen (socket : Nat)
  | onmessage (socket : Nat)
  | onclose (socket : Nat) (failure : Option (Nat × Text))
  | onerror (socket : Nat)
  | serverOpen (socket : Nat)
  | serverText (socket : Nat) (order : VisitOrder Text) (sends : Bool × Bool) (errorId : Text)
  | serverClose (socket : Nat)
  | other (call : ServiceCall)

/-- The sessions of the sockets of the page, among the sessions of all pages. -/
structure PageSessions where
  session : Nat → Session
  socketOf : Session → Option Nat
  socketOf_eq_some {s : Session} {k : Nat} : socketOf s = some k ↔ session k = s

def callSession : ServiceCall → Option Session
  | .saveBroadcastingSession session | .removeBroadcastingSession session
  | .handleLogBroadcastingRequest session _ _ _ _ => some session
  | .handleReceivedLogData _ _ _ => none

/-- How the service reads a request: it throws, or gets null or a request. -/
abbrev RequestReader := Text → Option (Option LogBroadcastingRequest)

/-- `JSON.stringify` of a string. -/
def stringifyText (t : Text) : Text := '"' :: (t.flatMap quoteEscape ++ ['"'])

/-- The request that a socket sends when it has been opened. -/
def stringify (selectedHosts selectedPrograms : List Text) : Text :=
  "\x7b\"hosts\":[".toList ++ [','].intercalate (selectedHosts.map stringifyText) ++
    "],\"programs\":[".toList ++ [','].intercalate (selectedPrograms.map stringifyText) ++
    "],\"subscriptionState\":\"INITIAL\"\x7d".toList

example : stringify [['a'], ['b']] [['"']] =
    "\x7b\"hosts\":[\"a\",\"b\"],\"programs\":[\"\\\"\"],\"subscriptionState\":\"INITIAL\"\x7d".toList := by decide

/-- The text that an output prints. -/
def printOutput (localTime : LocalTime) : Output → Terminal PUnit
  | .message response => Web.onmessage localTime response
  | .closed none => println "WEBSOCKET: Connection was closed".toList
  | .closed (some (code, reason)) => println ("WEBSOCKET: Connection was closed with unsuccessful code [".toList ++
      decimal code ++ "] and reason [".toList ++ reason ++ "]".toList)
  | .error => println "WEBSOCKET: Error has occurred".toList

/-- The lines of a terminal. -/
def screen (localTime : LocalTime) (outputs : List Output) : List Text :=
  outputs.foldl (fun printed output => (printOutput localTime output printed).2) []

/-- The successful responses to a session. -/
def responsesTo (session : Session) (events : List Event) : List LogBroadcastingResponse :=
  events.filterMap fun
    | .send session' response succeeded => if session' = session ∧ succeeded then some response else none
    | .close _ => none

namespace TerminalPage

-- the text of an element, `toLowerCase`, and the readValue
variable (innerText toLowerCase : Text → Text) (sessions : PageSessions) (readValue : RequestReader)

/-- The button that selects all has the classes of an option. -/
def getSelectedValues (dropdown : MultiSelect) : List Text :=
  ((if dropdown.allSelected then ["Select all".toList] else []) ++
    (dropdown.optionElements.filter OptionElement.selected).map OptionElement.text).map innerText

def closed : ReadyState → ReadyState
  | .CONNECTING | .OPEN => .CLOSING
  | state => state

/-- Nothing is closed before the first socket is there. -/
def closeSocket (s : TerminalPage) : TerminalPage :=
  { s with sockets := s.sockets.modify (s.sockets.length - 1) fun socket =>
      { socket with readyState := closed socket.readyState } }

/-- The callback of the new terminal comes later. -/
def setupHterm (s : TerminalPage) : TerminalPage :=
  { s with terminals := s.terminals ++ [[]], notReady := s.notReady ++ [s.terminals.length] }

def getLatestLogs (s : TerminalPage) : TerminalPage :=
  let selectedHosts := getSelectedValues innerText s.hosts
  let selectedPrograms := getSelectedValues innerText s.programs
  if selectedHosts ≠ [] ∧ selectedPrograms ≠ [] then
    { s with sockets := s.sockets ++ [⟨selectedHosts, selectedPrograms, .CONNECTING, false, [], []⟩] }
  else s

def handleMultiSelectAction (s : TerminalPage) : TerminalPage :=
  getLatestLogs innerText (setupHterm (closeSocket { s with handled := [] }))

/-- An action on a dropdown, with the effect of a dropdown on the page. A click that the limit
of the dropdown forbids calls no handler. -/
def actOn (dropdown : MultiSelect) (set : MultiSelect → TerminalPage) : UserAction → Option TerminalPage
  | .click i => (MultiSelect.click .defaults dropdown i).map fun (dropdown, selected) =>
    match selected with
    | none => set dropdown
    | some _ => handleMultiSelectAction innerText (set dropdown)
  | action => (MultiSelect.step .defaults toLowerCase dropdown action).map set

/-- Without a terminal that is ready the handler throws. -/
def print (s : TerminalPage) (output : Output) : TerminalPage :=
  match s.terminalIO with
  | none => s
  | some j => { s with terminals := s.terminals.modify j (· ++ [output]) }

/-- One call of the service; what it sends sets out to the page. -/
def serve (s : TerminalPage) (call : ServiceCall) : TerminalPage :=
  let (service, events) := s.service.call readValue call
  { s with
    service := service
    sockets := s.sockets.mapIdx fun k socket =>
      { socket with toPage := socket.toPage ++ responsesTo (sessions.session k) events } }

def step (s : TerminalPage) : PageAction → Option TerminalPage
  | .hosts action => actOn innerText toLowerCase s.hosts (fun hosts => { s with hosts := hosts }) action
  | .programs action => actOn innerText toLowerCase s.programs (fun programs => { s with programs := programs }) action
  | .onTerminalReady => match s.notReady with
    | [] => none
    | j :: notReady => some { s with terminalIO := some j, notReady := notReady }
  | .onopen k => match s.sockets[k]? with
    | some socket =>
      if socket.readyState = .CONNECTING ∧ socket.opened then
        some { s with sockets := s.sockets.set k { socket with
          readyState := .OPEN
          toServer := socket.toServer ++ [stringify socket.selectedHosts socket.selectedPrograms] } }
      else none
    | none => none
  | .onmessage k => match s.sockets[k]? with
    | some socket => match socket.toPage with
      | [] => none
      | response :: toPage =>
        let s := { s with sockets := s.sockets.set k { socket with toPage := toPage } }
        -- a socket that is not open drops its messages
        if socket.readyState = .OPEN then some (print { s with handled := s.handled ++ [response] } (.message response))
        else some s
    | none => none
  | .onclose k failure => match s.sockets[k]? with
    | some socket =>
      if socket.readyState = .CLOSED then none
      else some (print { s with sockets := s.sockets.set k { socket with readyState := .CLOSED } } (.closed failure))
    | none => none
  | .onerror k => match s.sockets[k]? with
    | some socket => if socket.readyState = .CLOSED then none else some (print s .error)
    | none => none
  | .serverOpen k => match s.sockets[k]? with
    | some socket =>
      if socket.opened then none
      else some (serve sessions readValue { s with sockets := s.sockets.set k { socket with opened := true } }
        (.saveBroadcastingSession (sessions.session k)))
    | none => none
  | .serverText k order sends errorId => match s.sockets[k]? with
    | some socket => match socket.toServer with
      | [] => none
      | requestText :: toServer =>
        some (serve sessions readValue { s with sockets := s.sockets.set k { socket with toServer := toServer } }
          (.handleLogBroadcastingRequest (sessions.session k) requestText order sends errorId))
    | none => none
  | .serverClose k => match s.sockets[k]? with
    | some _ => some (serve sessions readValue s (.removeBroadcastingSession (sessions.session k)))
    | none => none
  -- a received log, or the session of another page
  | .other call =>
    if (callSession call).bind sessions.socketOf = none then some (serve sessions readValue s call) else none

/-- An action on a dropdown only changes the dropdown, or it is a click that is handled. -/
theorem actOn_cases {innerText toLowerCase : Text → Text} {dropdown : MultiSelect} {set : MultiSelect → TerminalPage}
    {a : UserAction} {t : TerminalPage} (h : actOn innerText toLowerCase dropdown set a = some t) :
    (∃ dropdown', t = set dropdown') ∨
      ∃ i dropdown', a = .click i ∧ t = handleMultiSelectAction innerText (set dropdown') := by
  have hother : (MultiSelect.step .defaults toLowerCase dropdown a).map set = some t → ∃ dropdown', t = set dropdown' := by
    intro h
    obtain ⟨dropdown', -, heq⟩ := Option.map_eq_some_iff.mp h
    exact ⟨dropdown', heq.symm⟩
  cases a with
  | click i =>
    obtain ⟨⟨dropdown', selected⟩, -, heq⟩ := Option.map_eq_some_iff.mp h
    cases selected with
    | none => exact .inl ⟨dropdown', heq.symm⟩
    | some selected => exact .inr ⟨i, dropdown', rfl, heq.symm⟩
  | search => exact .inl (hother h)
  | header => exact .inl (hother h)
  | outside => exact .inl (hother h)
  | selectAll => exact .inl (hother h)

/-- The ways through a step, with what each of them has checked. -/
inductive StepCase (s : TerminalPage) : PageAction → TerminalPage → Prop where
  | hosts {action : UserAction} {t : TerminalPage}
    (hact : actOn innerText toLowerCase s.hosts (fun hosts => { s with hosts := hosts }) action = some t) :
    StepCase s (.hosts action) t
  | programs {action : UserAction} {t : TerminalPage}
    (hact : actOn innerText toLowerCase s.programs (fun programs => { s with programs := programs }) action = some t) :
    StepCase s (.programs action) t
  | ready {j : Nat} {notReady : List Nat} (hnot : s.notReady = j :: notReady) :
    StepCase s .onTerminalReady { s with terminalIO := some j, notReady := notReady }
  | opens {k : Nat} {socket : PageSocket} (hsocket : s.sockets[k]? = some socket)
    (hconnecting : socket.readyState = .CONNECTING) (hopened : socket.opened = true) :
    StepCase s (.onopen k) { s with sockets := s.sockets.set k { socket with
      readyState := .OPEN
      toServer := socket.toServer ++ [stringify socket.selectedHosts socket.selectedPrograms] } }
  | message {k : Nat} {socket : PageSocket} {response : LogBroadcastingResponse} {toPage : List LogBroadcastingResponse}
    (hsocket : s.sockets[k]? = some socket) (hpage : socket.toPage = response :: toPage) (hopen : socket.readyState = .OPEN) :
    StepCase s (.onmessage k) (print { s with
      sockets := s.sockets.set k { socket with toPage := toPage }
      handled := s.handled ++ [response] } (.message response))
  | drops {k : Nat} {socket : PageSocket} {response : LogBroadcastingResponse} {toPage : List LogBroadcastingResponse}
    (hsocket : s.sockets[k]? = some socket) (hpage : socket.toPage = response :: toPage) (hclosed : socket.readyState ≠ .OPEN) :
    StepCase s (.onmessage k) { s with sockets := s.sockets.set k { socket with toPage := toPage } }
  | closes {k : Nat} {failure : Option (Nat × Text)} {socket : PageSocket} (hsocket : s.sockets[k]? = some socket)
    (hnot : socket.readyState ≠ .CLOSED) :
    StepCase s (.onclose k failure)
      (print { s with sockets := s.sockets.set k { socket with readyState := .CLOSED } } (.closed failure))
  | fails {k : Nat} {socket : PageSocket} (hsocket : s.sockets[k]? = some socket) (hnot : socket.readyState ≠ .CLOSED) :
    StepCase s (.onerror k) (print s .error)
  | serverOpen {k : Nat} {socket : PageSocket} (hsocket : s.sockets[k]? = some socket) (hnot : socket.opened = false) :
    StepCase s (.serverOpen k) (serve sessions readValue
      { s with sockets := s.sockets.set k { socket with opened := true } } (.saveBroadcastingSession (sessions.session k)))
  | serverText {k : Nat} {order : VisitOrder Text} {sends : Bool × Bool} {errorId : Text} {socket : PageSocket}
    {requestText : Text} {toServer : List Text} (hsocket : s.sockets[k]? = some socket)
    (hserver : socket.toServer = requestText :: toServer) :
    StepCase s (.serverText k order sends errorId) (serve sessions readValue
      { s with sockets := s.sockets.set k { socket with toServer := toServer } }
      (.handleLogBroadcastingRequest (sessions.session k) requestText order sends errorId))
  | serverClose {k : Nat} {socket : PageSocket} (hsocket : s.sockets[k]? = some socket) :
    StepCase s (.serverClose k) (serve sessions readValue s (.removeBroadcastingSession (sessions.session k)))
  | other {call : ServiceCall} (hother : (callSession call).bind sessions.socketOf = none) :
    StepCase s (.other call) (serve sessions readValue s call)

theorem step_cases {innerText toLowerCase : Text → Text} {sessions : PageSessions} {readValue : RequestReader}
    {s t : TerminalPage} {a : PageAction} (h : step innerText toLowerCase sessions readValue s a = some t) :
    StepCase innerText toLowerCase sessions readValue s a t := by
  cases a with
  | hosts action => exact .hosts h
  | programs action => exact .programs h
  | onTerminalReady =>
    simp only [step] at h
    split at h
    · cases h
    · next hnot =>
      obtain rfl := Option.some.inj h
      exact .ready hnot
  | onopen k =>
    simp only [step] at h
    split at h
    · next hsocket =>
      split at h
      · next hconnecting =>
        obtain rfl := Option.some.inj h
        exact .opens hsocket hconnecting.1 hconnecting.2
      · cases h
    · cases h
  | onmessage k =>
    simp only [step] at h
    split at h
    · next hsocket =>
      split at h
      · cases h
      · next hpage =>
        split at h
        · next hopen =>
          obtain rfl := Option.some.inj h
          exact .message hsocket hpage hopen
        · next hclosed =>
          obtain rfl := Option.some.inj h
          exact .drops hsocket hpage hclosed
    · cases h
  | onclose k failure =>
    simp only [step] at h
    split at h
    · next hsocket =>
      split at h
      · cases h
      · next hnot =>
        obtain rfl := Option.some.inj h
        exact .closes hsocket hnot
    · cases h
  | onerror k =>
    simp only [step] at h
    split at h
    · next hsocket =>
      split at h
      · cases h
      · next hnot =>
        obtain rfl := Option.some.inj h
        exact .fails hsocket hnot
    · cases h
  | serverOpen k =>
    simp only [step] at h
    split at h
    · next hsocket =>
      split at h
      · cases h
      · next hnot =>
        obtain rfl := Option.some.inj h
        exact .serverOpen hsocket (Bool.eq_false_of_not_eq_true hnot)
    · cases h
  | serverText k order sends errorId =>
    simp only [step] at h
    split at h
    · next hsocket =>
      split at h
      · cases h
      · next hserver =>
        obtain rfl := Option.some.inj h
        exact .serverText hsocket hserver
    · cases h
  | serverClose k =>
    simp only [step] at h
    split at h
    · next hsocket =>
      obtain rfl := Option.some.inj h
      exact .serverClose hsocket
    · cases h
  | other call =>
    simp only [step] at h
    split at h
    · next hother =>
      obtain rfl := Option.some.inj h
      exact .other hother
    · cases h

/-- The page when it has been loaded. -/
def initial (hosts programs : List DataItem) (programLogStorageCapacity : ℕ+) : TerminalPage :=
  setupHterm ⟨.new .defaults hosts, .new .defaults programs, [], [], [], none, .new programLogStorageCapacity, []⟩

end TerminalPage
end Srvlog.Web
