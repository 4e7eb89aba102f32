import Srvlog.Web.ReadyTerminals

/-! Which logs have to be shown for a selection: the history, and from then on every log that
is received of the selected hosts and programs. -/
namespace Srvlog.Web
open Library Data Broadcasting

/-- The log that the service receives by an action. -/
def PageAction.receivedLog : PageAction → Option LogData
  | .other call => Broadcasting.receivedLog call
  | _ => none

namespace TerminalPage

/-- The response that a log is broadcast with. -/
def broadcastResponse (logData : LogData) : LogBroadcastingResponse := ⟨true, [logData], none⟩

section calls
variable {readValue : RequestReader} {service : LogBroadcastingService}
  {session : Session} {hosts programs : List (Option Text)} {c : ServiceCall}

theorem broadcastLog_eq (hosts programs : List (Option Text)) (c : ServiceCall) :
    broadcastLog hosts programs c = (Broadcasting.receivedLog c).filter (asksFor hosts programs) := by
  cases c with
  | handleReceivedLogData logData order sent =>
    rw [Broadcasting.receivedLog, Option.filter_some]
    rfl
  | saveBroadcastingSession | removeBroadcastingSession | handleLogBroadcastingRequest => rfl

/-- The call does not concern the session, or its send to it succeeds. -/
def Spares (session : Session) : ServiceCall → Prop
  | .handleReceivedLogData _ _ sent => sent session = true
  | call => callSession call ≠ some session

theorem callSession_of_spares (h : Spares session c) : callSession c ≠ some session := by
  cases c with
  | handleReceivedLogData => exact (Option.some_ne_none _).symm
  | saveBroadcastingSession | removeBroadcastingSession | handleLogBroadcastingRequest => exact h

theorem session_of_request (order : VisitOrder Text) (sends : Bool × Bool) (errorId requestText : Text) :
    ∀ e ∈ (handleLogBroadcastingRequest readValue order sends errorId service session requestText).2,
      e.session = session := by
  unfold handleLogBroadcastingRequest
  cases requestOutcome readValue order service session requestText with
  | ignored | thrown => simp [Event.session]
  | incorrectParameters => cases sends.1 <;> simp [Event.session]
  | history hosts programs logDataList =>
    cases sends.1 with
    | false => simp [Event.session]
    | true => cases service.subscriptionStorage.lookup session <;> simp [Event.session]

theorem responsesTo_filter (session : Session) (events : List Event) :
    responsesTo session (events.filter fun e => decide (e.session = session)) = responsesTo session events := by
  unfold responsesTo
  rw [List.filterMap_filter]
  refine List.filterMap_congr fun e _ => ?_
  cases e with
  | close => exact ite_self _
  | send session' response succeeded =>
    by_cases hsame : session' = session
    · simp [Event.session, hsame]
    · simp [Event.session, hsame]

/-- A session that makes no call gets a response for each log that is broadcast to it. -/
theorem responsesTo_of_other (readValue : RequestReader) (hc : callSession c ≠ some session) :
    responsesTo session (service.call readValue c).2 =
      (nextLogs session (service.subscriptionStorage.lookup session) c).map broadcastResponse := by
  cases c with
  | saveBroadcastingSession | removeBroadcastingSession => rfl
  | handleLogBroadcastingRequest other requestText order sends errorId =>
    rw [← responsesTo_filter, List.filter_eq_nil_iff.mpr]
    · rfl
    · intro e he hsame
      exact hc (congrArg some ((session_of_request order sends errorId requestText e he).symm.trans
        (of_decide_eq_true hsame)))
  | handleReceivedLogData logData order sent =>
    cases hhost : logData.host with
    | none => simp only [LogBroadcastingService.call, handleReceivedLogData, nextLogs, hhost]; rfl
    | some host =>
      cases hprogram : logData.program with
      | none => simp only [LogBroadcastingService.call, handleReceivedLogData, nextLogs, hhost, hprogram]; rfl
      | some program =>
        simp only [LogBroadcastingService.call, handleReceivedLogData, nextLogs, hhost, hprogram]
        rw [← responsesTo_filter, events_broadcast]
        cases service.subscriptionStorage.lookup session with
        | none => rfl
        | some s =>
          rw [Option.toList_some, List.flatMap_singleton, broadcastEvents, Option.any_some]
          cases s.isBroadcastCandidateFor host program <;> cases sent session <;> simp [responsesTo, broadcastResponse]

/-- Before its request is answered it gets none. -/
theorem silent_of_other (readValue : RequestReader) (hc : callSession c ≠ some session)
    (h : ∀ s, service.subscriptionStorage.lookup session = some s → s = Subscription.initialState) :
    responsesTo session (service.call readValue c).2 = [] := by
  obtain ⟨-, hlogs⟩ := call_eq (@sentHistory_of_other readValue service session c hc)
  rw [(call_of_other readValue hc h).2] at hlogs
  rw [responsesTo_of_other readValue hc, ← hlogs]
  rfl

/-- An online session gets each log that is received and that its lists ask for. -/
theorem call_online (readValue : RequestReader) (hc : Spares session c)
    (hon : service.subscriptionStorage.lookup session = some ⟨hosts, programs, .ONLINE_BROADCASTING⟩) :
    (service.call readValue c).1.subscriptionStorage.lookup session = some ⟨hosts, programs, .ONLINE_BROADCASTING⟩ ∧
      responsesTo session (service.call readValue c).2 =
        ((Broadcasting.receivedLog c).filter (asksFor hosts programs)).toList.map broadcastResponse := by
  have hstays : staysOnline session hosts programs c = true := by
    cases c with
    | saveBroadcastingSession | removeBroadcastingSession =>
      exact decide_eq_true fun hsame => hc (congrArg some hsame)
    | handleLogBroadcastingRequest => rfl
    | handleReceivedLogData logData order sent =>
      rw [staysOnline, Bool.or_eq_true_iff]
      exact .inr hc
  have hnone : sentHistory readValue service session c = none := sentHistory_of_other (callSession_of_spares hc)
  obtain ⟨hnext, hnow⟩ := next_of_staysOnline hstays
  rw [(call_eq hnone).1, responsesTo_of_other readValue (callSession_of_spares hc), hon, ← broadcastLog_eq, hnow]
  exact ⟨hnext, rfl⟩

/-- The request of a saved session is answered with the history, and the session is online. -/
theorem call_request (order : VisitOrder Text) {sends : Bool × Bool} (errorId : Text) {capacity : ℕ+} {logs : List LogData}
    {requestText : Text} {s : Subscription} (hsaved : service.subscriptionStorage.lookup session = some s)
    (hread : readValue requestText = some (some ⟨some hosts, some programs, some "INITIAL".toList⟩))
    (hhosts : hosts ≠ []) (hprograms : programs ≠ []) (hstored : Stored capacity service.logStorage logs)
    (hdates : ∀ x ∈ logs, x.date ≠ none) (hsends : sends.1 = true) :
    let after := service.call readValue (.handleLogBroadcastingRequest session requestText order sends errorId)
    after.1.subscriptionStorage.lookup session = some ⟨hosts, programs, .ONLINE_BROADCASTING⟩ ∧
      ∃ history, responsesTo session after.2 = [⟨true, history, none⟩] ∧
        history.Perm (retainedOf capacity logs hosts programs) ∧ history.Pairwise (dateLe LogData.date) := by
  have hquery := query_of_dates hstored hdates order hosts programs
  have houtcome : requestOutcome readValue order service session requestText = .history hosts programs
      ((collected order service.logStorage hosts programs).insertionSort (dateLe LogData.date)) := by
    have hstate : (some "INITIAL".toList).bind SubscriptionState.valueOf = some .INITIAL := rfl
    unfold requestOutcome
    rw [hread]
    dsimp only
    rw [hstate]
    unfold historyOutcome
    dsimp only
    rw [if_neg hhosts, if_neg hprograms, hquery]
  have hcall : service.call readValue (.handleLogBroadcastingRequest session requestText order sends errorId) =
      ({ service with subscriptionStorage :=
          service.subscriptionStorage.insert session ⟨hosts, programs, .ONLINE_BROADCASTING⟩ },
        [.send session ⟨true, (collected order service.logStorage hosts programs).insertionSort (dateLe LogData.date), none⟩
          true]) := by
    unfold LogBroadcastingService.call handleLogBroadcastingRequest
    dsimp only
    rw [houtcome, hsends, hsaved]
    rfl
  dsimp only
  rw [hcall]
  refine ⟨AList.lookup_insert _, _, ?_, query_spec hstored hquery⟩
  exact congrArg Option.toList (if_pos ⟨rfl, rfl⟩)

end calls
/-- Nothing else is selected, the socket is not closed, and every send to it succeeds. -/
def Keeps (session : Session) (k : Nat) : PageAction → Prop
  | .onclose j _ | .serverClose j => j ≠ k
  | .serverText j _ sends _ => j = k → sends.1 = true
  | .other (.handleReceivedLogData _ _ sent) => sent session = true
  | a => ¬ Selects a

variable {innerText toLowerCase : Text → Text} {sessions : PageSessions} {readValue : RequestReader}
  {hostData programData : List DataItem}

section sockets
variable {s t : TerminalPage} {k : Nat} {socket socket' : PageSocket} {a : PageAction}

/-- What a step does to a socket that is kept and to the messages, its own being the only ones
that are handled. -/
inductive SocketStep (sessions : PageSessions) (readValue : RequestReader) (s : TerminalPage) (k : Nat) (socket : PageSocket)
    (t : TerminalPage) : PageAction → PageSocket → Prop where
  | rest {a : PageAction} (hreceived : a.receivedLog = none) (hservice : t.service = s.service)
    (hhandled : t.handled = s.handled) : SocketStep sessions readValue s k socket t a socket
  | opens (hconnecting : socket.readyState = .CONNECTING) (hopened : socket.opened = true)
    (hservice : t.service = s.service) (hhandled : t.handled = s.handled) :
    SocketStep sessions readValue s k socket t (.onopen k) { socket with
      readyState := .OPEN
      toServer := socket.toServer ++ [stringify socket.selectedHosts socket.selectedPrograms] }
  | takes {response : LogBroadcastingResponse} {toPage : List LogBroadcastingResponse}
    (hpage : socket.toPage = response :: toPage) (hservice : t.service = s.service)
    (hhandled : t.handled = s.handled ++ [response]) :
    SocketStep sessions readValue s k socket t (.onmessage k) { socket with toPage := toPage }
  | drops {response : LogBroadcastingResponse} {toPage : List LogBroadcastingResponse}
    (hpage : socket.toPage = response :: toPage) (hclosed : socket.readyState ≠ .OPEN)
    (hservice : t.service = s.service) (hhandled : t.handled = s.handled) :
    SocketStep sessions readValue s k socket t (.onmessage k) { socket with toPage := toPage }
  | serves {a : PageAction} {call : ServiceCall} (hspares : Spares (sessions.session k) call)
    (hreceived : a.receivedLog = Broadcasting.receivedLog call)
    (hservice : t.service = (s.service.call readValue call).1) (hhandled : t.handled = s.handled) :
    SocketStep sessions readValue s k socket t a { socket with
      toPage := socket.toPage ++ responsesTo (sessions.session k) (s.service.call readValue call).2 }
  | saves (hnot : socket.opened = false)
    (hservice : t.service = saveBroadcastingSession s.service (sessions.session k) Subscription.initialState)
    (hhandled : t.handled = s.handled) :
    SocketStep sessions readValue s k socket t (.serverOpen k) { socket with opened := true }
  | answers {order : VisitOrder Text} {sends : Bool × Bool} {errorId requestText : Text} {toServer : List Text}
    (hserver : socket.toServer = requestText :: toServer)
    (hservice : t.service = (s.service.call readValue
      (.handleLogBroadcastingRequest (sessions.session k) requestText order sends errorId)).1)
    (hhandled : t.handled = s.handled) :
    SocketStep sessions readValue s k socket t (.serverText k order sends errorId) { socket with
      toServer := toServer
      toPage := socket.toPage ++ responsesTo (sessions.session k) (s.service.call readValue
        (.handleLogBroadcastingRequest (sessions.session k) requestText order sends errorId)).2 }

theorem print_keeps (s : TerminalPage) (output : Output) : (print s output).sockets = s.sockets ∧
    (print s output).service = s.service ∧ (print s output).handled = s.handled := by
  unfold print
  split
  · exact ⟨rfl, rfl, rfl⟩
  · exact ⟨rfl, rfl, rfl⟩

/-- The user's other actions on a dropdown stay with the dropdown. -/
theorem actOn_keeps {dropdown : MultiSelect} {set : MultiSelect → TerminalPage} {action : UserAction}
    (h : actOn innerText toLowerCase dropdown set action = some t) (hquiet : ∀ i, action ≠ .click i)
    (hset : ∀ dropdown', (set dropdown').sockets = s.sockets ∧ (set dropdown').service = s.service ∧
      (set dropdown').handled = s.handled) :
    t.sockets = s.sockets ∧ t.service = s.service ∧ t.handled = s.handled := by
  rcases actOn_cases h with ⟨dropdown', rfl⟩ | ⟨i, -, hclick, -⟩
  · exact hset dropdown'
  · exact absurd hclick (hquiet i)

theorem serve_socket (hsocket : s.sockets[k]? = some socket) (call : ServiceCall) :
    (serve sessions readValue s call).sockets[k]? = some { socket with
      toPage := socket.toPage ++ responsesTo (sessions.session k) (s.service.call readValue call).2 } := by
  unfold serve
  rw [List.getElem?_mapIdx, hsocket]
  rfl

theorem set_other {j : Nat} {socket' other : PageSocket} (hj : s.sockets[j]? = some socket') (hne : j ≠ k)
    (hsocket : s.sockets[k]? = some socket) : (s.sockets.set j other)[k]? = some socket := by
  rw [getElem?_set_of_some hj, if_neg hne]
  exact hsocket

theorem set_self {other : PageSocket} (hsocket : s.sockets[k]? = some socket) :
    (s.sockets.set k other)[k]? = some other := by
  rw [getElem?_set_of_some hsocket, if_pos rfl]

/-- The session of another socket is another session. -/
theorem session_ne {j : Nat} (hne : j ≠ k) : some (sessions.session j) ≠ some (sessions.session k) :=
  fun hsame => hne (session_injective (Option.some.inj hsame))

theorem socketStep (hs : Invariant innerText sessions hostData programData s)
    (hsocket : s.sockets[k]? = some socket) (hactive : socket.readyState = .CONNECTING ∨ socket.readyState = .OPEN)
    (hkeeps : Keeps (sessions.session k) k a) (h : step innerText toLowerCase sessions readValue s a = some t) :
    ∃ socket', t.sockets[k]? = some socket' ∧ SocketStep sessions readValue s k socket t a socket' := by
  cases step_cases h with
  | @hosts action _ hact =>
    have hquiet : ∀ i, action ≠ .click i := by
      rintro i rfl
      exact hkeeps trivial
    obtain ⟨hsockets, hservice, hhandled⟩ := actOn_keeps (s := s) hact hquiet fun _ => ⟨rfl, rfl, rfl⟩
    exact ⟨socket, hsockets ▸ hsocket, .rest rfl hservice hhandled⟩
  | @programs action _ hact =>
    have hquiet : ∀ i, action ≠ .click i := by
      rintro i rfl
      exact hkeeps trivial
    obtain ⟨hsockets, hservice, hhandled⟩ := actOn_keeps (s := s) hact hquiet fun _ => ⟨rfl, rfl, rfl⟩
    exact ⟨socket, hsockets ▸ hsocket, .rest rfl hservice hhandled⟩
  | ready => exact ⟨socket, hsocket, .rest rfl rfl rfl⟩
  | @opens j socket' hsocket' hconnecting hopened =>
    by_cases hj : j = k
    · obtain rfl := hj
      obtain rfl := Option.some.inj (hsocket.symm.trans hsocket')
      exact ⟨_, set_self hsocket, .opens hconnecting hopened rfl rfl⟩
    · exact ⟨socket, set_other hsocket' hj hsocket, .rest rfl rfl rfl⟩
  | @message j socket' response toPage hsocket' hpage hopen =>
    -- only the last socket is open, and that is the one that is kept
    have hlast := (hs.current j socket' hsocket' (.inr hopen)).1
    have hlast' := (hs.current k socket hsocket hactive).1
    obtain rfl : j = k := Nat.succ.inj (hlast.trans hlast'.symm)
    obtain rfl := Option.some.inj (hsocket.symm.trans hsocket')
    obtain ⟨hsockets, hservice, hhandled⟩ := print_keeps { s with
      sockets := s.sockets.set j { socket with toPage := toPage }
      handled := s.handled ++ [response] } (.message response)
    refine ⟨_, ?_, .takes hpage hservice hhandled⟩
    rw [hsockets]
    exact set_self hsocket
  | @drops j socket' response toPage hsocket' hpage hclosed =>
    by_cases hj : j = k
    · obtain rfl := hj
      obtain rfl := Option.some.inj (hsocket.symm.trans hsocket')
      exact ⟨_, set_self hsocket, .drops hpage hclosed rfl rfl⟩
    · exact ⟨socket, set_other hsocket' hj hsocket, .rest rfl rfl rfl⟩
  | @closes j failure socket' hsocket' hnot =>
    obtain ⟨hsockets, hservice, hhandled⟩ := print_keeps
      { s with sockets := s.sockets.set j { socket' with readyState := .CLOSED } } (.closed failure)
    refine ⟨socket, ?_, .rest rfl hservice hhandled⟩
    rw [hsockets]
    exact set_other hsocket' hkeeps hsocket
  | fails =>
    obtain ⟨hsockets, hservice, hhandled⟩ := print_keeps s .error
    exact ⟨socket, hsockets ▸ hsocket, .rest rfl hservice hhandled⟩
  | @serverOpen j socket' hsocket' hnot =>
    by_cases hj : j = k
    · obtain rfl := hj
      obtain rfl := Option.some.inj (hsocket.symm.trans hsocket')
      refine ⟨{ socket with opened := true }, ?_, .saves hnot rfl rfl⟩
      have hset : ({ s with sockets := s.sockets.set j { socket with opened := true } } : TerminalPage).sockets[j]? =
          some { socket with opened := true } := set_self hsocket
      rw [serve_socket hset]
      exact congrArg some (congrArg _ (List.append_nil _))
    · exact ⟨_, serve_socket (set_other hsocket' hj hsocket) _, .serves (session_ne hj) rfl rfl rfl⟩
  | @serverText j order sends errorId socket' requestText toServer hsocket' hserver =>
    by_cases hj : j = k
    · obtain rfl := hj
      obtain rfl := Option.some.inj (hsocket.symm.trans hsocket')
      have hset : ({ s with sockets := s.sockets.set j { socket with toServer := toServer } } : TerminalPage).sockets[j]? =
          some { socket with toServer := toServer } := set_self hsocket
      exact ⟨_, serve_socket hset _, .answers hserver rfl rfl⟩
    · exact ⟨_, serve_socket (set_other hsocket' hj hsocket) _, .serves (session_ne hj) rfl rfl rfl⟩
  | @serverClose j socket' hsocket' =>
    exact ⟨_, serve_socket hsocket _, .serves (session_ne hkeeps) rfl rfl rfl⟩
  | @other call hother =>
    refine ⟨_, serve_socket hsocket call, .serves ?_ rfl rfl rfl⟩
    cases call with
    | handleReceivedLogData => exact hkeeps
    | saveBroadcastingSession | removeBroadcastingSession | handleLogBroadcastingRequest => exact callSession_ne hother k

end sockets
/-- The responses that the page has handled for the selection, and those on their way to it. -/
def responsesOf (s : TerminalPage) (socket : PageSocket) : List LogBroadcastingResponse := s.handled ++ socket.toPage

theorem responsesOf_served {s t : TerminalPage} (h : t.handled = s.handled) (socket : PageSocket)
    (responses : List LogBroadcastingResponse) :
    responsesOf t { socket with toPage := socket.toPage ++ responses } = responsesOf s socket ++ responses := by
  unfold responsesOf
  rw [h, ← List.append_assoc]

/-- The request of the socket has not been served yet. -/
structure Asking (sessions : PageSessions) (k : Nat) (s : TerminalPage) (socket : PageSocket) :
    Prop where
  request : socket.readyState = .CONNECTING ∧ socket.toServer = [] ∨
    socket.readyState = .OPEN ∧ socket.opened = true ∧
      socket.toServer = [stringify socket.selectedHosts socket.selectedPrograms]
  saved : s.service.subscriptionStorage.lookup (sessions.session k) =
    if socket.opened then some Subscription.initialState else none
  silent : responsesOf s socket = []

def Answered (socket : PageSocket) : Prop :=
  socket.readyState = .OPEN ∧ socket.opened = true ∧ socket.toServer = []

/-- The request has been served, and the session is subscribed with the lists. -/
structure Online (sessions : PageSessions) (k : Nat) (hosts programs : List (Option Text)) (s : TerminalPage)
    (socket : PageSocket) : Prop where
  answered : Answered socket
  subscribed : s.service.subscriptionStorage.lookup (sessions.session k) = some ⟨hosts, programs, .ONLINE_BROADCASTING⟩

section stages
variable {s t : TerminalPage} {k : Nat} {socket socket' : PageSocket} {a : PageAction}
  {hosts programs : List (Option Text)}

theorem SocketStep.lists (h : SocketStep sessions readValue s k socket t a socket') :
    socket'.selectedHosts = socket.selectedHosts ∧ socket'.selectedPrograms = socket.selectedPrograms := by
  cases h with
  | rest | opens | takes | drops | serves | saves | answers => exact ⟨rfl, rfl⟩

theorem Asking.active (h : Asking sessions k s socket) :
    socket.readyState = .CONNECTING ∨ socket.readyState = .OPEN := h.request.imp And.left And.left

theorem Asking.initial (h : Asking sessions k s socket) {subscription : Subscription}
    (hlookup : s.service.subscriptionStorage.lookup (sessions.session k) = some subscription) :
    subscription = Subscription.initialState := by
  rw [h.saved] at hlookup
  split at hlookup
  · exact (Option.some.inj hlookup).symm
  · cases hlookup

theorem Answered.step (hs : Answered socket) (h : SocketStep sessions readValue s k socket t a socket') :
    Answered socket' := by
  obtain ⟨hopen, hopened, hnone⟩ := hs
  cases h with
  | rest | takes | drops | serves => exact ⟨hopen, hopened, hnone⟩
  | saves => exact ⟨hopen, rfl, hnone⟩
  | opens hconnecting =>
    rw [hopen] at hconnecting
    cases hconnecting
  | answers hserver =>
    rw [hnone] at hserver
    cases hserver

/-- Until its request is served the socket gets nothing. -/
theorem Asking.step (hs : Asking sessions k s socket)
    (h : SocketStep sessions readValue s k socket t a socket') :
    Asking sessions k t socket' ∨ Answered socket' := by
  obtain ⟨hrequest, hsaved, hsilent⟩ := hs
  have hnothing : socket.toPage = [] := (List.append_eq_nil_iff.mp hsilent).2
  cases h with
  | rest _ hservice hhandled =>
    refine .inl ⟨hrequest, hservice ▸ hsaved, ?_⟩
    unfold responsesOf
    rw [hhandled]
    exact hsilent
  | opens hconnecting hopened hservice hhandled =>
    have hempty : socket.toServer = [] := by
      rcases hrequest with ⟨-, hempty⟩ | ⟨hopen, -⟩
      · exact hempty
      · rw [hconnecting] at hopen
        cases hopen
    refine .inl ⟨.inr ⟨rfl, hopened, ?_⟩, hservice ▸ hsaved, ?_⟩
    · dsimp only
      rw [hempty, List.nil_append]
    · unfold responsesOf
      rw [hhandled]
      exact hsilent
  | takes hpage | drops hpage =>
    rw [hnothing] at hpage
    cases hpage
  | @serves _ call hspares _ hservice hhandled =>
    have hinitial : ∀ s', s.service.subscriptionStorage.lookup (sessions.session k) = some s' →
        s' = Subscription.initialState := fun _ hsome => Asking.initial ⟨hrequest, hsaved, hsilent⟩ hsome
    refine .inl ⟨hrequest, ?_, ?_⟩
    · rw [hservice, (call_of_other readValue (callSession_of_spares hspares) hinitial).1]
      exact hsaved
    · rw [responsesOf_served hhandled, hsilent, silent_of_other readValue (callSession_of_spares hspares) hinitial]
      rfl
  | saves hnot hservice hhandled =>
    refine .inl ⟨hrequest.imp_right fun h => ⟨h.1, rfl, h.2.2⟩, ?_, ?_⟩
    · rw [hservice]
      exact AList.lookup_insert _
    · unfold responsesOf
      rw [hhandled]
      exact hsilent
  | answers hserver =>
    right
    rcases hrequest with ⟨-, hempty⟩ | ⟨hopen, hopened, hone⟩
    · rw [hempty] at hserver
      cases hserver
    · rw [hone] at hserver
      exact ⟨hopen, hopened, (List.cons.inj hserver).2.symm⟩

/-- From then on it gets each log that is received and asked for, and loses none. -/
theorem Online.step (hs : Online sessions k hosts programs s socket)
    (h : SocketStep sessions readValue s k socket t a socket') :
    Online sessions k hosts programs t socket' ∧ responsesOf t socket' =
      responsesOf s socket ++ (a.receivedLog.filter (asksFor hosts programs)).toList.map broadcastResponse := by
  obtain ⟨hanswered, hsubscribed⟩ := hs
  have hanswered' := hanswered.step h
  cases h with
  | rest hreceived hservice hhandled =>
    refine ⟨⟨hanswered', hservice ▸ hsubscribed⟩, ?_⟩
    unfold responsesOf
    rw [hhandled, hreceived]
    exact (List.append_nil _).symm
  | opens hconnecting =>
    rw [hanswered.1] at hconnecting
    cases hconnecting
  | @takes response toPage hpage hservice hhandled =>
    refine ⟨⟨hanswered', hservice ▸ hsubscribed⟩, ?_⟩
    unfold responsesOf
    rw [hhandled, hpage, List.append_assoc]
    exact (List.append_nil _).symm
  | drops _ hclosed => exact absurd hanswered.1 hclosed
  | @serves _ call hspares hreceived hservice hhandled =>
    obtain ⟨hlookup, hresponses⟩ := call_online readValue hspares hsubscribed
    refine ⟨⟨hanswered', hservice ▸ hlookup⟩, ?_⟩
    rw [responsesOf_served hhandled, hreceived, hresponses]
  | saves hnot =>
    rw [hanswered.2.1] at hnot
    cases hnot
  | answers hserver =>
    rw [hanswered.2.2] at hserver
    cases hserver

end stages
section runs
variable {s t : TerminalPage} {k : Nat} {hosts programs : List Text}

theorem service_handle (s : TerminalPage) : (handleMultiSelectAction innerText s).service = s.service := by
  unfold handleMultiSelectAction getLatestLogs
  dsimp only
  split
  · rfl
  · rfl

/-- A selection does not reach the service at once. -/
theorem service_actOn {dropdown : MultiSelect} {set : MultiSelect → TerminalPage} {action : UserAction}
    (h : actOn innerText toLowerCase dropdown set action = some t) (hset : ∀ dropdown', (set dropdown').service = s.service) :
    t.service = s.service := by
  rcases actOn_cases h with ⟨dropdown', rfl⟩ | ⟨-, dropdown', -, rfl⟩
  · exact hset dropdown'
  · exact (service_handle _).trans (hset dropdown')

/-- The storages of the service follow the logs that it receives. -/
theorem stored_step {capacity : ℕ+} {logs : List LogData} {a : PageAction}
    (hs : s.service.programLogStorageCapacity = capacity ∧ Stored capacity s.service.logStorage logs)
    (h : step innerText toLowerCase sessions readValue s a = some t) :
    t.service.programLogStorageCapacity = capacity ∧ Stored capacity t.service.logStorage (logs ++ a.receivedLog.toList) := by
  have hquiet : t.service = s.service → a.receivedLog = none →
      t.service.programLogStorageCapacity = capacity ∧ Stored capacity t.service.logStorage (logs ++ a.receivedLog.toList) := by
    intro hservice hnone
    rw [hservice, hnone, Option.toList_none, List.append_nil]
    exact hs
  have hcall : ∀ call, t.service = (s.service.call readValue call).1 →
      a.receivedLog = Broadcasting.receivedLog call →
      t.service.programLogStorageCapacity = capacity ∧ Stored capacity t.service.logStorage (logs ++ a.receivedLog.toList) := by
    intro call hservice hreceived
    rw [hservice, hreceived]
    refine ⟨(call_logStorage readValue s.service call).2.trans hs.1, ?_⟩
    have hrun := stored_run readValue hs.1 hs.2 [call]
    rw [List.filterMap_cons] at hrun
    cases hlog : Broadcasting.receivedLog call with
    | none =>
      rw [hlog] at hrun
      exact hrun
    | some logData =>
      rw [hlog] at hrun
      exact hrun
  cases step_cases h with
  | hosts hact => exact hquiet (service_actOn (s := s) hact fun _ => rfl) rfl
  | programs hact => exact hquiet (service_actOn (s := s) hact fun _ => rfl) rfl
  | ready | opens | drops => exact hquiet rfl rfl
  | message | closes | fails => exact hquiet (print_keeps _ _).2.1 rfl
  | serverOpen => exact hcall (.saveBroadcastingSession _) rfl rfl
  | serverText => exact hcall (.handleLogBroadcastingRequest _ _ _ _ _) rfl rfl
  | serverClose => exact hcall (.removeBroadcastingSession _) rfl rfl
  | @other call => exact hcall call rfl rfl

theorem stored_page {capacity : ℕ+} {as : List PageAction}
    (h : Run (step innerText toLowerCase sessions readValue) (initial hostData programData capacity) as s) :
    Stored capacity s.service.logStorage (as.filterMap PageAction.receivedLog) := by
  have hempty : (initial hostData programData capacity).service.programLogStorageCapacity = capacity ∧
      Stored capacity (initial hostData programData capacity).service.logStorage [] := ⟨rfl, stored_empty capacity⟩
  have hrun := h.collected (R := fun s logs => s.service.programLogStorageCapacity = capacity ∧
    Stored capacity s.service.logStorage logs) (fun _ _ => trivial) (fun _ _ _ _ hs _ ha => stored_step hs ha) hempty
  rw [List.nil_append, ← List.filterMap_eq_flatMap_toList] at hrun
  exact hrun.2

end runs

section selection
variable {r s t : TerminalPage} {k : Nat} {socket : PageSocket} {hosts programs : List (Option Text)}

theorem new_of_handle (h : (handleMultiSelectAction innerText r).sockets.length = r.sockets.length + 1) :
    let s := handleMultiSelectAction innerText r
    s.handled = [] ∧ s.displayed = [] ∧ s.service = r.service ∧ s.sockets[r.sockets.length]? =
      some ⟨s.selectedHosts innerText, s.selectedPrograms innerText, .CONNECTING, false, [], []⟩ := by
  have hlength : (closeSocket { r with handled := [] }).sockets.length = r.sockets.length := List.length_modify ..
  unfold handleMultiSelectAction getLatestLogs at h ⊢
  dsimp only at h ⊢
  split at h
  · next hsome =>
    rw [if_pos hsome]
    refine ⟨rfl, ?_, rfl, ?_⟩
    · unfold displayed setupHterm
      rw [List.getLast?_append]
      rfl
    · rw [← hlength]
      exact List.getElem?_concat_length
  · exact absurd (hlength.symm.trans h) (Nat.ne_of_lt (Nat.lt_succ_self _))

theorem new_of_actOn {dropdown : MultiSelect} {set : MultiSelect → TerminalPage} {action : UserAction}
    (h : actOn innerText toLowerCase dropdown set action = some s) (hlength : s.sockets.length = r.sockets.length + 1)
    (hset : ∀ dropdown', (set dropdown').sockets = r.sockets ∧ (set dropdown').service = r.service) :
    s.handled = [] ∧ s.displayed = [] ∧ s.service = r.service ∧ s.sockets[r.sockets.length]? =
      some ⟨s.selectedHosts innerText, s.selectedPrograms innerText, .CONNECTING, false, [], []⟩ := by
  rcases actOn_cases h with ⟨dropdown', rfl⟩ | ⟨-, dropdown', -, rfl⟩
  · rw [(hset dropdown').1] at hlength
    exact absurd hlength (Nat.ne_of_lt (Nat.lt_succ_self _))
  · rw [← (hset dropdown').1] at hlength ⊢
    rw [← (hset dropdown').2]
    exact new_of_handle hlength

/-- Only a selection makes a socket, and with it a terminal begins. -/
theorem new_of_step {a : PageAction} (h : step innerText toLowerCase sessions readValue r a = some s)
    (hlength : s.sockets.length = r.sockets.length + 1) :
    s.handled = [] ∧ s.displayed = [] ∧ s.service = r.service ∧ s.sockets[r.sockets.length]? =
      some ⟨s.selectedHosts innerText, s.selectedPrograms innerText, .CONNECTING, false, [], []⟩ := by
  have hnone : s.sockets.length = r.sockets.length → False := fun hsame =>
    absurd (hsame.symm.trans hlength) (Nat.ne_of_lt (Nat.lt_succ_self _))
  cases step_cases h with
  | hosts hact => exact new_of_actOn hact hlength fun _ => ⟨rfl, rfl⟩
  | programs hact => exact new_of_actOn hact hlength fun _ => ⟨rfl, rfl⟩
  | ready => exact (hnone rfl).elim
  | opens | drops => exact (hnone List.length_set).elim
  | message | closes =>
    rw [(print_keeps _ _).1] at hnone
    exact (hnone List.length_set).elim
  | fails =>
    rw [(print_keeps _ _).1] at hnone
    exact (hnone rfl).elim
  | serverOpen | serverText => exact (hnone (List.length_mapIdx.trans List.length_set)).elim
  | serverClose | other => exact (hnone List.length_mapIdx).elim

/-- A new socket has not asked yet. -/
theorem asking_of_new (hs : Invariant innerText sessions hostData programData r)
    (hservice : s.service = r.service) (hhandled : s.handled = []) :
    Asking sessions r.sockets.length s
      ⟨s.selectedHosts innerText, s.selectedPrograms innerText, .CONNECTING, false, [], []⟩ := by
  refine ⟨.inl ⟨rfl, rfl⟩, ?_, ?_⟩
  · rw [hservice]
    exact hs.fresh _ (Nat.le_refl _)
  · unfold responsesOf
    rw [hhandled]
    rfl

/-- The actions that come before the request is served. -/
theorem asking_run (hreads : Reads innerText readValue hostData programData)
    (hhosts : (hostData.map DataItem.value).Nodup) (hprograms : (programData.map DataItem.value).Nodup)
    (hs : Invariant innerText sessions hostData programData s) (hsocket : s.sockets[k]? = some socket)
    (hasking : Asking sessions k s socket) {opening : List PageAction}
    (hkeeps : ∀ a ∈ opening, Keeps (sessions.session k) k a)
    (h : Run (step innerText toLowerCase sessions readValue) s opening t) :
    Invariant innerText sessions hostData programData t ∧ ∃ socket', t.sockets[k]? = some socket' ∧
      (socket'.selectedHosts = socket.selectedHosts ∧ socket'.selectedPrograms = socket.selectedPrograms) ∧
      (Asking sessions k t socket' ∨ Answered socket') := by
  refine h.guarded_invariant (I := fun s => Invariant innerText sessions hostData programData s ∧
    ∃ socket', s.sockets[k]? = some socket' ∧
      (socket'.selectedHosts = socket.selectedHosts ∧ socket'.selectedPrograms = socket.selectedPrograms) ∧
      (Asking sessions k s socket' ∨ Answered socket')) (allSteps_of_forall_mem hkeeps s) ?_
    ⟨hs, socket, hsocket, ⟨rfl, rfl⟩, .inl hasking⟩
  rintro s a t ⟨hs, socket', hsocket', hlists, hstage⟩ hkeep ha
  have hactive : socket'.readyState = .CONNECTING ∨ socket'.readyState = .OPEN :=
    hstage.elim Asking.active fun hanswered => .inr hanswered.1
  obtain ⟨socket'', hsocket'', hstep⟩ := socketStep hs hsocket' hactive hkeep ha
  refine ⟨invariant_step hreads hhosts hprograms hs ha, socket'', hsocket'',
    ⟨hstep.lists.1.trans hlists.1, hstep.lists.2.trans hlists.2⟩, ?_⟩
  rcases hstage with hasking | hanswered
  · exact hasking.step hstep
  · exact .inr (hanswered.step hstep)

/-- The request is served: the history is what the service retains of the lists. -/
theorem online_of_serverText (hreads : Reads innerText readValue hostData programData)
    (hs : Invariant innerText sessions hostData programData s) (hsocket : s.sockets[k]? = some socket)
    (hstage : Asking sessions k s socket ∨ Answered socket) {capacity : ℕ+} {logs : List LogData}
    (hstored : Stored capacity s.service.logStorage logs) (hdates : ∀ logData ∈ logs, logData.date ≠ none)
    {order : VisitOrder Text} {sends : Bool × Bool} {errorId : Text} (hsends : sends.1 = true)
    (h : step innerText toLowerCase sessions readValue s (.serverText k order sends errorId) = some t) :
    ∃ socket' history, t.sockets[k]? = some socket' ∧
      Online sessions k (socket.selectedHosts.map some) (socket.selectedPrograms.map some) t socket' ∧
      responsesOf t socket' = [⟨true, history, none⟩] ∧ history.Perm
        (retainedOf capacity logs (socket.selectedHosts.map some) (socket.selectedPrograms.map some)) ∧
      history.Pairwise (dateLe LogData.date) := by
  cases step_cases h with
  | @serverText _ _ _ _ socket' requestText toServer hsocket' hserver =>
    obtain rfl := Option.some.inj (hsocket.symm.trans hsocket')
    have hsent : socket.readyState = .OPEN ∧ socket.opened = true ∧ Asking sessions k s socket ∧
        socket.toServer = [stringify socket.selectedHosts socket.selectedPrograms] := by
      rcases hstage with hasking | ⟨-, -, hempty⟩
      · rcases hasking.request with ⟨-, hempty⟩ | ⟨hopen, hopened, hone⟩
        · rw [hempty] at hserver
          cases hserver
        · exact ⟨hopen, hopened, hasking, hone⟩
      · rw [hempty] at hserver
        cases hserver
    obtain ⟨hopen, hopened, hasking, hone⟩ := hsent
    obtain ⟨rfl, rfl⟩ := List.cons.inj (hserver.symm.trans hone)
    have hok := hs.sockets k socket hsocket
    have hread := hreads _ _ hok.hosts.1 hok.programs.1 hok.hosts.2 hok.programs.2
    have hsaved := hasking.saved
    rw [if_pos hopened] at hsaved
    obtain ⟨hlookup, history, hresponse, hhistory⟩ := call_request order errorId hsaved hread
      (mt List.map_eq_nil_iff.mp hok.hosts.2) (mt List.map_eq_nil_iff.mp hok.programs.2) hstored hdates hsends
    have hset : ({ s with sockets := s.sockets.set k { socket with toServer := [] } } : TerminalPage).sockets[k]? =
        some { socket with toServer := [] } := set_self hsocket
    refine ⟨_, history, serve_socket hset _, ⟨⟨hopen, hopened, rfl⟩, hlookup⟩, ?_, hhistory⟩
    have hhandled : (serve sessions readValue { s with sockets := s.sockets.set k { socket with toServer := [] } }
        (.handleLogBroadcastingRequest (sessions.session k) (stringify socket.selectedHosts
          socket.selectedPrograms) order sends errorId)).handled = s.handled := rfl
    have hsilent : responsesOf s { socket with toServer := [] } = [] := hasking.silent
    rw [responsesOf_served hhandled, hsilent, List.nil_append]
    exact hresponse

/-- From then on what is handled and what is on its way grow by the logs that are received. -/
theorem online_run (hreads : Reads innerText readValue hostData programData)
    (hhosts : (hostData.map DataItem.value).Nodup) (hprograms : (programData.map DataItem.value).Nodup)
    (hs : Invariant innerText sessions hostData programData s) (hsocket : s.sockets[k]? = some socket)
    (honline : Online sessions k hosts programs s socket) {rest : List PageAction}
    (hkeeps : ∀ a ∈ rest, Keeps (sessions.session k) k a)
    (h : Run (step innerText toLowerCase sessions readValue) s rest t) :
    ∃ socket', t.sockets[k]? = some socket' ∧ responsesOf t socket' = responsesOf s socket ++
      ((rest.filterMap PageAction.receivedLog).filter (asksFor hosts programs)).map broadcastResponse := by
  let Holds (s : TerminalPage) (responses : List LogBroadcastingResponse) : Prop :=
    Invariant innerText sessions hostData programData s ∧ ∃ socket', s.sockets[k]? = some socket' ∧
      Online sessions k hosts programs s socket' ∧ responsesOf s socket' = responses
  have hstep : ∀ s a t responses, Holds s responses → Keeps (sessions.session k) k a →
      step innerText toLowerCase sessions readValue s a = some t →
      Holds t (responses ++ (a.receivedLog.filter (asksFor hosts programs)).toList.map broadcastResponse) := by
    rintro s a t _ ⟨hs, socket', hsocket', honline, rfl⟩ hkeep ha
    obtain ⟨socket'', hsocket'', hstep⟩ := socketStep hs hsocket' (.inr honline.answered.1) hkeep ha
    obtain ⟨honline', hresponses⟩ := honline.step hstep
    exact ⟨invariant_step hreads hhosts hprograms hs ha, socket'', hsocket'', honline', hresponses⟩
  have hbegin : Holds s (responsesOf s socket) := ⟨hs, socket, hsocket, honline, rfl⟩
  obtain ⟨-, socket', hsocket', -, hresponses⟩ := h.collected hkeeps hstep hbegin
  rw [← List.map_flatMap, ← List.filterMap_eq_flatMap_toList, ← List.filter_filterMap] at hresponses
  exact ⟨socket', hsocket', hresponses⟩

theorem not_selects_of_keeps {session : Session} {a : PageAction} (h : Keeps session k a) : ¬ Selects a := by
  cases a with
  | hosts | programs => exact h
  | onTerminalReady | onopen | onmessage | onclose | onerror | serverOpen | serverText | serverClose | other => exact id

theorem responseLines_success (localTime : LocalTime) (logDataList : List LogData) :
    responseLines localTime ⟨true, logDataList, none⟩ = logDataList.flatMap (expectedLines localTime) := if_pos rfl

/-- From a selection to the next one the lines in the terminal that can be seen, followed by
those still on their way, are exactly the lines of the history of the selected hosts and
programs and then of every log that is received of them, in order and unbroken, while the
socket stays open, the sends to it succeed, and each message is handled with the terminal ready
and can be printed. -/
theorem all_selected_logs_displayed (localTime : LocalTime) {before opening rest : List PageAction} {a : PageAction}
    {capacity : ℕ+} {order : VisitOrder Text} {sends : Bool × Bool} {errorId : Text}
    (hreads : Reads innerText readValue hostData programData)
    (hhosts : (hostData.map DataItem.value).Nodup) (hprograms : (programData.map DataItem.value).Nodup)
    (hbefore : Run (step innerText toLowerCase sessions readValue) (initial hostData programData capacity) before r)
    (hselect : step innerText toLowerCase sessions readValue r a = some s) (hnew : s.sockets.length = r.sockets.length + 1)
    (h : Run (step innerText toLowerCase sessions readValue) s
      (opening ++ .serverText r.sockets.length order sends errorId :: rest) t)
    (hkeeps : ∀ b ∈ opening ++ .serverText r.sockets.length order sends errorId :: rest,
      Keeps (sessions.session r.sockets.length) r.sockets.length b)
    (hready : AllSteps (step innerText toLowerCase sessions readValue) ShownWhenHandled s
      (opening ++ .serverText r.sockets.length order sends errorId :: rest))
    (hdates : ∀ logData ∈ (before ++ a :: opening).filterMap PageAction.receivedLog, logData.date ≠ none) :
    let hosts := (s.selectedHosts innerText).map some
    let programs := (s.selectedPrograms innerText).map some
    ∃ (history : List LogData) (socket : PageSocket), t.sockets[r.sockets.length]? = some socket ∧
      messageLines localTime t.displayed ++ socket.toPage.flatMap (responseLines localTime) =
        (history ++ (rest.filterMap PageAction.receivedLog).filter (asksFor hosts programs)).flatMap
          (expectedLines localTime) ∧
      (∀ line ∈ messageLines localTime t.displayed, Unbroken line) ∧
      history.Perm (retainedOf capacity ((before ++ a :: opening).filterMap PageAction.receivedLog) hosts programs) ∧
      history.Pairwise (dateLe LogData.date) := by
  dsimp only
  obtain ⟨hhandled, hempty, hservice, hsocket⟩ := new_of_step hselect hnew
  have hinvariant := invariant_run hreads hhosts hprograms hbefore
  have hselected := invariant_step hreads hhosts hprograms hinvariant hselect
  have hshows : t.ShowsHandled localTime :=
    (showsHandled_iff localTime (ordered_step (ordered_run hbefore) hselect) ⟨hhandled, hempty⟩ h
      fun b hb => not_selects_of_keeps (hkeeps b hb)).mpr hready
  obtain ⟨hkeepsOpening, hkeepsRest⟩ := List.forall_mem_append.mp hkeeps
  obtain ⟨hsends, hkeepsRest⟩ := List.forall_mem_cons.mp hkeepsRest
  obtain ⟨u, hopening, hrest⟩ := h.split
  cases hrest with
  | @cons _ v _ _ _ hserve hrest =>
    -- the socket asks until the service takes its request, then it is online
    obtain ⟨hu, asking, hasking, ⟨hlists, hlists'⟩, hstage⟩ := asking_run hreads hhosts hprograms hselected hsocket
      (asking_of_new hinvariant hservice hhandled) hkeepsOpening hopening
    have hstored := stored_page (hbefore.append (.cons hselect hopening))
    obtain ⟨online, history, honlineSocket, honline, hhistory, hperm, hsorted⟩ :=
      online_of_serverText hreads hu hasking hstage hstored hdates (hsends rfl) hserve
    have hv := invariant_step hreads hhosts hprograms hu hserve
    obtain ⟨socket, hsocket', hresponses⟩ := online_run hreads hhosts hprograms hv honlineSocket honline hkeepsRest hrest
    rw [hlists, hlists'] at hperm hresponses
    refine ⟨history, socket, hsocket', ?_, hshows.2, hperm, hsorted⟩
    have hlines := congrArg (List.flatMap (responseLines localTime)) hresponses
    rw [hhistory, responsesOf, List.flatMap_append, List.flatMap_append, List.flatMap_singleton, List.flatMap_map] at hlines
    rw [hshows.1, List.flatMap_append]
    refine hlines.trans (congrArg₂ _ (responseLines_success localTime history) (List.flatMap_congr fun logData _ => ?_))
    exact (responseLines_success localTime [logData]).trans (List.flatMap_singleton _ _)

/-- The second host is selected, and the page opens its socket when the terminal is ready. -/
def openingActions : List PageAction := [.onTerminalReady, .serverOpen 1, .onopen 1]

/-- After the history logs of both hosts are received, one of them for another program. The
last one stays on its way. -/
def laterActions : List PageAction :=
  [.onmessage 1, .other (.handleReceivedLogData (logAt 2 ['b'] ['p']) .stored fun _ => true),
    .other (.handleReceivedLogData (logAt 3 ['b'] ['q']) .stored fun _ => true), .onmessage 1,
    .other (.handleReceivedLogData (logAt 4 ['a'] ['p']) .stored fun _ => true)]

def shownLines : List Text :=
  ["1970-01-01 00:00:00 0ms [a] [p] opened".toList, "1970-01-01 00:00:00 1ms [b] [p] opened".toList,
    "1970-01-01 00:00:00 2ms [b] [p] opened".toList]

theorem history_and_log_displayed : ∃ s t : TerminalPage, messageLines swedishTime t.displayed = shownLines ∧
    ∃ (history : List LogData) (socket : PageSocket), t.sockets[1]? = some socket ∧
      messageLines swedishTime t.displayed ++ socket.toPage.flatMap (responseLines swedishTime) =
        (history ++ (laterActions.filterMap PageAction.receivedLog).filter
          (asksFor ((s.selectedHosts id).map some) ((s.selectedPrograms id).map some))).flatMap (expectedLines swedishTime) ∧
      (∀ line ∈ messageLines swedishTime t.displayed, Unbroken line) ∧
      history.Perm (retainedOf 2 [logAt 0 ['a'] ['p'], logAt 1 ['b'] ['p']] ((s.selectedHosts id).map some)
        ((s.selectedPrograms id).map some)) ∧
      history.Pairwise (dateLe LogData.date) := by
  have hrun : ∃ r s t : TerminalPage, exec (step id id ownSessions sampleReader) samplePage firstSelection = some r ∧
      step id id ownSessions sampleReader r (.hosts (.click 1)) = some s ∧ r.sockets.length = 1 ∧ s.sockets.length = 2 ∧
      exec (step id id ownSessions sampleReader) s
        (openingActions ++ .serverText 1 .stored (true, true) [] :: laterActions) = some t ∧
      s.handled = [] ∧ s.displayed = [] ∧ t.handledLines swedishTime = shownLines ∧
      messageLines swedishTime t.displayed = shownLines := ⟨_, _, _, rfl, rfl, rfl, rfl, rfl, rfl, rfl, rfl, rfl⟩
  obtain ⟨r, s, t, hr, hs, hone, htwo, ht, hhandled, hempty, hlines, hshown⟩ := hrun
  have hbefore := exec_eq_some_iff.mp hr
  have hafter := exec_eq_some_iff.mp ht
  have hquiet : ∀ b ∈ openingActions ++ .serverText 1 .stored (true, true) [] :: laterActions, ¬ Selects b := by
    simp [openingActions, laterActions, Selects]
  have hunbroken : ∀ line ∈ shownLines, Unbroken line := by
    unfold Unbroken
    decide
  have hready := (showsHandled_iff swedishTime (ordered_step (ordered_run hbefore) hs) ⟨hhandled, hempty⟩ hafter hquiet).mp
    ⟨hshown.trans hlines.symm, hshown ▸ hunbroken⟩
  have hcomplete := @all_selected_logs_displayed id id ownSessions sampleReader (dataOfChoices sampleHosts)
    (dataOfChoices samplePrograms) r s t swedishTime firstSelection openingActions laterActions (.hosts (.click 1)) 2 .stored
    (true, true) [] sampleReader_reads (nodup_dataOfChoices _) (nodup_dataOfChoices _) hbefore hs
    (htwo.trans (congrArg Nat.succ hone).symm)
  rw [hone] at hcomplete
  exact ⟨s, t, hshown, hcomplete hafter (by simp [openingActions, laterActions, Keeps, Selects]) hready
    (by simp [firstSelection, openingActions, PageAction.receivedLog, Broadcasting.receivedLog, logAt])⟩

end selection

end TerminalPage
end Srvlog.Web
