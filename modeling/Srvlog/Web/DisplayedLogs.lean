import Mathlib.Data.List.Sublists
import Srvlog.Library.Components
import Srvlog.Web.TerminalOutput
import Srvlog.Web.TerminalPage

/-! What the terminal that can be seen shows, over every interleaving of the user, the page,
its sockets and the service. -/
namespace Srvlog.Web
open Library Data Broadcasting

namespace TerminalPage
variable {innerText toLowerCase : Text → Text} {sessions : PageSessions} {readValue : RequestReader}
  {hostData programData : List DataItem}

/-- Jackson reads the requests that the page can send. -/
def Reads (innerText : Text → Text) (readValue : RequestReader) (hostData programData : List DataItem) : Prop :=
  ∀ hosts programs, hosts.Sublist (hostData.map fun item => innerText item.content) →
    programs.Sublist (programData.map fun item => innerText item.content) → hosts ≠ [] → programs ≠ [] →
    readValue (stringify hosts programs) =
      some (some ⟨some (hosts.map some), some (programs.map some), some "INITIAL".toList⟩)

/-- The logs that an output shows are asked for by the selected hosts and programs. -/
def AskedFor (hosts programs : List Text) : Output → Prop
  | .message response => ∀ logData ∈ response.logDataList, asksFor (hosts.map some) (programs.map some) logData = true
  | .closed _ | .error => True

/-- What is on its way between a socket and the service has to do with the lists of the socket. -/
structure SocketOk (innerText : Text → Text) (hostData programData : List DataItem)
    (socket : PageSocket) : Prop where
  hosts : socket.selectedHosts.Sublist (hostData.map fun item => innerText item.content) ∧ socket.selectedHosts ≠ []
  programs : socket.selectedPrograms.Sublist (programData.map fun item => innerText item.content) ∧
    socket.selectedPrograms ≠ []
  toServer : ∀ requestText ∈ socket.toServer,
    requestText = stringify socket.selectedHosts socket.selectedPrograms
  toPage : ∀ response ∈ socket.toPage, AskedFor socket.selectedHosts socket.selectedPrograms (.message response)

/-- The dropdown is one that the user of a page can come to. -/
def DropdownOk (data : List DataItem) (dropdown : MultiSelect) : Prop :=
  (∃ chosen, MultiSelect.Shows .defaults (MultiSelect.itemsOf data) dropdown chosen) ∧ dropdown.allSelected = false

def displayed (s : TerminalPage) : List Output := s.terminals.getLast?.getD []

def selectedHosts (innerText : Text → Text) (s : TerminalPage) : List Text := getSelectedValues innerText s.hosts
def selectedPrograms (innerText : Text → Text) (s : TerminalPage) : List Text := getSelectedValues innerText s.programs

structure Invariant (innerText : Text → Text) (sessions : PageSessions)
    (hostData programData : List DataItem) (s : TerminalPage) : Prop where
  hosts : DropdownOk hostData s.hosts
  programs : DropdownOk programData s.programs
  sockets : ∀ (k : Nat) socket, s.sockets[k]? = some socket → SocketOk innerText hostData programData socket
  stored : ∃ logs, Stored s.service.programLogStorageCapacity s.service.logStorage logs
  subscribed : ∀ k socket, s.sockets[k]? = some socket → SubscribedTo s.service (sessions.session k)
    (socket.selectedHosts.map some) (socket.selectedPrograms.map some)
  fresh : ∀ k, s.sockets.length ≤ k → s.service.subscriptionStorage.lookup (sessions.session k) = none
  -- only the socket created last can be open, and what is selected has not changed since
  current : ∀ k socket, s.sockets[k]? = some socket → socket.readyState = .CONNECTING ∨ socket.readyState = .OPEN →
    k + 1 = s.sockets.length ∧ socket.selectedHosts = s.selectedHosts innerText ∧
      socket.selectedPrograms = s.selectedPrograms innerText
  shown : ∀ output ∈ s.displayed, AskedFor (s.selectedHosts innerText) (s.selectedPrograms innerText) output

section dropdowns
variable {data : List DataItem} {dropdown dropdown' : MultiSelect}

theorem dropdownOk_new (hdata : (data.map DataItem.value).Nodup) : DropdownOk data (.new .defaults data) :=
  ⟨⟨_, MultiSelect.shows_new hdata⟩, rfl⟩

theorem dropdownOk_step (hdata : (data.map DataItem.value).Nodup) (h : DropdownOk data dropdown) {a : UserAction}
    (hstep : MultiSelect.step .defaults toLowerCase dropdown a = some dropdown') : DropdownOk data dropdown' := by
  obtain ⟨⟨chosen, hshows⟩, hall⟩ := h
  have hitems : ((MultiSelect.itemsOf data).map Prod.fst).Nodup := by
    unfold MultiSelect.itemsOf
    rw [List.map_map]
    exact hdata
  obtain ⟨hshows', hall'⟩ := @MultiSelect.shows_step _ _ _ _ _ ⟨chosen, false⟩ a hitems hshows hall hstep
  refine ⟨⟨_, hshows'⟩, hall'.trans ?_⟩
  cases a with
  | selectAll => cases hstep
  | click | search | header | outside => rfl

/-- What is selected is a part of what can be selected. -/
theorem getSelectedValues_sublist (h : DropdownOk data dropdown) :
    (getSelectedValues innerText dropdown).Sublist (data.map fun item => innerText item.content) := by
  obtain ⟨⟨chosen, hshows⟩, hall⟩ := h
  have htexts : dropdown.optionElements.map (fun option => innerText option.text) =
      data.map fun item => innerText item.content := by
    have helements := congrArg (List.map fun p : Text × Text × Bool => innerText p.2.1) hshows.optionElements
    unfold MultiSelect.itemsOf at helements
    rw [List.map_map, List.map_map, List.map_map] at helements
    exact helements
  unfold getSelectedValues
  rw [hall, if_neg Bool.false_ne_true, List.nil_append, List.map_map, ← htexts]
  exact List.filter_sublist.map _

/-- Only a click changes what is selected. -/
theorem getSelectedValues_of_step {a : UserAction} (ha : ∀ i, a ≠ .click i)
    (h : MultiSelect.step .defaults toLowerCase dropdown a = some dropdown') :
    getSelectedValues innerText dropdown' = getSelectedValues innerText dropdown := by
  cases a with
  | click i => exact absurd rfl (ha i)
  | search text =>
    obtain rfl := Option.some.inj h
    unfold getSelectedValues
    rw [List.filter_map, List.map_map]
    rfl
  | header | outside =>
    obtain rfl := Option.some.inj h
    rfl
  | selectAll => cases h

end dropdowns

section sockets
variable {s : TerminalPage}

/-- A socket goes on with the lists that it was made with. -/
theorem invariant_set (hs : Invariant innerText sessions hostData programData s) {k : Nat}
    {socket socket' : PageSocket} (hk : s.sockets[k]? = some socket)
    (hlists : socket'.selectedHosts = socket.selectedHosts ∧ socket'.selectedPrograms = socket.selectedPrograms)
    (hok : SocketOk innerText hostData programData socket')
    (hstate : socket'.readyState = .CONNECTING ∨ socket'.readyState = .OPEN →
      socket.readyState = .CONNECTING ∨ socket.readyState = .OPEN) :
    Invariant innerText sessions hostData programData { s with sockets := s.sockets.set k socket' } := by
  obtain ⟨hhosts, hprograms⟩ := hlists
  refine ⟨hs.hosts, hs.programs, fun j other hj => ?_, hs.stored, fun j other hj => ?_, fun j hj => ?_,
    fun j other hj hopen => ?_, hs.shown⟩
  · rw [getElem?_set_of_some hk] at hj
    split at hj
    · exact Option.some.inj hj ▸ hok
    · exact hs.sockets j other hj
  · rw [getElem?_set_of_some hk] at hj
    split at hj
    · next heq =>
      obtain rfl := Option.some.inj hj
      rw [hhosts, hprograms]
      exact hs.subscribed j socket (heq ▸ hk)
    · exact hs.subscribed j other hj
  · rw [List.length_set] at hj
    exact hs.fresh j hj
  · rw [getElem?_set_of_some hk] at hj
    rw [List.length_set]
    split at hj
    · next heq =>
      obtain rfl := Option.some.inj hj
      rw [hhosts, hprograms]
      exact hs.current j socket (heq ▸ hk) (hstate hopen)
    · exact hs.current j other hj hopen

theorem displayed_print (s : TerminalPage) (output : Output) :
    (print s output).displayed = s.displayed ∨ (print s output).displayed = s.displayed ++ [output] := by
  unfold print
  cases hio : s.terminalIO with
  | none => exact .inl rfl
  | some j =>
    dsimp only
    unfold displayed
    rw [List.getLast?_eq_getElem?, List.getLast?_eq_getElem?, List.getElem?_modify, List.length_modify]
    cases hlast : s.terminals[s.terminals.length - 1]? with
    | none => exact .inl rfl
    | some outputs =>
      by_cases hj : j = s.terminals.length - 1
      · right
        simp [hj]
      · left
        simp [hj]

theorem invariant_print (hs : Invariant innerText sessions hostData programData s) {output : Output}
    (h : AskedFor (s.selectedHosts innerText) (s.selectedPrograms innerText) output) :
    Invariant innerText sessions hostData programData (print s output) := by
  have hshown : ∀ shown ∈ (print s output).displayed,
      AskedFor (s.selectedHosts innerText) (s.selectedPrograms innerText) shown := by
    rcases displayed_print s output with heq | heq
    · rw [heq]
      exact hs.shown
    · rw [heq]
      exact List.forall_mem_append.mpr ⟨hs.shown, List.forall_mem_singleton.mpr h⟩
  unfold print at hshown ⊢
  cases hio : s.terminalIO with
  | none => exact hs
  | some j =>
    rw [hio] at hshown
    exact ⟨hs.hosts, hs.programs, hs.sockets, hs.stored, hs.subscribed, hs.fresh, hs.current, hshown⟩

end sockets

section service
variable {s : TerminalPage}

theorem mem_deliveredTo {session : Session} {events : List Event} {response : LogBroadcastingResponse}
    (h : response ∈ responsesTo session events) {logData : LogData} (hlog : logData ∈ response.logDataList) :
    logData ∈ deliveredTo session events := by
  obtain ⟨event, hevent, hresponse⟩ := List.mem_filterMap.mp h
  refine List.mem_flatMap.mpr ⟨event, hevent, ?_⟩
  cases event with
  | close => cases hresponse
  | send session' response' succeeded =>
    dsimp only at hresponse
    split at hresponse
    · next hsent =>
      obtain rfl := Option.some.inj hresponse
      change logData ∈ if session' = session ∧ succeeded = true then response'.logDataList else []
      rw [if_pos hsent]
      exact hlog
    · cases hresponse

theorem sentHistory_of_other {readValue : RequestReader} {service : LogBroadcastingService}
    {session : Session} {c : ServiceCall} (hc : callSession c ≠ some session) :
    sentHistory readValue service session c = none := by
  cases c with
  | saveBroadcastingSession | removeBroadcastingSession | handleReceivedLogData => rfl
  | handleLogBroadcastingRequest session' requestText order sends errorId =>
    rw [sentHistory, if_neg]
    exact fun hsent => hc (congrArg some hsent.1)

/-- A session that has not asked for logs gets none, and stays as it is unless it is called. -/
theorem call_of_other (readValue : RequestReader) {service : LogBroadcastingService}
    {session : Session} {c : ServiceCall} (hc : callSession c ≠ some session)
    (h : ∀ s, service.subscriptionStorage.lookup session = some s → s = Subscription.initialState) :
    (service.call readValue c).1.subscriptionStorage.lookup session = service.subscriptionStorage.lookup session ∧
      deliveredTo session (service.call readValue c).2 = [] := by
  have hnone : sentHistory readValue service session c = none := sentHistory_of_other hc
  obtain ⟨hlookup, hlogs⟩ := call_eq hnone
  rw [hlookup, hlogs]
  cases c with
  | saveBroadcastingSession session' =>
    rw [nextSubscription, if_neg fun heq => hc (congrArg some heq)]
    exact ⟨rfl, rfl⟩
  | removeBroadcastingSession session' =>
    rw [nextSubscription, if_neg fun heq => hc (congrArg some heq)]
    exact ⟨rfl, rfl⟩
  | handleLogBroadcastingRequest => exact ⟨rfl, rfl⟩
  | handleReceivedLogData logData order sent =>
    rw [nextSubscription, nextLogs]
    split
    · cases hs : service.subscriptionStorage.lookup session with
      | none => exact ⟨rfl, rfl⟩
      | some s =>
        obtain rfl := h s hs
        exact ⟨rfl, rfl⟩
    · exact ⟨rfl, rfl⟩

theorem stored_call {readValue : RequestReader} {service : LogBroadcastingService}
    {c : ServiceCall} (h : ∃ logs, Stored service.programLogStorageCapacity service.logStorage logs) :
    ∃ logs, Stored (service.call readValue c).1.programLogStorageCapacity (service.call readValue c).1.logStorage logs := by
  obtain ⟨logs, h⟩ := h
  rw [(call_logStorage readValue service c).2]
  exact ⟨_, stored_run readValue rfl h [c]⟩

theorem invariant_serve (hs : Invariant innerText sessions hostData programData s) {c : ServiceCall}
    (hrequests : ∀ k socket, s.sockets[k]? = some socket → Requests readValue (sessions.session k)
      (socket.selectedHosts.map some) (socket.selectedPrograms.map some) c)
    (hfresh : ∀ k, s.sockets.length ≤ k → callSession c ≠ some (sessions.session k)) :
    Invariant innerText sessions hostData programData (serve sessions readValue s c) := by
  obtain ⟨logs, hstored⟩ := hs.stored
  let responses (k : Nat) := responsesTo (sessions.session k) (s.service.call readValue c).2
  have hserved : ∀ (k : Nat) socket', (serve sessions readValue s c).sockets[k]? = some socket' → ∃ socket,
      s.sockets[k]? = some socket ∧ socket' = { socket with toPage := socket.toPage ++ responses k } := by
    intro k socket' hk
    unfold serve at hk
    rw [List.getElem?_mapIdx] at hk
    obtain ⟨socket, hsocket, rfl⟩ := Option.map_eq_some_iff.mp hk
    exact ⟨socket, hsocket, rfl⟩
  have hlength : (serve sessions readValue s c).sockets.length = s.sockets.length := List.length_mapIdx
  refine ⟨hs.hosts, hs.programs, fun k socket' hk => ?_, stored_call hs.stored, fun k socket' hk => ?_, fun k hk => ?_,
    fun k socket' hk hopen => ?_, hs.shown⟩
  · obtain ⟨socket, hsocket, rfl⟩ := hserved k socket' hk
    have hok := hs.sockets k socket hsocket
    refine ⟨hok.hosts, hok.programs, hok.toServer, List.forall_mem_append.mpr ⟨hok.toPage, fun response hresponse => ?_⟩⟩
    intro logData hlog
    exact (asked_for_call hstored (hs.subscribed k socket hsocket) (hrequests k socket hsocket)).1 logData
      (mem_deliveredTo hresponse hlog)
  · obtain ⟨socket, hsocket, rfl⟩ := hserved k socket' hk
    exact (asked_for_call hstored (hs.subscribed k socket hsocket) (hrequests k socket hsocket)).2
  · rw [hlength] at hk
    have hfree := hs.fresh k hk
    exact (call_of_other _ (hfresh k hk) fun _ hsome => absurd (hfree.symm.trans hsome) (Option.some_ne_none _).symm).1.trans hfree
  · obtain ⟨socket, hsocket, rfl⟩ := hserved k socket' hk
    rw [hlength]
    exact hs.current k socket hsocket hopen

end service

section selections
variable {s : TerminalPage}

theorem not_open_closed (state : ReadyState) : ¬ (closed state = .CONNECTING ∨ closed state = .OPEN) := by
  cases state with
  | CONNECTING | OPEN | CLOSING | CLOSED => decide

def NoneOpen (s : TerminalPage) : Prop := ∀ (k : Nat) socket, s.sockets[k]? = some socket →
  ¬ (socket.readyState = .CONNECTING ∨ socket.readyState = .OPEN)

/-- The socket of the last selection is closed, so none is open any more. -/
theorem socket_of_closeSocket (hs : Invariant innerText sessions hostData programData s) {k : Nat}
    {socket' : PageSocket} (hk : (closeSocket s).sockets[k]? = some socket') :
    ¬ (socket'.readyState = .CONNECTING ∨ socket'.readyState = .OPEN) ∧ ∃ socket, s.sockets[k]? = some socket ∧
      socket' = { socket with readyState := socket'.readyState } := by
  unfold closeSocket at hk
  rw [List.getElem?_modify] at hk
  obtain ⟨socket, hsocket, rfl⟩ := Option.map_eq_some_iff.mp hk
  split
  · exact ⟨not_open_closed _, socket, hsocket, rfl⟩
  · next hne =>
    refine ⟨fun hopen => ?_, socket, hsocket, rfl⟩
    have hlast := (hs.current k socket hsocket hopen).1
    omega

theorem invariant_closeSocket (hs : Invariant innerText sessions hostData programData s) :
    Invariant innerText sessions hostData programData (closeSocket s) := by
  have hlength : (closeSocket s).sockets.length = s.sockets.length := List.length_modify ..
  refine ⟨hs.hosts, hs.programs, fun k socket' hk => ?_, hs.stored, fun k socket' hk => ?_, fun k hk => ?_,
    fun k socket' hk hopen => absurd hopen (socket_of_closeSocket hs hk).1, hs.shown⟩
  · obtain ⟨-, socket, hsocket, heq⟩ := socket_of_closeSocket hs hk
    have hok := hs.sockets k socket hsocket
    rw [heq]
    exact ⟨hok.hosts, hok.programs, hok.toServer, hok.toPage⟩
  · obtain ⟨-, socket, hsocket, heq⟩ := socket_of_closeSocket hs hk
    rw [heq]
    exact hs.subscribed k socket hsocket
  · exact hs.fresh k (hlength ▸ hk)

/-- With all sockets closed the selection may change, and a new terminal may begin. -/
theorem invariant_setupHterm (hs : Invariant innerText sessions hostData programData s)
    (hclosed : NoneOpen s) {hosts programs : MultiSelect} (hhosts : DropdownOk hostData hosts) (hprograms : DropdownOk programData programs)
    (handled : List LogBroadcastingResponse) :
    Invariant innerText sessions hostData programData (setupHterm { s with hosts, programs, handled }) := by
  refine ⟨hhosts, hprograms, hs.sockets, hs.stored, hs.subscribed, hs.fresh,
    fun k socket hk hopen => absurd hopen (hclosed k socket hk), fun output houtput => ?_⟩
  have hempty : (setupHterm { s with hosts, programs, handled }).displayed = [] := by
    unfold displayed setupHterm
    rw [List.getLast?_append]
    rfl
  rw [hempty] at houtput
  cases houtput

theorem invariant_getLatestLogs (hs : Invariant innerText sessions hostData programData s)
    (hclosed : NoneOpen s) :
    Invariant innerText sessions hostData programData (getLatestLogs innerText s) := by
  unfold getLatestLogs
  dsimp only
  split
  · next hsome =>
    have hnew : SocketOk innerText hostData programData
        ⟨getSelectedValues innerText s.hosts, getSelectedValues innerText s.programs, .CONNECTING, false, [], []⟩ :=
      ⟨⟨getSelectedValues_sublist hs.hosts, hsome.1⟩, ⟨getSelectedValues_sublist hs.programs, hsome.2⟩,
        fun _ h => absurd h List.not_mem_nil, fun _ h => absurd h List.not_mem_nil⟩
    refine ⟨hs.hosts, hs.programs, fun k socket hk => ?_, hs.stored, fun k socket hk => ?_, fun k hk => ?_,
      fun k socket hk hopen => ?_, hs.shown⟩
    · rcases getElem?_append_singleton_cases hk with hold | ⟨-, rfl⟩
      · exact hs.sockets k socket hold
      · exact hnew
    · rcases getElem?_append_singleton_cases hk with hold | ⟨rfl, rfl⟩
      · exact hs.subscribed k socket hold
      · intro subscription hsubscription
        rw [hs.fresh _ (Nat.le_refl _)] at hsubscription
        cases hsubscription
    · rw [List.length_append] at hk
      exact hs.fresh k (Nat.le_of_add_right_le hk)
    · rcases getElem?_append_singleton_cases hk with hold | ⟨rfl, rfl⟩
      · exact absurd hopen (hclosed k socket hold)
      · rw [List.length_append]
        exact ⟨rfl, rfl, rfl⟩
  · exact hs

/-- A change of what is selected begins a new terminal and, unless nothing is left to ask for,
a new socket. -/
theorem invariant_handle (hs : Invariant innerText sessions hostData programData s)
    {hosts programs : MultiSelect} (hhosts : DropdownOk hostData hosts) (hprograms : DropdownOk programData programs) :
    Invariant innerText sessions hostData programData
      (handleMultiSelectAction innerText { s with hosts, programs }) :=
  invariant_getLatestLogs
    (invariant_setupHterm (invariant_closeSocket hs) (fun _ _ hk => (socket_of_closeSocket hs hk).1) hhosts hprograms [])
    fun _ _ hk => (socket_of_closeSocket hs hk).1

/-- A click that calls no handler has changed nothing. -/
theorem eq_of_click_none {options : MultiSelectOptions} {dropdown dropdown' : MultiSelect} {i : Nat}
    (h : MultiSelect.click options dropdown i = some (dropdown', none)) : dropdown' = dropdown := by
  unfold MultiSelect.click at h
  split at h
  · cases h
  split at h
  · obtain ⟨u, -, heq⟩ := Option.map_eq_some_iff.mp h
    cases (Prod.mk.inj heq).2
  split at h
  · exact (Prod.mk.inj (Option.some.inj h)).1.symm
  · obtain ⟨u, -, heq⟩ := Option.map_eq_some_iff.mp h
    cases (Prod.mk.inj heq).2

/-- What the user does to one of the dropdowns. -/
theorem invariant_actOn {data : List DataItem} {dropdown : MultiSelect} {set : MultiSelect → TerminalPage}
    {a : UserAction} {t : TerminalPage} (hdata : (data.map DataItem.value).Nodup) (hdropdown : DropdownOk data dropdown)
    (hset : ∀ dropdown', DropdownOk data dropdown' →
      getSelectedValues innerText dropdown' = getSelectedValues innerText dropdown →
      Invariant innerText sessions hostData programData (set dropdown'))
    (hhandle : ∀ dropdown', DropdownOk data dropdown' →
      Invariant innerText sessions hostData programData (handleMultiSelectAction innerText (set dropdown')))
    (h : actOn innerText toLowerCase dropdown set a = some t) :
    Invariant innerText sessions hostData programData t := by
  have hother : (∀ i, a ≠ .click i) → (MultiSelect.step .defaults toLowerCase dropdown a).map set = some t →
      Invariant innerText sessions hostData programData t := by
    intro ha h
    obtain ⟨dropdown', hstep, rfl⟩ := Option.map_eq_some_iff.mp h
    exact hset dropdown' (dropdownOk_step hdata hdropdown hstep) (getSelectedValues_of_step ha hstep)
  cases a with
  | click i =>
    obtain ⟨⟨dropdown', selected⟩, hclick, rfl⟩ := Option.map_eq_some_iff.mp h
    have hstep : MultiSelect.step .defaults toLowerCase dropdown (.click i) = some dropdown' := by
      rw [MultiSelect.step, hclick]
      rfl
    have hok := dropdownOk_step hdata hdropdown hstep
    cases selected with
    | none => exact hset dropdown' hok (by rw [eq_of_click_none hclick])
    | some selected => exact hhandle dropdown' hok
  | search text => exact hother (by rintro i ⟨⟩) h
  | header => exact hother (by rintro i ⟨⟩) h
  | outside => exact hother (by rintro i ⟨⟩) h
  | selectAll => exact hother (by rintro i ⟨⟩) h

end selections

section runs

theorem session_injective {k j : Nat} (h : sessions.session k = sessions.session j) : k = j :=
  Option.some.inj ((sessions.socketOf_eq_some.mpr h).symm.trans (sessions.socketOf_eq_some.mpr rfl))

variable {s t : TerminalPage}

theorem invariant_initial (hhosts : (hostData.map DataItem.value).Nodup)
    (hprograms : (programData.map DataItem.value).Nodup) (capacity : ℕ+) :
    Invariant innerText sessions hostData programData (initial hostData programData capacity) where
  hosts := dropdownOk_new hhosts
  programs := dropdownOk_new hprograms
  sockets _ _ h := absurd h (Option.some_ne_none _).symm
  stored := ⟨[], stored_empty capacity⟩
  subscribed _ _ h := absurd h (Option.some_ne_none _).symm
  fresh _ _ := rfl
  current _ _ h := absurd h (Option.some_ne_none _).symm
  shown _ h := absurd h List.not_mem_nil

/-- The session of a socket is not that of a later one. -/
theorem own_session_ne {k j : Nat} {socket : PageSocket} (hk : s.sockets[k]? = some socket)
    (hj : s.sockets.length ≤ j) : some (sessions.session k) ≠ some (sessions.session j) := by
  intro hsame
  obtain rfl := session_injective (Option.some.inj hsame)
  exact absurd (List.getElem?_eq_some_iff.mp hk).1 (Nat.not_lt.mpr hj)

/-- The service reads in a request the lists of the socket that it comes from. -/
theorem invariant_serverText (hreads : Reads innerText readValue hostData programData)
    (hs : Invariant innerText sessions hostData programData s) {k : Nat} {socket : PageSocket}
    (hsocket : s.sockets[k]? = some socket) {requestText : Text} {toServer : List Text}
    (hserver : socket.toServer = requestText :: toServer) (order : VisitOrder Text) (sends : Bool × Bool) (errorId : Text) :
    Invariant innerText sessions hostData programData (serve sessions readValue
      { s with sockets := s.sockets.set k { socket with toServer := toServer } }
      (.handleLogBroadcastingRequest (sessions.session k) requestText order sends errorId)) := by
  have hok := hs.sockets k socket hsocket
  have hserver' := hok.toServer
  rw [hserver, List.forall_mem_cons] at hserver'
  have hset : Invariant innerText sessions hostData programData
      { s with sockets := s.sockets.set k { socket with toServer := toServer } } :=
    invariant_set hs hsocket ⟨rfl, rfl⟩ ⟨hok.hosts, hok.programs, hserver'.2, hok.toPage⟩ id
  refine invariant_serve hset (fun j other hj hsame request hread => ?_) fun j hj => ?_
  · obtain rfl := session_injective hsame
    rw [getElem?_set_of_some hsocket, if_pos rfl] at hj
    obtain rfl := Option.some.inj hj
    rw [hserver'.1, hreads _ _ hok.hosts.1 hok.programs.1 hok.hosts.2 hok.programs.2] at hread
    obtain rfl := Option.some.inj (Option.some.inj hread)
    exact ⟨rfl, rfl⟩
  · rw [List.length_set] at hj
    exact own_session_ne hsocket hj

/-- A call for a log or for another page is for none of the sockets. -/
theorem callSession_ne {call : ServiceCall} (hother : (callSession call).bind sessions.socketOf = none) (j : Nat) :
    callSession call ≠ some (sessions.session j) := by
  intro hsame
  rw [hsame, Option.bind_some, sessions.socketOf_eq_some.mpr rfl] at hother
  cases hother

theorem invariant_other (hs : Invariant innerText sessions hostData programData s) {call : ServiceCall}
    (hother : (callSession call).bind sessions.socketOf = none) :
    Invariant innerText sessions hostData programData (serve sessions readValue s call) := by
  refine invariant_serve hs (fun j socket _ => ?_) fun j _ => callSession_ne hother j
  cases call with
  | handleLogBroadcastingRequest session => exact fun hsame => absurd (congrArg some hsame) (callSession_ne hother j)
  | saveBroadcastingSession | removeBroadcastingSession | handleReceivedLogData => trivial

/-- The message that a socket has received first is taken from it. -/
theorem invariant_taken (hs : Invariant innerText sessions hostData programData s) {k : Nat}
    {socket : PageSocket} (hsocket : s.sockets[k]? = some socket) {response : LogBroadcastingResponse}
    {toPage : List LogBroadcastingResponse} (hpage : socket.toPage = response :: toPage) :
    Invariant innerText sessions hostData programData
        { s with sockets := s.sockets.set k { socket with toPage := toPage } } ∧
      AskedFor socket.selectedHosts socket.selectedPrograms (.message response) := by
  have hok := hs.sockets k socket hsocket
  have hpage' := hok.toPage
  rw [hpage, List.forall_mem_cons] at hpage'
  exact ⟨invariant_set hs hsocket ⟨rfl, rfl⟩ ⟨hok.hosts, hok.programs, hok.toServer, hpage'.2⟩ id, hpage'.1⟩

theorem invariant_step (hreads : Reads innerText readValue hostData programData)
    (hhosts : (hostData.map DataItem.value).Nodup) (hprograms : (programData.map DataItem.value).Nodup)
    (hs : Invariant innerText sessions hostData programData s) {a : PageAction}
    (h : step innerText toLowerCase sessions readValue s a = some t) :
    Invariant innerText sessions hostData programData t := by
  cases step_cases h with
  | hosts hact =>
    refine invariant_actOn hhosts hs.hosts (fun dropdown' hok hsame => ?_)
      (fun dropdown' hok => invariant_handle hs hok hs.programs) hact
    refine ⟨hok, hs.programs, hs.sockets, hs.stored, hs.subscribed, hs.fresh, ?_, ?_⟩
    · unfold selectedHosts
      rw [hsame]
      exact hs.current
    · unfold selectedHosts
      rw [hsame]
      exact hs.shown
  | programs hact =>
    refine invariant_actOn hprograms hs.programs (fun dropdown' hok hsame => ?_)
      (fun dropdown' hok => invariant_handle hs hs.hosts hok) hact
    refine ⟨hs.hosts, hok, hs.sockets, hs.stored, hs.subscribed, hs.fresh, ?_, ?_⟩
    · unfold selectedPrograms
      rw [hsame]
      exact hs.current
    · unfold selectedPrograms
      rw [hsame]
      exact hs.shown
  | ready => exact ⟨hs.hosts, hs.programs, hs.sockets, hs.stored, hs.subscribed, hs.fresh, hs.current, hs.shown⟩
  | @opens k socket hsocket hconnecting _ =>
    have hok := hs.sockets k socket hsocket
    refine invariant_set hs hsocket ⟨rfl, rfl⟩ ⟨hok.hosts, hok.programs, ?_, hok.toPage⟩ fun _ => .inl hconnecting
    exact List.forall_mem_append.mpr ⟨hok.toServer, List.forall_mem_singleton.mpr rfl⟩
  | @message k socket _ _ hsocket hpage hopen =>
    obtain ⟨hset, hasked⟩ := invariant_taken hs hsocket hpage
    -- the socket is open, so its lists are what is selected now
    obtain ⟨-, hhosts', hprograms'⟩ := hs.current k socket hsocket (.inr hopen)
    rw [hhosts', hprograms'] at hasked
    refine invariant_print ?_ hasked
    exact ⟨hset.hosts, hset.programs, hset.sockets, hset.stored, hset.subscribed, hset.fresh, hset.current, hset.shown⟩
  | drops hsocket hpage => exact (invariant_taken hs hsocket hpage).1
  | @closes k _ socket hsocket _ =>
    have hok := hs.sockets k socket hsocket
    have hset : Invariant innerText sessions hostData programData
        { s with sockets := s.sockets.set k { socket with readyState := .CLOSED } } := by
      refine invariant_set hs hsocket ⟨rfl, rfl⟩ ⟨hok.hosts, hok.programs, hok.toServer, hok.toPage⟩ ?_
      rintro (hstate | hstate)
      · cases hstate
      · cases hstate
    exact invariant_print hset trivial
  | fails => exact invariant_print hs trivial
  | @serverOpen k socket hsocket _ =>
    have hok := hs.sockets k socket hsocket
    have hset : Invariant innerText sessions hostData programData
        { s with sockets := s.sockets.set k { socket with opened := true } } :=
      invariant_set hs hsocket ⟨rfl, rfl⟩ ⟨hok.hosts, hok.programs, hok.toServer, hok.toPage⟩ id
    refine invariant_serve hset (fun _ _ _ => trivial) fun j hj => ?_
    rw [List.length_set] at hj
    exact own_session_ne hsocket hj
  | serverText hsocket hserver => exact invariant_serverText hreads hs hsocket hserver _ _ _
  | serverClose hsocket => exact invariant_serve hs (fun _ _ _ => trivial) fun j hj => own_session_ne hsocket hj
  | other hother => exact invariant_other hs hother

theorem invariant_run {as : List PageAction} {capacity : ℕ+} (hreads : Reads innerText readValue hostData programData)
    (hhosts : (hostData.map DataItem.value).Nodup) (hprograms : (programData.map DataItem.value).Nodup)
    (h : Run (step innerText toLowerCase sessions readValue) (initial hostData programData capacity) as s) :
    Invariant innerText sessions hostData programData s :=
  h.invariant (fun _ _ _ hs ha => invariant_step hreads hhosts hprograms hs ha)
    (invariant_initial hhosts hprograms capacity)

/-- At every moment the terminal that can be seen shows only logs of the hosts and programs
that are selected at that moment, whatever is on its way for earlier selections. -/
theorem displayed_logs_are_selected {as : List PageAction} {capacity : ℕ+}
    (hreads : Reads innerText readValue hostData programData)
    (hhosts : (hostData.map DataItem.value).Nodup) (hprograms : (programData.map DataItem.value).Nodup)
    (h : Run (step innerText toLowerCase sessions readValue) (initial hostData programData capacity) as s)
    {response : LogBroadcastingResponse} (hshown : .message response ∈ s.displayed) :
    ∀ logData ∈ response.logDataList, asksFor ((s.selectedHosts innerText).map some)
      ((s.selectedPrograms innerText).map some) logData = true :=
  (invariant_run hreads hhosts hprograms h).shown _ hshown

section screen
variable {localTime : LocalTime}

theorem mem_printedLines {items : List LogData} {line : Text} (h : line ∈ printedLines localTime items) :
    ∃ item ∈ items, ∃ message, item.message = some message ∧ line ∈ outputLines localTime item message := by
  induction items with
  | nil => cases h
  | cons item items ih =>
    rw [printedLines] at h
    cases hmessage : item.message with
    | none =>
      rw [hmessage] at h
      cases h
    | some message =>
      rw [hmessage] at h
      rcases List.mem_append.mp h with hfirst | hrest
      · exact ⟨item, List.mem_cons_self, message, hmessage, hfirst⟩
      · obtain ⟨item', hitem', hline⟩ := ih hrest
        exact ⟨item', List.mem_cons_of_mem _ hitem', hline⟩

/-- One step: an output adds a notice of the page, or lines of the logs of a message. -/
theorem mem_printOutput {output : Output} {printed : List Text} {line : Text}
    (h : line ∈ (printOutput localTime output printed).2) :
    line ∈ printed ∨ "WEBSOCKET: ".toList <+: line ∨ ∃ response, output = .message response ∧
      ∃ logData ∈ response.logDataList, ∃ message, logData.message = some message ∧
        line ∈ outputLines localTime logData message := by
  have hnotice : ∀ rest, line ∈ printed ++ ["WEBSOCKET: ".toList ++ rest] →
      line ∈ printed ∨ "WEBSOCKET: ".toList <+: line := by
    intro rest hline
    rcases List.mem_append.mp hline with hearlier | hnew
    · exact .inl hearlier
    · rw [List.mem_singleton.mp hnew]
      exact .inr (List.prefix_append _ _)
  cases output with
  | message response =>
    by_cases hsuccess : response.success = true
    · rw [printOutput, onmessage, if_pos hsuccess, forM_printItem] at h
      rcases List.mem_append.mp h with hearlier | hnew
      · exact .inl hearlier
      · exact .inr (.inr ⟨response, rfl, mem_printedLines hnew⟩)
    · rw [printOutput, onmessage, if_neg hsuccess] at h
      exact (hnotice _ h).imp_right .inl
  | closed failure =>
    cases failure with
    | none => exact (hnotice "Connection was closed".toList h).imp_right .inl
    | some failure => exact (hnotice ("Connection was closed with unsuccessful code [".toList ++
        decimal failure.1 ++ "] and reason [".toList ++ failure.2 ++ "]".toList) h).imp_right .inl
  | error => exact (hnotice "Error has occurred".toList h).imp_right .inl

theorem mem_screen {outputs : List Output} {line : Text} (h : line ∈ screen localTime outputs) :
    "WEBSOCKET: ".toList <+: line ∨ ∃ response, .message response ∈ outputs ∧
      ∃ logData ∈ response.logDataList, ∃ message, logData.message = some message ∧
        line ∈ outputLines localTime logData message := by
  induction outputs using List.reverseRecOn with
  | nil => cases h
  | append_singleton outputs output ih =>
    unfold screen at h ih
    rw [List.foldl_append] at h
    rcases mem_printOutput h with hearlier | hnotice | ⟨response, rfl, hlog⟩
    · refine (ih hearlier).imp_right ?_
      rintro ⟨response, hresponse, hlog⟩
      exact ⟨response, List.mem_append_left _ hresponse, hlog⟩
    · exact .inl hnotice
    · exact .inr ⟨response, List.mem_append_right _ (List.mem_singleton.mpr rfl), hlog⟩

/-- At every moment each line of the terminal that can be seen is a notice of the page, or a
line of a log of the hosts and programs that are selected at that moment. -/
theorem displayed_lines_are_selected {as : List PageAction} {capacity : ℕ+}
    (hreads : Reads innerText readValue hostData programData)
    (hhosts : (hostData.map DataItem.value).Nodup) (hprograms : (programData.map DataItem.value).Nodup)
    (h : Run (step innerText toLowerCase sessions readValue) (initial hostData programData capacity) as s)
    {line : Text} (hline : line ∈ screen localTime s.displayed) :
    "WEBSOCKET: ".toList <+: line ∨ ∃ logData message, logData.message = some message ∧
      line ∈ outputLines localTime logData message ∧ asksFor ((s.selectedHosts innerText).map some)
        ((s.selectedPrograms innerText).map some) logData = true := by
  rcases mem_screen hline with hnotice | ⟨response, hresponse, logData, hlogData, message, hmessage, hlogLine⟩
  · exact .inl hnotice
  · have hshown := (invariant_run hreads hhosts hprograms h).shown _ hresponse
    exact .inr ⟨logData, message, hmessage, hlogLine, hshown logData hlogData⟩

end screen

/-- The names of the sessions of a page that is alone. -/
def ownSessions : PageSessions where
  session k := ⟨k⟩
  socketOf s := some s.number
  socketOf_eq_some {s k} := by
    rw [Option.some.injEq]
    constructor
    · rintro rfl
      rfl
    · rintro rfl
      rfl

/-- A reader of the requests for some of these hosts and programs. It throws for any other text. -/
def readsRequestsFor (hosts programs : List Text) : RequestReader := fun text =>
  ((hosts.sublists.product programs.sublists).find? fun lists => decide (stringify lists.1 lists.2 = text)).map fun lists =>
    some ⟨some (lists.1.map some), some (lists.2.map some), some "INITIAL".toList⟩

def sampleHosts : List Text := [['a'], ['b']]
def samplePrograms : List Text := [['p'], ['q']]

def sampleReader : RequestReader := readsRequestsFor sampleHosts samplePrograms

def samplePage : TerminalPage := initial (dataOfChoices sampleHosts) (dataOfChoices samplePrograms) 2

theorem sampleReader_reads : Reads id sampleReader (dataOfChoices sampleHosts) (dataOfChoices samplePrograms) := by
  intro hosts programs hhosts hprograms _ _
  have hall : ∀ hosts ∈ sampleHosts.sublists, ∀ programs ∈ samplePrograms.sublists,
      sampleReader (stringify hosts programs) =
        some (some ⟨some (hosts.map some), some (programs.map some), some "INITIAL".toList⟩) := by decide
  exact hall hosts (List.mem_sublists.mpr hhosts) programs (List.mem_sublists.mpr hprograms)

/-- Logs of both hosts have been received when the user selects the first one and a program. -/
def firstSelection : List PageAction :=
  [.other (.handleReceivedLogData (logAt 0 ['a'] ['p']) .stored fun _ => true),
    .other (.handleReceivedLogData (logAt 1 ['b'] ['p']) .stored fun _ => true), .hosts (.click 0), .programs (.click 0),
    .onTerminalReady, .onTerminalReady, .onTerminalReady, .serverOpen 0, .onopen 0, .serverText 0 .stored (true, true) [],
    .onmessage 0]

/-- A log of the first host is on its way when the user selects the second host and then takes
back the first one. -/
def secondSelection : List PageAction :=
  [.other (.handleReceivedLogData (logAt 2 ['a'] ['p']) .stored fun _ => true), .hosts (.click 1), .hosts (.click 0),
    .onmessage 0, .onTerminalReady, .onTerminalReady, .serverOpen 2, .onopen 2, .serverText 2 .stored (true, true) [],
    .onmessage 2]

theorem log_of_second_host_displayed : ∃ s, s.displayed = [.message ⟨true, [logAt 1 ['b'] ['p']], none⟩] ∧
    ∀ logData ∈ [logAt 1 ['b'] ['p']],
      asksFor ((selectedHosts id s).map some) ((selectedPrograms id s).map some) logData = true := by
  have hrun : ∃ s, exec (step id id ownSessions sampleReader) samplePage (firstSelection ++ secondSelection) = some s ∧
      s.displayed = [.message ⟨true, [logAt 1 ['b'] ['p']], none⟩] := ⟨_, rfl, rfl⟩
  obtain ⟨s, hs, hdisplayed⟩ := hrun
  refine ⟨s, hdisplayed, ?_⟩
  have hshown : .message ⟨true, [logAt 1 ['b'] ['p']], none⟩ ∈ s.displayed := hdisplayed ▸ List.mem_singleton.mpr rfl
  exact displayed_logs_are_selected sampleReader_reads (nodup_dataOfChoices _) (nodup_dataOfChoices _)
    (exec_eq_some_iff.mp hs) hshown

end runs
end TerminalPage
end Srvlog.Web
