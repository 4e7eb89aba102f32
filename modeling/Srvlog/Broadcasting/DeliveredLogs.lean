import Srvlog.Broadcasting.LogBroadcastingService
import Srvlog.Library.Runs

/-! Which logs a session gets over a run of the broadcasting service. -/
namespace Srvlog.Broadcasting
open Library Data

variable {readValue : Text → Option (Option LogBroadcastingRequest)}

def Event.session : Event → Session
  | .send session _ _ => session
  | .close session => session

/-- The logs that reach a session by an event. -/
def Event.logsFor (session : Session) : Event → List LogData
  | .send session' response succeeded => if session' = session ∧ succeeded then response.logDataList else []
  | .close _ => []

def deliveredTo (session : Session) (events : List Event) : List LogData := events.flatMap (·.logsFor session)

theorem Event.logsFor_of_ne {session : Session} {e : Event} (h : e.session ≠ session) : e.logsFor session = [] := by
  cases e with
  | send _ _ _ => exact if_neg fun he => h he.1
  | close _ => rfl

@[simp] theorem deliveredTo_nil (session : Session) : deliveredTo session [] = [] := rfl
@[simp] theorem deliveredTo_cons (session : Session) (e : Event) (es : List Event) :
    deliveredTo session (e :: es) = e.logsFor session ++ deliveredTo session es := rfl
@[simp] theorem deliveredTo_append (session : Session) (es es' : List Event) :
    deliveredTo session (es ++ es') = deliveredTo session es ++ deliveredTo session es' := List.flatMap_append

/-- Events of other sessions deliver nothing. -/
theorem deliveredTo_filter (session : Session) (events : List Event) :
    deliveredTo session (events.filter fun e => decide (e.session = session)) = deliveredTo session events := by
  induction events with
  | nil => rfl
  | cons e events ih =>
    by_cases he : e.session = session
    · rw [List.filter_cons, if_pos (decide_eq_true he), deliveredTo_cons, deliveredTo_cons, ih]
    · rw [List.filter_cons, if_neg (by simpa using he), deliveredTo_cons, Event.logsFor_of_ne he, ih, List.nil_append]

section broadcasts

/-- What the loop does to the outside at one subscription. -/
def broadcastEvents (sent : Session → Bool) (host program : Text) (logData : LogData)
    (entry : Sigma fun _ : Session => Subscription) : List Event :=
  if entry.2.isBroadcastCandidateFor host program then
    if sent entry.1 then [.send entry.1 ⟨true, [logData], none⟩ true]
    else [.send entry.1 ⟨true, [logData], none⟩ false, .close entry.1]
  else []

variable {sent : Session → Bool} {host program : Text} {logData : LogData}

/-- A subscription outlives a broadcast unless its own send fails. -/
def survives (sent : Session → Bool) (host program : Text) (session : Session) (s : Subscription) : Bool :=
  !s.isBroadcastCandidateFor host program || sent session

theorem broadcastToSubscriber_eq (state : ConcurrentMap Session Subscription × List Event)
    (entry : Sigma fun _ : Session => Subscription) :
    broadcastToSubscriber sent host program logData state entry =
      (if survives sent host program entry.1 entry.2 then state.1 else state.1.erase entry.1,
        state.2 ++ broadcastEvents sent host program logData entry) := by
  unfold broadcastToSubscriber broadcastEvents survives
  cases entry.2.isBroadcastCandidateFor host program <;> cases sent entry.1 <;> simp

/-- The loop, run over any entries, removes those whose send fails and no others. -/
theorem foldl_broadcast (entries : List (Sigma fun _ : Session => Subscription))
    (state : ConcurrentMap Session Subscription × List Event) (session : Session) :
    (entries.foldl (broadcastToSubscriber sent host program logData) state).2 =
      state.2 ++ entries.flatMap (broadcastEvents sent host program logData) ∧
    (entries.foldl (broadcastToSubscriber sent host program logData) state).1.lookup session =
      if ∃ entry ∈ entries, entry.1 = session ∧ survives sent host program entry.1 entry.2 = false then none
      else state.1.lookup session := by
  induction entries generalizing state with
  | nil => simp
  | cons entry entries ih =>
    obtain ⟨hevents, hlookup⟩ := ih (broadcastToSubscriber sent host program logData state entry)
    rw [broadcastToSubscriber_eq] at hevents hlookup
    rw [List.foldl_cons, broadcastToSubscriber_eq, hevents, hlookup]
    refine ⟨by rw [List.append_assoc, List.flatMap_cons], ?_⟩
    by_cases hrest : ∃ entry ∈ entries, entry.1 = session ∧ survives sent host program entry.1 entry.2 = false
    · obtain ⟨e, he, hfail⟩ := hrest
      rw [if_pos ⟨e, he, hfail⟩, if_pos ⟨e, List.mem_cons_of_mem _ he, hfail⟩]
    · rw [if_neg hrest]
      by_cases hfail : entry.1 = session ∧ survives sent host program entry.1 entry.2 = false
      · have hone : ∃ e ∈ entry :: entries, e.1 = session ∧ survives sent host program e.1 e.2 = false :=
          ⟨entry, List.mem_cons_self, hfail⟩
        rw [if_pos hone, hfail.2, ← hfail.1]
        exact AList.lookup_erase _ _
      · have hnone : ¬ ∃ e ∈ entry :: entries, e.1 = session ∧ survives sent host program e.1 e.2 = false := by
          rintro ⟨e, he, hs⟩
          rcases List.mem_cons.mp he with rfl | he
          · exact hfail hs
          · exact hrest ⟨e, he, hs⟩
        rw [if_neg hnone]
        cases hs : survives sent host program entry.1 entry.2 with
        | true => rfl
        | false => exact AList.lookup_erase_ne fun he => hfail ⟨he.symm, hs⟩

variable {order : VisitOrder Session} {service : LogBroadcastingService}

/-- After a broadcast a session is still subscribed unless its own send has failed. -/
theorem lookup_broadcast (session : Session) :
    (broadcastLogDataToSubscribers order sent service host program logData).1.subscriptionStorage.lookup session =
      (service.subscriptionStorage.lookup session).filter (survives sent host program session) := by
  have hmem (s : Subscription) : (⟨session, s⟩ : Sigma fun _ : Session => Subscription) ∈
      order.visit service.subscriptionStorage ↔ service.subscriptionStorage.lookup session = some s := by
    rw [(order.perm _).mem_iff]
    exact AList.mem_lookup_iff.symm
  refine (foldl_broadcast _ _ session).2.trans ?_
  cases hs : service.subscriptionStorage.lookup session with
  | none =>
    rw [ite_self]
    rfl
  | some s =>
    rw [Option.filter_some]
    cases hsurvives : survives sent host program session s with
    | true =>
      rw [if_neg]
      · rfl
      · rintro ⟨⟨_, s'⟩, he, rfl, hfail⟩
        obtain rfl := Option.some.inj (((hmem s').mp he).symm.trans hs)
        simp [hsurvives] at hfail
    | false =>
      rw [if_pos ⟨_, (hmem s).mpr hs, rfl, hsurvives⟩]
      rfl

private theorem filter_broadcastEvents (session : Session) (entries : List (Sigma fun _ : Session => Subscription)) :
    (entries.flatMap (broadcastEvents sent host program logData)).filter (fun e => decide (e.session = session)) =
      (entries.filter fun entry => decide (entry.1 = session)).flatMap (broadcastEvents sent host program logData) := by
  have hkey (entry : Sigma fun _ : Session => Subscription) :
      ∀ e ∈ broadcastEvents sent host program logData entry, e.session = entry.1 := by
    unfold broadcastEvents
    split_ifs <;> simp [Event.session]
  induction entries with
  | nil => rfl
  | cons entry entries ih =>
    rw [List.flatMap_cons, List.filter_append, ih, List.filter_cons]
    by_cases he : entry.1 = session
    · rw [if_pos (decide_eq_true he), List.flatMap_cons, List.filter_eq_self.mpr]
      exact fun e hmem => decide_eq_true ((hkey entry e hmem).trans he)
    · rw [if_neg (by simpa using he), List.filter_eq_nil_iff.mpr, List.nil_append]
      intro e hmem hs
      exact he ((hkey entry e hmem).symm.trans (of_decide_eq_true hs))

/-- The events of a broadcast that concern one session. -/
theorem events_broadcast (session : Session) :
    (broadcastLogDataToSubscribers order sent service host program logData).2.filter
        (fun e => decide (e.session = session)) =
      (service.subscriptionStorage.lookup session).toList.flatMap fun s =>
        broadcastEvents sent host program logData ⟨session, s⟩ := by
  have hevents : (broadcastLogDataToSubscribers order sent service host program logData).2 = _ :=
    (foldl_broadcast _ _ session).1
  rw [hevents, List.nil_append, filter_broadcastEvents,
    visit_filter_key order service.subscriptionStorage (fun e => decide_eq_true_iff), List.flatMap_map]

end broadcasts

section calls

/-- The lists and the history of a request of the session whose history is sent. -/
def sentHistory (readValue : Text → Option (Option LogBroadcastingRequest)) (service : LogBroadcastingService)
    (session : Session) : ServiceCall → Option (List (Option Text) × List (Option Text) × List LogData)
  | .handleLogBroadcastingRequest session' requestText order sends _ =>
    if session' = session ∧ sends.1 then
      match requestOutcome readValue order service session requestText with
      | .history hosts programs logDataList => some (hosts, programs, logDataList)
      | _ => none
    else none
  | _ => none

/-- A log that the lists ask for; a log without host or program is in no list. -/
def asksFor (hosts programs : List (Option Text)) (logData : LogData) : Bool :=
  match logData.host, logData.program with
  | some host, some program => decide (some host ∈ hosts) && decide (some program ∈ programs)
  | _, _ => false

/-- The log that a call broadcasts to a session with the given lists. -/
def broadcastLog (hosts programs : List (Option Text)) : ServiceCall → Option LogData
  | .handleReceivedLogData logData _ _ => if asksFor hosts programs logData then some logData else none
  | _ => none

/-- A session with these lists is still online after the call, unless it requests anew. -/
def staysOnline (session : Session) (hosts programs : List (Option Text)) : ServiceCall → Bool
  | .saveBroadcastingSession session' => decide (session' ≠ session)
  | .removeBroadcastingSession session' => decide (session' ≠ session)
  | .handleLogBroadcastingRequest _ _ _ _ _ => true
  | .handleReceivedLogData logData _ sent => !asksFor hosts programs logData || sent session

def receivedLog : ServiceCall → Option LogData
  | .handleReceivedLogData logData _ _ => some logData
  | _ => none

variable {service : LogBroadcastingService} {session : Session} {c : ServiceCall}

theorem send_failed_of_sentHistory {order : VisitOrder Text} {sends : Bool × Bool} {errorId requestText : Text}
    {hosts programs : List (Option Text)} {logDataList : List LogData}
    (h : sentHistory readValue service session
      (.handleLogBroadcastingRequest session requestText order sends errorId) = none)
    (ho : requestOutcome readValue order service session requestText = .history hosts programs logDataList) :
    sends.1 = false := by
  rw [sentHistory, ho] at h
  by_contra hs
  rw [if_pos ⟨rfl, by simpa using hs⟩] at h
  cases h

/-- A request whose history is not sent changes nothing. -/
theorem request_unchanged {order : VisitOrder Text} {sends : Bool × Bool} {errorId requestText : Text}
    (h : sentHistory readValue service session
      (.handleLogBroadcastingRequest session requestText order sends errorId) = none) :
    (handleLogBroadcastingRequest readValue order sends errorId service session requestText).1 = service := by
  unfold handleLogBroadcastingRequest
  cases ho : requestOutcome readValue order service session requestText with
  | history hosts programs logDataList => simp [send_failed_of_sentHistory h ho]
  | _ => rfl

/-- Such a request delivers no logs. -/
theorem request_delivers_nothing {order : VisitOrder Text} {sends : Bool × Bool} {errorId requestText : Text}
    (h : sentHistory readValue service session
      (.handleLogBroadcastingRequest session requestText order sends errorId) = none) :
    deliveredTo session
      (handleLogBroadcastingRequest readValue order sends errorId service session requestText).2 = [] := by
  unfold handleLogBroadcastingRequest
  cases ho : requestOutcome readValue order service session requestText with
  | ignored => rfl
  | thrown => simp [Event.logsFor, unsuccessfulResponse]
  | incorrectParameters =>
    cases hs : sends.1 <;> simp [Event.logsFor, incorrectRequestParametersResponse, unsuccessfulResponse]
  | history hosts programs logDataList =>
    simp [send_failed_of_sentHistory h ho, Event.logsFor, unsuccessfulResponse]

/-- A request only concerns the session it comes from. -/
theorem request_of_other {order : VisitOrder Text} {sends : Bool × Bool} {errorId requestText : Text}
    {other : Session} (hne : other ≠ session) :
    deliveredTo session (handleLogBroadcastingRequest readValue order sends errorId service other requestText).2 = [] ∧
    (handleLogBroadcastingRequest readValue order sends errorId service other
      requestText).1.subscriptionStorage.lookup session = service.subscriptionStorage.lookup session := by
  unfold handleLogBroadcastingRequest
  cases requestOutcome readValue order service other requestText with
  | ignored => exact ⟨rfl, rfl⟩
  | thrown => simp [Event.logsFor, hne]
  | incorrectParameters => cases hs : sends.1 <;> simp [Event.logsFor, hne]
  | history hosts programs logDataList =>
    cases hs : sends.1 with
    | false => simp [Event.logsFor, hne]
    | true =>
      cases hl : service.subscriptionStorage.lookup other with
      | none => simp [Event.logsFor, hne]
      | some _ =>
        refine ⟨by simp [Event.logsFor, hne], ?_⟩
        exact AList.lookup_insert_ne hne.symm

/-- The subscription of a session after a call that does not send it a history. -/
def nextSubscription (session : Session) (subscription : Option Subscription) : ServiceCall → Option Subscription
  | .saveBroadcastingSession session' =>
    if session' = session then some Subscription.initialState else subscription
  | .removeBroadcastingSession session' => if session' = session then none else subscription
  | .handleLogBroadcastingRequest _ _ _ _ _ => subscription
  | .handleReceivedLogData logData _ sent => match logData.host, logData.program with
    | some host, some program => subscription.filter (survives sent host program session)
    | _, _ => subscription

/-- The logs such a call delivers to the session. -/
def nextLogs (session : Session) (subscription : Option Subscription) : ServiceCall → List LogData
  | .handleReceivedLogData logData _ sent => match logData.host, logData.program with
    | some host, some program =>
      if (subscription.any fun s => s.isBroadcastCandidateFor host program) && sent session then [logData] else []
    | _, _ => []
  | _ => []

theorem call_eq (h : sentHistory readValue service session c = none) :
    (service.call readValue c).1.subscriptionStorage.lookup session =
      nextSubscription session (service.subscriptionStorage.lookup session) c ∧
    deliveredTo session (service.call readValue c).2 =
      nextLogs session (service.subscriptionStorage.lookup session) c := by
  cases c with
  | saveBroadcastingSession session' =>
    refine ⟨?_, rfl⟩
    by_cases hs : session' = session
    · rw [nextSubscription, if_pos hs, hs]
      exact AList.lookup_insert _
    · rw [nextSubscription, if_neg hs]
      exact AList.lookup_insert_ne (Ne.symm hs)
  | removeBroadcastingSession session' =>
    refine ⟨?_, rfl⟩
    by_cases hs : session' = session
    · rw [nextSubscription, if_pos hs, hs]
      exact AList.lookup_erase _ _
    · rw [nextSubscription, if_neg hs]
      exact AList.lookup_erase_ne (Ne.symm hs)
  | handleLogBroadcastingRequest session' requestText order sends errorId =>
    by_cases hs : session' = session
    · subst hs
      refine ⟨?_, request_delivers_nothing h⟩
      rw [LogBroadcastingService.call, request_unchanged h]
      rfl
    · exact (request_of_other hs).symm
  | handleReceivedLogData logData order sent =>
    cases hh : logData.host with
    | none => simp [LogBroadcastingService.call, handleReceivedLogData, nextSubscription, nextLogs, hh]
    | some host =>
      cases hp : logData.program with
      | none => simp [LogBroadcastingService.call, handleReceivedLogData, nextSubscription, nextLogs, hh, hp]
      | some program =>
        simp only [LogBroadcastingService.call, handleReceivedLogData, nextSubscription, nextLogs, hh, hp]
        refine ⟨lookup_broadcast session, ?_⟩
        rw [← deliveredTo_filter, events_broadcast]
        cases service.subscriptionStorage.lookup session with
        | none => rfl
        | some s =>
          rw [Option.toList_some, List.flatMap_singleton, broadcastEvents, Option.any_some]
          cases s.isBroadcastCandidateFor host program <;> cases sent session <;> simp [Event.logsFor]

end calls

section runs
variable {service : LogBroadcastingService} {session : Session}

theorem run_cons (c : ServiceCall) (cs : List ServiceCall) :
    service.run readValue (c :: cs) = (((service.call readValue c).1.run readValue cs).1,
      (service.call readValue c).2 ++ ((service.call readValue c).1.run readValue cs).2) := rfl

/-- No request of the session has its history sent. -/
def NoHistory (readValue : Text → Option (Option LogBroadcastingRequest)) (session : Session)
    (service : LogBroadcastingService) (cs : List ServiceCall) : Prop :=
  AllSteps (fun s c => some (s.call readValue c).1) (fun s c => sentHistory readValue s session c = none) service cs

/-- A session that is not online gets nothing until its next history. -/
theorem delivered_offline {cs : List ServiceCall} (hno : NoHistory readValue session service cs)
    (hoff : ∀ s, service.subscriptionStorage.lookup session = some s → s.subscriptionState = .INITIAL) :
    deliveredTo session (service.run readValue cs).2 = [] := by
  induction cs generalizing service with
  | nil => rfl
  | cons c cs ih =>
    obtain ⟨hlookup, hlogs⟩ := call_eq hno.1
    have hnocandidate : ∀ host program, ((service.subscriptionStorage.lookup session).any fun s =>
        s.isBroadcastCandidateFor host program) = false := by
      intro host program
      cases hs : service.subscriptionStorage.lookup session with
      | none => rfl
      | some s => simp [Subscription.isBroadcastCandidateFor, hoff s hs]
    rw [run_cons, deliveredTo_append, ih (hno.2 _ rfl), hlogs, List.append_nil]
    · cases c with
      | handleReceivedLogData logData order sent =>
        rw [nextLogs]
        split
        · rw [hnocandidate]
          rfl
        · rfl
      | _ => rfl
    · intro s hs
      rw [hlookup] at hs
      cases c with
      | saveBroadcastingSession session' =>
        rw [nextSubscription] at hs
        split at hs
        · obtain rfl := Option.some.inj hs
          rfl
        · exact hoff s hs
      | removeBroadcastingSession session' =>
        rw [nextSubscription] at hs
        split at hs
        · cases hs
        · exact hoff s hs
      | handleLogBroadcastingRequest _ _ _ _ _ => exact hoff s hs
      | handleReceivedLogData logData order sent =>
        rw [nextSubscription] at hs
        split at hs
        · exact hoff s (Option.filter_eq_some_iff.mp hs).1
        · exact hoff s hs

/-- A broadcast to an online session that its lists ask for. -/
private theorem candidate_online (hosts programs : List (Option Text)) {logData : LogData} {host program : Text}
    (hh : logData.host = some host) (hp : logData.program = some program) :
    (Subscription.mk hosts programs .ONLINE_BROADCASTING).isBroadcastCandidateFor host program =
      asksFor hosts programs logData := by
  simp [Subscription.isBroadcastCandidateFor, asksFor, hh, hp]

/-- A call that leaves the session online delivers the log it broadcasts. -/
theorem next_of_staysOnline {hosts programs : List (Option Text)} {c : ServiceCall}
    (h : staysOnline session hosts programs c = true) :
    nextSubscription session (some ⟨hosts, programs, .ONLINE_BROADCASTING⟩) c =
      some ⟨hosts, programs, .ONLINE_BROADCASTING⟩ ∧
    nextLogs session (some ⟨hosts, programs, .ONLINE_BROADCASTING⟩) c = (broadcastLog hosts programs c).toList := by
  cases c with
  | saveBroadcastingSession session' =>
    have hne : session' ≠ session := of_decide_eq_true h
    exact ⟨if_neg hne, rfl⟩
  | removeBroadcastingSession session' =>
    have hne : session' ≠ session := of_decide_eq_true h
    exact ⟨if_neg hne, rfl⟩
  | handleLogBroadcastingRequest _ _ _ _ _ => exact ⟨rfl, rfl⟩
  | handleReceivedLogData logData order sent =>
    rw [staysOnline] at h
    cases hh : logData.host with
    | none => simp [nextSubscription, nextLogs, broadcastLog, asksFor, hh]
    | some host =>
      cases hp : logData.program with
      | none => simp [nextSubscription, nextLogs, broadcastLog, asksFor, hh, hp]
      | some program =>
        have hc := candidate_online hosts programs hh hp
        simp only [nextSubscription, nextLogs, broadcastLog, hh, hp, Option.filter_some, Option.any_some, survives, hc]
        cases hask : asksFor hosts programs logData with
        | false => exact ⟨rfl, rfl⟩
        | true =>
          rw [hask, Bool.not_true, Bool.false_or] at h
          rw [h]
          exact ⟨rfl, rfl⟩

/-- A call that does not leave it online delivers nothing. -/
theorem next_of_not_staysOnline {hosts programs : List (Option Text)} {c : ServiceCall}
    (h : staysOnline session hosts programs c = false) :
    (∀ s, nextSubscription session (some ⟨hosts, programs, .ONLINE_BROADCASTING⟩) c = some s →
      s.subscriptionState = .INITIAL) ∧
    nextLogs session (some ⟨hosts, programs, .ONLINE_BROADCASTING⟩) c = [] := by
  cases c with
  | saveBroadcastingSession session' =>
    have heq : session' = session := by simpa [staysOnline] using h
    refine ⟨fun s hs => ?_, rfl⟩
    rw [nextSubscription, if_pos heq] at hs
    obtain rfl := Option.some.inj hs
    rfl
  | removeBroadcastingSession session' =>
    have heq : session' = session := by simpa [staysOnline] using h
    refine ⟨fun s hs => ?_, rfl⟩
    rw [nextSubscription, if_pos heq] at hs
    cases hs
  | handleLogBroadcastingRequest _ _ _ _ _ => cases h
  | handleReceivedLogData logData order sent =>
    rw [staysOnline, Bool.or_eq_false_iff, Bool.not_eq_false'] at h
    obtain ⟨hask, hfail⟩ := h
    cases hh : logData.host with
    | none => simp [asksFor, hh] at hask
    | some host =>
      cases hp : logData.program with
      | none => simp [asksFor, hh, hp] at hask
      | some program =>
        have hc := candidate_online hosts programs hh hp
        simp [nextSubscription, nextLogs, hh, hp, survives, hc, hask, hfail]

/-- A session that is online gets every log its lists ask for, as long as it stays online. -/
theorem delivered_online {hosts programs : List (Option Text)} {cs : List ServiceCall}
    (hno : NoHistory readValue session service cs)
    (hon : service.subscriptionStorage.lookup session = some ⟨hosts, programs, .ONLINE_BROADCASTING⟩) :
    deliveredTo session (service.run readValue cs).2 =
      (cs.takeWhile (staysOnline session hosts programs)).filterMap (broadcastLog hosts programs) := by
  induction cs generalizing service with
  | nil => rfl
  | cons c cs ih =>
    obtain ⟨hlookup, hlogs⟩ := call_eq hno.1
    have hrest := hno.2 _ rfl
    rw [hon] at hlookup hlogs
    rw [run_cons, deliveredTo_append, hlogs, List.takeWhile_cons]
    cases hstays : staysOnline session hosts programs c with
    | true =>
      obtain ⟨hnext, hnow⟩ := next_of_staysOnline hstays
      rw [if_pos rfl, hnow, ih hrest (hlookup.trans hnext), List.filterMap_cons]
      cases broadcastLog hosts programs c with
      | none => rfl
      | some _ => rfl
    | false =>
      obtain ⟨hnext, hnow⟩ := next_of_not_staysOnline hstays
      have hoff := delivered_offline hrest fun s hs => hnext s (hlookup.symm.trans hs)
      rw [hnow, hoff]
      rfl

theorem request_logStorage {order : VisitOrder Text} {sends : Bool × Bool} {errorId requestText : Text} :
    (handleLogBroadcastingRequest readValue order sends errorId service session requestText).1.logStorage =
      service.logStorage ∧
    (handleLogBroadcastingRequest readValue order sends errorId service session
      requestText).1.programLogStorageCapacity = service.programLogStorageCapacity := by
  unfold handleLogBroadcastingRequest
  cases requestOutcome readValue order service session requestText with
  | history hosts programs logDataList =>
    cases sends.1 with
    | false => exact ⟨rfl, rfl⟩
    | true => cases service.subscriptionStorage.lookup session <;> exact ⟨rfl, rfl⟩
  | _ => exact ⟨rfl, rfl⟩

/-- Only a received log changes the storages. -/
theorem call_logStorage (readValue : Text → Option (Option LogBroadcastingRequest))
    (service : LogBroadcastingService) (c : ServiceCall) :
    (service.call readValue c).1.logStorage = (receivedLog c).toList.foldl
      (storeLogData service.programLogStorageCapacity) service.logStorage ∧
    (service.call readValue c).1.programLogStorageCapacity = service.programLogStorageCapacity := by
  cases c with
  | saveBroadcastingSession _ => exact ⟨rfl, rfl⟩
  | removeBroadcastingSession _ => exact ⟨rfl, rfl⟩
  | handleLogBroadcastingRequest _ _ _ _ _ => exact request_logStorage
  | handleReceivedLogData logData order sent =>
    rw [LogBroadcastingService.call, handleReceivedLogData]
    split
    · exact ⟨rfl, rfl⟩
    · next hnull =>
      refine ⟨(storeLogData_of_null ?_).symm, rfl⟩
      cases hh : logData.host with
      | none => rfl
      | some host => cases hp : logData.program with
        | none => rfl
        | some program => exact absurd hp (hnull host program hh)

/-- The storages follow the received logs through any run. -/
theorem stored_run (readValue : Text → Option (Option LogBroadcastingRequest)) {service : LogBroadcastingService}
    {capacity : ℕ+} {logs : List LogData} (hc : service.programLogStorageCapacity = capacity)
    (h : Stored capacity service.logStorage logs) (cs : List ServiceCall) :
    Stored capacity (service.run readValue cs).1.logStorage (logs ++ cs.filterMap receivedLog) := by
  induction cs generalizing service logs with
  | nil => rwa [List.filterMap_nil, List.append_nil]
  | cons c cs ih =>
    obtain ⟨hstorage, hcapacity⟩ := call_logStorage readValue service c
    rw [run_cons, List.filterMap_cons]
    cases hl : receivedLog c with
    | none =>
      rw [hl] at hstorage
      exact ih (hcapacity.trans hc) (hstorage ▸ h)
    | some l =>
      rw [hl, hc] at hstorage
      have hstored : Stored capacity (service.call readValue c).1.logStorage (logs ++ [l]) := by
        rw [hstorage]
        exact h.store l
      have hrest := ih (hcapacity.trans hc) hstored
      rwa [List.append_assoc] at hrest

end runs

theorem sentHistory_eq_some {service : LogBroadcastingService} {session : Session} {order : VisitOrder Text}
    {sends : Bool × Bool} {errorId requestText : Text} {hosts programs : List (Option Text)}
    {history : List LogData}
    (h : sentHistory readValue service session
      (.handleLogBroadcastingRequest session requestText order sends errorId) = some (hosts, programs, history)) :
    sends.1 = true ∧ requestOutcome readValue order service session requestText = .history hosts programs history := by
  rw [sentHistory] at h
  split at h
  · next hsent =>
    refine ⟨hsent.2, ?_⟩
    split at h
    · next ho =>
      obtain ⟨rfl, rfl, rfl⟩ : _ ∧ _ ∧ _ := by simpa using h
      exact ho
    · cases h
  · cases h

theorem query_of_requestOutcome {service : LogBroadcastingService} {session : Session} {order : VisitOrder Text}
    {requestText : Text} {hosts programs : List (Option Text)} {history : List LogData}
    (h : requestOutcome readValue order service session requestText = .history hosts programs history) :
    getLogDataListByHostsAndPrograms order service.logStorage hosts programs = some history := by
  have hhistory : ∀ request, historyOutcome order service request = .history hosts programs history →
      getLogDataListByHostsAndPrograms order service.logStorage hosts programs = some history := by
    intro request hr
    unfold historyOutcome at hr
    split at hr
    · cases hr
    · split at hr
      · cases hr
      · split at hr
        · cases hr
        · split at hr
          · cases hr
          · split at hr
            · cases hr
            · next hq =>
              obtain ⟨rfl, rfl, rfl⟩ := RequestOutcome.history.inj hr
              exact hq
  unfold requestOutcome at h
  split at h
  · cases h
  · cases h
  · split at h
    · cases h
    · exact hhistory _ h
    · split at h
      · cases h
      · split at h
        · exact hhistory _ h
        · cases h

/-- A registered session whose history has been sent gets, in any sequential run, exactly
that history, which is the retained logs its lists ask for in the order of their dates,
and then each later log they ask for, until it is removed, saved again or a send to it
fails. A request whose history is not sent changes nothing. A broadcast removes exactly
the sessions whose own send fails, and every other one that asks for the log gets it. -/
theorem sessions_get_their_logs (readValue : Text → Option (Option LogBroadcastingRequest)) (capacity : ℕ+) :
    (∀ (before : List ServiceCall) (session : Session) (requestText : Text) (order : VisitOrder Text)
        (sends : Bool × Bool) (errorId : Text) (hosts programs : List (Option Text)) (history : List LogData)
        (after : List ServiceCall),
      let service := ((LogBroadcastingService.new capacity).run readValue before).1
      let request := ServiceCall.handleLogBroadcastingRequest session requestText order sends errorId
      sentHistory readValue service session request = some (hosts, programs, history) →
      (service.subscriptionStorage.lookup session).isSome →
      NoHistory readValue session (service.call readValue request).1 after →
      deliveredTo session (service.run readValue (request :: after)).2 = history ++
        (after.takeWhile (staysOnline session hosts programs)).filterMap (broadcastLog hosts programs) ∧
      history.Perm (retainedOf capacity (before.filterMap receivedLog) hosts programs) ∧
      history.Pairwise (dateLe LogData.date)) ∧
    (∀ (service : LogBroadcastingService) (session : Session) (requestText : Text) (order : VisitOrder Text)
        (sends : Bool × Bool) (errorId : Text),
      sentHistory readValue service session
        (.handleLogBroadcastingRequest session requestText order sends errorId) = none →
      (service.call readValue (.handleLogBroadcastingRequest session requestText order sends errorId)).1 = service) ∧
    (∀ (service : LogBroadcastingService) (logData : LogData) (order : VisitOrder Session) (sent : Session → Bool)
        (host program : Text) (session : Session),
      logData.host = some host → logData.program = some program →
      (service.call readValue (.handleReceivedLogData logData order sent)).1.subscriptionStorage.lookup session =
        (service.subscriptionStorage.lookup session).filter (survives sent host program session) ∧
      (service.call readValue (.handleReceivedLogData logData order sent)).2.filter
          (fun e => decide (e.session = session)) =
        (service.subscriptionStorage.lookup session).toList.flatMap fun s =>
          broadcastEvents sent host program logData ⟨session, s⟩) := by
  refine ⟨?_, ?_, ?_⟩
  · intro before session requestText order sends errorId hosts programs history after service request hsent
      hregistered hno
    obtain ⟨hsend, ho⟩ := sentHistory_eq_some hsent
    obtain ⟨s, hs⟩ := Option.isSome_iff_exists.mp hregistered
    have hcall : service.call readValue request = ({ service with
        subscriptionStorage := service.subscriptionStorage.insert session ⟨hosts, programs, .ONLINE_BROADCASTING⟩ },
        [.send session ⟨true, history, none⟩ true]) := by
      simp [request, LogBroadcastingService.call, handleLogBroadcastingRequest, ho, hsend, hs]
    have hon : (service.call readValue request).1.subscriptionStorage.lookup session =
        some ⟨hosts, programs, .ONLINE_BROADCASTING⟩ := by
      rw [hcall]
      exact AList.lookup_insert _
    have hstored : Stored capacity service.logStorage (before.filterMap receivedLog) := by
      have hnew : Stored capacity (LogBroadcastingService.new capacity).logStorage [] := stored_empty capacity
      have hcapacity : (LogBroadcastingService.new capacity).programLogStorageCapacity = capacity := rfl
      exact stored_run readValue hcapacity hnew before
    refine ⟨?_, query_spec hstored (query_of_requestOutcome ho)⟩
    rw [run_cons, deliveredTo_append, delivered_online hno hon, hcall]
    simp [Event.logsFor]
  · intro service session requestText order sends errorId hnone
    exact request_unchanged hnone
  · intro service logData order sent host program session hh hp
    rw [LogBroadcastingService.call, handleReceivedLogData, hh, hp]
    exact ⟨lookup_broadcast session, events_broadcast session⟩

def sampleRequestText : Text := "\x7b\"hosts\":[\"a\"],\"programs\":[\"p\"],\"subscriptionState\":\"INITIAL\"\x7d".toList

/-- A reader of one request, for host `a` and program `p`. It throws for any other text. -/
def readsRequest : Text → Option (Option LogBroadcastingRequest) := fun text =>
  if text = sampleRequestText then some (some ⟨some [some ['a']], some [some ['p']], some "INITIAL".toList⟩) else none

def beforeRequest : List ServiceCall :=
  [.saveBroadcastingSession ⟨0⟩, .handleReceivedLogData (logAt 0 ['a'] ['p']) .stored fun _ => true,
    .handleReceivedLogData (logAt 1 ['b'] ['p']) .stored fun _ => true]

/-- A send to the session fails in the end, and it misses the last log. -/
def afterRequest : List ServiceCall :=
  [.handleReceivedLogData (logAt 2 ['b'] ['p']) .stored fun _ => true,
    .handleReceivedLogData (logAt 3 ['a'] ['p']) .stored fun _ => true,
    .handleReceivedLogData (logAt 4 ['a'] ['p']) .stored fun session => decide (session.number ≠ 0),
    .handleReceivedLogData (logAt 5 ['a'] ['p']) .stored fun _ => true]

/-- The session gets the history and one log. A text that cannot be read changes nothing, and
a failed send removes the session. -/
theorem session_gets_history_and_log :
    let service := ((LogBroadcastingService.new 2).run readsRequest beforeRequest).1
    let request := ServiceCall.handleLogBroadcastingRequest ⟨0⟩ sampleRequestText .stored (true, true) []
    let online := (service.call readsRequest request).1
    (deliveredTo ⟨0⟩ (service.run readsRequest (request :: afterRequest)).2 = [logAt 0 ['a'] ['p'], logAt 3 ['a'] ['p']] ∧
      [logAt 0 ['a'] ['p']].Perm (retainedOf 2 (beforeRequest.filterMap receivedLog) [some ['a']] [some ['p']])) ∧
    (online.call readsRequest (.handleLogBroadcastingRequest ⟨0⟩ "\x7b".toList .stored (true, true) [])).1 = online ∧
    (online.call readsRequest (.handleReceivedLogData (logAt 4 ['a'] ['p']) .stored fun _ => false)).1.subscriptionStorage.lookup
      ⟨0⟩ = none := by
  intro service request online
  obtain ⟨hdelivered, hunchanged, hbroadcast⟩ := sessions_get_their_logs readsRequest 2
  obtain ⟨hlogs, hperm, -⟩ := hdelivered beforeRequest ⟨0⟩ sampleRequestText .stored (true, true) [] [some ['a']]
    [some ['p']] [logAt 0 ['a'] ['p']] afterRequest (by decide) (by decide) (by unfold NoHistory; decide)
  refine ⟨⟨hlogs, hperm⟩, hunchanged online ⟨0⟩ "\x7b".toList .stored (true, true) [] (by decide), ?_⟩
  rw [(hbroadcast online (logAt 4 ['a'] ['p']) .stored (fun _ => false) ['a'] ['p'] ⟨0⟩ rfl rfl).1]
  decide

/-- A session that is saved again after its request misses a log that it has asked for. -/
theorem saved_again_misses_log :
    deliveredTo ⟨0⟩ ((LogBroadcastingService.new 2).run readsRequest
      [.saveBroadcastingSession ⟨0⟩, .handleLogBroadcastingRequest ⟨0⟩ sampleRequestText .stored (true, true) [],
        .handleReceivedLogData (logAt 0 ['a'] ['p']) .stored fun _ => true, .saveBroadcastingSession ⟨0⟩,
        .handleReceivedLogData (logAt 1 ['a'] ['p']) .stored fun _ => true]).2 = [logAt 0 ['a'] ['p']] ∧
    asksFor [some ['a']] [some ['p']] (logAt 1 ['a'] ['p']) = true := by decide

end Srvlog.Broadcasting
