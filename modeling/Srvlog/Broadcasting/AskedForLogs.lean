import Srvlog.Broadcasting.DeliveredLogs

/-! A session whose requests all carry the same lists gets only logs that these ask for. -/
namespace Srvlog.Broadcasting
open Library Data

variable {readValue : Text → Option (Option LogBroadcastingRequest)} {service : LogBroadcastingService}
  {session : Session} {hosts programs : List (Option Text)}

/-- The session is not online, or online with these lists. -/
def SubscribedTo (service : LogBroadcastingService) (session : Session) (hosts programs : List (Option Text)) : Prop :=
  ∀ s, service.subscriptionStorage.lookup session = some s →
    s = Subscription.initialState ∨ s = ⟨hosts, programs, .ONLINE_BROADCASTING⟩

/-- The requests of the session that can be read carry these lists. -/
def Requests (readValue : Text → Option (Option LogBroadcastingRequest)) (session : Session)
    (hosts programs : List (Option Text)) : ServiceCall → Prop
  | .handleLogBroadcastingRequest session' requestText _ _ _ => session' = session →
    ∀ request, readValue requestText = some (some request) → request.hosts = some hosts ∧ request.programs = some programs
  | _ => True

theorem asksFor_of_mem_retainedOf {capacity : ℕ+} {logs : List LogData} {logData : LogData}
    (h : logData ∈ retainedOf capacity logs hosts programs) : asksFor hosts programs logData = true := by
  obtain ⟨host, hhost, h⟩ := List.mem_flatMap.mp h
  obtain ⟨program, hprogram, h⟩ := List.mem_flatMap.mp h
  have hfrom := (List.mem_filter.mp (List.mem_of_mem_drop h)).2
  obtain ⟨hh, hp⟩ := of_decide_eq_true hfrom
  unfold asksFor
  rw [hh, hp, Bool.and_eq_true, decide_eq_true_iff, decide_eq_true_iff]
  exact ⟨List.reduceOption_mem_iff.mp (List.mem_dedup.mp hhost), List.reduceOption_mem_iff.mp (List.mem_dedup.mp hprogram)⟩

/-- The lists of a history are those of the request. -/
theorem lists_of_history {order : VisitOrder Text} {requestText : Text} {hosts' programs' : List (Option Text)}
    {logDataList : List LogData}
    (h : requestOutcome readValue order service session requestText = .history hosts' programs' logDataList) :
    ∃ request, readValue requestText = some (some request) ∧ request.hosts = some hosts' ∧
      request.programs = some programs' := by
  have hlists : ∀ request, historyOutcome order service request = .history hosts' programs' logDataList →
      request.hosts = some hosts' ∧ request.programs = some programs' := by
    intro request hr
    unfold historyOutcome at hr
    split at hr
    · cases hr
    · next hhosts =>
      split at hr
      · cases hr
      · split at hr
        · cases hr
        · next hprograms =>
          split at hr
          · cases hr
          · split at hr
            · cases hr
            · obtain ⟨rfl, rfl, -⟩ := RequestOutcome.history.inj hr
              exact ⟨hhosts, hprograms⟩
  unfold requestOutcome at h
  split at h
  · cases h
  · cases h
  · next request hread =>
    refine ⟨request, hread, ?_⟩
    split at h
    · cases h
    · exact hlists _ h
    · split at h
      · cases h
      · split at h
        · exact hlists _ h
        · cases h

/-- A candidate for a broadcast is online, with lists that ask for the log. -/
theorem asksFor_of_candidate {s : Subscription} {logData : LogData} {host program : Text}
    (hhost : logData.host = some host) (hprogram : logData.program = some program)
    (hs : s = Subscription.initialState ∨ s = ⟨hosts, programs, .ONLINE_BROADCASTING⟩)
    (h : s.isBroadcastCandidateFor host program = true) : asksFor hosts programs logData = true := by
  unfold Subscription.isBroadcastCandidateFor at h
  rw [Bool.and_eq_true, Bool.and_eq_true, decide_eq_true_iff, decide_eq_true_iff, decide_eq_true_iff] at h
  obtain ⟨⟨honline, hin⟩, hin'⟩ := h
  rcases hs with rfl | rfl
  · cases honline
  · unfold asksFor
    rw [hhost, hprogram, Bool.and_eq_true, decide_eq_true_iff, decide_eq_true_iff]
    exact ⟨hin, hin'⟩

/-- A call that sends the session no history. -/
theorem asked_for_next {c : ServiceCall} (hsubscribed : SubscribedTo service session hosts programs)
    (h : sentHistory readValue service session c = none) :
    (∀ logData ∈ deliveredTo session (service.call readValue c).2, asksFor hosts programs logData = true) ∧
      SubscribedTo (service.call readValue c).1 session hosts programs := by
  obtain ⟨hlookup, hlogs⟩ := call_eq h
  unfold SubscribedTo
  rw [hlookup, hlogs]
  cases c with
  | saveBroadcastingSession session' =>
    refine ⟨fun _ hmem => absurd hmem List.not_mem_nil, fun s hs => ?_⟩
    rw [nextSubscription] at hs
    split at hs
    · exact .inl (Option.some.inj hs).symm
    · exact hsubscribed s hs
  | removeBroadcastingSession session' =>
    refine ⟨fun _ hmem => absurd hmem List.not_mem_nil, fun s hs => ?_⟩
    rw [nextSubscription] at hs
    split at hs
    · cases hs
    · exact hsubscribed s hs
  | handleLogBroadcastingRequest => exact ⟨fun _ hmem => absurd hmem List.not_mem_nil, hsubscribed⟩
  | handleReceivedLogData logData order sent =>
    constructor
    · intro logged hmem
      rw [nextLogs] at hmem
      split at hmem
      · next host program hhost hprogram =>
        split at hmem
        · next hcandidate =>
          rw [List.mem_singleton] at hmem
          obtain ⟨s, hs, hcandidate⟩ := (Option.any_eq_true _ _).mp (Bool.and_eq_true_iff.mp hcandidate).1
          exact hmem ▸ asksFor_of_candidate hhost hprogram (hsubscribed s hs) hcandidate
        · cases hmem
      · cases hmem
    · intro s hs
      rw [nextSubscription] at hs
      split at hs
      · exact hsubscribed s (Option.filter_eq_some_iff.mp hs).1
      · exact hsubscribed s hs

/-- Whatever the service is called for, the session gets logs that its lists ask for only. -/
theorem asked_for_call {capacity : ℕ+} {logs : List LogData} {c : ServiceCall}
    (hstored : Stored capacity service.logStorage logs) (hsubscribed : SubscribedTo service session hosts programs)
    (hrequests : Requests readValue session hosts programs c) :
    (∀ logData ∈ deliveredTo session (service.call readValue c).2, asksFor hosts programs logData = true) ∧
      SubscribedTo (service.call readValue c).1 session hosts programs := by
  cases hhistory : sentHistory readValue service session c with
  | none => exact asked_for_next hsubscribed hhistory
  | some history =>
    obtain ⟨hosts', programs', logDataList⟩ := history
    cases c with
    | saveBroadcastingSession | removeBroadcastingSession | handleReceivedLogData => cases hhistory
    | handleLogBroadcastingRequest session' requestText order sends errorId =>
      obtain rfl : session' = session := by
        rw [sentHistory] at hhistory
        split at hhistory
        · next hsent => exact hsent.1
        · cases hhistory
      obtain ⟨hsends, ho⟩ := sentHistory_eq_some hhistory
      obtain ⟨request, hread, hhosts, hprograms⟩ := lists_of_history ho
      obtain ⟨hhosts', hprograms'⟩ := hrequests rfl request hread
      obtain rfl := Option.some.inj (hhosts.symm.trans hhosts')
      obtain rfl := Option.some.inj (hprograms.symm.trans hprograms')
      have hasked : ∀ logData ∈ logDataList, asksFor hosts' programs' logData = true := fun logData hmem =>
        asksFor_of_mem_retainedOf ((query_spec hstored (query_of_requestOutcome ho)).1.mem_iff.mp hmem)
      unfold LogBroadcastingService.call handleLogBroadcastingRequest
      dsimp only
      rw [ho, hsends]
      cases hlookup : service.subscriptionStorage.lookup session' with
      | some s =>
        refine ⟨?_, fun s' hs' => .inr ?_⟩
        · simpa [Event.logsFor] using hasked
        · exact (Option.some.inj ((AList.lookup_insert _).symm.trans hs')).symm
      | none =>
        refine ⟨?_, hsubscribed⟩
        simpa [Event.logsFor, unsuccessfulResponse] using hasked

end Srvlog.Broadcasting
