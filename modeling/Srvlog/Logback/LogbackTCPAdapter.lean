import Srvlog.Logback.SavedEvents
import Srvlog.Tcp.ServedConnections

/-! The adapter for events of logback that come over TCP, and which of them are stored, over every
interleaving of the acceptor, the workers, the clients and the other adapters. -/
namespace Srvlog.Logback
open Library Data Collector Database Tcp

/-- The settings of the adapter, with the addresses of the clients that connect. -/
structure LogbackNodes where
  inetAddress : Nat → InetAddress
  levels : LevelToSyslogSeverity
  program : Text

def outcomeOf : Except JavaException PUnit → Outcome
  | .ok _ => .returned
  | .error _ => .threw

/-- The server with what is behind it. `turns` is an auxiliary variable: the calls for events
that have ended, and the calls of the other adapters between them. -/
structure LogbackTCPAdapter (σ β : Type) where
  server : ThreadPooledServer LoggingEvent
  collector : σ
  turns : List ((Nat × LoggingEvent) ⊕ β)

inductive TCPAdapterAction (β : Type) where
  | server (a : ServerAction LoggingEvent)
  | processEvent (connection : Nat) (now : Int)
  | other (call : β)

namespace LogbackTCPAdapter

section model
variable {σ β : Type}

def initial (collector : σ) : LogbackTCPAdapter σ β := ⟨.initial, collector, []⟩

/-- `LogbackNode.processEvent`, in the worker of the connection. -/
def processNodeEvent (nodes : LogbackNodes) (collector : ILogCollector σ) (turn : Nat × LoggingEvent) :
    Action σ JavaException PUnit :=
  processEvent nodes.levels nodes.program collector ⟨turn.2, nodes.inetAddress turn.1⟩

/-- The outcomes of the workers' calls are those of the adapter. -/
def step (nodes : LogbackNodes) (collectorAt : Int → ILogCollector σ) (otherCall : σ → β → σ)
    (s : LogbackTCPAdapter σ β) : TCPAdapterAction β → Option (LogbackTCPAdapter σ β)
  | .server (.process _ _) => none
  | .server a => (s.server.step a).map fun server => { s with server := server }
  | .processEvent i now => match s.server.connections[i]?.map LoggerAcceptorNode.phase with
    | some (.processing event) =>
      let (result, after) := processNodeEvent nodes (collectorAt now) (i, event) s.collector
      (s.server.step (.process i (outcomeOf result))).map fun server => ⟨server, after, s.turns ++ [.inl (i, event)]⟩
    | _ => none
  | .other call => some { s with collector := otherCall s.collector call, turns := s.turns ++ [.inr call] }

/-- What a step can do: one step of the server apart from the workers' calls, a worker's call for
the event that it has read, or a call of another adapter. -/
inductive StepCase (nodes : LogbackNodes) (collectorAt : Int → ILogCollector σ) (otherCall : σ → β → σ)
    (s : LogbackTCPAdapter σ β) : LogbackTCPAdapter σ β → Prop where
  | server {a : ServerAction LoggingEvent} {server : ThreadPooledServer LoggingEvent}
    (ha : ∀ i outcome, a ≠ .process i outcome) (hserver : s.server.step a = some server) :
    StepCase nodes collectorAt otherCall s { s with server := server }
  | call {i : Nat} {now : Int} {n : LoggerAcceptorNode LoggingEvent} {event : LoggingEvent}
    {server : ThreadPooledServer LoggingEvent} (hn : s.server.connections[i]? = some n)
    (hphase : n.phase = .processing event)
    (hserver : s.server.step (.process i
      (outcomeOf (processNodeEvent nodes (collectorAt now) (i, event) s.collector).1)) = some server) :
    StepCase nodes collectorAt otherCall s ⟨server,
      (processNodeEvent nodes (collectorAt now) (i, event) s.collector).2, s.turns ++ [.inl (i, event)]⟩
  | other {call : β} : StepCase nodes collectorAt otherCall s
      { s with collector := otherCall s.collector call, turns := s.turns ++ [.inr call] }

variable {nodes : LogbackNodes} {collectorAt : Int → ILogCollector σ} {otherCall : σ → β → σ}

theorem step_cases {s t : LogbackTCPAdapter σ β} {a : TCPAdapterAction β}
    (h : step nodes collectorAt otherCall s a = some t) : StepCase nodes collectorAt otherCall s t := by
  cases a with
  | server a =>
    cases a with
    | process i outcome => cases h
    | openServerSocket | connect | arrive | isStopped | accept | acceptFails | createWorker | execute | shutdown | start
    | read | stop | close =>
      obtain ⟨server, hserver, rfl⟩ := Option.map_eq_some_iff.mp h
      exact .server (by rintro i outcome ⟨⟩) hserver
  | processEvent i now =>
    simp only [step] at h
    split at h
    · next event hphase =>
      obtain ⟨n, hn, hphase⟩ := Option.map_eq_some_iff.mp hphase
      obtain ⟨server, hserver, rfl⟩ := Option.map_eq_some_iff.mp h
      exact .call hn hphase hserver
    · cases h
  | other call =>
    obtain rfl := Option.some.inj h
    exact .other

end model

section calls
variable {σ β : Type} {nodes : LogbackNodes} {collectorAt : Int → ILogCollector σ} {otherCall : σ → β → σ}

/-- The event of a call that has ended, with its connection. -/
def turnOf (call : Nat × LoggingEvent × Outcome) : Nat × LoggingEvent := (call.1, call.2.1)

theorem calls_of_server {s t : ThreadPooledServer LoggingEvent} {a : ServerAction LoggingEvent}
    (ha : ∀ i outcome, a ≠ .process i outcome) (h : s.step a = some t) : t.calls = s.calls := by
  cases ThreadPooledServer.step_cases h with
  | process => exact absurd rfl (ha _ _)
  | connect | arrive | accept | createWorker | execute | start | read | opens | opensNot | goesOn | leavesLoop
  | acceptReturns | acceptThrows | rejects | shutdown | stop | closesNot | close => rfl

theorem calls_of_process {s t : ThreadPooledServer LoggingEvent} {i : Nat} {outcome : Outcome}
    {n : LoggerAcceptorNode LoggingEvent} {event : LoggingEvent} (hn : s.connections[i]? = some n)
    (hphase : n.phase = .processing event) (h : s.step (.process i outcome) = some t) :
    t.calls = s.calls ++ [(i, event, outcome)] := by
  cases ThreadPooledServer.step_cases h with
  | process hn' hphase' =>
    obtain rfl := Option.some.inj (hn.symm.trans hn')
    rw [hphase] at hphase'
    cases hphase'
    rfl

/-- The turns of the workers are the calls that the server has seen. -/
structure Invariant (s : LogbackTCPAdapter σ β) : Prop where
  server : ∃ as, Run ThreadPooledServer.step .initial as s.server
  calls : s.turns.filterMap Sum.getLeft? = s.server.calls.map turnOf

theorem invariant_initial (collector : σ) : Invariant (initial collector : LogbackTCPAdapter σ β) where
  server := ⟨[], .nil _⟩
  calls := rfl

theorem run_snoc {s t : ThreadPooledServer LoggingEvent} {a : ServerAction LoggingEvent}
    (hs : ∃ as, Run ThreadPooledServer.step .initial as s) (h : s.step a = some t) :
    ∃ as, Run ThreadPooledServer.step .initial as t := by
  obtain ⟨as, has⟩ := hs
  exact ⟨as ++ [a], has.append (.cons h (.nil _))⟩

theorem invariant_step {s t : LogbackTCPAdapter σ β} {a : TCPAdapterAction β} (hs : Invariant s)
    (h : step nodes collectorAt otherCall s a = some t) : Invariant t := by
  cases step_cases h with
  | server ha hserver => exact ⟨run_snoc hs.server hserver, by rw [calls_of_server ha hserver]; exact hs.calls⟩
  | call hn hphase hserver =>
    refine ⟨run_snoc hs.server hserver, ?_⟩
    rw [calls_of_process hn hphase hserver, List.filterMap_append, List.map_append, hs.calls]
    rfl
  | other =>
    refine ⟨hs.server, ?_⟩
    rw [List.filterMap_append, hs.calls]
    exact List.append_nil _

theorem invariant_run {s : LogbackTCPAdapter σ β} {collector : σ} {as : List (TCPAdapterAction β)}
    (h : Run (step nodes collectorAt otherCall) (initial collector) as s) : Invariant s :=
  h.invariant (fun _ _ _ hs ha => invariant_step hs ha) (invariant_initial collector)

end calls

section stored
variable {c : Collation} {nodes : LogbackNodes} {dates : DateColumns} {toString : LogData → Text} {db : LogDatabase c}

def logOfTurn (nodes : LogbackNodes) (dates : DateColumns) (turn : Nat × LoggingEvent) : Option LogParameters :=
  logOfEvent dates nodes.levels nodes.program ⟨turn.2, nodes.inetAddress turn.1⟩

/-- The logs that are stored for a connection. -/
def storedFor (nodes : LogbackNodes) (dates : DateColumns) (turns : List ((Nat × LoggingEvent) ⊕ StoreCall)) (i : Nat) :
    List LogParameters :=
  ((turns.filterMap Sum.getLeft?).filter fun turn => decide (turn.1 = i)).filterMap (logOfTurn nodes dates)

/-- The logs of the events in front of the first one that cannot be saved. -/
def logsUntilFailure (nodes : LogbackNodes) (dates : DateColumns) (i : Nat) (events : List LoggingEvent) :
    List LogParameters :=
  (events.takeWhile fun event => (logOfTurn nodes dates (i, event)).isSome).filterMap fun event =>
    logOfTurn nodes dates (i, event)

/-- The store is that of the turns, and the calls that returned are those for the events whose
logs can be saved. -/
def StoredTurns (nodes : LogbackNodes) (dates : DateColumns) (before : Store c)
    (s : LogbackTCPAdapter (LogDatabase c) StoreCall) : Prop :=
  Stored (logOfTurn nodes dates) before s.turns s.collector.store ∧
    ∀ call ∈ s.server.calls, (logOfTurn nodes dates (turnOf call)).isSome = true ↔ call.2.2 = .returned

theorem outcomeOf_eq_returned {result : Except JavaException PUnit} :
    outcomeOf result = .returned ↔ result.isOk = true := by
  cases result with
  | ok => exact ⟨fun _ => rfl, fun _ => rfl⟩
  | error => exact ⟨(nomatch ·), (nomatch ·)⟩

theorem storedTurns_step {before : Store c} {s t : LogbackTCPAdapter (LogDatabase c) StoreCall}
    {a : TCPAdapterAction StoreCall} (hs : StoredTurns nodes dates before s)
    (h : step nodes (databaseCollector toString dates) otherCall s a = some t) : StoredTurns nodes dates before t := by
  cases step_cases h with
  | server ha hserver => exact ⟨hs.1, by rw [calls_of_server ha hserver]; exact hs.2⟩
  | @call i now n event server hn hphase hserver =>
    obtain ⟨hok, hstore⟩ := @processEvent_databaseCollector c dates nodes.levels nodes.program toString now s.collector
      ⟨event, nodes.inetAddress i⟩
    refine ⟨?_, ?_⟩
    · dsimp only [processNodeEvent]
      rw [hstore]
      exact hs.1.turn (i, event)
    · rw [calls_of_process hn hphase hserver]
      refine List.forall_mem_append.mpr ⟨hs.2, List.forall_mem_singleton.mpr ?_⟩
      rw [outcomeOf_eq_returned, processNodeEvent, hok]
      rfl
  | @other call => exact ⟨hs.1.other call, hs.2⟩

/-- A connection's share of the turns. -/
theorem storedFor_eq {s : LogbackTCPAdapter (LogDatabase c) StoreCall} (hs : Invariant s) (i : Nat) :
    storedFor nodes dates s.turns i = (((s.server.callsOf i).map Prod.fst).filter fun event =>
      (logOfTurn nodes dates (i, event)).isSome).filterMap fun event => logOfTurn nodes dates (i, event) := by
  have hsome (events : List LoggingEvent) : (events.filter fun event =>
      (logOfTurn nodes dates (i, event)).isSome).filterMap (fun event => logOfTurn nodes dates (i, event)) =
        events.filterMap fun event => logOfTurn nodes dates (i, event) := by
    rw [List.filterMap_filter]
    congr 1
    funext event
    cases logOfTurn nodes dates (i, event) with
    | none => rfl
    | some p => rfl
  unfold storedFor ThreadPooledServer.callsOf
  rw [hsome, hs.calls, List.filter_map, List.filterMap_map, List.map_map, List.filterMap_map]
  refine List.filterMap_congr fun call hcall => ?_
  obtain rfl := of_decide_eq_true (List.mem_filter.mp hcall).2
  rfl

/-- The events of a connection are stored once each and in order up to the first one that cannot
be saved; the call for that one throws and closes the connection, while the other connections
go on. -/
theorem sent_events_stored {as : List (TCPAdapterAction StoreCall)} {s : LogbackTCPAdapter (LogDatabase c) StoreCall}
    (hdb : Ledger db.store) (h : Run (step nodes (databaseCollector toString dates) otherCall) (initial db) as s) :
    Ledger s.collector.store ∧
      s.collector.store.saved.map Prod.fst =
        db.store.saved.map Prod.fst ++ s.turns.flatMap (logsOfTurn (logOfTurn nodes dates)) ∧
      ∀ i n, s.server.connections[i]? = some n →
        storedFor nodes dates s.turns i <+: logsUntilFailure nodes dates i (eventsOf n.arrived) ∧
          (n.phase = .reading ∧ n.unread = [] ∨ n.phase = .closed →
            storedFor nodes dates s.turns i = logsUntilFailure nodes dates i (eventsOf n.arrived)) ∧
          ∀ call ∈ s.server.callsOf i, logOfTurn nodes dates (i, call.1) = none → call.2 = .threw ∧ n.phase = .closed := by
  have hstored : StoredTurns nodes dates db.store s :=
    h.invariant (I := StoredTurns nodes dates db.store) (fun _ _ _ hs ha => storedTurns_step hs ha)
      ⟨.initial hdb, fun call hcall => absurd hcall List.not_mem_nil⟩
  refine ⟨hstored.1.1, hstored.1.2, fun i n hn => ?_⟩
  have hs := invariant_run h
  obtain ⟨bs, hserver⟩ := hs.server
  have hcalls : s.server.callsOf i = n.processed := by
    rw [ThreadPooledServer.callsOf_run hserver, ThreadPooledServer.processedAt, hn]
    rfl
  have houtcomes : ∀ call ∈ n.processed, (logOfTurn nodes dates (i, call.1)).isSome = true ↔ call.2 = .returned := by
    rw [← hcalls]
    refine List.forall_mem_map.mpr fun call hcall => ?_
    obtain ⟨hmem, hi⟩ := List.mem_filter.mp hcall
    rw [← of_decide_eq_true hi]
    exact hstored.2 call hmem
  have hnode := ThreadPooledServer.node_invariant hserver (List.mem_of_getElem? hn)
  obtain ⟨hfront, hdone⟩ := LoggerAcceptorNode.processed_until_failure
    (p := fun event => (logOfTurn nodes dates (i, event)).isSome) hnode houtcomes
  rw [storedFor_eq hs, hcalls]
  refine ⟨hfront.filterMap _, fun h => congrArg _ (hdone h), fun call hcall hnone => ?_⟩
  have hne : call.2 ≠ .returned := by
    rw [Ne, ← houtcomes call hcall, hnone]
    rintro ⟨⟩
  refine ⟨?_, ?_⟩
  · cases houtcome : call.2 with
    | returned => exact absurd houtcome hne
    | threw => rfl
  · by_contra hopen
    exact hne (LoggerAcceptorNode.allReturned_of_open hnode hopen call hcall)

end stored

section sample

/-- An event that no logger prints. -/
def unprintableEvent : LoggingEvent := { startedEvent with level := .OFF }

def sampleNodes : LogbackNodes := ⟨fun _ => ⟨"10.0.0.1".toList, "app.local".toList⟩, printableLevels, "srvlog".toList⟩

/-- A client sends three events, the second one of them at a level without a severity. -/
def threeEvents : List (TCPAdapterAction StoreCall) :=
  [.server (.openServerSocket true), .server .isStopped, .server .connect, .server (.accept 0),
    .server (.arrive 0 .header), .server .createWorker, .server .execute, .server (.start 0),
    .server (.arrive 0 (.object startedEvent)), .server (.arrive 0 (.object unprintableEvent)),
    .server (.arrive 0 (.object startedEvent)), .server (.read 0), .processEvent 0 0, .other .saveUnprocessed,
    .server (.read 0), .processEvent 0 0]

theorem second_event_closes : ∃ (s : LogbackTCPAdapter (LogDatabase Collation.binary) StoreCall)
    (n : LoggerAcceptorNode LoggingEvent), s.server.connections[0]? = some n ∧ n.phase = .closed ∧
    (eventsOf n.arrived).length = 3 ∧ s.collector.store.saved.length = 1 ∧
    Ledger s.collector.store ∧
      s.collector.store.saved.map Prod.fst =
        emptyTables.store.saved.map Prod.fst ++ s.turns.flatMap (logsOfTurn (logOfTurn sampleNodes utcColumns)) ∧
      ∀ i n, s.server.connections[i]? = some n →
        storedFor sampleNodes utcColumns s.turns i <+: logsUntilFailure sampleNodes utcColumns i (eventsOf n.arrived) ∧
          (n.phase = .reading ∧ n.unread = [] ∨ n.phase = .closed →
            storedFor sampleNodes utcColumns s.turns i =
              logsUntilFailure sampleNodes utcColumns i (eventsOf n.arrived)) ∧
          ∀ call ∈ s.server.callsOf i,
            logOfTurn sampleNodes utcColumns (i, call.1) = none → call.2 = .threw ∧ n.phase = .closed := by
  have hrun : ∃ (s : LogbackTCPAdapter (LogDatabase Collation.binary) StoreCall) (n : LoggerAcceptorNode LoggingEvent),
      exec (step sampleNodes (databaseCollector (fun _ => []) utcColumns) otherCall) (initial emptyTables) threeEvents =
        some s ∧ s.server.connections[0]? = some n ∧ n.phase = .closed ∧ (eventsOf n.arrived).length = 3 ∧
        s.collector.store.saved.length = 1 := ⟨_, _, rfl, rfl, rfl, rfl, rfl⟩
  obtain ⟨s, n, hs, hn, hphase, hevents, hsaved⟩ := hrun
  exact ⟨s, n, hn, hphase, hevents, hsaved, sent_events_stored ledger_empty (exec_eq_some_iff.mp hs)⟩

end sample
end LogbackTCPAdapter
end Srvlog.Logback
