import Srvlog.Logback.LogbackUDPAdapter
import Srvlog.Logback.SavedEvents

/-! Which events that come as datagrams are stored, over every interleaving of the threads. -/
namespace Srvlog.Logback
open Library Data Collector Database Udp

namespace LogbackUDPAdapter
variable {capacity : Nat}

section runs
variable {σ β : Type} {reader : LogbackReader} {collectorAt : Int → ILogCollector σ} {otherCall : σ → β → σ}

/-- The datagram that the processor has taken and not finished with. -/
def inHand : Processor → List Datagram
  | .taking => []
  | .processing datagram => [datagram]

/-- What was handed over has been processed but for the last datagram, in which reading has
found an error if the processor's thread has ended. -/
structure Invariant (reader : LogbackReader) (s : LogbackUDPAdapter capacity σ β) : Prop where
  server : ∃ as, Run UDPServer.step .initial as s.server
  handed : s.server.handed = s.processed ++ inHand s.server.processor
  ended : s.ended = true → ∃ datagram, s.server.processor = .processing datagram ∧ reader.readObject datagram.data = .error

theorem processed_other {s : LogbackUDPAdapter capacity σ β} {server : UDPServer capacity} {collector : σ} {ended : Bool}
    {call : β} : processed ⟨server, collector, ended, s.turns ++ [.inr call]⟩ = s.processed := by
  simp [processed]

theorem processed_finishes {s : LogbackUDPAdapter capacity σ β} {server : UDPServer capacity} {collector : σ}
    {ended : Bool} {datagram : Datagram} :
    processed ⟨server, collector, ended, s.turns ++ [.inl datagram]⟩ = s.processed ++ [datagram] := by
  simp [processed]

theorem invariant_initial (collector : σ) : Invariant reader (initial collector : LogbackUDPAdapter capacity σ β) where
  server := ⟨[], .nil _⟩
  handed := rfl
  ended := by rintro ⟨⟩

/-- The steps of the server apart from the processor's calls. -/
theorem handed_of_server {s t : UDPServer capacity} {a : ServerAction} {processed : List Datagram}
    (hs : s.handed = processed ++ inHand s.processor) (ha : ∀ outcome, a ≠ .process outcome) (h : s.step a = some t) :
    t.handed = processed ++ inHand t.processor ∧
      ∀ datagram, s.processor = .processing datagram → t.processor = .processing datagram ∧ t.handed = s.handed := by
  cases UDPServer.step_cases h with
  | clear | receiveFails | receive | copy | offer | interrupt => exact ⟨hs, fun _ hprocessor => ⟨hprocessor, rfl⟩⟩
  | take hprocessor =>
    rw [hprocessor, inHand, List.append_nil] at hs
    refine ⟨congrArg (· ++ _) hs, fun datagram hbusy => ?_⟩
    rw [hprocessor] at hbusy
    cases hbusy
  | process => exact absurd rfl (ha _)

theorem run_snoc {s t : UDPServer capacity} {a : ServerAction} (hs : ∃ as, Run UDPServer.step .initial as s)
    (h : s.step a = some t) : ∃ as, Run UDPServer.step .initial as t := by
  obtain ⟨as, has⟩ := hs
  exact ⟨as ++ [a], has.append (.cons h (.nil _))⟩

theorem invariant_step {s t : LogbackUDPAdapter capacity σ β} {a : AdapterAction β} (hs : Invariant reader s)
    (h : step reader collectorAt otherCall s a = some t) : Invariant reader t := by
  cases step_cases h with
  | other =>
    refine ⟨hs.server, ?_, hs.ended⟩
    rw [hs.handed, processed_other]
  | server ha hserver =>
    obtain ⟨hhanded, hbusy⟩ := handed_of_server hs.handed ha hserver
    refine ⟨run_snoc hs.server hserver, hhanded, fun hended => ?_⟩
    obtain ⟨datagram, hprocessor, hunreadable⟩ := hs.ended hended
    exact ⟨datagram, (hbusy datagram hprocessor).1, hunreadable⟩
  | finishes hended hprocessor hreadable =>
    have hreturned : s.server.step (.process .returned) = some { s.server with processor := .taking } := by
      rw [UDPServer.step, hprocessor]
    refine ⟨run_snoc hs.server hreturned, ?_, by rintro ⟨⟩⟩
    have hhanded := hs.handed
    rw [hprocessor] at hhanded
    rw [processed_finishes]
    exact hhanded.trans (List.append_nil _).symm
  | ends hended hprocessor hunreadable => exact ⟨hs.server, hs.handed, fun _ => ⟨_, hprocessor, hunreadable⟩⟩

theorem invariant_run {s : LogbackUDPAdapter capacity σ β} {collector : σ} {as : List (AdapterAction β)}
    (h : Run (step reader collectorAt otherCall) (initial collector) as s) : Invariant reader s :=
  h.invariant (fun _ _ _ hs ha => invariant_step hs ha) (invariant_initial collector)

/-- After an error only the other adapters call the collector; the server goes on to accept
datagrams until its queue is full. -/
theorem processing_ends {before after : List (AdapterAction β)} {collector : σ} {s t : LogbackUDPAdapter capacity σ β}
    (hs : Run (step reader collectorAt otherCall) (initial collector) before s) (hended : s.ended = true)
    (h : Run (step reader collectorAt otherCall) s after t) :
    (∃ calls : List β, t.turns = s.turns ++ calls.map .inr ∧ t.collector = calls.foldl otherCall s.collector) ∧
      t.server.accepted.length ≤ s.processed.length + 1 + capacity ∧
      ∀ o ∈ t.server.offers, o.accepted = false → o.queued = capacity := by
  have hkept : t.ended = true ∧
      ∃ calls : List β, t.turns = s.turns ++ calls.map .inr ∧ t.collector = calls.foldl otherCall s.collector := by
    refine h.invariant (I := fun t => t.ended = true ∧
      ∃ calls : List β, t.turns = s.turns ++ calls.map .inr ∧ t.collector = calls.foldl otherCall s.collector) ?_
      ⟨hended, [], (List.append_nil _).symm, rfl⟩
    rintro u a v ⟨hu, calls, hturns, hcollector⟩ ha
    cases step_cases ha with
    | @other call =>
      refine ⟨hu, calls ++ [call], ?_, ?_⟩
      · rw [hturns, List.map_append, ← List.append_assoc]
        rfl
      · rw [List.foldl_append, ← hcollector]
        rfl
    | server => exact ⟨hu, calls, hturns, hcollector⟩
    | finishes hrunning => exact absurd (hrunning.symm.trans hu) Bool.false_ne_true
    | ends hrunning => exact absurd (hrunning.symm.trans hu) Bool.false_ne_true
  obtain ⟨htended, calls, hturns, hcollector⟩ := hkept
  have hprocessed : t.processed = s.processed := by
    simp [processed, hturns]
  have ht := invariant_run (hs.append h)
  obtain ⟨as, hserver⟩ := ht.server
  have hinvariant := UDPServer.invariant_run hserver
  obtain ⟨datagram, hprocessor, -⟩ := ht.ended htended
  have hhanded := ht.handed
  rw [hprocessor, hprocessed] at hhanded
  have hqueue := t.server.queue.length_le
  refine ⟨⟨calls, hturns, hcollector⟩, ?_, hinvariant.discarded⟩
  rw [hinvariant.queue, hhanded, List.length_append, List.length_append, inHand, List.length_singleton]
  omega

end runs

section stored
variable {c : Collation} (reader : LogbackReader) (dates : DateColumns)

/-- The object in the datagram can be read and its sender has an address. -/
def logOfDatagram (datagram : Datagram) : Option LogParameters :=
  match reader.readObject datagram.data with
  | .event logEvent => datagram.sourceAddress.bind fun address =>
    logOfEvent dates reader.levels reader.program (serverEvent reader logEvent address)
  | _ => none

variable {reader dates} {toString : LogData → Text} {now : Int} {db : LogDatabase c}

/-- The store after the processor's call. -/
theorem store_of_processDatagram {datagram : Datagram} :
    (processDatagram reader (databaseCollector toString dates now) datagram db).2.store =
      ((logOfDatagram reader dates datagram).map fun p => (saveLog db.store p).2).getD db.store := by
  unfold processDatagram logOfDatagram
  cases reader.readObject datagram.data with
  | error => rfl
  | exception e => rfl
  | event logEvent =>
    cases datagram.sourceAddress with
    | none => rfl
    | some address =>
      dsimp only [Option.bind_some]
      rw [← (@processEvent_databaseCollector c dates _ _ toString now db _).2]
      split
      · next hresult => rw [hresult]
      · next hresult => rw [hresult]

theorem stored_step {before : Store c} {s t : LogbackUDPAdapter capacity (LogDatabase c) StoreCall}
    {a : AdapterAction StoreCall} (hs : Stored (logOfDatagram reader dates) before s.turns s.collector.store)
    (h : step reader (databaseCollector toString dates) otherCall s a = some t) :
    Stored (logOfDatagram reader dates) before t.turns t.collector.store := by
  cases step_cases h with
  | server | ends => exact hs
  | @other call => exact hs.other call
  | @finishes now datagram =>
    dsimp only
    rw [store_of_processDatagram]
    exact hs.turn datagram

/-- Each processed datagram whose log can be saved is in the store once, among the logs of the
other adapters; the processed datagrams are the accepted ones, in order, up to the one in hand. -/
theorem received_events_stored {as : List (AdapterAction StoreCall)}
    {s : LogbackUDPAdapter capacity (LogDatabase c) StoreCall} (hdb : Ledger db.store)
    (h : Run (step reader (databaseCollector toString dates) otherCall) (initial db) as s) :
    Ledger s.collector.store ∧
      s.collector.store.saved.map Prod.fst =
        db.store.saved.map Prod.fst ++ s.turns.flatMap (logsOfTurn (logOfDatagram reader dates)) ∧
      s.server.accepted = s.processed ++ inHand s.server.processor ++ s.server.queue.items ∧
      s.server.accepted.Sublist s.server.receivedDatagrams ∧
      (∀ o ∈ s.server.offers, o.accepted = false → o.queued = capacity) := by
  have hstored : Stored (logOfDatagram reader dates) db.store s.turns s.collector.store :=
    h.invariant (I := fun s => Stored (logOfDatagram reader dates) db.store s.turns s.collector.store)
      (fun _ _ _ hs ha => stored_step hs ha) (.initial hdb)
  have hs := invariant_run h
  obtain ⟨bs, hserver⟩ := hs.server
  have hinvariant := UDPServer.invariant_run hserver
  obtain ⟨pending, hoffered, -⟩ := UDPServer.offered_prefix hinvariant
  refine ⟨hstored.1, hstored.2, ?_, ?_, hinvariant.discarded⟩
  · rw [← hs.handed]
    exact hinvariant.queue
  · rw [hoffered]
    exact (List.filter_sublist.map _).trans (List.sublist_append_left _ _)

end stored

section sample

/-- A reader for senders that all send the same object. -/
def sampleReader (object : ReadObject) : LogbackReader where
  readObject _ := object
  hostName address := address
  levels := printableLevels
  program := "srvlog".toList

/-- The steps for one datagram. -/
def receiving (byte : UInt8) : List (AdapterAction StoreCall) :=
  [.server .clear, .server (.receive (some (UDPServer.samplePacket byte))), .server .copy, .server .offer]

/-- Two datagrams arrive after the one that ends the processing; the queue has room for one of them. -/
theorem processing_ends_at_error : ∃ s t : LogbackUDPAdapter 1 (LogDatabase Collation.binary) StoreCall,
    s.ended = true ∧ t.server.received.length = 3 ∧ t.server.accepted.length = 2 ∧
    ((∃ calls : List StoreCall, t.turns = s.turns ++ calls.map .inr ∧ t.collector = calls.foldl otherCall s.collector) ∧
      t.server.accepted.length ≤ s.processed.length + 1 + 1 ∧
      ∀ o ∈ t.server.offers, o.accepted = false → o.queued = 1) := by
  have hruns : ∃ s t : LogbackUDPAdapter 1 (LogDatabase Collation.binary) StoreCall,
      exec (step (sampleReader .error) (databaseCollector (fun _ => []) utcColumns) otherCall) (initial emptyTables)
        (receiving 1 ++ [.server .take, .processDatagram 0]) = some s ∧
      exec (step (sampleReader .error) (databaseCollector (fun _ => []) utcColumns) otherCall) s
        (receiving 2 ++ receiving 3) = some t ∧
      s.ended = true ∧ t.server.received.length = 3 ∧ t.server.accepted.length = 2 := ⟨_, _, rfl, rfl, rfl, rfl, rfl⟩
  obtain ⟨s, t, hs, ht, hended, hreceived, haccepted⟩ := hruns
  exact ⟨s, t, hended, hreceived, haccepted,
    processing_ends (exec_eq_some_iff.mp hs) hended (exec_eq_some_iff.mp ht)⟩

/-- The event of the first datagram is stored, between two moves of other adapters. -/
theorem first_event_stored : ∃ s : LogbackUDPAdapter 1 (LogDatabase Collation.binary) StoreCall,
    s.processed.length = 1 ∧ s.collector.store.saved.length = 1 ∧
    (Ledger s.collector.store ∧
      s.collector.store.saved.map Prod.fst =
        emptyTables.store.saved.map Prod.fst ++ s.turns.flatMap (logsOfTurn (logOfDatagram (sampleReader (.event startedEvent)) utcColumns)) ∧
      s.server.accepted = s.processed ++ inHand s.server.processor ++ s.server.queue.items ∧
      s.server.accepted.Sublist s.server.receivedDatagrams ∧
      (∀ o ∈ s.server.offers, o.accepted = false → o.queued = 1)) := by
  have hrun : ∃ s : LogbackUDPAdapter 1 (LogDatabase Collation.binary) StoreCall,
      exec (step (sampleReader (.event startedEvent)) (databaseCollector (fun _ => []) utcColumns) otherCall)
        (initial emptyTables)
        (receiving 1 ++ [.other .saveUnprocessed, .server .take, .processDatagram 0, .other .saveUnprocessed]) = some s ∧
      s.processed.length = 1 ∧ s.collector.store.saved.length = 1 := ⟨_, rfl, rfl, rfl⟩
  obtain ⟨s, hs, hprocessed, hsaved⟩ := hrun
  exact ⟨s, hprocessed, hsaved, received_events_stored ledger_empty (exec_eq_some_iff.mp hs)⟩

end sample
end LogbackUDPAdapter
end Srvlog.Logback
