import Srvlog.Logback.LogbackAdapter
import Srvlog.Udp.DatagramDelivery

/-! The adapter for events of logback that come as datagrams, behind the UDP server. -/
namespace Srvlog.Logback
open Library Data Collector Udp

/-- What comes of reading the object in a datagram. Null and objects of other classes are left
to the calls that they make throw. An error is no exception: it passes the catch of the
processor's loop. -/
inductive ReadObject where
  | event (logEvent : LoggingEvent)
  | exception (e : JavaException)
  | error

/-- The settings of the adapter, with the deserialisation and the names that addresses have. -/
structure LogbackReader where
  readObject : Bytes → ReadObject
  hostName : Text → Text
  levels : LevelToSyslogSeverity
  program : Text

inductive Processed where
  | returned
  | threw
  | error

section processor
variable {σ : Type} (reader : LogbackReader)

def serverEvent (logEvent : LoggingEvent) (address : Text) : ServerLogbackEvent :=
  ⟨logEvent, ⟨address, reader.hostName address⟩⟩

/-- `LogbackProcessor.processDatagram`. Without an address the name of the host cannot be asked for. -/
def processDatagram (collector : ILogCollector σ) (datagram : Datagram) (s : σ) : Processed × σ :=
  match reader.readObject datagram.data with
  | .error => (.error, s)
  | .exception _ => (.threw, s)
  | .event logEvent => match datagram.sourceAddress with
    | none => (.threw, s)
    | some address => match processEvent reader.levels reader.program collector (serverEvent reader logEvent address) s with
      | (.ok _, after) => (.returned, after)
      | (.error _, after) => (.threw, after)

end processor

/-- The server with what is behind it. `turns` is an auxiliary variable: the datagrams that the
processor has finished with, and the calls of the other adapters between them. -/
structure LogbackUDPAdapter (capacity : Nat) (σ β : Type) where
  server : UDPServer capacity
  collector : σ
  ended : Bool
  turns : List (Datagram ⊕ β)

inductive AdapterAction (β : Type) where
  | server (a : ServerAction)
  | processDatagram (now : Int)
  | other (call : β)

namespace LogbackUDPAdapter
variable {capacity : Nat} {σ β : Type}

def initial (collector : σ) : LogbackUDPAdapter capacity σ β := ⟨.initial, collector, false, []⟩

def processed (s : LogbackUDPAdapter capacity σ β) : List Datagram := s.turns.filterMap Sum.getLeft?

/-- The processor goes round its loop. -/
def goRound (s : LogbackUDPAdapter capacity σ β) (datagram : Datagram) (after : σ) (outcome : Outcome) :
    Option (LogbackUDPAdapter capacity σ β) :=
  (s.server.step (.process outcome)).map fun server => ⟨server, after, false, s.turns ++ [.inl datagram]⟩

/-- The outcomes of the processor's calls are those of the adapter. Its thread ends with an error. -/
def step (reader : LogbackReader) (collectorAt : Int → ILogCollector σ) (otherCall : σ → β → σ)
    (s : LogbackUDPAdapter capacity σ β) : AdapterAction β → Option (LogbackUDPAdapter capacity σ β)
  | .other call => some { s with collector := otherCall s.collector call, turns := s.turns ++ [.inr call] }
  | .server (.process _) => none
  | .server a => (s.server.step a).map fun server => { s with server := server }
  | .processDatagram now => if s.ended then none else match s.server.processor with
    | .taking => none
    | .processing datagram => match processDatagram reader (collectorAt now) datagram s.collector with
      | (.returned, after) => s.goRound datagram after .returned
      | (.threw, after) => s.goRound datagram after .threw
      | (.error, after) => some { s with collector := after, ended := true }

/-- What a step can do: one step of the server apart from the processor's calls, the call for the
datagram that is in the processor's hands, or a call of another adapter. -/
inductive StepCase (reader : LogbackReader) (collectorAt : Int → ILogCollector σ) (otherCall : σ → β → σ)
    (s : LogbackUDPAdapter capacity σ β) : LogbackUDPAdapter capacity σ β → Prop where
  | other {call : β} : StepCase reader collectorAt otherCall s
      { s with collector := otherCall s.collector call, turns := s.turns ++ [.inr call] }
  | server {a : ServerAction} {server : UDPServer capacity} (ha : ∀ outcome, a ≠ .process outcome)
    (hserver : s.server.step a = some server) : StepCase reader collectorAt otherCall s { s with server := server }
  | finishes {now : Int} {datagram : Datagram} (hended : s.ended = false)
    (hprocessor : s.server.processor = .processing datagram) (hreadable : reader.readObject datagram.data ≠ .error) :
    StepCase reader collectorAt otherCall s ⟨{ s.server with processor := .taking },
      (processDatagram reader (collectorAt now) datagram s.collector).2, false, s.turns ++ [.inl datagram]⟩
  | ends {datagram : Datagram} (hended : s.ended = false) (hprocessor : s.server.processor = .processing datagram)
    (hunreadable : reader.readObject datagram.data = .error) :
    StepCase reader collectorAt otherCall s { s with ended := true }

variable {reader : LogbackReader} {collectorAt : Int → ILogCollector σ} {otherCall : σ → β → σ}

/-- Only the deserialisation raises errors. -/
theorem readable_of_processed {collector : ILogCollector σ} {datagram : Datagram} {s : σ}
    (h : (processDatagram reader collector datagram s).1 ≠ .error) : reader.readObject datagram.data ≠ .error := by
  intro herror
  apply h
  rw [processDatagram, herror]

theorem processDatagram_eq_error {collector : ILogCollector σ} {datagram : Datagram} {s after : σ}
    (h : processDatagram reader collector datagram s = (.error, after)) :
    reader.readObject datagram.data = .error ∧ after = s := by
  unfold processDatagram at h
  split at h
  · next herror => exact ⟨herror, (Prod.mk.inj h).2.symm⟩
  · cases h
  · split at h
    · cases h
    · split at h <;> cases h

theorem goRound_eq_some {s t : LogbackUDPAdapter capacity σ β} {datagram : Datagram} {after : σ} {outcome : Outcome}
    (h : s.goRound datagram after outcome = some t) :
    t = ⟨{ s.server with processor := .taking }, after, false, s.turns ++ [.inl datagram]⟩ := by
  obtain ⟨server, hserver, rfl⟩ := Option.map_eq_some_iff.mp h
  cases UDPServer.step_cases hserver with
  | process => rfl

theorem step_cases {s t : LogbackUDPAdapter capacity σ β} {a : AdapterAction β}
    (h : step reader collectorAt otherCall s a = some t) : StepCase reader collectorAt otherCall s t := by
  cases a with
  | other call =>
    obtain rfl := Option.some.inj h
    exact .other
  | server a =>
    cases a with
    | process outcome => cases h
    | clear | receive packet | copy | offer | take | interrupt =>
      obtain ⟨server, hserver, rfl⟩ := Option.map_eq_some_iff.mp h
      exact .server (by rintro outcome ⟨⟩) hserver
  | processDatagram now =>
    simp only [step] at h
    split at h
    · cases h
    · next hended =>
      rw [Bool.not_eq_true] at hended
      split at h
      · cases h
      · next datagram hprocessor =>
        have hcall : (processDatagram reader (collectorAt now) datagram s.collector).1 ≠ .error → ∀ outcome,
            s.goRound datagram (processDatagram reader (collectorAt now) datagram s.collector).2 outcome = some t →
              StepCase reader collectorAt otherCall s t := by
          intro hresult outcome hround
          rw [goRound_eq_some hround]
          exact .finishes hended hprocessor (readable_of_processed hresult)
        split at h
        · next after hresult =>
          exact hcall (by rw [hresult]; rintro ⟨⟩) .returned (by rw [hresult]; exact h)
        · next after hresult =>
          exact hcall (by rw [hresult]; rintro ⟨⟩) .threw (by rw [hresult]; exact h)
        · next after hresult =>
          obtain rfl := Option.some.inj h
          obtain ⟨hunreadable, rfl⟩ := processDatagram_eq_error hresult
          exact .ends hended hprocessor hunreadable

end LogbackUDPAdapter
end Srvlog.Logback
