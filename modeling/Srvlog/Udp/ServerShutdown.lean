import Srvlog.Udp.DatagramDelivery

/-! The UDP server from start() to the end of its threads: which steps stop() takes, and
whether the processor can still leave its loop afterwards. -/
namespace Srvlog.Udp
open Library

inductive StartStage where
  | notCalled
  | entered
  | opened
  | acceptorSubmitted
  | ended
  deriving DecidableEq

inductive DatagramChannel where
  | unbound
  | opened
  | closed
  deriving DecidableEq

inductive AcceptorThread where
  | waiting
  | running
  | caught
  | stopping
  | ended
  deriving DecidableEq

inductive ProcessorThread where
  | waiting
  | submitted
  | testing
  | looping
  | ended
  deriving DecidableEq

inductive StopCaller where
  | outside
  | acceptor
  deriving DecidableEq

/-- What stop() has done so far. -/
inductive StopStage where
  | flagged
  | closedChannel
  | shutAcceptor
  | shutProcessing
  deriving DecidableEq

/-- The field `stopping` holds who is in the synchronized method, and `interrupted` is the
interrupt status of the processor's thread. -/
structure StoppableServer (capacity : Nat) where
  server : UDPServer capacity
  starting : StartStage
  channel : DatagramChannel
  acceptorThread : AcceptorThread
  processorThread : ProcessorThread
  stopping : Option (StopCaller × StopStage)
  stopped : Bool
  acceptorShutdown : Bool
  processingShutdown : Bool
  interrupted : Bool
  stopReturned : Bool

inductive ThreadAction where
  | callStart
  | openChannel
  | submitAcceptor
  | submitProcessor
  | acceptorTest
  | receive (packet : Option Packet)
  | receiveFails
  | copy
  | offer
  | catchException
  | processorBegin
  | processorTest
  | take
  | takeInterrupted
  | process (outcome : Outcome)
  | callStop (caller : StopCaller)
  | closeChannel
  | shutdownAcceptor
  | shutdownProcessing
  | returnFromStop

namespace StoppableServer
variable {capacity : Nat}

def initial : StoppableServer capacity where
  server := .initial
  starting := .notCalled
  channel := .unbound
  acceptorThread := .waiting
  processorThread := .waiting
  stopping := none
  stopped := false
  acceptorShutdown := false
  processingShutdown := false
  interrupted := false
  stopReturned := false

/-- The acceptor's own call of stop() is the last thing it does. -/
def leaveStop (s : StoppableServer capacity) : StopCaller → StoppableServer capacity
  | .outside => { s with stopping := none, stopReturned := true }
  | .acceptor => { s with stopping := none, stopReturned := true, acceptorThread := .ended }

/-- One step of one of the threads. A worker that runs its task is not idle, so a shutdown
does not interrupt it; an interrupt from before the task is cleared when the task begins. -/
def step (s : StoppableServer capacity) : ThreadAction → Option (StoppableServer capacity)
  | .callStart => if s.starting = .notCalled then some { s with starting := .entered } else none
  | .openChannel => if s.starting = .entered then some { s with starting := .opened, channel := .opened } else none
  | .submitAcceptor => if s.starting = .opened then
      -- an executor that is shut down rejects the task, and start() throws
      if s.acceptorShutdown then some { s with starting := .ended }
      else some { s with starting := .acceptorSubmitted, acceptorThread := .running }
    else none
  | .submitProcessor => if s.starting = .acceptorSubmitted then
      if s.processingShutdown then some { s with starting := .ended }
      else some { s with starting := .ended, processorThread := .submitted }
    else none
  | .acceptorTest => if s.acceptorThread = .running then
      (s.server.step .clear).map fun server =>
        if s.stopped then { s with acceptorThread := .ended } else { s with server := server }
    else none
  | .receive packet => if s.acceptorThread = .running ∧ s.channel = .opened then
      (s.server.step (.receive packet)).map fun server => { s with server := server }
    else none
  | .receiveFails => if s.acceptorThread = .running then
      (s.server.step (.receive none)).map fun _ => { s with acceptorThread := .caught }
    else none
  | .copy => if s.acceptorThread = .running then
      (s.server.step .copy).map fun server => { s with server := server }
    else none
  | .offer => if s.acceptorThread = .running then
      (s.server.step .offer).map fun server => { s with server := server }
    else none
  | .catchException => if s.acceptorThread = .caught then
      some { s with acceptorThread := if s.stopped then .ended else .stopping }
    else none
  | .processorBegin => if s.processorThread = .submitted then
      some { s with processorThread := .testing, interrupted := false }
    else none
  | .processorTest => if s.processorThread = .testing then
      some { s with processorThread := if s.stopped then .ended else .looping }
    else none
  | .take => if s.processorThread = .looping ∧ s.interrupted = false then
      (s.server.step .take).map fun server => { s with server := server }
    else none
  | .takeInterrupted => if s.processorThread = .looping ∧ s.interrupted = true then
      (s.server.step .interrupt).map fun server =>
        { s with server := server, processorThread := .testing, interrupted := false }
    else none
  | .process outcome => if s.processorThread = .looping then
      (s.server.step (.process outcome)).map fun server => { s with server := server, processorThread := .testing }
    else none
  | .callStop caller => if s.stopping = none ∧ (caller = .acceptor → s.acceptorThread = .stopping) then
      if s.stopped then some (s.leaveStop caller)
      else some { s with stopped := true, stopping := some (caller, .flagged) }
    else none
  | .closeChannel => match s.stopping with
    | some (caller, .flagged) =>
      -- without a channel stop() throws a NullPointerException
      if s.channel = .unbound then some { s with stopping := none }
      else some { s with channel := .closed, stopping := some (caller, .closedChannel) }
    | _ => none
  | .shutdownAcceptor => match s.stopping with
    | some (caller, .closedChannel) => some { s with acceptorShutdown := true, stopping := some (caller, .shutAcceptor) }
    | _ => none
  | .shutdownProcessing => match s.stopping with
    | some (caller, .shutAcceptor) => some { s with
        processingShutdown := true
        interrupted := s.interrupted || decide (s.processorThread = .submitted ∨ s.processorThread = .ended)
        stopping := some (caller, .shutProcessing) }
    | _ => none
  -- after the acceptor has ended, or after three seconds
  | .returnFromStop => match s.stopping with
    | some (caller, .shutProcessing) => some (s.leaveStop caller)
    | _ => none

/-- What a step needs and what it leaves, one case for each way through it. -/
inductive StepCase (s : StoppableServer capacity) : ThreadAction → StoppableServer capacity → Prop where
  | callStart (hstart : s.starting = .notCalled) : StepCase s .callStart { s with starting := .entered }
  | openChannel (hstart : s.starting = .entered) :
    StepCase s .openChannel { s with starting := .opened, channel := .opened }
  | rejectAcceptor (hstart : s.starting = .opened) : StepCase s .submitAcceptor { s with starting := .ended }
  | submitAcceptor (hstart : s.starting = .opened) :
    StepCase s .submitAcceptor { s with starting := .acceptorSubmitted, acceptorThread := .running }
  | rejectProcessor (hstart : s.starting = .acceptorSubmitted) :
    StepCase s .submitProcessor { s with starting := .ended }
  | submitProcessor (hstart : s.starting = .acceptorSubmitted) :
    StepCase s .submitProcessor { s with starting := .ended, processorThread := .submitted }
  | acceptorEnds {server : UDPServer capacity} (hthread : s.acceptorThread = .running)
    (hserver : s.server.step .clear = some server) : StepCase s .acceptorTest { s with acceptorThread := .ended }
  | acceptorTest {server : UDPServer capacity} (hthread : s.acceptorThread = .running)
    (hserver : s.server.step .clear = some server) : StepCase s .acceptorTest { s with server := server }
  | receive {packet : Option Packet} {server : UDPServer capacity} (hopen : s.channel = .opened)
    (hserver : s.server.step (.receive packet) = some server) : StepCase s (.receive packet) { s with server := server }
  | receiveFails {server : UDPServer capacity} (hthread : s.acceptorThread = .running)
    (hserver : s.server.step (.receive none) = some server) :
    StepCase s .receiveFails { s with acceptorThread := .caught }
  | copy {server : UDPServer capacity} (hthread : s.acceptorThread = .running)
    (hserver : s.server.step .copy = some server) : StepCase s .copy { s with server := server }
  | offer {server : UDPServer capacity} (hthread : s.acceptorThread = .running)
    (hserver : s.server.step .offer = some server) : StepCase s .offer { s with server := server }
  | catchException (hthread : s.acceptorThread = .caught) :
    StepCase s .catchException { s with acceptorThread := if s.stopped then .ended else .stopping }
  | processorBegin (hthread : s.processorThread = .submitted) :
    StepCase s .processorBegin { s with processorThread := .testing, interrupted := false }
  | processorTest (hthread : s.processorThread = .testing) :
    StepCase s .processorTest { s with processorThread := if s.stopped then .ended else .looping }
  | take {server : UDPServer capacity} (hserver : s.server.step .take = some server) :
    StepCase s .take { s with server := server }
  | takeInterrupted {server : UDPServer capacity} (hthread : s.processorThread = .looping)
    (hinterrupted : s.interrupted = true) (hserver : s.server.step .interrupt = some server) :
    StepCase s .takeInterrupted { s with server := server, processorThread := .testing, interrupted := false }
  | process {outcome : Outcome} {server : UDPServer capacity} (hthread : s.processorThread = .looping)
    (hserver : s.server.step (.process outcome) = some server) :
    StepCase s (.process outcome) { s with server := server, processorThread := .testing }
  | stopAgain {caller : StopCaller} (hfree : s.stopping = none) (hstopped : s.stopped = true)
    (hcaller : caller = .acceptor → s.acceptorThread = .stopping) : StepCase s (.callStop caller) (s.leaveStop caller)
  | callStop {caller : StopCaller} (hrunning : s.stopped ≠ true)
    (hcaller : caller = .acceptor → s.acceptorThread = .stopping) :
    StepCase s (.callStop caller) { s with stopped := true, stopping := some (caller, .flagged) }
  | closeFails {caller : StopCaller} (hstage : s.stopping = some (caller, .flagged)) (hunbound : s.channel = .unbound) :
    StepCase s .closeChannel { s with stopping := none }
  | closeChannel {caller : StopCaller} (hstage : s.stopping = some (caller, .flagged)) (hbound : s.channel ≠ .unbound) :
    StepCase s .closeChannel { s with channel := .closed, stopping := some (caller, .closedChannel) }
  | shutdownAcceptor {caller : StopCaller} (hstage : s.stopping = some (caller, .closedChannel)) :
    StepCase s .shutdownAcceptor { s with acceptorShutdown := true, stopping := some (caller, .shutAcceptor) }
  | shutdownProcessing {caller : StopCaller} (hstage : s.stopping = some (caller, .shutAcceptor)) :
    StepCase s .shutdownProcessing { s with
      processingShutdown := true
      interrupted := s.interrupted || decide (s.processorThread = .submitted ∨ s.processorThread = .ended)
      stopping := some (caller, .shutProcessing) }
  | returnFromStop {caller : StopCaller} (hstage : s.stopping = some (caller, .shutProcessing)) :
    StepCase s .returnFromStop (s.leaveStop caller)

theorem step_cases {s t : StoppableServer capacity} {a : ThreadAction} (h : s.step a = some t) : StepCase s a t := by
  cases a with
  | callStart =>
    obtain ⟨hstart, rfl⟩ := by simpa only [step, Option.ite_none_right_eq_some, Option.some.injEq] using h
    exact .callStart hstart
  | openChannel =>
    obtain ⟨hstart, rfl⟩ := by simpa only [step, Option.ite_none_right_eq_some, Option.some.injEq] using h
    exact .openChannel hstart
  | submitAcceptor =>
    simp only [step, Option.ite_none_right_eq_some] at h
    obtain ⟨hstart, h⟩ := h
    split at h
    · obtain rfl := Option.some.inj h
      exact .rejectAcceptor hstart
    · obtain rfl := Option.some.inj h
      exact .submitAcceptor hstart
  | submitProcessor =>
    simp only [step, Option.ite_none_right_eq_some] at h
    obtain ⟨hstart, h⟩ := h
    split at h
    · obtain rfl := Option.some.inj h
      exact .rejectProcessor hstart
    · obtain rfl := Option.some.inj h
      exact .submitProcessor hstart
  | acceptorTest =>
    simp only [step, Option.ite_none_right_eq_some, Option.map_eq_some_iff] at h
    obtain ⟨hthread, server, hserver, rfl⟩ := h
    split
    · exact .acceptorEnds hthread hserver
    · exact .acceptorTest hthread hserver
  | receive packet =>
    simp only [step, Option.ite_none_right_eq_some, Option.map_eq_some_iff] at h
    obtain ⟨⟨-, hopen⟩, server, hserver, rfl⟩ := h
    exact .receive hopen hserver
  | receiveFails =>
    simp only [step, Option.ite_none_right_eq_some, Option.map_eq_some_iff] at h
    obtain ⟨hthread, server, hserver, rfl⟩ := h
    exact .receiveFails hthread hserver
  | copy =>
    simp only [step, Option.ite_none_right_eq_some, Option.map_eq_some_iff] at h
    obtain ⟨hthread, server, hserver, rfl⟩ := h
    exact .copy hthread hserver
  | offer =>
    simp only [step, Option.ite_none_right_eq_some, Option.map_eq_some_iff] at h
    obtain ⟨hthread, server, hserver, rfl⟩ := h
    exact .offer hthread hserver
  | catchException =>
    obtain ⟨hthread, rfl⟩ := by simpa only [step, Option.ite_none_right_eq_some, Option.some.injEq] using h
    exact .catchException hthread
  | processorBegin =>
    obtain ⟨hthread, rfl⟩ := by simpa only [step, Option.ite_none_right_eq_some, Option.some.injEq] using h
    exact .processorBegin hthread
  | processorTest =>
    obtain ⟨hthread, rfl⟩ := by simpa only [step, Option.ite_none_right_eq_some, Option.some.injEq] using h
    exact .processorTest hthread
  | take =>
    simp only [step, Option.ite_none_right_eq_some, Option.map_eq_some_iff] at h
    obtain ⟨-, server, hserver, rfl⟩ := h
    exact .take hserver
  | takeInterrupted =>
    simp only [step, Option.ite_none_right_eq_some, Option.map_eq_some_iff] at h
    obtain ⟨⟨hthread, hinterrupted⟩, server, hserver, rfl⟩ := h
    exact .takeInterrupted hthread hinterrupted hserver
  | process outcome =>
    simp only [step, Option.ite_none_right_eq_some, Option.map_eq_some_iff] at h
    obtain ⟨hthread, server, hserver, rfl⟩ := h
    exact .process hthread hserver
  | callStop caller =>
    simp only [step, Option.ite_none_right_eq_some] at h
    obtain ⟨⟨hfree, hcaller⟩, h⟩ := h
    split at h
    · next hstopped =>
      obtain rfl := Option.some.inj h
      exact .stopAgain hfree hstopped hcaller
    · next hrunning =>
      obtain rfl := Option.some.inj h
      exact .callStop hrunning hcaller
  | closeChannel =>
    simp only [step] at h
    split at h
    · next hstage =>
      split at h
      · next hunbound =>
        obtain rfl := Option.some.inj h
        exact .closeFails hstage hunbound
      · next hbound =>
        obtain rfl := Option.some.inj h
        exact .closeChannel hstage hbound
    · cases h
  | shutdownAcceptor =>
    simp only [step] at h
    split at h
    · next hstage =>
      obtain rfl := Option.some.inj h
      exact .shutdownAcceptor hstage
    · cases h
  | shutdownProcessing =>
    simp only [step] at h
    split at h
    · next hstage =>
      obtain rfl := Option.some.inj h
      exact .shutdownProcessing hstage
    · cases h
  | returnFromStop =>
    simp only [step] at h
    split at h
    · next hstage =>
      obtain rfl := Option.some.inj h
      exact .returnFromStop hstage
    · cases h

/-- The processor waits in take() on an empty queue, and nobody has interrupted it. -/
def Blocked (s : StoppableServer capacity) : Prop :=
  s.processorThread = .looping ∧ s.server.processor = .taking ∧ s.server.queue.items = [] ∧ s.interrupted = false

/-- The acceptor has received a datagram that it has not offered yet. -/
def hasDatagram : Acceptor → Bool
  | .start => false
  | .cleared => false
  | .received _ => true
  | .copied _ => true

def Offering (s : StoppableServer capacity) : Prop :=
  s.acceptorThread = .running ∧ hasDatagram s.server.acceptor = true

/-- When stop() closes the channel and the processor waits, a datagram is left to wake it. -/
def ClosesSafely (s : StoppableServer capacity) (a : ThreadAction) : Prop :=
  a = .closeChannel → s.channel = .opened → s.Blocked → s.Offering

/-- Nothing can wake the processor any more. -/
def Stuck (s : StoppableServer capacity) : Prop := s.channel = .closed ∧ s.Blocked ∧ ¬ s.Offering

structure ShutdownInvariant (s : StoppableServer capacity) : Prop where
  unbound_iff : s.channel = .unbound ↔ s.starting = .notCalled ∨ s.starting = .entered
  unstarted : s.starting ≠ .ended → s.processorThread = .waiting
  unsubmitted : s.starting ≠ .ended → s.starting ≠ .acceptorSubmitted → s.acceptorThread = .waiting
  caller : ∀ stage, s.stopping = some (.acceptor, stage) → s.acceptorThread = .stopping
  closed : s.channel = .closed → s.stopped = true
  stopping : s.stopping ≠ none → s.stopped = true
  returned : s.stopReturned = true → s.stopped = true ∧ ∀ caller, s.stopping ≠ some (caller, .flagged)
  looping : s.stopped = true → s.channel ≠ .closed → (∀ caller, s.stopping ≠ some (caller, .flagged)) →
    s.processorThread ≠ .looping

section invariant
variable {s t : StoppableServer capacity}

theorem shutdownInvariant_initial : ShutdownInvariant (initial : StoppableServer capacity) := by
  constructor <;> simp [initial]

namespace ShutdownInvariant

theorem bound (hs : ShutdownInvariant s) (hstart : s.starting ≠ .notCalled) (hstart' : s.starting ≠ .entered) :
    s.channel ≠ .unbound := fun he => (hs.unbound_iff.mp he).elim hstart hstart'

/-- Only the server behind the acceptor's loop moves. -/
theorem setServer (hs : ShutdownInvariant s) (server : UDPServer capacity) :
    ShutdownInvariant { s with server := server } := { hs with }

theorem setAcceptor (hs : ShutdownInvariant s) {thread : AcceptorThread} (hwaiting : s.acceptorThread ≠ .waiting)
    (hstopping : s.acceptorThread ≠ .stopping) : ShutdownInvariant { s with acceptorThread := thread } :=
  { hs with
    unsubmitted := fun hstart hstart' => absurd (hs.unsubmitted hstart hstart') hwaiting
    caller := fun stage hstage => absurd (hs.caller stage hstage) hstopping }

/-- The processor's thread moves on, into take() only before the stop. -/
theorem setProcessor (hs : ShutdownInvariant s) {thread : ProcessorThread} (hwaiting : s.processorThread ≠ .waiting)
    (hthread : thread = .looping → s.stopped = false) (interrupted : Bool) :
    ShutdownInvariant { s with processorThread := thread, interrupted := interrupted } :=
  { hs with
    unstarted := fun hstart => absurd (hs.unstarted hstart) hwaiting
    looping := fun hstopped _ _ hlooping => by
      have hrunning := hthread hlooping
      rw [hstopped] at hrunning
      cases hrunning }

theorem leaveStop (hs : ShutdownInvariant s) (hstopped : s.stopped = true)
    (hstage : ∀ caller, s.stopping ≠ some (caller, .flagged)) {caller : StopCaller}
    (hcaller : caller = .acceptor → s.acceptorThread = .stopping) : ShutdownInvariant (s.leaveStop caller) := by
  cases caller with
  | outside =>
    exact { hs with
      caller := fun _ hnone => by cases hnone
      stopping := fun _ => hstopped
      returned := fun _ => ⟨hstopped, fun _ hnone => by cases hnone⟩
      looping := fun _ hopen _ => hs.looping hstopped hopen hstage }
  | acceptor =>
    exact { hs with
      unsubmitted := fun hstart hstart' => by
        have hwaiting := hs.unsubmitted hstart hstart'
        rw [hcaller rfl] at hwaiting
        cases hwaiting
      caller := fun _ hnone => by cases hnone
      stopping := fun _ => hstopped
      returned := fun _ => ⟨hstopped, fun _ hnone => by cases hnone⟩
      looping := fun _ hopen _ => hs.looping hstopped hopen hstage }

/-- A later stage of stop() is no different from an earlier one behind the first. -/
theorem setStage (hs : ShutdownInvariant s) {caller : StopCaller} {stage stage' : StopStage}
    (hstopping : s.stopping = some (caller, stage)) (hstage : stage ≠ .flagged) (hstage' : stage' ≠ .flagged)
    (acceptorShutdown processingShutdown interrupted : Bool) :
    ShutdownInvariant { s with
      stopping := some (caller, stage')
      acceptorShutdown := acceptorShutdown
      processingShutdown := processingShutdown
      interrupted := interrupted } := by
  have hstopped : s.stopped = true := hs.stopping (by simp [hstopping])
  have hlater : ∀ caller, s.stopping ≠ some (caller, .flagged) := by
    intro c
    simp [hstopping, hstage]
  exact { hs with
    caller := fun _ hstage => by
      obtain ⟨rfl, -⟩ := Prod.mk.inj (Option.some.inj hstage)
      exact hs.caller stage hstopping
    stopping := fun _ => hstopped
    returned := fun _ => ⟨hstopped, fun c => by simp [hstage']⟩
    looping := fun _ hopen _ => hs.looping hstopped hopen hlater }

end ShutdownInvariant

theorem shutdownInvariant_step {a : ThreadAction} (hs : ShutdownInvariant s) (h : s.step a = some t) :
    ShutdownInvariant t := by
  cases step_cases h with
  | callStart hstart =>
    exact { hs with
      unbound_iff := iff_of_true (hs.unbound_iff.mpr (Or.inl hstart)) (Or.inr rfl)
      unstarted := fun _ => hs.unstarted (by simp [hstart])
      unsubmitted := fun _ _ => hs.unsubmitted (by simp [hstart]) (by simp [hstart]) }
  | openChannel hstart =>
    have hwaiting := hs.unstarted (by simp [hstart])
    exact { hs with
      unbound_iff := by simp
      unstarted := fun _ => hwaiting
      unsubmitted := fun _ _ => hs.unsubmitted (by simp [hstart]) (by simp [hstart])
      closed := fun hclosed => by cases hclosed
      looping := fun _ _ _ => by simp [hwaiting] }
  | rejectAcceptor hstart =>
    have hbound := hs.bound (by simp [hstart]) (by simp [hstart])
    exact { hs with unbound_iff := by simpa using hbound, unstarted := by simp, unsubmitted := by simp }
  | submitAcceptor hstart =>
    have hbound := hs.bound (by simp [hstart]) (by simp [hstart])
    have hwaiting := hs.unsubmitted (by simp [hstart]) (by simp [hstart])
    exact { hs with
      unbound_iff := by simpa using hbound
      unstarted := fun _ => hs.unstarted (by simp [hstart])
      unsubmitted := by simp
      caller := fun stage hstage => by
        have hcaller := hs.caller stage hstage
        rw [hwaiting] at hcaller
        cases hcaller }
  | rejectProcessor hstart =>
    have hbound := hs.bound (by simp [hstart]) (by simp [hstart])
    exact { hs with unbound_iff := by simpa using hbound, unstarted := by simp, unsubmitted := by simp }
  | submitProcessor hstart =>
    have hbound := hs.bound (by simp [hstart]) (by simp [hstart])
    exact { hs with
      unbound_iff := by simpa using hbound
      unstarted := by simp
      unsubmitted := by simp
      looping := by simp }
  | acceptorEnds hthread | receiveFails hthread | catchException hthread =>
    exact hs.setAcceptor (by simp [hthread]) (by simp [hthread])
  | acceptorTest | receive | copy | offer | take => exact hs.setServer _
  | processorBegin hthread => exact hs.setProcessor (by simp [hthread]) (by simp) false
  | processorTest hthread => exact hs.setProcessor (by simp [hthread]) (by simp) s.interrupted
  | takeInterrupted hthread => exact (hs.setServer _).setProcessor (by simp [hthread]) (by simp) false
  | process hthread => exact (hs.setServer _).setProcessor (by simp [hthread]) (by simp) s.interrupted
  | stopAgain hfree hstopped hcaller => exact hs.leaveStop hstopped (by simp [hfree]) hcaller
  | @callStop caller hrunning hcaller =>
    exact { hs with
      caller := fun _ hstage => hcaller (Prod.mk.inj (Option.some.inj hstage)).1
      closed := fun _ => rfl
      stopping := fun _ => rfl
      returned := fun hreturned => absurd (hs.returned hreturned).1 hrunning
      looping := fun _ _ hstage => absurd rfl (hstage caller) }
  | @closeFails caller hstage hunbound =>
    have hstopped : s.stopped = true := hs.stopping (by simp [hstage])
    have hwaiting : s.processorThread = .waiting :=
      hs.unstarted (by rcases hs.unbound_iff.mp hunbound with he | he <;> simp [he])
    exact { hs with
      caller := fun _ hnone => by cases hnone
      stopping := fun _ => hstopped
      returned := fun hreturned => absurd hstage ((hs.returned hreturned).2 caller)
      looping := fun _ _ _ => by simp [hwaiting] }
  | @closeChannel caller hflagged hbound =>
    have hstopped : s.stopped = true := hs.stopping (by simp [hflagged])
    exact { hs with
      unbound_iff := by simpa [hbound] using hs.unbound_iff
      caller := fun _ hstage => by
        obtain ⟨rfl, -⟩ := Prod.mk.inj (Option.some.inj hstage)
        exact hs.caller .flagged hflagged
      closed := fun _ => hstopped
      stopping := fun _ => hstopped
      returned := fun hreturned => absurd hflagged ((hs.returned hreturned).2 caller)
      looping := by simp }
  | shutdownAcceptor hstage => exact hs.setStage hstage (by decide) (by decide) true s.processingShutdown s.interrupted
  | shutdownProcessing hstage => exact hs.setStage hstage (by decide) (by decide) s.acceptorShutdown true _
  | returnFromStop hstage =>
    refine hs.leaveStop (hs.stopping (by simp [hstage])) (by simp [hstage]) fun he => ?_
    exact hs.caller .shutProcessing (he ▸ hstage)

theorem not_stuck_of_thread (h : s.processorThread ≠ .looping) : ¬ s.Stuck := fun hstuck => h hstuck.2.1.1

theorem stuck_leaveStop {caller : StopCaller} (hcaller : caller = .acceptor → s.acceptorThread = .stopping) :
    (s.leaveStop caller).Stuck ↔ s.Stuck := by
  cases caller with
  | outside => exact Iff.rfl
  | acceptor => simp [Stuck, Blocked, Offering, StoppableServer.leaveStop, hcaller rfl]

/-- Only closing the channel can leave the processor stuck, and nothing frees it afterwards. -/
theorem stuck_step (hcapacity : 1 ≤ capacity) {a : ThreadAction} (hs : ShutdownInvariant s) (h : s.step a = some t) :
    t.Stuck ↔ s.Stuck ∨ ¬ s.ClosesSafely a := by
  have hother (hne : a ≠ .closeChannel) (hiff : t.Stuck ↔ s.Stuck) : t.Stuck ↔ s.Stuck ∨ ¬ s.ClosesSafely a := by
    rw [hiff, or_iff_left]
    exact not_not_intro fun he => absurd he hne
  cases step_cases h with
  | callStart | rejectAcceptor | rejectProcessor | callStop | shutdownAcceptor => exact hother (by simp) Iff.rfl
  | openChannel hstart | submitAcceptor hstart | submitProcessor hstart =>
    have hwaiting := hs.unstarted (by simp [hstart])
    exact hother (by simp) (iff_of_false (not_stuck_of_thread (by simp [hwaiting]))
      (not_stuck_of_thread (by simp [hwaiting])))
  | acceptorEnds _ hserver | acceptorTest _ hserver =>
    cases UDPServer.step_cases hserver with
    | clear hstart => exact hother (by simp) (by simp [Stuck, Blocked, Offering, hasDatagram, hstart])
  | receive hopen =>
    exact hother (by simp) (iff_of_false (fun hstuck => DatagramChannel.noConfusion (hopen.symm.trans hstuck.1))
      fun hstuck => DatagramChannel.noConfusion (hopen.symm.trans hstuck.1))
  | receiveFails _ hserver =>
    cases UDPServer.step_cases hserver with
    | receiveFails hcleared => exact hother (by simp) (by simp [Stuck, Blocked, Offering, hasDatagram, hcleared])
  | copy _ hserver =>
    cases UDPServer.step_cases hserver with
    | copy hreceived => exact hother (by simp) (by simp [Stuck, Blocked, Offering, hasDatagram, hreceived])
  | offer hthread hserver =>
    cases UDPServer.step_cases hserver with
    | offer hcopied =>
      refine hother (by simp) (iff_of_false (fun hstuck => ?_) fun hstuck => ?_)
      · exact BoundedQueue.items_offer_ne_nil hcapacity hstuck.2.1.2.2.1
      · exact hstuck.2.2 ⟨hthread, by simp [hasDatagram, hcopied]⟩
  | catchException hcaught =>
    refine hother (by simp) ?_
    cases s.stopped <;> simp [Stuck, Blocked, Offering, hcaught]
  | processorBegin hthread =>
    exact hother (by simp) (iff_of_false (not_stuck_of_thread (by simp)) (not_stuck_of_thread (by simp [hthread])))
  | processorTest hthread =>
    refine hother (by simp) (iff_of_false (fun hstuck => ?_) (not_stuck_of_thread (by simp [hthread])))
    have hlooping := hstuck.2.1.1
    simp [hs.closed hstuck.1] at hlooping
  | take hserver =>
    cases UDPServer.step_cases hserver with
    | take _ htake =>
      refine hother (by simp) (iff_of_false (fun hstuck => ?_) fun hstuck => ?_)
      · exact Processor.noConfusion hstuck.2.1.2.1
      · have hempty := hstuck.2.1.2.2.1
        rw [BoundedQueue.items_of_take htake] at hempty
        exact List.cons_ne_nil _ _ hempty
  | takeInterrupted _ hinterrupted =>
    refine hother (by simp) (iff_of_false (not_stuck_of_thread (by simp)) fun hstuck => ?_)
    exact absurd hstuck.2.1.2.2.2 (by simp [hinterrupted])
  | process _ hserver =>
    cases UDPServer.step_cases hserver with
    | process hprocessing =>
      refine hother (by simp) (iff_of_false (not_stuck_of_thread (by simp)) fun hstuck => ?_)
      exact Processor.noConfusion (hprocessing.symm.trans hstuck.2.1.2.1)
  | stopAgain _ _ hcaller => exact hother (by simp) (stuck_leaveStop hcaller)
  | closeFails _ hunbound => simp [Stuck, ClosesSafely, hunbound]
  | closeChannel _ hbound =>
    cases hchannel : s.channel with
    | unbound => exact absurd hchannel hbound
    | opened => simp [Stuck, ClosesSafely, Blocked, Offering, hchannel, and_assoc]
    | closed => simp [Stuck, ClosesSafely, Blocked, Offering, hchannel]
  | shutdownProcessing =>
    refine hother (by simp) ?_
    by_cases hlooping : s.processorThread = .looping
    · simp [Stuck, Blocked, Offering, hlooping]
    · exact iff_of_false (not_stuck_of_thread hlooping) (not_stuck_of_thread hlooping)
  | returnFromStop hstage =>
    exact hother (by simp) (stuck_leaveStop fun he => hs.caller .shutProcessing (he ▸ hstage))

end invariant

/-- The processor has not been started, has ended, or one of its steps is possible. -/
def ProcessorMoves (s : StoppableServer capacity) : Prop :=
  s.processorThread = .waiting ∨ s.processorThread = .ended ∨
  ∃ a ∈ [ThreadAction.processorBegin, .processorTest, .take, .takeInterrupted, .process .returned], (s.step a).isSome

theorem processorMoves_of_not_blocked {s : StoppableServer capacity} (h : ¬ s.Blocked) : s.ProcessorMoves := by
  cases hthread : s.processorThread with
  | waiting => exact Or.inl hthread
  | ended => exact Or.inr (Or.inl hthread)
  | submitted => exact Or.inr (Or.inr ⟨.processorBegin, by simp, by simp [step, hthread]⟩)
  | testing => exact Or.inr (Or.inr ⟨.processorTest, by simp, by simp [step, hthread]⟩)
  | looping =>
    refine Or.inr (Or.inr ?_)
    cases hprocessor : s.server.processor with
    | processing datagram => exact ⟨.process .returned, by simp, by simp [step, UDPServer.step, hthread, hprocessor]⟩
    | taking =>
      cases hinterrupted : s.interrupted with
      | true => exact ⟨.takeInterrupted, by simp, by simp [step, UDPServer.step, hthread, hprocessor, hinterrupted]⟩
      | false =>
        have hitems : s.server.queue.items ≠ [] := fun hempty => h ⟨hthread, hprocessor, hempty, hinterrupted⟩
        refine ⟨.take, by simp, ?_⟩
        simp [step, UDPServer.step, hthread, hprocessor, hinterrupted, BoundedQueue.isSome_take hitems]

/-- A state behind a stop() that has returned and an acceptor that has ended. -/
theorem blocked_iff_stuck {s : StoppableServer capacity} (hs : ShutdownInvariant s) (hreturned : s.stopReturned = true)
    (hended : s.acceptorThread = .ended) : s.Blocked ↔ s.Stuck := by
  constructor
  · intro hblocked
    obtain ⟨hstopped, hstage⟩ := hs.returned hreturned
    refine ⟨?_, hblocked, fun hoffering => ?_⟩
    · by_contra hopen
      exact hs.looping hstopped hopen hstage hblocked.1
    · exact AcceptorThread.noConfusion (hended.symm.trans hoffering.1)
  · exact fun hstuck => hstuck.2.1

/-- Behind a stop() that has returned and an acceptor that has ended, the processor is not
blocked on the empty queue if and only if, when the channel was closed, it did not wait in
take() with nothing queued and nothing about to be offered. -/
theorem stopped_processor_moves_iff (hcapacity : 1 ≤ capacity) {s : StoppableServer capacity} {as : List ThreadAction}
    (hrun : Run step initial as s) (hreturned : s.stopReturned = true) (hended : s.acceptorThread = .ended) :
    (¬ s.Blocked ↔ AllSteps step ClosesSafely (initial : StoppableServer capacity) as) ∧
    (¬ s.Blocked → s.ProcessorMoves) := by
  have hinv := hrun.invariant (fun _ _ _ hs ha => shutdownInvariant_step hs ha) shutdownInvariant_initial
  have hstart : ¬ (initial : StoppableServer capacity).Stuck := not_stuck_of_thread (by simp [initial])
  refine ⟨?_, processorMoves_of_not_blocked⟩
  rw [blocked_iff_stuck hinv hreturned hended]
  have hstep (s : StoppableServer capacity) (a t) (hs : ShutdownInvariant s) (ha : s.step a = some t) :
      ¬ t.Stuck ↔ ¬ s.Stuck ∧ s.ClosesSafely a := by
    rw [stuck_step hcapacity hs ha, not_or, not_not]
  have hall := hrun.holds_iff_allSteps (fun _ _ _ hs ha => shutdownInvariant_step hs ha) hstep shutdownInvariant_initial
  exact hall.trans (and_iff_right hstart)

/-- start() and the first test of both loops. -/
def startedActions : List ThreadAction :=
  [.callStart, .openChannel, .submitAcceptor, .submitProcessor, .processorBegin, .acceptorTest]

/-- stop() from outside; the acceptor leaves its loop on the closed channel. -/
def stopActions : List ThreadAction :=
  [.callStop .outside, .closeChannel, .receiveFails, .catchException, .shutdownAcceptor, .shutdownProcessing,
    .returnFromStop]

/-- A server that has got no datagram when it is stopped. -/
theorem idle_processor_blocked : ∃ s : StoppableServer 1,
    Run step initial (startedActions ++ .processorTest :: stopActions) s ∧ s.stopReturned = true ∧
    s.acceptorThread = .ended ∧ s.Blocked := by
  have hrun : ∃ s : StoppableServer 1, exec step initial (startedActions ++ .processorTest :: stopActions) = some s ∧
      s.stopReturned = true ∧ s.acceptorThread = .ended ∧ s.Blocked := ⟨_, rfl, rfl, rfl, rfl, rfl, rfl, rfl⟩
  obtain ⟨s, hs, hblocked⟩ := hrun
  exact ⟨s, exec_eq_some_iff.mp hs, hblocked⟩

/-- The processor tests the flag only behind the stop. -/
theorem testing_processor_moves : ∃ s : StoppableServer 1,
    Run step initial (startedActions ++ (stopActions ++ [.processorTest])) s ∧
    (¬ s.Blocked ↔ AllSteps step ClosesSafely (initial : StoppableServer 1)
      (startedActions ++ (stopActions ++ [.processorTest]))) ∧
    (¬ s.Blocked → s.ProcessorMoves) ∧ ¬ s.Blocked := by
  have hrun : ∃ s : StoppableServer 1, exec step initial (startedActions ++ (stopActions ++ [.processorTest])) = some s ∧
      s.stopReturned = true ∧ s.acceptorThread = .ended ∧ s.processorThread = .ended := ⟨_, rfl, rfl, rfl, rfl⟩
  obtain ⟨s, hs, hreturned, hended, hthread⟩ := hrun
  have hrun := exec_eq_some_iff.mp hs
  obtain ⟨hiff, hmoves⟩ := stopped_processor_moves_iff (Nat.le_refl 1) hrun hreturned hended
  refine ⟨s, hrun, hiff, hmoves, fun hblocked => ?_⟩
  exact ProcessorThread.noConfusion (hthread.symm.trans hblocked.1)

section datagrams
variable {s t : StoppableServer capacity}

/-- Each step is one of the loops' steps, or leaves queue, buffer and datagrams alone. -/
theorem server_step {a : ThreadAction} (h : s.step a = some t) :
    t.server = s.server ∨ ∃ b, s.server.step b = some t.server := by
  cases step_cases h with
  | acceptorTest _ hserver | receive _ hserver | copy _ hserver | offer _ hserver | take hserver
  | takeInterrupted _ _ hserver | process _ hserver => exact Or.inr ⟨_, hserver⟩
  | @stopAgain caller | @returnFromStop caller => cases caller <;> exact Or.inl rfl
  | _ => exact Or.inl rfl

/-- The server with its start and its stop simulates the loops alone. -/
theorem server_run {as : List ThreadAction} (h : Run step s as t) : ∃ bs, Run UDPServer.step s.server bs t.server := by
  induction h with
  | nil s => exact ⟨[], .nil _⟩
  | cons ha _ ih =>
    obtain ⟨bs, hbs⟩ := ih
    rcases server_step ha with hsame | ⟨b, hb⟩
    · exact ⟨bs, hsame ▸ hbs⟩
    · exact ⟨b :: bs, .cons hb hbs⟩

/-- Also around a stop the accepted datagrams are handed over in order; those behind the last
one that was handed over are still queued. -/
theorem accepted_eq_handed_append {as : List ThreadAction} (h : Run step initial as t) :
    t.server.accepted = t.server.handed ++ t.server.queue.items := by
  obtain ⟨bs, hbs⟩ := server_run h
  exact (UDPServer.invariant_run hbs).queue

end datagrams

end StoppableServer
end Srvlog.Udp
