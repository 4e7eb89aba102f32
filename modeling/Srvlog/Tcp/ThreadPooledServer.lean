import Srvlog.Library.Components
import Srvlog.Tcp.LoggerAcceptorNode

/-! The TCP server: an acceptor thread that makes a worker of every connection, a pool of
threads that run the workers, and a thread that stops the server. -/
namespace Srvlog.Tcp
open Library

/-- The size of the pool. -/
def THREADS : Nat := 1000

/-- Where the acceptor stands in `run`. -/
inductive Acceptor where
  | opening
  | testing
  | accepting
  | constructing (connection : Nat)
  | executing (connection : Nat)
  | shuttingDown
  | returned
  | threw
  deriving DecidableEq

inductive ServerSocket where
  | null
  | bound
  | closed
  deriving DecidableEq

/-- Connections are named by their places. While `stop` runs it holds the lock of the server.
The last three fields are auxiliary: the connections accepted and handed to the pool so far,
and all calls of `processEvent` that have ended. -/
structure ThreadPooledServer (α : Type) where
  acceptor : Acceptor
  serverSocket : ServerSocket
  connections : List (LoggerAcceptorNode α)
  started : Bool
  stopped : Bool
  stopping : Bool
  shutDown : Bool
  accepted : List Nat
  handed : List Nat
  calls : List (Nat × α × Outcome)
  deriving DecidableEq

inductive ServerAction (α : Type) where
  | openServerSocket (succeeds : Bool)
  | connect
  | arrive (connection : Nat) (item : StreamItem α)
  | isStopped
  | accept (connection : Nat)
  | acceptFails
  | createWorker
  | execute
  | shutdown
  | start (connection : Nat)
  | read (connection : Nat)
  | process (connection : Nat) (outcome : Outcome)
  | stop
  | close

/-- The worker of the connection holds a thread of the pool. -/
def Phase.busy {α : Type} : Phase α → Bool
  | .reading | .processing _ => true
  | _ => false

namespace ThreadPooledServer
variable {α : Type}

def initial : ThreadPooledServer α where
  acceptor := .opening
  serverSocket := .null
  connections := []
  started := false
  stopped := false
  stopping := false
  shutDown := false
  accepted := []
  handed := []
  calls := []

def act (s : ThreadPooledServer α) (i : Nat) (a : NodeAction α) : Option (ThreadPooledServer α) :=
  (stepAt LoggerAcceptorNode.step s.connections i a).map fun connections => { s with connections := connections }

/-- One step of one of the threads, or of a client. -/
def step (s : ThreadPooledServer α) : ServerAction α → Option (ThreadPooledServer α)
  | .openServerSocket succeeds => match s.acceptor with
    | .opening => if succeeds then some { s with serverSocket := .bound, acceptor := .testing }
      else some { s with acceptor := .threw }
    | _ => none
  | .connect => match s.serverSocket with
    | .bound => some { s with connections := s.connections ++ [.new] }
    | _ => none
  | .arrive i item => s.act i (.arrive item)
  | .isStopped => match s.acceptor, s.stopping with
    | .testing, false => if s.stopped then some { s with acceptor := .shuttingDown }
      else some { s with started := true, acceptor := .accepting }
    | _, _ => none
  | .accept i => match s.acceptor, s.serverSocket with
    | .accepting, .bound => (s.act i .accept).map fun s => { s with
        acceptor := .constructing i
        accepted := s.accepted ++ [i] }
    | _, _ => none
  -- the handler of the exception looks whether the server was stopped
  | .acceptFails => match s.acceptor, s.stopping with
    | .accepting, false => if s.stopped then some { s with acceptor := .returned }
      else some { s with acceptor := .threw }
    | _, _ => none
  | .createWorker => match s.acceptor with
    | .constructing i => (s.act i .construct).map fun s => { s with acceptor := .executing i }
    | _ => none
  | .execute => match s.acceptor with
    | .executing i =>
      -- a pool that is shut down rejects the worker
      if s.shutDown then some { s with acceptor := .threw }
      else (s.act i .execute).map fun s => { s with acceptor := .testing, handed := s.handed ++ [i] }
    | _ => none
  | .shutdown => match s.acceptor with
    | .shuttingDown => some { s with shutDown := true, acceptor := .returned }
    | _ => none
  | .start i => if s.connections.countP (fun n => n.phase.busy) < THREADS then s.act i .start else none
  | .read i => s.act i .read
  | .process i outcome => match s.connections[i]?.map LoggerAcceptorNode.phase with
    | some (.processing event) => (s.act i (.process outcome)).map fun s => { s with
        calls := s.calls ++ [(i, event, outcome)] }
    | _ => none
  | .stop => if s.stopping then none else some { s with stopped := true, stopping := true }
  | .close => if s.stopping then match s.serverSocket with
      -- a null pointer exception
      | .null => some { s with stopping := false }
      | _ => some { s with stopping := false, serverSocket := .closed }
    else none

/-- What a step needs and what it leaves, one case for each way through it. -/
inductive StepCase (s : ThreadPooledServer α) : ServerAction α → ThreadPooledServer α → Prop where
  | opens (hacceptor : s.acceptor = .opening) :
    StepCase s (.openServerSocket true) { s with serverSocket := .bound, acceptor := .testing }
  | opensNot (hacceptor : s.acceptor = .opening) : StepCase s (.openServerSocket false) { s with acceptor := .threw }
  | connect (hsocket : s.serverSocket = .bound) : StepCase s .connect { s with connections := s.connections ++ [.new] }
  | arrive {i : Nat} {item : StreamItem α} {connections : List (LoggerAcceptorNode α)}
    (hnode : stepAt LoggerAcceptorNode.step s.connections i (.arrive item) = some connections) :
    StepCase s (.arrive i item) { s with connections := connections }
  | goesOn (hacceptor : s.acceptor = .testing) (hlock : s.stopping = false) (hstopped : s.stopped = false) :
    StepCase s .isStopped { s with started := true, acceptor := .accepting }
  | leavesLoop (hacceptor : s.acceptor = .testing) (hlock : s.stopping = false) (hstopped : s.stopped = true) :
    StepCase s .isStopped { s with acceptor := .shuttingDown }
  | accept {i : Nat} {connections : List (LoggerAcceptorNode α)} (hacceptor : s.acceptor = .accepting)
    (hsocket : s.serverSocket = .bound)
    (hnode : stepAt LoggerAcceptorNode.step s.connections i .accept = some connections) :
    StepCase s (.accept i) { s with
      connections := connections, acceptor := .constructing i, accepted := s.accepted ++ [i] }
  | acceptReturns (hacceptor : s.acceptor = .accepting) (hlock : s.stopping = false) (hstopped : s.stopped = true) :
    StepCase s .acceptFails { s with acceptor := .returned }
  | acceptThrows (hacceptor : s.acceptor = .accepting) (hlock : s.stopping = false) (hstopped : s.stopped = false) :
    StepCase s .acceptFails { s with acceptor := .threw }
  | createWorker {i : Nat} {connections : List (LoggerAcceptorNode α)} (hacceptor : s.acceptor = .constructing i)
    (hnode : stepAt LoggerAcceptorNode.step s.connections i .construct = some connections) :
    StepCase s .createWorker { s with connections := connections, acceptor := .executing i }
  | rejects {i : Nat} (hacceptor : s.acceptor = .executing i) (hpool : s.shutDown = true) :
    StepCase s .execute { s with acceptor := .threw }
  | execute {i : Nat} {connections : List (LoggerAcceptorNode α)} (hacceptor : s.acceptor = .executing i)
    (hpool : s.shutDown = false)
    (hnode : stepAt LoggerAcceptorNode.step s.connections i .execute = some connections) :
    StepCase s .execute { s with connections := connections, acceptor := .testing, handed := s.handed ++ [i] }
  | shutdown (hacceptor : s.acceptor = .shuttingDown) :
    StepCase s .shutdown { s with shutDown := true, acceptor := .returned }
  | start {i : Nat} {connections : List (LoggerAcceptorNode α)}
    (hfree : s.connections.countP (fun n => n.phase.busy) < THREADS)
    (hnode : stepAt LoggerAcceptorNode.step s.connections i .start = some connections) :
    StepCase s (.start i) { s with connections := connections }
  | read {i : Nat} {connections : List (LoggerAcceptorNode α)}
    (hnode : stepAt LoggerAcceptorNode.step s.connections i .read = some connections) :
    StepCase s (.read i) { s with connections := connections }
  | process {i : Nat} {n : LoggerAcceptorNode α} {event : α} {outcome : Outcome}
    {connections : List (LoggerAcceptorNode α)} (hn : s.connections[i]? = some n) (hphase : n.phase = .processing event)
    (hnode : stepAt LoggerAcceptorNode.step s.connections i (.process outcome) = some connections) :
    StepCase s (.process i outcome) { s with connections := connections, calls := s.calls ++ [(i, event, outcome)] }
  | stop (hlock : s.stopping = false) : StepCase s .stop { s with stopped := true, stopping := true }
  | closesNot (hlock : s.stopping = true) (hsocket : s.serverSocket = .null) :
    StepCase s .close { s with stopping := false }
  | close (hlock : s.stopping = true) (hsocket : s.serverSocket ≠ .null) :
    StepCase s .close { s with stopping := false, serverSocket := .closed }

theorem act_eq_some {s t : ThreadPooledServer α} {i : Nat} {a : NodeAction α} (h : s.act i a = some t) :
    ∃ connections, stepAt LoggerAcceptorNode.step s.connections i a = some connections ∧
      t = { s with connections := connections } := by
  obtain ⟨connections, hnode, rfl⟩ := Option.map_eq_some_iff.mp h
  exact ⟨connections, hnode, rfl⟩

theorem step_cases {s t : ThreadPooledServer α} {a : ServerAction α} (h : s.step a = some t) : StepCase s a t := by
  cases a with
  | openServerSocket succeeds =>
    simp only [step] at h
    split at h
    · next hopening =>
      cases succeeds with
      | true =>
        obtain rfl := Option.some.inj h
        exact .opens hopening
      | false =>
        obtain rfl := Option.some.inj h
        exact .opensNot hopening
    · cases h
  | connect =>
    simp only [step] at h
    split at h
    · next hbound =>
      obtain rfl := Option.some.inj h
      exact .connect hbound
    · cases h
  | arrive i item =>
    obtain ⟨connections, hnode, rfl⟩ := act_eq_some h
    exact .arrive hnode
  | isStopped =>
    simp only [step] at h
    split at h
    · next htesting hlock =>
      split at h
      · next hstopped =>
        obtain rfl := Option.some.inj h
        exact .leavesLoop htesting hlock hstopped
      · next hstopped =>
        obtain rfl := Option.some.inj h
        exact .goesOn htesting hlock (Bool.eq_false_iff.mpr hstopped)
    · cases h
  | accept i =>
    simp only [step] at h
    split at h
    · next haccepting hbound =>
      obtain ⟨u, hu, rfl⟩ := Option.map_eq_some_iff.mp h
      obtain ⟨connections, hnode, rfl⟩ := act_eq_some hu
      exact .accept haccepting hbound hnode
    · cases h
  | acceptFails =>
    simp only [step] at h
    split at h
    · next haccepting hlock =>
      split at h
      · next hstopped =>
        obtain rfl := Option.some.inj h
        exact .acceptReturns haccepting hlock hstopped
      · next hstopped =>
        obtain rfl := Option.some.inj h
        exact .acceptThrows haccepting hlock (Bool.eq_false_iff.mpr hstopped)
    · cases h
  | createWorker =>
    simp only [step] at h
    split at h
    · next i hconstructing =>
      obtain ⟨u, hu, rfl⟩ := Option.map_eq_some_iff.mp h
      obtain ⟨connections, hnode, rfl⟩ := act_eq_some hu
      exact .createWorker hconstructing hnode
    · cases h
  | execute =>
    simp only [step] at h
    split at h
    · next i hexecuting =>
      split at h
      · next hpool =>
        obtain rfl := Option.some.inj h
        exact .rejects hexecuting hpool
      · next hpool =>
        obtain ⟨u, hu, rfl⟩ := Option.map_eq_some_iff.mp h
        obtain ⟨connections, hnode, rfl⟩ := act_eq_some hu
        exact .execute hexecuting (Bool.eq_false_iff.mpr hpool) hnode
    · cases h
  | shutdown =>
    simp only [step] at h
    split at h
    · next hshuttingDown =>
      obtain rfl := Option.some.inj h
      exact .shutdown hshuttingDown
    · cases h
  | start i =>
    simp only [step] at h
    split at h
    · next hfree =>
      obtain ⟨connections, hnode, rfl⟩ := act_eq_some h
      exact .start hfree hnode
    · cases h
  | read i =>
    obtain ⟨connections, hnode, rfl⟩ := act_eq_some h
    exact .read hnode
  | process i outcome =>
    simp only [step] at h
    split at h
    · next event hphase =>
      obtain ⟨n, hn, hphase⟩ := Option.map_eq_some_iff.mp hphase
      obtain ⟨u, hu, rfl⟩ := Option.map_eq_some_iff.mp h
      obtain ⟨connections, hnode, rfl⟩ := act_eq_some hu
      exact .process hn hphase hnode
    · cases h
  | stop =>
    simp only [step] at h
    split at h
    · cases h
    · next hlock =>
      obtain rfl := Option.some.inj h
      exact .stop (Bool.eq_false_iff.mpr hlock)
  | close =>
    simp only [step] at h
    split at h
    · next hlock =>
      split at h
      · next hnull =>
        obtain rfl := Option.some.inj h
        exact .closesNot hlock hnull
      · next hnull =>
        obtain rfl := Option.some.inj h
        exact .close hlock hnull
    · cases h

/-- Every step is a step of one connection at most, or a client connects. -/
theorem componentsStep {s t : ThreadPooledServer α} {a : ServerAction α} (h : s.step a = some t) :
    ComponentsStep LoggerAcceptorNode.step .new s.connections t.connections := by
  cases step_cases h with
  | connect => exact .add _
  | arrive hnode | accept _ _ hnode | createWorker _ hnode | execute _ _ hnode | start _ hnode | read hnode
  | process _ _ hnode => exact .act _ _ hnode
  | opens | opensNot | goesOn | leavesLoop | acceptReturns | acceptThrows | rejects | shutdown | stop | closesNot
  | close => exact .rest _

end ThreadPooledServer
end Srvlog.Tcp
