import Srvlog.Library.BoundedQueue
import Srvlog.Library.Runs
import Srvlog.Library.Text

/-! The UDP server before it is stopped: an acceptor thread that receives every datagram
into one buffer, a queue, and a processor thread. -/
namespace Srvlog.Udp
open Library

abbrev Bytes := List UInt8

def MAX_DATAGRAM_SIZE : Nat := 65527

/-- The part of a buffer between its position and its limit can be read or written. -/
structure ByteBuffer where
  array : Bytes
  position : Nat
  limit : Nat

namespace ByteBuffer

def clear (b : ByteBuffer) : ByteBuffer := ⟨b.array, 0, b.array.length⟩

def flip (b : ByteBuffer) : ByteBuffer := ⟨b.array, 0, b.position⟩

/-- Write as many of the bytes as remain; `receive` drops the others. -/
def put (b : ByteBuffer) (bytes : Bytes) : ByteBuffer :=
  let written := bytes.take (b.limit - b.position)
  ⟨b.array.take b.position ++ (written ++ b.array.drop (b.position + written.length)),
    b.position + written.length, b.limit⟩

end ByteBuffer

/-- The addresses that a channel can return. -/
inductive SocketAddress where
  | inet (address : Text)
  | unknown
  deriving DecidableEq

def getInetAddress : SocketAddress → Option Text
  | .inet address => some address
  | .unknown => none

/-- A datagram on the network. The length field of UDP bounds its data. -/
structure Packet where
  source : SocketAddress
  data : Bytes
  length_le : data.length ≤ MAX_DATAGRAM_SIZE

structure Datagram where
  sourceAddress : Option Text
  data : Bytes
  deriving DecidableEq

/-- The constructor copies a part of the buffer. -/
def Datagram.new (sourceAddress : Option Text) (sourceBuffer : Bytes) (offset length : Nat) : Datagram :=
  ⟨sourceAddress, (sourceBuffer.drop offset).take length⟩

/-- Where the acceptor stands in its loop. -/
inductive Acceptor where
  | start
  | cleared
  | received (address : SocketAddress)
  | copied (datagram : Datagram)

inductive Processor where
  | taking
  | processing (datagram : Datagram)

inductive Outcome where
  | returned
  | threw
  deriving DecidableEq

/-- One offer, with the number of datagrams that were queued at it. -/
structure Offer where
  datagram : Datagram
  queued : Nat
  accepted : Bool
  deriving DecidableEq

/-- The last three fields are auxiliary variables: what was received, offered and handed over so far. -/
structure UDPServer (capacity : Nat) where
  buffer : ByteBuffer
  acceptor : Acceptor
  queue : BoundedQueue Datagram capacity
  processor : Processor
  received : List Packet
  offers : List Offer
  handed : List Datagram

inductive ServerAction where
  | clear
  | receive (packet : Option Packet)
  | copy
  | offer
  | take
  | interrupt
  | process (outcome : Outcome)

namespace UDPServer
variable {capacity : Nat}

def initial : UDPServer capacity where
  buffer := ⟨List.replicate MAX_DATAGRAM_SIZE 0, 0, MAX_DATAGRAM_SIZE⟩
  acceptor := .start
  queue := .empty
  processor := .taking
  received := []
  offers := []
  handed := []

/-- One step of one of the threads. Without an address the acceptor goes round its loop. -/
def step (s : UDPServer capacity) : ServerAction → Option (UDPServer capacity)
  | .clear => match s.acceptor with
    | .start => some { s with buffer := s.buffer.clear, acceptor := .cleared }
    | _ => none
  | .receive none => match s.acceptor with
    | .cleared => some { s with acceptor := .start }
    | _ => none
  | .receive (some packet) => match s.acceptor with
    | .cleared => some { s with
        buffer := s.buffer.put packet.data
        acceptor := .received packet.source
        received := s.received ++ [packet] }
    | _ => none
  | .copy => match s.acceptor with
    | .received address =>
      let buffer := s.buffer.flip
      some { s with
        buffer := buffer
        acceptor := .copied (.new (getInetAddress address) buffer.array buffer.position buffer.limit) }
    | _ => none
  | .offer => match s.acceptor with
    | .copied datagram =>
      let (accepted, queue) := s.queue.offer datagram
      some { s with
        acceptor := .start
        queue := queue
        offers := s.offers ++ [⟨datagram, s.queue.items.length, accepted⟩] }
    | _ => none
  | .take => match s.processor with
    | .taking => (s.queue.take).map fun (datagram, queue) => { s with
        queue := queue
        processor := .processing datagram
        handed := s.handed ++ [datagram] }
    | .processing _ => none
  | .interrupt => match s.processor with
    | .taking => some s
    | .processing _ => none
  | .process outcome => match s.processor with
    | .taking => none
    | .processing _ => match outcome with
      | .returned => some { s with processor := .taking }
      -- the exception is logged
      | .threw => some { s with processor := .taking }

/-- What a step needs and what it leaves, one case for each way through it. -/
inductive StepCase (s : UDPServer capacity) : ServerAction → UDPServer capacity → Prop where
  | clear (hacceptor : s.acceptor = .start) :
    StepCase s .clear { s with buffer := s.buffer.clear, acceptor := .cleared }
  | receiveFails (hacceptor : s.acceptor = .cleared) : StepCase s (.receive none) { s with acceptor := .start }
  | receive {packet : Packet} (hacceptor : s.acceptor = .cleared) : StepCase s (.receive (some packet)) { s with
      buffer := s.buffer.put packet.data
      acceptor := .received packet.source
      received := s.received ++ [packet] }
  | copy {address : SocketAddress} (hacceptor : s.acceptor = .received address) : StepCase s .copy { s with
      buffer := s.buffer.flip
      acceptor := .copied (.new (getInetAddress address) s.buffer.flip.array s.buffer.flip.position s.buffer.flip.limit) }
  | offer {datagram : Datagram} (hacceptor : s.acceptor = .copied datagram) : StepCase s .offer { s with
      acceptor := .start
      queue := (s.queue.offer datagram).2
      offers := s.offers ++ [⟨datagram, s.queue.items.length, (s.queue.offer datagram).1⟩] }
  | take {datagram : Datagram} {queue : BoundedQueue Datagram capacity} (hprocessor : s.processor = .taking)
    (htake : s.queue.take = some (datagram, queue)) : StepCase s .take { s with
      queue := queue
      processor := .processing datagram
      handed := s.handed ++ [datagram] }
  | interrupt (hprocessor : s.processor = .taking) : StepCase s .interrupt s
  | process {outcome : Outcome} {datagram : Datagram} (hprocessor : s.processor = .processing datagram) :
    StepCase s (.process outcome) { s with processor := .taking }

theorem step_cases {s t : UDPServer capacity} {a : ServerAction} (h : s.step a = some t) : StepCase s a t := by
  cases a with
  | clear =>
    simp only [step] at h
    split at h
    · next hstart =>
      obtain rfl := Option.some.inj h
      exact .clear hstart
    · cases h
  | receive packet =>
    cases packet with
    | none =>
      simp only [step] at h
      split at h
      · next hcleared =>
        obtain rfl := Option.some.inj h
        exact .receiveFails hcleared
      · cases h
    | some packet =>
      simp only [step] at h
      split at h
      · next hcleared =>
        obtain rfl := Option.some.inj h
        exact .receive hcleared
      · cases h
  | copy =>
    simp only [step] at h
    split at h
    · next hreceived =>
      obtain rfl := Option.some.inj h
      exact .copy hreceived
    · cases h
  | offer =>
    simp only [step] at h
    split at h
    · next hcopied =>
      obtain rfl := Option.some.inj h
      exact .offer hcopied
    · cases h
  | take =>
    simp only [step] at h
    split at h
    · next htaking =>
      obtain ⟨⟨datagram, queue⟩, htake, rfl⟩ := Option.map_eq_some_iff.mp h
      exact .take htaking htake
    · cases h
  | interrupt =>
    simp only [step] at h
    split at h
    · next htaking =>
      obtain rfl := Option.some.inj h
      exact .interrupt htaking
    · cases h
  | process outcome =>
    simp only [step] at h
    split at h
    · cases h
    · next hprocessing =>
      -- both outcomes leave the same state
      cases outcome with
      | returned =>
        obtain rfl := Option.some.inj h
        exact .process hprocessing
      | threw =>
        obtain rfl := Option.some.inj h
        exact .process hprocessing

end UDPServer
end Srvlog.Udp
