import Srvlog.Udp.UDPServer

/-! What the processor gets, over every interleaving of the two threads. -/
namespace Srvlog.Udp
open Library

section buffer
variable {b : ByteBuffer}

/-- From a cleared buffer of the full size one reads what was put. -/
theorem put_of_clear {packet : Packet} (hlength : b.array.length = MAX_DATAGRAM_SIZE) (hposition : b.position = 0)
    (hlimit : b.limit = b.array.length) :
    (b.put packet.data).array.length = MAX_DATAGRAM_SIZE ∧ (b.put packet.data).position = packet.data.length ∧
      (b.put packet.data).array.take packet.data.length = packet.data := by
  have hle := packet.length_le
  have hwritten : packet.data.take b.limit = packet.data := by
    refine List.take_of_length_le ?_
    omega
  have hput : b.put packet.data =
      ⟨packet.data ++ b.array.drop packet.data.length, packet.data.length, b.limit⟩ := by
    simp only [ByteBuffer.put, hposition, Nat.sub_zero, hwritten, List.take_zero, List.nil_append, Nat.zero_add]
  rw [hput]
  refine ⟨?_, rfl, List.take_left⟩
  rw [List.length_append, List.length_drop]
  omega

end buffer

namespace UDPServer
variable {capacity : Nat}

/-- The datagram that a packet should become. -/
def datagramOf (packet : Packet) : Datagram := ⟨getInetAddress packet.source, packet.data⟩

def receivedDatagrams (s : UDPServer capacity) : List Datagram := s.received.map datagramOf

def offered (s : UDPServer capacity) : List Datagram := s.offers.map Offer.datagram

def accepted (s : UDPServer capacity) : List Datagram := (s.offers.filter Offer.accepted).map Offer.datagram

/-- What is in the buffer and in the hands of the acceptor, at each place of its loop. -/
def AcceptorHolds (s : UDPServer capacity) : Acceptor → Prop
  | .start => s.receivedDatagrams = s.offered
  | .cleared => s.receivedDatagrams = s.offered ∧ s.buffer.position = 0 ∧ s.buffer.limit = s.buffer.array.length
  | .received address => ∃ packet : Packet, s.receivedDatagrams = s.offered ++ [datagramOf packet] ∧
    address = packet.source ∧ s.buffer.position = packet.data.length ∧
    s.buffer.array.take packet.data.length = packet.data
  | .copied datagram => s.receivedDatagrams = s.offered ++ [datagram]

structure Invariant (s : UDPServer capacity) : Prop where
  buffer_length : s.buffer.array.length = MAX_DATAGRAM_SIZE
  acceptor : s.AcceptorHolds s.acceptor
  queue : s.accepted = s.handed ++ s.queue.items
  discarded : ∀ o ∈ s.offers, o.accepted = false → o.queued = capacity

theorem invariant_initial : Invariant (initial : UDPServer capacity) where
  buffer_length := List.length_replicate
  acceptor := rfl
  queue := rfl
  discarded _ h := absurd h List.not_mem_nil

theorem invariant_step {s t : UDPServer capacity} {a : ServerAction} (hs : Invariant s) (h : s.step a = some t) :
    Invariant t := by
  obtain ⟨hlength, hacceptor, hqueue, hdiscarded⟩ := hs
  unfold AcceptorHolds at hacceptor
  cases step_cases h with
  | clear hstart =>
    rw [hstart] at hacceptor
    exact ⟨hlength, ⟨hacceptor, rfl, rfl⟩, hqueue, hdiscarded⟩
  | receiveFails hcleared =>
    rw [hcleared] at hacceptor
    exact ⟨hlength, hacceptor.1, hqueue, hdiscarded⟩
  | @receive packet hcleared =>
    rw [hcleared] at hacceptor
    obtain ⟨hall, hposition, hlimit⟩ := hacceptor
    obtain ⟨hlength', hposition', hdata⟩ := @put_of_clear _ packet hlength hposition hlimit
    refine ⟨hlength', ⟨packet, ?_, rfl, hposition', hdata⟩, hqueue, hdiscarded⟩
    unfold receivedDatagrams at hall ⊢
    rw [List.map_append, hall]
    rfl
  | copy hreceived =>
    rw [hreceived] at hacceptor
    obtain ⟨packet, hall, rfl, hposition, hdata⟩ := hacceptor
    have hcopy : Datagram.new (getInetAddress packet.source) s.buffer.flip.array s.buffer.flip.position
        s.buffer.flip.limit = datagramOf packet := by
      change Datagram.mk _ ((s.buffer.array.drop 0).take s.buffer.position) = _
      rw [List.drop_zero, hposition, hdata]
      rfl
    refine ⟨hlength, ?_, hqueue, hdiscarded⟩
    change s.receivedDatagrams = s.offered ++ [_]
    rw [hall, hcopy]
  | @offer datagram hcopied =>
    rw [hcopied] at hacceptor
    refine ⟨hlength, ?_, ?_, ?_⟩
    · change s.receivedDatagrams = (s.offers ++ [_]).map Offer.datagram
      rw [hacceptor, List.map_append]
      rfl
    · change ((s.offers ++ [_]).filter Offer.accepted).map Offer.datagram = s.handed ++ (s.queue.offer datagram).2.items
      rw [BoundedQueue.offer_items, List.filter_append, List.map_append, ← List.append_assoc, ← hqueue]
      cases haccepted : (s.queue.offer datagram).1 with
      | true => simp [accepted]
      | false => simp [accepted]
    · refine List.forall_mem_append.mpr ⟨hdiscarded, List.forall_mem_singleton.mpr fun hfull => ?_⟩
      exact BoundedQueue.length_of_offer_eq_false hfull
  | @take datagram queue _ htake =>
    refine ⟨hlength, hacceptor, ?_, hdiscarded⟩
    change s.accepted = (s.handed ++ [datagram]) ++ queue.items
    rw [hqueue, BoundedQueue.items_of_take htake, List.append_assoc, List.singleton_append]
  | interrupt | process => exact ⟨hlength, hacceptor, hqueue, hdiscarded⟩

theorem invariant_run {s : UDPServer capacity} {as : List ServerAction} (h : Run step initial as s) : Invariant s :=
  h.invariant (fun _ _ _ hs ha => invariant_step hs ha) invariant_initial

section outcomes

/-- An action with its exception left out. -/
def settled : ServerAction → ServerAction
  | .process _ => .process .returned
  | a => a

theorem step_settled (s : UDPServer capacity) (a : ServerAction) : s.step (settled a) = s.step a := by
  cases a with
  | process outcome => cases outcome <;> rfl
  | clear => rfl
  | receive packet => rfl
  | copy => rfl
  | offer => rfl
  | take => rfl
  | interrupt => rfl

/-- Exceptions change nothing about a run. -/
theorem run_of_settled {s t : UDPServer capacity} {as bs : List ServerAction} (h : Run step s as t)
    (hbs : bs.map settled = as.map settled) : Run step s bs t := by
  induction h generalizing bs with
  | nil s =>
    obtain rfl := List.map_eq_nil_iff.mp hbs
    exact .nil s
  | @cons s u t a as ha _ ih =>
    obtain ⟨b, bs, rfl, hb, hbs⟩ := List.map_eq_cons_iff.mp hbs
    refine .cons ?_ (ih hbs)
    rw [← step_settled, hb, step_settled, ha]

end outcomes

/-- Only the last datagram received may still wait for its offer. -/
theorem offered_prefix {s : UDPServer capacity} (hs : Invariant s) :
    ∃ pending, s.receivedDatagrams = s.offered ++ pending ∧ pending.length ≤ 1 := by
  have hacceptor := hs.acceptor
  cases h : s.acceptor with
  | start =>
    rw [h] at hacceptor
    exact ⟨[], by rw [List.append_nil]; exact hacceptor, Nat.zero_le _⟩
  | cleared =>
    rw [h] at hacceptor
    exact ⟨[], by rw [List.append_nil]; exact hacceptor.1, Nat.zero_le _⟩
  | received address =>
    rw [h] at hacceptor
    obtain ⟨packet, hall, -⟩ := hacceptor
    exact ⟨[datagramOf packet], hall, Nat.le_refl _⟩
  | copied datagram =>
    rw [h] at hacceptor
    exact ⟨[datagram], hacceptor, Nat.le_refl _⟩

/-- The processor gets the accepted datagrams in order, each as it was received; only a full
queue discards one, and exceptions affect no other datagram. -/
theorem datagrams_reach_the_processor {s : UDPServer capacity} {as : List ServerAction} (h : Run step initial as s) :
    s.handed <+: s.accepted ∧ s.accepted.Sublist s.receivedDatagrams ∧
      (∃ pending, s.receivedDatagrams = s.offered ++ pending ∧ pending.length ≤ 1) ∧
      (∀ o ∈ s.offers, o.accepted = false → o.queued = capacity) ∧
      ∀ bs : List ServerAction, bs.map settled = as.map settled → Run step initial bs s := by
  have hs := invariant_run h
  obtain ⟨pending, hall, hpending⟩ := offered_prefix hs
  refine ⟨?_, ?_, ⟨pending, hall, hpending⟩, hs.discarded, fun bs => run_of_settled h⟩
  · rw [hs.queue]
    exact List.prefix_append _ _
  · rw [hall]
    exact (List.filter_sublist.map _).trans (List.sublist_append_left _ _)

section sample

def samplePacket (byte : UInt8) : Packet := ⟨.inet "10.0.0.1".toList, [byte], (by decide : 1 ≤ 65527)⟩

/-- Two datagrams arrive before the processor takes the first one. -/
def sampleActions : List ServerAction :=
  [.clear, .receive (some (samplePacket 1)), .copy, .offer, .clear, .receive (some (samplePacket 2)), .copy, .offer,
    .take, .process .threw]

/-- With a capacity of one the second datagram is discarded. -/
theorem second_datagram_discarded : ∃ s : UDPServer 1, s.handed.length = 1 ∧ s.accepted.length = 1 ∧
    s.received.length = 2 ∧ (s.handed <+: s.accepted ∧ s.accepted.Sublist s.receivedDatagrams ∧
      (∃ pending, s.receivedDatagrams = s.offered ++ pending ∧ pending.length ≤ 1) ∧
      (∀ o ∈ s.offers, o.accepted = false → o.queued = 1) ∧
      ∀ bs : List ServerAction, bs.map settled = sampleActions.map settled → Run step initial bs s) := by
  have hrun : ∃ s : UDPServer 1, exec step initial sampleActions = some s ∧ s.handed.length = 1 ∧
      s.accepted.length = 1 ∧ s.received.length = 2 := ⟨_, rfl, rfl, rfl, rfl⟩
  obtain ⟨s, hs, hhanded, haccepted, hreceived⟩ := hrun
  exact ⟨s, hhanded, haccepted, hreceived, datagrams_reach_the_processor (exec_eq_some_iff.mp hs)⟩

end sample
end UDPServer
end Srvlog.Udp
