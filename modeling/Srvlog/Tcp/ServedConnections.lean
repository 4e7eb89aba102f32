import Srvlog.Tcp.ThreadPooledServer

/-! What becomes of the connections and of their events, over every interleaving of the
acceptor, the workers and the clients. -/
namespace Srvlog.Tcp
open Library

namespace LoggerAcceptorNode
variable {α : Type}

theorem processed_of_step {n m : LoggerAcceptorNode α} {a : NodeAction α} (h : n.step a = some m)
    (ha : ∀ outcome, a ≠ .process outcome) : m.processed = n.processed := by
  cases step_cases h with
  | returns => exact absurd rfl (ha .returned)
  | throws => exact absurd rfl (ha .threw)
  | arrive | accept | opens | opensNot | execute | starts | startsNot | reads | readsNot => rfl

theorem processed_of_process {n m : LoggerAcceptorNode α} {event : α} {outcome : Outcome}
    (h : n.step (.process outcome) = some m) (hphase : n.phase = .processing event) :
    m.processed = n.processed ++ [(event, outcome)] := by
  cases step_cases h with
  | returns hphase' | throws hphase' =>
    rw [hphase] at hphase'
    cases hphase'
    rfl

end LoggerAcceptorNode

namespace ThreadPooledServer
variable {α : Type}

/-- Each connection has come through a run of its own node. -/
theorem node_invariant {s : ThreadPooledServer α} {as : List (ServerAction α)} (h : Run step initial as s)
    {n : LoggerAcceptorNode α} (hn : n ∈ s.connections) : n.Invariant := by
  obtain ⟨bs, hbs⟩ := ComponentsStep.component_run h (fun _ _ _ => componentsStep) rfl n hn
  exact LoggerAcceptorNode.invariant_run hbs

section calls

/-- The calls that a connection made. -/
def callsOf (s : ThreadPooledServer α) (i : Nat) : List (α × Outcome) :=
  (s.calls.filter fun call => decide (call.1 = i)).map Prod.snd

def processedAt (connections : List (LoggerAcceptorNode α)) (i : Nat) : List (α × Outcome) :=
  connections[i]?.elim [] LoggerAcceptorNode.processed

theorem processedAt_stepAt {ns ms : List (LoggerAcceptorNode α)} {i : Nat} {a : NodeAction α}
    (h : stepAt LoggerAcceptorNode.step ns i a = some ms) (ha : ∀ outcome, a ≠ .process outcome) (j : Nat) :
    processedAt ms j = processedAt ns j := by
  obtain ⟨n, m, hn, hm, rfl⟩ := stepAt_eq_some_iff.mp h
  unfold processedAt
  rw [getElem?_set_of_some hn]
  split
  · next hij =>
    rw [← hij, hn]
    exact LoggerAcceptorNode.processed_of_step hm ha
  · rfl

theorem processedAt_append_new (ns : List (LoggerAcceptorNode α)) (j : Nat) :
    processedAt (ns ++ [.new]) j = processedAt ns j := by
  unfold processedAt
  rcases Nat.lt_trichotomy j ns.length with hlt | rfl | hgt
  · rw [List.getElem?_append_left hlt]
  · rw [List.getElem?_append_right (Nat.le_refl _), Nat.sub_self, List.getElem?_eq_none (Nat.le_refl _)]
    rfl
  · rw [List.getElem?_eq_none (by rw [List.length_append]; exact hgt), List.getElem?_eq_none (Nat.le_of_lt hgt)]

theorem callsOf_step {s t : ThreadPooledServer α} {a : ServerAction α}
    (hs : ∀ i, s.callsOf i = processedAt s.connections i) (h : s.step a = some t) (j : Nat) :
    t.callsOf j = processedAt t.connections j := by
  cases step_cases h with
  | connect => exact (hs j).trans (processedAt_append_new _ j).symm
  | arrive hnode | accept _ _ hnode | createWorker _ hnode | execute _ _ hnode | start _ hnode | read hnode =>
    exact (hs j).trans (processedAt_stepAt hnode (by rintro outcome ⟨⟩) j).symm
  | @process i n event outcome connections hn hphase hnode =>
    obtain ⟨n', m, hn', hm, rfl⟩ := stepAt_eq_some_iff.mp hnode
    obtain rfl := Option.some.inj (hn.symm.trans hn')
    have hprocessed := LoggerAcceptorNode.processed_of_process hm hphase
    have hbefore := hs j
    unfold callsOf processedAt at hbefore ⊢
    rw [List.filter_append, List.map_append, hbefore, getElem?_set_of_some hn]
    by_cases hij : i = j
    · rw [if_pos hij, ← hij, hn, List.filter_cons_of_pos (by simp)]
      exact hprocessed.symm
    · rw [if_neg hij, List.filter_cons_of_neg (by simpa using hij)]
      exact List.append_nil _
  | opens | opensNot | goesOn | leavesLoop | acceptReturns | acceptThrows | rejects | shutdown | stop | closesNot
  | close => exact hs j

theorem callsOf_run {s : ThreadPooledServer α} {as : List (ServerAction α)} (h : Run step initial as s) (i : Nat) :
    s.callsOf i = processedAt s.connections i :=
  h.invariant (I := fun s => ∀ i, s.callsOf i = processedAt s.connections i)
    (fun _ _ _ hs ha => callsOf_step hs ha) (fun _ => rfl) i

end calls

/-- The events of a connection are processed in order from its first one, whatever the other
connections do. A worker that waits has left out none of them, and one that has ended has
left out events only behind a call that threw. -/
theorem events_processed_in_order {s : ThreadPooledServer α} {as : List (ServerAction α)} (h : Run step initial as s)
    {i : Nat} {n : LoggerAcceptorNode α} (hn : s.connections[i]? = some n) :
    (s.callsOf i).map Prod.fst <+: eventsOf n.arrived ∧
      (n.phase = .reading → n.unread = [] →
        (s.callsOf i).map Prod.fst = eventsOf n.arrived ∧ LoggerAcceptorNode.AllReturned (s.callsOf i)) ∧
      (n.phase = .closed →
        ((s.callsOf i).map Prod.fst = eventsOf n.arrived ∧ LoggerAcceptorNode.AllReturned (s.callsOf i)) ∨
        ∃ before event, s.callsOf i = before ++ [(event, .threw)] ∧ LoggerAcceptorNode.AllReturned before) := by
  have hcalls : s.callsOf i = n.processed := by
    rw [callsOf_run h, processedAt, hn]
    rfl
  have hinvariant := node_invariant h (List.mem_of_getElem? hn)
  rw [hcalls]
  exact ⟨LoggerAcceptorNode.processed_prefix hinvariant, LoggerAcceptorNode.processed_of_waiting hinvariant,
    LoggerAcceptorNode.processed_of_closed hinvariant⟩

section sample

/-- One client sends two events, and the call for the second one throws. -/
def sampleActions : List (ServerAction Nat) :=
  [.openServerSocket true, .isStopped, .connect, .accept 0, .arrive 0 .header, .createWorker, .execute, .start 0,
    .arrive 0 (.object 7), .read 0, .process 0 .returned, .arrive 0 (.object 8), .arrive 0 (.object 9), .read 0,
    .process 0 .threw]

theorem third_event_left_out : ∃ (s : ThreadPooledServer Nat) (n : LoggerAcceptorNode Nat), n.phase = .closed ∧
    s.callsOf 0 = [(7, .returned), (8, .threw)] ∧ (s.callsOf 0).map Prod.fst <+: eventsOf n.arrived ∧
      (n.phase = .reading → n.unread = [] →
        (s.callsOf 0).map Prod.fst = eventsOf n.arrived ∧ LoggerAcceptorNode.AllReturned (s.callsOf 0)) ∧
      (n.phase = .closed →
        ((s.callsOf 0).map Prod.fst = eventsOf n.arrived ∧ LoggerAcceptorNode.AllReturned (s.callsOf 0)) ∨
        ∃ before event, s.callsOf 0 = before ++ [(event, .threw)] ∧ LoggerAcceptorNode.AllReturned before) := by
  have hrun : ∃ (s : ThreadPooledServer Nat) (n : LoggerAcceptorNode Nat), exec step initial sampleActions = some s ∧
      s.connections[0]? = some n ∧ n.phase = .closed ∧ s.callsOf 0 = [(7, .returned), (8, .threw)] :=
    ⟨_, _, rfl, rfl, rfl, rfl⟩
  obtain ⟨s, n, hs, hn, hphase, hcalls⟩ := hrun
  exact ⟨s, n, hphase, hcalls, events_processed_in_order (exec_eq_some_iff.mp hs) hn⟩

end sample

section handed

/-- The connection that the acceptor has in hand. -/
def inHand : Acceptor → List Nat
  | .constructing i | .executing i => [i]
  | _ => []

/-- Who has the connection in each phase: nobody yet, the acceptor or the pool. -/
def Placed (acceptor : Acceptor) (accepted handed : List Nat) (i : Nat) : Phase α → Prop
  | .backlog => i ∉ accepted
  | .constructing => acceptor = .constructing i
  | .constructed _ => acceptor = .executing i
  | .queued _ | .reading | .processing _ | .closed => i ∈ handed

structure Invariant (s : ThreadPooledServer α) : Prop where
  accepted : s.accepted = s.handed ++ inHand s.acceptor
  nodup : s.accepted.Nodup
  known : ∀ i ∈ s.accepted, i < s.connections.length
  placed : ∀ i n, s.connections[i]? = some n → Placed s.acceptor s.accepted s.handed i n.phase
  pool : s.shutDown = true → s.acceptor = .returned
  busy : s.connections.countP (fun n => n.phase.busy) ≤ THREADS

theorem invariant_initial : Invariant (initial : ThreadPooledServer α) where
  accepted := rfl
  nodup := List.nodup_nil
  known _ h := absurd h List.not_mem_nil
  placed _ _ h := absurd h (Option.some_ne_none _).symm
  pool h := absurd h Bool.false_ne_true
  busy := Nat.zero_le _

/-- What the acceptor does leaves the connections that it has not in hand where they are. -/
theorem placed_of_not_inHand {acceptor acceptor' : Acceptor} {accepted accepted' handed handed' : List Nat} {i : Nat}
    {phase : Phase α} (h : Placed acceptor accepted handed i phase) (hhand : i ∉ inHand acceptor)
    (haccepted : i ∉ accepted → i ∉ accepted') (hhanded : i ∈ handed → i ∈ handed') :
    Placed acceptor' accepted' handed' i phase := by
  cases phase with
  | backlog => exact haccepted h
  | constructing =>
    obtain rfl : acceptor = .constructing i := h
    exact absurd List.mem_cons_self hhand
  | constructed ois =>
    obtain rfl : acceptor = .executing i := h
    exact absurd List.mem_cons_self hhand
  | queued | reading | processing | closed => exact hhanded h

/-- A step of a worker or of a client leaves the connection where it is. -/
theorem placed_of_node {acceptor : Acceptor} {accepted handed : List Nat} {i : Nat} {n m : LoggerAcceptorNode α}
    {a : NodeAction α} (h : Placed acceptor accepted handed i n.phase) (ha : n.step a = some m)
    (hworker : a ≠ .accept ∧ a ≠ .construct ∧ a ≠ .execute) : Placed acceptor accepted handed i m.phase := by
  cases LoggerAcceptorNode.step_cases ha with
  | arrive => exact h
  | accept => exact absurd rfl hworker.1
  | opens | opensNot => exact absurd rfl hworker.2.1
  | execute => exact absurd rfl hworker.2.2
  | starts hphase | startsNot hphase | reads hphase | readsNot hphase | returns hphase | throws hphase =>
    rw [hphase] at h
    exact h

/-- A step takes a thread of the pool at most, and only the start of a worker takes one. -/
theorem busy_of_node {ns ms : List (LoggerAcceptorNode α)} {i : Nat} {a : NodeAction α}
    (h : stepAt LoggerAcceptorNode.step ns i a = some ms) :
    ms.countP (fun n => n.phase.busy) ≤ ns.countP (fun n => n.phase.busy) + 1 ∧
      (a ≠ .start → ms.countP (fun n => n.phase.busy) ≤ ns.countP (fun n => n.phase.busy)) := by
  obtain ⟨n, m, hn, hm, rfl⟩ := stepAt_eq_some_iff.mp h
  obtain ⟨hi, hget⟩ := List.getElem?_eq_some_iff.mp hn
  have hbusy : n.phase.busy = true → 0 < ns.countP (fun n => n.phase.busy) :=
    fun hn' => List.countP_pos_iff.mpr ⟨n, List.mem_of_getElem? hn, hn'⟩
  have hnext : a ≠ .start → m.phase.busy = true → n.phase.busy = true := by
    intro ha hm'
    cases LoggerAcceptorNode.step_cases hm with
    | starts => exact absurd rfl ha
    | arrive => exact hm'
    | reads hphase | returns hphase =>
      rw [hphase]
      rfl
    | accept | opens | opensNot | execute | startsNot | readsNot | throws => cases hm'
  rw [List.countP_set hi, hget]
  cases hold : n.phase.busy with
  | true =>
    have hpos := hbusy hold
    rw [if_pos rfl]
    cases m.phase.busy with
    | true =>
      rw [if_pos rfl]
      omega
    | false =>
      rw [if_neg Bool.false_ne_true]
      omega
  | false =>
    cases hnew : m.phase.busy with
    | true => exact ⟨by simp, fun ha => absurd (hnext ha hnew) (by rw [hold]; exact Bool.false_ne_true)⟩
    | false => simp

theorem length_of_stepAt {ns ms : List (LoggerAcceptorNode α)} {i : Nat} {a : NodeAction α}
    (h : stepAt LoggerAcceptorNode.step ns i a = some ms) : ms.length = ns.length := by
  obtain ⟨n, m, -, -, rfl⟩ := stepAt_eq_some_iff.mp h
  exact List.length_set

/-- A step of a worker or of a client. -/
theorem invariant_of_node {s : ThreadPooledServer α} {connections : List (LoggerAcceptorNode α)} {i : Nat}
    {a : NodeAction α} (hs : Invariant s) (h : stepAt LoggerAcceptorNode.step s.connections i a = some connections)
    (hworker : a ≠ .accept ∧ a ≠ .construct ∧ a ≠ .execute)
    (hbusy : connections.countP (fun n => n.phase.busy) ≤ THREADS) (calls : List (Nat × α × Outcome)) :
    Invariant { s with connections := connections, calls := calls } := by
  refine ⟨hs.accepted, hs.nodup, fun j hj => ?_, ?_, hs.pool, hbusy⟩
  · rw [length_of_stepAt h]
    exact hs.known j hj
  · obtain ⟨n, m, hn, hm, rfl⟩ := stepAt_eq_some_iff.mp h
    intro j k hk
    rw [getElem?_set_of_some hn] at hk
    split at hk
    · next hij =>
      obtain rfl := Option.some.inj hk
      exact hij ▸ placed_of_node (hs.placed i n hn) hm hworker
    · exact hs.placed j k hk

/-- A step of the acceptor that takes or hands over no connection. -/
theorem invariant_of_acceptor {s : ThreadPooledServer α} {acceptor : Acceptor} {shutDown : Bool} (hs : Invariant s)
    (hnone : inHand s.acceptor = []) (hnone' : inHand acceptor = []) (hpool : shutDown = true → acceptor = .returned)
    (serverSocket : ServerSocket) (started : Bool) :
    Invariant { s with acceptor, shutDown, serverSocket, started } where
  accepted := by
    rw [hs.accepted, hnone, hnone']
  nodup := hs.nodup
  known := hs.known
  placed i n hn := placed_of_not_inHand (hs.placed i n hn) (by rw [hnone]; exact List.not_mem_nil) id id
  pool := hpool
  busy := hs.busy

/-- A step of the acceptor at the connection that it takes, has in hand or hands over. -/
theorem invariant_of_hand {s : ThreadPooledServer α} {connections : List (LoggerAcceptorNode α)} {i : Nat}
    {a : NodeAction α} {acceptor : Acceptor} {accepted handed : List Nat} (hs : Invariant s)
    (h : stepAt LoggerAcceptorNode.step s.connections i a = some connections) (ha : a ≠ .start)
    (hpool : s.shutDown = false) (hhand : ∀ j ∈ inHand s.acceptor, j = i)
    (hall : accepted = handed ++ inHand acceptor) (hnodup : accepted.Nodup)
    (haccepted : ∀ j ∈ accepted, j ∈ s.accepted ∨ j = i) (hhanded : s.handed ⊆ handed)
    (hplaced : ∀ n m, s.connections[i]? = some n → n.step a = some m → Placed acceptor accepted handed i m.phase) :
    Invariant { s with connections, acceptor, accepted, handed } := by
  have hlength := length_of_stepAt h
  have hbusy := Nat.le_trans ((busy_of_node h).2 ha) hs.busy
  obtain ⟨n, m, hn, hm, rfl⟩ := stepAt_eq_some_iff.mp h
  refine ⟨hall, hnodup, fun j hj => ?_, fun j k hk => ?_, fun hshut => ?_, hbusy⟩
  · rw [hlength]
    rcases haccepted j hj with hold | rfl
    · exact hs.known j hold
    · exact (List.getElem?_eq_some_iff.mp hn).1
  · rw [getElem?_set_of_some hn] at hk
    split at hk
    · next hij =>
      obtain rfl := Option.some.inj hk
      exact hij ▸ hplaced n m hn hm
    · next hij =>
      refine placed_of_not_inHand (hs.placed j k hk) (fun hj => hij (hhand j hj).symm) ?_ (fun hj => hhanded hj)
      exact fun hj hmem => (haccepted j hmem).elim hj fun heq => hij heq.symm
  · rw [hpool] at hshut
    cases hshut

theorem invariant_step {s t : ThreadPooledServer α} {a : ServerAction α} (hs : Invariant s) (h : s.step a = some t) :
    Invariant t := by
  have hpool : ∀ {acceptor : Acceptor}, s.acceptor = acceptor → acceptor ≠ .returned → s.shutDown = false := by
    intro acceptor hacceptor hne
    refine Bool.eq_false_iff.mpr fun hshut => hne ?_
    rw [← hacceptor]
    exact hs.pool hshut
  cases step_cases h with
  | opens hacceptor | opensNot hacceptor | goesOn hacceptor | leavesLoop hacceptor | acceptThrows hacceptor =>
    refine invariant_of_acceptor hs (by rw [hacceptor]; rfl) rfl (fun hshut => ?_) _ _
    rw [hpool hacceptor (by rintro ⟨⟩)] at hshut
    cases hshut
  | acceptReturns hacceptor | shutdown hacceptor =>
    exact invariant_of_acceptor hs (by rw [hacceptor]; rfl) rfl (fun _ => rfl) _ _
  | rejects hacceptor hshut =>
    rw [hpool hacceptor (by rintro ⟨⟩)] at hshut
    cases hshut
  | stop | closesNot | close => exact ⟨hs.accepted, hs.nodup, hs.known, hs.placed, hs.pool, hs.busy⟩
  | connect =>
    refine ⟨hs.accepted, hs.nodup, fun i hi => ?_, fun i n hn => ?_, hs.pool, ?_⟩
    · rw [List.length_append]
      exact Nat.lt_add_right _ (hs.known i hi)
    · rcases getElem?_append_singleton_cases hn with hold | ⟨rfl, rfl⟩
      · exact hs.placed i n hold
      · exact fun hknown => Nat.lt_irrefl _ (hs.known _ hknown)
    · rw [List.countP_append]
      exact hs.busy
  | arrive hnode | read hnode =>
    refine invariant_of_node hs hnode ⟨?_, ?_, ?_⟩ (Nat.le_trans ((busy_of_node hnode).2 ?_) hs.busy) s.calls
    all_goals rintro ⟨⟩
  | process _ _ hnode =>
    refine invariant_of_node hs hnode ⟨?_, ?_, ?_⟩ (Nat.le_trans ((busy_of_node hnode).2 ?_) hs.busy) _
    all_goals rintro ⟨⟩
  | start hfree hnode =>
    refine invariant_of_node hs hnode ⟨?_, ?_, ?_⟩ (Nat.le_trans (busy_of_node hnode).1 hfree) s.calls
    all_goals rintro ⟨⟩
  | @accept i connections hacceptor _ hnode =>
    have hnew : i ∉ s.accepted := by
      obtain ⟨n, m, hn, hm, -⟩ := stepAt_eq_some_iff.mp hnode
      have hplaced := hs.placed i n hn
      cases LoggerAcceptorNode.step_cases hm with
      | accept hphase =>
        rw [hphase] at hplaced
        exact hplaced
    refine invariant_of_hand hs hnode (by rintro ⟨⟩) (hpool hacceptor (by rintro ⟨⟩)) ?_ ?_ ?_ ?_ (List.Subset.refl _) ?_
    · rw [hacceptor]
      exact fun j hj => absurd hj List.not_mem_nil
    · rw [hs.accepted, hacceptor]
      exact congrArg (· ++ [i]) (List.append_nil _)
    · exact List.nodup_append.mpr ⟨hs.nodup, List.pairwise_singleton _ i, fun j hj k hk hjk =>
        hnew (List.mem_singleton.mp hk ▸ hjk ▸ hj)⟩
    · exact fun j hj => (List.mem_append.mp hj).imp_right List.mem_singleton.mp
    · intro n m _ hm
      cases LoggerAcceptorNode.step_cases hm with
      | accept => rfl
  | @createWorker i connections hacceptor hnode =>
    refine invariant_of_hand hs hnode (by rintro ⟨⟩) (hpool hacceptor (by rintro ⟨⟩)) ?_ ?_ hs.nodup
      (fun j hj => .inl hj) (List.Subset.refl _) ?_
    · rw [hacceptor]
      exact fun j hj => List.mem_singleton.mp hj
    · rw [hs.accepted, hacceptor]
      rfl
    · intro n m _ hm
      cases LoggerAcceptorNode.step_cases hm with
      | opens | opensNot => rfl
  | @execute i connections hacceptor hshut hnode =>
    refine invariant_of_hand hs hnode (by rintro ⟨⟩) hshut ?_ ?_ hs.nodup (fun j hj => .inl hj)
      (List.subset_append_left _ _) ?_
    · rw [hacceptor]
      exact fun j hj => List.mem_singleton.mp hj
    · rw [hs.accepted, hacceptor]
      exact (List.append_nil _).symm
    · intro n m _ hm
      cases LoggerAcceptorNode.step_cases hm with
      | execute => exact List.mem_append_right _ (List.mem_singleton.mpr rfl)

theorem invariant_run {s : ThreadPooledServer α} {as : List (ServerAction α)} (h : Run step initial as s) : Invariant s :=
  h.invariant (fun _ _ _ hs ha => invariant_step hs ha) invariant_initial

/-- A connection has been handed to the pool before a call of `processEvent` is made for it. -/
theorem handed_of_processed {s : ThreadPooledServer α} (hs : Invariant s) {i : Nat} {n : LoggerAcceptorNode α}
    (hn : s.connections[i]? = some n) (hnode : n.Invariant) (hprocessed : n.processed ≠ []) : i ∈ s.handed := by
  obtain ⟨read, -, hread⟩ := hnode
  have hplaced := hs.placed i n hn
  generalize n.phase = phase at hread hplaced
  cases phase with
  | backlog | constructing => exact absurd hread.2 hprocessed
  | constructed ois =>
    cases ois with
    | true | false => exact absurd hread.2 hprocessed
  | queued | reading | processing | closed => exact hplaced

theorem handed_of_called {s : ThreadPooledServer α} {as : List (ServerAction α)} (h : Run step initial as s) {i : Nat}
    (hi : s.callsOf i ≠ []) : i ∈ s.handed := by
  rw [callsOf_run h, processedAt] at hi
  cases hn : s.connections[i]? with
  | none =>
    rw [hn] at hi
    exact absurd rfl hi
  | some n =>
    rw [hn] at hi
    exact handed_of_processed (invariant_run h) hn (node_invariant h (List.mem_of_getElem? hn)) hi

/-- Each accepted connection is handed to the pool once, in the order of acceptance and before
any of its events is processed, except the one in the acceptor's hand; at most as many are
served at once as the pool has threads, and it rejects none. -/
theorem connections_handed_once {s : ThreadPooledServer α} {as : List (ServerAction α)} (h : Run step initial as s) :
    s.accepted.Nodup ∧ s.accepted = s.handed ++ inHand s.acceptor ∧ (∀ i, s.callsOf i ≠ [] → i ∈ s.handed) ∧
      s.connections.countP (fun n => n.phase.busy) ≤ THREADS ∧ (s.shutDown = true → s.acceptor = .returned) :=
  have hs := invariant_run h
  ⟨hs.nodup, hs.accepted, fun _ hi => handed_of_called h hi, hs.busy, hs.pool⟩

/-- The first connection is served while the acceptor makes the worker of the second. -/
theorem connection_handed : ∃ s : ThreadPooledServer Nat, s.handed = [0] ∧ s.acceptor = .constructing 1 ∧
    s.callsOf 0 = [(7, .returned), (8, .threw)] ∧ s.accepted.Nodup ∧ s.accepted = s.handed ++ inHand s.acceptor ∧
      (∀ i, s.callsOf i ≠ [] → i ∈ s.handed) ∧ s.connections.countP (fun n => n.phase.busy) ≤ THREADS ∧
      (s.shutDown = true → s.acceptor = .returned) := by
  have hrun : ∃ s : ThreadPooledServer Nat, exec step initial (sampleActions ++ [.isStopped, .connect, .accept 1]) = some s ∧
      s.handed = [0] ∧ s.acceptor = .constructing 1 ∧ s.callsOf 0 = [(7, .returned), (8, .threw)] :=
    ⟨_, rfl, rfl, rfl, rfl⟩
  obtain ⟨s, hs, hhanded, hacceptor, hcalls⟩ := hrun
  exact ⟨s, hhanded, hacceptor, hcalls, connections_handed_once (exec_eq_some_iff.mp hs)⟩

end handed
end ThreadPooledServer
end Srvlog.Tcp
