import Srvlog.Tcp.ServedConnections

/-! How the acceptor comes to a halt: at a client that says nothing, and when the server is
stopped. -/
namespace Srvlog.Tcp
open Library

namespace ThreadPooledServer
variable {α : Type}

section silent

/-- The acceptor makes the worker of a connection over which nothing has come. -/
structure Waits (i : Nat) (accepted handed : List Nat) (s : ThreadPooledServer α) : Prop where
  acceptor : s.acceptor = .constructing i
  node : ∃ n, s.connections[i]? = some n ∧ n.phase = .constructing ∧ n.unread = []
  accepted : s.accepted = accepted
  handed : s.handed = handed

/-- The steps at other connections, and those that the silent one cannot take. -/
theorem waits_of_node {i j : Nat} {accepted handed : List Nat} {s : ThreadPooledServer α} {a : NodeAction α}
    {connections : List (LoggerAcceptorNode α)} (hs : Waits i accepted handed s)
    (h : stepAt LoggerAcceptorNode.step s.connections j a = some connections)
    (hquiet : j = i → ∀ item, a ≠ .arrive item) (ha : a ≠ .construct) (calls : List (Nat × α × Outcome)) :
    Waits i accepted handed { s with connections, calls } := by
  obtain ⟨n, hn, hphase, hunread⟩ := hs.node
  refine ⟨hs.acceptor, ?_, hs.accepted, hs.handed⟩
  obtain ⟨k, m, hk, hm, rfl⟩ := stepAt_eq_some_iff.mp h
  refine ⟨n, ?_, hphase, hunread⟩
  rw [getElem?_set_of_some hk]
  split
  · next hji =>
    obtain rfl := Option.some.inj (hn.symm.trans (hji ▸ hk))
    cases LoggerAcceptorNode.step_cases hm with
    | arrive item => exact absurd rfl (hquiet hji item)
    | opens | opensNot => exact absurd rfl ha
    | accept hphase' | execute hphase' | starts hphase' | startsNot hphase' | reads hphase' | readsNot hphase'
    | returns hphase' | throws hphase' =>
      rw [hphase] at hphase'
      cases hphase'
  · exact hn

theorem waits_step {i : Nat} {accepted handed : List Nat} {s t : ThreadPooledServer α} {a : ServerAction α}
    (hs : Waits i accepted handed s) (hquiet : ∀ item, a ≠ .arrive i item) (h : s.step a = some t) :
    Waits i accepted handed t := by
  cases step_cases h with
  | connect =>
    obtain ⟨n, hn, hnode⟩ := hs.node
    refine ⟨hs.acceptor, ⟨n, ?_, hnode⟩, hs.accepted, hs.handed⟩
    rw [List.getElem?_append_left (List.getElem?_eq_some_iff.mp hn).1]
    exact hn
  | @arrive j item connections hnode =>
    refine waits_of_node hs hnode ?_ (by rintro ⟨⟩) s.calls
    rintro rfl item' heq
    exact hquiet item rfl
  | start _ hnode | read hnode => exact waits_of_node hs hnode (by rintro - item ⟨⟩) (by rintro ⟨⟩) s.calls
  | process _ _ hnode => exact waits_of_node hs hnode (by rintro - item ⟨⟩) (by rintro ⟨⟩) _
  | @createWorker j connections hacceptor hnode =>
    -- the constructor waits for the header
    obtain ⟨n, hn, hphase, hunread⟩ := hs.node
    obtain rfl : j = i := Acceptor.constructing.inj (hacceptor.symm.trans hs.acceptor)
    obtain ⟨k, m, hk, hm, -⟩ := stepAt_eq_some_iff.mp hnode
    obtain rfl := Option.some.inj (hn.symm.trans hk)
    cases LoggerAcceptorNode.step_cases hm with
    | opens _ hunread' | opensNot _ hunread' =>
      rw [hunread] at hunread'
      cases hunread'
  | stop | closesNot | close => exact ⟨hs.acceptor, hs.node, hs.accepted, hs.handed⟩
  | opens hacceptor | opensNot hacceptor | goesOn hacceptor | leavesLoop hacceptor | accept hacceptor
  | acceptReturns hacceptor | acceptThrows hacceptor | rejects hacceptor | execute hacceptor | shutdown hacceptor =>
    rw [hs.acceptor] at hacceptor
    cases hacceptor

/-- As long as the client of the accepted connection keeps it open and sends nothing, no further
connection is accepted, handed to the pool or served, whatever the other clients do, and also
if the server is stopped. -/
theorem silent_client_blocks {before after : List (ServerAction α)} {s t : ThreadPooledServer α} {i : Nat}
    {n : LoggerAcceptorNode α} (hs : Run step initial before s) (hacceptor : s.acceptor = .constructing i)
    (hn : s.connections[i]? = some n) (hunread : n.unread = []) (h : Run step s after t)
    (hquiet : ∀ item, .arrive i item ∉ after) :
    t.acceptor = .constructing i ∧ t.accepted = s.accepted ∧ t.handed = s.handed ∧ t.shutDown = false ∧
      ∀ j, j ∉ s.handed → t.callsOf j = [] := by
  have hinvariant := invariant_run hs
  have hphase : n.phase = .constructing := by
    have hplaced := hinvariant.placed i n hn
    have hmem : i ∈ s.accepted := by
      rw [hinvariant.accepted, hacceptor]
      exact List.mem_append_right _ List.mem_cons_self
    have hnot : i ∉ s.handed := by
      have hnodup := hinvariant.nodup
      rw [hinvariant.accepted, hacceptor] at hnodup
      exact fun hi => (List.nodup_append.mp hnodup).2.2 i hi i List.mem_cons_self rfl
    generalize n.phase = phase at hplaced
    cases phase with
    | backlog => exact absurd hmem hplaced
    | constructing => rfl
    | constructed =>
      rw [hacceptor] at hplaced
      cases hplaced
    | queued | reading | processing | closed => exact absurd hplaced hnot
  have hwaits : Waits i s.accepted s.handed t := by
    have hothers : AllSteps step (fun _ a => ∀ item, a ≠ .arrive i item) s after := by
      refine allSteps_of_forall_mem ?_ s
      rintro a ha item rfl
      exact hquiet item ha
    exact h.guarded_invariant hothers (fun u a v hu hguard ha => waits_step hu hguard ha)
      ⟨hacceptor, ⟨n, hn, hphase, hunread⟩, rfl, rfl⟩
  have hrun := hs.append h
  refine ⟨hwaits.acceptor, hwaits.accepted, hwaits.handed, Bool.eq_false_iff.mpr fun hshut => ?_, fun j hj => ?_⟩
  · have hreturned := (invariant_run hrun).pool hshut
    rw [hwaits.acceptor] at hreturned
    cases hreturned
  · by_contra hne
    have hmem := handed_of_called hrun hne
    rw [hwaits.handed] at hmem
    exact hj hmem

def silentActions : List (ServerAction Nat) := [.openServerSocket true, .isStopped, .connect, .connect, .accept 0]

/-- The second client sends its header and an event, and the server is stopped. -/
def otherActions : List (ServerAction Nat) := [.arrive 1 .header, .arrive 1 (.object 5), .stop, .close]

theorem second_client_waits : ∃ s t : ThreadPooledServer Nat, t.stopped = true ∧ t.connections.length = 2 ∧
    t.acceptor = .constructing 0 ∧ t.accepted = s.accepted ∧ t.handed = s.handed ∧ t.shutDown = false ∧
      ∀ j, j ∉ s.handed → t.callsOf j = [] := by
  have hrun : ∃ s t : ThreadPooledServer Nat, exec step initial silentActions = some s ∧
      exec step s otherActions = some t ∧ s.acceptor = .constructing 0 ∧ s.connections[0]? = some ⟨[], [], .constructing, []⟩ ∧
      t.stopped = true ∧ t.connections.length = 2 := ⟨_, _, rfl, rfl, rfl, rfl, rfl, rfl⟩
  obtain ⟨s, t, hs, ht, hacceptor, hn, hstopped, hlength⟩ := hrun
  refine ⟨s, t, hstopped, hlength, silent_client_blocks (exec_eq_some_iff.mp hs) hacceptor hn rfl
    (exec_eq_some_iff.mp ht) ?_⟩
  simp [otherActions]

end silent

section stopping

/-- Before it has bound its socket the acceptor has not begun its loop, and `stop` holds the
lock only after it has set `stopped`. -/
structure Begun (s : ThreadPooledServer α) : Prop where
  opening : s.acceptor = .opening → s.serverSocket = .null
  stopped : s.stopping = true → s.stopped = true

theorem begun_step {s t : ThreadPooledServer α} {a : ServerAction α} (hs : Begun s) (h : s.step a = some t) : Begun t := by
  cases step_cases h with
  | opens | opensNot | goesOn | leavesLoop | accept | acceptReturns | acceptThrows | createWorker | rejects | execute
  | shutdown => exact ⟨by rintro ⟨⟩, hs.stopped⟩
  | connect | arrive | start | read | process => exact ⟨hs.opening, hs.stopped⟩
  | stop => exact ⟨hs.opening, fun _ => rfl⟩
  | closesNot => exact ⟨hs.opening, by rintro ⟨⟩⟩
  | close _ hsocket => exact ⟨fun hopening => absurd (hs.opening hopening) hsocket, by rintro ⟨⟩⟩

theorem begun_run {s : ThreadPooledServer α} {as : List (ServerAction α)} (h : Run step initial as s) : Begun s :=
  h.invariant (fun _ _ _ hs ha => begun_step hs ha) ⟨fun _ => rfl, by rintro ⟨⟩⟩

def Ended (s : ThreadPooledServer α) : Prop := s.acceptor = .returned ∨ s.acceptor = .threw

instance (s : ThreadPooledServer α) : Decidable s.Ended :=
  inferInstanceAs (Decidable (s.acceptor = .returned ∨ s.acceptor = .threw))

/-- The acceptor of a stopped server that waited in `accept` when the socket was closed. -/
structure LeavesByException (s : ThreadPooledServer α) : Prop where
  socket : s.serverSocket = .closed
  stopped : s.stopped = true
  acceptor : s.acceptor = .accepting ∨ s.acceptor = .returned
  pool : s.shutDown = false

/-- The acceptor of a stopped server that was on its way to the condition of its loop. -/
structure LeavesLoop (s : ThreadPooledServer α) : Prop where
  stopped : s.stopped = true
  acceptor : s.acceptor ≠ .opening ∧ s.acceptor ≠ .accepting ∧ s.acceptor ≠ .threw
  pool : s.shutDown = true ↔ s.acceptor = .returned

theorem leavesByException_step {s t : ThreadPooledServer α} {a : ServerAction α} (hs : LeavesByException s)
    (h : s.step a = some t) : LeavesByException t := by
  obtain ⟨hsocket, hstopped, hacceptor, hpool⟩ := hs
  cases step_cases h with
  | connect hbound | accept _ hbound =>
    rw [hsocket] at hbound
    cases hbound
  | arrive | start | read | process => exact ⟨hsocket, hstopped, hacceptor, hpool⟩
  | acceptReturns => exact ⟨hsocket, hstopped, .inr rfl, hpool⟩
  | acceptThrows _ _ hrunning =>
    rw [hstopped] at hrunning
    cases hrunning
  | stop => exact ⟨hsocket, rfl, hacceptor, hpool⟩
  | closesNot _ hnull =>
    rw [hsocket] at hnull
    cases hnull
  | close => exact ⟨rfl, hstopped, hacceptor, hpool⟩
  | opens hother | opensNot hother | goesOn hother | leavesLoop hother | createWorker hother | rejects hother
  | execute hother | shutdown hother =>
    rw [hother] at hacceptor
    rcases hacceptor with ⟨⟨⟩⟩ | ⟨⟨⟩⟩

theorem leavesLoop_step {s t : ThreadPooledServer α} {a : ServerAction α} (hs : LeavesLoop s) (h : s.step a = some t) :
    LeavesLoop t := by
  obtain ⟨hstopped, ⟨hopening, haccepting, hthrew⟩, hpool⟩ := hs
  have hopen : ∀ {acceptor : Acceptor}, s.acceptor = acceptor → acceptor ≠ .returned → s.shutDown = false := by
    intro acceptor hacceptor hne
    refine Bool.eq_false_iff.mpr fun hshut => hne ?_
    rw [← hacceptor]
    exact hpool.mp hshut
  cases step_cases h with
  | connect | arrive | start | read | process | closesNot | close =>
    exact ⟨hstopped, ⟨hopening, haccepting, hthrew⟩, hpool⟩
  | stop => exact ⟨rfl, ⟨hopening, haccepting, hthrew⟩, hpool⟩
  | opens hacceptor | opensNot hacceptor => exact absurd hacceptor hopening
  | accept hacceptor | acceptReturns hacceptor | acceptThrows hacceptor => exact absurd hacceptor haccepting
  | goesOn _ _ hrunning =>
    rw [hstopped] at hrunning
    cases hrunning
  | rejects hacceptor hshut =>
    rw [hopen hacceptor (by rintro ⟨⟩)] at hshut
    cases hshut
  | leavesLoop hacceptor | createWorker hacceptor | execute hacceptor =>
    have hshut := hopen hacceptor (by rintro ⟨⟩)
    refine ⟨hstopped, ⟨by rintro ⟨⟩, by rintro ⟨⟩, by rintro ⟨⟩⟩, ?_⟩
    change s.shutDown = true ↔ _
    rw [hshut]
    exact ⟨by rintro ⟨⟩, by rintro ⟨⟩⟩
  | shutdown => exact ⟨hstopped, ⟨by rintro ⟨⟩, by rintro ⟨⟩, by rintro ⟨⟩⟩, ⟨fun _ => rfl, fun _ => rfl⟩⟩

/-- When the acceptor of a server that was stopped has ended, its pool is shut down unless the
acceptor stood at `accept` when its socket was closed: then the idle workers stay. -/
theorem pool_shut_down_iff {before after : List (ServerAction α)} {s closed t : ThreadPooledServer α}
    (hs : Run step initial before s) (hclose : s.step .close = some closed) (hsocket : s.serverSocket ≠ .null)
    (halive : ¬ s.Ended) (h : Run step closed after t) (hended : t.Ended) :
    t.shutDown = true ↔ s.acceptor ≠ .accepting := by
  have hbegun := begun_run hs
  have hshut : s.shutDown = false :=
    Bool.eq_false_iff.mpr fun hshut => halive (.inl ((invariant_run hs).pool hshut))
  cases step_cases hclose with
  | closesNot _ hnull => exact absurd hnull hsocket
  | close hlock =>
    by_cases haccepting : s.acceptor = .accepting
    · have hleaves : LeavesByException t :=
        h.invariant (fun _ _ _ hs ha => leavesByException_step hs ha)
          ⟨rfl, hbegun.stopped hlock, .inl haccepting, hshut⟩
      rw [hleaves.pool]
      exact ⟨by rintro ⟨⟩, fun hne => absurd haccepting hne⟩
    · have hleaves : LeavesLoop t := by
        refine h.invariant (fun _ _ _ hs ha => leavesLoop_step hs ha)
          ⟨hbegun.stopped hlock, ⟨fun hopening => hsocket (hbegun.opening hopening), haccepting,
            fun hthrew => halive (.inr hthrew)⟩, ?_⟩
        change s.shutDown = true ↔ _
        rw [hshut]
        exact ⟨by rintro ⟨⟩, fun hreturned => absurd (.inl hreturned) halive⟩
      exact ⟨fun _ => haccepting, fun _ => hleaves.pool.mpr (hended.resolve_right hleaves.acceptor.2.2)⟩

/-- A server that is stopped while it waits for a connection leaves its pool running. -/
theorem pool_left_running : ∃ s t : ThreadPooledServer Nat, t.shutDown = false ∧
    (t.shutDown = true ↔ s.acceptor ≠ .accepting) := by
  have hrun : ∃ s closed t : ThreadPooledServer Nat,
      exec step initial [.openServerSocket true, .isStopped, .stop] = some s ∧ s.step .close = some closed ∧
      s.serverSocket = .bound ∧ s.acceptor = .accepting ∧ exec step closed [.acceptFails] = some t ∧ t.Ended ∧
      t.shutDown = false := ⟨_, _, _, rfl, rfl, rfl, rfl, rfl, .inl rfl, rfl⟩
  obtain ⟨s, closed, t, hs, hclose, hsocket, hacceptor, ht, hended, hshut⟩ := hrun
  have hbound : s.serverSocket ≠ .null := by
    rw [hsocket]
    rintro ⟨⟩
  have halive : ¬ s.Ended := by
    unfold Ended
    rw [hacceptor]
    decide
  exact ⟨s, t, hshut, pool_shut_down_iff (exec_eq_some_iff.mp hs) hclose hbound halive (exec_eq_some_iff.mp ht) hended⟩

end stopping
end ThreadPooledServer
end Srvlog.Tcp
