import Srvlog.Library.Runs

/-! One TCP connection, from the accept queue to the end of its worker. The constructor of
the node runs in the thread of the acceptor, the rest in a thread of the pool. -/
namespace Srvlog.Tcp
open Library

/-- What the object stream of a connection brings: its header, an event, or anything that
ends the stream or gives no event. -/
inductive StreamItem (α : Type) where
  | header
  | object (event : α)
  | broken
  deriving DecidableEq

inductive Outcome where
  | returned
  | threw
  deriving DecidableEq

/-- Where a connection stands; a node without an `ois` has failed to open its stream. -/
inductive Phase (α : Type) where
  | backlog
  | constructing
  | constructed (ois : Bool)
  | queued (ois : Bool)
  | reading
  | processing (event : α)
  | closed
  deriving DecidableEq

/-- A connection with all that has arrived and what is still to be read of it. The calls of
`processEvent` that have ended are an auxiliary variable. -/
structure LoggerAcceptorNode (α : Type) where
  arrived : List (StreamItem α)
  unread : List (StreamItem α)
  phase : Phase α
  processed : List (α × Outcome)
  deriving DecidableEq

inductive NodeAction (α : Type) where
  | arrive (item : StreamItem α)
  | accept
  | construct
  | execute
  | start
  | read
  | process (outcome : Outcome)

namespace LoggerAcceptorNode
variable {α : Type}

def new : LoggerAcceptorNode α := ⟨[], [], .backlog, []⟩

/-- One step at a connection. Both the constructor and `readObject` wait for what they read. -/
def step (n : LoggerAcceptorNode α) : NodeAction α → Option (LoggerAcceptorNode α)
  | .arrive item => some { n with arrived := n.arrived ++ [item], unread := n.unread ++ [item] }
  | .accept => match n.phase with
    | .backlog => some { n with phase := .constructing }
    | _ => none
  | .construct => match n.phase, n.unread with
    | .constructing, .header :: unread => some { n with unread := unread, phase := .constructed true }
    -- the exception is logged
    | .constructing, _ :: unread => some { n with unread := unread, phase := .constructed false }
    | _, _ => none
  | .execute => match n.phase with
    | .constructed ois => some { n with phase := .queued ois }
    | _ => none
  | .start => match n.phase with
    | .queued true => some { n with phase := .reading }
    | .queued false => some { n with phase := .closed }
    | _ => none
  | .read => match n.phase, n.unread with
    | .reading, .object event :: unread => some { n with unread := unread, phase := .processing event }
    | .reading, _ :: unread => some { n with unread := unread, phase := .closed }
    | _, _ => none
  | .process outcome => match n.phase with
    | .processing event =>
      let processed := n.processed ++ [(event, outcome)]
      match outcome with
      | .returned => some { n with phase := .reading, processed := processed }
      | .threw => some { n with phase := .closed, processed := processed }
    | _ => none

/-- What a step needs and what it leaves, one case for each way through it. -/
inductive StepCase (n : LoggerAcceptorNode α) : NodeAction α → LoggerAcceptorNode α → Prop where
  | arrive (item : StreamItem α) :
    StepCase n (.arrive item) { n with arrived := n.arrived ++ [item], unread := n.unread ++ [item] }
  | accept (hphase : n.phase = .backlog) : StepCase n .accept { n with phase := .constructing }
  | opens {unread : List (StreamItem α)} (hphase : n.phase = .constructing) (hunread : n.unread = .header :: unread) :
    StepCase n .construct { n with unread := unread, phase := .constructed true }
  | opensNot {item : StreamItem α} {unread : List (StreamItem α)} (hphase : n.phase = .constructing)
    (hunread : n.unread = item :: unread) (hitem : item ≠ .header) :
    StepCase n .construct { n with unread := unread, phase := .constructed false }
  | execute {ois : Bool} (hphase : n.phase = .constructed ois) : StepCase n .execute { n with phase := .queued ois }
  | starts (hphase : n.phase = .queued true) : StepCase n .start { n with phase := .reading }
  | startsNot (hphase : n.phase = .queued false) : StepCase n .start { n with phase := .closed }
  | reads {event : α} {unread : List (StreamItem α)} (hphase : n.phase = .reading)
    (hunread : n.unread = .object event :: unread) :
    StepCase n .read { n with unread := unread, phase := .processing event }
  | readsNot {item : StreamItem α} {unread : List (StreamItem α)} (hphase : n.phase = .reading)
    (hunread : n.unread = item :: unread) (hitem : ∀ event, item ≠ .object event) :
    StepCase n .read { n with unread := unread, phase := .closed }
  | returns {event : α} (hphase : n.phase = .processing event) :
    StepCase n (.process .returned) { n with phase := .reading, processed := n.processed ++ [(event, .returned)] }
  | throws {event : α} (hphase : n.phase = .processing event) :
    StepCase n (.process .threw) { n with phase := .closed, processed := n.processed ++ [(event, .threw)] }

theorem step_cases {n m : LoggerAcceptorNode α} {a : NodeAction α} (h : n.step a = some m) : StepCase n a m := by
  cases a with
  | arrive item =>
    obtain rfl := Option.some.inj h
    exact .arrive item
  | accept =>
    simp only [step] at h
    split at h
    · next hphase =>
      obtain rfl := Option.some.inj h
      exact .accept hphase
    · cases h
  | construct =>
    simp only [step] at h
    split at h
    · next hphase hunread =>
      obtain rfl := Option.some.inj h
      exact .opens hphase hunread
    · next hitem hphase hunread =>
      obtain rfl := Option.some.inj h
      exact .opensNot hphase hunread hitem
    · cases h
  | execute =>
    simp only [step] at h
    split at h
    · next hphase =>
      obtain rfl := Option.some.inj h
      exact .execute hphase
    · cases h
  | start =>
    simp only [step] at h
    split at h
    · next hphase =>
      obtain rfl := Option.some.inj h
      exact .starts hphase
    · next hphase =>
      obtain rfl := Option.some.inj h
      exact .startsNot hphase
    · cases h
  | read =>
    simp only [step] at h
    split at h
    · next hphase hunread =>
      obtain rfl := Option.some.inj h
      exact .reads hphase hunread
    · next hitem hphase hunread =>
      obtain rfl := Option.some.inj h
      exact .readsNot hphase hunread hitem
    · cases h
  | process outcome =>
    simp only [step] at h
    split at h
    · next hphase =>
      cases outcome with
      | returned =>
        obtain rfl := Option.some.inj h
        exact .returns hphase
      | threw =>
        obtain rfl := Option.some.inj h
        exact .throws hphase
    · cases h

end LoggerAcceptorNode

section events
variable {α : Type}

/-- The events at the beginning of the items. -/
def leadingEvents : List (StreamItem α) → List α
  | .object event :: items => event :: leadingEvents items
  | _ => []

/-- The events that a stream brings before anything else, behind its header. -/
def eventsOf : List (StreamItem α) → List α
  | .header :: items => leadingEvents items
  | _ => []

def objectsOf (processed : List (α × Outcome)) : List (StreamItem α) := processed.map fun call => .object call.1

theorem leadingEvents_objectsOf_append (processed : List (α × Outcome)) (items : List (StreamItem α)) :
    leadingEvents (objectsOf processed ++ items) = processed.map Prod.fst ++ leadingEvents items := by
  induction processed with
  | nil => rfl
  | cons call processed ih => exact congrArg (call.1 :: ·) ih

theorem leadingEvents_of_not_object {item : StreamItem α} (h : ∀ event, item ≠ .object event)
    (items : List (StreamItem α)) : leadingEvents (item :: items) = [] := by
  cases item with
  | object event => exact absurd rfl (h event)
  | header | broken => rfl

theorem eventsOf_of_not_header {item : StreamItem α} (h : item ≠ .header) (items : List (StreamItem α)) :
    eventsOf (item :: items) = [] := by
  cases item with
  | header => exact absurd rfl h
  | object | broken => rfl

end events

namespace LoggerAcceptorNode
variable {α : Type}

/-- Every call of `processEvent` has returned. -/
def AllReturned (processed : List (α × Outcome)) : Prop := ∀ call ∈ processed, call.2 = .returned

/-- What the server has read of the stream in each phase. -/
def HasRead (processed : List (α × Outcome)) (read : List (StreamItem α)) : Phase α → Prop
  | .backlog | .constructing => read = [] ∧ processed = []
  | .constructed true | .queued true => read = [.header] ∧ processed = []
  | .constructed false | .queued false => (∃ item, item ≠ .header ∧ read = [item]) ∧ processed = []
  | .reading => read = .header :: objectsOf processed ∧ AllReturned processed
  | .processing event => read = .header :: (objectsOf processed ++ [.object event]) ∧ AllReturned processed
  | .closed => ((∃ item, item ≠ .header ∧ read = [item]) ∧ processed = []) ∨
    ((∃ item, (∀ event, item ≠ .object event) ∧ read = .header :: (objectsOf processed ++ [item])) ∧
      AllReturned processed) ∨
    (read = .header :: objectsOf processed ∧ ∃ before event, processed = before ++ [(event, .threw)] ∧ AllReturned before)

def Invariant (n : LoggerAcceptorNode α) : Prop :=
  ∃ read, n.arrived = read ++ n.unread ∧ HasRead n.processed read n.phase

theorem invariant_new : Invariant (new : LoggerAcceptorNode α) := ⟨[], rfl, rfl, rfl⟩

theorem invariant_step {n m : LoggerAcceptorNode α} {a : NodeAction α} (hn : Invariant n) (h : n.step a = some m) :
    Invariant m := by
  obtain ⟨read, harrived, hread⟩ := hn
  cases step_cases h with
  | arrive item => exact ⟨read, by rw [harrived, List.append_assoc], hread⟩
  | accept hphase =>
    rw [hphase] at hread
    exact ⟨read, harrived, hread⟩
  | @opens unread hphase hunread =>
    rw [hphase] at hread
    obtain ⟨rfl, hprocessed⟩ := hread
    exact ⟨[.header], by rw [harrived, hunread]; rfl, rfl, hprocessed⟩
  | @opensNot item unread hphase hunread hitem =>
    rw [hphase] at hread
    obtain ⟨rfl, hprocessed⟩ := hread
    exact ⟨[item], by rw [harrived, hunread]; rfl, ⟨item, hitem, rfl⟩, hprocessed⟩
  | @execute ois hphase =>
    rw [hphase] at hread
    refine ⟨read, harrived, ?_⟩
    cases ois with
    | true => exact hread
    | false => exact hread
  | starts hphase =>
    rw [hphase] at hread
    obtain ⟨rfl, hprocessed⟩ := hread
    refine ⟨_, harrived, ?_⟩
    rw [hprocessed]
    exact ⟨rfl, fun call hcall => absurd hcall List.not_mem_nil⟩
  | startsNot hphase =>
    rw [hphase] at hread
    exact ⟨read, harrived, .inl hread⟩
  | @reads event unread hphase hunread =>
    rw [hphase] at hread
    obtain ⟨rfl, hreturned⟩ := hread
    refine ⟨.header :: (objectsOf n.processed ++ [.object event]), ?_, rfl, hreturned⟩
    rw [harrived, hunread, List.cons_append, List.cons_append, List.append_assoc, List.singleton_append]
  | @readsNot item unread hphase hunread hitem =>
    rw [hphase] at hread
    obtain ⟨rfl, hreturned⟩ := hread
    refine ⟨.header :: (objectsOf n.processed ++ [item]), ?_, .inr (.inl ⟨⟨item, hitem, rfl⟩, hreturned⟩)⟩
    rw [harrived, hunread, List.cons_append, List.cons_append, List.append_assoc, List.singleton_append]
  | @returns event hphase =>
    rw [hphase] at hread
    obtain ⟨rfl, hreturned⟩ := hread
    refine ⟨_, harrived, ?_, List.forall_mem_append.mpr ⟨hreturned, List.forall_mem_singleton.mpr rfl⟩⟩
    unfold objectsOf
    rw [List.map_append]
    rfl
  | @throws event hphase =>
    rw [hphase] at hread
    obtain ⟨rfl, hreturned⟩ := hread
    refine ⟨_, harrived, .inr (.inr ⟨?_, n.processed, event, rfl, hreturned⟩)⟩
    unfold objectsOf
    rw [List.map_append]
    rfl

theorem invariant_run {n : LoggerAcceptorNode α} {as : List (NodeAction α)} (h : Run step new as n) : Invariant n :=
  h.invariant (fun _ _ _ hn ha => invariant_step hn ha) invariant_new

/-- The events of the calls that have ended are the first ones of the stream. -/
theorem processed_prefix {n : LoggerAcceptorNode α} (h : Invariant n) :
    n.processed.map Prod.fst <+: eventsOf n.arrived := by
  obtain ⟨read, harrived, hread⟩ := h
  have hprefix : ∀ items, read = .header :: (objectsOf n.processed ++ items) →
      n.processed.map Prod.fst <+: eventsOf n.arrived := by
    rintro items rfl
    rw [harrived, List.cons_append, List.append_assoc]
    change _ <+: leadingEvents (objectsOf n.processed ++ (items ++ n.unread))
    rw [leadingEvents_objectsOf_append]
    exact List.prefix_append _ _
  have hnone : n.processed = [] → n.processed.map Prod.fst <+: eventsOf n.arrived := by
    intro hprocessed
    rw [hprocessed]
    exact List.nil_prefix
  generalize hphase : n.phase = phase at hread
  cases phase with
  | backlog | constructing => exact hnone hread.2
  | constructed ois =>
    cases ois with
    | true | false => exact hnone hread.2
  | queued ois =>
    cases ois with
    | true | false => exact hnone hread.2
  | reading => exact hprefix [] (by rw [List.append_nil]; exact hread.1)
  | processing event => exact hprefix _ hread.1
  | closed =>
    rcases hread with ⟨-, hprocessed⟩ | ⟨⟨item, -, hread⟩, -⟩ | ⟨hread, -⟩
    · exact hnone hprocessed
    · exact hprefix _ hread
    · exact hprefix [] (by rw [List.append_nil]; exact hread)

/-- A worker that waits for its stream has processed all events that arrived, without an exception. -/
theorem processed_of_waiting {n : LoggerAcceptorNode α} (h : Invariant n) (hphase : n.phase = .reading)
    (hunread : n.unread = []) : n.processed.map Prod.fst = eventsOf n.arrived ∧ AllReturned n.processed := by
  obtain ⟨read, harrived, hread⟩ := h
  rw [hphase] at hread
  obtain ⟨rfl, hreturned⟩ := hread
  refine ⟨?_, hreturned⟩
  rw [harrived, hunread, List.append_nil]
  change _ = leadingEvents (objectsOf n.processed)
  have hevents := leadingEvents_objectsOf_append n.processed []
  rw [List.append_nil] at hevents
  exact (hevents.trans (List.append_nil _)).symm

/-- A worker that has ended has processed all events of its stream, or an exception of the
last call has ended it. -/
theorem processed_of_closed {n : LoggerAcceptorNode α} (h : Invariant n) (hphase : n.phase = .closed) :
    (n.processed.map Prod.fst = eventsOf n.arrived ∧ AllReturned n.processed) ∨
      ∃ before event, n.processed = before ++ [(event, .threw)] ∧ AllReturned before := by
  obtain ⟨read, harrived, hread⟩ := h
  rw [hphase] at hread
  rcases hread with ⟨⟨item, hitem, rfl⟩, hprocessed⟩ | ⟨⟨item, hitem, rfl⟩, hreturned⟩ | ⟨-, hthrew⟩
  · left
    rw [hprocessed, harrived, List.singleton_append, eventsOf_of_not_header hitem]
    exact ⟨rfl, fun call hcall => absurd hcall List.not_mem_nil⟩
  · refine .inl ⟨?_, hreturned⟩
    rw [harrived, List.cons_append, List.append_assoc, List.singleton_append]
    change _ = leadingEvents (objectsOf n.processed ++ item :: n.unread)
    rw [leadingEvents_objectsOf_append, leadingEvents_of_not_object hitem, List.append_nil]
  · exact .inr hthrew

/-- An exception has ended the worker, or there was none. -/
theorem allReturned_of_open {n : LoggerAcceptorNode α} (h : Invariant n) (hphase : n.phase ≠ .closed) :
    AllReturned n.processed := by
  obtain ⟨read, -, hread⟩ := h
  have hnone : n.processed = [] → AllReturned n.processed := by
    intro hprocessed
    rw [hprocessed]
    exact fun call hcall => absurd hcall List.not_mem_nil
  generalize n.phase = phase at hread hphase
  cases phase with
  | backlog | constructing => exact hnone hread.2
  | constructed ois =>
    cases ois with
    | true | false => exact hnone hread.2
  | queued ois =>
    cases ois with
    | true | false => exact hnone hread.2
  | reading | processing => exact hread.2
  | closed => exact absurd rfl hphase

/-- When the calls throw for the events that fail a test, the events whose calls return are those
up to the first one that fails it; a worker that waits or has ended has processed all of them. -/
theorem processed_until_failure {n : LoggerAcceptorNode α} (h : Invariant n) {p : α → Bool}
    (hcalls : ∀ call ∈ n.processed, p call.1 = true ↔ call.2 = .returned) :
    (n.processed.map Prod.fst).filter p <+: (eventsOf n.arrived).takeWhile p ∧
      (n.phase = .reading ∧ n.unread = [] ∨ n.phase = .closed →
        (n.processed.map Prod.fst).filter p = (eventsOf n.arrived).takeWhile p) := by
  have hpass {calls : List (α × Outcome)} (hsub : calls ⊆ n.processed) (hreturned : AllReturned calls) :
      ∀ event ∈ calls.map Prod.fst, p event = true :=
    List.forall_mem_map.mpr fun call hcall => (hcalls call (hsub hcall)).mpr (hreturned call hcall)
  obtain ⟨rest, hrest⟩ := processed_prefix h
  have hwhole (hreturned : AllReturned n.processed) : (n.processed.map Prod.fst).filter p = n.processed.map Prod.fst ∧
      (eventsOf n.arrived).takeWhile p = n.processed.map Prod.fst ++ rest.takeWhile p := by
    have hevents := hpass (List.Subset.refl _) hreturned
    refine ⟨List.filter_eq_self.mpr hevents, ?_⟩
    rw [← hrest, List.takeWhile_append_of_pos hevents]
  have hall (hevents : n.processed.map Prod.fst = eventsOf n.arrived) (hreturned : AllReturned n.processed) :
      (n.processed.map Prod.fst).filter p = (eventsOf n.arrived).takeWhile p := by
    have hnil : rest = [] := List.append_right_eq_self.mp (hrest.trans hevents.symm)
    rw [(hwhole hreturned).1, (hwhole hreturned).2, hnil]
    exact (List.append_nil _).symm
  have hended (hclosed : n.phase = .closed) :
      (n.processed.map Prod.fst).filter p = (eventsOf n.arrived).takeWhile p := by
    rcases processed_of_closed h hclosed with ⟨hevents, hreturned⟩ | ⟨before, event, hprocessed, hreturned⟩
    · exact hall hevents hreturned
    · have hbefore : ∀ e ∈ before.map Prod.fst, p e = true :=
        hpass (by rw [hprocessed]; exact List.subset_append_left _ _) hreturned
      have hfails : p event = false := by
        have hthrew := hcalls (event, .threw) (by rw [hprocessed]; exact List.mem_append_right _ List.mem_cons_self)
        exact Bool.eq_false_iff.mpr fun hp => nomatch hthrew.mp hp
      rw [← hrest, hprocessed, List.map_append, List.append_assoc, List.takeWhile_append_of_pos hbefore,
        List.filter_append, List.filter_eq_self.mpr hbefore]
      simp [hfails]
  refine ⟨?_, fun hdone => ?_⟩
  · by_cases hclosed : n.phase = .closed
    · exact ⟨[], (List.append_nil _).trans (hended hclosed)⟩
    · obtain ⟨hfilter, htake⟩ := hwhole (allReturned_of_open h hclosed)
      rw [hfilter, htake]
      exact List.prefix_append _ _
  · rcases hdone with ⟨hreading, hunread⟩ | hclosed
    · obtain ⟨hevents, hreturned⟩ := processed_of_waiting h hreading hunread
      exact hall hevents hreturned
    · exact hended hclosed

end LoggerAcceptorNode
end Srvlog.Tcp
