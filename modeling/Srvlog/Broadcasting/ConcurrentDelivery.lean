import Srvlog.Broadcasting.LogBroadcastingService
import Srvlog.Library.Runs
import Mathlib.Data.List.ProdSigma

/-! One session requests its logs while any number of threads receive logs. A thread
stores its log and then broadcasts it; the request reads the storages one by one, sends
what it has read and then puts the session online. All sends succeed. -/
namespace Srvlog.Broadcasting
open Library Data

/-- Logs are named by the thread that receives them. The fields `added` and `afterRead`
are auxiliary: the threads whose log is stored, and the threads that were still to store
their log when the storage of its host and program was read. -/
structure Delivery where
  logStorage : Text × Text → Option (InMemoryLogStorage Nat)
  finished : List Nat
  subscription : Subscription
  toRead : List (Text × Text)
  history : List Nat
  historySent : Bool
  broadcasts : List Nat
  added : List Nat
  afterRead : List Nat

inductive DeliveryStep where
  | store (thread : Nat)
  | broadcast (thread : Nat)
  | read (storage : Text × Text)
  | sendHistory
  | setOnline

section model
variable (capacity : ℕ+) (calls : List LogData) (hosts programs : List (Option Text))

/-- The storage that the log of a thread belongs to. -/
def storageOf (thread : Nat) : Option (Text × Text) := do
  let logData ← calls[thread]?
  let host ← logData.host
  let program ← logData.program
  return (host, program)

def dateOf (thread : Nat) : Option Int := calls[thread]?.bind LogData.date

def Delivery.start : Delivery where
  logStorage _ := none
  finished := []
  subscription := Subscription.initialState
  toRead := hosts.reduceOption.dedup ×ˢ programs.reduceOption.dedup
  history := []
  historySent := false
  broadcasts := []
  added := []
  afterRead := []

def deliveryStep (s : Delivery) : DeliveryStep → Option Delivery
  | .store thread =>
    if thread < calls.length ∧ thread ∉ s.added then
      match storageOf calls thread with
      | some storage => some { s with
          logStorage := Function.update s.logStorage storage
            (some (((s.logStorage storage).getD (.new capacity capacity.pos)).add thread))
          added := s.added ++ [thread] }
      | none => some { s with added := s.added ++ [thread], finished := s.finished ++ [thread] }
    else none
  | .broadcast thread =>
    if thread ∈ s.added ∧ thread ∉ s.finished then
      match storageOf calls thread with
      | some (host, program) => some { s with
          broadcasts := if s.subscription.isBroadcastCandidateFor host program then s.broadcasts ++ [thread]
            else s.broadcasts
          finished := s.finished ++ [thread] }
      | none => none
    else none
  | .read storage =>
    if storage ∈ s.toRead then
      match (s.logStorage storage).elim (some []) (InMemoryLogStorage.asLogList (dateOf calls)) with
      | some logDataList => some { s with
          toRead := s.toRead.erase storage
          history := s.history ++ logDataList
          afterRead := s.afterRead ++ (List.range calls.length).filter fun thread =>
            decide (storageOf calls thread = some storage ∧ thread ∉ s.added) }
      | none => none
    else none
  | .sendHistory =>
    if s.toRead = [] ∧ s.historySent = false then some { s with historySent := true } else none
  | .setOnline =>
    if s.historySent = true ∧ s.subscription = Subscription.initialState then
      some { s with subscription := ⟨hosts, programs, .ONLINE_BROADCASTING⟩ }
    else none

end model

namespace Delivery

def Online (s : Delivery) : Prop := s.subscription.subscriptionState = .ONLINE_BROADCASTING

instance (s : Delivery) : Decidable s.Online :=
  inferInstanceAs (Decidable (s.subscription.subscriptionState = .ONLINE_BROADCASTING))

/-- All the logs sent to the session so far. -/
def sent (s : Delivery) : List Nat := (if s.historySent then s.history else []) ++ s.broadcasts

/-- All threads and the request are done. -/
def Done (calls : List LogData) (s : Delivery) : Prop := s.Online ∧ ∀ thread < calls.length, thread ∈ s.finished

instance (calls : List LogData) (s : Delivery) : Decidable (s.Done calls) :=
  inferInstanceAs (Decidable (s.Online ∧ ∀ thread < calls.length, thread ∈ s.finished))

/-- A log that the session asks for is due if its storage still had it when it was read,
or if it was stored later. -/
def Due (s : Delivery) (thread : Nat) : Prop := thread ∈ s.history ∨ thread ∈ s.afterRead

instance (s : Delivery) (thread : Nat) : Decidable (s.Due thread) :=
  inferInstanceAs (Decidable (thread ∈ s.history ∨ thread ∈ s.afterRead))

def ExactlyOnce (s : Delivery) : Prop := ∀ thread, s.Due thread → s.sent.count thread = 1

/-- A log stored after its storage was read is broadcast to the online session, and a log
of the history before the session goes online. -/
def InOrder (s : Delivery) : DeliveryStep → Prop
  | .broadcast thread => (thread ∈ s.afterRead → s.Online) ∧ (thread ∈ s.history → ¬ s.Online)
  | _ => True

end Delivery

section steps
variable {capacity : ℕ+} {calls : List LogData} {hosts programs : List (Option Text)} {s t : Delivery}

/-- Everything that a step can do. -/
theorem deliveryStep_cases {a : DeliveryStep} (h : deliveryStep capacity calls hosts programs s a = some t) :
    (∃ thread storage, a = .store thread ∧ thread < calls.length ∧ thread ∉ s.added ∧
      storageOf calls thread = some storage ∧ t = { s with
        logStorage := Function.update s.logStorage storage
          (some (((s.logStorage storage).getD (.new capacity capacity.pos)).add thread))
        added := s.added ++ [thread] }) ∨
    (∃ thread, a = .store thread ∧ thread ∉ s.added ∧ storageOf calls thread = none ∧
      t = { s with added := s.added ++ [thread], finished := s.finished ++ [thread] }) ∨
    (∃ thread host program, a = .broadcast thread ∧ thread ∈ s.added ∧ thread ∉ s.finished ∧
      storageOf calls thread = some (host, program) ∧ t = { s with
        broadcasts := if s.subscription.isBroadcastCandidateFor host program then s.broadcasts ++ [thread]
          else s.broadcasts
        finished := s.finished ++ [thread] }) ∨
    (∃ storage logDataList, a = .read storage ∧ storage ∈ s.toRead ∧
      (s.logStorage storage).elim (some []) (InMemoryLogStorage.asLogList (dateOf calls)) = some logDataList ∧
      t = { s with
        toRead := s.toRead.erase storage
        history := s.history ++ logDataList
        afterRead := s.afterRead ++ (List.range calls.length).filter fun thread =>
          decide (storageOf calls thread = some storage ∧ thread ∉ s.added) }) ∨
    (a = .sendHistory ∧ s.toRead = [] ∧ s.historySent = false ∧ t = { s with historySent := true }) ∨
    (a = .setOnline ∧ s.historySent = true ∧ s.subscription = Subscription.initialState ∧
      t = { s with subscription := ⟨hosts, programs, .ONLINE_BROADCASTING⟩ }) := by
  cases a with
  | store thread =>
    simp only [deliveryStep] at h
    split at h
    · next hguard =>
      split at h
      · next storage hs =>
        exact .inl ⟨thread, storage, rfl, hguard.1, hguard.2, hs, (Option.some.inj h).symm⟩
      · next hs => exact .inr (.inl ⟨thread, rfl, hguard.2, hs, (Option.some.inj h).symm⟩)
    · cases h
  | broadcast thread =>
    simp only [deliveryStep] at h
    split at h
    · next hguard =>
      split at h
      · next host program hs =>
        exact .inr (.inr (.inl ⟨thread, host, program, rfl, hguard.1, hguard.2, hs, (Option.some.inj h).symm⟩))
      · cases h
    · cases h
  | read storage =>
    simp only [deliveryStep] at h
    split at h
    · next hmem =>
      split at h
      · next logDataList hl =>
        exact .inr (.inr (.inr (.inl ⟨storage, logDataList, rfl, hmem, hl, (Option.some.inj h).symm⟩)))
      · cases h
    · cases h
  | sendHistory =>
    simp only [deliveryStep] at h
    split at h
    · next hguard =>
      exact .inr (.inr (.inr (.inr (.inl ⟨rfl, hguard.1, hguard.2, (Option.some.inj h).symm⟩))))
    · cases h
  | setOnline =>
    simp only [deliveryStep] at h
    split at h
    · next hguard =>
      exact .inr (.inr (.inr (.inr (.inr ⟨rfl, hguard.1, hguard.2, (Option.some.inj h).symm⟩))))
    · cases h

end steps

section invariants
variable (capacity : ℕ+) (calls : List LogData) (hosts programs : List (Option Text))

/-- The session asks for the storage. -/
def Asked (storage : Text × Text) : Prop := some storage.1 ∈ hosts ∧ some storage.2 ∈ programs

namespace Delivery

/-- Each storage has received the logs of its threads. -/
structure Storing (s : Delivery) : Prop where
  nodup : s.added.Nodup
  finished : ∀ thread ∈ s.finished, thread ∈ s.added
  holds : ∀ storage, ((s.logStorage storage).getD (.new capacity capacity.pos)).Holds
    (s.added.filter fun thread => decide (storageOf calls thread = some storage))

/-- Each storage is read once, and splits its threads into earlier and later ones. -/
structure Reading (s : Delivery) : Prop where
  nodup_toRead : s.toRead.Nodup
  asked : ∀ storage ∈ s.toRead, Asked hosts programs storage
  nodup_history : s.history.Nodup
  history : ∀ thread ∈ s.history, thread ∈ s.added
  disjoint : ∀ thread ∈ s.history, thread ∉ s.afterRead
  due : ∀ thread, s.Due thread →
    ∃ storage, storageOf calls thread = some storage ∧ storage ∉ s.toRead ∧ Asked hosts programs storage

/-- Nothing is broadcast before the session is online, which it gets after the history. -/
structure Sending (s : Delivery) : Prop where
  subscription : s.subscription = Subscription.initialState ∨ s.subscription = ⟨hosts, programs, .ONLINE_BROADCASTING⟩
  online : s.Online → s.historySent = true
  sent : s.historySent = true → s.toRead = []
  offline : ¬ s.Online → s.broadcasts = []
  nodup : s.broadcasts.Nodup
  finished : ∀ thread ∈ s.broadcasts, thread ∈ s.finished

end Delivery

variable {capacity calls hosts programs} {s t : Delivery} {a : DeliveryStep}

open Delivery

theorem storing_start : Storing capacity calls (Delivery.start hosts programs) where
  nodup := List.nodup_nil
  finished := fun _ h => absurd h List.not_mem_nil
  holds := fun _ => InMemoryLogStorage.holds_new _ capacity.pos

private theorem nodup_concat {l : List Nat} {thread : Nat} (h : l.Nodup) (hnew : thread ∉ l) :
    (l ++ [thread]).Nodup :=
  List.nodup_append.mpr ⟨h, List.nodup_singleton _, fun _ ha _ hb hab =>
    hnew (List.mem_singleton.mp hb ▸ hab ▸ ha)⟩

private theorem finished_concat {l m : List Nat} {thread : Nat} (h : ∀ x ∈ l, x ∈ m) :
    ∀ x ∈ l ++ [thread], x ∈ m ++ [thread] := by
  intro x hx
  rcases List.mem_append.mp hx with hx | hx
  · exact List.mem_append_left _ (h x hx)
  · exact List.mem_append_right _ hx

theorem Delivery.Storing.step (hs : Storing capacity calls s)
    (h : deliveryStep capacity calls hosts programs s a = some t) : Storing capacity calls t := by
  obtain ⟨thread, storage, -, -, hnew, hstorage, rfl⟩ | ⟨thread, -, hnew, hstorage, rfl⟩ |
    ⟨thread, host, program, -, hadded, -, -, rfl⟩ | ⟨storage, logDataList, -, -, -, rfl⟩ |
    ⟨-, -, -, rfl⟩ | ⟨-, -, -, rfl⟩ := deliveryStep_cases h
  · refine ⟨nodup_concat hs.nodup hnew, fun x hx => List.mem_append_left _ (hs.finished x hx), fun other => ?_⟩
    dsimp only
    rw [List.filter_append]
    by_cases hother : other = storage
    · subst hother
      rw [List.filter_cons_of_pos (by simpa using hstorage), List.filter_nil, Function.update_self, Option.getD_some]
      exact (hs.holds other).add thread
    · have hne : ¬ storageOf calls thread = some other := by
        rw [hstorage]
        exact fun heq => hother (Option.some.inj heq).symm
      rw [List.filter_cons_of_neg (by simpa using hne), List.filter_nil, Function.update_of_ne hother, List.append_nil]
      exact hs.holds other
  · refine ⟨nodup_concat hs.nodup hnew, finished_concat hs.finished, fun other => ?_⟩
    have hne : ¬ storageOf calls thread = some other := by simp [hstorage]
    rw [List.filter_append, List.filter_cons_of_neg (by simpa using hne), List.filter_nil, List.append_nil]
    exact hs.holds other
  · refine ⟨hs.nodup, fun x hx => ?_, hs.holds⟩
    rcases List.mem_append.mp hx with hx | hx
    · exact hs.finished x hx
    · rwa [List.mem_singleton.mp hx]
  · exact ⟨hs.nodup, hs.finished, hs.holds⟩
  · exact ⟨hs.nodup, hs.finished, hs.holds⟩
  · exact ⟨hs.nodup, hs.finished, hs.holds⟩

/-- A storage is read as some of the logs that it has received, each once. -/
theorem Delivery.Storing.read (hs : Storing capacity calls s) {storage : Text × Text} {logDataList : List Nat}
    (h : (s.logStorage storage).elim (some []) (InMemoryLogStorage.asLogList (dateOf calls)) = some logDataList) :
    logDataList.Nodup ∧ ∀ thread ∈ logDataList, thread ∈ s.added ∧ storageOf calls thread = some storage := by
  have hholds := hs.holds storage
  cases hl : s.logStorage storage with
  | none =>
    rw [hl] at h
    obtain rfl := Option.some.inj h
    exact ⟨List.nodup_nil, fun _ hx => absurd hx List.not_mem_nil⟩
  | some programLogStorage =>
    rw [hl, Option.elim_some] at h
    rw [hl, Option.getD_some] at hholds
    obtain rfl := InMemoryLogStorage.asLogList_eq_some h
    have hperm := hholds.sortedLogs_perm (dateOf calls)
    refine ⟨hperm.nodup_iff.mpr ((hs.nodup.filter _).sublist (List.drop_sublist _ _)), fun thread hx => ?_⟩
    have hmem := List.mem_filter.mp ((List.drop_sublist _ _).subset (hperm.mem_iff.mp hx))
    exact ⟨hmem.1, of_decide_eq_true hmem.2⟩

theorem reading_start : Reading calls hosts programs (Delivery.start hosts programs) where
  nodup_toRead := (List.nodup_dedup _).product (List.nodup_dedup _)
  asked := by
    rintro ⟨host, program⟩ hmem
    obtain ⟨hh, hp⟩ := List.mem_product.mp hmem
    exact ⟨List.reduceOption_mem_iff.mp (List.mem_dedup.mp hh), List.reduceOption_mem_iff.mp (List.mem_dedup.mp hp)⟩
  nodup_history := List.nodup_nil
  history := fun _ h => absurd h List.not_mem_nil
  disjoint := fun _ h => absurd h List.not_mem_nil
  due := by
    rintro _ (h | h)
    · exact absurd h List.not_mem_nil
    · exact absurd h List.not_mem_nil

theorem Delivery.Reading.step (hr : Reading calls hosts programs s) (hs : Storing capacity calls s)
    (h : deliveryStep capacity calls hosts programs s a = some t) : Reading calls hosts programs t := by
  obtain ⟨thread, storage, -, -, -, -, rfl⟩ | ⟨thread, -, -, -, rfl⟩ |
    ⟨thread, host, program, -, -, -, -, rfl⟩ | ⟨storage, logDataList, -, hmem, hread, rfl⟩ |
    ⟨-, -, -, rfl⟩ | ⟨-, -, -, rfl⟩ := deliveryStep_cases h
  · exact ⟨hr.nodup_toRead, hr.asked, hr.nodup_history, fun x hx => List.mem_append_left _ (hr.history x hx),
      hr.disjoint, hr.due⟩
  · exact ⟨hr.nodup_toRead, hr.asked, hr.nodup_history, fun x hx => List.mem_append_left _ (hr.history x hx),
      hr.disjoint, hr.due⟩
  · exact ⟨hr.nodup_toRead, hr.asked, hr.nodup_history, hr.history, hr.disjoint, hr.due⟩
  · obtain ⟨hnodup, hfrom⟩ := hs.read hread
    -- a log that was due before belongs to a storage that has been read before
    have hother : ∀ x, s.Due x → storageOf calls x ≠ some storage := by
      intro x hx hstorage
      obtain ⟨storage', hstorage', hnot, -⟩ := hr.due x hx
      obtain rfl := Option.some.inj (hstorage'.symm.trans hstorage)
      exact hnot hmem
    have hlater : ∀ x ∈ (List.range calls.length).filter (fun thread =>
        decide (storageOf calls thread = some storage ∧ thread ∉ s.added)),
        storageOf calls x = some storage ∧ x ∉ s.added := fun x hx => of_decide_eq_true (List.mem_filter.mp hx).2
    refine ⟨hr.nodup_toRead.erase _, fun p hp => hr.asked p (List.mem_of_mem_erase hp), ?_, ?_, ?_, ?_⟩
    · refine List.nodup_append.mpr ⟨hr.nodup_history, hnodup, fun x hx y hy hxy => ?_⟩
      subst hxy
      exact hother x (.inl hx) (hfrom x hy).2
    · intro x hx
      rcases List.mem_append.mp hx with hx | hx
      · exact hr.history x hx
      · exact (hfrom x hx).1
    · intro x hx hafter
      rcases List.mem_append.mp hx with hx | hx <;> rcases List.mem_append.mp hafter with hafter | hafter
      · exact hr.disjoint x hx hafter
      · exact (hlater x hafter).2 (hr.history x hx)
      · exact hother x (.inr hafter) (hfrom x hx).2
      · exact (hlater x hafter).2 (hfrom x hx).1
    · intro x hx
      have hcases : s.Due x ∨ storageOf calls x = some storage := by
        rcases hx with hx | hx <;> rcases List.mem_append.mp hx with hx | hx
        · exact .inl (.inl hx)
        · exact .inr (hfrom x hx).2
        · exact .inl (.inr hx)
        · exact .inr (hlater x hx).1
      rcases hcases with hx | hx
      · obtain ⟨storage', hstorage', hnot, hasked⟩ := hr.due x hx
        exact ⟨storage', hstorage', fun hin => hnot (List.mem_of_mem_erase hin), hasked⟩
      · exact ⟨storage, hx, fun hin => (hr.nodup_toRead.mem_erase_iff.mp hin).1 rfl, hr.asked storage hmem⟩
  · exact ⟨hr.nodup_toRead, hr.asked, hr.nodup_history, hr.history, hr.disjoint, hr.due⟩
  · exact ⟨hr.nodup_toRead, hr.asked, hr.nodup_history, hr.history, hr.disjoint, hr.due⟩

theorem sending_start : Sending hosts programs (Delivery.start hosts programs) where
  subscription := .inl rfl
  online := fun h => nomatch h
  sent := fun h => absurd h Bool.false_ne_true
  offline := fun _ => rfl
  nodup := List.nodup_nil
  finished := fun _ h => absurd h List.not_mem_nil

theorem not_candidate_of_offline {subscription : Subscription} {host program : Text}
    (h : subscription.subscriptionState ≠ .ONLINE_BROADCASTING) :
    subscription.isBroadcastCandidateFor host program = false := by
  simp [Subscription.isBroadcastCandidateFor, h]

theorem Delivery.Sending.step (hd : Sending hosts programs s)
    (h : deliveryStep capacity calls hosts programs s a = some t) : Sending hosts programs t := by
  obtain ⟨thread, storage, -, -, -, -, rfl⟩ | ⟨thread, -, -, -, rfl⟩ |
    ⟨thread, host, program, -, -, hunfinished, -, rfl⟩ | ⟨storage, logDataList, -, hmem, -, rfl⟩ |
    ⟨-, hread, -, rfl⟩ | ⟨-, hsent, -, rfl⟩ := deliveryStep_cases h
  · exact ⟨hd.subscription, hd.online, hd.sent, hd.offline, hd.nodup, hd.finished⟩
  · exact ⟨hd.subscription, hd.online, hd.sent, hd.offline, hd.nodup,
      fun x hx => List.mem_append_left _ (hd.finished x hx)⟩
  · refine ⟨hd.subscription, hd.online, hd.sent, fun hoff => ?_, ?_, ?_⟩
    · dsimp only
      rw [if_neg (by simpa using not_candidate_of_offline hoff)]
      exact hd.offline hoff
    · dsimp only
      split
      · exact nodup_concat hd.nodup fun hin => hunfinished (hd.finished thread hin)
      · exact hd.nodup
    · intro x hx
      dsimp only at hx
      split at hx
      · exact finished_concat hd.finished x hx
      · exact List.mem_append_left _ (hd.finished x hx)
  · refine ⟨hd.subscription, hd.online, fun hsent => ?_, hd.offline, hd.nodup, hd.finished⟩
    exact absurd (hd.sent hsent ▸ hmem) List.not_mem_nil
  · exact ⟨hd.subscription, fun _ => rfl, fun _ => hread, hd.offline, hd.nodup, hd.finished⟩
  · exact ⟨.inr rfl, fun _ => hsent, hd.sent, fun hoff => absurd rfl hoff, hd.nodup, hd.finished⟩

/-- An online session gets every log that it asks for. -/
theorem Delivery.Sending.candidate_iff (hd : Sending hosts programs s) {host program : Text}
    (hasked : Asked hosts programs (host, program)) :
    s.subscription.isBroadcastCandidateFor host program = true ↔ s.Online := by
  rcases hd.subscription with hsub | hsub
  · simp [hsub, Online, Subscription.isBroadcastCandidateFor, Subscription.initialState]
  · simp [hsub, Online, Subscription.isBroadcastCandidateFor, hasked.1, hasked.2]

/-- What all runs keep. -/
structure Delivery.Consistent (capacity : ℕ+) (calls : List LogData) (hosts programs : List (Option Text))
    (s : Delivery) : Prop where
  storing : Storing capacity calls s
  reading : Reading calls hosts programs s
  sending : Sending hosts programs s

theorem consistent_start : Consistent capacity calls hosts programs (Delivery.start hosts programs) :=
  ⟨storing_start, reading_start, sending_start⟩

theorem Delivery.Consistent.step (hc : Consistent capacity calls hosts programs s)
    (h : deliveryStep capacity calls hosts programs s a = some t) : Consistent capacity calls hosts programs t :=
  ⟨hc.storing.step h, hc.reading.step hc.storing h, hc.sending.step h⟩

end invariants

section delivery
variable {capacity : ℕ+} {calls : List LogData} {hosts programs : List (Option Text)} {s t : Delivery}
  {a : DeliveryStep}

namespace Delivery

/-- The thread is done and its log has been sent twice or will never be sent. -/
def Wrong (s : Delivery) (thread : Nat) : Prop :=
  thread ∈ s.finished ∧ ((thread ∈ s.history ∧ thread ∈ s.broadcasts) ∨
    (thread ∈ s.afterRead ∧ thread ∉ s.broadcasts))

/-- The broadcast of a due log reaches the session if and only if it is online. -/
theorem Consistent.broadcast (hc : Consistent capacity calls hosts programs s) {thread : Nat}
    (h : deliveryStep capacity calls hosts programs s (.broadcast thread) = some t) (hdue : s.Due thread) :
    thread ∈ t.broadcasts ↔ s.Online := by
  obtain ⟨_, _, ha, -⟩ | ⟨_, ha, -⟩ | ⟨thread', host, program, ha, -, hunfinished, hstorage, rfl⟩ |
    ⟨_, _, ha, -⟩ | ⟨ha, -⟩ | ⟨ha, -⟩ := deliveryStep_cases h <;> cases ha
  obtain ⟨storage, hstorage', -, hasked⟩ := hc.reading.due thread hdue
  obtain rfl := Option.some.inj (hstorage.symm.trans hstorage')
  rw [← hc.sending.candidate_iff hasked]
  have hnew : thread ∉ s.broadcasts := fun hin => hunfinished (hc.sending.finished thread hin)
  split
  · next hcandidate => simp [hcandidate]
  · next hcandidate => simp [hcandidate, hnew]

/-- What went wrong stays wrong. -/
theorem Wrong.step {thread : Nat} (hw : s.Wrong thread)
    (h : deliveryStep capacity calls hosts programs s a = some t) : t.Wrong thread := by
  obtain ⟨hfinished, hw⟩ := hw
  obtain ⟨_, _, -, -, -, -, rfl⟩ | ⟨_, -, -, -, rfl⟩ | ⟨other, host, program, -, -, hunfinished, -, rfl⟩ |
    ⟨_, _, -, -, -, rfl⟩ | ⟨-, -, -, rfl⟩ | ⟨-, -, -, rfl⟩ := deliveryStep_cases h
  · exact ⟨hfinished, hw⟩
  · exact ⟨List.mem_append_left _ hfinished, hw⟩
  · refine ⟨List.mem_append_left _ hfinished, ?_⟩
    have hne : thread ≠ other := fun heq => hunfinished (heq ▸ hfinished)
    dsimp only
    split
    · rwa [List.mem_append, List.mem_singleton, or_iff_left hne]
    · exact hw
  · refine ⟨hfinished, hw.imp ?_ ?_⟩
    · exact fun hin => ⟨List.mem_append_left _ hin.1, hin.2⟩
    · exact fun hin => ⟨List.mem_append_left _ hin.1, hin.2⟩
  · exact ⟨hfinished, hw⟩
  · exact ⟨hfinished, hw⟩

theorem exists_wrong_of_not_inOrder (hc : Consistent capacity calls hosts programs s) (hg : ¬ s.InOrder a)
    (h : deliveryStep capacity calls hosts programs s a = some t) : ∃ thread, t.Wrong thread := by
  cases a with
  | broadcast thread =>
    have hfinished : thread ∈ t.finished ∧ t.history = s.history ∧ t.afterRead = s.afterRead := by
      obtain ⟨_, _, ha, -⟩ | ⟨_, ha, -⟩ | ⟨_, _, _, ha, -, -, -, rfl⟩ | ⟨_, _, ha, -⟩ | ⟨ha, -⟩ | ⟨ha, -⟩ :=
        deliveryStep_cases h <;> cases ha
      exact ⟨List.mem_append_right _ List.mem_cons_self, rfl, rfl⟩
    obtain ⟨hfinished, hhistory, hafter⟩ := hfinished
    refine ⟨thread, hfinished, ?_⟩
    rw [hhistory, hafter]
    by_cases hlate : thread ∈ s.afterRead → s.Online
    · obtain ⟨hin, hon⟩ := Classical.not_imp.mp fun hhist => hg ⟨hlate, hhist⟩
      exact .inl ⟨hin, (hc.broadcast h (.inl hin)).mpr (not_not.mp hon)⟩
    · obtain ⟨hin, hoff⟩ := Classical.not_imp.mp hlate
      exact .inr ⟨hin, fun hsent => hoff ((hc.broadcast h (.inr hin)).mp hsent)⟩
  | store _ => exact absurd trivial hg
  | read _ => exact absurd trivial hg
  | sendHistory => exact absurd trivial hg
  | setOnline => exact absurd trivial hg

/-- Steps in order send nothing twice and lose nothing. -/
theorem not_wrong_step (hc : Consistent capacity calls hosts programs s) (hok : ∀ thread, ¬ s.Wrong thread)
    (hg : s.InOrder a) (h : deliveryStep capacity calls hosts programs s a = some t) :
    ∀ thread, ¬ t.Wrong thread := by
  rintro thread ⟨hfinished, hw⟩
  have hstep := h
  obtain ⟨_, _, -, -, -, -, rfl⟩ | ⟨other, -, -, hnone, rfl⟩ | ⟨other, host, program, rfl, -, -, -, rfl⟩ |
    ⟨storage, logDataList, -, hmem, hread, rfl⟩ | ⟨-, -, -, rfl⟩ | ⟨-, -, -, rfl⟩ := deliveryStep_cases h
  · exact hok thread ⟨hfinished, hw⟩
  · rcases List.mem_append.mp hfinished with hin | hin
    · exact hok thread ⟨hin, hw⟩
    · obtain rfl := List.mem_singleton.mp hin
      obtain ⟨_, hstorage, -⟩ := hc.reading.due thread (hw.imp And.left And.left)
      rw [hnone] at hstorage
      cases hstorage
  · by_cases heq : thread = other
    · subst heq
      rcases hw with ⟨hin, hsent⟩ | ⟨hin, hunsent⟩
      · exact hg.2 hin ((hc.broadcast hstep (.inl hin)).mp hsent)
      · exact hunsent ((hc.broadcast hstep (.inr hin)).mpr (hg.1 hin))
    · refine hok thread ⟨?_, ?_⟩
      · exact (List.mem_append.mp hfinished).resolve_right fun hin => heq (List.mem_singleton.mp hin)
      · dsimp only at hw
        split at hw
        · rwa [List.mem_append, List.mem_singleton, or_iff_left heq] at hw
        · exact hw
  · -- nothing is broadcast while a storage is still to be read
    have hnothing : s.broadcasts = [] := by
      refine hc.sending.offline fun hon => ?_
      rw [hc.sending.sent (hc.sending.online hon)] at hmem
      exact List.not_mem_nil hmem
    rcases hw with ⟨-, hsent⟩ | ⟨hin, hunsent⟩
    · rw [hnothing] at hsent
      exact List.not_mem_nil hsent
    · rcases List.mem_append.mp hin with hin | hin
      · exact hok thread ⟨hfinished, .inr ⟨hin, hunsent⟩⟩
      · exact (of_decide_eq_true (List.mem_filter.mp hin).2).2 (hc.storing.finished thread hfinished)
  · exact hok thread ⟨hfinished, hw⟩
  · exact hok thread ⟨hfinished, hw⟩

/-- At the end a due log has been sent exactly once unless it went wrong. -/
theorem Consistent.exactlyOnce_iff (hc : Consistent capacity calls hosts programs s) (hd : s.Done calls) :
    s.ExactlyOnce ↔ ∀ thread, ¬ s.Wrong thread := by
  have hcount (thread : Nat) : s.sent.count thread = s.history.count thread + s.broadcasts.count thread := by
    rw [sent, if_pos (hc.sending.online hd.1), List.count_append]
  have hdone (thread : Nat) (hdue : s.Due thread) : thread ∈ s.finished := by
    obtain ⟨storage, hstorage, -⟩ := hc.reading.due thread hdue
    refine hd.2 thread ?_
    by_contra hout
    rw [storageOf, List.getElem?_eq_none (Nat.not_lt.mp hout)] at hstorage
    cases hstorage
  constructor
  · rintro honce thread ⟨-, ⟨hin, hsent⟩ | ⟨hin, hunsent⟩⟩
    · have h := honce thread (.inl hin)
      rw [hcount, List.count_eq_one_of_mem hc.reading.nodup_history hin,
        List.count_eq_one_of_mem hc.sending.nodup hsent] at h
      omega
    · have h := honce thread (.inr hin)
      rw [hcount, List.count_eq_zero_of_not_mem hunsent,
        List.count_eq_zero_of_not_mem fun hhistory => hc.reading.disjoint thread hhistory hin] at h
      omega
  · rintro hok thread (hin | hin)
    · have hunsent : thread ∉ s.broadcasts := fun hsent => hok thread ⟨hdone thread (.inl hin), .inl ⟨hin, hsent⟩⟩
      rw [hcount, List.count_eq_one_of_mem hc.reading.nodup_history hin, List.count_eq_zero_of_not_mem hunsent]
    · have hsent : thread ∈ s.broadcasts := by
        by_contra hunsent
        exact hok thread ⟨hdone thread (.inr hin), .inr ⟨hin, hunsent⟩⟩
      rw [hcount, List.count_eq_one_of_mem hc.sending.nodup hsent,
        List.count_eq_zero_of_not_mem fun hhistory => hc.reading.disjoint thread hhistory hin]

end Delivery

/-- In a run in which all threads and the request come to their end, each due log is sent
exactly once if and only if every broadcast comes in order. -/
theorem delivered_exactly_once_iff {as : List DeliveryStep}
    (h : Run (deliveryStep capacity calls hosts programs) (Delivery.start hosts programs) as t) (hd : t.Done calls) :
    t.ExactlyOnce ↔
      AllSteps (deliveryStep capacity calls hosts programs) Delivery.InOrder (Delivery.start hosts programs) as := by
  have hconsistent {s t : Delivery} {as : List DeliveryStep}
      (hc : s.Consistent capacity calls hosts programs)
      (hr : Run (deliveryStep capacity calls hosts programs) s as t) : t.Consistent capacity calls hosts programs :=
    hr.invariant (fun _ _ _ hc hs => hc.step hs) hc
  rw [(hconsistent consistent_start h).exactlyOnce_iff hd]
  constructor
  · intro hok
    by_contra hg
    obtain ⟨before, a, after, u, v, -, hu, -, hbad, hv, hrest⟩ := h.first_violation hg
    obtain ⟨thread, hw⟩ := Delivery.exists_wrong_of_not_inOrder (hconsistent consistent_start hu) hbad hv
    exact hok thread (hrest.invariant (I := fun s => s.Wrong thread) (fun _ _ _ hw hs => hw.step hs) hw)
  · intro hg
    refine (h.guarded_invariant (I := fun s => s.Consistent capacity calls hosts programs ∧ ∀ thread, ¬ s.Wrong thread)
      hg ?_ ⟨consistent_start, ?_⟩).2
    · rintro s a t ⟨hc, hok⟩ hg hs
      exact ⟨hc.step hs, Delivery.not_wrong_step hc hok hg hs⟩
    · rintro thread ⟨hfinished, -⟩
      exact List.not_mem_nil hfinished

/-- One thread receives a log that the session asks for. -/
def oneCall : List LogData := [logAt 0 "a".toList "p".toList]

def startOfRequest : Delivery := Delivery.start [some "a".toList] [some "p".toList]

abbrev stepOfRequest : Delivery → DeliveryStep → Option Delivery :=
  deliveryStep 1 oneCall [some "a".toList] [some "p".toList]

theorem broadcast_before_request_delivered : ∃ t : Delivery, t.Done oneCall ∧ (t.ExactlyOnce ↔
    AllSteps stepOfRequest Delivery.InOrder startOfRequest
      [.store 0, .broadcast 0, .read ("a".toList, "p".toList), .sendHistory, .setOnline]) :=
  ⟨_, by decide, delivered_exactly_once_iff (exec_eq_some_iff.mp rfl) (by decide)⟩

/-- A log stored and broadcast between the read and the switch is lost, and one that is
stored before the read and broadcast after the switch is sent twice. -/
theorem overlapping_request_loses_and_doubles :
    (∃ t : Delivery, Run stepOfRequest startOfRequest
      [.read ("a".toList, "p".toList), .store 0, .broadcast 0, .sendHistory, .setOnline] t ∧
      t.Done oneCall ∧ ¬ t.ExactlyOnce ∧ t.sent.count 0 = 0) ∧
    (∃ t : Delivery, Run stepOfRequest startOfRequest
      [.store 0, .read ("a".toList, "p".toList), .sendHistory, .setOnline, .broadcast 0] t ∧
      t.Done oneCall ∧ ¬ t.ExactlyOnce ∧ t.sent.count 0 = 2) := by
  refine ⟨⟨_, exec_eq_some_iff.mp rfl, by decide, fun honce => ?_, by decide⟩,
    ⟨_, exec_eq_some_iff.mp rfl, by decide, fun honce => ?_, by decide⟩⟩
  · exact absurd (honce 0 (by decide)) (by decide)
  · exact absurd (honce 0 (by decide)) (by decide)

end delivery
end Srvlog.Broadcasting
