import Srvlog.Broadcasting.InMemoryLogStorage
import Srvlog.Library.StableSort

/-! The order in which the storage returns logs of one date: it sorts its slots from the
first one on, wherever its pointer stands. -/
namespace Srvlog.Broadcasting
open Library
variable {α β : Type}

namespace InMemoryLogStorage

/-- The storage after the given logs have been added to an empty one. -/
def received (bufferSize : Nat) (h : 0 < bufferSize) (xs : List α) : InMemoryLogStorage α :=
  xs.foldl add (new bufferSize h)

section received
variable {bufferSize : Nat} {h : 0 < bufferSize}

theorem received_concat (xs : List α) (x : α) :
    received bufferSize h (xs ++ [x]) = (received bufferSize h xs).add x := by
  rw [received, List.foldl_concat]
  rfl

theorem bufferSize_received (xs : List α) : (received bufferSize h xs).bufferSize = bufferSize := by
  induction xs using List.reverseRecOn with
  | nil => exact bufferSize_new bufferSize h
  | append_singleton xs x ih => rw [received_concat, bufferSize_add, ih]

theorem holds_received (xs : List α) : (received bufferSize h xs).Holds xs := by
  induction xs using List.reverseRecOn with
  | nil => exact holds_new bufferSize h
  | append_singleton xs x ih =>
    rw [received_concat]
    exact ih.add x

/-- The pointer goes around once for each full buffer. -/
theorem pointer_received (xs : List α) :
    (received bufferSize h xs).currentLogDataPointer = xs.length % bufferSize := by
  induction xs using List.reverseRecOn with
  | nil => exact (Nat.zero_mod bufferSize).symm
  | append_singleton xs x ih =>
    have hadd (s : InMemoryLogStorage α) : (s.add x).currentLogDataPointer =
        if s.currentLogDataPointer < s.bufferSize - 1 then s.currentLogDataPointer + 1 else 0 := rfl
    rw [received_concat, hadd, ih, bufferSize_received, List.length_append, List.length_singleton]
    have hlt := Nat.mod_lt xs.length h
    rw [← Nat.mod_add_mod]
    split
    · exact (Nat.mod_eq_of_lt (by omega)).symm
    · have hfull : xs.length % bufferSize + 1 = bufferSize := by omega
      rw [hfull, Nat.mod_self]

/-- Slot by slot, the newest logs come first. -/
theorem reduceOption_received (xs : List α) :
    ∃ older, (received bufferSize h xs).logDataBuffer.reduceOption = xs.rtake (xs.length % bufferSize) ++ older ∧
      older ++ xs.rtake (xs.length % bufferSize) = xs.rtake bufferSize := by
  have hholds := holds_received (h := h) xs
  have hsize : (received bufferSize h xs).logDataBuffer.length = bufferSize := bufferSize_received xs
  rw [Holds, pointer_received, bufferSize_received] at hholds
  have hpointer : xs.length % bufferSize ≤ (received bufferSize h xs).logDataBuffer.length :=
    hsize.symm ▸ (Nat.mod_lt xs.length h).le
  obtain ⟨older, hslots, holder⟩ := reduceOption_of_rotate (hsize.symm ▸ hholds) hpointer (Nat.mod_le _ _)
  rw [hsize] at holder
  exact ⟨older, hslots, holder⟩

end received

theorem eq_of_fields {s t : InMemoryLogStorage α} (hbuffer : s.logDataBuffer = t.logDataBuffer)
    (hpointer : s.currentLogDataPointer = t.currentLogDataPointer) : s = t := by
  cases s
  cases t
  simp only at hbuffer hpointer
  subst hbuffer hpointer
  rfl

section map
variable (f : α → β)

/-- The storage with another log in each slot. -/
def mapLogs (s : InMemoryLogStorage α) : InMemoryLogStorage β where
  logDataBuffer := s.logDataBuffer.map (Option.map f)
  currentLogDataPointer := s.currentLogDataPointer
  pointer_lt := by
    rw [List.length_map]
    exact s.pointer_lt

theorem mapLogs_add (s : InMemoryLogStorage α) (x : α) : (s.add x).mapLogs f = (s.mapLogs f).add (f x) := by
  apply eq_of_fields
  · exact List.map_set
  · simp only [mapLogs, add, bufferSize, List.length_map]
    rfl

theorem mapLogs_received {bufferSize : Nat} {h : 0 < bufferSize} (xs : List α) :
    (received bufferSize h xs).mapLogs f = received bufferSize h (xs.map f) := by
  induction xs using List.reverseRecOn with
  | nil => simp only [received, List.map_nil, List.foldl_nil, mapLogs, new, List.map_replicate, Option.map_none]
  | append_singleton xs x ih =>
    rw [received_concat, mapLogs_add, ih, List.map_append, List.map_singleton, received_concat]

theorem sortByDate_map (date : β → Option Int) (l : List α) :
    sortByDate date (l.map f) = (sortByDate (date ∘ f) l).map (List.map f) := by
  have hnull : (∃ x ∈ l.map f, date x = none) ↔ ∃ x ∈ l, (date ∘ f) x = none := by
    constructor
    · rintro ⟨_, hmem, hdate⟩
      obtain ⟨x, hx, rfl⟩ := List.mem_map.mp hmem
      exact ⟨x, hx, hdate⟩
    · rintro ⟨x, hx, hdate⟩
      exact ⟨f x, List.mem_map_of_mem hx, hdate⟩
  have hsort : (l.map f).insertionSort (dateLe date) = (l.insertionSort (dateLe (date ∘ f))).map f :=
    (List.map_insertionSort _ _ f l fun _ _ _ _ => Iff.rfl).symm
  simp only [sortByDate, List.length_map, hnull, hsort]
  split <;> rfl

/-- What the logs are besides their dates plays no part in the reading. -/
theorem asLogList_mapLogs (date : β → Option Int) (s : InMemoryLogStorage α) :
    (s.mapLogs f).asLogList date = (s.asLogList (date ∘ f)).map (List.map f) := by
  rw [asLogList, asLogList, mapLogs, List.reduceOption_map, List.length_map, sortByDate_map]
  split <;> rfl

end map
/-- The retained logs that were added after the pointer last returned to the first slot. -/
def sinceFirstSlot (bufferSize : Nat) (xs : List α) : List α := xs.rtake (xs.length % bufferSize)

/-- The retained logs that were added before that. -/
def beforeFirstSlot (bufferSize : Nat) (xs : List α) : List α :=
  (xs.rtake bufferSize).take ((xs.rtake bufferSize).length - xs.length % bufferSize)

/-- Logs of one date are in the order of their arrival numbers. -/
def KeepsArrivalOrder (date : α → Option Int) (l : List (α × Nat)) : Prop :=
  l.Pairwise fun a b => date a.1 = date b.1 → a.2 < b.2

section arrival
variable {bufferSize : Nat} {h : 0 < bufferSize} {date : α → Option Int} {xs : List α}

theorem pairwise_zipIdx (xs : List α) : xs.zipIdx.Pairwise fun a b => a.2 < b.2 := by
  have hnumbers : (xs.zipIdx.map Prod.snd).Pairwise (· < ·) := by
    rw [List.zipIdx_map_snd]
    exact List.pairwise_lt_range'
  exact List.pairwise_map.mp hnumbers

theorem map_rtake (f : α → β) (xs : List α) (n : Nat) : (xs.rtake n).map f = (xs.map f).rtake n := by
  rw [List.rtake, List.rtake, List.map_drop, List.length_map]

/-- The retained logs are split at the moment of the return. -/
theorem beforeFirstSlot_append (hpos : 0 < bufferSize) (xs : List α) :
    beforeFirstSlot bufferSize xs ++ sinceFirstSlot bufferSize xs = xs.rtake bufferSize := by
  have hmod := Nat.mod_lt xs.length hpos
  have hle := Nat.mod_le xs.length bufferSize
  have hsince : sinceFirstSlot bufferSize xs =
      (xs.rtake bufferSize).drop ((xs.rtake bufferSize).length - xs.length % bufferSize) := by
    rw [sinceFirstSlot, List.rtake, List.rtake, List.drop_drop, List.length_drop]
    congr 1
    omega
  rw [hsince, beforeFirstSlot, List.take_append_drop]

theorem eq_of_dateLe (date : α → Option Int) {a b : α} (ha : date a ≠ none) (hb : date b ≠ none) (hab : dateLe date a b)
    (hba : dateLe date b a) : date a = date b := by
  obtain ⟨s, hs⟩ := Option.ne_none_iff_exists'.mp ha
  obtain ⟨t, ht⟩ := Option.ne_none_iff_exists'.mp hb
  rw [dateLe, hs, ht] at hab hba
  rw [hs, ht]
  exact congrArg some (le_antisymm hab hba)

theorem dateLe_of_eq (date : α → Option Int) {a b : α} (h : date a = date b) : dateLe date a b := by
  rw [dateLe, h]

/-- Among logs with dates the ties of the sort are those of equal dates. -/
theorem keepsArrivalOrder_iff_ties {l : List (α × Nat)} (hdates : ∀ a ∈ l, date a.1 ≠ none) :
    KeepsArrivalOrder date l ↔
      l.Pairwise fun a b => dateLe (date ∘ Prod.fst) a b → dateLe (date ∘ Prod.fst) b a → a.2 < b.2 := by
  constructor
  · intro hkeeps
    refine hkeeps.imp_of_mem fun ha hb hlt hab hba => hlt ?_
    exact eq_of_dateLe (date ∘ Prod.fst) (hdates _ ha) (hdates _ hb) hab hba
  · intro hties
    exact hties.imp fun hlt heq => hlt (dateLe_of_eq (date ∘ Prod.fst) heq)
      (dateLe_of_eq (date ∘ Prod.fst) heq.symm)

/-- The slots are sorted from the first one on, so that of two logs of one date the newer
one comes first if the pointer returned to the first slot between them. -/
theorem keepsArrivalOrder_sortedLogs_iff (hdates : ∀ x ∈ xs, date x ≠ none) :
    KeepsArrivalOrder date ((received bufferSize h xs.zipIdx).sortedLogs (date ∘ Prod.fst)) ↔
      ∀ a ∈ beforeFirstSlot bufferSize xs, ∀ b ∈ sinceFirstSlot bufferSize xs, date a ≠ date b := by
  obtain ⟨older, hslots, holder⟩ := reduceOption_received (h := h) xs.zipIdx
  rw [List.length_zipIdx] at hslots holder
  have hnewer : (xs.zipIdx.rtake (xs.length % bufferSize)).map Prod.fst = sinceFirstSlot bufferSize xs := by
    rw [map_rtake, List.zipIdx_map_fst, sinceFirstSlot]
  have hbefore : older.map Prod.fst = beforeFirstSlot bufferSize xs := by
    have hfst := congrArg (List.map Prod.fst) holder
    rw [List.map_append, hnewer, map_rtake, List.zipIdx_map_fst, ← beforeFirstSlot_append h] at hfst
    exact List.append_cancel_right hfst
  have hretained : (older ++ xs.zipIdx.rtake (xs.length % bufferSize)).Pairwise fun a b => a.2 < b.2 := by
    rw [holder]
    exact (pairwise_zipIdx xs).sublist (List.drop_sublist _ _)
  have hdates' : ∀ a ∈ older ++ xs.zipIdx.rtake (xs.length % bufferSize), date a.1 ≠ none := by
    intro a ha
    rw [holder] at ha
    exact hdates a.1 (List.fst_mem_of_mem_zipIdx (List.mem_of_mem_drop ha))
  have hasymm : Std.Asymm fun a b : α × Nat => a.2 < b.2 := ⟨fun _ _ hab hba => Nat.lt_asymm hab hba⟩
  have hslot : ∀ a ∈ (received bufferSize h xs.zipIdx).sortedLogs (date ∘ Prod.fst), date a.1 ≠ none := by
    intro a ha
    rw [sortedLogs, List.mem_insertionSort, hslots] at ha
    exact hdates' a (List.perm_append_comm.mem_iff.mp ha)
  rw [keepsArrivalOrder_iff_ties hslot, sortedLogs, hslots, insertionSort_newer_older_iff hretained, ← hbefore, ← hnewer]
  constructor
  · intro hties x hx y hy heq
    obtain ⟨a, ha, rfl⟩ := List.mem_map.mp hx
    obtain ⟨b, hb, rfl⟩ := List.mem_map.mp hy
    exact hties a ha b hb ⟨dateLe_of_eq (date ∘ Prod.fst) heq, dateLe_of_eq (date ∘ Prod.fst) heq.symm⟩
  · rintro hdiffer a ha b hb ⟨hab, hba⟩
    refine hdiffer a.1 (List.mem_map_of_mem ha) b.1 (List.mem_map_of_mem hb) ?_
    exact eq_of_dateLe (date ∘ Prod.fst) (hdates' a (List.mem_append_left _ ha))
      (hdates' b (List.mem_append_right _ hb)) hab hba

/-- The storage returns the newest logs sorted by date, and those of one date in the order
of their arrival if and only if no date occurs on both sides of the moment when its pointer
last returned to the first slot. -/
theorem keeps_arrival_order_iff (h : 0 < bufferSize) (hdates : ∀ x ∈ xs, date x ≠ none) :
    ∃ l, (received bufferSize h xs.zipIdx).asLogList (date ∘ Prod.fst) = some l ∧
      (received bufferSize h xs).asLogList date = some (l.map Prod.fst) ∧
      l.Perm (xs.zipIdx.rtake bufferSize) ∧ l.Pairwise (dateLe (date ∘ Prod.fst)) ∧
      (KeepsArrivalOrder date l ↔
        ∀ a ∈ beforeFirstSlot bufferSize xs, ∀ b ∈ sinceFirstSlot bufferSize xs, date a ≠ date b) := by
  have hperm := (holds_received (h := h) xs.zipIdx).sortedLogs_perm (date ∘ Prod.fst)
  rw [bufferSize_received] at hperm
  have hread : (received bufferSize h xs.zipIdx).asLogList (date ∘ Prod.fst) =
      some ((received bufferSize h xs.zipIdx).sortedLogs (date ∘ Prod.fst)) := by
    apply asLogList_of_dates
    intro a ha
    have hmem := hperm.mem_iff.mp ((List.mem_insertionSort _).mpr ha)
    exact hdates a.1 (List.fst_mem_of_mem_zipIdx (List.mem_of_mem_drop hmem))
  refine ⟨_, hread, ?_, hperm, pairwise_sortedLogs _ _, keepsArrivalOrder_sortedLogs_iff hdates⟩
  have huntagged := asLogList_mapLogs Prod.fst date (received bufferSize h xs.zipIdx)
  rw [mapLogs_received, List.zipIdx_map_fst, hread] at huntagged
  exact huntagged

/-- Two slots, and a third log whose date is newer than that of the second one. -/
theorem keeps_arrival_order_of_three : ∃ l,
    (received 2 (by decide) [5, 5, 6]).asLogList some = some (l.map Prod.fst) ∧ KeepsArrivalOrder some l := by
  obtain ⟨l, -, hl, -, -, hiff⟩ := keeps_arrival_order_iff (show 0 < 2 by decide)
    (fun (x : Int) (_ : x ∈ [5, 5, 6]) => Option.some_ne_none x)
  exact ⟨l, hl, hiff.mpr (by decide)⟩

/-- The third log of one date overwrites the first one and comes before the second. -/
theorem third_before_second :
    (received 2 (by decide) [((5 : Int), 0), (5, 1), (5, 2)]).asLogList (some ∘ Prod.fst) =
      some [(5, 2), (5, 1)] ∧ ¬ KeepsArrivalOrder some [((5 : Int), 2), (5, 1)] := by
  refine ⟨by decide, ?_⟩
  intro hkeeps
  exact absurd (List.rel_of_pairwise_cons hkeeps List.mem_cons_self rfl) (by decide)

end arrival
end InMemoryLogStorage
end Srvlog.Broadcasting
