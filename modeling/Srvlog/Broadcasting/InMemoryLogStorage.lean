import Srvlog.Library.RingBuffer
import Mathlib.Data.List.Sort
import Mathlib.Order.Basic

/-! The storage of the newest logs of one host and program: a ring of slots whose
pointer stays inside the ring, read as a list sorted by date. -/
namespace Srvlog.Broadcasting
open Library
variable {α : Type}

section sorting
variable (date : α → Option Int)

/-- The order of `Comparator.comparing(LogData::getDate)`. -/
def dateLe (a b : α) : Prop := (date a).getD 0 ≤ (date b).getD 0

instance : DecidableRel (dateLe date) := fun a b => inferInstanceAs (Decidable ((date a).getD 0 ≤ (date b).getD 0))
instance : Std.Total (dateLe date) := ⟨fun a b => le_total ((date a).getD 0) ((date b).getD 0)⟩
instance : IsTrans α (dateLe date) := ⟨fun _ _ _ h h' => le_trans (α := Int) h h'⟩

/-- A stable sort. It compares each element of a longer list, and a null date makes the
comparison throw. -/
def sortByDate (l : List α) : Option (List α) :=
  if 1 < l.length ∧ ∃ x ∈ l, date x = none then none else some (l.insertionSort (dateLe date))

theorem sortByDate_eq_some {l r : List α} (h : sortByDate date l = some r) :
    r = l.insertionSort (dateLe date) := by
  rw [sortByDate] at h
  split at h
  · cases h
  · exact (Option.some.inj h).symm

theorem sortByDate_of_dates {l : List α} (h : ∀ x ∈ l, date x ≠ none) :
    sortByDate date l = some (l.insertionSort (dateLe date)) := by
  rw [sortByDate, if_neg]
  rintro ⟨_, x, hx, hnull⟩
  exact h x hx hnull

theorem insertionSort_of_length_le_one {l : List α} (h : l.length ≤ 1) : l.insertionSort (dateLe date) = l := by
  match l, h with
  | [], _ => rfl
  | [_], _ => rfl

end sorting

/-- The array length is the buffer size of the constructor. -/
structure InMemoryLogStorage (α : Type) where
  logDataBuffer : List (Option α)
  currentLogDataPointer : Nat
  pointer_lt : currentLogDataPointer < logDataBuffer.length

namespace InMemoryLogStorage

def bufferSize (s : InMemoryLogStorage α) : Nat := s.logDataBuffer.length

def new (bufferSize : Nat) (h : 0 < bufferSize) : InMemoryLogStorage α where
  logDataBuffer := List.replicate bufferSize none
  currentLogDataPointer := 0
  pointer_lt := by rwa [List.length_replicate]

def add (s : InMemoryLogStorage α) (logData : α) : InMemoryLogStorage α where
  logDataBuffer := s.logDataBuffer.set s.currentLogDataPointer (some logData)
  currentLogDataPointer :=
    if s.currentLogDataPointer < s.bufferSize - 1 then s.currentLogDataPointer + 1 else 0
  pointer_lt := by
    have h := s.pointer_lt
    rw [List.length_set, bufferSize]
    split <;> omega

def asLogList (date : α → Option Int) (s : InMemoryLogStorage α) : Option (List α) :=
  let logDataList := s.logDataBuffer.reduceOption
  if 1 < logDataList.length then sortByDate date logDataList else some logDataList

@[simp] theorem bufferSize_new (n : Nat) (h : 0 < n) : (new n h : InMemoryLogStorage α).bufferSize = n :=
  List.length_replicate
@[simp] theorem bufferSize_add (s : InMemoryLogStorage α) (x : α) : (s.add x).bufferSize = s.bufferSize :=
  List.length_set

/-- The storage has received the given logs. -/
def Holds (s : InMemoryLogStorage α) (xs : List α) : Prop :=
  s.logDataBuffer.rotate s.currentLogDataPointer = window s.bufferSize xs

theorem holds_new (n : Nat) (h : 0 < n) : (new n h : InMemoryLogStorage α).Holds [] := by
  rw [Holds, window_nil, bufferSize_new]
  exact List.rotate_zero _

theorem Holds.add {s : InMemoryLogStorage α} {xs : List α} (h : s.Holds xs) (x : α) :
    (s.add x).Holds (xs ++ [x]) := by
  have hlt := s.pointer_lt
  have hpos : 0 < s.bufferSize := Nat.zero_lt_of_lt hlt
  have hrotate : (s.add x).logDataBuffer.rotate (s.add x).currentLogDataPointer =
      (s.logDataBuffer.set s.currentLogDataPointer (some x)).rotate (s.currentLogDataPointer + 1) := by
    by_cases hnext : s.currentLogDataPointer < s.bufferSize - 1
    · simp only [InMemoryLogStorage.add, if_pos hnext]
    · simp only [InMemoryLogStorage.add, if_neg hnext]
      apply rotate_wrap
      rw [List.length_set]
      rw [bufferSize] at hnext
      omega
  rw [Holds, hrotate, set_rotate_succ _ hlt, bufferSize_add, window_append_singleton hpos, h]

/-- The occupied slots hold the newest logs. -/
theorem Holds.perm {s : InMemoryLogStorage α} {xs : List α} (h : s.Holds xs) :
    s.logDataBuffer.reduceOption.Perm (xs.rtake s.bufferSize) := by
  rw [← window_reduceOption, ← h]
  exact ((s.logDataBuffer.rotate_perm _).filterMap id).symm

/-- The logs of the storage in the order of their dates. -/
def sortedLogs (date : α → Option Int) (s : InMemoryLogStorage α) : List α :=
  s.logDataBuffer.reduceOption.insertionSort (dateLe date)

theorem pairwise_sortedLogs (date : α → Option Int) (s : InMemoryLogStorage α) :
    (s.sortedLogs date).Pairwise (dateLe date) := List.pairwise_insertionSort _ _

theorem Holds.sortedLogs_perm {s : InMemoryLogStorage α} {xs : List α} (h : s.Holds xs) (date : α → Option Int) :
    (s.sortedLogs date).Perm (xs.rtake s.bufferSize) := (List.perm_insertionSort _ _).trans h.perm

/-- Reading the storage gives its sorted logs, unless it throws. -/
theorem asLogList_eq_some {s : InMemoryLogStorage α} {date : α → Option Int} {l : List α}
    (h : s.asLogList date = some l) : l = s.sortedLogs date := by
  rw [asLogList] at h
  split at h
  · exact sortByDate_eq_some date h
  · next hshort =>
    rw [sortedLogs, insertionSort_of_length_le_one date (by omega)]
    exact (Option.some.inj h).symm

/-- With dates the reading does not throw. -/
theorem asLogList_of_dates {s : InMemoryLogStorage α} {date : α → Option Int}
    (h : ∀ x ∈ s.logDataBuffer.reduceOption, date x ≠ none) : s.asLogList date = some (s.sortedLogs date) := by
  rw [asLogList]
  split
  · exact sortByDate_of_dates date h
  · rw [sortedLogs, insertionSort_of_length_le_one date (by omega)]

end InMemoryLogStorage
end Srvlog.Broadcasting
