import Mathlib.Data.List.DropRight
import Mathlib.Data.List.ReduceOption
import Mathlib.Data.List.Rotate

/-! What a ring of slots holds after any number of writes. Read from the slot to be
written next, it holds the newest values in the order of their arrival. -/
namespace Srvlog.Library

universe u
variable {α : Type u}

/-- The slots of a ring of the given size, oldest first. -/
def window (size : Nat) (xs : List α) : List (Option α) :=
  (List.replicate size none ++ xs.map some).rtake size

theorem rtake_append_singleton {l : List α} {size : Nat} (a : α) (hpos : 0 < size) (hle : size ≤ l.length) :
    (l ++ [a]).rtake size = (l.rtake size).tail ++ [a] := by
  rw [List.rtake, List.rtake, List.length_append, List.length_singleton, List.tail_drop,
    List.drop_append_of_le_length (by omega)]
  congr 2
  omega

theorem window_nil (size : Nat) : window size ([] : List α) = List.replicate size none := by
  simp [window, List.rtake]

theorem window_append_singleton {size : Nat} (hpos : 0 < size) (xs : List α) (a : α) :
    window size (xs ++ [a]) = (window size xs).tail ++ [some a] := by
  rw [window, List.map_append, ← List.append_assoc, List.map_singleton, rtake_append_singleton _ hpos]
  · rfl
  · rw [List.length_append, List.length_replicate]
    omega

/-- The values in the ring are the newest ones. -/
theorem window_reduceOption (size : Nat) (xs : List α) : (window size xs).reduceOption = xs.rtake size := by
  have hsome (ys : List α) : (ys.map some).reduceOption = ys := by
    rw [List.reduceOption, List.filterMap_map]
    exact List.filterMap_some
  rw [window, List.rtake, List.length_append, List.length_replicate, List.length_map, List.drop_append,
    List.drop_replicate, List.length_replicate, List.reduceOption_append, List.reduceOption_replicate_none,
    List.nil_append, ← List.map_drop, hsome, List.rtake]
  congr 1
  omega

/-- Writing a slot and going on to the next one drops the oldest value. -/
theorem set_rotate_succ {l : List α} {pointer : Nat} (a : α) (h : pointer < l.length) :
    (l.set pointer a).rotate (pointer + 1) = (l.rotate pointer).tail ++ [a] := by
  have htake : (l.set pointer a).take (pointer + 1) = l.take pointer ++ [a] := by
    rw [List.take_succ_eq_append_getElem (by simpa using h), List.take_set_of_le (le_refl _),
      List.getElem_set_self]
  rw [List.rotate_eq_drop_append_take (by rw [List.length_set]; exact h), List.rotate_eq_drop_append_take h.le, htake,
    List.drop_set_of_lt (Nat.lt_succ_self _), List.tail_append_of_ne_nil, List.tail_drop, List.append_assoc]
  rw [ne_eq, List.drop_eq_nil_iff]
  omega

/-- Read from the first slot, a ring gives the values since its pointer was there last in
front of the older ones. -/
theorem reduceOption_of_rotate {l : List (Option α)} {pointer : Nat} {xs : List α}
    (h : l.rotate pointer = window l.length xs) (hpointer : pointer ≤ l.length) (hle : pointer ≤ xs.length) :
    ∃ older, l.reduceOption = xs.rtake pointer ++ older ∧ older ++ xs.rtake pointer = xs.rtake l.length := by
  rw [List.rotate_eq_drop_append_take hpointer] at h
  have htake : l.take pointer = (xs.rtake pointer).map some := by
    have hdrop := congrArg (List.drop (l.length - pointer)) h
    rw [List.drop_left' List.length_drop, window, List.rtake, List.drop_drop, List.length_append,
      List.length_replicate, List.length_map] at hdrop
    have hsum : l.length + xs.length - l.length + (l.length - pointer) = l.length + (xs.length - pointer) := by omega
    rw [hsum, List.drop_append, List.drop_of_length_le (by rw [List.length_replicate]; omega), List.nil_append,
      List.length_replicate, Nat.add_sub_cancel_left, ← List.map_drop] at hdrop
    exact hdrop
  have hvalues : (l.take pointer).reduceOption = xs.rtake pointer := by
    rw [htake, List.reduceOption, List.filterMap_map]
    exact List.filterMap_some
  refine ⟨(l.drop pointer).reduceOption, ?_, ?_⟩
  · rw [← hvalues, ← List.reduceOption_append, List.take_append_drop]
  · have hwindow := window_reduceOption l.length xs
    rwa [← h, List.reduceOption_append, hvalues] at hwindow

/-- The pointer may be reset to zero at the end of the slots. -/
theorem rotate_wrap (l : List α) {pointer : Nat} (h : pointer + 1 = l.length) :
    l.rotate 0 = l.rotate (pointer + 1) := by
  rw [h, List.rotate_length, List.rotate_zero]

end Srvlog.Library
