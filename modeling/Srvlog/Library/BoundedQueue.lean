import Mathlib.Data.List.Basic

/-! A queue with a capacity: an offer fails when it is full. -/
namespace Srvlog.Library

structure BoundedQueue (α : Type) (capacity : Nat) where
  items : List α
  length_le : items.length ≤ capacity

namespace BoundedQueue
variable {α : Type} {capacity : Nat}

def empty : BoundedQueue α capacity := ⟨[], Nat.zero_le _⟩

/-- Whether the item was added, and the queue behind the offer. -/
def offer (q : BoundedQueue α capacity) (a : α) : Bool × BoundedQueue α capacity :=
  if h : q.items.length < capacity then
    (true, ⟨q.items ++ [a], by rw [List.length_append]; exact h⟩)
  else (false, q)

/-- A queue without items has nothing to take. -/
def take (q : BoundedQueue α capacity) : Option (α × BoundedQueue α capacity) :=
  match h : q.items with
  | [] => none
  | a :: items => some (a, ⟨items, by
      have hle := q.length_le
      rw [h] at hle
      exact Nat.le_of_succ_le hle⟩)

theorem offer_items (q : BoundedQueue α capacity) (a : α) :
    (q.offer a).2.items = q.items ++ (if (q.offer a).1 then [a] else []) := by
  unfold offer
  split
  · rfl
  · exact (List.append_nil _).symm

theorem length_of_offer_eq_false {q : BoundedQueue α capacity} {a : α} (h : (q.offer a).1 = false) :
    q.items.length = capacity := by
  unfold offer at h
  split at h
  · cases h
  · next hfull => exact Nat.le_antisymm q.length_le (Nat.not_lt.mp hfull)

theorem items_of_take {q q' : BoundedQueue α capacity} {a : α} (h : q.take = some (a, q')) :
    q.items = a :: q'.items := by
  unfold take at h
  split at h
  · cases h
  · next items hitems =>
    obtain ⟨rfl, rfl⟩ := Prod.mk.inj (Option.some.inj h)
    exact hitems

theorem items_offer_ne_nil {q : BoundedQueue α capacity} {a : α} (h : 1 ≤ capacity) : (q.offer a).2.items ≠ [] := by
  unfold offer
  split
  · simp
  · next hfull =>
    intro hempty
    rw [show q.items = [] from hempty] at hfull
    exact hfull h

theorem isSome_take {q : BoundedQueue α capacity} (h : q.items ≠ []) : q.take.isSome := by
  unfold take
  split
  · next hempty => exact absurd hempty h
  · rfl

end BoundedQueue
end Srvlog.Library
