import Mathlib.Data.List.Basic

/-! A list cut into pieces of one width; only the last piece may be shorter. -/
namespace Srvlog.Library

variable {α β : Type}

def chunks (width : Nat) : List α → List (List α)
  | [] => []
  | x :: rest => (x :: rest.take (width - 1)) :: chunks width (rest.drop (width - 1))
termination_by xs => xs.length
decreasing_by
  rw [List.length_drop, List.length_cons]
  omega

theorem chunks_nil (width : Nat) : chunks width ([] : List α) = [] := by
  rw [chunks]

/-- Cutting takes the first piece off the list and goes on behind it. -/
theorem chunks_of_pos {width : Nat} {xs : List α} (hwidth : 0 < width) (hxs : 0 < xs.length) :
    chunks width xs = xs.take width :: chunks width (xs.drop width) := by
  obtain ⟨width, rfl⟩ := Nat.exists_eq_add_of_le' hwidth
  obtain ⟨x, rest, rfl⟩ := List.exists_cons_of_length_pos hxs
  rw [chunks, List.take_succ_cons, List.drop_succ_cons, Nat.add_sub_cancel]

theorem chunks_ne_nil {width : Nat} {xs : List α} (h : xs ≠ []) : chunks width xs ≠ [] := by
  obtain ⟨x, rest, rfl⟩ := List.exists_cons_of_ne_nil h
  rw [chunks]
  exact List.cons_ne_nil _ _

theorem flatten_chunks (width : Nat) (xs : List α) : (chunks width xs).flatten = xs := by
  induction xs using chunks.induct width with
  | case1 => rw [chunks, List.flatten_nil]
  | case2 x rest ih => rw [chunks, List.flatten_cons, ih, List.cons_append, List.take_append_drop]

theorem flatMap_chunks (f : α → List β) (width : Nat) (xs : List α) :
    (chunks width xs).flatMap (fun piece => piece.flatMap f) = xs.flatMap f := by
  have hflatten : ((chunks width xs).flatMap id).flatMap f = (chunks width xs).flatMap fun piece => piece.flatMap f :=
    List.flatMap_assoc
  rw [← hflatten, List.flatMap_id, flatten_chunks]

theorem flatMap_map_chunks (f : α → β) (width : Nat) (xs : List α) :
    (chunks width xs).flatMap (List.map f) = xs.map f := by
  rw [List.flatMap_def, ← List.map_flatten, flatten_chunks]

theorem length_of_mem_chunks {width : Nat} {xs piece : List α} (hwidth : 0 < width) (h : piece ∈ chunks width xs) :
    1 ≤ piece.length ∧ piece.length ≤ width := by
  induction xs using chunks.induct width with
  | case1 =>
    rw [chunks] at h
    exact absurd h List.not_mem_nil
  | case2 x rest ih =>
    rw [chunks] at h
    rcases List.mem_cons.mp h with rfl | h
    · rw [List.length_cons, List.length_take]
      omega
    · exact ih h

theorem length_of_mem_dropLast_chunks {width : Nat} {xs piece : List α} (hwidth : 0 < width)
    (h : piece ∈ (chunks width xs).dropLast) : piece.length = width := by
  induction xs using chunks.induct width with
  | case1 =>
    rw [chunks, List.dropLast_nil] at h
    exact absurd h List.not_mem_nil
  | case2 x rest ih =>
    rw [chunks] at h
    by_cases hrest : rest.drop (width - 1) = []
    · rw [hrest, chunks_nil, List.dropLast_singleton] at h
      exact absurd h List.not_mem_nil
    · rw [List.dropLast_cons_of_ne_nil (chunks_ne_nil hrest)] at h
      rcases List.mem_cons.mp h with rfl | h
      · -- something is left behind this piece, so that it is full
        have hlong : width - 1 < rest.length := Nat.lt_of_not_le fun hle => hrest (List.drop_of_length_le hle)
        rw [List.length_cons, List.length_take]
        omega
      · exact ih h

end Srvlog.Library
