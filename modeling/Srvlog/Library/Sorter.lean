import Mathlib.Data.List.Sort

/-! Sorting that leaves the order of equals open, and slices of sorted lists that are
sorted again. -/
namespace Srvlog.Library

universe u
variable {α : Type u}

/-- Some way to sort: what an engine promises of an order clause. -/
structure Sorter (le : α → α → Prop) where
  sort : List α → List α
  perm : ∀ l, (sort l).Perm l
  sorted : ∀ l, (sort l).Pairwise le

namespace Sorter
variable {le : α → α → Prop}

def insertion (le : α → α → Prop) [DecidableRel le] [Std.Total le] [IsTrans α le] : Sorter le where
  sort l := l.insertionSort le
  perm _ := List.perm_insertionSort _ _
  sorted _ := List.pairwise_insertionSort _ _

/-- A sorter that breaks the ties of another order. -/
def weaken {le' : α → α → Prop} (s : Sorter le') (h : ∀ a b, le' a b → le a b) : Sorter le where
  sort := s.sort
  perm := s.perm
  sorted l := (s.sorted l).imp (h _ _)

/-- An element that is strictly above the others is sorted to the end. -/
theorem take_perm (s : Sorter le) {l m : List α} {b : α} (hl : l.Perm (m ++ [b])) (hb : ∀ a ∈ m, ¬ le b a) :
    ((s.sort l).take m.length).Perm m := by
  have hp : (s.sort l).Perm (m ++ [b]) := (s.perm l).trans hl
  have hmem : b ∈ s.sort l := hp.mem_iff.mpr (List.mem_append_right _ List.mem_cons_self)
  obtain ⟨before, after, hsplit⟩ := List.append_of_mem hmem
  have hrest : (before ++ after).Perm m := by
    have h : (b :: (before ++ after)).Perm (b :: m) :=
      List.perm_middle.symm.trans ((hsplit ▸ hp).trans (List.perm_append_singleton b m))
    exact h.cons_inv
  have hafter : after = [] := by
    apply List.eq_nil_iff_forall_not_mem.mpr
    intro a ha
    have hle : le b a := by
      have hs := s.sorted l
      rw [hsplit] at hs
      exact (List.pairwise_cons.mp (List.pairwise_append.mp hs).2.1).1 a ha
    exact hb a (hrest.mem_iff.mp (List.mem_append_right _ ha)) hle
  subst hafter
  rw [List.append_nil] at hrest
  rw [hsplit, List.take_append_of_le_length hrest.length_eq.ge, List.take_of_length_le hrest.length_eq.le]
  exact hrest

/-- An element that some other one does not precede is among all but the last ones. -/
theorem mem_take (s : Sorter le) {l : List α} {a b : α} {n : Nat} (ha : a ∈ l) (hb : b ∈ l) (hne : a ≠ b)
    (hnot : ¬ le b a) (hn : l.length ≤ n + 1) : a ∈ (s.sort l).take n := by
  have hp := s.perm l
  obtain ⟨before, after, hsplit⟩ := List.append_of_mem (hp.mem_iff.mpr ha)
  have hlater : b ∈ after := by
    have hmem := hp.mem_iff.mpr hb
    rw [hsplit] at hmem
    rcases List.mem_append.mp hmem with hmem | hmem
    · have hs := s.sorted l
      rw [hsplit] at hs
      exact absurd ((List.pairwise_append.mp hs).2.2 b hmem a List.mem_cons_self) hnot
    · exact (List.mem_cons.mp hmem).resolve_left hne.symm
  have hlength := hp.length_eq
  rw [hsplit, List.length_append, List.length_cons] at hlength
  have hpos := List.length_pos_of_mem hlater
  obtain ⟨rest, hrest⟩ : ∃ rest, n - before.length = rest + 1 := ⟨n - before.length - 1, by omega⟩
  rw [hsplit, List.take_append, hrest, List.take_succ_cons]
  exact List.mem_append_right _ List.mem_cons_self

end Sorter

section preferring
variable (le : α → α → Prop) [DecidableEq α] [DecidableRel le]

/-- The order in which one element comes before its equals. -/
def Prefer (a x y : α) : Prop := le x y ∧ (le y x → y = a → x = a)

instance (a : α) : DecidableRel (Prefer le a) := fun x y =>
  inferInstanceAs (Decidable (le x y ∧ (le y x → y = a → x = a)))

instance [Std.Total le] (a : α) : Std.Total (Prefer le a) where
  total x y := by
    by_cases hxy : le x y
    · by_cases hyx : le y x
      · by_cases hy : y = a
        · exact .inr ⟨hyx, fun _ _ => hy⟩
        · exact .inl ⟨hxy, fun _ h => absurd h hy⟩
      · exact .inl ⟨hxy, fun h => absurd h hyx⟩
    · exact .inr ⟨(Std.Total.total x y).resolve_left hxy, fun h => absurd h hxy⟩

instance [IsTrans α le] (a : α) : IsTrans α (Prefer le a) where
  trans x y z hxy hyz := by
    refine ⟨IsTrans.trans _ _ _ hxy.1 hyz.1, fun hzx hz => ?_⟩
    have hzy : le z y := IsTrans.trans _ _ _ hzx hxy.1
    exact hxy.2 (IsTrans.trans _ _ _ hyz.1 hzx) (hyz.2 hzy hz)

omit [DecidableEq α] [DecidableRel le] in
variable {le} in
theorem not_prefer {a y : α} (hle : le a y) (hne : y ≠ a) : ¬ Prefer le a y a := fun h => hne (h.2 hle rfl)

end preferring

/-- Consecutive slices of one length make up the beginning of a list. -/
theorem flatMap_slices (l : List α) (size count : Nat) :
    ((List.range count).flatMap fun i => (l.drop (i * size)).take size) = l.take (count * size) := by
  induction count with
  | zero => simp
  | succ count ih =>
    rw [List.range_succ, List.flatMap_append, ih, List.flatMap_singleton, Nat.succ_mul, List.take_add]

theorem two_le_count_flatMap [DecidableEq α] {β : Type u} {l : List β} {f : β → List α} {a : α} {i j : β}
    (hi : i ∈ l) (hj : j ∈ l) (hne : i ≠ j) (hai : a ∈ f i) (haj : a ∈ f j) : 2 ≤ (l.flatMap f).count a := by
  induction l with
  | nil => exact absurd hi List.not_mem_nil
  | cons x l ih =>
    rw [List.flatMap_cons, List.count_append]
    rcases List.mem_cons.mp hi with rfl | hi' <;> rcases List.mem_cons.mp hj with rfl | hj'
    · exact absurd rfl hne
    · have hx := List.count_pos_iff.mpr hai
      have hrest := List.count_pos_iff.mpr (List.mem_flatMap.mpr ⟨j, hj', haj⟩)
      omega
    · have hx := List.count_pos_iff.mpr haj
      have hrest := List.count_pos_iff.mpr (List.mem_flatMap.mpr ⟨i, hi', hai⟩)
      omega
    · exact Nat.le_add_left_of_le (ih hi' hj')

end Srvlog.Library
