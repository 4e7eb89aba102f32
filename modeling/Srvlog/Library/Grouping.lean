import Mathlib.Algebra.BigOperators.Group.List.Lemmas
import Mathlib.Algebra.Order.Ring.Int
import Mathlib.Data.List.AList
import Mathlib.Data.List.Dedup
import Mathlib.Data.List.Sort
import Mathlib.Order.Basic

/-! Counting the elements of a list by groups, and maps whose values are added up. -/
namespace Srvlog.Library

section groups
variable {κ : Type} [LinearOrder κ]

/-- The groups of a list of keys with their sizes, the largest key first. -/
def groupCounts (keys : List κ) : List (κ × Nat) :=
  (keys.dedup.insertionSort (· ≥ ·)).map fun key => (key, keys.count key)

theorem groupCounts_perm (keys : List κ) :
    (groupCounts keys).Perm (keys.dedup.map fun key => (key, keys.count key)) :=
  (List.perm_insertionSort _ _).map _

theorem mem_groupCounts {keys : List κ} {row : κ × Nat} :
    row ∈ groupCounts keys ↔ row.1 ∈ keys ∧ row.2 = keys.count row.1 := by
  rw [(groupCounts_perm keys).mem_iff, List.mem_map]
  constructor
  · rintro ⟨key, hkey, rfl⟩
    exact ⟨List.mem_dedup.mp hkey, rfl⟩
  · rintro ⟨hkey, hcount⟩
    exact ⟨row.1, List.mem_dedup.mpr hkey, by rw [← hcount]⟩

/-- The largest key comes first. -/
theorem le_head_groupCounts {keys : List κ} {key : κ} (h : key ∈ keys) :
    ∃ row rows, groupCounts keys = row :: rows ∧ row.1 ∈ keys ∧ key ≤ row.1 := by
  have hmem : key ∈ keys.dedup.insertionSort (· ≥ ·) :=
    (List.perm_insertionSort _ _).mem_iff.mpr (List.mem_dedup.mpr h)
  have hsorted : (keys.dedup.insertionSort (· ≥ ·)).Pairwise (· ≥ ·) := List.pairwise_insertionSort _ _
  have hkeys : ∀ k ∈ keys.dedup.insertionSort (· ≥ ·), k ∈ keys :=
    fun k hk => List.mem_dedup.mp ((List.perm_insertionSort _ _).mem_iff.mp hk)
  unfold groupCounts
  generalize keys.dedup.insertionSort (· ≥ ·) = sorted at hmem hsorted hkeys
  cases sorted with
  | nil => exact absurd hmem List.not_mem_nil
  | cons first rest =>
    refine ⟨_, _, List.map_cons, hkeys first List.mem_cons_self, ?_⟩
    rcases List.mem_cons.mp hmem with rfl | hrest
    · exact Preorder.le_refl _
    · exact (List.pairwise_cons.mp hsorted).1 key hrest

theorem length_groupCounts (keys : List κ) : (groupCounts keys).length = keys.dedup.length := by
  rw [(groupCounts_perm keys).length_eq, List.length_map]

theorem nodup_groupCounts (keys : List κ) : ((groupCounts keys).map (·.1)).Nodup := by
  rw [((groupCounts_perm keys).map _).nodup_iff, List.map_map]
  exact (List.map_id keys.dedup).symm ▸ keys.nodup_dedup

/-- Every element is in one group. -/
theorem sum_groupCounts (keys : List κ) : ((groupCounts keys).map (·.2)).sum = keys.length := by
  rw [((groupCounts_perm keys).map _).sum_eq, List.map_map]
  exact List.sum_map_count_dedup_eq_length keys

/-- No group is empty, so the first groups add up to everything only when there are no others. -/
theorem sum_take_groupCounts_iff (keys : List κ) (n : Nat) :
    (((groupCounts keys).take n).map (·.2)).sum = keys.length ↔ keys.dedup.length ≤ n := by
  have hsplit : (((groupCounts keys).take n).map (·.2)).sum + (((groupCounts keys).drop n).map (·.2)).sum = keys.length := by
    rw [← List.sum_append, ← List.map_append, List.take_append_drop, sum_groupCounts]
  rw [← length_groupCounts, ← List.drop_eq_nil_iff]
  constructor
  · intro h
    have hzero : (((groupCounts keys).drop n).map (·.2)).sum = 0 := by omega
    rw [List.sum_eq_zero_iff_forall_eq_nat] at hzero
    apply List.eq_nil_iff_forall_not_mem.mpr
    intro row hrow
    obtain ⟨hkey, hcount⟩ := mem_groupCounts.mp (List.mem_of_mem_drop hrow)
    have hpos := List.count_pos_iff.mpr hkey
    have hsize := hzero row.2 (List.mem_map_of_mem hrow)
    omega
  · intro h
    rw [h, List.map_nil, List.sum_nil] at hsplit
    omega

end groups

section maps
variable {κ : Type} [DecidableEq κ]

def sumOfValues (m : AList fun _ : κ => Int) : Int := (m.entries.map (·.2)).sum

theorem sum_kerase (entries : List (Sigma fun _ : κ => Int)) (key : κ) :
    ((entries.kerase key).map (·.2)).sum + (entries.dlookup key).getD 0 = (entries.map (·.2)).sum := by
  induction entries with
  | nil => rfl
  | cons entry entries ih =>
    by_cases hkey : key = entry.1
    · subst hkey
      rw [List.kerase_cons_eq rfl, List.dlookup_cons_eq, List.map_cons, List.sum_cons, Option.getD_some, Int.add_comm]
    · rw [List.kerase_cons_ne hkey, List.dlookup_cons_ne _ _ hkey, List.map_cons, List.map_cons, List.sum_cons,
        List.sum_cons, ← ih, Int.add_assoc]

/-- A value replaces the one with the same key. -/
theorem sumOfValues_insert (m : AList fun _ : κ => Int) (key : κ) (value : Int) :
    sumOfValues (m.insert key value) + (m.lookup key).getD 0 = sumOfValues m + value := by
  have herase := sum_kerase m.entries key
  unfold sumOfValues
  rw [AList.entries_insert, List.map_cons, List.sum_cons, ← herase]
  unfold AList.lookup
  dsimp only
  omega

def insertRows (rows : List (κ × Int)) (m : AList fun _ : κ => Int) : AList fun _ : κ => Int :=
  rows.foldl (fun m row => m.insert row.1 row.2) m

theorem lookup_insertRows_of_not_mem {rows : List (κ × Int)} {m : AList fun _ : κ => Int} {key : κ}
    (h : ∀ row ∈ rows, row.1 ≠ key) : (insertRows rows m).lookup key = m.lookup key := by
  induction rows generalizing m with
  | nil => rfl
  | cons row rows ih =>
    rw [List.forall_mem_cons] at h
    have hrest := @ih (m.insert row.1 row.2) h.2
    rwa [AList.lookup_insert_ne h.1.symm] at hrest

theorem lookup_insertRows_of_mem {rows : List (κ × Int)} {m : AList fun _ : κ => Int} {row : κ × Int}
    (hnodup : (rows.map (·.1)).Nodup) (h : row ∈ rows) : (insertRows rows m).lookup row.1 = some row.2 := by
  induction rows generalizing m with
  | nil => exact absurd h List.not_mem_nil
  | cons head rows ih =>
    rw [List.map_cons, List.nodup_cons] at hnodup
    rcases List.mem_cons.mp h with rfl | h
    · have hlater : ∀ other ∈ rows, other.1 ≠ row.1 :=
        fun other hother heq => hnodup.1 (heq ▸ List.mem_map_of_mem hother)
      have hlookup := @lookup_insertRows_of_not_mem κ _ rows (m.insert row.1 row.2) row.1 hlater
      rwa [AList.lookup_insert] at hlookup
    · exact ih hnodup.2 h

/-- New keys, or keys of zeros, add their values. -/
theorem sumOfValues_insertRows {rows : List (κ × Int)} {m : AList fun _ : κ => Int} (hnodup : (rows.map (·.1)).Nodup)
    (hzero : ∀ row ∈ rows, (m.lookup row.1).getD 0 = 0) :
    sumOfValues (insertRows rows m) = sumOfValues m + (rows.map (·.2)).sum := by
  induction rows generalizing m with
  | nil => exact (Int.add_zero _).symm
  | cons row rows ih =>
    rw [List.map_cons, List.nodup_cons] at hnodup
    rw [List.forall_mem_cons] at hzero
    have hlater : ∀ other ∈ rows, ((m.insert row.1 row.2).lookup other.1).getD 0 = 0 := by
      intro other hother
      have hne : other.1 ≠ row.1 := fun heq => hnodup.1 (heq ▸ List.mem_map_of_mem hother)
      rw [AList.lookup_insert_ne hne]
      exact hzero.2 other hother
    have hinsert := sumOfValues_insert m row.1 row.2
    rw [hzero.1, Int.add_zero] at hinsert
    have hrest := ih hnodup.2 hlater
    rw [List.map_cons, List.sum_cons, ← Int.add_assoc, ← hinsert]
    exact hrest

end maps
end Srvlog.Library
