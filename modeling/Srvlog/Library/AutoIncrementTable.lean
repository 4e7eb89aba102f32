import Mathlib.Data.List.Basic
import Mathlib.Data.List.Nodup

/-! Tables whose primary key comes from an auto-increment counter. Keys grow with
the insertion order and stay below the counter, so that no key is given out twice. -/
namespace Srvlog.Library

universe u
variable {R : Type u}

structure Table (R : Type u) where
  rows : List (Nat × R)
  autoIncrement : Nat
  increasing : rows.Pairwise (fun a b => a.1 < b.1)
  fresh : ∀ p ∈ rows, p.1 < autoIncrement

namespace Table

/-- Counters start at one. -/
def empty : Table R := ⟨[], 1, .nil, by simp⟩

/-- The key of the next inserted row is the counter's value. -/
def insert (t : Table R) (r : R) : Table R where
  rows := t.rows ++ [(t.autoIncrement, r)]
  autoIncrement := t.autoIncrement + 1
  increasing := by
    rw [List.pairwise_append]
    refine ⟨t.increasing, List.pairwise_singleton _ _, ?_⟩
    intro a ha b hb
    obtain rfl := List.mem_singleton.mp hb
    exact t.fresh a ha
  fresh := by
    intro p hp
    rcases List.mem_append.mp hp with hp | hp
    · exact Nat.lt_succ_of_lt (t.fresh p hp)
    · obtain rfl := List.mem_singleton.mp hp
      exact Nat.lt_succ_self _

/-- Insert the rows one after the other, as a multi-row statement does. -/
def insertAll (t : Table R) (rs : List R) : Table R := rs.foldl insert t

/-- Deleting rows never lowers the counter. -/
def deleteWhere (t : Table R) (p : Nat × R → Bool) : Table R where
  rows := t.rows.filter fun r => !p r
  autoIncrement := t.autoIncrement
  increasing := t.increasing.sublist List.filter_sublist
  fresh := fun r hr => t.fresh r (List.mem_filter.mp hr).1

/-- Rows keep their keys. -/
def modify (t : Table R) (f : Nat → R → R) : Table R where
  rows := t.rows.map fun p => (p.1, f p.1 p.2)
  autoIncrement := t.autoIncrement
  increasing := List.pairwise_map.mpr t.increasing
  fresh := by
    intro p hp
    obtain ⟨q, hq, rfl⟩ := List.mem_map.mp hp
    exact t.fresh q hq

@[simp] theorem empty_rows : (empty : Table R).rows = [] := rfl
@[simp] theorem empty_autoIncrement : (empty : Table R).autoIncrement = 1 := rfl
@[simp] theorem insert_rows (t : Table R) (r : R) :
    (t.insert r).rows = t.rows ++ [(t.autoIncrement, r)] := rfl
@[simp] theorem insert_autoIncrement (t : Table R) (r : R) :
    (t.insert r).autoIncrement = t.autoIncrement + 1 := rfl
@[simp] theorem deleteWhere_rows (t : Table R) (p : Nat × R → Bool) :
    (t.deleteWhere p).rows = t.rows.filter fun r => !p r := rfl
@[simp] theorem deleteWhere_autoIncrement (t : Table R) (p : Nat × R → Bool) :
    (t.deleteWhere p).autoIncrement = t.autoIncrement := rfl
@[simp] theorem modify_rows (t : Table R) (f : Nat → R → R) :
    (t.modify f).rows = t.rows.map fun p => (p.1, f p.1 p.2) := rfl
@[simp] theorem modify_autoIncrement (t : Table R) (f : Nat → R → R) :
    (t.modify f).autoIncrement = t.autoIncrement := rfl
@[simp] theorem insertAll_nil (t : Table R) : t.insertAll [] = t := rfl
@[simp] theorem insertAll_cons (t : Table R) (r : R) (rs : List R) :
    t.insertAll (r :: rs) = (t.insert r).insertAll rs := rfl

theorem insertAll_rows (t : Table R) (rs : List R) :
    (t.insertAll rs).rows = t.rows ++ rs.mapIdx fun i r => (t.autoIncrement + i, r) := by
  induction rs generalizing t with
  | nil => simp
  | cons r rs ih =>
    rw [insertAll_cons, ih]
    simp [List.mapIdx_cons, Nat.add_assoc, Nat.add_comm 1]

@[simp] theorem insertAll_autoIncrement (t : Table R) (rs : List R) :
    (t.insertAll rs).autoIncrement = t.autoIncrement + rs.length := by
  induction rs generalizing t with
  | nil => rfl
  | cons r rs ih => rw [insertAll_cons, ih, insert_autoIncrement, List.length_cons]; omega

theorem mem_insertAll {t : Table R} {rs : List R} {p : Nat × R} :
    p ∈ (t.insertAll rs).rows ↔
      p ∈ t.rows ∨ ∃ i r, rs[i]? = some r ∧ p = (t.autoIncrement + i, r) := by
  rw [insertAll_rows, List.mem_append, List.mem_mapIdx]
  apply or_congr_right
  constructor
  · rintro ⟨i, hi, rfl⟩
    exact ⟨i, rs[i], List.getElem?_eq_getElem hi, rfl⟩
  · rintro ⟨i, r, hr, rfl⟩
    obtain ⟨hi, rfl⟩ := List.getElem?_eq_some_iff.mp hr
    exact ⟨i, hi, rfl⟩

/-- The inserted rows, without their keys, follow the rows already there. -/
theorem insertAll_values (t : Table R) (rs : List R) :
    (t.insertAll rs).rows.map Prod.snd = t.rows.map Prod.snd ++ rs := by
  induction rs generalizing t with
  | nil => simp
  | cons r rs ih => simp [ih]

theorem rows_prefix_insertAll (t : Table R) (rs : List R) : t.rows <+: (t.insertAll rs).rows := by
  rw [insertAll_rows]
  exact List.prefix_append _ _

theorem keys_nodup (t : Table R) : (t.rows.map Prod.fst).Nodup :=
  List.pairwise_map.mpr (t.increasing.imp Nat.ne_of_lt)

/-- A key belongs to one row only. -/
theorem eq_of_key_eq (t : Table R) {a b : Nat × R} (ha : a ∈ t.rows) (hb : b ∈ t.rows)
    (h : a.1 = b.1) : a = b :=
  List.inj_on_of_nodup_map t.keys_nodup ha hb h

/-- A lookup by the key of a row finds that row only. -/
theorem filter_key (t : Table R) {a : Nat × R} (ha : a ∈ t.rows) :
    t.rows.filter (fun r => decide (r.1 = a.1)) = [a] := by
  have hn : t.rows.Nodup := List.Nodup.of_map _ t.keys_nodup
  apply List.perm_singleton.mp
  refine (List.perm_ext_iff_of_nodup (hn.filter _) (List.nodup_singleton a)).mpr fun b => ?_
  rw [List.mem_filter, List.mem_singleton, decide_eq_true_eq]
  constructor
  · rintro ⟨hb, hk⟩
    exact t.eq_of_key_eq hb ha hk
  · rintro rfl
    exact ⟨ha, rfl⟩

theorem filter_key_length_le_one (t : Table R) (key : Nat) :
    (t.rows.filter fun r => decide (r.1 = key)).length ≤ 1 := by
  cases h : t.rows.filter fun r => decide (r.1 = key) with
  | nil => exact Nat.zero_le 1
  | cons a rest =>
    obtain ⟨ha, hkey⟩ := List.mem_filter.mp (h ▸ List.mem_cons_self (a := a) (l := rest))
    obtain rfl := of_decide_eq_true hkey
    exact Nat.le_of_eq (congrArg List.length (h.symm.trans (t.filter_key ha)))

end Table
end Srvlog.Library
