import Srvlog.Library.AutoIncrementTable

/-! Copies of a part of a table that goes on growing: the part between two marks, which are
values of the table's counter. -/
namespace Srvlog.Library

universe u v
variable {R : Type u} {D : Type v}

namespace Table

/-- The second table is a later state of the first one: it has further keys, and it may have
lost rows. -/
structure Follows (t t' : Table R) : Prop where
  counter : t.autoIncrement ≤ t'.autoIncrement
  kept : ∀ r ∈ t'.rows, r.1 < t.autoIncrement → r ∈ t.rows

theorem Follows.refl (t : Table R) : t.Follows t := ⟨Nat.le_refl _, fun _ hr _ => hr⟩

theorem Follows.trans {t t' t'' : Table R} (h : t.Follows t') (h' : t'.Follows t'') : t.Follows t'' where
  counter := Nat.le_trans h.counter h'.counter
  kept r hr hlt := h.kept r (h'.kept r hr (Nat.lt_of_lt_of_le hlt h.counter)) hlt

theorem follows_insert (t : Table R) (row : R) : t.Follows (t.insert row) where
  counter := Nat.le_succ _
  kept r hr hlt := by
    rcases List.mem_append.mp hr with hold | hnew
    · exact hold
    · rw [List.mem_singleton] at hnew
      rw [hnew] at hlt
      exact absurd hlt (Nat.lt_irrefl _)

theorem follows_insertAll (t : Table R) (rows : List R) : t.Follows (t.insertAll rows) := by
  induction rows generalizing t with
  | nil => exact .refl t
  | cons row rows ih => exact (t.follows_insert row).trans (ih _)

theorem follows_deleteWhere (t : Table R) (p : Nat × R → Bool) : t.Follows (t.deleteWhere p) where
  counter := Nat.le_refl _
  kept _ hr _ := (List.mem_filter.mp hr).1

end Table

/-- Rows with keys from the first mark to the second one, among them all such rows that the
table still has. -/
structure RowsBetween (t : Table R) (first last : Nat) (rows : List (Nat × R)) : Prop where
  increasing : rows.Pairwise fun a b => a.1 < b.1
  marks : ∀ r ∈ rows, first ≤ r.1 ∧ r.1 < last
  complete : ∀ r ∈ t.rows, first ≤ r.1 → r.1 < last → r ∈ rows

/-- The documents are copies of such rows. -/
def Copies (copy : Nat × R → D) (t : Table R) (first last : Nat) (docs : List D) : Prop :=
  ∃ rows, RowsBetween t first last rows ∧ docs = rows.map copy

namespace Copies
variable {copy : Nat × R → D} {t t' : Table R} {first last : Nat} {docs : List D}

theorem nil (t : Table R) (mark : Nat) : Copies copy t mark mark [] := by
  refine ⟨[], ⟨.nil, fun r hr => absurd hr List.not_mem_nil, fun r _ hfirst hlast => ?_⟩, rfl⟩
  exact absurd (Nat.lt_of_le_of_lt hfirst hlast) (Nat.lt_irrefl _)

/-- What happens to the table later does not matter to its copies. -/
theorem follows (h : Copies copy t first last docs) (hlast : last ≤ t.autoIncrement) (hfollows : t.Follows t') :
    Copies copy t' first last docs := by
  obtain ⟨rows, hrows, rfl⟩ := h
  refine ⟨rows, ⟨hrows.increasing, hrows.marks, fun r hr hfirst hlt => ?_⟩, rfl⟩
  exact hrows.complete r (hfollows.kept r hr (Nat.lt_of_lt_of_le hlt hlast)) hfirst hlt

/-- The rows that a query selects, when it selects by these marks. -/
theorem of_select {p : Nat × R → Bool} (hp : ∀ r ∈ t.rows, p r = true ↔ first ≤ r.1 ∧ r.1 < last) :
    Copies copy t first last ((t.rows.filter p).map copy) := by
  refine ⟨_, ⟨t.increasing.sublist List.filter_sublist, fun r hr => ?_, fun r hr hfirst hlast => ?_⟩, rfl⟩
  · obtain ⟨hmem, hselected⟩ := List.mem_filter.mp hr
    exact (hp r hmem).mp hselected
  · exact List.mem_filter.mpr ⟨hr, (hp r hr).mpr ⟨hfirst, hlast⟩⟩

section keys
variable {key : D → Nat} (hkey : ∀ r, key (copy r) = r.1)
include hkey

/-- Whether a row has its copy is a matter of its key. -/
theorem mem_iff (h : Copies copy t first last docs) {r : Nat × R} (hr : r ∈ t.rows) :
    copy r ∈ docs ↔ first ≤ r.1 ∧ r.1 < last := by
  obtain ⟨rows, hrows, rfl⟩ := h
  constructor
  · intro hmem
    obtain ⟨r', hr', hcopy⟩ := List.mem_map.mp hmem
    have hsame : r'.1 = r.1 := by rw [← hkey r', hcopy, hkey]
    rw [← hsame]
    exact hrows.marks r' hr'
  · rintro ⟨hfirst, hlast⟩
    exact List.mem_map_of_mem (hrows.complete r hr hfirst hlast)

/-- No other document has the key of a row. -/
theorem eq_of_key (h : Copies copy t first last docs) {r : Nat × R} (hr : r ∈ t.rows) {d : D} (hd : d ∈ docs)
    (hsame : key d = r.1) : d = copy r := by
  obtain ⟨rows, hrows, rfl⟩ := h
  obtain ⟨r', hr', rfl⟩ := List.mem_map.mp hd
  rw [hkey] at hsame
  obtain ⟨hfirst, hlast⟩ := hrows.marks r' hr'
  rw [hsame] at hfirst hlast
  have hkeys : (rows.map Prod.fst).Nodup := List.pairwise_map.mpr (hrows.increasing.imp Nat.ne_of_lt)
  rw [List.inj_on_of_nodup_map hkeys hr' (hrows.complete r hr hfirst hlast) hsame]

end keys
end Copies
end Srvlog.Library
