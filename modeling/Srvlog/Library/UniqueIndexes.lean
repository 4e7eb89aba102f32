import Srvlog.Library.Text

/-! Inserts into a table under its declared indexes. Only a unique index makes two rows
duplicates of each other. -/
namespace Srvlog.Library
variable {R : Type}

structure IndexOn (R : Type) where
  name : Text
  unique : Bool
  same : R → R → Bool

def duplicates (indexes : List (IndexOn R)) (a b : R) : Bool := indexes.any fun index => index.unique && index.same a b

/-- A duplicate makes the insert fail. -/
def insertRow (indexes : List (IndexOn R)) (rows : List R) (r : R) : Option (List R) :=
  if rows.any (duplicates indexes r) then none else some (rows ++ [r])

/-- Insert the rows of a select, all of them or none. -/
def insertSelect (indexes : List (IndexOn R)) (rows rs : List R) : Option (List R) := rs.foldlM (insertRow indexes) rows

/-- Insert a row `on duplicate key update`, which gives its values to the row that it duplicates. -/
def insertOrUpdate (indexes : List (IndexOn R)) (rows : List R) (r : R) : List R :=
  match rows.findIdx? (duplicates indexes r) with
  | some i => rows.set i r
  | none => rows ++ [r]

section not_unique
variable {indexes : List (IndexOn R)} (h : ∀ index ∈ indexes, index.unique = false)
include h

theorem duplicates_of_not_unique (a b : R) : duplicates indexes a b = false := by
  rw [duplicates, List.any_eq_false]
  intro index hindex
  rw [h index hindex, Bool.false_and]
  exact Bool.false_ne_true

theorem insertSelect_of_not_unique (rows rs : List R) : insertSelect indexes rows rs = some (rows ++ rs) := by
  induction rs generalizing rows with
  | nil => exact congrArg some (List.append_nil rows).symm
  | cons r rs ih =>
    have hinsert : insertRow indexes rows r = some (rows ++ [r]) := by
      apply if_neg
      rw [List.any_eq_true]
      rintro ⟨a, -, ha⟩
      rw [duplicates_of_not_unique h] at ha
      cases ha
    have hstep : insertSelect indexes rows (r :: rs) = insertSelect indexes (rows ++ [r]) rs := by
      rw [insertSelect, List.foldlM_cons, hinsert]
      rfl
    rw [hstep, ih, List.append_assoc, List.singleton_append]

/-- Without a unique index nothing is ever updated. -/
theorem foldl_insertOrUpdate_of_not_unique (rows rs : List R) : rs.foldl (insertOrUpdate indexes) rows = rows ++ rs := by
  induction rs generalizing rows with
  | nil => exact (List.append_nil rows).symm
  | cons r rs ih =>
    have hinsert : insertOrUpdate indexes rows r = rows ++ [r] := by
      have hnone : rows.findIdx? (duplicates indexes r) = none := by
        rw [List.findIdx?_eq_none_iff]
        exact fun a _ => duplicates_of_not_unique h r a
      rw [insertOrUpdate, hnone]
    rw [List.foldl_cons, hinsert, ih, List.append_assoc, List.singleton_append]

end not_unique
end Srvlog.Library
