import Mathlib.Algebra.Order.Ring.Int
import Mathlib.Data.List.Basic

/-! Text as lists of characters, and where one text can stand in another. -/
namespace Srvlog.Library

abbrev Text := List Char

/-- Texts that may be missing are compared as such. -/
instance : LawfulBEq (Option Text) := inferInstance

/-- Only the characters of the text are tried. -/
instance (t : Text) (p : Char → Prop) [DecidablePred p] : Decidable (∀ ch ∈ t, p ch) := List.decidableBAll p t

section infixes
variable {α : Type} {w a c : List α} {b : α}

/-- A text without the separator stands on one side of it. -/
theorem infix_of_not_mem (hb : b ∉ w) (h : w <:+: a ++ b :: c) : w <:+: a ∨ w <:+: c := by
  rcases List.infix_append_iff_ne_nil.mp h with h | h | ⟨w₁, w₂, -, hw₂, rfl, -, h₂⟩
  · exact .inl h
  · rcases List.infix_cons_iff.mp h with h | h
    · cases w with
      | nil => exact .inr (List.nil_infix)
      | cons x w => exact absurd ((List.cons_prefix_cons.mp h).1 ▸ List.mem_cons_self) hb
    · exact .inr h
  · obtain ⟨x, w₂, rfl⟩ := List.exists_cons_of_ne_nil hw₂
    have hx : x = b := (List.cons_prefix_cons.mp h₂).1
    exact absurd (List.mem_append_right w₁ (hx ▸ List.mem_cons_self)) hb

/-- A text that begins with the separator stands behind a text without it. -/
theorem infix_of_head? (hw : w.head? = some b) (ha : b ∉ a) (h : w <:+: a ++ c) : w <:+: c := by
  have hmem {w₁ : List α} (hw₁ : w₁.head? = some b) : ¬ w₁ <:+: a :=
    fun h => ha (h.subset (List.mem_of_mem_head? hw₁))
  rcases List.infix_append_iff_ne_nil.mp h with h | h | ⟨w₁, w₂, hw₁, -, rfl, h₁, -⟩
  · exact absurd h (hmem hw)
  · exact h
  · rw [List.head?_append_of_ne_nil _ hw₁] at hw
    exact absurd h₁.isInfix (hmem hw)

/-- A text none of whose ends is one of its beginnings stands first where it is put, unless
it stands in the text in front. -/
theorem not_prefix_of_not_infix {w t : List α} (hw : ∀ k < w.length, 0 < k → ¬ w.drop k <+: w) (ht : t ≠ [])
    (hin : ¬ w <:+: t) : ¬ w <+: t ++ (w ++ c) := by
  intro h
  rcases Nat.le_total w.length t.length with hle | hle
  · exact hin (List.prefix_of_prefix_length_le h (List.prefix_append t _) hle).isInfix
  · obtain ⟨u, rfl⟩ := List.prefix_of_prefix_length_le (List.prefix_append t _) h hle
    have hu : u <+: (t ++ u) ++ c := (List.prefix_append_right_inj t).mp h
    have hborder : (t ++ u).drop t.length <+: t ++ u := by
      rw [List.drop_left]
      exact List.prefix_of_prefix_length_le hu (List.prefix_append _ _) (List.length_append ▸ Nat.le_add_left _ _)
    have hpos := List.length_pos_iff.mpr ht
    rcases List.eq_nil_or_concat u with rfl | ⟨_, _, rfl⟩
    · exact hin ((List.append_nil t).symm ▸ List.infix_rfl)
    · exact hw t.length (by simp) hpos hborder

end infixes

/-- What holds of the parts and of the separator holds of the joined text. -/
theorem forall_mem_intercalate {α : Type} {q : α → Prop} {separator : List α} {parts : List (List α)}
    (hsep : ∀ x ∈ separator, q x) (hparts : ∀ part ∈ parts, ∀ x ∈ part, q x) :
    ∀ x ∈ separator.intercalate parts, q x := by
  induction parts with
  | nil => exact fun _ hx => absurd hx List.not_mem_nil
  | cons part parts ih =>
    rw [List.forall_mem_cons] at hparts
    cases parts with
    | nil =>
      rw [List.intercalate_singleton]
      exact hparts.1
    | cons next parts =>
      rw [List.intercalate_cons_cons, List.append_assoc, List.forall_mem_append, List.forall_mem_append]
      exact ⟨hparts.1, hsep, ih hparts.2⟩

section ends
variable {P : Char → Prop}

/-- What holds at the ends of the parts holds at the ends of their concatenation. -/
theorem ends_intercalate {separator : Text} {parts : List Text}
    (hparts : ∀ part ∈ parts, part ≠ [] ∧ (∀ ch ∈ part.head?, P ch) ∧ ∀ ch ∈ part.getLast?, P ch) :
    (∀ ch ∈ (separator.intercalate parts).head?, P ch) ∧ ∀ ch ∈ (separator.intercalate parts).getLast?, P ch := by
  induction parts with
  | nil => exact ⟨fun _ hch => absurd hch (Option.not_mem_none _), fun _ hch => absurd hch (Option.not_mem_none _)⟩
  | cons part parts ih =>
    rw [List.forall_mem_cons] at hparts
    cases parts with
    | nil =>
      rw [List.intercalate_singleton]
      exact hparts.1.2
    | cons next parts =>
      have hrest : separator.intercalate (next :: parts) ≠ [] := by
        have hnext := (hparts.2 next List.mem_cons_self).1
        cases parts with
        | nil => rwa [List.intercalate_singleton]
        | cons other parts =>
          rw [List.intercalate_cons_cons, List.append_assoc]
          exact List.append_ne_nil_of_left_ne_nil hnext _
      rw [List.intercalate_cons_cons]
      constructor
      · rw [List.append_assoc, List.head?_append_of_ne_nil _ hparts.1.1]
        exact hparts.1.2.1
      · rw [List.getLast?_append_of_ne_nil _ hrest]
        exact (ih hparts.2).2

end ends
end Srvlog.Library
