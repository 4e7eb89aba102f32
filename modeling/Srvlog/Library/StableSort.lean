import Mathlib.Data.List.Sort

/-! What a stable sort keeps of the order in which the elements arrived. -/
namespace Srvlog.Library

universe u
variable {α : Type u} {r before : α → α → Prop} [DecidableRel r]

/-- An element is inserted behind smaller ones only, and so in front of all its equals. -/
theorem pairwise_orderedInsert_of_ties {a : α} {l : List α}
    (ha : ∀ b ∈ l, r a b → r b a → before a b) (hl : l.Pairwise fun a b => r a b → r b a → before a b) :
    (l.orderedInsert r a).Pairwise fun a b => r a b → r b a → before a b := by
  induction l with
  | nil => exact List.pairwise_singleton _ a
  | cons b l ih =>
    obtain ⟨hb, hl⟩ := List.pairwise_cons.mp hl
    rw [List.orderedInsert_cons]
    split
    · exact List.pairwise_cons.mpr ⟨ha, List.pairwise_cons.mpr ⟨hb, hl⟩⟩
    · next hnot =>
      refine List.pairwise_cons.mpr ⟨fun c hc => ?_, ih (fun c hc => ha c (List.mem_cons_of_mem _ hc)) hl⟩
      rcases (List.mem_orderedInsert r).mp hc with rfl | hc
      · exact fun _ hab => absurd hab hnot
      · exact hb c hc

/-- Equal elements that come in order stay in order. -/
theorem pairwise_insertionSort_of_ties {l : List α} (h : l.Pairwise fun a b => r a b → r b a → before a b) :
    (l.insertionSort r).Pairwise fun a b => r a b → r b a → before a b := by
  induction l with
  | nil => exact h
  | cons a l ih =>
    obtain ⟨ha, hl⟩ := List.pairwise_cons.mp h
    exact pairwise_orderedInsert_of_ties (fun b hb => ha b ((List.mem_insertionSort r).mp hb)) (ih hl)

/-- When the newer elements are sorted in front of the older ones, equal elements keep
their order if and only if there are none across the two parts. -/
theorem insertionSort_newer_older_iff [Std.Asymm before] {older newer : List α}
    (h : (older ++ newer).Pairwise before) :
    ((newer ++ older).insertionSort r).Pairwise (fun a b => r a b → r b a → before a b) ↔
      ∀ a ∈ older, ∀ b ∈ newer, ¬ (r a b ∧ r b a) := by
  obtain ⟨holder, hnewer, hacross⟩ := List.pairwise_append.mp h
  constructor
  · rintro hsorted a ha b hb ⟨hab, hba⟩
    have hpair : [b, a].Sublist ((newer ++ older).insertionSort r) :=
      List.pair_sublist_insertionSort hba
        ((List.singleton_sublist.mpr hb).append (List.singleton_sublist.mpr ha))
    have hswapped : before b a := List.pairwise_iff_forall_sublist.mp hsorted hpair hba hab
    exact Std.Asymm.asymm b a hswapped (hacross a ha b hb)
  · intro hties
    apply pairwise_insertionSort_of_ties
    refine List.pairwise_append.mpr ⟨hnewer.imp fun hab _ _ => hab, holder.imp fun hab _ _ => hab, ?_⟩
    intro b hb a ha hba hab
    exact absurd ⟨hab, hba⟩ (hties a ha b hb)

end Srvlog.Library
