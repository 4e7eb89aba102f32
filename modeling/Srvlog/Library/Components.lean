import Srvlog.Library.Runs
import Mathlib.Data.List.Basic

/-! A system with a growing list of components. What one component does is a machine of its
own, and a run of the system takes each component through a run of that machine. -/
namespace Srvlog.Library

universe u v w x
variable {L : Type u} {B : Type v} (localStep : L → B → Option L) (fresh : L)

/-- One step of the component at a place, the others stay as they are. -/
def stepAt (ls : List L) (i : Nat) (b : B) : Option (List L) :=
  ls[i]?.bind fun l => (localStep l b).map fun l' => ls.set i l'

/-- What one step of the system can do to its components. -/
inductive ComponentsStep : List L → List L → Prop where
  | rest (ls : List L) : ComponentsStep ls ls
  | add (ls : List L) : ComponentsStep ls (ls ++ [fresh])
  | act {ls ls' : List L} (i : Nat) (b : B) (h : stepAt localStep ls i b = some ls') : ComponentsStep ls ls'

variable {localStep fresh}

theorem stepAt_eq_some_iff {ls ls' : List L} {i : Nat} {b : B} : stepAt localStep ls i b = some ls' ↔
    ∃ l l', ls[i]? = some l ∧ localStep l b = some l' ∧ ls' = ls.set i l' := by
  simp only [stepAt, Option.bind_eq_some_iff, Option.map_eq_some_iff]
  constructor
  · rintro ⟨l, hl, l', hl', rfl⟩
    exact ⟨l, l', hl, hl', rfl⟩
  · rintro ⟨l, l', hl, hl', rfl⟩
    exact ⟨l, hl, l', hl', rfl⟩

/-- The component at the place of the step, and each of the others. -/
theorem getElem?_set_of_some {ls : List L} {i j : Nat} {l l' : L} (h : ls[i]? = some l) :
    (ls.set i l')[j]? = if i = j then some l' else ls[j]? := by
  obtain ⟨hi, -⟩ := List.getElem?_eq_some_iff.mp h
  rw [List.getElem?_set]
  simp [hi]

/-- A component of a longer list is an old one or the new one. -/
theorem getElem?_append_singleton_cases {ls : List L} {i : Nat} {l m : L} (h : (ls ++ [l])[i]? = some m) :
    ls[i]? = some m ∨ i = ls.length ∧ m = l := by
  rw [List.getElem?_append] at h
  split at h
  · exact .inl h
  · next hge =>
    rw [List.getElem?_singleton] at h
    split at h
    · next hzero => exact .inr ⟨by omega, (Option.some.inj h).symm⟩
    · cases h

namespace ComponentsStep
variable {S : Type w} {A : Type x} {step : S → A → Option S} {components : S → List L}

/-- What holds of a fresh component and is kept by the steps of the machine holds of all. -/
theorem forall_mem {I : L → Prop} {ls ls' : List L} (h : ComponentsStep localStep fresh ls ls') (hfresh : I fresh)
    (preserved : ∀ l b l', I l → localStep l b = some l' → I l') (hls : ∀ l ∈ ls, I l) : ∀ l ∈ ls', I l := by
  cases h with
  | rest => exact hls
  | add => exact List.forall_mem_append.mpr ⟨hls, List.forall_mem_singleton.mpr hfresh⟩
  | act i b h =>
    obtain ⟨l, l', hl, hl', rfl⟩ := stepAt_eq_some_iff.mp h
    intro m hm
    rcases List.mem_or_eq_of_mem_set hm with hold | rfl
    · exact hls m hold
    · exact preserved l b m (hls l (List.mem_of_getElem? hl)) hl'

/-- Every component of a system that began without any has come through a run of its own. -/
theorem component_run {s t : S} {as : List A} (h : Run step s as t)
    (hstep : ∀ s a t, step s a = some t → ComponentsStep localStep fresh (components s) (components t))
    (hs : components s = []) : ∀ l ∈ components t, ∃ bs, Run localStep fresh bs l := by
  refine h.invariant (I := fun s => ∀ l ∈ components s, ∃ bs, Run localStep fresh bs l) ?_ ?_
  · intro s a t hall ha
    refine (hstep s a t ha).forall_mem ⟨[], .nil fresh⟩ ?_ hall
    rintro l b l' ⟨bs, hbs⟩ hl'
    exact ⟨bs ++ [b], hbs.append (.cons hl' (.nil l'))⟩
  · rw [hs]
    exact fun l hl => absurd hl List.not_mem_nil

end ComponentsStep
end Srvlog.Library
