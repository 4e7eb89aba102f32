import Mathlib.Data.List.Basic

/-! Finite runs of a labelled system whose actions may be disabled. Every
induction over a run is done here; a system only shows what one step does. -/
namespace Srvlog.Library

universe u v w
variable {S : Type u} {A : Type v} {step : S → A → Option S}

/-- The actions, each enabled when its turn comes, lead from the first state to the last. -/
inductive Run (step : S → A → Option S) : S → List A → S → Prop where
  | nil (s : S) : Run step s [] s
  | cons {s t u : S} {a : A} {as : List A} :
      step s a = some t → Run step t as u → Run step s (a :: as) u

/-- Execute a list of actions; a disabled action stops the execution. -/
def exec (step : S → A → Option S) : S → List A → Option S
  | s, [] => some s
  | s, a :: as => (step s a).bind fun t => exec step t as

/-- The guard holds in front of every step that the actions take. -/
def AllSteps (step : S → A → Option S) (guard : S → A → Prop) : S → List A → Prop
  | _, [] => True
  | s, a :: as => guard s a ∧ ∀ t, step s a = some t → AllSteps step guard t as

instance AllSteps.decidable {guard : S → A → Prop} [∀ s a, Decidable (guard s a)] :
    ∀ (s : S) (as : List A), Decidable (AllSteps step guard s as)
  | _, [] => isTrue trivial
  | s, a :: as =>
    match h : step s a with
    | none => decidable_of_iff (guard s a)
        ⟨fun hg => ⟨hg, fun t ht => absurd (h.symm.trans ht) (Option.some_ne_none t).symm⟩, And.left⟩
    | some t =>
      have : Decidable (AllSteps step guard t as) := AllSteps.decidable t as
      decidable_of_iff (guard s a ∧ AllSteps step guard t as)
        (and_congr_right fun _ => ⟨fun hrest _ hu => Option.some.inj (h.symm.trans hu) ▸ hrest, fun hrest => hrest t h⟩)

theorem exec_eq_some_iff {s t : S} {as : List A} : exec step s as = some t ↔ Run step s as t := by
  induction as generalizing s with
  | nil =>
    constructor
    · intro h
      obtain rfl := Option.some.inj h
      exact .nil _
    · rintro ⟨⟩
      rfl
  | cons a as ih =>
    simp only [exec, Option.bind_eq_some_iff]
    constructor
    · rintro ⟨u, hu, h⟩
      exact .cons hu (ih.mp h)
    · rintro (_ | ⟨hu, h⟩)
      exact ⟨_, hu, ih.mpr h⟩

/-- A guard that only looks at the action holds throughout when it holds of every action. -/
theorem allSteps_of_forall_mem {guard : A → Prop} {as : List A} (h : ∀ a ∈ as, guard a) (s : S) :
    AllSteps step (fun _ => guard) s as := by
  induction as generalizing s with
  | nil => trivial
  | cons a as ih =>
    exact ⟨h a List.mem_cons_self, fun t _ => ih (fun b hb => h b (List.mem_cons_of_mem _ hb)) t⟩

namespace Run

theorem append {s t u : S} {as bs : List A} (h : Run step s as t) (h' : Run step t bs u) :
    Run step s (as ++ bs) u := by
  induction h with
  | nil => exact h'
  | cons hs _ ih => exact .cons hs (ih h')

/-- A run over a concatenation passes through a state between the two parts. -/
theorem split {s u : S} {as bs : List A} (h : Run step s (as ++ bs) u) :
    ∃ t, Run step s as t ∧ Run step t bs u := by
  induction as generalizing s with
  | nil => exact ⟨s, .nil s, h⟩
  | cons a as ih =>
    cases h with
    | cons hs h =>
      obtain ⟨t, ht, hu⟩ := ih h
      exact ⟨t, .cons hs ht, hu⟩

/-- The steps of a concatenation are those of a run and those behind it. -/
theorem allSteps_append {guard : S → A → Prop} {s t : S} {as bs : List A} (h : Run step s as t) :
    AllSteps step guard s (as ++ bs) ↔ AllSteps step guard s as ∧ AllSteps step guard t bs := by
  induction h with
  | nil => exact (and_iff_right trivial).symm
  | cons ha _ ih =>
    rw [List.cons_append, AllSteps, AllSteps, and_assoc]
    refine and_congr_right fun _ => ⟨fun hall => ?_, fun hall u hu => ?_⟩
    · obtain ⟨has, hbs⟩ := ih.mp (hall _ ha)
      refine ⟨fun u hu => ?_, hbs⟩
      obtain rfl := Option.some.inj (ha.symm.trans hu)
      exact has
    · obtain rfl := Option.some.inj (ha.symm.trans hu)
      exact ih.mpr ⟨hall.1 _ ha, hall.2⟩

/-- What every step preserves holds at the end of every run. -/
theorem invariant {I : S → Prop} {s t : S} {as : List A} (h : Run step s as t)
    (preserved : ∀ s a t, I s → step s a = some t → I t) (hs : I s) : I t := by
  induction h with
  | nil => exact hs
  | cons ha _ ih => exact ih (preserved _ _ _ hs ha)

/-- A run is followed by a total machine when each of its steps is. -/
theorem simulated {T : Type v} {f : T → A → T} {R : S → T → Prop} {s t : S} {x : T} {as : List A}
    (h : Run step s as t) (simulates : ∀ s a t x, R s x → step s a = some t → R t (f x a)) (hs : R s x) :
    R t (as.foldl f x) := by
  induction h generalizing x with
  | nil => exact hs
  | cons ha _ ih => exact ih (simulates _ _ _ _ hs ha)

/-- What each of the actions adds to what has been collected so far is collected by the run. -/
theorem collected {T : Type w} {guard : A → Prop} {gives : A → List T} {R : S → List T → Prop} {s t : S}
    {xs : List T} {as : List A} (h : Run step s as t) (hg : ∀ a ∈ as, guard a)
    (collects : ∀ s a t xs, R s xs → guard a → step s a = some t → R t (xs ++ gives a)) (hs : R s xs) :
    R t (xs ++ as.flatMap gives) := by
  induction h generalizing xs with
  | nil => rwa [List.flatMap_nil, List.append_nil]
  | @cons _ _ _ a as ha _ ih =>
    obtain ⟨hga, hg⟩ := List.forall_mem_cons.mp hg
    rw [List.flatMap_cons, ← List.append_assoc]
    exact ih hg (collects _ _ _ _ hs hga ha)

/-- What the guarded steps preserve holds at the end of every guarded run. -/
theorem guarded_invariant {I : S → Prop} {guard : S → A → Prop} {s t : S} {as : List A}
    (h : Run step s as t) (hg : AllSteps step guard s as)
    (preserved : ∀ s a t, I s → guard s a → step s a = some t → I t) (hs : I s) : I t := by
  induction h with
  | nil => exact hs
  | cons ha _ ih => exact ih (hg.2 _ ha) (preserved _ _ _ hs hg.1 ha)

/-- What the steps that keep an invariant turn true or false by their guard alone is true at
the end of a run when it was true at its beginning and the guard held throughout. The steps
may all be taken under a further condition. -/
theorem holds_iff_allSteps_of {I P : S → Prop} {fits guard : S → A → Prop} {s t : S} {as : List A}
    (h : Run step s as t) (hfits : AllSteps step fits s as)
    (preserved : ∀ s a t, I s → fits s a → step s a = some t → I t)
    (holds : ∀ s a t, I s → fits s a → step s a = some t → (P t ↔ P s ∧ guard s a)) (hs : I s) :
    P t ↔ P s ∧ AllSteps step guard s as := by
  induction h with
  | nil => exact (and_iff_left trivial).symm
  | cons ha _ ih =>
    rw [ih (hfits.2 _ ha) (preserved _ _ _ hs hfits.1 ha), holds _ _ _ hs hfits.1 ha, and_assoc]
    refine and_congr_right fun _ => and_congr_right fun _ => ⟨fun hrest u hu => ?_, fun hrest => hrest _ ha⟩
    obtain rfl := Option.some.inj (ha.symm.trans hu)
    exact hrest

theorem holds_iff_allSteps {I P : S → Prop} {guard : S → A → Prop} {s t : S} {as : List A} (h : Run step s as t)
    (preserved : ∀ s a t, I s → step s a = some t → I t)
    (holds : ∀ s a t, I s → step s a = some t → (P t ↔ P s ∧ guard s a)) (hs : I s) :
    P t ↔ P s ∧ AllSteps step guard s as :=
  h.holds_iff_allSteps_of (@allSteps_of_forall_mem _ _ _ (fun _ => True) _ (fun _ _ => trivial) s)
    (fun s a t hi _ => preserved s a t hi) (fun s a t hi _ => holds s a t hi) hs

/-- A run that leaves its guard takes a first step in front of which the guard fails. -/
theorem first_violation {guard : S → A → Prop} {s t : S} {as : List A} (h : Run step s as t)
    (hg : ¬ AllSteps step guard s as) :
    ∃ before a after u v, as = before ++ a :: after ∧ Run step s before u ∧
      AllSteps step guard s before ∧ ¬ guard u a ∧ step u a = some v ∧ Run step v after t := by
  induction h with
  | nil => exact absurd trivial hg
  | @cons s v t a as ha hr ih =>
    by_cases hga : guard s a
    · have hrest : ¬ AllSteps step guard v as := by
        intro hv
        apply hg
        refine ⟨hga, fun w hw => ?_⟩
        obtain rfl := Option.some.inj (ha.symm.trans hw)
        exact hv
      obtain ⟨before, b, after, x, y, rfl, hx, hgx, hb, hy, ht⟩ := ih hrest
      refine ⟨a :: before, b, after, x, y, rfl, .cons ha hx, ⟨hga, fun w hw => ?_⟩, hb, hy, ht⟩
      obtain rfl := Option.some.inj (ha.symm.trans hw)
      exact hgx
    · exact ⟨[], a, as, s, v, rfl, .nil s, trivial, hga, ha, hr⟩

end Run
end Srvlog.Library
