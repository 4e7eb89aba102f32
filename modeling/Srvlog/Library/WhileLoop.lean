import Mathlib.Init

/-! Loops that may throw, what they end with, and why they end. -/
namespace Srvlog.Library

variable {σ ε : Type} {cond : σ → Bool} {body : σ → Except ε σ}

/-- The loop gives up when it runs out of fuel. -/
def whileLoop (cond : σ → Bool) (body : σ → Except ε σ) : Nat → σ → Option (Except ε σ)
  | 0, _ => none
  | fuel + 1, s => if cond s then
      match body s with
      | .error e => some (.error e)
      | .ok s' => whileLoop cond body fuel s'
    else some (.ok s)

/-- The outcome of the loop with any fuel that is enough. -/
def EndsWith (cond : σ → Bool) (body : σ → Except ε σ) (s : σ) (outcome : Except ε σ) : Prop :=
  ∃ enough, ∀ fuel, enough ≤ fuel → whileLoop cond body fuel s = some outcome

namespace EndsWith

theorem of_not {s : σ} (h : cond s = false) : EndsWith cond body s (.ok s) := by
  refine ⟨1, fun fuel hfuel => ?_⟩
  obtain ⟨fuel, rfl⟩ := Nat.exists_eq_add_of_le' hfuel
  rw [whileLoop, if_neg (by rw [h]; exact Bool.false_ne_true)]

theorem of_error {s : σ} {e : ε} (h : cond s = true) (hbody : body s = .error e) : EndsWith cond body s (.error e) := by
  refine ⟨1, fun fuel hfuel => ?_⟩
  obtain ⟨fuel, rfl⟩ := Nat.exists_eq_add_of_le' hfuel
  rw [whileLoop, if_pos h, hbody]

theorem step {s s' : σ} {outcome : Except ε σ} (h : cond s = true) (hbody : body s = .ok s')
    (hrest : EndsWith cond body s' outcome) : EndsWith cond body s outcome := by
  obtain ⟨enough, hrest⟩ := hrest
  refine ⟨enough + 1, fun fuel hfuel => ?_⟩
  obtain ⟨more, rfl⟩ := Nat.exists_eq_add_of_le hfuel
  have hfuel' : enough + 1 + more = enough + more + 1 := by omega
  rw [hfuel', whileLoop, if_pos h, hbody]
  exact hrest _ (Nat.le_add_right _ _)

/-- A loop ends if each round makes a measure smaller. -/
theorem exists_of_measure (measure : σ → Nat)
    (hbody : ∀ s s', cond s = true → body s = .ok s' → measure s' < measure s) (s : σ) :
    ∃ outcome, EndsWith cond body s outcome := by
  induction hm : measure s using Nat.strongRecOn generalizing s with
  | _ m ih =>
    cases hcond : cond s with
    | false => exact ⟨_, of_not hcond⟩
    | true =>
      cases hround : body s with
      | error e => exact ⟨_, of_error hcond hround⟩
      | ok s' =>
        obtain ⟨outcome, hrest⟩ := ih _ (hm ▸ hbody s s' hcond hround) s' rfl
        exact ⟨outcome, step hcond hround hrest⟩

end EndsWith
end Srvlog.Library
