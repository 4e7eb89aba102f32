import Mathlib.Data.List.Forall2
import Mathlib.Data.List.Perm.Basic
import Mathlib.Data.List.Sort

/-! Queries over rows that may be stored in any order, with and without an order of their own. -/
namespace Srvlog.Library
variable {α β γ κ : Type}

section ties

/-- The same rows, where those with equal keys may have changed places. -/
structure SameUpToTies (key : α → κ) (a b : List α) : Prop where
  keys : a.map key = b.map key
  perm : a.Perm b

/-- Rows that both lists have in the order of their keys. -/
theorem sameUpToTies_of_pairwise {key : α → κ} {le : κ → κ → Prop} [Std.Antisymm le] {a b : List α} (h : a.Perm b)
    (ha : (a.map key).Pairwise le) (hb : (b.map key).Pairwise le) : SameUpToTies key a b where
  keys := (h.map key).eq_of_pairwise' ha hb
  perm := h

theorem SameUpToTies.map {key : α → κ} {key' : β → γ} {f : α → β} {g : κ → γ} {a b : List α} (h : SameUpToTies key a b)
    (hkey : ∀ x, key' (f x) = g (key x)) : SameUpToTies key' (a.map f) (b.map f) where
  keys := by
    have hmap (l : List α) : (l.map f).map key' = (l.map key).map g := by
      rw [List.map_map, List.map_map]
      apply List.map_congr_left
      intro x _
      exact hkey x
    rw [hmap, hmap, h.keys]
  perm := h.perm.map f

end ties

section queries
variable (selected : α → Bool) (before : α → α → Prop) [DecidableRel before] (limit : Nat)

/-- `where`, `order by` and `limit`. -/
def firstRows (rows : List α) : List α := ((rows.filter selected).insertionSort before).take limit

variable {selected before limit}

/-- A limit that is not exceeded cuts nothing off. -/
theorem firstRows_of_le {rows : List α} (h : (rows.filter selected).length ≤ limit) :
    firstRows selected before limit rows = (rows.filter selected).insertionSort before := by
  rw [firstRows, List.take_of_length_le]
  rwa [List.length_insertionSort]

theorem firstRows_perm {rows : List α} (h : (rows.filter selected).length ≤ limit) :
    (firstRows selected before limit rows).Perm (rows.filter selected) := by
  rw [firstRows_of_le h]
  exact List.perm_insertionSort _ _

theorem pairwise_firstRows [Std.Total before] [IsTrans α before] (rows : List α) :
    (firstRows selected before limit rows).Pairwise before :=
  (List.pairwise_insertionSort before _).sublist (List.take_sublist _ _)

/-- Tables with the same contents give the same rows, when the contents decide what is
selected and the order respects a key of theirs. -/
theorem firstRows_sameUpToTies [Std.Total before] [IsTrans α before] (content : α → β) (key : β → κ)
    (le : κ → κ → Prop) [Std.Antisymm le] {chosen : β → Bool} (hselected : ∀ x, selected x = chosen (content x))
    (hbefore : ∀ x y, before x y → le (key (content x)) (key (content y))) {rows rows' : List α}
    (hrows : (rows.map content).Perm (rows'.map content)) (hlimit : (rows.filter selected).length ≤ limit) :
    SameUpToTies key ((firstRows selected before limit rows).map content)
      ((firstRows selected before limit rows').map content) := by
  have hcontents (l : List α) : (l.filter selected).map content = (l.map content).filter chosen := by
    rw [List.filter_map]
    congr 1
    apply List.filter_congr
    intro x _
    exact hselected x
  have hfiltered : ((rows.filter selected).map content).Perm ((rows'.filter selected).map content) := by
    rw [hcontents, hcontents]
    exact hrows.filter chosen
  have hlimit' : (rows'.filter selected).length ≤ limit := by
    have hlength := hfiltered.length_eq
    rw [List.length_map, List.length_map] at hlength
    rwa [← hlength]
  have hordered (l : List α) : (((firstRows selected before limit l).map content).map key).Pairwise le := by
    rw [List.map_map]
    exact List.pairwise_map.mpr ((pairwise_firstRows l).imp fun {x y} hxy => hbefore x y hxy)
  refine sameUpToTies_of_pairwise ?_ (hordered rows) (hordered rows')
  exact ((firstRows_perm hlimit).map content).trans (hfiltered.trans ((firstRows_perm hlimit').map content).symm)

end queries

section pairs

/-- Lists with the same contents can be paired, row by row. -/
theorem exists_pairing {f : α → γ} {g : β → γ} {as : List α} {bs : List β} (h : (as.map f).Perm (bs.map g)) :
    ∃ bs', bs'.Perm bs ∧ List.Forall₂ (fun a b => f a = g b) as bs' := by
  have hself : List.Forall₂ (fun x b => x = g b) (bs.map g) bs := by
    rw [List.forall₂_map_left_iff]
    exact List.forall₂_same.mpr fun _ _ => rfl
  obtain ⟨bs', hpaired, hperm⟩ := List.perm_comp_forall₂ h hself
  exact ⟨bs', hperm, List.forall₂_map_left_iff.mp hpaired⟩

/-- What holds of each pair follows from what its members were computed from. -/
theorem forall₂_of_pairs {δ : Type} {P : α → γ → Prop} {Q : β → δ → Prop} {R : α → β → Prop} {S : γ → δ → Prop}
    (hstep : ∀ a b x y, R a b → P a x → Q b y → S x y) {as : List α} {bs : List β} {xs : List γ} {ys : List δ}
    (hR : List.Forall₂ R as bs) (hP : List.Forall₂ P as xs) (hQ : List.Forall₂ Q bs ys) : List.Forall₂ S xs ys := by
  induction hR generalizing xs ys with
  | nil =>
    cases hP
    cases hQ
    exact .nil
  | cons hab _ ih =>
    cases hP with
    | cons hax hP =>
      cases hQ with
      | cons hby hQ => exact .cons (hstep _ _ _ _ hab hax hby) (ih hP hQ)

theorem mapM_eq_ok_of_forall {ε : Type} {f : α → Except ε β} {P : α → β → Prop} {as : List α}
    (h : ∀ a ∈ as, ∃ b, f a = .ok b ∧ P a b) : ∃ bs, as.mapM f = .ok bs ∧ List.Forall₂ P as bs := by
  induction as with
  | nil => exact ⟨[], rfl, .nil⟩
  | cons a as ih =>
    rw [List.forall_mem_cons] at h
    obtain ⟨b, hb, hP⟩ := h.1
    obtain ⟨bs, hbs, hall⟩ := ih h.2
    refine ⟨b :: bs, ?_, .cons hP hall⟩
    rw [List.mapM_cons, hb, hbs]
    rfl

theorem exists_eq_ok_of_mapM {ε : Type} {f : α → Except ε β} {as : List α} {bs : List β} (h : as.mapM f = .ok bs) :
    ∀ a ∈ as, ∃ b, f a = .ok b := by
  induction as generalizing bs with
  | nil => exact fun _ ha => absurd ha List.not_mem_nil
  | cons a as ih =>
    rw [List.mapM_cons] at h
    cases hb : f a with
    | error e =>
      rw [hb] at h
      cases h
    | ok b =>
      cases hbs : as.mapM f with
      | error e =>
        rw [hb, hbs] at h
        cases h
      | ok bs' => exact List.forall_mem_cons.mpr ⟨⟨b, hb⟩, ih hbs⟩

end pairs
end Srvlog.Library
