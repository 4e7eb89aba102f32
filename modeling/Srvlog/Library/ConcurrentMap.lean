import Mathlib.Data.List.AList
import Mathlib.Data.List.Perm.Basic

/-! Maps whose entries are visited in an unspecified order. -/
namespace Srvlog.Library

universe u
variable {K : Type u} {V β : Type} [DecidableEq K]

abbrev ConcurrentMap (K : Type u) (V : Type) := AList (fun _ : K => V)

/-- Some order in which the entries of a map are visited. -/
structure VisitOrder (K : Type u) where
  visit : {V : Type} → ConcurrentMap K V → List (Sigma fun _ : K => V)
  perm : ∀ {V : Type} (m : ConcurrentMap K V), (visit m).Perm m.entries

def VisitOrder.stored : VisitOrder K := ⟨fun m => m.entries, fun _ => .refl _⟩
def VisitOrder.reversed : VisitOrder K := ⟨fun m => m.entries.reverse, fun m => m.entries.reverse_perm⟩

section lookups
variable {p : Sigma (fun _ : K => V) → Bool}

private theorem filter_key (m : ConcurrentMap K V) {k : K} (hp : ∀ e, p e = true ↔ e.1 = k) :
    m.entries.filter p = (m.lookup k).toList.map fun v => ⟨k, v⟩ := by
  cases hk : m.lookup k with
  | none =>
    rw [Option.toList_none, List.map_nil, List.filter_eq_nil_iff]
    intro e he hek
    rw [AList.lookup_eq_none] at hk
    exact hk ((hp e).mp hek ▸ List.mem_map_of_mem he)
  | some v =>
    have hv : (⟨k, v⟩ : Sigma fun _ : K => V) ∈ m.entries := AList.mem_lookup_iff.mp hk
    apply List.perm_singleton.mp
    refine (List.perm_ext_iff_of_nodup (m.nodupKeys.nodup.filter _) (List.nodup_singleton _)).mpr fun e => ?_
    rw [List.mem_filter, List.mem_singleton, hp]
    constructor
    · rintro ⟨he, hek⟩
      exact m.nodupKeys.eq_of_fst_eq he hv hek
    · rintro rfl
      exact ⟨hv, rfl⟩

/-- Visiting the entries with one key is looking it up, in whatever order. -/
theorem visit_filter_key (order : VisitOrder K) (m : ConcurrentMap K V) {k : K}
    (hp : ∀ e, p e = true ↔ e.1 = k) :
    (order.visit m).filter p = (m.lookup k).toList.map fun v => ⟨k, v⟩ := by
  have hperm := (order.perm m).filter p
  rw [filter_key m hp] at hperm
  cases hk : m.lookup k with
  | none =>
    rw [hk] at hperm
    exact List.perm_nil.mp hperm
  | some v =>
    rw [hk] at hperm
    exact List.perm_singleton.mp hperm

/-- Visiting the entries whose key is in a list without repetitions amounts, up to the
order, to looking up the keys of the list one after the other. -/
theorem visit_filter_perm (order : VisitOrder K) (m : ConcurrentMap K V) {ks : List K} (hks : ks.Nodup)
    (hp : ∀ e, p e = true ↔ e.1 ∈ ks) (f : Sigma (fun _ : K => V) → List β) :
    (((order.visit m).filter p).flatMap f).Perm
      (ks.flatMap fun k => (m.lookup k).toList.flatMap fun v => f ⟨k, v⟩) := by
  refine (((order.perm m).filter p).flatMap_right f).trans ?_
  induction ks generalizing p with
  | nil =>
    have hnil : m.entries.filter p = [] := List.filter_eq_nil_iff.mpr fun e _ he => by simpa using (hp e).mp he
    rw [hnil]
    exact .nil
  | cons k ks ih =>
    obtain ⟨hk, hks⟩ := List.nodup_cons.mp hks
    have hhead (e : Sigma fun _ : K => V) : (decide (e.1 = k) && p e) = true ↔ e.1 = k := by
      rw [Bool.and_eq_true, hp, decide_eq_true_eq, List.mem_cons]
      tauto
    have htail (e : Sigma fun _ : K => V) : (!decide (e.1 = k) && p e) = true ↔ e.1 ∈ ks := by
      rw [Bool.and_eq_true, hp, Bool.not_eq_true', decide_eq_false_iff_not, List.mem_cons]
      constructor
      · rintro ⟨hne, he⟩
        exact he.resolve_left hne
      · intro he
        exact ⟨fun h => hk (h ▸ he), .inr he⟩
    have hsplit := List.filter_append_perm (fun e => decide (e.1 = k)) (m.entries.filter p)
    rw [List.filter_filter, List.filter_filter, filter_key m hhead] at hsplit
    refine (hsplit.symm.flatMap_right f).trans ?_
    rw [List.flatMap_append, List.flatMap_cons, List.flatMap_map]
    exact (ih hks htail).append_left _

end lookups
end Srvlog.Library
