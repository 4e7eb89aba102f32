import Srvlog.Library.Text

/-! Computations on a state that keep their changes when they fail, and transactions
around them. -/
namespace Srvlog.Library

/-- A failure leaves the state as it is when it happens. -/
abbrev Action (σ ε α : Type) := ExceptT ε (StateM σ) α

section loops
variable {σ ε α β : Type}

/-- A computation that does not use the state. -/
def ofResult (result : Except ε α) : Action σ ε α := fun s => (result, s)

theorem bind_of_ok {act : Action σ ε α} {next : α → Action σ ε β} {s s' : σ} {a : α} (h : act s = (.ok a, s')) :
    (act >>= next) s = next a s' := by
  change ExceptT.bindCont (m := StateM σ) next (act s).1 (act s).2 = _
  rw [h]
  rfl

theorem bind_of_error {act : Action σ ε α} {next : α → Action σ ε β} {s s' : σ} {e : ε}
    (h : act s = (.error e, s')) : (act >>= next) s = (.error e, s') := by
  change ExceptT.bindCont (m := StateM σ) next (act s).1 (act s).2 = _
  rw [h]
  rfl

/-- What is done with the result leaves the state alone. -/
theorem bind_pure_state {act : Action σ ε α} {f : α → β} {s : σ} : ((act >>= fun a => pure (f a)) s).2 = (act s).2 := by
  rcases hact : act s with ⟨e | a, s'⟩
  · rw [bind_of_error hact]
  · rw [bind_of_ok hact]
    rfl

theorem bind_pure_isOk {act : Action σ ε α} {f : α → β} {s : σ} :
    ((act >>= fun a => pure (f a)) s).1.isOk = (act s).1.isOk := by
  rcases hact : act s with ⟨e | a, s'⟩
  · rw [bind_of_error hact]
    rfl
  · rw [bind_of_ok hact]
    rfl

theorem bind_eq_ok {act : Action σ ε α} {next : α → Action σ ε β} {s s'' : σ} {b : β}
    (h : (act >>= next) s = (.ok b, s'')) : ∃ a s', act s = (.ok a, s') ∧ next a s' = (.ok b, s'') := by
  rcases hact : act s with ⟨e | a, s'⟩
  · rw [bind_of_error hact] at h
    cases h
  · rw [bind_of_ok hact] at h
    exact ⟨a, s', rfl, h⟩

theorem ofResult_eq_ok {result : Except ε α} {s s' : σ} {a : α} (h : ofResult result s = (.ok a, s')) :
    result = .ok a ∧ s' = s := by
  obtain ⟨hresult, hstate⟩ := Prod.mk.inj h
  exact ⟨hresult, hstate.symm⟩

/-- The computation keeps what holds of the state, whether it fails or not. -/
def Keeps (I : σ → Prop) (act : Action σ ε α) : Prop := ∀ s, I s → I (act s).2

theorem Keeps.bind {I : σ → Prop} {act : Action σ ε α} {next : α → Action σ ε β} (hact : Keeps I act)
    (hnext : ∀ a, Keeps I (next a)) : Keeps I (act >>= next) := by
  intro s hs
  have hafter := hact s hs
  rcases h : act s with ⟨e | a, s'⟩
  · rw [bind_of_error h]
    rwa [h] at hafter
  · rw [bind_of_ok h]
    rw [h] at hafter
    exact hnext a s' hafter

/-- What the next computation may rely on when it begins. -/
theorem Keeps.bind_ofResult {I : σ → Prop} {result : Except ε α} {next : α → Action σ ε β}
    (h : ∀ a, result = .ok a → Keeps I (next a)) : Keeps I (ofResult result >>= next) := by
  intro s hs
  cases result with
  | error e =>
    rw [bind_of_error (rfl : ofResult (.error e) s = (.error e, s))]
    exact hs
  | ok a =>
    rw [bind_of_ok (rfl : ofResult (.ok a) s = (.ok a, s))]
    exact h a rfl s hs

theorem tryCatch_of_ok {act : Action σ ε α} {handler : ε → Action σ ε α} {s s' : σ} {a : α}
    (h : act s = (.ok a, s')) : tryCatch act handler s = (.ok a, s') := by
  change (match (act s).1 with | .ok a => pure (.ok a) | .error e => handler e : StateM σ (Except ε α)) (act s).2 = _
  rw [h]
  rfl

theorem tryCatch_of_error {act : Action σ ε α} {handler : ε → Action σ ε α} {s s' : σ} {e : ε}
    (h : act s = (.error e, s')) : tryCatch act handler s = handler e s' := by
  change (match (act s).1 with | .ok a => pure (.ok a) | .error e => handler e : StateM σ (Except ε α)) (act s).2 = _
  rw [h]

/-- When a computation either fails or adds one item, a loop of it either fails or adds them all in order. -/
theorem forM_cases {act : α → Action σ ε PUnit} {added : σ → List β} {item : α → Option β}
    (hact : ∀ a s, (∃ e s', act a s = (.error e, s')) ∨
      ∃ s' b, act a s = (.ok ⟨⟩, s') ∧ item a = some b ∧ added s' = added s ++ [b]) (as : List α) (s : σ) :
    (∃ e s', as.forM act s = (.error e, s')) ∨
      ∃ s' bs, as.forM act s = (.ok ⟨⟩, s') ∧ as.map item = bs.map some ∧ added s' = added s ++ bs := by
  induction as generalizing s with
  | nil => exact .inr ⟨s, [], rfl, rfl, (List.append_nil _).symm⟩
  | cons a as ih =>
    rcases hact a s with ⟨e, s', h⟩ | ⟨s', b, h, hitem, hadded⟩
    · exact .inl ⟨e, s', bind_of_error h⟩
    have hcons : (a :: as).forM act s = as.forM act s' := bind_of_ok h
    rw [hcons]
    rcases ih s' with hfail | ⟨s'', bs, hrest, hitems, hall⟩
    · exact .inl hfail
    · refine .inr ⟨s'', b :: bs, hrest, ?_, ?_⟩
      · rw [List.map_cons, List.map_cons, hitem, hitems]
      · rw [hall, hadded, List.append_assoc, List.singleton_append]

end loops

/-- What surrounds a computation keeps the durable part of the state unless the
computation succeeds. The commit itself may fail as well. -/
structure TransactionManager (σ ε : Type) {δ : Type} (durable : σ → δ) where
  required {α : Type} : Action σ ε α → Action σ ε α
  commits {α : Type} {body : Action σ ε α} {s s' : σ} {a : α} : body s = (.ok a, s') →
    required body s = (.ok a, s') ∨ ∃ e s'', required body s = (.error e, s'') ∧ durable s'' = durable s
  rollsBack {α : Type} {body : Action σ ε α} {s s' : σ} {e : ε} : body s = (.error e, s') →
    ∃ e' s'', required body s = (.error e', s'') ∧ durable s'' = durable s

/-- A transaction happens as a whole or not at all. -/
theorem TransactionManager.required_cases {σ ε δ α : Type} {durable : σ → δ} (manager : TransactionManager σ ε durable)
    (body : Action σ ε α) (s : σ) :
    (∃ a s', body s = (.ok a, s') ∧ manager.required body s = (.ok a, s')) ∨
      ∃ e s', manager.required body s = (.error e, s') ∧ durable s' = durable s := by
  rcases h : body s with ⟨a | a, s'⟩
  · exact .inr (manager.rollsBack h)
  · rcases manager.commits h with hdone | hfailed
    · exact .inl ⟨a, s', rfl, hdone⟩
    · exact .inr hfailed

end Srvlog.Library
