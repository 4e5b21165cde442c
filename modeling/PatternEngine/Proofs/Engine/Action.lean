import PatternEngine.Engine.Basic
/-!
# Running actions

An action runs its steps one after the other, until one ends in a fault (`run_bind`). That is so
whatever the steps work on.
-/
namespace PatternEngine

variable {σ α β : Type}

namespace Action

section
variable {S : Type} (e e' : S) (x : α)

theorem run_bind (a : ExceptT Fault (StateM S) α) (f : α → ExceptT Fault (StateM S) β) (e : S) :
    (a >>= f).run e = match a.run e with
      | (.ok x, e) => (f x).run e
      | (.error fault, e) => (.error fault, e) := by
  simp only [bind, ExceptT.run, ExceptT.bind, ExceptT.mk, StateT.bind]
  cases a e with
  | mk r e' => cases r <;> rfl

@[simp] theorem run_pure : (pure x : ExceptT Fault (StateM S) α).run e = (.ok x, e) := rfl

@[simp] theorem run_throw (fault : Fault) :
    (throw fault : ExceptT Fault (StateM S) α).run e = (.error fault, e) := rfl

@[simp] theorem run_get : (get : ExceptT Fault (StateM S) S).run e = (.ok e, e) := rfl

@[simp] theorem run_set : (set e' : ExceptT Fault (StateM S) PUnit).run e = (.ok ⟨⟩, e') := rfl

@[simp] theorem run_modify (f : S → S) :
    (modify f : ExceptT Fault (StateM S) PUnit).run e = (.ok ⟨⟩, f e) := rfl

end

theorem bind_eq_ok {r : Except Fault α} {f : α → Except Fault β} {y : β} :
    (r >>= f) = .ok y ↔ ∃ x, r = .ok x ∧ f x = .ok y := by
  cases r <;> simp [bind, Except.bind]

theorem run_bind_ok {a : Action σ α} {f : α → Action σ β} {e e' : Engine σ} {x : α}
    (h : a.run e = (.ok x, e')) : (a >>= f).run e = (f x).run e' := by
  rw [run_bind, h]

/-- An action ends without a fault. -/
def Succeeds (a : Action σ α) (e : Engine σ) : Prop := ∃ x e', a.run e = (.ok x, e')

theorem run_bind_eq_ok {a : Action σ α} {f : α → Action σ β} {e e' : Engine σ} {y : β} :
    (a >>= f).run e = (.ok y, e') ↔
      ∃ x e₁, a.run e = (.ok x, e₁) ∧ (f x).run e₁ = (.ok y, e') := by
  rw [run_bind]
  constructor
  · intro h
    split at h
    · rename_i x e₁ ha
      exact ⟨x, e₁, ha, h⟩
    · cases h
  · rintro ⟨x, e₁, ha, h⟩
    rw [ha]
    exact h

theorem run_bind_eq_error {a : Action σ α} {f : α → Action σ β} {e e' : Engine σ} {fault : Fault} :
    (a >>= f).run e = (.error fault, e') ↔ a.run e = (.error fault, e') ∨
      ∃ x e₁, a.run e = (.ok x, e₁) ∧ (f x).run e₁ = (.error fault, e') := by
  rw [run_bind]
  constructor
  · intro h
    split at h
    · rename_i x e₁ ha
      exact .inr ⟨x, e₁, ha, h⟩
    · rename_i ha
      cases h
      exact .inl ha
  · rintro (ha | ⟨x, e₁, ha, h⟩)
    · rw [ha]
    · rw [ha]
      exact h

theorem succeeds_bind {a : Action σ α} {f : α → Action σ β} {e : Engine σ} :
    Succeeds (a >>= f) e ↔ ∃ x e₁, a.run e = (.ok x, e₁) ∧ Succeeds (f x) e₁ := by
  constructor
  · rintro ⟨y, e', h⟩
    obtain ⟨x, e₁, ha, hf⟩ := run_bind_eq_ok.1 h
    exact ⟨x, e₁, ha, y, e', hf⟩
  · rintro ⟨x, e₁, ha, y, e', hf⟩
    exact ⟨y, e', run_bind_eq_ok.2 ⟨x, e₁, ha, hf⟩⟩

theorem succeeds_get {f : Engine σ → Action σ β} {e : Engine σ} :
    Succeeds (get >>= f) e ↔ Succeeds (f e) e := by
  unfold Succeeds
  rw [run_bind_ok (run_get e)]

theorem succeeds_pure (x : α) (e : Engine σ) : Succeeds (pure x : Action σ α) e := ⟨x, e, rfl⟩

theorem not_succeeds_violation (call : String) (detail : Bytes) (e : Engine σ) :
    ¬Succeeds (Engine.violation call detail : Action σ α) e := by
  rintro ⟨x, e', h⟩
  cases h

end Action

end PatternEngine
