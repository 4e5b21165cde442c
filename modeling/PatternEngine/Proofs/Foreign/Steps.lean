import PatternEngine.ForeignCall
import PatternEngine.Proofs.Engine.Action
/-!
# Steps of foreign calls

Asking the engine changes the engine, writing changes the cells, and the other steps of a foreign
call change nothing.
-/
namespace PatternEngine.ForeignCall

open PatternEngine.Action

variable {σ γ α β : Type} (s : Scene σ γ)

@[simp] theorem run_lift (r : Except Fault α) :
    (liftM r : Step σ γ α).run s = (r, s) := by
  cases r <;> rfl

@[simp] theorem run_write (put : γ → γ) :
    (write put : Step σ γ Unit).run s = (.ok (), { s with cells := put s.cells }) := rfl

@[simp] theorem run_ask (action : FileSystem → Action σ α) :
    (ask action : Step σ γ α).run s =
      (((action s.world.files).run s.engine).1,
        { s with engine := ((action s.world.files).run s.engine).2 }) := rfl

@[simp] theorem run_need (cell : γ → Cell α) (call name : String) :
    (need cell call name : Step σ γ α).run s = match cell s.cells with
      | some value => (.ok value, s)
      | none => (.error (nullArgument call name), s) := by
  unfold need
  rw [run_bind, run_get]
  dsimp only
  cases cell s.cells <;> rfl

theorem guarded_some (step : Step σ γ Unit) (cells : γ) (world : World) (e : Engine σ) :
    guarded step cells world (some e) = match step.run ⟨cells, world, e⟩ with
      | (.ok (), s) => ⟨success, s.cells, s.world, some s.engine⟩
      | (.error fault, s) => ⟨status fault, s.cells, s.world, some s.engine⟩ := rfl

/-! ## Writing -/

variable {step : Step σ γ Unit} {f : α → Step σ γ Unit} {filled : Engine σ → γ → Except Fault γ}

/-- A step ends in a fault and changes nothing, or it changes the cells and ends well. -/
def Fills (step : Step σ γ Unit) (filled : Engine σ → γ → Except Fault γ) : Prop :=
  ∀ s, step.run s = match filled s.engine s.cells with
    | .ok cells => (.ok (), { s with cells })
    | .error fault => (.error fault, s)

theorem fills_write (put : γ → γ) :
    Fills (write put : Step σ γ Unit) fun _ cells => .ok (put cells) := fun _ => rfl

/-- Nothing can go wrong between two writes. -/
theorem fills_write_bind {put put' : γ → γ}
    (h : Fills step fun _ cells => .ok (put' cells)) :
    Fills (do write put; step) fun _ cells => .ok (put' (put cells)) := by
  intro s
  rw [run_bind, run_write]
  exact h _

theorem fills_pure : Fills (pure () : Step σ γ Unit) fun _ cells => .ok cells := fun _ => rfl

/-- What can go wrong is done before the first write. -/
theorem fills_lift {r : Except Fault α} {filled : α → Engine σ → γ → Except Fault γ}
    (h : ∀ x, Fills (f x) (filled x)) :
    Fills (liftM r >>= f) fun e cells => r.bind fun x => filled x e cells := by
  intro s
  rw [run_bind, run_lift]
  cases r with
  | error fault => rfl
  | ok x => exact h x s

/-- What is written may depend on the engine. -/
theorem fills_get {r : Engine σ → Except Fault α} {filled : α → Engine σ → γ → Except Fault γ}
    (h : ∀ x, Fills (f x) (filled x)) :
    Fills (do let x ← r (← get).engine; f x) fun e cells =>
      (r e).bind fun x => filled x e cells := by
  intro s
  rw [run_bind, run_get]
  exact fills_lift h s

end PatternEngine.ForeignCall
