import PatternEngine.Engine.Compile
import PatternEngine.Engine.Load
import PatternEngine.Engine.Match
import PatternEngine.Engine.Trace
import PatternEngine.Proofs.Engine.Action
/-!
# What a fault leaves alone

Whatever a module does, a call into it changes nothing of an engine but the state of the module
(`Quiet`). Operations check what came back before they keep any of it, so that after a fault
everything that the engine itself keeps is as it was (`Atomic`).
-/
namespace PatternEngine.Engine

open PatternEngine.Action

variable {σ α β : Type} {a : Action σ α} {f : α → Action σ β} {files : FileSystem}

/-- An engine has changed in nothing but the state of its module. -/
structure Spared (e e' : Engine σ) : Prop where
  slots : e'.slots = e.slots
  patterns : e'.patterns = e.patterns
  limit : e'.limit = e.limit
  previousScripted : e'.previousScripted = e.previousScripted
  nativeResult : e'.nativeResult = e.nativeResult

theorem Spared.refl (e : Engine σ) : Spared e e := ⟨rfl, rfl, rfl, rfl, rfl⟩

theorem Spared.trans {e₁ e₂ e₃ : Engine σ} (h₁ : Spared e₁ e₂) (h₂ : Spared e₂ e₃) :
    Spared e₁ e₃ :=
  ⟨h₂.slots.trans h₁.slots, h₂.patterns.trans h₁.patterns, h₂.limit.trans h₁.limit,
    h₂.previousScripted.trans h₁.previousScripted, h₂.nativeResult.trans h₁.nativeResult⟩

/-- An action that changes nothing but the state of the module. -/
def Quiet (a : Action σ α) : Prop := ∀ e, Spared e (a.run e).2

/-- An action that has changed nothing but the state of the module when it ends in a fault. -/
def Atomic (a : Action σ α) : Prop := ∀ e fault e', a.run e = (.error fault, e') → Spared e e'

theorem Quiet.spared (h : Quiet a) {e e' : Engine σ} {r : Except Fault α}
    (hr : a.run e = (r, e')) : Spared e e' := by
  have hs := h e
  rw [hr] at hs
  exact hs

theorem Quiet.atomic (h : Quiet a) : Atomic a := fun _ _ _ hr => h.spared hr

theorem Quiet.bind (ha : Quiet a) (hf : ∀ x, Quiet (f x)) : Quiet (a >>= f) := by
  intro e
  have hs := ha e
  rw [run_bind]
  split <;> rename_i hr <;> rw [hr] at hs
  · exact hs.trans (hf _ _)
  · exact hs

/-- What comes before the last check must be quiet. -/
theorem Atomic.bind (ha : Quiet a) (hf : ∀ x, Atomic (f x)) : Atomic (a >>= f) := by
  intro e fault e' h
  rcases run_bind_eq_error.1 h with h | ⟨x, e₁, hx, h⟩
  · exact ha.spared h
  · exact (ha.spared hx).trans (hf x e₁ fault e' h)

theorem quiet_pure (x : α) : Quiet (pure x : Action σ α) := fun e => .refl e

theorem quiet_get : Quiet (get : Action σ (Engine σ)) := fun e => .refl e

theorem quiet_throw (fault : Fault) : Quiet (throw fault : Action σ α) := fun e => .refl e

theorem quiet_violation (call : String) (detail : Bytes) :
    Quiet (violation call detail : Action σ α) := quiet_throw _

/-! ## Calls into the module -/

theorem quiet_call (entry : EntryPoint σ) (name : String) (files : FileSystem)
    (arguments : List Value) : Quiet (call entry name files arguments) := by
  intro e
  unfold call
  rw [run_bind_ok (run_get e)]
  rcases entry files arguments e.state with ⟨_ | _, state⟩ <;> exact ⟨rfl, rfl, rfl, rfl, rfl⟩

theorem quiet_callMethod (method : Methods σ → Option (EntryPoint σ)) (name : String)
    (files : FileSystem) (arguments : List Value) :
    Quiet (callMethod method name files arguments) := by
  refine quiet_get.bind fun engine => ?_
  split
  · exact quiet_call _ _ _ _
  · exact quiet_throw _

theorem quiet_marshal (v : Value) : Quiet (marshal files v : Action σ _) := by
  unfold marshal
  split
  · exact quiet_pure _
  · refine quiet_get.bind fun engine => (quiet_call _ _ _ _).bind fun values => ?_
    split
    · split
      · exact quiet_pure _
      · exact quiet_violation _ _
    · exact quiet_violation _ _

theorem quiet_strip (v : Value) : Quiet (strip files v : Action σ _) := by
  unfold strip
  split
  · exact quiet_pure _
  · refine quiet_get.bind fun engine => (quiet_call _ _ _ _).bind fun values => ?_
    split
    · split
      · exact quiet_pure _
      · exact quiet_violation _ _
    · exact quiet_violation _ _

theorem quiet_collectorCall (option : String) : Quiet (collectorCall files option : Action σ _) :=
  quiet_get.bind fun _ => quiet_call _ _ _ _

theorem quiet_collect : Quiet (collect files : Action σ _) :=
  (quiet_collectorCall _).bind fun _ => quiet_pure _

theorem quiet_usage : Quiet (usage files : Action σ _) := by
  refine (quiet_collectorCall _).bind fun values => ?_
  split
  · exact quiet_pure _
  · exact quiet_violation _ _

/-- A check of the memory in use changes nothing, whether it ends in a fault or not. -/
theorem quiet_govern : Quiet (govern files : Action σ _) := by
  refine quiet_get.bind fun engine => ?_
  dsimp only
  split
  · exact quiet_pure _
  · refine quiet_usage.bind fun kilobytes => ?_
    split
    · exact quiet_collect
    · exact quiet_pure _

/-! ## Operations -/

theorem keep_run (pattern : Value) (diagnostics : Option Bytes) {e : Engine σ} :
    (keep pattern diagnostics).run e = match e.patterns.insert pattern with
      | some (handle, patterns) => (.ok ⟨handle, diagnostics⟩, { e with patterns })
      | none => (.error .handlesExhausted, e) := by
  unfold keep
  rw [run_bind_ok (run_get e)]
  rcases e.patterns.insert pattern with _ | ⟨handle, patterns⟩ <;> rfl

theorem freePattern_run (handle : Handle) {e : Engine σ} :
    (freePattern handle).run e = match e.patterns.remove handle with
      | some (_, patterns) => (.ok true, { e with patterns })
      | none => (.ok false, e) := by
  unfold freePattern
  rw [run_bind_ok (run_get e)]
  rcases e.patterns.remove handle with _ | ⟨value, patterns⟩ <;> rfl

theorem atomic_keep (pattern : Value) (diagnostics : Option Bytes) :
    Atomic (keep pattern diagnostics : Action σ _) := by
  refine .bind quiet_get fun engine => ?_
  split
  · intro e fault e' h
    cases h
  · exact (quiet_throw _).atomic

theorem atomic_compile (expression : Bytes) : Atomic (compile files expression : Action σ _) := by
  refine .bind (quiet_callMethod _ _ _ _) fun values => ?_
  split
  · refine .bind (quiet_marshal _) fun diagnostics => ?_
    split
    · exact (quiet_pure _).atomic
    · exact atomic_keep _ _
    · exact (quiet_violation _ _).atomic
  · exact (quiet_violation _ _).atomic

theorem quiet_integer (what : String) (v : Value) : Quiet (integer what v : Action σ _) := by
  unfold integer
  split
  · exact quiet_pure _
  · exact quiet_violation _ _

theorem atomic_keepResult (result : Value) : Atomic (keepResult result : Action σ _) := by
  intro e fault e' h
  unfold keepResult at h
  split at h
  · cases h
  · cases h
  · cases h
  · cases h
    exact .refl e

theorem atomic_decode (values : List Value) : Atomic (decode values : Action σ _) := by
  unfold decode
  split
  · refine .bind (quiet_integer _ _) fun leftover => ?_
    split
    · refine .bind (quiet_integer _ _) fun total => ?_
      refine .bind (quiet_integer _ _) fun time => ?_
      intro e fault e' h
      rcases run_bind_eq_error.1 h with h | ⟨data, e₁, -, h⟩
      · exact atomic_keepResult _ e fault e' h
      · cases h
    · exact (quiet_violation _ _).atomic
  · exact (quiet_violation _ _).atomic

theorem atomic_nativeMatch (pattern : Value) (start : Int) (encoder : BuiltinEncoder)
    (input : Bytes) : Atomic (nativeMatch pattern start encoder input : Action σ _) := by
  unfold nativeMatch
  split
  · intro e fault e' h
    cases h
  · exact (quiet_violation _ _).atomic

/-- A match gives up the result of the last match by an extension before it calls one, and changes
nothing else when it ends in a fault. -/
theorem matchInput_fault {handle : Handle} {start : Int} {encoder input : Bytes} {e e' : Engine σ}
    {fault : Fault} (h : (matchInput files handle start encoder input).run e = (.error fault, e')) :
    Spared e e' ∨ Spared { e with previousScripted := none } e' := by
  rcases run_bind_eq_error.1 h with h | ⟨_, e₁, hgovern, h⟩
  · exact .inl (quiet_govern.spared h)
  · have hspared : Spared e e₁ := quiet_govern.spared hgovern
    unfold dispatch at h
    rw [run_bind_ok (run_get e₁)] at h
    split at h
    · cases h
    · split at h
      · exact .inl (hspared.trans (atomic_nativeMatch _ _ _ _ e₁ fault e' h))
      · split at h
        · unfold scriptedMatch at h
          rw [run_bind_ok (run_modify e₁ _)] at h
          have hcleared : Spared { e with previousScripted := none }
              { e₁ with previousScripted := none } :=
            ⟨hspared.slots, hspared.patterns, hspared.limit, rfl, hspared.nativeResult⟩
          have hatomic : Spared { e₁ with previousScripted := none } e' :=
            Atomic.bind (quiet_callMethod _ _ _ _) (fun values => atomic_decode values)
              _ fault e' h
          exact .inr (hcleared.trans hatomic)
        · cases h

theorem quiet_flag (what : String) (v : Value) : Quiet (flag what v : Action σ _) := by
  unfold flag
  split
  · exact quiet_pure _
  · exact quiet_violation _ _

theorem quiet_traceBytes (v : Value) : Quiet (traceBytes files v : Action σ _) := by
  unfold traceBytes
  dsimp only
  split
  · refine (quiet_marshal _).bind fun document => ?_
    split
    · exact quiet_pure _
    · exact quiet_violation _ _
  · rw [pure_bind]
    split
    · exact quiet_pure _
    · exact quiet_violation _ _

theorem quiet_trace (handle : Handle) (start : Int) (style input : Bytes) :
    Quiet (trace files handle start style input : Action σ _) := by
  refine quiet_govern.bind fun _ => quiet_get.bind fun engine => ?_
  split
  · exact quiet_pure _
  · refine (quiet_callMethod _ _ _ _).bind fun values => ?_
    split
    · refine (quiet_flag _ _).bind fun known => ?_
      split
      · refine (quiet_flag _ _).bind fun matched => ?_
        exact (quiet_traceBytes _).bind fun bytes => quiet_pure _
      · exact quiet_pure _
    · exact quiet_violation _ _

theorem quiet_decodeLoad (name : String) (values : List Value) :
    Quiet (decodeLoad files name values : Action σ _) := by
  have hrest : ∀ (ok : Bool) (messages : Value) (package : Option Bytes), Quiet (do
      let stripped ← strip files messages
      return ⟨ok, package, ← marshal files stripped⟩ : Action σ LoadOutcome) :=
    fun ok messages package => (quiet_strip _).bind fun stripped =>
      (quiet_marshal _).bind fun diagnostics => quiet_pure _
  unfold decodeLoad
  split
  · split
    · dsimp only
      split
      · exact (quiet_pure _).bind (hrest _ _)
      · exact (quiet_pure _).bind (hrest _ _)
      · exact (quiet_violation _ _).bind (hrest _ _)
    · exact quiet_violation _ _
  · exact quiet_violation _ _

/-- Loading and importing change nothing but the state of the module, whatever they end in. -/
theorem quiet_load (source : Bytes) : Quiet (load files source : Action σ _) :=
  (quiet_callMethod _ _ _ _).bind fun _ => quiet_decodeLoad _ _

theorem quiet_loadFile (path : Bytes) : Quiet (loadFile files path : Action σ _) :=
  (quiet_callMethod _ _ _ _).bind fun _ => quiet_decodeLoad _ _

theorem quiet_importPackage (package : Bytes) (under : Option Bytes) :
    Quiet (importPackage files package under : Action σ _) :=
  (quiet_callMethod _ _ _ _).bind fun _ => quiet_decodeLoad _ _

end PatternEngine.Engine
