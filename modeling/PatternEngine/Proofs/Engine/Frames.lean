import PatternEngine.Proofs.Engine.Atomic
import PatternEngine.Proofs.Engine.Calls
import PatternEngine.Proofs.Engine.Handles
/-!
# What calls leave alone

Whatever a module does, a call changes in an engine what the call is there for. The patterns are
changed by compiling and freeing only (`after_patterns`), and all the while their handles are given
out in good order (`exact_of_after`).
-/
namespace PatternEngine

open PatternEngine.Action

namespace Engine

variable {σ α β : Type} {a : Action σ α} {f : α → Action σ β} {files : FileSystem}
  {e e₁ e₂ e₃ : Engine σ}

/-- An engine has the same patterns and the same limit as before. -/
structure Steady (e e' : Engine σ) : Prop where
  patterns : e'.patterns = e.patterns
  limit : e'.limit = e.limit

theorem Steady.refl (e : Engine σ) : Steady e e := ⟨rfl, rfl⟩

theorem Steady.trans (h₁ : Steady e₁ e₂) (h₂ : Steady e₂ e₃) : Steady e₁ e₃ :=
  ⟨h₂.patterns.trans h₁.patterns, h₂.limit.trans h₁.limit⟩

theorem Spared.steady (h : Spared e₁ e₂) : Steady e₁ e₂ := ⟨h.patterns, h.limit⟩

/-- An action that changes the state of the module and the results of matches at most. -/
def Matches (a : Action σ α) : Prop := ∀ e, Steady e (a.run e).2

theorem Quiet.matches (h : Quiet a) : Matches a := fun e => (h e).steady

theorem Matches.bind (ha : Matches a) (hf : ∀ x, Matches (f x)) : Matches (a >>= f) := by
  intro e
  have hs := ha e
  rw [run_bind]
  split <;> rename_i hr <;> rw [hr] at hs
  · exact hs.trans (hf _ _)
  · exact hs

/-! ## Reports -/

theorem quiet_queryLimit : Quiet (queryLimit files : Action σ _) :=
  quiet_get.bind fun _ => quiet_usage.bind fun _ => quiet_pure _

theorem quiet_setSearchPath (path : Bytes) : Quiet (setSearchPath files path : Action σ _) :=
  (quiet_callMethod _ _ _ _).bind fun _ => quiet_pure _

theorem quiet_searchPath : Quiet (searchPath files : Action σ _) := by
  refine (quiet_callMethod _ _ _ _).bind fun values => ?_
  split
  · exact quiet_pure _
  · exact quiet_violation _ _

theorem quiet_config : Quiet (config files : Action σ _) := by
  refine quiet_get.bind fun engine => ?_
  split
  · exact quiet_throw _
  · refine (quiet_call _ _ _ _).bind fun values => ?_
    split
    · exact quiet_marshal _
    · exact quiet_violation _ _

/-! ## Operations that change one thing -/

/-- What holds between two engines when only the state of the module differs, and also when that is
so up to some point and it holds from there on. -/
structure Follows (R : Engine σ → Engine σ → Prop) : Prop where
  spared : ∀ {e e'}, Spared e e' → R e e'
  trans : ∀ {e₁ e₂ e₃}, Spared e₁ e₂ → R e₂ e₃ → R e₁ e₃

theorem Quiet.followed {R : Engine σ → Engine σ → Prop} (hR : Follows R) (ha : Quiet a)
    (hf : ∀ x e, R e ((f x).run e).2) (e : Engine σ) : R e ((a >>= f).run e).2 := by
  have hs := ha e
  rw [run_bind]
  split <;> rename_i hr <;> rw [hr] at hs
  · exact hR.trans hs (hf _ _)
  · exact hR.spared hs

/-- An engine has changed in its limit at most. -/
def Limited (e e' : Engine σ) : Prop := Spared { e with limit := e'.limit } e'

theorem follows_limited : Follows (Limited (σ := σ)) where
  spared h := ⟨h.slots, h.patterns, rfl, h.previousScripted, h.nativeResult⟩
  trans h₁ h₂ := ⟨h₂.slots.trans h₁.slots, h₂.patterns.trans h₁.patterns, rfl,
    h₂.previousScripted.trans h₁.previousScripted, h₂.nativeResult.trans h₁.nativeResult⟩

theorem setLimit_limited (files : FileSystem) (megabytes : Nat) :
    ∀ e : Engine σ, Limited e ((setLimit files megabytes).run e).2 := by
  have hset : ∀ (limit : MemoryLimit) (u : Usage) (e : Engine σ), Limited e
      ((do modify fun engine => { engine with limit }; return u : Action σ Usage).run e).2 :=
    fun limit u e => ⟨rfl, rfl, rfl, rfl, rfl⟩
  unfold setLimit
  dsimp only
  split
  · exact fun e => follows_limited.spared (.refl e)
  · exact quiet_collect.followed follows_limited fun _ =>
      quiet_collect.followed follows_limited fun _ =>
        quiet_usage.followed follows_limited fun kilobytes => hset _ _

/-- An engine has changed in its patterns at most, and there is at most one more of them. -/
structure Kept (e e' : Engine σ) : Prop where
  spared : Spared { e with patterns := e'.patterns } e'
  patterns : e'.patterns = e.patterns ∨
    ∃ v handle, e.patterns.insert v = some (handle, e'.patterns)

theorem follows_kept : Follows (Kept (σ := σ)) where
  spared h := ⟨⟨h.slots, rfl, h.limit, h.previousScripted, h.nativeResult⟩, .inl h.patterns⟩
  trans h₁ h₂ := by
    refine ⟨⟨h₂.spared.slots.trans h₁.slots, rfl, h₂.spared.limit.trans h₁.limit,
      h₂.spared.previousScripted.trans h₁.previousScripted,
      h₂.spared.nativeResult.trans h₁.nativeResult⟩, ?_⟩
    rw [← h₁.patterns]
    exact h₂.patterns

theorem keep_kept (pattern : Value) (diagnostics : Option Bytes) (e : Engine σ) :
    Kept e ((keep pattern diagnostics).run e).2 := by
  rw [keep_run]
  split
  · rename_i handle patterns hi
    exact ⟨⟨rfl, rfl, rfl, rfl, rfl⟩, .inr ⟨pattern, handle, hi⟩⟩
  · exact follows_kept.spared (.refl e)

theorem compile_kept (files : FileSystem) (expression : Bytes) :
    ∀ e : Engine σ, Kept e ((compile files expression).run e).2 := by
  refine (quiet_callMethod _ _ _ _).followed follows_kept fun values => ?_
  split
  · refine (quiet_marshal _).followed follows_kept fun diagnostics => ?_
    split
    · exact fun e => follows_kept.spared (.refl e)
    · exact keep_kept _ _
    · exact fun e => follows_kept.spared (.refl e)
  · exact fun e => follows_kept.spared (.refl e)

/-! ## Matches -/

theorem matches_keepResult (result : Value) : Matches (keepResult result : Action σ _) := by
  intro e
  unfold keepResult
  split <;> exact ⟨rfl, rfl⟩

theorem matches_decode (values : List Value) : Matches (decode values : Action σ _) := by
  unfold decode
  split
  · refine (quiet_integer _ _).matches.bind fun leftover => ?_
    split
    · refine (quiet_integer _ _).matches.bind fun total => ?_
      refine (quiet_integer _ _).matches.bind fun time => ?_
      exact (matches_keepResult _).bind fun data => (quiet_pure _).matches
    · exact (quiet_violation _ _).matches
  · exact (quiet_violation _ _).matches

theorem matches_nativeMatch (pattern : Value) (start : Int) (encoder : BuiltinEncoder)
    (input : Bytes) : Matches (nativeMatch pattern start encoder input : Action σ _) := by
  intro e
  unfold nativeMatch
  split <;> exact ⟨rfl, rfl⟩

theorem matches_scriptedMatch (pattern : Value) (start : Int) (encoder input : Bytes) :
    Matches (scriptedMatch files pattern start encoder input : Action σ _) := by
  have hcleared : Matches
      (modify fun engine => { engine with previousScripted := none } : Action σ PUnit) :=
    fun e => ⟨rfl, rfl⟩
  exact hcleared.bind fun _ => (quiet_callMethod _ _ _ _).matches.bind fun values =>
    matches_decode values

theorem matches_dispatch (handle : Handle) (start : Int) (encoder input : Bytes) :
    Matches (dispatch files handle start encoder input : Action σ _) := by
  refine quiet_get.matches.bind fun engine => ?_
  split
  · exact (quiet_pure _).matches
  · split
    · exact matches_nativeMatch _ _ _ _
    · split
      · exact matches_scriptedMatch _ _ _ _
      · exact (quiet_pure _).matches

theorem matches_matchInput (handle : Handle) (start : Int) (encoder input : Bytes) :
    Matches (matchInput files handle start encoder input : Action σ _) :=
  quiet_govern.matches.bind fun _ => matches_dispatch _ _ _ _

theorem matches_matchRecord (r : FileRequest) (number : Nat) (record : Bytes) :
    Matches (matchRecord files r number record : Action σ _) := by
  have hrest : ∀ _ : PUnit, Matches (do
      let outcome ← dispatch files r.pattern 1 r.encoder record
      return (← get).data outcome.data : Action σ _) := by
    intro _
    exact (matches_dispatch _ _ _ _).bind fun outcome =>
      quiet_get.matches.bind fun engine => (quiet_pure _).matches
  unfold matchRecord
  dsimp only
  split
  · exact quiet_govern.matches.bind hrest
  · exact hrest ⟨⟩

theorem matchRecords_steady (r : FileRequest) (records : List Bytes) :
    ∀ (tally : Tally) (e : Engine σ), Steady e (matchRecords files r tally records e).2 := by
  induction records with
  | nil => exact fun tally e => .refl e
  | cons record records ih =>
    intro tally e
    unfold matchRecords
    dsimp only
    have hrecord : Steady e ((matchRecord files r (tally.records + 1) record).run e).2 :=
      matches_matchRecord r (tally.records + 1) record e
    split <;> rename_i hr <;> rw [hr] at hrecord
    · exact hrecord.trans (ih _ _)
    · exact hrecord.trans (ih _ _)
    · exact hrecord

/-- The targets, the world and the input of a request once all its files are open, or else the
failure and the world that is left. -/
def opening (r : FileRequest) (world : World) :
    Except (FileOutcome × World) ((Target × Target) × World × Bytes) :=
  match inputError? world.files r.input with
  | some error => .error (fileFailure r.input error, world)
  | none =>
    match openTarget world.files r.output with
    | .error error => .error (fileFailure r.output error, world)
    | .ok (output, files) =>
      match openTarget files r.errors with
      | .error error => .error (fileFailure r.errors error, { world with files })
      | .ok (errors, files) =>
        match readInput { world with files } r.input with
        | .ok input => .ok ((output, errors), { world with files }, input)
        | .error error => .error (fileFailure r.input error, { world with files })

/-- The engine is asked for nothing before all files are open. -/
theorem processFile_eq (r : FileRequest) (world : World) (e : Engine σ) :
    processFile r world e =
      match opening r world with
      | .ok ((output, errors), opened, input) => matchInputFile r output errors opened input e
      | .error (outcome, left) => ((.ok outcome, left), e) := by
  unfold processFile opening
  cases inputError? world.files r.input with
  | some error => rfl
  | none =>
    cases openTarget world.files r.output with
    | error error => rfl
    | ok made =>
      obtain ⟨output, files⟩ := made
      dsimp only
      cases openTarget files r.errors with
      | error error => rfl
      | ok made =>
        obtain ⟨errors, files⟩ := made
        dsimp only
        cases readInput { world with files } r.input <;> rfl

theorem matchInputFile_engine (r : FileRequest) (output errors : Target) (world : World)
    (input : Bytes) (e : Engine σ) : (matchInputFile r output errors world input e).2 =
      (matchRecords world.files r {} (recordsOf r.wholeFile input) e).2 := by
  unfold matchInputFile
  dsimp only
  split <;> rfl

theorem processFile_steady (r : FileRequest) (world : World) (e : Engine σ) :
    Steady e (processFile r world e).2 := by
  rw [processFile_eq]
  split
  · rw [matchInputFile_engine]
    exact matchRecords_steady _ _ _ _
  · exact .refl e

theorem matchFile_steady (e : Engine σ) (r : FileRequest) (world : World) :
    Steady e (matchFile e r world).2 := by
  have hgovern : Steady e ((govern world.files).run e).2 := (quiet_govern e).steady
  unfold matchFile
  split <;> rename_i hr <;> rw [hr] at hgovern
  · exact hgovern
  · split
    · exact hgovern
    · split
      · exact hgovern.trans (processFile_steady _ _ _)
      · split
        · exact hgovern.trans (processFile_steady _ _ _)
        · exact hgovern

end Engine

/-! ## Calls -/

open PatternEngine.Engine

variable {σ : Type} {files : FileSystem} {e e' : Engine σ} {call : Call} {world : World}

/-- A call that neither compiles nor frees keeps the patterns. -/
theorem after_patterns (world : World) (e : Engine σ)
    (hcompile : ∀ expression, call ≠ .compile expression)
    (hfree : ∀ pattern, call ≠ .free pattern) :
    (call.after world e).patterns = e.patterns := by
  cases call with
  | compile expression => exact absurd rfl (hcompile expression)
  | free pattern => exact absurd rfl (hfree pattern)
  | matchInput pattern start encoder input => exact (matches_matchInput _ _ _ _ e).patterns
  | trace pattern start style input => exact (quiet_trace _ _ _ _ e).patterns
  | load source => exact (quiet_load source e).patterns
  | loadFile path => exact (quiet_loadFile path e).patterns
  | importPackage package under => exact (quiet_importPackage package under e).patterns
  | matchFile request => exact (matchFile_steady e request world).patterns
  | searchPath => exact (quiet_searchPath e).patterns
  | setSearchPath path => exact (quiet_setSearchPath path e).patterns
  | config => exact (quiet_config e).patterns
  | queryLimit => exact (quiet_queryLimit e).patterns
  | setLimit megabytes => exact (setLimit_limited _ megabytes e).patterns

/-- Handles stay in good order. -/
theorem exact_of_after (ht : e.patterns.Exact) (call : Call) (world : World) :
    (call.after world e).patterns.Exact := by
  cases call with
  | compile expression =>
    rcases (compile_kept world.files expression e).patterns with hsame | ⟨v, handle, hinsert⟩
    · rw [Call.after, hsame]
      exact ht
    · exact (ht.insert hinsert).2.2.2
  | free pattern =>
    simp only [Call.after, freePattern_run]
    cases hr : e.patterns.remove pattern with
    | none => exact ht
    | some removed => exact (ht.remove hr).2.2
  | _ =>
    rw [after_patterns world e (by simp) (by simp)]
    exact ht

/-- A call that does not match leaves the last result of an extension as it is. -/
theorem after_previousScripted (world : World) (e : Engine σ)
    (hmatch : ∀ pattern start encoder input, call ≠ .matchInput pattern start encoder input)
    (hfile : ∀ request, call ≠ .matchFile request) :
    (call.after world e).previousScripted = e.previousScripted := by
  cases call with
  | compile expression => exact (compile_kept _ expression e).spared.previousScripted
  | free pattern =>
    simp only [Call.after, freePattern_run]
    split <;> rfl
  | matchInput pattern start encoder input => exact absurd rfl (hmatch _ _ _ _)
  | trace pattern start style input => exact (quiet_trace _ _ _ _ e).previousScripted
  | load source => exact (quiet_load source e).previousScripted
  | loadFile path => exact (quiet_loadFile path e).previousScripted
  | importPackage package under => exact (quiet_importPackage package under e).previousScripted
  | matchFile request => exact absurd rfl (hfile request)
  | searchPath => exact (quiet_searchPath e).previousScripted
  | setSearchPath path => exact (quiet_setSearchPath path e).previousScripted
  | config => exact (quiet_config e).previousScripted
  | queryLimit => exact (quiet_queryLimit e).previousScripted
  | setLimit megabytes => exact (setLimit_limited _ megabytes e).previousScripted

/-! ## New engines -/

section

variable {module : RuntimeModule σ} {installation : FileSystem} {settings : Settings}
  {standardHome : Bytes} {options : Options} {e₀ : Engine σ}

/-- A module that has started makes an engine that has done nothing yet. -/
theorem boot_new {startup : Startup σ} (h : boot startup = .ok e) :
    ∃ slots state, e = { slots, state } := by
  unfold boot at h
  split at h
  · cases h
  · cases h
  · cases h
  · rename_i exports state
    cases hslots : slotsOf exports with
    | error fault =>
      rw [hslots] at h
      cases h
    | ok slots =>
      rw [hslots] at h
      cases h
      exact ⟨slots, state, rfl⟩

theorem setUp_limited {path : Bytes} {megabytes : Nat} {result : Except Fault Unit}
    (hr : (do
      setSearchPath files path
      let _ ← setLimit files megabytes : Action σ Unit).run e = (result, e')) : Limited e e' := by
  have hset : ∀ e : Engine σ, Limited e
      ((do let _ ← setLimit files megabytes : Action σ Unit).run e).2 := by
    intro e
    have h := setLimit_limited files megabytes e
    rw [run_bind]
    split <;> rename_i hlimit <;> rw [hlimit] at h <;> exact h
  have hquiet : Quiet (setSearchPath files path : Action σ _) := quiet_setSearchPath path
  have h := hquiet.followed follows_limited (fun _ => hset) e
  rw [hr] at h
  exact h

/-- A new engine has no patterns and no results yet. -/
theorem new_of_create (h : create module installation settings standardHome options = .ok e₀) :
    e₀.patterns = {} ∧ e₀.previousScripted = none := by
  unfold create at h
  cases hhome : Home.resolve installation settings standardHome with
  | error fault =>
    rw [hhome] at h
    cases h
  | ok home =>
    rw [hhome] at h
    dsimp only [bind, Except.bind] at h
    split at h
    · cases h
    · rename_i booted hboot
      obtain ⟨slots, state, rfl⟩ := boot_new hboot
      split at h
      · rename_i hrun
        cases h
        have hlimited : Limited { slots, state } e₀ := setUp_limited hrun
        exact ⟨hlimited.patterns, hlimited.previousScripted⟩
      · cases h

end

end PatternEngine
