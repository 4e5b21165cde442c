import Mathlib.Logic.Relation
import PatternEngine.Proofs.Engine.Looking
/-!
# Calls of an engine

Everything that can be asked of an engine is a call (`Call`), and what a row of calls has made of
an engine is reached by single calls (`Steps`). With the standard module a call changes the
environment in one way only, which depends on the files and on the environment alone
(`after_environment`).
-/
namespace PatternEngine

/-- What can be asked of an engine. -/
inductive Call where
  | compile (expression : Bytes)
  | free (pattern : Handle)
  | matchInput (pattern : Handle) (start : Int) (encoder input : Bytes)
  | trace (pattern : Handle) (start : Int) (style input : Bytes)
  | load (source : Bytes)
  | loadFile (path : Bytes)
  | importPackage (package : Bytes) (under : Option Bytes)
  | matchFile (request : Engine.FileRequest)
  | searchPath
  | setSearchPath (path : Bytes)
  | config
  | queryLimit
  | setLimit (megabytes : Nat)

namespace Call

/-- What a call makes of an engine, whether it ends in a fault or not. -/
def after {σ : Type} (world : World) (e : Engine σ) : Call → Engine σ
  | .compile expression => ((Engine.compile world.files expression).run e).2
  | .free pattern => ((Engine.freePattern pattern).run e).2
  | .matchInput pattern start encoder input =>
    ((Engine.matchInput world.files pattern start encoder input).run e).2
  | .trace pattern start style input =>
    ((Engine.trace world.files pattern start style input).run e).2
  | .load source => ((Engine.load world.files source).run e).2
  | .loadFile path => ((Engine.loadFile world.files path).run e).2
  | .importPackage package under => ((Engine.importPackage world.files package under).run e).2
  | .matchFile request => (Engine.matchFile e request world).2
  | .searchPath => ((Engine.searchPath world.files).run e).2
  | .setSearchPath path => ((Engine.setSearchPath world.files path).run e).2
  | .config => ((Engine.config world.files).run e).2
  | .queryLimit => ((Engine.queryLimit world.files).run e).2
  | .setLimit megabytes => ((Engine.setLimit world.files megabytes).run e).2

/-- Any call, in any world. -/
def Any : Call → World → Prop := fun _ _ => True

/-- What a call makes of an environment. -/
def environment (files : FileSystem) (env : Environment) : Call → Environment
  | .load source => (Importer.load files env source none).2
  | .loadFile path => (Importer.loadFile files env path).2
  | .importPackage package under =>
    (Importer.importPackage files env package (Standard.aliasOf under)).2
  | .setSearchPath path => { env with searchPath := path }
  | _ => env

end Call

/-- An engine is reached from another by calls of some kind, each in a world of its own. -/
def Steps {σ : Type} (allowed : Call → World → Prop) : Engine σ → Engine σ → Prop :=
  Relation.ReflTransGen fun e e' => ∃ call world, allowed call world ∧ call.after world e = e'

/-- What every call keeps holds as long as calls follow each other. -/
theorem Steps.keeps {σ : Type} {allowed : Call → World → Prop} {P : Engine σ → Prop}
    {e e' : Engine σ} (hstep : ∀ call world e, allowed call world → P e → P (call.after world e))
    (h : Steps allowed e e') (he : P e) : P e' := by
  induction h with
  | refl => exact he
  | tail _ hc ih =>
    obtain ⟨call, world, ha, rfl⟩ := hc
    exact hstep call world _ ha ih

namespace Standard

open PatternEngine.Action PatternEngine.Engine

variable {e : StandardEngine} {files : FileSystem}

theorem setSearchPath_run (h : Shipped e) (path : Bytes) :
    (setSearchPath files path).run e =
      (.ok (), withEnvironment e { e.state.environment with searchPath := path }) := by
  unfold setSearchPath
  rw [run_bind, callMethod_run (by rw [h.methods]; rfl), call_run]
  rfl

/-- The limit that is set, above what is in use. -/
theorem setLimit_run (h : Shipped e) (megabytes : Nat) :
    (setLimit files megabytes).run e =
      if megabytes != 0 && megabytes < minLimit then
        (.error (.limitTooSmall megabytes minLimit), e)
      else (.ok ⟨megabytes, inUse e⟩, { e with limit :=
        ⟨megabytes, if megabytes = 0 then 0 else inUse e + megabytes * 1024⟩ }) := by
  unfold setLimit
  dsimp only
  split
  · rfl
  · rw [run_bind_ok (collect_run h), run_bind_ok (collect_run h), run_bind_ok (usage_run h)]
    rfl

theorem compile_kept (files : FileSystem) (h : Shipped e) (expression : Bytes) :
    let e' := ((compile files expression).run e).2
    e'.slots = e.slots ∧ e'.state = e.state ∧ e'.limit = e.limit := by
  cases hc : e.state.environment.compile expression with
  | ok pattern =>
    rw [compile_run_ok h hc, keep_run]
    split <;> exact ⟨rfl, rfl, rfl⟩
  | error d =>
    obtain ⟨messages, hr⟩ := compile_run_error files h hc
    rw [hr]
    exact ⟨rfl, rfl, rfl⟩

theorem freePattern_kept (handle : Handle) :
    let e' := ((freePattern handle).run e).2
    e'.slots = e.slots ∧ e'.state = e.state ∧ e'.limit = e.limit := by
  rw [freePattern_run]
  split <;> exact ⟨rfl, rfl, rfl⟩

/-- The module stays, and its environment changes as the call has it. -/
theorem after_environment (h : Shipped e) (call : Call) (world : World) :
    Shipped (call.after world e) ∧
      (call.after world e).state.environment =
        call.environment world.files e.state.environment := by
  have hunmoved : ∀ {e' : StandardEngine}, Unmoved e e' →
      Shipped e' ∧ e'.state.environment = e.state.environment :=
    fun hu => ⟨hu.shipped h, by rw [hu.state]⟩
  cases call with
  | compile expression =>
    obtain ⟨hs, hstate, -⟩ := compile_kept world.files h expression
    exact ⟨h.of_slots hs, congrArg _ hstate⟩
  | free handle =>
    obtain ⟨hs, hstate, -⟩ := freePattern_kept (e := e) handle
    exact ⟨h.of_slots hs, congrArg _ hstate⟩
  | matchInput handle start encoder input => exact hunmoved (matchInput_unmoved h _ _ _ _)
  | trace handle start style input => exact hunmoved (trace_unmoved h _ _ _ _)
  | load source =>
    obtain ⟨messages, hr⟩ := load_run world.files h source
    simp only [Call.after, hr]
    exact ⟨h, rfl⟩
  | loadFile path =>
    obtain ⟨messages, hr⟩ := loadFile_run world.files h path
    simp only [Call.after, hr]
    exact ⟨h, rfl⟩
  | importPackage package under =>
    obtain ⟨messages, hr⟩ := importPackage_run world.files h package under
    simp only [Call.after, hr]
    exact ⟨h, rfl⟩
  | matchFile request => exact hunmoved (matchFile_unmoved h _ _)
  | searchPath => exact hunmoved (searchPath_unmoved h)
  | setSearchPath path =>
    simp only [Call.after, setSearchPath_run h]
    exact ⟨h, rfl⟩
  | config => exact hunmoved (config_unmoved h)
  | queryLimit => simp only [Call.after, queryLimit_run h]; exact ⟨h, rfl⟩
  | setLimit megabytes =>
    simp only [Call.after, setLimit_run h]
    split <;> exact ⟨h, rfl⟩

theorem shipped_of_steps {allowed : Call → World → Prop} {e₀ : StandardEngine}
    (hs : Shipped e₀) (h : Steps allowed e₀ e) : Shipped e :=
  h.keeps (fun call world _ _ hs => (after_environment hs call world).1) hs

/-- What every call to an engine with the standard module keeps. -/
theorem keeps_of_steps {P : StandardEngine → Prop} {allowed : Call → World → Prop}
    {e₀ : StandardEngine} (hs : Shipped e₀)
    (hstep : ∀ (call : Call) world e, Shipped e → P e → P (call.after world e))
    (h : Steps allowed e₀ e) (hp : P e₀) : P e := by
  refine (h.keeps (P := fun e => Shipped e ∧ P e) ?_ ⟨hs, hp⟩).2
  intro call world e _ ⟨hs, hp⟩
  exact ⟨(after_environment hs call world).1, hstep call world e hs hp⟩

/-- The patterns stay as they are, but for one that is kept or freed. -/
theorem after_patterns (h : Shipped e) (call : Call) (world : World) :
    let patterns := (call.after world e).patterns
    patterns = e.patterns ∨
      (∃ expression pattern handle, call = .compile expression ∧
        e.state.environment.compile expression = .ok pattern ∧
        e.patterns.insert (StandardModule.patternObject pattern) = some (handle, patterns)) ∨
      ∃ handle value, call = .free handle ∧
        e.patterns.remove handle = some (value, patterns) := by
  cases call with
  | compile expression =>
    cases hc : e.state.environment.compile expression with
    | ok pattern =>
      simp only [Call.after, compile_run_ok h hc, keep_run]
      split
      · rename_i handle patterns hi
        exact .inr (.inl ⟨expression, pattern, handle, rfl, hc, hi⟩)
      · exact .inl rfl
    | error d =>
      obtain ⟨messages, hr⟩ := compile_run_error world.files h hc
      simp only [Call.after, hr]
      exact .inl trivial
  | free handle =>
    simp only [Call.after, freePattern_run]
    split
    · rename_i value patterns hremoved
      exact .inr (.inr ⟨handle, value, rfl, hremoved⟩)
    · exact .inl rfl
  | matchInput handle start encoder input => exact .inl (matchInput_unmoved h _ _ _ _).patterns
  | trace handle start style input => exact .inl (trace_unmoved h _ _ _ _).patterns
  | load source =>
    obtain ⟨messages, hr⟩ := load_run world.files h source
    simp only [Call.after, hr]
    exact .inl rfl
  | loadFile path =>
    obtain ⟨messages, hr⟩ := loadFile_run world.files h path
    simp only [Call.after, hr]
    exact .inl rfl
  | importPackage package under =>
    obtain ⟨messages, hr⟩ := importPackage_run world.files h package under
    simp only [Call.after, hr]
    exact .inl rfl
  | matchFile request => exact .inl (matchFile_unmoved h _ _).patterns
  | searchPath => exact .inl (searchPath_unmoved h).patterns
  | setSearchPath path =>
    simp only [Call.after, setSearchPath_run h]
    exact .inl rfl
  | config => exact .inl (config_unmoved h).patterns
  | queryLimit =>
    simp only [Call.after, queryLimit_run h]
    exact .inl trivial
  | setLimit megabytes =>
    simp only [Call.after, setLimit_run h]
    split <;> exact .inl rfl

/-! ## New engines -/

/-- An engine that has just been made: it knows nothing but where packages are looked for. -/
structure Fresh (e : StandardEngine) : Prop where
  shipped : Shipped e
  bindings : e.state.environment.bindings = []
  packages : e.state.environment.packages = {}
  patterns : e.patterns = {}

/-- What is set when an engine is made: where packages are looked for, and the limit. -/
theorem setUp_run {path : Bytes} {megabytes : Nat} {result : Except Fault Unit}
    {e' : StandardEngine} (h : Shipped e)
    (hr : (do
      setSearchPath files path
      let _ ← setLimit files megabytes : Action _ Unit).run e = (result, e')) :
    Shipped e' ∧ e'.patterns = e.patterns ∧
      e'.state.environment = { e.state.environment with searchPath := path } := by
  rw [run_bind_ok (setSearchPath_run h path), run_bind,
    setLimit_run (shipped_withEnvironment h _)] at hr
  split at hr <;> rename_i hlimit <;> split at hlimit <;> cases hlimit <;> cases hr <;>
    exact ⟨h, rfl, rfl⟩

/-- An engine that is made with the standard module is fresh. It looks for packages where it was
told to, or else in the installation. -/
theorem fresh_of_create {gauge : StandardModule.Gauge} {installation : FileSystem}
    {settings : Settings} {standardHome : Bytes} {options : Options}
    (h : create (shippedModule gauge) installation settings standardHome options = .ok e) :
    Fresh e ∧ ∃ home, Home.resolve installation settings standardHome = .ok home ∧
      e.state.environment.searchPath = options.searchPath.getD home.searchPath := by
  unfold create at h
  cases hr : Home.resolve installation settings standardHome with
  | error fault => rw [hr] at h; cases h
  | ok home =>
    rw [hr] at h
    dsimp only [bind, Except.bind] at h
    rw [boot_standard] at h
    dsimp only at h
    split at h
    · rename_i e' hrun
      cases h
      obtain ⟨hs, hp, henv⟩ := setUp_run ⟨gauge, _, _, rfl⟩ hrun
      exact ⟨⟨hs, by rw [henv]; rfl, by rw [henv]; rfl, hp⟩, home, rfl, by rw [henv]⟩
    · cases h

/-- An installation with a package `a`, and with two more that import each other. -/
def sample : FileSystem where
  files := [
    ([text "r", text "lib", text "boot.lua"], []),
    ([text "r", text "rpl", text "a.rpl"], text "package a\nx = y\n"),
    ([text "r", text "rpl", text "b.rpl"], text "package b\nimport c\n"),
    ([text "r", text "rpl", text "c.rpl"], text "package c\nimport b\n")]

theorem create_sample : ∃ e, create standardModule sample {} (text "r") {} = .ok e := ⟨_, rfl⟩

/-- A new engine over this installation looks for packages there, and knows none yet. -/
theorem environment_sample (h : create standardModule sample {} (text "r") {} = .ok e) :
    e.state.environment = { searchPath := text "r/rpl" } := by
  obtain ⟨hfresh, home, hhome, hpath⟩ := fresh_of_create h
  have hresolved : Home.resolve sample {} (text "r") =
      .ok ⟨text "r", text "r/lib/boot.lua", text "r/rpl"⟩ := rfl
  cases hresolved.symm.trans hhome
  have hbindings := hfresh.bindings
  have hpackages := hfresh.packages
  cases henv : e.state.environment with
  | mk bindings packages searchPath =>
    rw [henv] at hbindings hpackages hpath
    cases hbindings
    cases hpackages
    cases hpath
    rfl

end Standard

end PatternEngine
