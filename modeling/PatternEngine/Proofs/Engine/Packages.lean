import PatternEngine.Proofs.Engine.Calls
import PatternEngine.Proofs.Importer.Exports
/-!
# Packages in a running engine

What the importer guarantees for one update holds for every engine that runs the standard module,
after any calls.

* `resolution_of_files` — while the files and the search path stay as they are, what an import
  finds is decided by the files alone.
* `failed_update_atomic` — an update that fails changes nothing but the packages found, and a
  package that was found is found for good.
-/
namespace PatternEngine

open PatternEngine.Engine PatternEngine.Importer PatternEngine.Source

namespace Call

/-- A call that leaves the search path alone, made while the files are these. -/
def Steady (files : FileSystem) (call : Call) (world : World) : Prop :=
  world.files = files ∧ ∀ path, call ≠ .setSearchPath path

variable {files : FileSystem} {env : Environment}

/-- A steady call keeps the packages settled. -/
theorem environment_settled {call : Call} (hcall : ∀ path, call ≠ .setSearchPath path)
    (h : Settled files env.searchPath env.packages) :
    (call.environment files env).searchPath = env.searchPath ∧
      Settled files env.searchPath (call.environment files env).packages := by
  cases call with
  | load source => exact ⟨(load_updates _ _).searchPath, load_settled _ _ h⟩
  | loadFile path => exact ⟨(loadFile_updates _).searchPath, loadFile_settled _ h⟩
  | importPackage package under =>
    exact ⟨(importPackage_updates _ _).searchPath, importPackage_settled _ _ h⟩
  | setSearchPath path => exact absurd rfl (hcall path)
  | _ => exact ⟨rfl, h⟩

/-- No call takes a package out of those found. -/
theorem environment_found (call : Call) {package : Bytes} {exports : Bindings}
    (h : env.packages.found.lookup package = some exports) :
    (call.environment files env).packages.found.lookup package = some exports := by
  cases call with
  | load source => exact (load_updates _ _).packages.kept _ _ h
  | loadFile path => exact (loadFile_updates _).packages.kept _ _ h
  | importPackage package under => exact (importPackage_updates _ _).packages.kept _ _ h
  | _ => exact h

end Call

namespace Standard

variable {gauge : StandardModule.Gauge} {files installation : FileSystem} {settings : Settings}
  {standardHome : Bytes} {options : Options} {e₀ e : StandardEngine}

/-- An engine that has gone on from a new one while the files and the search path stayed. -/
theorem settled_of_steps (hfresh : Fresh e₀) (h : Steps (Call.Steady files) e₀ e) :
    Shipped e ∧ e.state.environment.searchPath = e₀.state.environment.searchPath ∧
      Settled files e₀.state.environment.searchPath e.state.environment.packages := by
  refine h.keeps (P := fun e => Shipped e ∧
    e.state.environment.searchPath = e₀.state.environment.searchPath ∧
    Settled files e₀.state.environment.searchPath e.state.environment.packages) ?_ ?_
  · intro call world e ⟨hfiles, hcall⟩ ⟨hs, hpath, hsettled⟩
    obtain ⟨hs', henv⟩ := after_environment hs call world
    rw [← hpath] at hsettled
    obtain ⟨hpath', hsettled'⟩ := Call.environment_settled hcall hsettled
    rw [henv, hfiles]
    exact ⟨hs', hpath'.trans hpath, hpath ▸ hsettled'⟩
  · refine ⟨hfresh.shipped, rfl, ?_, ?_⟩
    · intro package exports hf
      rw [hfresh.packages] at hf; cases hf
    · rw [hfresh.packages]

/-- While the files and the search path stay as they are, a package is found exactly when it is
good, whatever was called before and whatever came of it, and what is bound for it is exactly what
it exports: the names that the lines of its own file bind, with the sources that the last of these
lines are built to. This is so of a search, of an import call, and of an import line behind any
other lines. A package that leads to a cycle of imports is never found. -/
theorem resolution_of_files
    (hmade : create (shippedModule gauge) installation settings standardHome options = .ok e₀)
    (hrun : Steps (Call.Steady files) e₀ e) (package : Bytes) :
    let env := e.state.environment
    let path := e₀.state.environment.searchPath
    let find := finder files env
    (∀ exports, (find env.packages package).exports = some exports ↔
      Good files path package exports) ∧
    (∀ exports, Good files path package exports → ∃ file contents exportsOf,
      locate files path package = some (file, contents) ∧
      (∀ imported ∈ importedNames contents, Good files path imported (exportsOf imported)) ∧
      (∀ name, (exports.get? name).isSome = true ↔ name ∈ boundNames contents) ∧
      ∀ name source, exports.get? name = some source ↔
        LastBuilt (resolved exportsOf) (some file) { bindings := [], packages := {} }
          (numberedLines contents) name source) ∧
    (∀ under, ∃ outcome e', (importPackage files package under).run e = (.ok outcome, e') ∧
      (outcome.ok = true ↔ ∃ exports, Good files path package exports) ∧
      (∀ exports, Good files path package exports →
        e'.state.environment.bindings = env.bindings.setPackage package (aliasOf under) exports ∧
        Bindings.Adds package (aliasOf under) exports env.bindings
          e'.state.environment.bindings)) ∧
    (∀ filename bindings (lines : List (Nat × Bytes)) number line under,
      Line.classify line = .importing package under →
      let p := lines.foldl (processLine find filename) { bindings, packages := env.packages }
      let q := processLine find filename p (number, line)
      (∀ exports, Good files path package exports →
        q.bindings = p.bindings.setPackage package under exports ∧
        Bindings.Adds package under exports p.bindings q.bindings ∧
        Diagnostic.anyError q.diagnostics = Diagnostic.anyError p.diagnostics) ∧
      ((¬ ∃ exports, Good files path package exports) →
        q.bindings = p.bindings ∧ Diagnostic.anyError q.diagnostics = true)) ∧
    (∀ other, Relation.ReflTransGen (Imports files path) package other →
      Relation.TransGen (Imports files path) other other →
      (find env.packages package).exports = none) := by
  obtain ⟨hs, hpath, hsettled⟩ := settled_of_steps (fresh_of_create hmade).1 hrun
  rw [← hpath] at hsettled ⊢
  dsimp only
  refine ⟨fun exports => finder_iff hsettled, fun exports hgood => hgood.exports_eq,
    fun under => ?_, ?_, ?_⟩
  · obtain ⟨messages, hr⟩ := importPackage_run files hs package under
    obtain ⟨hok, hbindings⟩ := importPackage_iff hsettled (aliasOf under)
    refine ⟨_, _, hr, hok, fun exports hgood => ⟨hbindings exports hgood, ?_⟩⟩
    exact hbindings exports hgood ▸ Bindings.adds_setPackage _ _ _ _
  · intro filename bindings lines number line under hl
    let start : Progress := { bindings, packages := e.state.environment.packages }
    let find := finder files e.state.environment
    have hafter : Settled files e.state.environment.searchPath
        (lines.foldl (processLine find filename) start).packages :=
      foldl_settled lines start hsettled
    obtain ⟨hfound, hmissing⟩ := processLine_import hafter hl
    refine ⟨fun exports hgood => ?_, hmissing⟩
    obtain ⟨hbindings, herrors⟩ := hfound exports hgood
    refine ⟨hbindings, ?_, herrors⟩
    rw [hbindings]
    exact Bindings.adds_setPackage _ _ _ _
  · intro other hreach hcycle
    exact finder_none hsettled fun ⟨exports, hg⟩ => hg.acyclic hreach hcycle

/-- After an attempt at `b`, which is on a cycle, `a` is found with its name, and `b` is not. -/
theorem resolution_of_files_sample : ∃ e₀ e : StandardEngine,
    create standardModule sample {} (text "r") {} = .ok e₀ ∧
    Steps (Call.Steady sample) e₀ e ∧
    Good sample e₀.state.environment.searchPath (text "a") [(text "x", text "y")] ∧
    ¬∃ exports, Good sample e₀.state.environment.searchPath (text "b") exports := by
  obtain ⟨e₀, hmade⟩ := create_sample
  let e := Call.after ⟨sample, [], [], []⟩ e₀ (.importPackage (text "b") none)
  have hstep : Steps (Call.Steady sample) e₀ e :=
    .single ⟨_, _, ⟨rfl, fun path h => by cases h⟩, rfl⟩
  have henv : e.state.environment =
      { searchPath := text "r/rpl" } := by
    rw [(after_environment (fresh_of_create hmade).1.shipped _ _).2, environment_sample hmade]
    rfl
  refine ⟨e₀, e, hmade, hstep, ?_, ?_⟩
  · refine ((resolution_of_files hmade hstep (text "a")).1 _).1 ?_
    rw [henv]
    rfl
  · rintro ⟨exports, hgood⟩
    have hfound := ((resolution_of_files hmade hstep (text "b")).1 _).2 hgood
    rw [henv] at hfound
    cases hfound

end Standard

/-- The calls that bring new names into an engine. -/
inductive Update where
  | load (source : Bytes)
  | loadFile (path : Bytes)
  | importPackage (package : Bytes) (under : Option Bytes)

namespace Update

/-- Makes the call. -/
def action {σ : Type} (files : FileSystem) : Update → Action σ LoadOutcome
  | .load source => Engine.load files source
  | .loadFile path => Engine.loadFile files path
  | .importPackage package under => Engine.importPackage files package under

/-- What the call makes of an environment. -/
def outcome (files : FileSystem) (env : Environment) : Update → Report × Environment
  | .load source => Importer.load files env source none
  | .loadFile path => Importer.loadFile files env path
  | .importPackage package under =>
    Importer.importPackage files env package (Standard.aliasOf under)

theorem outcome_updates (files : FileSystem) (env : Environment) (update : Update) :
    Updates files env (update.outcome files env) := by
  cases update with
  | load source => exact load_updates _ _
  | loadFile path => exact loadFile_updates _
  | importPackage package under => exact importPackage_updates _ _

theorem action_run {e : StandardEngine} (files : FileSystem) (h : Standard.Shipped e)
    (update : Update) :
    let outcome := update.outcome files e.state.environment
    ∃ messages, (update.action files).run e =
      (.ok ⟨outcome.1.ok, outcome.1.package.map Text.Utf8.lossy, messages⟩,
        Standard.withEnvironment e outcome.2) := by
  cases update with
  | load source => exact Standard.load_run files h source
  | loadFile path => exact Standard.loadFile_run files h path
  | importPackage package under => exact Standard.importPackage_run files h package under

end Update

namespace Standard

variable {gauge : StandardModule.Gauge} {installation : FileSystem} {settings : Settings}
  {standardHome : Bytes} {options : Options} {e₀ e : StandardEngine}

/-- A package that was found stays found, whatever is called. -/
theorem found_of_steps {allowed : Call → World → Prop} {package : Bytes} {exports : Bindings}
    (hs : Shipped e₀) (h : Steps allowed e₀ e)
    (hf : e₀.state.environment.packages.found.lookup package = some exports) :
    e.state.environment.packages.found.lookup package = some exports := by
  refine keeps_of_steps (P := fun e =>
    e.state.environment.packages.found.lookup package = some exports) hs ?_ h hf
  intro call world e hs hf
  rw [(after_environment hs call world).2]
  exact Call.environment_found call hf

/-- An update that fails leaves the bindings, the search path, the packages being loaded, the
patterns and the limit as they were. Whether it fails or not, the packages found stay found with
what they export, and one that is new has had its own file processed without an error under its
own name. Once a package is found, every import of it succeeds with the same exports, whatever is
called and whatever becomes of the files in between. -/
theorem failed_update_atomic
    (hmade : create (shippedModule gauge) installation settings standardHome options = .ok e₀)
    (hrun : Steps Call.Any e₀ e) (files : FileSystem) (update : Update) :
    ∃ outcome e', (update.action files).run e = (.ok outcome, e') ∧
    (let old := e.state.environment
     let new := e'.state.environment
     (outcome.ok = false → new.bindings = old.bindings ∧ new.searchPath = old.searchPath ∧
        new.packages.loading = old.packages.loading ∧ e'.patterns = e.patterns ∧
        e'.limit = e.limit) ∧
     (∀ package exports, old.packages.found.lookup package = some exports →
        new.packages.found.lookup package = some exports) ∧
     (∀ package exports, old.packages.found.lookup package = none →
        new.packages.found.lookup package = some exports →
        Loaded files old.searchPath old.packages package exports)) ∧
    ∀ package exports, e'.state.environment.packages.found.lookup package = some exports →
      ∀ later, Steps Call.Any e' later → ∀ files' under,
        let env := later.state.environment
        finder files' env env.packages package = ⟨some exports, [], env.packages⟩ ∧
        ∃ outcome last, (importPackage files' package under).run later = (.ok outcome, last) ∧
          outcome.ok = true ∧ last.state.environment.bindings =
            env.bindings.setPackage package (aliasOf under) exports := by
  have hs : Shipped e := shipped_of_steps (fresh_of_create hmade).1.shipped hrun
  obtain ⟨messages, hr⟩ := update.action_run files hs
  have hu := update.outcome_updates files e.state.environment
  refine ⟨_, _, hr, ⟨fun hfail => ?_, hu.packages.kept, hu.packages.fresh⟩, ?_⟩
  · exact ⟨hu.atomic hfail, hu.searchPath, hu.packages.loading, rfl, rfl⟩
  · intro package exports hf later hlater files' under
    have hs' := shipped_withEnvironment hs (update.outcome files e.state.environment).2
    have hfind : finder files' later.state.environment later.state.environment.packages package =
        ⟨some exports, [], later.state.environment.packages⟩ :=
      findPackage_cached (found_of_steps hs' hlater hf)
    obtain ⟨messages, hr⟩ :=
      importPackage_run files' (shipped_of_steps hs' hlater) package under
    refine ⟨hfind, _, _, hr, ?_⟩
    simp only [Importer.importPackage, hfind]
    exact ⟨trivial, rfl⟩

/-- Loading a text that imports `b` fails and changes no binding. -/
theorem failed_update_atomic_sample : ∃ e₀ : StandardEngine,
    create standardModule sample {} (text "r") {} = .ok e₀ ∧
    ∃ outcome e', (Update.action sample (.load (text "y = z\nimport b\n"))).run e₀ =
      (.ok outcome, e') ∧ outcome.ok = false ∧
      e'.state.environment.bindings = e₀.state.environment.bindings := by
  obtain ⟨e₀, hmade⟩ := create_sample
  let update : Update := .load (text "y = z\nimport b\n")
  obtain ⟨outcome, e', hr, ⟨hatomic, -⟩, -⟩ := failed_update_atomic hmade .refl sample update
  have hfail : outcome.ok = false := by
    obtain ⟨messages, hupdate⟩ := update.action_run sample (fresh_of_create hmade).1.shipped
    rw [environment_sample hmade, hr] at hupdate
    cases hupdate
    rfl
  exact ⟨e₀, hmade, outcome, e', hr, hfail, (hatomic hfail).1⟩

end Standard

end PatternEngine
