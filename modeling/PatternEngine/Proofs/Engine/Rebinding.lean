import PatternEngine.Proofs.Engine.Reports
import PatternEngine.Proofs.Importer.Rebinding
/-!
# Rebinding in a running engine

An update that succeeds binds a name to something else only with a warning, or because the name is
imported (`rebinding_told`). Imports give no warning of their own: a line that imports a package
without a prefix replaces a name silently (`import_rebinds_unwarned`).
-/
namespace PatternEngine

open PatternEngine.Engine PatternEngine.Importer PatternEngine.Source

namespace Update

/-- The text that an update processes, and the file that it comes from. -/
def text? (files : FileSystem) : Update → Option (Option Bytes × Bytes)
  | .load source => some (none, source)
  | .loadFile path =>
    match files.read path with
    | .ok source => some (some path, source)
    | .error _ => none
  | .importPackage _ _ => none

/-- An update imports a source under a name: by a line of its text, or because it is an import. -/
def Imports (files : FileSystem) (packages : Packages) (key bound : Bytes) : Update → Prop
  | .importPackage package under => Provides packages package (Standard.aliasOf under) key bound
  | update => ∃ filename source, update.text? files = some (filename, source) ∧
      Introduces packages source key bound

variable {files : FileSystem} {env : Environment} {key old : Bytes}

/-- What an update that succeeds binds to something else is warned about or imported. -/
theorem rebinds (update : Update) (hold : env.bindings.get? key = some old)
    (hok : (update.outcome files env).1.ok = true) :
    let outcome := update.outcome files env
    ∃ now, outcome.2.bindings.get? key = some now ∧ (now = old ∨
      (∃ filename number line, reassignment filename number line key ∈ outcome.1.diagnostics) ∨
      update.Imports files outcome.2.packages key now) := by
  cases update with
  | load source =>
    obtain ⟨now, hnow, hsame | ⟨number, line, hwarned⟩ | himported⟩ := load_rebinds hold hok
    · exact ⟨now, hnow, .inl hsame⟩
    · exact ⟨now, hnow, .inr (.inl ⟨none, number, line, hwarned⟩)⟩
    · exact ⟨now, hnow, .inr (.inr ⟨none, source, rfl, himported⟩)⟩
  | loadFile path =>
    unfold Imports text?
    simp only [outcome, Importer.loadFile] at hok ⊢
    cases hread : files.read path with
    | error error =>
      rw [hread] at hok
      cases hok
    | ok source =>
      rw [hread] at hok
      obtain ⟨now, hnow, hsame | ⟨number, line, hwarned⟩ | himported⟩ := load_rebinds hold hok
      · exact ⟨now, hnow, .inl hsame⟩
      · exact ⟨now, hnow, .inr (.inl ⟨some path, number, line, hwarned⟩)⟩
      · exact ⟨now, hnow, .inr (.inr ⟨some path, source, rfl, himported⟩)⟩
  | importPackage package under =>
    obtain ⟨now, hnow, hsame | hprovided⟩ := importPackage_rebinds hold hok
    · exact ⟨now, hnow, .inl hsame⟩
    · exact ⟨now, hnow, .inr (.inr hprovided)⟩

/-- A line of the text that binds a name again is warned about. -/
theorem warns (update : Update) {filename : Option Bytes} {source line expression : Bytes}
    {number : Nat} (htext : update.text? files = some (filename, source))
    (hline : IsLine source number line) (hreads : Reads line (.binding key expression))
    (hold : env.bindings.get? key = some old) (hok : (update.outcome files env).1.ok = true) :
    reassignment filename number line key ∈ (update.outcome files env).1.diagnostics := by
  cases update with
  | load source' =>
    cases htext
    exact load_warns hline hreads hold hok
  | loadFile path =>
    unfold text? at htext
    simp only [outcome, Importer.loadFile] at hok ⊢
    cases hread : files.read path with
    | error error =>
      rw [hread] at hok
      cases hok
    | ok source' =>
      simp only [hread] at htext hok ⊢
      cases htext
      exact load_warns hline hreads hold hok
  | importPackage package under => cases htext

/-- Nothing is said when a package is imported that was found before. -/
theorem silent {package : Bytes} {under : Option Bytes} {exports : Bindings}
    (h : env.packages.found.lookup package = some exports) :
    ((Update.importPackage package under).outcome files env).1.diagnostics = [] := by
  unfold outcome
  rw [importPackage_diagnostics]
  unfold finder enoughFuel
  rw [findPackage_cached h]

end Update

namespace Standard

variable {gauge : StandardModule.Gauge} {installation : FileSystem} {settings : Settings}
  {standardHome : Bytes} {options : Options} {e₀ e : StandardEngine}

/-- When an update succeeds, every name that was bound is bound still: to what it was, or to
something else with a warning about the name among what is said, or to what an import provides. A
line of the text that binds such a name is always warned about, with its number. Imports are the
only exceptions, and they are silent: an import call says nothing when the package was found
before, whatever names it replaces. -/
theorem rebinding_told
    (hmade : create (shippedModule gauge) installation settings standardHome options = .ok e₀)
    (hrun : Steps Call.Any e₀ e) (files : FileSystem) (update : Update) :
    let env := e.state.environment
    ∃ ds outcome e', (Request.update update).Returns files e ds ∧
      (update.action files).run e = (.ok outcome, e') ∧
      outcome.diagnostics = Diagnostic.handOut (ds.map ({ · with context := none })) ∧
      (outcome.ok = true → ∀ key old, env.bindings.get? key = some old →
        (∃ now, e'.state.environment.bindings.get? key = some now ∧ (now = old ∨
          (∃ d ∈ ds, d.severity = .warning ∧
            d.message = text "reassignment to identifier " ++ key) ∨
          update.Imports files e'.state.environment.packages key now)) ∧
        ∀ filename source number line expression,
          update.text? files = some (filename, source) → IsLine source number line →
          Reads line (.binding key expression) → reassignment filename number line key ∈ ds) ∧
      ∀ package under exports, update = .importPackage package under →
        env.packages.found.lookup package = some exports → ds = [] := by
  have hs : Shipped e := shipped_of_steps (fresh_of_create hmade).1.shipped hrun
  intro env
  refine ⟨_, _, _, update.returned files hs, update.action_reports files hs, rfl, ?_, ?_⟩
  · intro hok key old hold
    refine ⟨?_, fun filename source number line expression htext hline hreads =>
      update.warns htext hline hreads hold hok⟩
    obtain ⟨now, hnow, hcause⟩ := update.rebinds hold hok
    refine ⟨now, hnow, hcause.imp_right (Or.imp_left ?_)⟩
    rintro ⟨filename, number, line, hwarned⟩
    exact ⟨_, hwarned, rfl, rfl⟩
  · rintro package under exports rfl hfound
    exact Update.silent hfound

/-- A name that is bound twice by lines. -/
theorem rebinding_told_sample : ∃ e₀ e : StandardEngine,
    create standardModule sample {} (text "r") {} = .ok e₀ ∧
    e.state.environment.bindings.get? (text "x") = some (text "z") ∧
    ∃ ds, (Request.update (.load (text "x = y"))).Returns sample e ds ∧
      reassignment none 1 (text "x = y") (text "x") ∈ ds := by
  obtain ⟨e₀, e, hmade, hstep, hold, hok⟩ : ∃ e₀ e : StandardEngine,
      create standardModule sample {} (text "r") {} = .ok e₀ ∧
      Call.after ⟨sample, [], [], []⟩ e₀ (.load (text "x = z")) = e ∧
      e.state.environment.bindings.get? (text "x") = some (text "z") ∧
      (((Update.load (text "x = y")).action sample).run e).1.toOption.map LoadOutcome.ok =
        some true := ⟨_, _, rfl, rfl, rfl, rfl⟩
  have hrun : Steps Call.Any e₀ e := .single ⟨_, _, trivial, hstep⟩
  obtain ⟨ds, outcome, e', hreturned, haction, -, htold, -⟩ :=
    rebinding_told hmade hrun sample (.load (text "x = y"))
  rw [haction] at hok
  have hline : IsLine (text "x = y") 1 (text "x = y") :=
    ⟨[], text "x = y", [], rfl, by decide, by simp, by simp, rfl, .inr ⟨rfl, by decide⟩⟩
  have hreads : Reads (text "x = y") (.binding (text "x") (text "y")) :=
    (classify_iff hline.newline_not_mem).2 ⟨by decide, rfl⟩
  obtain ⟨-, hwarned⟩ := htold (Option.some.inj hok) (text "x") (text "z") hold
  exact ⟨e₀, e, hmade, hold, ds, hreturned, hwarned none _ 1 _ (text "y") rfl hline hreads⟩

/-- The name `x` is bound, a line that imports it from `a` without a prefix binds it to something
else, and nothing is said. -/
theorem import_rebinds_unwarned : ∃ (e₀ e e' : StandardEngine) (outcome : LoadOutcome),
    create standardModule sample {} (text "r") {} = .ok e₀ ∧
    Call.after ⟨sample, [], [], []⟩ e₀ (.load (text "x = z")) = e ∧
    e.state.environment.bindings.get? (text "x") = some (text "z") ∧
    (load sample (text "import a as .")).run e = (.ok outcome, e') ∧
    outcome.ok = true ∧ outcome.diagnostics = none ∧
    (Request.update (.load (text "import a as ."))).Returns sample e [] ∧
    e'.state.environment.bindings.get? (text "x") = some (text "y") :=
  ⟨_, _, _, _, rfl, rfl, rfl, rfl, rfl, rfl, ⟨_, [_, _], rfl, rfl⟩, rfl⟩

end Standard

end PatternEngine
