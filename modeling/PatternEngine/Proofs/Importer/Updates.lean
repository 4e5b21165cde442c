import PatternEngine.Proofs.Importer.Resolution
/-!
# Loading and importing

What an update does to an environment (`Updates`): the search path stays, packages are only ever
added to those found, and an update that fails changes nothing else. Between updates no package is
being loaded and all packages found are good (`Settled`), so what an import line or an import call
finds is decided by the files alone.
-/
namespace PatternEngine.Importer

open PatternEngine.Source (Alias Line)

variable {files : FileSystem} {env : Environment}

/-- What loading or importing makes of an environment. -/
structure Updates (files : FileSystem) (env : Environment) (outcome : Report × Environment) :
    Prop where
  searchPath : outcome.2.searchPath = env.searchPath
  packages : Grows (Loaded files env.searchPath env.packages) env.packages outcome.2.packages
  atomic : outcome.1.ok = false → outcome.2.bindings = env.bindings

theorem finder_grows (package : Bytes) :
    Grows (Loaded files env.searchPath env.packages) env.packages
      (finder files env env.packages package).packages :=
  findPackage_grows _ _ _ _ _ _ (not_fresh _)

theorem load_updates (source : Bytes) (filename : Option Bytes) :
    Updates files env (load files env source filename) := by
  have hgrows : Grows (Loaded files env.searchPath env.packages) env.packages
      (process (finder files env) env.packages env.bindings filename source).packages :=
    process_grows (findPackage_grows _ _ _ _) (not_fresh _)
  unfold load
  dsimp only
  split
  · exact ⟨rfl, hgrows, fun _ => rfl⟩
  · exact ⟨rfl, hgrows, fun h => by cases h⟩

theorem loadFile_updates (path : Bytes) : Updates files env (loadFile files env path) := by
  unfold loadFile
  split
  · exact load_updates _ _
  · exact ⟨rfl, Grows.refl _, fun _ => rfl⟩

theorem importPackage_updates (package : Bytes) (under : Alias) :
    Updates files env (importPackage files env package under) := by
  unfold importPackage
  dsimp only
  split
  · exact ⟨rfl, finder_grows package, fun _ => rfl⟩
  · exact ⟨rfl, finder_grows package, fun h => by cases h⟩

/-! ## Between updates -/

/-- No package is being loaded, and all that were found are good. -/
structure Settled (files : FileSystem) (searchPath : Bytes) (packages : Packages) : Prop where
  sound : Sound files searchPath packages
  loading : packages.loading = []

theorem finder_settled (packages : Packages) (package : Bytes)
    (h : Settled files env.searchPath packages) :
    Settled files env.searchPath (finder files env packages package).packages :=
  ⟨(findPackage_sound _ _ _ _ _ h.sound).packages,
    (findPackage_grows _ _ packages _ _ _ (not_fresh _)).loading.trans h.loading⟩

/-- Packages stay settled when a line is processed. -/
theorem processLine_settled {filename : Option Bytes} {p : Progress} (l : Nat × Bytes)
    (h : Settled files env.searchPath p.packages) :
    Settled files env.searchPath (processLine (finder files env) filename p l).packages := by
  rw [processLine_packages]
  split
  · exact finder_settled _ _ h
  · exact h

theorem foldl_settled {filename : Option Bytes} (lines : List (Nat × Bytes)) : ∀ p : Progress,
    Settled files env.searchPath p.packages →
    Settled files env.searchPath
      (lines.foldl (processLine (finder files env) filename) p).packages := by
  induction lines with
  | nil => exact fun p h => h
  | cons l lines ih => exact fun p h => ih _ (processLine_settled l h)

theorem load_settled (source : Bytes) (filename : Option Bytes)
    (h : Settled files env.searchPath env.packages) :
    Settled files env.searchPath (load files env source filename).2.packages := by
  unfold load
  dsimp only
  split <;> exact foldl_settled _ _ h

theorem loadFile_settled (path : Bytes) (h : Settled files env.searchPath env.packages) :
    Settled files env.searchPath (loadFile files env path).2.packages := by
  unfold loadFile
  split
  · exact load_settled _ _ h
  · exact h

theorem importPackage_settled (package : Bytes) (under : Alias)
    (h : Settled files env.searchPath env.packages) :
    Settled files env.searchPath (importPackage files env package under).2.packages := by
  unfold importPackage
  dsimp only
  split <;> exact finder_settled _ _ h

section
variable {package : Bytes} {exports : Bindings} {packages : Packages}

/-- Between updates a package is found exactly when it is good. -/
theorem finder_iff (h : Settled files env.searchPath packages) :
    (finder files env packages package).exports = some exports ↔
      Good files env.searchPath package exports :=
  findPackage_iff h.sound h.loading (Nat.le_refl _)

theorem finder_none (h : Settled files env.searchPath packages)
    (hbad : ¬ ∃ exports, Good files env.searchPath package exports) :
    (finder files env packages package).exports = none :=
  Option.eq_none_iff_forall_ne_some.2 fun exports hf => hbad ⟨exports, (finder_iff h).1 hf⟩

/-- Importing succeeds exactly when the package is good, and binds exactly what it exports. -/
theorem importPackage_iff (h : Settled files env.searchPath env.packages) (under : Alias) :
    let outcome := importPackage files env package under
    (outcome.1.ok = true ↔ ∃ exports, Good files env.searchPath package exports) ∧
    ∀ exports, Good files env.searchPath package exports →
      outcome.2.bindings = env.bindings.setPackage package under exports := by
  unfold importPackage
  dsimp only
  cases hf : (finder files env env.packages package).exports with
  | none =>
    have hbad : ∀ exports, ¬ Good files env.searchPath package exports := by
      intro exports hg
      rw [(finder_iff h).2 hg] at hf; cases hf
    refine ⟨iff_of_false Bool.false_ne_true ?_, fun exports hg => absurd hg (hbad exports)⟩
    exact fun ⟨exports, hg⟩ => hbad exports hg
  | some names =>
    have hgood := (finder_iff h).1 hf
    refine ⟨iff_of_true rfl ⟨names, hgood⟩, fun exports hg => ?_⟩
    rw [hg.unique hgood]

/-- An import line binds exactly what the package exports when it is good, and is an error that
binds nothing when it is not. -/
theorem processLine_import {filename : Option Bytes} {p : Progress} {number : Nat} {line : Bytes}
    {under : Alias} (h : Settled files env.searchPath p.packages)
    (hl : Line.classify line = .importing package under) :
    let q := processLine (finder files env) filename p (number, line)
    (∀ exports, Good files env.searchPath package exports →
      q.bindings = p.bindings.setPackage package under exports ∧
      Diagnostic.anyError q.diagnostics = Diagnostic.anyError p.diagnostics) ∧
    ((¬ ∃ exports, Good files env.searchPath package exports) →
      q.bindings = p.bindings ∧ Diagnostic.anyError q.diagnostics = true) := by
  unfold processLine
  simp only [hl]
  refine ⟨fun exports hg => ?_, fun hbad => ?_⟩
  · have hf := (finder_iff h).2 hg
    have hd := ((findPackage_sound _ _ _ _ _ h.sound).good exports hf).2
    rw [hf]
    refine ⟨rfl, ?_⟩
    rw [Diagnostic.anyError_append, finder, hd, Bool.or_false]
  · rw [finder_none h hbad]
    exact ⟨rfl, anyError_report rfl⟩

end

end PatternEngine.Importer
