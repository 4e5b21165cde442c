import PatternEngine.Proofs.Engine.Reports
import PatternEngine.Proofs.Importer.Paths
/-!
# Imports in a running engine

A package is imported by a call or by a line of a text, and importing it may make others be
imported in turn.

* `import_line_agrees` — the call and the line come to the same.
* `import_path_extended` — an import that succeeds comes to the same on a longer search path, and
  the first file for a package is the only one that counts.
* `importing_ends` — importing ends on every graph of imports, and no package is being loaded
  between calls.
-/
namespace PatternEngine

open PatternEngine.Engine PatternEngine.Importer PatternEngine.Source

/-- No call changes the packages being loaded. -/
theorem Call.environment_loading {files : FileSystem} {env : Environment} (call : Call) :
    (call.environment files env).packages.loading = env.packages.loading := by
  cases call with
  | load source => exact (load_updates _ _).packages.loading
  | loadFile path => exact (loadFile_updates _).packages.loading
  | importPackage package under => exact (importPackage_updates _ _).packages.loading
  | _ => rfl

namespace Standard

variable {gauge : StandardModule.Gauge} {installation files : FileSystem} {settings : Settings}
  {standardHome : Bytes} {options : Options} {e₀ e : StandardEngine} {package : Bytes}
  {under : Option Bytes}

/-! ## Packages being loaded -/

/-- A call leaves the packages being loaded as they were. -/
theorem loading_of_steps {allowed : Call → World → Prop} (hs : Shipped e₀)
    (h : Steps allowed e₀ e) :
    e.state.environment.packages.loading = e₀.state.environment.packages.loading := by
  refine keeps_of_steps (P := fun e =>
    e.state.environment.packages.loading = e₀.state.environment.packages.loading) hs ?_ h rfl
  intro call world e hs hloading
  rw [(after_environment hs call world).2, Call.environment_loading, hloading]

/-- No package is being loaded between calls. -/
theorem idle_of_steps {allowed : Call → World → Prop} (hfresh : Fresh e₀)
    (h : Steps allowed e₀ e) : e.state.environment.packages.loading = [] := by
  rw [loading_of_steps hfresh.shipped h, hfresh.packages]

/-! ## Calls and lines -/

/-- Importing a package by a call, and loading a text that is one line which imports it, come to
the same from every engine: both succeed or both fail, and the engines that they leave are equal.
They say the same, but for one error that the line adds at the end when the package is not found. -/
theorem import_line_agrees
    (hmade : create (shippedModule gauge) installation settings standardHome options = .ok e₀)
    (hrun : Steps Call.Any e₀ e) (files : FileSystem) (hword : isWord package = true)
    (hunder : ∀ token ∈ under, IsAlias token) :
    let source := importLine package under
    ∃ ds ds' imported loaded e',
      (importPackage files package under).run e = (.ok imported, e') ∧
      (load files source).run e = (.ok loaded, e') ∧ loaded.ok = imported.ok ∧
      (Request.update (.importPackage package under)).Returns files e ds ∧
      (Request.update (.load source)).Returns files e ds' ∧
      ds' = (if imported.ok then ds else ds ++ [cannotImport source package]) ∧
      imported.diagnostics = Diagnostic.handOut (ds.map ({ · with context := none })) ∧
      loaded.diagnostics = Diagnostic.handOut (ds'.map ({ · with context := none })) := by
  intro source
  have hs : Shipped e := shipped_of_steps (fresh_of_create hmade).1.shipped hrun
  have hsource : dropReturn source = source := dropReturn_importLine hword hunder
  have hline : Line.classify (dropReturn source) = .importing package (aliasOf under) := by
    rw [hsource]
    exact classify_importLine hword hunder
  obtain ⟨henv, hok, -, hsaid⟩ := load_importing files e.state.environment
    (newline_not_mem_importLine hword hunder) hline
  let imported := Update.outcome files e.state.environment (.importPackage package under)
  let loaded := Update.outcome files e.state.environment (.load source)
  refine ⟨imported.1.diagnostics, loaded.1.diagnostics, outcomeOf imported.1, outcomeOf loaded.1,
    withEnvironment e imported.2, importPackage_reports files hs package under, ?_, hok,
    Update.returned files hs (.importPackage package under),
    Update.returned files hs (.load source), ?_, rfl, rfl⟩
  · have hleft : loaded.2 = imported.2 := henv
    rw [← hleft]
    exact load_reports files hs source
  · rw [hsource] at hsaid
    exact hsaid

/-- Importing `b`, which imports `c`, which imports `b`, fails by the call and by the line. The line
says one thing more. -/
theorem import_line_agrees_sample : ∃ e₀ : StandardEngine,
    create standardModule sample {} (text "r") {} = .ok e₀ ∧
    ∃ ds imported loaded e',
      (importPackage sample (text "b") (some (text "q"))).run e₀ = (.ok imported, e') ∧
      (load sample (text "import b as q")).run e₀ = (.ok loaded, e') ∧
      imported.ok = false ∧ loaded.ok = false ∧
      (Request.update (.importPackage (text "b") (some (text "q")))).Returns sample e₀ ds ∧
      (Request.update (.load (text "import b as q"))).Returns sample e₀
        (ds ++ [cannotImport (text "import b as q") (text "b")]) := by
  obtain ⟨e₀, hmade⟩ := create_sample
  have hunder : ∀ token ∈ some (text "q"), IsAlias token := by
    rintro token ⟨⟩
    exact .inl (by decide)
  obtain ⟨ds, ds', imported, loaded, e', himport, hload, hok, hsaid, hsaid', rfl, -⟩ :=
    import_line_agrees hmade .refl sample (by decide : isWord (text "b") = true) hunder
  have hfail : imported.ok = false := by
    have hreports := importPackage_reports sample (fresh_of_create hmade).1.shipped (text "b")
      (some (text "q"))
    rw [himport, environment_sample hmade] at hreports
    cases hreports
    rfl
  rw [hfail] at hok hsaid'
  exact ⟨e₀, hmade, ds, imported, loaded, e', himport, hload, hfail, hok, hsaid, hsaid'⟩

/-! ## Search paths -/

/-- The engine with another search path. -/
def searching (e : StandardEngine) (path : Bytes) : StandardEngine :=
  withEnvironment e { e.state.environment with searchPath := path }

section
variable {path directory contents : Bytes}

theorem shipped_searching (h : Shipped e) (path : Bytes) : Shipped (searching e path) :=
  shipped_withEnvironment h _

/-- What an import comes to with a search path. -/
theorem searching_run (h : Shipped e) (files : FileSystem) (path package : Bytes)
    (under : Option Bytes) :
    let outcome := Importer.importPackage files { e.state.environment with searchPath := path }
      package (aliasOf under)
    (importPackage files package under).run (searching e path) =
        (.ok (outcomeOf outcome.1), withEnvironment e outcome.2) ∧
      (Request.update (.importPackage package under)).Returns files (searching e path)
        outcome.1.diagnostics :=
  ⟨importPackage_reports files (shipped_searching h path) package under,
    Update.returned files (shipped_searching h path) (.importPackage package under)⟩

theorem searching_longer (h : Shipped e) (files : FileSystem) (first more package : Bytes)
    (under : Option Bytes) :
    ∃ ds outcome e',
      (Request.update (.importPackage package under)).Returns files (searching e first) ds ∧
      (importPackage files package under).run (searching e first) = (.ok outcome, e') ∧
      (outcome.ok = true →
        let longer := first ++ pathSeparator :: more
        (Request.update (.importPackage package under)).Returns files (searching e longer) ds ∧
        (importPackage files package under).run (searching e longer) =
          (.ok outcome, searching e' longer)) := by
  obtain ⟨hrun, hreturned⟩ := searching_run h files first package under
  refine ⟨_, _, _, hreturned, hrun, ?_⟩
  intro hok longer
  obtain ⟨hrun', hreturned'⟩ := searching_run h files longer package under
  have hsame := importPackage_extended (extends_append files first more) hok
  dsimp only at hrun' hreturned' hsame
  rw [hsame] at hrun' hreturned'
  exact ⟨hreturned', hrun'⟩

/-- The first file for a package decides whether it is imported. -/
theorem searching_first (h : Shipped e) (hidle : e.state.environment.packages.loading = [])
    (hheld : FirstHolding files path package directory contents)
    (hnew : e.state.environment.packages.found.lookup package = none) (under : Option Bytes) :
    ∃ ds outcome e' depth p,
      (Request.update (.importPackage package under)).Returns files (searching e path) ds ∧
      (importPackage files package under).run (searching e path) = (.ok outcome, e') ∧
      Processes files path depth (opened e.state.environment.packages package) []
        (some (candidate package directory)) contents p ∧
      (outcome.ok = true ↔ Accepted package p) ∧ p.diagnostics <+: ds := by
  let env := { e.state.environment with searchPath := path }
  obtain ⟨hrun, hreturned⟩ := searching_run h files path package under
  have hwaiting : package ∉ env.packages.loading := by
    show package ∉ e.state.environment.packages.loading
    rw [hidle]
    exact List.not_mem_nil
  obtain ⟨hfound, hsaid⟩ := findPackage_first (files.files.length + 1) hheld hnew hwaiting
  have hprocesses := processes_text files path (opened env.packages package) []
    (some (candidate package directory)) contents
    (Nat.succ_le_succ (length_packageFiles_le files path))
  refine ⟨_, _, _, _, _, hreturned, hrun, hprocesses, ?_, ?_⟩
  · exact Iff.trans importPackage_ok_iff hfound
  · rw [importPackage_diagnostics]
    exact hsaid

end

/-- A longer search path changes nothing for an import that succeeds: it succeeds again, says the
same and leaves the same engine, but for the path. When several directories of a path hold a file
for the package, the first is used: the import succeeds exactly when that file is accepted, and
what is said about that file is said first. In a file system where every package has the same first
file, the import is the same. -/
theorem import_path_extended
    (hmade : create (shippedModule gauge) installation settings standardHome options = .ok e₀)
    (hrun : Steps Call.Any e₀ e) (files : FileSystem) (package : Bytes) (under : Option Bytes) :
    let known := e.state.environment.packages
    let request := Request.update (.importPackage package under)
    let action : Action (StandardModule.State Unit) LoadOutcome := importPackage files package under
    (∀ path, (setSearchPath files path).run e = (.ok (), searching e path)) ∧
    (∀ first more, ∃ ds outcome e', request.Returns files (searching e first) ds ∧
      action.run (searching e first) = (.ok outcome, e') ∧
      (outcome.ok = true →
        let longer := first ++ pathSeparator :: more
        request.Returns files (searching e longer) ds ∧
        action.run (searching e longer) = (.ok outcome, searching e' longer))) ∧
    (∀ path directory contents, FirstHolding files path package directory contents →
      known.found.lookup package = none → ∃ ds outcome e' depth p,
        request.Returns files (searching e path) ds ∧
        action.run (searching e path) = (.ok outcome, e') ∧
        Processes files path depth (opened known package) []
          (some (candidate package directory)) contents p ∧
        (outcome.ok = true ↔ Accepted package p) ∧ p.diagnostics <+: ds) ∧
    ∀ path files', (∀ name directory contents,
      FirstHolding files' path name directory contents ↔
        FirstHolding files path name directory contents) →
      (importPackage files' package under).run (searching e path) =
        action.run (searching e path) := by
  have hfresh := (fresh_of_create hmade).1
  have hs : Shipped e := shipped_of_steps hfresh.shipped hrun
  have hidle : e.state.environment.packages.loading = [] := idle_of_steps hfresh hrun
  refine ⟨setSearchPath_run hs,
    fun first more => searching_longer hs files first more package under,
    fun path directory contents hheld hnew => searching_first hs hidle hheld hnew under, ?_⟩
  intro path files' hsame
  rw [(searching_run hs files' path package under).1, importPackage_alike (locate_alike hsame)]
  exact (searching_run hs files path package under).1.symm

/-- The package `a` is imported with its directory alone, and with another behind it. -/
theorem import_path_extended_sample : ∃ e₀ : StandardEngine,
    create standardModule sample {} (text "r") {} = .ok e₀ ∧
    ∃ ds outcome e', outcome.ok = true ∧
      (importPackage sample (text "a") none).run (searching e₀ (text "r/rpl:r/lib")) =
        (.ok outcome, e') ∧
      (Request.update (.importPackage (text "a") none)).Returns sample
        (searching e₀ (text "r/rpl:r/lib")) ds := by
  obtain ⟨e₀, hmade⟩ := create_sample
  obtain ⟨-, hlonger, -⟩ := import_path_extended hmade .refl sample (text "a") none
  obtain ⟨ds, outcome, e', -, hrun, hextends⟩ := hlonger (text "r/rpl") (text "r/lib")
  have hok : outcome.ok = true := by
    have hreports := (searching_run (fresh_of_create hmade).1.shipped sample (text "r/rpl")
      (text "a") none).1
    rw [hrun, environment_sample hmade] at hreports
    cases hreports
    decide +kernel
  obtain ⟨hreturned, hrun'⟩ := hextends hok
  exact ⟨e₀, hmade, ds, outcome, _, hok, hrun', hreturned⟩

/-! ## Graphs of imports -/

/-- Importing ends on every graph of imports. Whatever text is processed and whatever package is
searched for, the searches come to one end, and they are nested in each other no deeper than there
are different files of packages, but for one; a name that is no word may be searched for by a call,
which may add one more. Every search, in whatever way it ends, leaves the packages being loaded as
they were, and so does every row of calls. -/
theorem importing_ends (hs : Shipped e) (hidle : e.state.environment.packages.loading = [])
    (files : FileSystem) :
    let env := e.state.environment
    let path := env.searchPath
    let depth := (packageFiles files path).length + 1
    ((packageFiles files path).Nodup ∧
      ∀ place, place ∈ packageFiles files path ↔ IsPackageFile files path place) ∧
    (∀ filename source, ∃ p,
      Processes files path depth env.packages env.bindings filename source p ∧
      (∀ depth' q, Processes files path depth' env.packages env.bindings filename source q →
        q = p) ∧
      p.packages.loading = [] ∧
      (Importer.load files env source filename).1.diagnostics = p.diagnostics ∧
      (Importer.load files env source filename).2.packages = p.packages) ∧
    (∀ package, ∃ finding,
      Finds files path (if isWord package then depth else depth + 1) env.packages package finding ∧
      (∀ depth' other, Finds files path depth' env.packages package other → other = finding) ∧
      finding.packages.loading = [] ∧ finder files env env.packages package = finding) ∧
    (∀ depth' known name finding, Finds files path depth' known name finding →
      finding.packages.loading = known.loading) ∧
    ∀ e', Steps Call.Any e e' → e'.state.environment.packages.loading = [] := by
  intro env path depth
  have hroom : depth ≤ enoughFuel files :=
    (Nat.succ_le_succ (length_packageFiles_le files path)).trans (Nat.le_succ _)
  refine ⟨⟨nodup_packageFiles files path, fun place => mem_packageFiles⟩, ?_, ?_,
    fun depth' known name finding h => h.loading, ?_⟩
  · intro filename source
    have hprocesses := processes_text files path env.packages env.bindings filename source le_rfl
    obtain ⟨hdiagnostics, hpackages, -⟩ := load_text files env source filename
    have hsame := hprocesses.eq hroom
    refine ⟨_, hprocesses, fun depth' q h => h.unique hprocesses, ?_, ?_, ?_⟩
    · rw [hprocesses.loading, hidle]
    · rw [hdiagnostics, hsame]
      rfl
    · rw [hpackages, hsame]
      rfl
  · intro package
    have hfinds : Finds files path (if isWord package then depth else depth + 1) env.packages
        package (finder files env env.packages package) := by
      by_cases hword : isWord package = true
      · rw [if_pos hword]
        have hword' := finds_word files path env.packages hword le_rfl
        rw [hword'.unique (finds_finder files env env.packages package)] at hword'
        exact hword'
      · rw [if_neg hword]
        have hany := finds_any files path env.packages package le_rfl
        rw [hany.unique (finds_finder files env env.packages package)] at hany
        exact hany
    exact ⟨_, hfinds, fun depth' other h => h.unique hfinds, hfinds.loading.trans hidle, rfl⟩
  · intro e' h
    rw [loading_of_steps hs h, hidle]

/-- There are three files of packages. Two packages import each other, and a text that asks for one
of them twice is processed. -/
theorem importing_ends_sample : ∃ e₀ : StandardEngine,
    create standardModule sample {} (text "r") {} = .ok e₀ ∧
    (packageFiles sample (text "r/rpl")).length = 3 ∧
    ∃ p, Processes sample (text "r/rpl") 4 {} [] none (text "import b\nimport b\n") p ∧
      p.packages.loading = [] := by
  obtain ⟨e₀, hmade⟩ := create_sample
  have hfresh := (fresh_of_create hmade).1
  have hfiles : (packageFiles sample (text "r/rpl")).length = 3 := by decide +kernel
  have hidle : e₀.state.environment.packages.loading = [] := by rw [hfresh.packages]
  obtain ⟨-, htext, -⟩ := importing_ends hfresh.shipped hidle sample
  obtain ⟨p, hprocesses, -, hloading, -⟩ := htext none (text "import b\nimport b\n")
  rw [environment_sample hmade] at hprocesses
  rw [hfiles] at hprocesses
  exact ⟨e₀, hmade, hfiles, p, hprocesses, hloading⟩

end Standard

end PatternEngine
