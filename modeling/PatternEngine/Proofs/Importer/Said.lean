import PatternEngine.Proofs.Importer.Updates
/-!
# What is said about sources and packages

A property of diagnostics holds of everything that an update says when it holds of what is said
about single lines, about searches and about files that cannot be opened (`findPackage_said`,
`load_said`, `loadFile_said`, `importPackage_said`). A search finds exactly when it says no error
(`findPackage_error`), and an update succeeds exactly when no error is among what it says
(`load_ok`, `loadFile_ok`, `importPackage_ok`).
-/
namespace PatternEngine.Importer

open PatternEngine.Source (Alias Line)

variable {files : FileSystem} {searchPath package path contents source line : Bytes}
  {packages : Packages} {find : Finder} {filename : Option Bytes} {p : Progress} {number : Nat}
  {env : Environment}

/-! ## What holds of everything that is said -/

section
variable {P : Diagnostic → Prop}

/-- The property holds of what is said about any line of a text, which may be that of a file. -/
def OfLines (P : Diagnostic → Prop) (filename : Option Bytes) (source : Bytes) : Prop :=
  ∀ number line severity message expression,
    (number, line) ∈ Source.numberedLines source → severity ≠ .info →
    P (lineDiagnostic filename number line severity message expression)

theorem report_said {new : Diagnostic} (hp : ∀ d ∈ p.diagnostics, P d) (hnew : P new) :
    ∀ d ∈ (p.report new).diagnostics, P d := by
  intro d hm
  rcases List.mem_append.1 hm with hm | hm
  · exact hp d hm
  · rw [List.mem_singleton.1 hm]
    exact hnew

theorem bind_said {report : Severity → Bytes → Option Bytes → Diagnostic}
    (hreport : ∀ severity message expression, severity ≠ .info →
      P (report severity message expression)) (hp : ∀ d ∈ p.diagnostics, P d)
    (name expression : Bytes) : ∀ d ∈ (bind p report name expression).diagnostics, P d := by
  unfold bind
  split
  · exact report_said hp (hreport .error _ _ (by decide))
  · dsimp only
    split
    · exact report_said hp (hreport .warning _ _ (by decide))
    · exact hp

/-- What is said when a line is processed was said before, or by a search, or about the line. -/
theorem processLine_said (hfind : ∀ packages name, ∀ d ∈ (find packages name).diagnostics, P d)
    (hline : ∀ severity message expression, severity ≠ .info →
      P (lineDiagnostic filename number line severity message expression))
    (hp : ∀ d ∈ p.diagnostics, P d) :
    ∀ d ∈ (processLine find filename p (number, line)).diagnostics, P d := by
  unfold processLine
  dsimp only
  split
  · exact hp
  · split
    · exact report_said hp (hline .error _ _ (by decide))
    · exact hp
  · exact report_said hp (hline .error _ _ (by decide))
  · rename_i name under _
    have hsearched : ∀ d ∈ p.diagnostics ++ (find p.packages name).diagnostics, P d := by
      intro d hm
      rcases List.mem_append.1 hm with hm | hm
      · exact hp d hm
      · exact hfind _ _ d hm
    split
    · exact hsearched
    · refine report_said ?_ (hline .error _ _ (by decide))
      exact hsearched
  · exact report_said hp (hline .error _ _ (by decide))
  · exact bind_said hline hp _ _
  · exact report_said hp (hline .error _ _ (by decide))
  · exact report_said hp (hline .error _ _ (by decide))

theorem process_said (hfind : ∀ packages name, ∀ d ∈ (find packages name).diagnostics, P d)
    (hlines : OfLines P filename source) (packages : Packages) (bindings : Bindings) :
    ∀ d ∈ (process find packages bindings filename source).diagnostics, P d := by
  apply process_induction (P := fun p => ∀ d ∈ p.diagnostics, P d)
  · intro d hm
    cases hm
  · intro p number line hmem hp
    refine processLine_said hfind ?_ hp
    intro severity message expression hseverity
    exact hlines _ _ _ _ _ hmem hseverity

theorem mem_of_read (h : files.read path = .ok contents) :
    ∃ place, (place, contents) ∈ files.files := by
  obtain ⟨place, -, hentry⟩ := FileSystem.read_iff.1 h
  obtain ⟨before, after, he, -⟩ := List.lookup_eq_some_iff.1 (FileSystem.lookup_of_entry hentry)
  exact ⟨place, by simp [he]⟩

/-- What is found on a search path is the contents of a file. -/
theorem mem_of_locate (h : locate files searchPath package = some (path, contents)) :
    ∃ place, (place, contents) ∈ files.files := by
  obtain ⟨directory, -, hd⟩ := List.exists_of_findSome?_eq_some h
  split at hd
  · rename_i c hr
    cases hd
    exact mem_of_read hr
  · cases hd

theorem loadPackage_said (hfind : ∀ packages name, ∀ d ∈ (find packages name).diagnostics, P d)
    (hsearch : ∀ message filename, P (searchError message filename))
    (hlines : OfLines P (some path) contents) :
    ∀ d ∈ (loadPackage find packages package path contents).diagnostics, P d := by
  have hp := process_said hfind hlines { packages with loading := package :: packages.loading } []
  unfold loadPackage
  dsimp only
  split
  · exact hp
  · split
    · intro d hm
      rcases List.mem_append.1 hm with hm | hm
      · exact hp d hm
      · rw [List.mem_singleton.1 hm]
        exact hsearch _ _
    · exact hp

/-- What a search says is about searches, or about lines of files. The induction is on the fuel,
which the nested searches have one unit less of. -/
theorem findPackage_said (hsearch : ∀ message filename, P (searchError message filename))
    (hfiles : ∀ entry ∈ files.files, ∀ path, OfLines P (some path) entry.2) (searchPath : Bytes) :
    ∀ (fuel : Nat) (packages : Packages) (package : Bytes),
      ∀ d ∈ (findPackage files searchPath fuel packages package).diagnostics, P d
  | 0, _, _ => by
    intro d hm
    cases hm
  | fuel + 1, packages, package => by
    cases hc : packages.found.lookup package with
    | some exports =>
      rw [findPackage_cached hc]
      intro d hm
      cases hm
    | none =>
      by_cases hl : package ∈ packages.loading
      · rw [findPackage_circular hc hl]
        intro d hm
        rw [List.mem_singleton.1 hm]
        exact hsearch _ _
      · cases hf : locate files searchPath package with
        | none =>
          rw [findPackage_missing hc hl hf]
          intro d hm
          rw [List.mem_singleton.1 hm]
          exact hsearch _ _
        | some file =>
          obtain ⟨path, contents⟩ := file
          obtain ⟨place, hplace⟩ := mem_of_locate hf
          rw [findPackage_load hc hl hf]
          exact loadPackage_said (findPackage_said hsearch hfiles searchPath fuel) hsearch
            (hfiles _ hplace path)

theorem load_said (hsearch : ∀ message filename, P (searchError message filename))
    (hfiles : ∀ entry ∈ files.files, ∀ path, OfLines P (some path) entry.2)
    (hsource : OfLines P filename source) :
    ∀ d ∈ (load files env source filename).1.diagnostics, P d := by
  have hp := process_said (findPackage_said hsearch hfiles env.searchPath (enoughFuel files))
    hsource env.packages env.bindings
  unfold load
  dsimp only
  split <;> exact hp

theorem loadFile_said (hsearch : ∀ message filename, P (searchError message filename))
    (hopen : ∀ message filename,
      P { who := text "loader", severity := .error, message, filename })
    (hfiles : ∀ entry ∈ files.files, ∀ path, OfLines P (some path) entry.2) (path : Bytes) :
    ∀ d ∈ (loadFile files env path).1.diagnostics, P d := by
  unfold loadFile
  split
  · rename_i source hr
    obtain ⟨place, hm⟩ := mem_of_read hr
    exact load_said hsearch hfiles (hfiles _ hm path)
  · intro d hm
    rw [List.mem_singleton.1 hm]
    exact hopen _ _

theorem importPackage_said (hsearch : ∀ message filename, P (searchError message filename))
    (hfiles : ∀ entry ∈ files.files, ∀ path, OfLines P (some path) entry.2) (package : Bytes)
    (under : Alias) :
    ∀ d ∈ (importPackage files env package under).1.diagnostics, P d := by
  have hp := findPackage_said hsearch hfiles env.searchPath (enoughFuel files) env.packages package
  unfold importPackage
  dsimp only
  split <;> exact hp

end

/-! ## Lines of a text -/

/-- A text has no more lines than bytes, but for one. -/
theorem number_le_length (h : (number, line) ∈ Source.numberedLines source) :
    number ≤ source.length + 1 := by
  obtain ⟨⟨piece, i⟩, hm, he⟩ := List.mem_map.1 h
  cases he
  have hi := List.snd_lt_of_mem_zipIdx hm
  have hcount : source.count Bytes.newline ≤ source.length := List.count_le_length
  rw [Bytes.length_splitOn] at hi
  omega

/-! ## Success and errors -/

/-- A search finds exactly when it says no error. -/
theorem findPackage_error (files : FileSystem) (searchPath : Bytes) (fuel : Nat)
    (packages : Packages) (package : Bytes) :
    let finding := findPackage files searchPath (fuel + 1) packages package
    Diagnostic.anyError finding.diagnostics = finding.exports.isNone := by
  dsimp only
  cases hc : packages.found.lookup package with
  | some exports =>
    rw [findPackage_cached hc]
    rfl
  | none =>
    by_cases hl : package ∈ packages.loading
    · rw [findPackage_circular hc hl]
      rfl
    · cases hf : locate files searchPath package with
      | none =>
        rw [findPackage_missing hc hl hf]
        rfl
      | some file =>
        rw [findPackage_load hc hl hf]
        unfold loadPackage
        dsimp only
        split
        · rename_i herror
          exact herror
        · split
          · rw [Diagnostic.anyError_append]
            exact Bool.or_true _
          · rename_i hclean _
            simpa using hclean

/-- Loading succeeds exactly when it says no error. -/
theorem load_ok (source : Bytes) (filename : Option Bytes) :
    let report := (load files env source filename).1
    report.ok = !Diagnostic.anyError report.diagnostics := by
  unfold load
  dsimp only
  split
  · rename_i herror
    rw [herror]
    rfl
  · rename_i hclean
    simpa using hclean

theorem loadFile_ok (path : Bytes) :
    let report := (loadFile files env path).1
    report.ok = !Diagnostic.anyError report.diagnostics := by
  unfold loadFile
  dsimp only
  split
  · exact load_ok _ _
  · rfl

/-- Importing succeeds exactly when it says no error, and then it names the package. -/
theorem importPackage_ok (package : Bytes) (under : Alias) :
    let report := (importPackage files env package under).1
    report.ok = !Diagnostic.anyError report.diagnostics ∧
      report.package = if report.ok then some package else none := by
  have herror := findPackage_error files env.searchPath (files.files.length + 1) env.packages
    package
  unfold importPackage finder enoughFuel
  dsimp only at herror ⊢
  split
  · rename_i hnone
    rw [hnone] at herror
    exact ⟨by rw [herror]; rfl, rfl⟩
  · rename_i exports hsome
    rw [hsome] at herror
    exact ⟨by rw [herror]; rfl, rfl⟩

end PatternEngine.Importer
