import PatternEngine.Proofs.Importer.ImportLines
import PatternEngine.Proofs.Importer.Resolution
/-!
# How deep searches are nested

A search may process a file, which may make other searches in turn. The searches are told here by
rules, without any fuel (`Finds`): a finding is there only if every search that is made on the way
has one. The rules count how deep the searches are nested.

* `findPackage_of_finds` — the fuelled search comes to the finding, whatever fuel is left over, so
  there is one finding at most (`Finds.unique`).
* `finds_findPackage` — there is a finding for every graph of imports. The packages that wait for
  each other have different files, so the searches are nested no deeper than there are files of
  packages, but for one.
* `Finds.loading` — a search leaves the packages being loaded as they were.
-/
namespace PatternEngine

open PatternEngine.Source (Line isWord numberedLines)

namespace Source.Line

theorem ofPackage_imported (rest : Bytes) : (ofPackage rest).imported? = none := by
  unfold ofPackage
  split <;> (try split) <;> rfl

theorem ofBinding_imported (rest : Bytes) : (ofBinding rest).imported? = none := by
  unfold ofBinding
  dsimp only
  split <;> (try split) <;> (try split) <;> rfl

theorem ofImport_word {rest name : Bytes} (h : (ofImport rest).imported? = some name) :
    isWord name = true := by
  cases hl : ofImport rest <;> rw [hl] at h <;> cases h
  exact (ofImport_iff.1 hl).1

/-- A package that a line imports is a word. -/
theorem imported_word {line name : Bytes} (h : (classify line).imported? = some name) :
    isWord name = true := by
  rcases classify_cases line with e | ⟨rest, e⟩ | ⟨rest, e⟩ | ⟨rest, e⟩ <;> rw [e] at h
  · cases h
  · rw [ofPackage_imported] at h; cases h
  · exact ofImport_word h
  · rw [ofBinding_imported] at h; cases h

end Source.Line

namespace Importer

variable {files files' : FileSystem} {searchPath package name path contents : Bytes}
  {packages known : Packages} {find find' : Finder} {filename : Option Bytes} {p : Progress}
  {lines : List (Nat × Bytes)} {depth fuel : Nat} {finding finding' : Finding}

/-! ## The searches that lines make -/

/-- While the lines are processed, this package is searched for when these packages are known. -/
inductive Asks (find : Finder) (filename : Option Bytes) :
    List (Nat × Bytes) → Progress → Packages → Bytes → Prop where
  | first {number : Nat} {line name : Bytes} {lines : List (Nat × Bytes)} {p : Progress}
      (imports : (Line.classify line).imported? = some name) :
      Asks find filename ((number, line) :: lines) p p.packages name
  | later {l : Nat × Bytes} {lines : List (Nat × Bytes)} {p : Progress} {known : Packages}
      {name : Bytes} (asks : Asks find filename lines (processLine find filename p l) known name) :
      Asks find filename (l :: lines) p known name

/-- Lines import words. -/
theorem Asks.word (h : Asks find filename lines p known name) : isWord name = true := by
  induction h with
  | first imports => exact Line.imported_word imports
  | later _ ih => exact ih

/-- The packages being loaded are the same for all searches that lines make. -/
theorem Asks.loading
    (hfind : ∀ known name, (find known name).packages.loading = known.loading)
    (h : Asks find filename lines p known name) : known.loading = p.packages.loading := by
  induction h with
  | first => rfl
  | @later l lines p known name _ ih =>
    rw [ih, processLine_packages]
    split
    · exact hfind _ _
    · rfl

/-- Two ways to find packages that answer every search alike make the same of the lines. -/
theorem foldl_asks (h : ∀ known name, Asks find filename lines p known name →
    find known name = find' known name) :
    lines.foldl (processLine find filename) p = lines.foldl (processLine find' filename) p := by
  induction lines generalizing p with
  | nil => rfl
  | cons l lines ih =>
    obtain ⟨number, line⟩ := l
    have hline : processLine find filename p (number, line) =
        processLine find' filename p (number, line) :=
      processLine_congr fun name hname => h _ _ (.first hname)
    rw [List.foldl_cons, List.foldl_cons, ← hline]
    exact ih fun known name hasks => h _ _ (.later hasks)

/-- Lines that end without an error have found every package that they search for. -/
theorem Asks.found (h : Asks find filename lines p known name)
    (hclean : Diagnostic.anyError (lines.foldl (processLine find filename) p).diagnostics = false) :
    (find known name).exports ≠ none := by
  induction h with
  | first imports =>
    intro hnone
    rw [List.foldl_cons, foldl_error _ _ (processLine_not_found imports hnone)] at hclean
    cases hclean
  | later _ ih => exact ih hclean

/-- The searches that a text makes. -/
def TextAsks (find : Finder) (packages : Packages) (bindings : Bindings) (filename : Option Bytes)
    (source : Bytes) : Packages → Bytes → Prop :=
  Asks find filename (numberedLines source) { bindings, packages }

theorem process_asks {bindings : Bindings} {source : Bytes}
    (h : ∀ known name, TextAsks find packages bindings filename source known name →
      find known name = find' known name) :
    process find packages bindings filename source =
      process find' packages bindings filename source :=
  foldl_asks h

/-! ## Searches by rules -/

/-- The packages known when the file of a package is opened. -/
def opened (packages : Packages) (package : Bytes) : Packages :=
  { packages with loading := package :: packages.loading }

theorem loadPackage_asks
    (h : ∀ known name, TextAsks find (opened packages package) [] (some path) contents known name →
      find known name = find' known name) :
    loadPackage find packages package path contents =
      loadPackage find' packages package path contents := by
  have hprocess : process find (opened packages package) [] (some path) contents =
      process find' (opened packages package) [] (some path) contents := process_asks h
  unfold opened at hprocess
  unfold loadPackage
  simp only [hprocess]

/-- A search for a package comes to a finding, and no more than this many searches are nested in
each other. A package is known, or it is being loaded already, or it has no file, or its file is
processed and every search that is made on the way comes to a finding. -/
inductive Finds (files : FileSystem) (searchPath : Bytes) :
    Nat → Packages → Bytes → Finding → Prop where
  | known {depth : Nat} {packages : Packages} {package : Bytes} {exports : Bindings}
      (found : packages.found.lookup package = some exports) :
      Finds files searchPath (depth + 1) packages package ⟨some exports, [], packages⟩
  | circular {depth : Nat} {packages : Packages} {package : Bytes}
      (new : packages.found.lookup package = none) (waiting : package ∈ packages.loading) :
      Finds files searchPath (depth + 1) packages package
        ⟨none, [searchError (text "circular import of package " ++ package) none], packages⟩
  | missing {depth : Nat} {packages : Packages} {package : Bytes}
      (new : packages.found.lookup package = none) (idle : package ∉ packages.loading)
      (absent : locate files searchPath package = none) :
      Finds files searchPath (depth + 1) packages package
        ⟨none, [searchError (text "package " ++ package ++ text " not found on libpath " ++
          searchPath) none], packages⟩
  | loaded {find : Finder} {depth : Nat} {packages : Packages} {package path contents : Bytes}
      (new : packages.found.lookup package = none) (idle : package ∉ packages.loading)
      (located : locate files searchPath package = some (path, contents))
      (nested : ∀ known name,
        TextAsks find (opened packages package) [] (some path) contents known name →
        Finds files searchPath depth known name (find known name)) :
      Finds files searchPath (depth + 1) packages package
        (loadPackage find packages package path contents)

/-- A text is processed to this, and no more than this many searches are nested in each other on
the way. -/
def Processes (files : FileSystem) (searchPath : Bytes) (depth : Nat) (packages : Packages)
    (bindings : Bindings) (filename : Option Bytes) (source : Bytes) (p : Progress) : Prop :=
  ∃ find : Finder, p = process find packages bindings filename source ∧
    ∀ known name, TextAsks find packages bindings filename source known name →
      Finds files searchPath depth known name (find known name)

/-- Fuel for as many searches as are nested is enough, and more of it changes nothing. -/
theorem findPackage_of_finds (h : Finds files searchPath depth packages package finding) :
    ∀ fuel, depth ≤ fuel → findPackage files searchPath fuel packages package = finding := by
  induction h with
  | @known depth packages package exports found =>
    intro fuel hfuel
    obtain ⟨more, rfl⟩ := Nat.exists_eq_add_of_le' (Nat.lt_of_lt_of_le depth.succ_pos hfuel)
    exact findPackage_cached found
  | @circular depth packages package new waiting =>
    intro fuel hfuel
    obtain ⟨more, rfl⟩ := Nat.exists_eq_add_of_le' (Nat.lt_of_lt_of_le depth.succ_pos hfuel)
    exact findPackage_circular new waiting
  | @missing depth packages package new idle absent =>
    intro fuel hfuel
    obtain ⟨more, rfl⟩ := Nat.exists_eq_add_of_le' (Nat.lt_of_lt_of_le depth.succ_pos hfuel)
    exact findPackage_missing new idle absent
  | @loaded find depth packages package path contents new idle located _ ih =>
    intro fuel hfuel
    obtain ⟨more, rfl⟩ := Nat.exists_eq_add_of_le' (Nat.lt_of_lt_of_le depth.succ_pos hfuel)
    rw [findPackage_load new idle located]
    refine (loadPackage_asks ?_).symm
    intro known name hasks
    exact (ih known name hasks more (Nat.le_of_succ_le_succ hfuel)).symm

/-- There is no more than one finding. -/
theorem Finds.unique {depth' : Nat} (h : Finds files searchPath depth packages package finding)
    (h' : Finds files searchPath depth' packages package finding') : finding = finding' := by
  rw [← findPackage_of_finds h (depth + depth') (Nat.le_add_right _ _),
    ← findPackage_of_finds h' (depth + depth') (Nat.le_add_left _ _)]

/-- A search leaves the packages being loaded as they were, in whatever way it ends. -/
theorem Finds.loading (h : Finds files searchPath depth packages package finding) :
    finding.packages.loading = packages.loading := by
  rw [← findPackage_of_finds h depth le_rfl]
  exact (findPackage_grows files searchPath packages depth packages package (not_fresh _)).loading

/-- A search sees the files only through what is located on the search path. -/
theorem Finds.located_alike (h : Finds files searchPath depth packages package finding)
    (halike : ∀ name, locate files' searchPath name = locate files searchPath name) :
    Finds files' searchPath depth packages package finding := by
  induction h with
  | known found => exact .known found
  | circular new waiting => exact .circular new waiting
  | missing new idle absent => exact .missing new idle ((halike _).trans absent)
  | loaded new idle located _ ih => exact .loaded new idle ((halike _).trans located) ih

/-- What processing comes to by the rules is what it comes to with enough fuel. -/
theorem Processes.eq {bindings : Bindings} {source : Bytes}
    (h : Processes files searchPath depth packages bindings filename source p)
    (hfuel : depth ≤ fuel) :
    p = process (findPackage files searchPath fuel) packages bindings filename source := by
  obtain ⟨find, rfl, hnested⟩ := h
  apply process_asks
  intro known name hasks
  exact (findPackage_of_finds (hnested known name hasks) fuel hfuel).symm

theorem Processes.loading {bindings : Bindings} {source : Bytes}
    (h : Processes files searchPath depth packages bindings filename source p) :
    p.packages.loading = packages.loading := by
  rw [h.eq le_rfl]
  exact (process_grows (findPackage_grows files searchPath packages depth)
    (not_fresh packages)).loading

theorem Processes.unique {bindings : Bindings} {source : Bytes} {depth' : Nat} {q : Progress}
    (h : Processes files searchPath depth packages bindings filename source p)
    (h' : Processes files searchPath depth' packages bindings filename source q) : p = q := by
  rw [h.eq (Nat.le_add_right depth depth'), h'.eq (Nat.le_add_left depth' depth)]

/-! ## Every search ends -/

theorem findPackage_loading (files : FileSystem) (searchPath : Bytes) (fuel : Nat)
    (packages : Packages) (package : Bytes) :
    (findPackage files searchPath fuel packages package).packages.loading = packages.loading :=
  (findPackage_grows files searchPath packages fuel packages package (not_fresh _)).loading

/-- A search whose file may be opened comes to a finding when those that it makes do. -/
theorem finds_of_nested
    (h : package ∉ packages.loading → ∀ path contents,
      locate files searchPath package = some (path, contents) → ∀ known name,
      known.loading = package :: packages.loading → isWord name = true →
      Finds files searchPath fuel known name (findPackage files searchPath fuel known name)) :
    Finds files searchPath (fuel + 1) packages package
      (findPackage files searchPath (fuel + 1) packages package) := by
  cases hc : packages.found.lookup package with
  | some exports =>
    rw [findPackage_cached hc]
    exact .known hc
  | none =>
    by_cases hl : package ∈ packages.loading
    · rw [findPackage_circular hc hl]
      exact .circular hc hl
    · cases hf : locate files searchPath package with
      | none =>
        rw [findPackage_missing hc hl hf]
        exact .missing hc hl hf
      | some file =>
        obtain ⟨path, contents⟩ := file
        rw [findPackage_load hc hl hf]
        refine .loaded hc hl hf ?_
        intro known name hasks
        have hloading : known.loading = package :: packages.loading :=
          Asks.loading (findPackage_loading files searchPath fuel) hasks
        exact h hl path contents hf known name hloading hasks.word

/-- A search for a word ends. Of the packages being loaded, those before `base` are different words
that have a file. Each nested search puts one more before them, and there are no more such words
than files of packages, so the induction on the fuel never gets to its end. -/
theorem finds_findPackage (base : List Bytes) : ∀ (fuel : Nat) (packages : Packages)
    (package : Bytes) (waiting : List Bytes), packages.loading = waiting ++ base →
    waiting.Nodup →
    (∀ name ∈ waiting, isWord name = true ∧ ∃ file, locate files searchPath name = some file) →
    isWord package = true →
    (packageFiles files searchPath).length < fuel + waiting.length →
    Finds files searchPath fuel packages package
      (findPackage files searchPath fuel packages package)
  | 0, packages, package, waiting, _, hnodup, hlocated, _, hroom => by
    have hfull := length_le_packageFiles hnodup hlocated
    omega
  | fuel + 1, packages, package, waiting, hloading, hnodup, hlocated, hword, hroom => by
    apply finds_of_nested
    intro hidle path contents hfile known name hknown hname
    have hnew : package ∉ waiting := fun hm => hidle (hloading ▸ List.mem_append_left _ hm)
    refine finds_findPackage base fuel known name (package :: waiting) ?_ ?_ ?_ hname ?_
    · rw [hknown, hloading, List.cons_append]
    · exact List.nodup_cons.2 ⟨hnew, hnodup⟩
    · intro other hm
      rcases List.mem_cons.1 hm with rfl | hm
      · exact ⟨hword, _, hfile⟩
      · exact hlocated other hm
    · rw [List.length_cons]
      omega

/-- Searches for words are nested no deeper than there are files of packages, but for one. -/
theorem finds_word (files : FileSystem) (searchPath : Bytes) (packages : Packages)
    (hword : isWord package = true)
    (hfuel : (packageFiles files searchPath).length + 1 ≤ fuel) :
    Finds files searchPath fuel packages package
      (findPackage files searchPath fuel packages package) := by
  refine finds_findPackage packages.loading fuel packages package [] rfl List.nodup_nil ?_ hword ?_
  · intro name hm
    cases hm
  · rw [List.length_nil]
    omega

/-- The first search may be for any name, and the searches that it makes are for words. -/
theorem finds_any (files : FileSystem) (searchPath : Bytes) (packages : Packages) (package : Bytes)
    (hfuel : (packageFiles files searchPath).length + 1 ≤ fuel) :
    Finds files searchPath (fuel + 1) packages package
      (findPackage files searchPath (fuel + 1) packages package) := by
  apply finds_of_nested
  intro _ path contents _ known name _ hname
  exact finds_word files searchPath known hname hfuel

/-- An environment has fuel enough for every search. -/
theorem finds_finder (files : FileSystem) (env : Environment) (packages : Packages)
    (package : Bytes) :
    Finds files env.searchPath (enoughFuel files) packages package
      (finder files env packages package) :=
  finds_any files env.searchPath packages package
    (Nat.succ_le_succ (length_packageFiles_le files env.searchPath))

/-- A text is processed, whatever its import lines lead to. -/
theorem processes_text (files : FileSystem) (searchPath : Bytes) (packages : Packages)
    (bindings : Bindings) (filename : Option Bytes) (source : Bytes)
    (hfuel : (packageFiles files searchPath).length + 1 ≤ fuel) :
    Processes files searchPath fuel packages bindings filename source
      (process (findPackage files searchPath fuel) packages bindings filename source) := by
  refine ⟨findPackage files searchPath fuel, rfl, ?_⟩
  intro known name hasks
  exact finds_word files searchPath known hasks.word hfuel

end Importer

end PatternEngine
