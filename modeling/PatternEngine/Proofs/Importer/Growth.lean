import PatternEngine.Proofs.Importer.Lines
/-!
# What a search leaves behind

Searching for a package, and processing a text, moves the known packages in one way only: the list
of packages being loaded is as it was, what was found stays found with the same names, and what is
new has had its own file processed without an error under its own name (`findPackage_grows`,
`process_grows`).
-/
namespace PatternEngine.Importer

variable {files : FileSystem} {searchPath package path contents : Bytes} {packages : Packages}
  {find : Finder} {fuel : Nat} {exports : Bindings}

/-! ## The four ways of a search -/

theorem findPackage_cached (h : packages.found.lookup package = some exports) :
    findPackage files searchPath (fuel + 1) packages package = ⟨some exports, [], packages⟩ := by
  simp only [findPackage, h]

theorem findPackage_circular (h : packages.found.lookup package = none)
    (hl : package ∈ packages.loading) :
    findPackage files searchPath (fuel + 1) packages package =
      ⟨none, [searchError (text "circular import of package " ++ package) none], packages⟩ := by
  simp only [findPackage, h, List.contains_iff_mem, hl, if_true]

theorem findPackage_missing (h : packages.found.lookup package = none)
    (hl : package ∉ packages.loading) (hf : locate files searchPath package = none) :
    findPackage files searchPath (fuel + 1) packages package =
      ⟨none, [searchError (text "package " ++ package ++ text " not found on libpath " ++
        searchPath) none], packages⟩ := by
  simp only [findPackage, h, List.contains_iff_mem, hl, if_false, hf]

theorem findPackage_load (h : packages.found.lookup package = none)
    (hl : package ∉ packages.loading)
    (hf : locate files searchPath package = some (path, contents)) :
    findPackage files searchPath (fuel + 1) packages package =
      loadPackage (findPackage files searchPath fuel) packages package path contents := by
  simp only [findPackage, h, List.contains_iff_mem, hl, if_false, hf]

/-- A search gives what was found before, or nothing, or it loads the package's file with one unit
of fuel less. -/
theorem findPackage_ways (files : FileSystem) (searchPath : Bytes) (fuel : Nat)
    (packages : Packages) (package : Bytes) :
    let finding := findPackage files searchPath fuel packages package
    (∃ exports, packages.found.lookup package = some exports ∧
      finding = ⟨some exports, [], packages⟩) ∨
    (∃ diagnostics, finding = ⟨none, diagnostics, packages⟩) ∨
    ∃ less path contents, fuel = less + 1 ∧
      finding = loadPackage (findPackage files searchPath less) packages package path contents := by
  dsimp only
  cases fuel with
  | zero => exact .inr (.inl ⟨[], rfl⟩)
  | succ fuel =>
    cases hc : packages.found.lookup package with
    | some exports => exact .inl ⟨exports, rfl, findPackage_cached hc⟩
    | none =>
      by_cases hl : package ∈ packages.loading
      · exact .inr (.inl ⟨_, findPackage_circular hc hl⟩)
      · cases hf : locate files searchPath package with
        | none => exact .inr (.inl ⟨_, findPackage_missing hc hl hf⟩)
        | some file => exact .inr (.inr ⟨fuel, file.1, file.2, rfl, findPackage_load hc hl hf⟩)

/-! ## Loading a package -/

/-- Everything that is processed for a package's file. -/
def packageProgress (find : Finder) (packages : Packages) (package path contents : Bytes) :
    Progress :=
  process find { packages with loading := package :: packages.loading } [] (some path) contents

/-- The packages known after a file has been processed. -/
def closePackage (package : Bytes) (p : Progress) : Packages :=
  { p.packages with loading := p.packages.loading.erase package }

/-- A package's file is of use when it has no error and declares the package. -/
def Accepted (package : Bytes) (p : Progress) : Prop :=
  Diagnostic.anyError p.diagnostics = false ∧ p.declared = some package

theorem loadPackage_accepted
    (h : Accepted package (packageProgress find packages package path contents)) :
    loadPackage find packages package path contents =
      let p := packageProgress find packages package path contents
      ⟨some p.own, p.diagnostics, { closePackage package p with
        found := (package, p.own) :: p.packages.found }⟩ := by
  obtain ⟨he, hd⟩ := h
  simp only [packageProgress] at he hd
  simp only [loadPackage, he, hd, Bool.false_eq_true, if_false, bne_self_eq_false]
  rfl

theorem loadPackage_refused
    (h : ¬ Accepted package (packageProgress find packages package path contents)) :
    (loadPackage find packages package path contents).exports = none ∧
    (loadPackage find packages package path contents).packages =
      closePackage package (packageProgress find packages package path contents) := by
  simp only [loadPackage]
  split
  · exact ⟨rfl, rfl⟩
  · rename_i he
    split
    · exact ⟨rfl, rfl⟩
    · rename_i hd
      refine absurd ⟨by simpa [packageProgress] using he, ?_⟩ h
      simpa [packageProgress] using hd

/-- What is said about the file of a package comes first in what the search says. -/
theorem loadPackage_diagnostics (find : Finder) (packages : Packages)
    (package path contents : Bytes) :
    (packageProgress find packages package path contents).diagnostics <+:
      (loadPackage find packages package path contents).diagnostics := by
  unfold loadPackage
  dsimp only
  split
  · exact List.prefix_rfl
  · split
    · exact List.prefix_append _ _
    · exact List.prefix_rfl

/-! ## Growth -/

/-- What a search does to the packages; `P` holds of every package that is new. -/
structure Grows (P : Bytes → Bindings → Prop) (old new : Packages) : Prop where
  loading : new.loading = old.loading
  kept : ∀ package exports, old.found.lookup package = some exports →
    new.found.lookup package = some exports
  fresh : ∀ package exports, old.found.lookup package = none →
    new.found.lookup package = some exports → P package exports

variable {P : Bytes → Bindings → Prop}

theorem Grows.refl (packages : Packages) : Grows P packages packages :=
  ⟨rfl, fun _ _ h => h, fun _ _ h h' => by rw [h] at h'; cases h'⟩

/-- What is new from one state to a third is new in one of the two steps. -/
theorem fresh_trans {a b c : Packages}
    (hab : ∀ name names, a.found.lookup name = none → b.found.lookup name = some names →
      P name names) (hbc : Grows P b c) {name : Bytes} {names : Bindings}
    (hn : a.found.lookup name = none) (hs : c.found.lookup name = some names) :
    P name names := by
  cases hb : b.found.lookup name with
  | none => exact hbc.fresh name names hb hs
  | some names' =>
    have hkept := hbc.kept name names' hb
    rw [hs] at hkept; cases hkept
    exact hab name names hn hb

theorem Grows.trans {a b c : Packages} (hab : Grows P a b) (hbc : Grows P b c) : Grows P a c :=
  ⟨hbc.loading.trans hab.loading, fun q e h => hbc.kept q e (hab.kept q e h),
    fun _ _ => fresh_trans hab.fresh hbc⟩

/-- The mark that a package is being loaded is taken off again. -/
theorem closePackage_grows {p : Progress}
    (h : Grows P { packages with loading := package :: packages.loading } p.packages) :
    Grows P packages (closePackage package p) :=
  ⟨by simp [closePackage, h.loading], h.kept, h.fresh⟩

theorem lookup_cons_ne {name : Bytes} (h : name ≠ package) (found : List (Bytes × Bindings)) :
    List.lookup name ((package, exports) :: found) = found.lookup name := by
  have hb : (name == package) = false := by simpa using h
  simp [List.lookup_cons, hb]

/-- A package that is put with those found is the only one that is new beside them. -/
theorem Grows.found {old new : Packages} (h : Grows P old new)
    (hn : old.found.lookup package = none) (hp : P package exports) :
    Grows P old { new with found := (package, exports) :: new.found } := by
  refine ⟨h.loading, ?_, ?_⟩
  · intro q e hq
    have hne : q ≠ package := by intro he; subst he; rw [hn] at hq; cases hq
    simpa only [lookup_cons_ne hne] using h.kept q e hq
  · intro q e hq hs
    by_cases he : q = package
    · subst he
      simp only [List.lookup_cons_self] at hs; cases hs
      exact hp
    · simp only [lookup_cons_ne he] at hs
      exact h.fresh q e hq hs

/-- The package's own file was processed without an error and declared the package. What was known
by then and not before had been loaded in the same way. -/
inductive Loaded (files : FileSystem) (searchPath : Bytes) (before : Packages) :
    Bytes → Bindings → Prop
  | intro {fuel : Nat} {packages : Packages} {package path contents : Bytes}
      (known : ∀ name names, before.found.lookup name = none →
        packages.found.lookup name = some names → Loaded files searchPath before name names)
      (located : locate files searchPath package = some (path, contents))
      (accepted : Accepted package
        (packageProgress (findPackage files searchPath fuel) packages package path contents)) :
      Loaded files searchPath before package
        (packageProgress (findPackage files searchPath fuel) packages package path contents).own

/-- Processing a text makes the packages grow when every search does. -/
theorem process_grows {before : Packages} {bindings : Bindings} {filename : Option Bytes}
    {source : Bytes}
    (hfind : ∀ packages package, (∀ name names, before.found.lookup name = none →
      packages.found.lookup name = some names → P name names) →
      Grows P packages (find packages package).packages)
    (hknown : ∀ name names, before.found.lookup name = none →
      packages.found.lookup name = some names → P name names) :
    Grows P packages (process find packages bindings filename source).packages := by
  apply process_induction (P := fun p => Grows P packages p.packages) (Grows.refl _)
  intro p number line _ hp
  simp only [processLine_packages]
  split
  · exact hp.trans (hfind _ _ fun _ _ => fresh_trans hknown hp)
  · exact hp

/-- A search leaves the packages being loaded as they were, and the found ones where they were;
a package that is new has been loaded. The induction is on the fuel, which the nested searches
have one unit less of. -/
theorem findPackage_grows (files : FileSystem) (searchPath : Bytes) (before : Packages) :
    ∀ (fuel : Nat) (packages : Packages) (package : Bytes),
      (∀ name names, before.found.lookup name = none →
        packages.found.lookup name = some names → Loaded files searchPath before name names) →
      Grows (Loaded files searchPath before) packages
        (findPackage files searchPath fuel packages package).packages
  | 0, packages, _, _ => Grows.refl packages
  | fuel + 1, packages, package, hknown => by
    cases hc : packages.found.lookup package with
    | some exports => rw [findPackage_cached hc]; exact Grows.refl packages
    | none =>
    by_cases hl : package ∈ packages.loading
    · rw [findPackage_circular hc hl]; exact Grows.refl packages
    cases hf : locate files searchPath package with
    | none => rw [findPackage_missing hc hl hf]; exact Grows.refl packages
    | some file =>
    obtain ⟨path, contents⟩ := file
    rw [findPackage_load hc hl hf]
    let p := packageProgress (findPackage files searchPath fuel) packages package path contents
    have hp : Grows (Loaded files searchPath before) packages (closePackage package p) :=
      closePackage_grows (process_grows (findPackage_grows files searchPath before fuel) hknown)
    by_cases ha : Accepted package p
    · rw [loadPackage_accepted ha]
      exact hp.found hc (.intro hknown hf ha)
    · rw [(loadPackage_refused ha).2]
      exact hp

/-- A search starts with nothing that is new. -/
theorem not_fresh (packages : Packages) : ∀ name names, packages.found.lookup name = none →
    packages.found.lookup name = some names → P name names := by
  intro name names hn hs
  rw [hn] at hs; cases hs

end PatternEngine.Importer
