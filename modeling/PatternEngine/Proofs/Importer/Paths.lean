import PatternEngine.Proofs.Importer.Nesting
import PatternEngine.Proofs.Importer.Rebinding
/-!
# Search paths

A search opens the file in the first directory of the search path that holds one which can be read
(`locate_iff`), and no other. So directories that are put at the end of the path change nothing for
a package that is found without them, nor for those that it imports (`importPackage_extended`), and
files that are not the first for their package are never seen (`importPackage_alike`).
-/
namespace PatternEngine.Importer

open PatternEngine.Source (Alias)

variable {files files' : FileSystem} {searchPath searchPath' first more package file directory
  contents : Bytes} {packages : Packages} {env : Environment} {fuel : Nat}

/-! ## The directory that is used -/

/-- The byte between the directories of a search path. -/
def pathSeparator : UInt8 := 0x3A

/-- A file for the package can be read in this directory of a search path, and in none before. -/
def FirstHolding (files : FileSystem) (searchPath package directory contents : Bytes) : Prop :=
  ∃ before after, directories searchPath = before ++ directory :: after ∧
    (∀ other ∈ before, ∀ bytes, files.read (candidate package other) ≠ .ok bytes) ∧
    files.read (candidate package directory) = .ok contents

/-- A search opens the file in the first directory that holds one. -/
theorem locate_iff : locate files searchPath package = some (file, contents) ↔
    ∃ directory, FirstHolding files searchPath package directory contents ∧
      file = candidate package directory := by
  unfold locate FirstHolding
  rw [List.findSome?_eq_some_iff]
  constructor
  · rintro ⟨before, directory, after, hpath, hheld, hbefore⟩
    split at hheld
    · rename_i bytes hread
      cases hheld
      refine ⟨directory, ⟨before, after, hpath, ?_, hread⟩, rfl⟩
      intro other hm bytes hother
      have hnone := hbefore other hm
      rw [hother] at hnone
      cases hnone
    · cases hheld
  · rintro ⟨directory, ⟨before, after, hpath, hbefore, hread⟩, rfl⟩
    refine ⟨before, directory, after, hpath, by rw [hread], ?_⟩
    intro other hm
    split
    · rename_i bytes hother
      exact absurd hother (hbefore other hm bytes)
    · rfl

/-- The directories of a path that is put after another come last. -/
theorem directories_append (first more : Bytes) :
    directories (first ++ pathSeparator :: more) = directories first ++ directories more := by
  unfold directories pathSeparator
  rw [Bytes.splitOn_append_cons, List.filter_append]

/-- What is located on a path is located on a longer one. -/
theorem locate_append (h : locate files first package = some (file, contents)) :
    locate files (first ++ pathSeparator :: more) package = some (file, contents) := by
  unfold locate at h ⊢
  rw [directories_append, List.findSome?_append, h]
  rfl

/-- Paths on which every package has the same first directory lead to the same files. -/
theorem locate_alike
    (h : ∀ name directory contents, FirstHolding files' searchPath name directory contents ↔
      FirstHolding files searchPath name directory contents) (name : Bytes) :
    locate files' searchPath name = locate files searchPath name := by
  apply Option.ext
  rintro ⟨file, contents⟩
  simp only [locate_iff, h]

/-! ## Longer paths -/

/-- Whatever one search path leads to, the other leads to as well. -/
def Extends (files : FileSystem) (searchPath searchPath' : Bytes) : Prop :=
  ∀ name file, locate files searchPath name = some file →
    locate files searchPath' name = some file

theorem extends_append (files : FileSystem) (first more : Bytes) :
    Extends files first (first ++ pathSeparator :: more) :=
  fun _ _ h => locate_append h

/-- A search that finds its package on a path finds the same on a longer one. The file of the
package has no error, so all the searches that are made for it find theirs. -/
theorem findPackage_extended (hpath : Extends files searchPath searchPath') :
    ∀ (fuel : Nat) (packages : Packages) (package : Bytes),
      (findPackage files searchPath fuel packages package).exports ≠ none →
      findPackage files searchPath' fuel packages package =
        findPackage files searchPath fuel packages package
  | 0, packages, package, h => absurd rfl h
  | fuel + 1, packages, package, h => by
    cases hc : packages.found.lookup package with
    | some exports => rw [findPackage_cached hc, findPackage_cached hc]
    | none =>
      by_cases hl : package ∈ packages.loading
      · rw [findPackage_circular hc hl] at h
        exact absurd rfl h
      · cases hf : locate files searchPath package with
        | none =>
          rw [findPackage_missing hc hl hf] at h
          exact absurd rfl h
        | some located =>
          obtain ⟨file, contents⟩ := located
          rw [findPackage_load hc hl hf] at h ⊢
          rw [findPackage_load hc hl (hpath _ _ hf)]
          have haccepted : Accepted package (packageProgress (findPackage files searchPath fuel)
              packages package file contents) := by
            by_contra hrefused
            exact h (loadPackage_refused hrefused).1
          refine (loadPackage_asks ?_).symm
          intro known name hasks
          have hfound : (findPackage files searchPath fuel known name).exports ≠ none :=
            Asks.found hasks haccepted.1
          exact (findPackage_extended hpath fuel known name hfound).symm

/-- An import that succeeds comes to the same on a longer path, but for the path itself. -/
theorem importPackage_extended {under : Alias} (hpath : Extends files searchPath searchPath')
    (hok : (importPackage files { env with searchPath } package under).1.ok = true) :
    let short := importPackage files { env with searchPath } package under
    importPackage files { env with searchPath := searchPath' } package under =
      (short.1, { short.2 with searchPath := searchPath' }) := by
  obtain ⟨exports, hexports⟩ := found_of_importPackage hok
  have hfound : (findPackage files searchPath (enoughFuel files) env.packages package).exports =
      some exports := hexports
  have hsame : findPackage files searchPath' (enoughFuel files) env.packages package =
      findPackage files searchPath (enoughFuel files) env.packages package :=
    findPackage_extended hpath _ _ _ (by rw [hfound]; exact Option.some_ne_none exports)
  unfold importPackage finder
  dsimp only
  rw [hsame, hfound]

/-! ## One file for each package -/

/-- What a search finds depends on the files that come first for their packages, and on no other
file. -/
theorem finder_alike (halike : ∀ name, locate files' env.searchPath name =
    locate files env.searchPath name) (packages : Packages) (package : Bytes) :
    finder files' env packages package = finder files env packages package :=
  (finds_finder files' env packages package).unique
    ((finds_finder files env packages package).located_alike halike)

theorem importPackage_alike {under : Alias} (halike : ∀ name,
    locate files' env.searchPath name = locate files env.searchPath name) :
    importPackage files' env package under = importPackage files env package under := by
  unfold importPackage
  rw [finder_alike halike]

/-- An import succeeds exactly when the package is found. -/
theorem importPackage_ok_iff {under : Alias} : (importPackage files env package under).1.ok = true ↔
    (finder files env env.packages package).exports.isSome = true := by
  unfold importPackage
  dsimp only
  split
  · rename_i hnone
    rw [hnone]
    exact Iff.rfl
  · rename_i exports hexports
    rw [hexports]
    exact Iff.rfl

/-- A package that has a file, is not known and is not being loaded is found exactly when the file
that comes first is accepted. -/
theorem findPackage_first (fuel : Nat)
    (hheld : FirstHolding files searchPath package directory contents)
    (hnew : packages.found.lookup package = none) (hidle : package ∉ packages.loading) :
    let p := packageProgress (findPackage files searchPath fuel) packages package
      (candidate package directory) contents
    let finding := findPackage files searchPath (fuel + 1) packages package
    (finding.exports.isSome = true ↔ Accepted package p) ∧
      p.diagnostics <+: finding.diagnostics := by
  intro p finding
  have hfinding : finding = loadPackage (findPackage files searchPath fuel) packages package
      (candidate package directory) contents :=
    findPackage_load hnew hidle (locate_iff.2 ⟨directory, hheld, rfl⟩)
  rw [hfinding]
  refine ⟨?_, loadPackage_diagnostics ..⟩
  by_cases haccepted : Accepted package p
  · rw [loadPackage_accepted haccepted]
    exact iff_of_true rfl haccepted
  · rw [(loadPackage_refused haccepted).1]
    exact iff_of_false Bool.false_ne_true haccepted

end PatternEngine.Importer
