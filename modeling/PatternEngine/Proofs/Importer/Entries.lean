import PatternEngine.Proofs.Importer.Reading
/-!
# What is bound and what is exported

A name is bound by a line, to what its expression is built to, or by an import, to what a package
exports; and a package exports what the lines of its file have bound. So a property of names and
sources that lines give and imports hand on (`Handed`) holds of all bindings and exports of an
environment, whatever is loaded or imported (`load_all`, `loadFile_all`, `importPackage_all`).
-/
namespace PatternEngine

open PatternEngine.Source (Alias Line Reads isWord)

theorem mem_of_lookup {α : Type} {name : Bytes} {value : α} {entries : List (Bytes × α)}
    (h : entries.lookup name = some value) : (name, value) ∈ entries := by
  obtain ⟨before, after, rfl, -⟩ := List.lookup_eq_some_iff.1 h
  simp

namespace Bindings

variable {P Q : Bytes → Bytes → Prop} {bindings exports : Bindings} {name source : Bytes}

/-- A property of all names and what they are bound to. -/
def All (P : Bytes → Bytes → Prop) (bindings : Bindings) : Prop :=
  ∀ entry ∈ bindings, P entry.1 entry.2

theorem all_nil : Bindings.All P [] := by
  intro entry hm
  cases hm

theorem All.get? (h : bindings.All P) (hget : bindings.get? name = some source) : P name source :=
  h (name, source) (mem_of_lookup hget)

theorem All.mono (h : bindings.All P) (hPQ : ∀ name source, P name source → Q name source) :
    bindings.All Q := fun entry hm => hPQ _ _ (h entry hm)

theorem All.set (h : bindings.All P) (hentry : P name source) :
    (bindings.set name source).All P := by
  intro entry hm
  rcases List.mem_cons.1 hm with rfl | hm
  · exact hentry
  · exact h entry (List.mem_filter.1 hm).1

theorem All.setPackage {package : Bytes} {under : Alias} (h : bindings.All P)
    (hexports : exports.All fun name source => P (qualified package under name) source) :
    (bindings.setPackage package under exports).All P := by
  unfold Bindings.setPackage
  induction exports with
  | nil => exact h
  | cons entry exports ih =>
    have hrest :
        Bindings.All (fun name source => P (qualified package under name) source) exports :=
      fun entry hm => hexports entry (List.mem_cons_of_mem _ hm)
    exact (ih hrest).set (hexports entry List.mem_cons_self)

end Bindings

/-- A property of the packages that were found, and one of all that they export. -/
def Packages.All (D : Bytes → Prop) (X : Bytes → Bytes → Prop) (packages : Packages) : Prop :=
  ∀ entry ∈ packages.found, D entry.1 ∧ entry.2.All X

namespace Importer

/-- Properties of bindings, of exports and of packages that lines give and imports hand on. -/
structure Handed (B X : Bytes → Bytes → Prop) (D : Bytes → Prop) : Prop where
  built : ∀ {bindings : Bindings} {name expression : Bytes} {built : Environment.Built},
    bindings.All B → isWord name = true →
    Environment.build bindings expression name = .ok built →
    B name built.source ∧ X name built.source
  declared : ∀ {name : Bytes}, isWord name = true → D name
  imported : ∀ {line package name source : Bytes} {under : Alias},
    Reads line (.importing package under) → D package → X name source →
    B (Bindings.qualified package under name) source

variable {B X : Bytes → Bytes → Prop} {D : Bytes → Prop} {files : FileSystem} {env : Environment}
  {find : Finder} {filename : Option Bytes} {p : Progress} {packages : Packages}
  {bindings : Bindings} {source : Bytes}

/-- All that a text has come to has the properties. -/
structure Progress.All (B X : Bytes → Bytes → Prop) (D : Bytes → Prop) (p : Progress) : Prop where
  bindings : p.bindings.All B
  own : p.own.All X
  packages : p.packages.All D X
  declared : ∀ name, p.declared = some name → D name

theorem Progress.All.report (h : p.All B X D) (d : Diagnostic) : (p.report d).All B X D :=
  ⟨h.bindings, h.own, h.packages, h.declared⟩

/-- What a search for a package has come to has the properties. -/
structure Finding.All (X : Bytes → Bytes → Prop) (D : Bytes → Prop) (package : Bytes)
    (f : Finding) : Prop where
  packages : f.packages.All D X
  exports : ∀ exports, f.exports = some exports → D package ∧ exports.All X

/-- Whatever a line says, the properties are kept if every search keeps them. -/
theorem processLine_all (hd : Handed B X D)
    (hfind : ∀ packages package, packages.All D X → (find packages package).All X D package)
    {number : Nat} {line : Bytes} (hline : Source.IsLine source number line) (h : p.All B X D) :
    (processLine find filename p (number, line)).All B X D := by
  obtain hq | ⟨name, hreads, hdeclares⟩ | ⟨name, under, hreads, htakes⟩ |
      ⟨name, expression, hreads, hbinds⟩ | ⟨message, hq⟩ :=
    processLine_ways find filename hline p
  · rw [hq]
    exact h
  · have hname : D name := by
      cases hreads with
      | package word => exact hd.declared word
    unfold Declares at hdeclares
    split at hdeclares <;> rw [hdeclares]
    · refine ⟨h.bindings, h.own, h.packages, ?_⟩
      rintro other ⟨⟩
      exact hname
    · exact h.report _
  · have hfound := hfind p.packages name h.packages
    unfold Takes at htakes
    obtain ⟨hpackages, hown, hdeclared, htakes⟩ := htakes
    refine ⟨?_, hown ▸ h.own, hpackages ▸ hfound.packages, hdeclared ▸ h.declared⟩
    split at htakes <;> rw [htakes.1]
    · rename_i exports hexports
      obtain ⟨hpackage, hexported⟩ := hfound.exports exports hexports
      exact h.bindings.setPackage (hexported.mono fun _ _ => hd.imported hreads hpackage)
    · exact h.bindings
  · have hword : isWord name = true := by
      cases hreads with
      | binding _ _ _ word => exact word
    unfold Binds at hbinds
    split at hbinds
    · rename_i built hbuilt
      obtain ⟨hbindings, hown, hpackages, hdeclared, -⟩ := hbinds
      obtain ⟨hbound, hexported⟩ := hd.built h.bindings hword hbuilt
      refine ⟨?_, ?_, hpackages ▸ h.packages, hdeclared ▸ h.declared⟩
      · rw [hbindings]
        exact h.bindings.set hbound
      · rw [hown]
        exact h.own.set hexported
    · rw [hbinds]
      exact h.report _
  · rw [hq]
    exact h.report _

theorem process_all (hd : Handed B X D)
    (hfind : ∀ packages package, packages.All D X → (find packages package).All X D package)
    (hp : packages.All D X) (hb : bindings.All B) (filename : Option Bytes) (source : Bytes) :
    (process find packages bindings filename source).All B X D := by
  apply process_induction (P := Progress.All B X D)
  · exact ⟨hb, Bindings.all_nil, hp, by simp⟩
  · intro p number line hm h
    exact processLine_all hd hfind (Source.mem_numberedLines_iff.1 hm) h

theorem loadPackage_all (hd : Handed B X D)
    (hfind : ∀ packages package, packages.All D X → (find packages package).All X D package)
    (hp : packages.All D X) (package path contents : Bytes) :
    (loadPackage find packages package path contents).All X D package := by
  have hloading : Packages.All D X { packages with loading := package :: packages.loading } := hp
  have hprogress : (packageProgress find packages package path contents).All B X D :=
    process_all hd hfind hloading Bindings.all_nil _ _
  by_cases ha : Accepted package (packageProgress find packages package path contents)
  · have hpackage := hprogress.declared package ha.2
    rw [loadPackage_accepted ha]
    constructor
    · intro entry hm
      rcases List.mem_cons.1 hm with rfl | hm
      · exact ⟨hpackage, hprogress.own⟩
      · exact hprogress.packages entry hm
    · rintro exports ⟨⟩
      exact ⟨hpackage, hprogress.own⟩
  · obtain ⟨hnone, hpackages⟩ := loadPackage_refused ha
    refine ⟨hpackages ▸ hprogress.packages, fun exports h => ?_⟩
    rw [hnone] at h
    cases h

/-- A search keeps the properties. The induction is on the fuel, which the nested searches have one
unit less of. -/
theorem findPackage_all (hd : Handed B X D) (files : FileSystem) (searchPath : Bytes)
    (fuel : Nat) : ∀ (packages : Packages) (package : Bytes), packages.All D X →
      (findPackage files searchPath fuel packages package).All X D package := by
  induction fuel with
  | zero => exact fun packages package hp => ⟨hp, fun exports h => by cases h⟩
  | succ fuel ih =>
    intro packages package hp
    obtain ⟨known, hknown, hfind⟩ | ⟨diagnostics, hfind⟩ | ⟨less, path, contents, hless, hfind⟩ :=
      findPackage_ways files searchPath (fuel + 1) packages package
    · rw [hfind]
      refine ⟨hp, ?_⟩
      rintro exports ⟨⟩
      exact hp (package, known) (mem_of_lookup hknown)
    · rw [hfind]
      exact ⟨hp, fun exports h => by cases h⟩
    · cases hless
      rw [hfind]
      exact loadPackage_all hd ih hp package path contents

end Importer

/-- All that an environment keeps has the properties. -/
structure Environment.All (B X : Bytes → Bytes → Prop) (D : Bytes → Prop) (env : Environment) :
    Prop where
  bindings : env.bindings.All B
  packages : env.packages.All D X

namespace Importer

variable {B X : Bytes → Bytes → Prop} {D : Bytes → Prop} {files : FileSystem} {env : Environment}

theorem load_all (hd : Handed B X D) (h : env.All B X D) (source : Bytes)
    (filename : Option Bytes) : (load files env source filename).2.All B X D := by
  have hp := process_all hd (findPackage_all hd files env.searchPath (enoughFuel files))
    h.packages h.bindings filename source
  unfold load
  dsimp only
  split
  · exact ⟨h.bindings, hp.packages⟩
  · exact ⟨hp.bindings, hp.packages⟩

theorem loadFile_all (hd : Handed B X D) (h : env.All B X D) (path : Bytes) :
    (loadFile files env path).2.All B X D := by
  unfold loadFile
  split
  · exact load_all hd h _ _
  · exact h

/-- An import call may have any alias, so that what it binds is left to the caller. -/
theorem importPackage_all (hd : Handed B X D) (h : env.All B X D) (package : Bytes) (under : Alias)
    (hunder : ∀ exports, (finder files env env.packages package).exports = some exports →
      D package → exports.All X →
      exports.All fun name source => B (Bindings.qualified package under name) source) :
    (importPackage files env package under).2.All B X D := by
  have hfound := findPackage_all hd files env.searchPath (enoughFuel files) env.packages package
    h.packages
  unfold importPackage
  dsimp only
  split
  · exact ⟨h.bindings, hfound.packages⟩
  · rename_i exports hexports
    obtain ⟨hpackage, hexported⟩ := hfound.exports exports hexports
    exact ⟨h.bindings.setPackage (hunder exports hexports hpackage hexported), hfound.packages⟩

end Importer

end PatternEngine
