import PatternEngine.Proofs.Importer.Files
import PatternEngine.Proofs.Importer.Good
/-!
# Finding a package

A search finds a package exactly when the package is good, and finds exactly what it exports,
whatever has been found or has failed before. The cache is only ever asked to be *sound*: what it
holds is good. The packages being loaded only matter to a search for a package that imports one of
them, and such a package is not good.

* `findPackage_sound` — what is found is good, and a sound cache stays sound.
* `findPackage_complete` — a good package is found, with enough fuel.
* `findPackage_iff` — both, for a search that nothing else is waiting for.
-/
namespace PatternEngine.Importer

open PatternEngine.Source (Line isWord)

variable {files : FileSystem} {searchPath package path contents : Bytes} {packages : Packages}
  {exports : Bindings}

/-- Every package found is good. -/
def Sound (files : FileSystem) (searchPath : Bytes) (packages : Packages) : Prop :=
  ∀ package exports, packages.found.lookup package = some exports →
    Good files searchPath package exports

/-! ## What is found is good -/

open Classical in
/-- What the good packages export. -/
noncomputable def goodExports (files : FileSystem) (searchPath name : Bytes) : Bindings :=
  if h : ∃ exports, Good files searchPath name exports then h.choose else []

theorem Good.goodExports_eq (h : Good files searchPath package exports) :
    goodExports files searchPath package = exports := by
  have hex : ∃ exports, Good files searchPath package exports := ⟨exports, h⟩
  rw [goodExports, dif_pos hex]
  exact hex.choose_spec.unique h

/-- What soundness asks of a search. -/
structure SoundFinding (files : FileSystem) (searchPath package : Bytes) (f : Finding) : Prop where
  packages : Sound files searchPath f.packages
  good : ∀ exports, f.exports = some exports →
    Good files searchPath package exports ∧ Diagnostic.anyError f.diagnostics = false

/-- Lines that end without an error import good packages only, and come to what they come to when
the good packages answer. -/
theorem foldl_sound {find : Finder} {filename : Option Bytes}
    (hfind : ∀ packages name, Sound files searchPath packages →
      SoundFinding files searchPath name (find packages name)) (lines : List (Nat × Bytes)) :
    ∀ p q : Progress, Agrees p q → Sound files searchPath p.packages →
      Diagnostic.anyError (lines.foldl (processLine find filename) p).diagnostics = false →
      (∀ l ∈ lines, ∀ name, (Line.classify l.2).imported? = some name →
        Good files searchPath name (goodExports files searchPath name)) ∧
      Agrees (lines.foldl (processLine find filename) p)
        (lines.foldl (processLine (resolved (goodExports files searchPath)) filename) q) := by
  induction lines with
  | nil => exact fun p q h _ _ => ⟨by simp, h⟩
  | cons l lines ih =>
    obtain ⟨number, line⟩ := l
    intro p q h hs hclean
    simp only [List.foldl_cons] at hclean ⊢
    have hline := foldl_clean hclean
    have hi : ∀ name, (Line.classify line).imported? = some name →
        Good files searchPath name (goodExports files searchPath name) ∧
        (find p.packages name).exports = some (goodExports files searchPath name) ∧
        Diagnostic.anyError (find p.packages name).diagnostics = false := by
      intro name hn
      cases he : (find p.packages name).exports with
      | none => rw [processLine_not_found hn he] at hline; cases hline
      | some exports =>
        obtain ⟨hg, hd⟩ := (hfind _ _ hs).good exports he
        rw [hg.goodExports_eq]
        exact ⟨hg, rfl, hd⟩
    have hs' : Sound files searchPath
        (processLine find filename p (number, line)).packages := by
      rw [processLine_packages]
      split
      · exact (hfind _ _ hs).packages
      · exact hs
    obtain ⟨himports, hagrees⟩ :=
      ih _ _ (processLine_agrees h fun name hn => (hi name hn).2) hs' hclean
    refine ⟨fun l hl name hn => ?_, hagrees⟩
    rcases List.mem_cons.1 hl with rfl | hl
    · exact (hi name hn).1
    · exact himports l hl name hn

/-- The packages stay sound while a text is processed. -/
theorem process_sound {find : Finder} {bindings : Bindings} {filename : Option Bytes}
    {source : Bytes}
    (hfind : ∀ packages name, Sound files searchPath packages →
      SoundFinding files searchPath name (find packages name))
    (hs : Sound files searchPath packages) :
    Sound files searchPath (process find packages bindings filename source).packages := by
  apply process_induction (P := fun p => Sound files searchPath p.packages) hs
  intro p number line _ hp
  simp only [processLine_packages]
  split
  · exact (hfind _ _ hp).packages
  · exact hp

/-- A text without an error imports good packages only, and their exports are all that it takes of
the packages. -/
theorem process_agrees {find : Finder} {bindings : Bindings} {filename : Option Bytes}
    {source : Bytes}
    (hfind : ∀ packages name, Sound files searchPath packages →
      SoundFinding files searchPath name (find packages name))
    (hs : Sound files searchPath packages)
    (hclean : Diagnostic.anyError
      (process find packages bindings filename source).diagnostics = false) :
    (∀ name ∈ importedNames source,
      Good files searchPath name (goodExports files searchPath name)) ∧
    Agrees (process find packages bindings filename source)
      (process (resolved (goodExports files searchPath)) {} bindings filename source) := by
  obtain ⟨himports, hagrees⟩ := foldl_sound hfind (Source.numberedLines source)
    { bindings, packages } { bindings, packages := {} } ⟨rfl, rfl, rfl, rfl⟩ hs hclean
  refine ⟨fun name hn => ?_, hagrees⟩
  obtain ⟨l, hl, hname⟩ := List.mem_filterMap.1 hn
  exact himports l hl name hname

/-- A file that is accepted makes its package good. -/
theorem good_of_accepted {find : Finder}
    (hfind : ∀ packages name, Sound files searchPath packages →
      SoundFinding files searchPath name (find packages name))
    (hs : Sound files searchPath packages)
    (hl : locate files searchPath package = some (path, contents))
    (ha : Accepted package (packageProgress find packages package path contents)) :
    Good files searchPath package (packageProgress find packages package path contents).own := by
  obtain ⟨hclean, hdeclared⟩ := ha
  have hs' : Sound files searchPath { packages with loading := package :: packages.loading } := hs
  obtain ⟨himports, hagrees⟩ := process_agrees hfind hs' hclean
  refine .intro (goodExports files searchPath) hl himports ?_ ?_ hagrees.own.symm
  · exact hagrees.errors.symm.trans hclean
  · exact (process_declared hclean).1 hdeclared

/-- What is found is good, and a sound cache stays sound. -/
theorem findPackage_sound (files : FileSystem) (searchPath : Bytes) :
    ∀ (fuel : Nat) (packages : Packages) (package : Bytes), Sound files searchPath packages →
      SoundFinding files searchPath package (findPackage files searchPath fuel packages package)
  | 0, packages, _, hs => ⟨hs, fun _ h => by cases h⟩
  | fuel + 1, packages, package, hs => by
    cases hc : packages.found.lookup package with
    | some exports =>
      rw [findPackage_cached hc]
      refine ⟨hs, fun _ h => ?_⟩
      cases h
      exact ⟨hs package exports hc, rfl⟩
    | none =>
    by_cases hl : package ∈ packages.loading
    · rw [findPackage_circular hc hl]; exact ⟨hs, fun _ h => by cases h⟩
    cases hf : locate files searchPath package with
    | none => rw [findPackage_missing hc hl hf]; exact ⟨hs, fun _ h => by cases h⟩
    | some file =>
    obtain ⟨path, contents⟩ := file
    rw [findPackage_load hc hl hf]
    let find := findPackage files searchPath fuel
    let p := packageProgress find packages package path contents
    have hfind : ∀ packages name, Sound files searchPath packages →
        SoundFinding files searchPath name (find packages name) :=
      fun packages name => findPackage_sound files searchPath fuel packages name
    have hp : Sound files searchPath (closePackage package p) :=
      process_sound hfind hs
    by_cases ha : Accepted package p
    · rw [loadPackage_accepted ha]
      have hg : Good files searchPath package p.own := good_of_accepted hfind hs hf ha
      refine ⟨fun q e hq => ?_, fun _ h => ?_⟩
      · by_cases he : q = package
        · subst he
          simp only [List.lookup_cons_self] at hq; cases hq
          exact hg
        · simp only [lookup_cons_ne he] at hq
          exact hp q e hq
      · cases h
        exact ⟨hg, ha.1⟩
    · refine ⟨by rw [(loadPackage_refused ha).2]; exact hp, fun _ h => ?_⟩
      rw [(loadPackage_refused ha).1] at h; cases h

/-! ## What is good is found -/

/-- Lines whose imports are all found come to what they come to when the imports are answered.
`I` is what the search keeps of the packages. -/
theorem foldl_found {find : Finder} {exportsOf : Bytes → Bindings} {filename : Option Bytes}
    {I : Packages → Prop} (hkeep : ∀ packages name, I packages → I (find packages name).packages)
    (lines : List (Nat × Bytes))
    (hfind : ∀ packages, I packages → ∀ l ∈ lines, ∀ name,
      (Line.classify l.2).imported? = some name →
        (find packages name).exports = some (exportsOf name) ∧
          Diagnostic.anyError (find packages name).diagnostics = false) :
    ∀ p q : Progress, Agrees p q → I p.packages →
      Agrees (lines.foldl (processLine find filename) p)
        (lines.foldl (processLine (resolved exportsOf) filename) q) := by
  induction lines with
  | nil => exact fun p q h _ => h
  | cons l lines ih =>
    obtain ⟨number, line⟩ := l
    intro p q h hp
    simp only [List.foldl_cons]
    refine ih (fun packages hI l hl => hfind packages hI l (List.mem_cons_of_mem _ hl)) _ _ ?_ ?_
    · exact processLine_agrees h (hfind _ hp _ List.mem_cons_self)
    · rw [processLine_packages]
      split
      · exact hkeep _ _ hp
      · exact hp

/-- A good package is found, with what it exports, when there is fuel enough and none of the
packages being loaded is one that it leads to. The induction is on the package being good: what it
imports is good and does not lead back to it. -/
theorem findPackage_complete (h : Good files searchPath package exports) :
    ∀ (fuel : Nat) (packages : Packages), Sound files searchPath packages →
      Nested files searchPath packages.loading →
      files.files.length + 2 ≤ fuel + packages.loading.length →
      (∀ name ∈ packages.loading,
        ¬ Relation.ReflTransGen (Imports files searchPath) package name) →
      (findPackage files searchPath fuel packages package).exports = some exports ∧
      Diagnostic.anyError
        (findPackage files searchPath fuel packages package).diagnostics = false := by
  induction h with
  | @intro package path contents exports exportsOf located imports clean declares exported ih =>
  have hgood : Good files searchPath package exports :=
    .intro exportsOf located imports clean declares exported
  intro fuel packages hs hnest hfuel hfree
  cases fuel with
  | zero => have := hnest.length_le; omega
  | succ fuel =>
  cases hc : packages.found.lookup package with
  | some names =>
    rw [findPackage_cached hc, (hs package names hc).unique hgood]
    exact ⟨rfl, rfl⟩
  | none =>
  have hl : package ∉ packages.loading := fun hm => hfree package hm .refl
  rw [findPackage_load hc hl located]
  let find := findPackage files searchPath fuel
  let p := packageProgress find packages package path contents
  have hword : isWord package = true := by
    have hm : package ∈ declaredNames contents := by rw [declares]; exact List.mem_singleton_self _
    obtain ⟨⟨number, line⟩, -, hd⟩ := List.mem_filterMap.1 hm
    exact Line.declared_word hd
  have hnest' : Nested files searchPath (package :: packages.loading) :=
    hnest.cons hl hword located
  have hagrees : Agrees p (resolvedProgress exportsOf path contents) := by
    refine foldl_found (I := fun known => Sound files searchPath known ∧
      known.loading = package :: packages.loading) ?_ _ ?_ _ _ ⟨rfl, rfl, rfl, rfl⟩ ⟨hs, rfl⟩
    · intro known name ⟨hk, hload⟩
      exact ⟨(findPackage_sound files searchPath fuel known name hk).packages,
        (findPackage_grows files searchPath known fuel known name (not_fresh _)).loading.trans
          hload⟩
    · intro known ⟨hk, hload⟩ l hmem name hname
      have hn : name ∈ importedNames contents := mem_importedNames hmem hname
      have hi : Imports files searchPath package name := ⟨path, contents, located, hn⟩
      refine ih name hn fuel known hk (hload ▸ hnest') ?_ ?_
      · rw [hload, List.length_cons]; omega
      · intro other hother hreach
        rw [hload] at hother
        rcases List.mem_cons.1 hother with rfl | hother
        · exact hgood.not_circular (.head' hi hreach)
        · exact hfree other hother (.head hi hreach)
  have hclean : Diagnostic.anyError p.diagnostics = false := hagrees.errors.trans clean
  have hdeclared : p.declared = some package := (process_declared hclean).2 declares
  rw [loadPackage_accepted ⟨hclean, hdeclared⟩]
  exact ⟨congrArg some (hagrees.own.trans exported), hclean⟩

/-- A search that no other waits for finds a package exactly when it is good. -/
theorem findPackage_iff {fuel : Nat} (hs : Sound files searchPath packages)
    (hl : packages.loading = []) (hfuel : files.files.length + 2 ≤ fuel) :
    (findPackage files searchPath fuel packages package).exports = some exports ↔
      Good files searchPath package exports := by
  constructor
  · exact fun h => ((findPackage_sound files searchPath fuel packages package hs).good _ h).1
  · intro h
    refine (findPackage_complete h fuel packages hs ?_ ?_ ?_).1
    · rw [hl]; exact .nil
    · omega
    · simp [hl]

end PatternEngine.Importer
