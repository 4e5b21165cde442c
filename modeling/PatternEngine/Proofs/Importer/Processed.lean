import Mathlib.Logic.Relation
import PatternEngine.Proofs.Importer.Said
/-!
# Texts that are processed on the way

An update processes a text, which may make it process the files of packages, which may import
others in turn. Whatever is said about one of these texts is said by the update, in one piece and
in the same order (`said_of_processed`), so an error in any of them is an error of the update.
-/
namespace PatternEngine.Importer

open PatternEngine.Source (Alias Line)

/-- A text that is to be processed: what is known by then, and how many searches may still be
nested in it. -/
structure Job where
  fuel : Nat
  packages : Packages
  bindings : Bindings
  filename : Option Bytes
  source : Bytes

/-- The file that has to be processed for a package, unless the package is known, is being loaded
already or has no file. -/
def fileJob? (files : FileSystem) (searchPath : Bytes) : Nat → Packages → Bytes → Option Job
  | 0, _, _ => none
  | fuel + 1, packages, package =>
    if (packages.found.lookup package).isSome || packages.loading.contains package then none
    else (locate files searchPath package).map fun (path, contents) =>
      ⟨fuel, { packages with loading := package :: packages.loading }, [], some path, contents⟩

namespace Job

variable {files : FileSystem} {searchPath package name : Bytes} {job nested : Job}
  {packages : Packages}

/-- What processing some lines of the text has come to. -/
def after (files : FileSystem) (searchPath : Bytes) (job : Job) (lines : List (Nat × Bytes)) :
    Progress :=
  lines.foldl (processLine (findPackage files searchPath job.fuel) job.filename)
    { bindings := job.bindings, packages := job.packages }

/-- What processing the text comes to. -/
def progress (files : FileSystem) (searchPath : Bytes) (job : Job) : Progress :=
  job.after files searchPath (Source.numberedLines job.source)

/-- The text has an import line, and a package is searched for when it is reached. -/
inductive Searches (files : FileSystem) (searchPath : Bytes) (job : Job) :
    Packages → Bytes → Prop where
  | intro {before after : List (Nat × Bytes)} {number : Nat} {line name : Bytes} {under : Alias}
      (lines : Source.numberedLines job.source = before ++ (number, line) :: after)
      (imports : Line.classify line = .importing name under) :
      Searches files searchPath job (job.after files searchPath before).packages name

/-- The search for a package that a text imports makes another text be processed. -/
def Opens (files : FileSystem) (searchPath : Bytes) (job nested : Job) : Prop :=
  ∃ packages name, job.Searches files searchPath packages name ∧
    fileJob? files searchPath job.fuel packages name = some nested

/-- Lines add to what is said and take nothing back. -/
theorem foldl_prefix {find : Finder} {filename : Option Bytes} (lines : List (Nat × Bytes)) :
    ∀ p : Progress,
      p.diagnostics <+: (lines.foldl (processLine find filename) p).diagnostics := by
  induction lines with
  | nil => exact fun p => List.prefix_rfl
  | cons l lines ih =>
    intro p
    obtain ⟨number, line⟩ := l
    have hline : p.diagnostics <+: (processLine find filename p (number, line)).diagnostics := by
      obtain ⟨ds, hds⟩ : ∃ ds, (processLine find filename p (number, line)).diagnostics =
          p.diagnostics ++ ds := processLine_diagnostics
      exact ⟨ds, hds.symm⟩
    exact hline.trans (ih _)

/-- What a search says is said by the import line that makes the search. If nothing is found, then
the line says an error. -/
theorem processLine_searches (find : Finder) (filename : Option Bytes) (p : Progress)
    (number : Nat) {line : Bytes} {under : Alias}
    (h : Line.classify line = .importing name under) :
    let finding := find p.packages name
    let q := processLine find filename p (number, line)
    finding.diagnostics <:+: q.diagnostics ∧
      (finding.exports = none → Diagnostic.anyError q.diagnostics = true) := by
  unfold processLine
  simp only [h]
  split
  · rename_i exports hexports
    refine ⟨(List.suffix_append _ _).isInfix, ?_⟩
    intro hnone
    rw [hnone] at hexports
    cases hexports
  · refine ⟨?_, fun _ => anyError_report rfl⟩
    exact ⟨p.diagnostics, _, rfl⟩

theorem anyError_of_infix {ds ds' : List Diagnostic} (h : ds <:+: ds')
    (herror : Diagnostic.anyError ds = true) : Diagnostic.anyError ds' = true := by
  obtain ⟨d, hm, hd⟩ := List.any_eq_true.1 herror
  exact List.any_eq_true.2 ⟨d, h.subset hm, hd⟩

/-- What a search says is said by the text that makes the search. If nothing is found, then the
text has an error. -/
theorem Searches.said (h : job.Searches files searchPath packages name) :
    let finding := findPackage files searchPath job.fuel packages name
    finding.diagnostics <:+: (job.progress files searchPath).diagnostics ∧
      (finding.exports = none →
        Diagnostic.anyError (job.progress files searchPath).diagnostics = true) := by
  obtain ⟨hlines, himports⟩ := h
  rename_i before after number line under
  let find := findPackage files searchPath job.fuel
  let p := job.after files searchPath before
  let q := processLine find job.filename p (number, line)
  have hprogress : q.diagnostics <+: (job.progress files searchPath).diagnostics := by
    unfold progress Job.after
    rw [hlines, List.foldl_append, List.foldl_cons]
    exact foldl_prefix after q
  obtain ⟨hsaid, hnone⟩ := processLine_searches find job.filename p number himports
  refine ⟨hsaid.trans hprogress.isInfix, ?_⟩
  intro hexports
  exact anyError_of_infix hprogress.isInfix (hnone hexports)

/-- What is said about the file of a package is said by the search for the package. -/
theorem fileJob_said {fuel : Nat}
    (h : fileJob? files searchPath fuel packages package = some nested) :
    (nested.progress files searchPath).diagnostics <:+:
      (findPackage files searchPath fuel packages package).diagnostics := by
  cases fuel with
  | zero => cases h
  | succ fuel =>
    rw [fileJob?] at h
    split at h
    · cases h
    · rename_i hopen
      simp only [Bool.or_eq_true, not_or, Bool.not_eq_true, Option.isSome_eq_false_iff,
        Option.isNone_iff_eq_none, List.contains_eq_mem, decide_eq_false_iff_not] at hopen
      obtain ⟨⟨path, contents⟩, hlocate, rfl⟩ := Option.map_eq_some_iff.1 h
      rw [findPackage_load hopen.1 hopen.2 hlocate]
      exact (loadPackage_diagnostics _ packages package path contents).isInfix

theorem Opens.said (h : Opens files searchPath job nested) :
    (nested.progress files searchPath).diagnostics <:+:
      (job.progress files searchPath).diagnostics := by
  obtain ⟨packages, name, hsearch, hfile⟩ := h
  exact (fileJob_said hfile).trans hsearch.said.1

/-- What is said about a text that is processed on the way is said by the text that it all began
with. -/
theorem said_of_opened (h : Relation.ReflTransGen (Opens files searchPath) job nested) :
    (nested.progress files searchPath).diagnostics <:+:
      (job.progress files searchPath).diagnostics := by
  induction h with
  | refl => exact List.infix_rfl
  | tail _ hopens ih => exact hopens.said.trans ih

end Job

variable {files : FileSystem} {env : Environment}

/-- The text that loading starts with. -/
def textJob (files : FileSystem) (env : Environment) (filename : Option Bytes) (source : Bytes) :
    Job :=
  ⟨enoughFuel files, env.packages, env.bindings, filename, source⟩

theorem load_diagnostics (source : Bytes) (filename : Option Bytes) :
    (load files env source filename).1.diagnostics =
      ((textJob files env filename source).progress files env.searchPath).diagnostics := by
  unfold load
  dsimp only
  split <;> rfl

theorem importPackage_diagnostics (package : Bytes) (under : Alias) :
    (importPackage files env package under).1.diagnostics =
      (finder files env env.packages package).diagnostics := by
  unfold importPackage
  dsimp only
  split <;> rfl

end PatternEngine.Importer
