import Mathlib.Data.List.Basic
import Mathlib.Logic.Relation
import PatternEngine.Proofs.Importer.Growth
/-!
# Good packages

A package is good when its file is there, imports good packages only, has no error and declares
this package and no other. What it exports is read off its file alone: the imports are answered
with what the good packages export (`resolved`), and no cache, no order of calls and no earlier
failure comes into it.

* `Good.unique` — a good package has one list of exports.
* `Good.acyclic` — from a good package the imports lead to no cycle.
* `processLine_agrees` — a search that finds what a good package exports may be replaced by
  `resolved`, line by line.
-/
namespace PatternEngine

open PatternEngine.Source (Line)

@[simp] theorem Diagnostic.anyError_append (a b : List Diagnostic) :
    anyError (a ++ b) = (anyError a || anyError b) := List.any_append

theorem Diagnostic.anyError_eq_true {ds : List Diagnostic} :
    anyError ds = true ↔ ∃ d ∈ ds, d.severity = .error := by
  simp [anyError, isError]

namespace Importer

/-- Answers every import with the names that the package is said to export. -/
def resolved (exportsOf : Bytes → Bindings) : Finder := fun packages name =>
  ⟨some (exportsOf name), [], packages⟩

/-- A file's progress when every import is answered. -/
def resolvedProgress (exportsOf : Bytes → Bindings) (path contents : Bytes) : Progress :=
  process (resolved exportsOf) {} [] (some path) contents

/-- A package is good, and exports these names with these sources. -/
inductive Good (files : FileSystem) (searchPath : Bytes) : Bytes → Bindings → Prop
  | intro {package path contents : Bytes} {exports : Bindings} (exportsOf : Bytes → Bindings)
      (located : locate files searchPath package = some (path, contents))
      (imports : ∀ name ∈ importedNames contents, Good files searchPath name (exportsOf name))
      (clean : Diagnostic.anyError (resolvedProgress exportsOf path contents).diagnostics = false)
      (declares : declaredNames contents = [package])
      (exported : (resolvedProgress exportsOf path contents).own = exports) :
      Good files searchPath package exports

variable {files : FileSystem} {searchPath package : Bytes} {exports : Bindings}

/-- The file of a package imports another. -/
def Imports (files : FileSystem) (searchPath package name : Bytes) : Prop :=
  ∃ path contents, locate files searchPath package = some (path, contents) ∧
    name ∈ importedNames contents

theorem Good.of_imports {name : Bytes} (h : Good files searchPath package exports)
    (hi : Imports files searchPath package name) : ∃ names, Good files searchPath name names := by
  obtain ⟨exportsOf, located, imports, -, -, -⟩ := h
  obtain ⟨path, contents, hl, hn⟩ := hi
  rw [located] at hl; cases hl
  exact ⟨_, imports name hn⟩

/-- A good package does not import itself, however long the way. -/
theorem Good.not_circular (h : Good files searchPath package exports) :
    ¬ Relation.TransGen (Imports files searchPath) package package := by
  induction h with
  | @intro package path contents exports exportsOf located imports _ _ _ ih =>
    intro hc
    obtain ⟨name, ⟨path', contents', hl, hn⟩, hback⟩ := Relation.TransGen.head'_iff.1 hc
    rw [located] at hl; cases hl
    exact ih name hn (Relation.TransGen.trans_right hback
      (Relation.TransGen.single ⟨path, contents, located, hn⟩))

theorem Good.of_reaches {name : Bytes} (h : Good files searchPath package exports)
    (hr : Relation.ReflTransGen (Imports files searchPath) package name) :
    ∃ names, Good files searchPath name names := by
  induction hr with
  | refl => exact ⟨exports, h⟩
  | tail _ hi ih => obtain ⟨names, hg⟩ := ih; exact hg.of_imports hi

/-- From a good package the imports lead to no cycle. -/
theorem Good.acyclic {name : Bytes} (h : Good files searchPath package exports)
    (hr : Relation.ReflTransGen (Imports files searchPath) package name) :
    ¬ Relation.TransGen (Imports files searchPath) name name := by
  obtain ⟨names, hg⟩ := h.of_reaches hr
  exact hg.not_circular

/-! ## Replacing searches by their results -/

/-- A line is processed alike by two searches that agree on what it imports. -/
theorem processLine_congr {find find' : Finder} {filename : Option Bytes} {p : Progress}
    {number : Nat} {line : Bytes}
    (h : ∀ name, (Line.classify line).imported? = some name →
      find p.packages name = find' p.packages name) :
    processLine find filename p (number, line) = processLine find' filename p (number, line) := by
  unfold processLine
  simp only
  split <;> try rfl
  rename_i name under hl
  rw [h name (by rw [hl]; rfl)]

theorem mem_importedNames {source line name : Bytes} {number : Nat}
    (hl : (number, line) ∈ Source.numberedLines source)
    (hn : (Line.classify line).imported? = some name) : name ∈ importedNames source :=
  List.mem_filterMap.2 ⟨(number, line), hl, hn⟩

/-- What a file comes to depends on what its imports export, and on no other package. -/
theorem resolvedProgress_congr {f g : Bytes → Bindings} {path contents : Bytes}
    (h : ∀ name ∈ importedNames contents, f name = g name) :
    resolvedProgress f path contents = resolvedProgress g path contents := by
  refine List.foldl_ext _ _ _ ?_
  rintro p ⟨number, line⟩ hl
  apply processLine_congr
  intro name hn
  simp only [resolved, h name (mem_importedNames hl hn)]

/-- A good package has one list of exports. -/
theorem Good.unique (h : Good files searchPath package exports) :
    ∀ {exports' : Bindings}, Good files searchPath package exports' → exports = exports' := by
  induction h with
  | @intro package path contents exports f located _ _ _ exported ih =>
    rintro exports' ⟨g, located', imports', -, -, exported'⟩
    rw [located] at located'; cases located'
    rw [← exported, ← exported',
      resolvedProgress_congr fun name hn => ih name hn (imports' name hn)]

/-- Two ways of processing a text have come to the same, but for the packages and for what the
searches had to say. -/
structure Agrees (p q : Progress) : Prop where
  bindings : p.bindings = q.bindings
  own : p.own = q.own
  declared : p.declared = q.declared
  errors : Diagnostic.anyError p.diagnostics = Diagnostic.anyError q.diagnostics

section
variable {find : Finder} {exportsOf : Bytes → Bindings} {filename : Option Bytes}

theorem Agrees.report {p q : Progress} (h : Agrees p q) (d : Diagnostic) :
    Agrees (p.report d) (q.report d) :=
  ⟨h.bindings, h.own, h.declared, by simp [Progress.report, h.errors]⟩

theorem Agrees.bind {p q : Progress} (h : Agrees p q)
    (report : Severity → Bytes → Option Bytes → Diagnostic) (name expression : Bytes) :
    Agrees (bind p report name expression) (bind q report name expression) := by
  unfold Importer.bind
  rw [h.bindings]
  split
  · exact h.report _
  · simp only
    split
    · exact ⟨by simp [Progress.report, h.bindings], by simp [Progress.report, h.own], h.declared,
        (h.report _).errors⟩
    · exact ⟨by simp [h.bindings], by simp [h.own], h.declared, h.errors⟩

/-- A line is processed alike by a search that finds, without an error, what is said to be
exported. -/
theorem processLine_agrees {p q : Progress} {number : Nat} {line : Bytes} (h : Agrees p q)
    (hi : ∀ name, (Line.classify line).imported? = some name →
      (find p.packages name).exports = some (exportsOf name) ∧
        Diagnostic.anyError (find p.packages name).diagnostics = false) :
    Agrees (processLine find filename p (number, line))
      (processLine (resolved exportsOf) filename q (number, line)) := by
  unfold processLine
  simp only [resolved, List.append_nil]
  split
  · exact h
  · rw [h.declared]
    split
    · exact h.report _
    · exact ⟨h.bindings, h.own, rfl, h.errors⟩
  · exact h.report _
  · rename_i name under hl
    obtain ⟨he, hd⟩ := hi name (by rw [hl]; rfl)
    rw [he]
    exact ⟨by simp [h.bindings], h.own, h.declared, by simp [h.errors, hd]⟩
  · exact h.report _
  · exact h.bind _ _ _
  · exact h.report _
  · exact h.report _

/-- An error is not taken back by a line. -/
theorem processLine_error {p : Progress} {number : Nat} {line : Bytes}
    (h : Diagnostic.anyError p.diagnostics = true) :
    Diagnostic.anyError (processLine find filename p (number, line)).diagnostics = true := by
  obtain ⟨ds, hd⟩ : ∃ ds, (processLine find filename p (number, line)).diagnostics =
    p.diagnostics ++ ds := processLine_diagnostics
  simp [hd, h]

theorem foldl_error (lines : List (Nat × Bytes)) :
    ∀ p : Progress, Diagnostic.anyError p.diagnostics = true →
      Diagnostic.anyError (lines.foldl (processLine find filename) p).diagnostics = true := by
  induction lines with
  | nil => exact fun p h => h
  | cons l lines ih => exact fun p h => ih _ (processLine_error h)

/-- Lines that end without an error started without one. -/
theorem foldl_clean {lines : List (Nat × Bytes)} {p : Progress}
    (h : Diagnostic.anyError (lines.foldl (processLine find filename) p).diagnostics = false) :
    Diagnostic.anyError p.diagnostics = false := by
  by_contra hne
  rw [foldl_error lines p (by simpa using hne)] at h; cases h

/-- An import of a package that is not found is an error. -/
theorem processLine_not_found {p : Progress} {number : Nat} {line name : Bytes}
    (hn : (Line.classify line).imported? = some name)
    (hf : (find p.packages name).exports = none) :
    Diagnostic.anyError (processLine find filename p (number, line)).diagnostics = true := by
  unfold processLine
  simp only
  split <;> rename_i hl <;> rw [hl] at hn <;> cases hn
  rw [hf]
  simp [Progress.report, lineDiagnostic, Diagnostic.anyError, Diagnostic.isError]

/-! ## What a clean text declares -/

theorem bind_declared {p : Progress} (report : Severity → Bytes → Option Bytes → Diagnostic)
    (name expression : Bytes) : (Importer.bind p report name expression).declared = p.declared := by
  unfold Importer.bind
  split
  · rfl
  · simp only
    split <;> rfl

/-- A line without an error declares at most one package, and only when none was declared. -/
theorem processLine_declared {p : Progress} {number : Nat} {line : Bytes}
    (h : Diagnostic.anyError (processLine find filename p (number, line)).diagnostics = false) :
    (processLine find filename p (number, line)).declared.toList =
      p.declared.toList ++ (Line.classify line).declared?.toList := by
  unfold processLine at h ⊢
  simp only at h ⊢
  split at h <;> rename_i hl <;> rw [hl] <;> simp only [Line.declared?, Option.toList_none,
    List.append_nil]
  · split at h
    · rw [anyError_report rfl] at h; cases h
    · rename_i hp
      simp [hp]
  · rfl
  · split <;> rfl
  · rfl
  · rw [bind_declared]
  · rfl
  · rfl

/-- A text without an error declares what its package lines declare. -/
theorem foldl_declared (lines : List (Nat × Bytes)) : ∀ p : Progress,
    Diagnostic.anyError (lines.foldl (processLine find filename) p).diagnostics = false →
    (lines.foldl (processLine find filename) p).declared.toList =
      p.declared.toList ++
        lines.filterMap fun (_, line) => (Line.classify line).declared? := by
  induction lines with
  | nil => intro p _; simp
  | cons l lines ih =>
    obtain ⟨number, line⟩ := l
    intro p h
    simp only [List.foldl_cons] at h ⊢
    rw [ih _ h, processLine_declared (foldl_clean h), List.append_assoc]
    cases hd : (Line.classify line).declared? <;> simp [hd]

/-- A text without an error has declared a package exactly when it declares that package only. -/
theorem process_declared {packages : Packages} {bindings : Bindings} {source name : Bytes}
    (h : Diagnostic.anyError (process find packages bindings filename source).diagnostics = false) :
    (process find packages bindings filename source).declared = some name ↔
      declaredNames source = [name] := by
  have hd : (process find packages bindings filename source).declared.toList =
    declaredNames source := (foldl_declared _ _ h).trans (List.nil_append _)
  rw [← hd]
  cases (process find packages bindings filename source).declared <;> simp

end

end Importer

end PatternEngine
