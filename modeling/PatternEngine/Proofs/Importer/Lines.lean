import PatternEngine.Proofs.Importer.Reports
import PatternEngine.Proofs.Source.ByTokens
/-!
# What a line does

The spec lemmas of `processLine`, one for each thing that a line can change. Only an import line
touches the packages (`processLine_packages`), a line never takes a diagnostic back
(`processLine_diagnostics`), and a whole text keeps whatever every line keeps
(`process_induction`).
-/
namespace PatternEngine

open PatternEngine.Source (Line)

namespace Source.Line

/-- The package that a line imports. -/
def imported? : Line → Option Bytes
  | .importing name _ => some name
  | _ => none

/-- The package that a line declares. -/
def declared? : Line → Option Bytes
  | .package name => some name
  | _ => none

/-- The name that a line binds. -/
def bound? : Line → Option Bytes
  | .binding name _ => some name
  | _ => none

/-- The four ways in which a line is read. -/
theorem classify_cases (line : Bytes) :
    classify line = .blank ∨ (∃ rest, classify line = ofPackage rest) ∨
      (∃ rest, classify line = ofImport rest) ∨ ∃ rest, classify line = ofBinding rest := by
  rw [classify_eq]
  unfold byTokens
  simp only
  split
  · exact .inl rfl
  · split
    · exact .inr (.inl ⟨_, rfl⟩)
    · split
      · exact .inr (.inr (.inl ⟨_, rfl⟩))
      · exact .inr (.inr (.inr ⟨_, rfl⟩))

theorem ofImport_declared (rest : Bytes) : (ofImport rest).declared? = none := by
  unfold ofImport
  split <;> (try split) <;> rfl

theorem ofBinding_declared (rest : Bytes) : (ofBinding rest).declared? = none := by
  unfold ofBinding
  simp only
  split <;> (try split) <;> (try split) <;> rfl

theorem ofPackage_word {rest name : Bytes} (h : (ofPackage rest).declared? = some name) :
    isWord name = true := by
  unfold ofPackage at h
  split at h
  · split at h
    · rename_i hw
      cases h; exact hw
    · cases h
  · cases h

/-- A declared package is a word. -/
theorem declared_word {line name : Bytes} (h : (classify line).declared? = some name) :
    isWord name = true := by
  rcases classify_cases line with e | ⟨rest, e⟩ | ⟨rest, e⟩ | ⟨rest, e⟩ <;> rw [e] at h
  · cases h
  · exact ofPackage_word h
  · rw [ofImport_declared] at h; cases h
  · rw [ofBinding_declared] at h; cases h

end Source.Line

namespace Importer

variable {find : Finder} {filename : Option Bytes} {p : Progress} {number : Nat} {line : Bytes}

/-- The lines of a text that `read` makes something of, in order. -/
def collect {α : Type} (read : Line → Option α) (source : Bytes) : List α :=
  (Source.numberedLines source).filterMap fun (_, line) => read (Line.classify line)

/-- The packages that the import lines of a text name. -/
def importedNames : Bytes → List Bytes := collect Line.imported?

/-- The packages that a text declares. -/
def declaredNames : Bytes → List Bytes := collect Line.declared?

/-- The names that the binding lines of a text bind. -/
def boundNames : Bytes → List Bytes := collect Line.bound?

@[simp] theorem report_diagnostics (d : Diagnostic) :
    (p.report d).diagnostics = p.diagnostics ++ [d] := rfl

theorem anyError_report {d : Diagnostic} (h : d.severity = .error) :
    Diagnostic.anyError (p.report d).diagnostics = true := by
  simp [Progress.report, Diagnostic.anyError, Diagnostic.isError, h]

theorem bind_packages (report : Severity → Bytes → Option Bytes → Diagnostic)
    (name expression : Bytes) : (bind p report name expression).packages = p.packages := by
  unfold bind
  split
  · rfl
  · simp only
    split <;> rfl

theorem bind_diagnostics (report : Severity → Bytes → Option Bytes → Diagnostic)
    (name expression : Bytes) :
    ∃ ds, (bind p report name expression).diagnostics = p.diagnostics ++ ds := by
  unfold bind
  split
  · exact ⟨_, rfl⟩
  · simp only
    split
    · exact ⟨_, rfl⟩
    · exact ⟨[], by simp⟩

/-- Only an import line touches the packages. -/
theorem processLine_packages :
    (processLine find filename p (number, line)).packages =
      match (Line.classify line).imported? with
      | some name => (find p.packages name).packages
      | none => p.packages := by
  unfold processLine
  simp only
  split <;> rename_i hl <;> simp only [hl, Line.imported?]
  · split <;> rfl
  · rfl
  · split <;> rfl
  · rfl
  · exact bind_packages ..
  · rfl
  · rfl

/-- A line adds diagnostics and takes none back. -/
theorem processLine_diagnostics :
    ∃ ds, (processLine find filename p (number, line)).diagnostics = p.diagnostics ++ ds := by
  unfold processLine
  simp only
  split
  · exact ⟨[], by simp⟩
  · split
    · exact ⟨_, rfl⟩
    · exact ⟨[], by simp⟩
  · exact ⟨_, rfl⟩
  · split
    · exact ⟨_, rfl⟩
    · exact ⟨_, List.append_assoc ..⟩
  · exact ⟨_, rfl⟩
  · exact bind_diagnostics ..
  · exact ⟨_, rfl⟩
  · exact ⟨_, rfl⟩

/-- What holds at the start and is kept by every line holds at the end. -/
theorem process_induction {P : Progress → Prop} {packages : Packages} {bindings : Bindings}
    {source : Bytes} (start : P { bindings, packages })
    (step : ∀ p number line, (number, line) ∈ Source.numberedLines source → P p →
      P (processLine find filename p (number, line))) :
    P (process find packages bindings filename source) :=
  List.foldlRecOn _ _ start fun p hp (number, line) hl => step p number line hl hp

end Importer

end PatternEngine
