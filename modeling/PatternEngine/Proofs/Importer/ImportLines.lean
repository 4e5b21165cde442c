import PatternEngine.Proofs.Importer.Reading
/-!
# A text of one import line

A package can be imported by a call or by a line of a text. Loading a text that is one import line
comes to the same as the call (`load_importing`): the search is the same, the names are bound alike,
and so are the packages known afterwards. Only when the package is not found the text has more to
say, namely that its first line cannot be obeyed.
-/
namespace PatternEngine

open PatternEngine.Source (Alias Line Reads isWord isWordByte dropReturn)

namespace Source

variable {package token raw : Bytes} {under : Option Bytes} {b : UInt8}

/-- The line that imports a package, under a name if there is one. -/
def importLine (package : Bytes) (under : Option Bytes) : Bytes :=
  text "import " ++ package ++ under.elim [] fun token => text " as " ++ token

/-- A name that a package may be imported under. The dot stands for no prefix at all. -/
def IsAlias (token : Bytes) : Prop := isWord token = true ∨ token = text "."

theorem dropReturn_of_not_mem (h : 13 ∉ raw) : dropReturn raw = raw :=
  dropReturn_eq.2 (.inr ⟨rfl, fun hlast => h (List.mem_of_getLast? hlast)⟩)

theorem IsAlias.ne_nil (h : IsAlias token) : token ≠ [] := by
  rcases h with h | rfl
  · exact isWord_ne h
  · decide

/-- There is neither a blank nor the end of a line in a name. -/
theorem IsAlias.not_blank (h : IsAlias token) : ∀ b ∈ token, isBlank b = false := by
  rcases h with h | rfl
  · exact not_blank_of_word h
  · intro b hb
    rw [List.mem_singleton.1 hb]
    rfl

/-- The only blanks of the line are spaces. -/
theorem blank_importLine (hword : isWord package = true) (hunder : ∀ token ∈ under, IsAlias token)
    (hm : b ∈ importLine package under) (hb : isBlank b = true) : b = 32 := by
  have hwords : ∀ token : Bytes, (∀ b ∈ token, isBlank b = false) → b ∉ token := by
    intro token hall hmem
    rw [hall b hmem] at hb
    cases hb
  have hfixed : ∀ s : Bytes, s.all (fun b => !isBlank b || b == 32) = true → b ∈ s → b = 32 := by
    intro s hs hmem
    have hspace := List.all_eq_true.1 hs b hmem
    rw [hb] at hspace
    exact eq_of_beq hspace
  unfold importLine at hm
  rcases List.mem_append.1 hm with hm | hm
  · rcases List.mem_append.1 hm with hm | hm
    · exact hfixed (text "import ") (by decide) hm
    · exact absurd hm (hwords _ (not_blank_of_word hword))
  · cases under with
    | none => cases hm
    | some token =>
      rcases List.mem_append.1 hm with hm | hm
      · exact hfixed (text " as ") (by decide) hm
      · exact absurd hm (hwords _ (hunder token rfl).not_blank)

theorem newline_not_mem_importLine (hword : isWord package = true)
    (hunder : ∀ token ∈ under, IsAlias token) : Bytes.newline ∉ importLine package under :=
  fun hm => absurd (blank_importLine hword hunder hm (by decide)) (by decide)

theorem dropReturn_importLine (hword : isWord package = true)
    (hunder : ∀ token ∈ under, IsAlias token) :
    dropReturn (importLine package under) = importLine package under :=
  dropReturn_of_not_mem fun hm => absurd (blank_importLine hword hunder hm (by decide)) (by decide)

/-- What stands behind the keyword is read as the package and the name. -/
theorem classify_importLine (hword : isWord package = true)
    (hunder : ∀ token ∈ under, IsAlias token) :
    Line.classify (importLine package under) =
      .importing package (under.elim .none Alias.ofName) := by
  have hline := newline_not_mem_importLine hword hunder
  have hshape : importLine package under = [] ++ text "import" ++
      32 :: (package ++ under.elim [] fun token => text " as " ++ token) := by
    unfold importLine
    rw [List.append_assoc]
    rfl
  rw [hshape] at hline ⊢
  have hgap : IsGap ([] : Bytes) := fun b hb => nomatch hb
  rw [classify_import hgap (by decide) hline, ofImport_iff]
  refine ⟨hword, ?_⟩
  cases under with
  | none =>
    refine .inl ⟨?_, rfl⟩
    exact tokens_token (isWord_ne hword) (not_blank_of_word hword) (fun b hb => nomatch hb)
  | some token =>
    have htoken : IsAlias token := hunder token rfl
    refine .inr ⟨token, ?_, htoken, rfl⟩
    have hlast : tokens (token ++ []) = [token] :=
      tokens_token htoken.ne_nil htoken.not_blank (fun b hb => nomatch hb)
    rw [List.append_nil] at hlast
    have has : tokens (text "as" ++ 32 :: token) = [text "as", token] := by
      rw [tokens_token (by decide) (not_blank_of_word (by decide)) (by simp [isBlank]),
        tokens_blank (by decide), hlast]
    show tokens (package ++ 32 :: (text "as" ++ 32 :: token)) = _
    rw [tokens_token (isWord_ne hword) (not_blank_of_word hword) (by simp [isBlank]),
      tokens_blank (by decide), has]

end Source

namespace Importer

variable {package source : Bytes} {under : Alias}

/-- What a text of one line says when it imports a package that is not found. -/
def cannotImport (line package : Bytes) : Diagnostic :=
  lineDiagnostic none 1 line .error (text "cannot import package " ++ package) none

/-- A text of one line is processed as the line is. -/
theorem process_one {find : Finder} {packages : Packages} {bindings : Bindings}
    {filename : Option Bytes} (hraw : Bytes.newline ∉ source) :
    process find packages bindings filename source =
      processLine find filename { bindings, packages } (1, dropReturn source) := by
  unfold process
  rw [Source.numberedLines_one hraw]
  rfl

/-- Loading a text that is one import line comes to the import of the package. If the package is not
found, the text has one more error to say about its line. -/
theorem load_importing (files : FileSystem) (env : Environment) (hraw : Bytes.newline ∉ source)
    (hline : Line.classify (dropReturn source) = .importing package under) :
    let loaded := load files env source none
    let imported := importPackage files env package under
    loaded.2 = imported.2 ∧ loaded.1.ok = imported.1.ok ∧ loaded.1.package = none ∧
      loaded.1.diagnostics = if imported.1.ok then imported.1.diagnostics
        else imported.1.diagnostics ++ [cannotImport (dropReturn source) package] := by
  have herror : Diagnostic.anyError (finder files env env.packages package).diagnostics =
      (finder files env env.packages package).exports.isNone :=
    findPackage_error files env.searchPath (files.files.length + 1) env.packages package
  have htakes : Takes (finder files env) none 1 (dropReturn source) package under
      { bindings := env.bindings, packages := env.packages }
      (process (finder files env) env.packages env.bindings none source) := by
    rw [process_one hraw]
    exact processLine_takes hline _
  unfold load importPackage
  generalize process (finder files env) env.packages env.bindings none source = p at htakes ⊢
  unfold Takes at htakes
  dsimp only at htakes ⊢
  generalize finder files env env.packages package = finding at herror htakes ⊢
  obtain ⟨hpackages, -, hdeclared, hfound⟩ := htakes
  cases hexports : finding.exports with
  | some exports =>
    rw [hexports] at herror hfound
    obtain ⟨hbindings, hdiagnostics⟩ := hfound
    rw [List.nil_append] at hdiagnostics
    have hclean : ¬Diagnostic.anyError p.diagnostics = true := by
      rw [hdiagnostics, herror]
      exact Bool.false_ne_true
    rw [if_neg hclean, hdeclared, hpackages, hbindings, hdiagnostics]
    exact ⟨rfl, rfl, rfl, rfl⟩
  | none =>
    rw [hexports] at hfound
    obtain ⟨-, hdiagnostics⟩ := hfound
    rw [List.nil_append] at hdiagnostics
    have hfails : Diagnostic.anyError p.diagnostics = true := by
      rw [hdiagnostics, Diagnostic.anyError_append]
      exact Bool.or_true _
    rw [if_pos hfails, hdeclared, hpackages, hdiagnostics]
    exact ⟨rfl, rfl, rfl, rfl⟩

end Importer

end PatternEngine
