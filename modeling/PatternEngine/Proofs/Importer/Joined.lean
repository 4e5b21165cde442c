import PatternEngine.Proofs.Importer.Processed
import PatternEngine.Proofs.Text.Pieces
/-!
# Texts put one after the other

Loading two texts that are joined by a newline comes to loading the first and then the second
(`load_joined`), because the second half of the joined text is processed as the second text is,
from where the first has led to (`process_joined`). The two differ in the numbers of the lines, and
in what has been declared by then: a package that is declared in both halves is an error
(`load_declared_twice`).
-/
namespace PatternEngine

open PatternEngine.Source (Line)

namespace Source

/-- The number of lines of a text. -/
def lineCount (source : Bytes) : Nat := source.count Bytes.newline + 1

/-- A line as it stands in a text that begins `n` lines further up. -/
def lowerLine (n : Nat) : Nat × Bytes → Nat × Bytes
  | (number, line) => (number + n, line)

/-- The lines of the second half go on counting where the first half has ended. -/
theorem numberedLines_joined (first second : Bytes) :
    numberedLines (first ++ Bytes.newline :: second) =
      numberedLines first ++ (numberedLines second).map (lowerLine (lineCount first)) := by
  unfold numberedLines
  rw [Bytes.splitOn_append_cons, List.zipIdx_append, List.map_append, Bytes.length_splitOn,
    List.zipIdx_eq_map_add (l := Bytes.splitOn Bytes.newline second), List.map_map, List.map_map]
  congr 2
  funext ⟨line, i⟩
  simp only [Function.comp_apply, lowerLine, lineCount, Prod.mk.injEq, and_true]
  omega

end Source

open Source (lowerLine lineCount numberedLines numberedLines_joined)

/-- What is said about a line of a text, when the text stands `n` lines further down in another.
What is said about a file, and what is said about no line at all, stays as it is. -/
def Diagnostic.lower (n : Nat) (d : Diagnostic) : Diagnostic :=
  if d.filename = none then { d with line := d.line.map (· + n) } else d

theorem Diagnostic.severity_lower (n : Nat) (d : Diagnostic) :
    (d.lower n).severity = d.severity := by
  unfold lower
  split <;> rfl

theorem Diagnostic.anyError_lower (n : Nat) (ds : List Diagnostic) :
    anyError (ds.map (lower n)) = anyError ds := by
  unfold anyError isError
  simp only [List.any_map, Function.comp_def, severity_lower]

namespace Importer

variable {files : FileSystem} {env : Environment} {find : Finder} {n number : Nat}
  {line first second : Bytes} {before whole part p : Progress} {filename : Option Bytes}

/-! ## What is declared -/

/-- The first declaration counts. -/
theorem processLine_declares (p : Progress) (number : Nat) (line : Bytes) :
    (processLine find filename p (number, line)).declared =
      p.declared.or (Line.classify line).declared? := by
  unfold processLine
  dsimp only
  split <;> rename_i hl <;> rw [hl] <;> simp only [Line.declared?, Option.or_none]
  · split
    · rename_i other hp
      exact hp.trans (by rw [hp, Option.some_or])
    · rename_i hp
      rw [hp]
      rfl
  · rfl
  · split <;> rfl
  · rfl
  · exact bind_declared ..
  · rfl
  · rfl

theorem foldl_declares (lines : List (Nat × Bytes)) : ∀ p : Progress,
    (lines.foldl (processLine find filename) p).declared =
      p.declared.or (lines.filterMap fun (_, line) => (Line.classify line).declared?).head? := by
  induction lines with
  | nil =>
    intro p
    exact Option.or_none.symm
  | cons l lines ih =>
    obtain ⟨number, line⟩ := l
    intro p
    rw [List.foldl_cons, ih, processLine_declares, Option.or_assoc, List.filterMap_cons]
    cases hd : (Line.classify line).declared? <;> simp [hd]

/-- A text declares the first of the packages that its lines declare, with errors or without. -/
theorem process_declares (packages : Packages) (bindings : Bindings) (source : Bytes) :
    (process find packages bindings filename source).declared = (declaredNames source).head? :=
  (foldl_declares _ _).trans Option.none_or

/-! ## Processing the second half -/

/-- What is said about the lines of files, and about searches, stays as it is when a text is
moved. -/
theorem findPackage_lower (files : FileSystem) (searchPath : Bytes) (fuel n : Nat)
    (packages : Packages) (package : Bytes) :
    ∀ d ∈ (findPackage files searchPath fuel packages package).diagnostics, d.lower n = d := by
  refine findPackage_said ?_ ?_ searchPath fuel packages package
  · intro message filename
    cases filename <;> rfl
  · intro entry _ path number line severity message expression _ _
    rfl

/-- A text is being processed as the second half of another, and by itself. The first half has led
to where the text by itself was started from. -/
structure Continues (before : Progress) (n : Nat) (whole part : Progress) : Prop where
  bindings : whole.bindings = part.bindings
  packages : whole.packages = part.packages
  declared : whole.declared = before.declared.or part.declared
  diagnostics : whole.diagnostics = before.diagnostics ++ part.diagnostics.map (Diagnostic.lower n)

theorem continues_start (before : Progress) (n : Nat) :
    Continues before n before { bindings := before.bindings, packages := before.packages } :=
  ⟨rfl, rfl, Option.or_none.symm, (List.append_nil _).symm⟩

theorem Continues.report (h : Continues before n whole part) (d : Diagnostic) :
    Continues before n (whole.report (d.lower n)) (part.report d) := by
  refine ⟨h.bindings, h.packages, h.declared, ?_⟩
  simp only [report_diagnostics, h.diagnostics, List.map_append, List.append_assoc]
  rfl

/-- The line is said to stand `n` lines further down. -/
theorem Continues.at_line (h : Continues before n whole part) (severity : Severity)
    (message : Bytes) (expression : Option Bytes) : Continues before n
      (whole.report (lineDiagnostic none (number + n) line severity message expression))
      (part.report (lineDiagnostic none number line severity message expression)) :=
  h.report (lineDiagnostic none number line severity message expression)

theorem Continues.rebind (h : Continues before n whole part) (rebind : Bindings → Bindings)
    (own own' : Bindings) : Continues before n
      { whole with bindings := rebind whole.bindings, own := own }
      { part with bindings := rebind part.bindings, own := own' } :=
  ⟨congrArg rebind h.bindings, h.packages, h.declared, h.diagnostics⟩

theorem Continues.bind (h : Continues before n whole part) (name expression : Bytes) :
    Continues before n
      (Importer.bind whole (lineDiagnostic none (number + n) line) name expression)
      (Importer.bind part (lineDiagnostic none number line) name expression) := by
  unfold Importer.bind
  rw [h.bindings]
  split
  · exact h.at_line _ _ _
  · rename_i built _
    dsimp only
    split
    · exact (h.at_line _ _ _).rebind (·.set name built.source) _ _
    · exact h.rebind (·.set name built.source) _ _

/-- One line of the second half, unless it declares a package after the first half has. -/
theorem processLine_continues
    (hfind : ∀ packages name, ∀ d ∈ (find packages name).diagnostics, d.lower n = d)
    (h : Continues before n whole part)
    (hd : before.declared = none ∨ (Line.classify line).declared? = none) :
    Continues before n (processLine find none whole (number + n, line))
      (processLine find none part (number, line)) := by
  unfold processLine
  dsimp only
  split
  · exact h
  · rename_i name hl
    have hnone : before.declared = none := by
      rcases hd with hd | hd
      · exact hd
      · rw [hl] at hd
        cases hd
    have hsame : whole.declared = part.declared := by
      rw [h.declared, hnone, Option.none_or]
    rw [hsame]
    split
    · exact h.at_line _ _ _
    · refine ⟨h.bindings, h.packages, ?_, h.diagnostics⟩
      rw [hnone, Option.none_or]
  · exact h.at_line _ _ _
  · rename_i name under _
    have hsearched : Continues before n
        { whole with
          packages := (find whole.packages name).packages
          diagnostics := whole.diagnostics ++ (find whole.packages name).diagnostics }
        { part with
          packages := (find part.packages name).packages
          diagnostics := part.diagnostics ++ (find part.packages name).diagnostics } := by
      have hsaid : (find part.packages name).diagnostics.map (Diagnostic.lower n) =
          (find part.packages name).diagnostics :=
        (List.map_congr_left (hfind _ _)).trans (List.map_id _)
      refine ⟨h.bindings, by rw [h.packages], h.declared, ?_⟩
      rw [h.packages, h.diagnostics, List.map_append, hsaid, List.append_assoc]
    rw [h.packages] at hsearched ⊢
    split
    · rename_i exports _
      exact hsearched.rebind (·.setPackage name under exports) _ _
    · exact hsearched.at_line _ _ _
  · exact h.at_line _ _ _
  · exact h.bind _ _
  · exact h.at_line _ _ _
  · exact h.at_line _ _ _

theorem foldl_continues
    (hfind : ∀ packages name, ∀ d ∈ (find packages name).diagnostics, d.lower n = d)
    (lines : List (Nat × Bytes))
    (hd : before.declared = none ∨ ∀ l ∈ lines, (Line.classify l.2).declared? = none) :
    ∀ whole part : Progress, Continues before n whole part →
      Continues before n ((lines.map (lowerLine n)).foldl (processLine find none) whole)
        (lines.foldl (processLine find none) part) := by
  induction lines with
  | nil => exact fun whole part h => h
  | cons l lines ih =>
    intro whole part h
    have hline : before.declared = none ∨ (Line.classify l.2).declared? = none :=
      hd.imp_right fun hlines => hlines l List.mem_cons_self
    have hrest : before.declared = none ∨ ∀ l ∈ lines, (Line.classify l.2).declared? = none :=
      hd.imp_right fun hlines l hm => hlines l (List.mem_cons_of_mem _ hm)
    exact ih hrest _ _ (processLine_continues hfind h hline)

/-- The second half of a text is processed as a text by itself, from where the first half has led
to, as long as not both of them declare packages. -/
theorem process_joined
    (hfind : ∀ packages name, ∀ d ∈ (find packages name).diagnostics,
      d.lower (lineCount first) = d)
    (hdeclared : declaredNames first = [] ∨ declaredNames second = []) (packages : Packages)
    (bindings : Bindings) :
    let before := process find packages bindings none first
    Continues before (lineCount first)
      (process find packages bindings none (first ++ Bytes.newline :: second))
      (process find before.packages before.bindings none second) := by
  intro before
  have hd : before.declared = none ∨
      ∀ l ∈ numberedLines second, (Line.classify l.2).declared? = none := by
    refine hdeclared.imp ?_ ?_
    · intro hnone
      rw [process_declares, hnone]
      rfl
    · exact List.filterMap_eq_nil_iff.1
  have hwhole : process find packages bindings none (first ++ Bytes.newline :: second) =
      ((numberedLines second).map (lowerLine (lineCount first))).foldl
        (processLine find none) before := by
    unfold process
    rw [numberedLines_joined, List.foldl_append]
    rfl
  rw [hwhole]
  exact foldl_continues hfind _ hd _ _ (continues_start before _)

/-! ## Loading -/

theorem load_report (files : FileSystem) (env : Environment) (source : Bytes) :
    let p := process (finder files env) env.packages env.bindings none source
    (load files env source none).1 =
      ⟨!Diagnostic.anyError p.diagnostics, p.declared, p.diagnostics⟩ := by
  unfold load
  dsimp only
  split
  · rename_i herror
    rw [herror]
    rfl
  · rename_i hclean
    rw [Bool.not_eq_true] at hclean
    rw [hclean]
    rfl

theorem load_bound (h : (load files env first none).1.ok = true) :
    let p := process (finder files env) env.packages env.bindings none first
    (load files env first none).2 =
      { env with packages := p.packages, bindings := p.bindings } := by
  have hclean : Diagnostic.anyError
      (process (finder files env) env.packages env.bindings none first).diagnostics = false := by
    rw [load_report] at h
    simpa using h
  unfold load
  simp only [hclean, Bool.false_eq_true, ↓reduceIte]

/-- Loading two texts as one succeeds exactly when loading them one after the other does, and then
it comes to the same. -/
theorem load_joined (files : FileSystem) (env : Environment)
    (hdeclared : declaredNames first = [] ∨ declaredNames second = []) :
    let one := load files env first none
    let two := load files one.2 second none
    let both := load files env (first ++ Bytes.newline :: second) none
    (both.1.ok = true ↔ one.1.ok = true ∧ two.1.ok = true) ∧
    (both.1.ok = true → both.2 = two.2 ∧ both.1.package = one.1.package.or two.1.package ∧
      both.1.diagnostics =
        one.1.diagnostics ++ two.1.diagnostics.map (Diagnostic.lower (lineCount first))) := by
  let find := finder files env
  let before := process find env.packages env.bindings none first
  let part := process find before.packages before.bindings none second
  let whole := process find env.packages env.bindings none (first ++ Bytes.newline :: second)
  have hwhole : Continues before (lineCount first) whole part :=
    process_joined (findPackage_lower files env.searchPath (enoughFuel files) (lineCount first))
      hdeclared env.packages env.bindings
  have herror : Diagnostic.anyError whole.diagnostics =
      (Diagnostic.anyError before.diagnostics || Diagnostic.anyError part.diagnostics) := by
    rw [hwhole.diagnostics, Diagnostic.anyError_append, Diagnostic.anyError_lower]
  intro one two both
  have hone : one.1 = ⟨!Diagnostic.anyError before.diagnostics, before.declared,
      before.diagnostics⟩ := load_report files env first
  have hboth : both.1 = ⟨!Diagnostic.anyError whole.diagnostics, whole.declared,
      whole.diagnostics⟩ := load_report files env _
  cases hbefore : Diagnostic.anyError before.diagnostics with
  | true => simp [hone, hboth, herror, hbefore]
  | false =>
    let middle := { env with packages := before.packages, bindings := before.bindings }
    -- the second load starts where the second half of the joined text does
    have hstart : two = load files middle second none := by
      have hok : one.1.ok = true := by
        rw [hone, hbefore]
        rfl
      exact congrArg (load files · second none) (load_bound hok)
    have htwo : two.1 = ⟨!Diagnostic.anyError part.diagnostics, part.declared,
        part.diagnostics⟩ := by
      rw [hstart]
      exact load_report files middle second
    have hok : both.1.ok = two.1.ok := by
      rw [hboth, htwo, herror, hbefore, Bool.false_or]
    refine ⟨by simp [hok, hone, hbefore], ?_⟩
    intro hsuccess
    refine ⟨?_, ?_, ?_⟩
    · have hend : two.2 = { env with packages := part.packages, bindings := part.bindings } := by
        rw [hok, hstart] at hsuccess
        rw [hstart]
        exact load_bound hsuccess
      rw [hend, ← hwhole.packages, ← hwhole.bindings]
      exact load_bound hsuccess
    · rw [hboth, hone, htwo]
      exact hwhole.declared
    · rw [hboth, hone, htwo]
      exact hwhole.diagnostics

/-- A declaration in the second text is an error of the joined text if the first text declares a
package as well. -/
theorem load_declared_twice (files : FileSystem) (env : Environment) {name other : Bytes}
    (hfirst : (declaredNames first).head? = some other)
    (hm : (number, line) ∈ numberedLines second) (hl : Line.classify line = .package name) :
    let both := load files env (first ++ Bytes.newline :: second) none
    both.1.ok = false ∧
      lineDiagnostic none (number + lineCount first) line .error
        (text "package already declared as " ++ other) none ∈ both.1.diagnostics := by
  let find := finder files env
  let start : Progress := { bindings := env.bindings, packages := env.packages }
  let whole := process find env.packages env.bindings none (first ++ Bytes.newline :: second)
  let said := lineDiagnostic none (number + lineCount first) line .error
    (text "package already declared as " ++ other) none
  obtain ⟨above, below, hsecond⟩ := List.append_of_mem hm
  have hlines : numberedLines (first ++ Bytes.newline :: second) =
      (numberedLines first ++ above.map (lowerLine (lineCount first))) ++
        (number + lineCount first, line) :: below.map (lowerLine (lineCount first)) := by
    rw [numberedLines_joined, hsecond, List.map_append, List.append_assoc]
    rfl
  let reached := (numberedLines first ++ above.map (lowerLine (lineCount first))).foldl
    (processLine find none) start
  have hreached : reached.declared = some other := by
    have hfirst : (process find env.packages env.bindings none first).declared = some other :=
      (process_declares _ _ first).trans hfirst
    unfold reached
    rw [List.foldl_append, foldl_declares]
    exact (congrArg (Option.or · _) hfirst).trans rfl
  have hline : processLine find none reached (number + lineCount first, line) =
      reached.report said := by
    unfold processLine
    simp only [hl, hreached]
    rfl
  have hsaid : said ∈ whole.diagnostics := by
    unfold whole process
    rw [hlines, List.foldl_append, List.foldl_cons, hline]
    refine (Job.foldl_prefix _ _).subset ?_
    simp
  intro both
  have hboth : both.1 = ⟨!Diagnostic.anyError whole.diagnostics, whole.declared,
      whole.diagnostics⟩ := load_report files env _
  have herror : Diagnostic.anyError whole.diagnostics = true :=
    Diagnostic.anyError_eq_true.2 ⟨said, hsaid, rfl⟩
  rw [hboth, herror]
  exact ⟨rfl, hsaid⟩

end Importer

end PatternEngine
