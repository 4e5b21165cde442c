import PatternEngine.Proofs.Importer.Joined
import PatternEngine.Proofs.Source.Grammar
/-!
# Texts by the grammar of lines

The lines of a text are what stands between its newlines, without a carriage return at the end
(`mem_numberedLines_iff`). What each of them does is decided by what it says by the grammar
(`lines_by_grammar`): a line that says nothing of the kind adds an error to what is said, and does
nothing else.
-/
namespace PatternEngine

open PatternEngine.Source (Line Reads)

namespace Source

variable {source line first second raw : Bytes} {number : Nat}

/-- The line of a text that has this number. It begins and ends at a newline or where the text
does, and one carriage return at its end is left out. -/
def IsLine (source : Bytes) (number : Nat) (line : Bytes) : Prop :=
  ∃ above raw below, source = above ++ raw ++ below ∧ Bytes.newline ∉ raw ∧
    (∀ b ∈ above.getLast?, b = Bytes.newline) ∧ (∀ b ∈ below.head?, b = Bytes.newline) ∧
    number = above.count Bytes.newline + 1 ∧
    (raw = line ++ [13] ∨ raw = line ∧ line.getLast? ≠ some 13)

theorem dropReturn_eq :
    dropReturn raw = line ↔ raw = line ++ [13] ∨ raw = line ∧ line.getLast? ≠ some 13 := by
  unfold dropReturn
  constructor
  · split
    · rename_i hlast
      rintro rfl
      obtain ⟨more, hmore⟩ := List.getLast?_eq_some_iff.1 (eq_of_beq hlast)
      exact .inl (by rw [hmore, List.dropLast_concat])
    · rename_i hlast
      rintro rfl
      exact .inr ⟨rfl, fun h => hlast (beq_iff_eq.2 h)⟩
  · rintro (rfl | ⟨rfl, hlast⟩)
    · simp
    · rw [if_neg fun h => hlast (eq_of_beq h)]

theorem numberedLines_one (h : Bytes.newline ∉ raw) :
    numberedLines raw = [(1, dropReturn raw)] := by
  unfold numberedLines
  rw [Bytes.splitOn_of_not_mem h]
  rfl

theorem mem_numberedLines_joined :
    (number, line) ∈ numberedLines (first ++ Bytes.newline :: second) ↔
      (number, line) ∈ numberedLines first ∨
        ∃ n, (n, line) ∈ numberedLines second ∧ number = n + lineCount first := by
  rw [numberedLines_joined, List.mem_append, List.mem_map]
  refine or_congr_right ⟨?_, ?_⟩
  · rintro ⟨⟨n, other⟩, hm, hlowered⟩
    cases hlowered
    exact ⟨n, hm, rfl⟩
  · rintro ⟨n, hm, rfl⟩
    exact ⟨(n, line), hm, rfl⟩

/-- The first line of a text ends at its first newline. -/
theorem first_mem_numberedLines {below : Bytes} (hraw : Bytes.newline ∉ raw)
    (hbelow : ∀ b ∈ below.head?, b = Bytes.newline) :
    (1, dropReturn raw) ∈ numberedLines (raw ++ below) := by
  cases below with
  | nil =>
    rw [List.append_nil, numberedLines_one hraw]
    exact List.mem_singleton.2 rfl
  | cons b below =>
    rw [hbelow b rfl, mem_numberedLines_joined, numberedLines_one hraw]
    exact .inl (List.mem_singleton.2 rfl)

theorem IsLine.mem (h : IsLine source number line) : (number, line) ∈ numberedLines source := by
  obtain ⟨above, raw, below, rfl, hraw, habove, hbelow, rfl, hline⟩ := h
  have hfirst := first_mem_numberedLines hraw hbelow
  rw [dropReturn_eq.2 hline] at hfirst
  rcases List.eq_nil_or_concat above with rfl | ⟨more, b, rfl⟩
  · exact hfirst
  · have hb : b = Bytes.newline := habove b (by simp)
    subst hb
    have hjoined : more ++ [Bytes.newline] ++ raw ++ below =
        more ++ Bytes.newline :: (raw ++ below) := by
      simp
    rw [List.concat_eq_append, hjoined, mem_numberedLines_joined]
    refine .inr ⟨1, hfirst, ?_⟩
    simp only [List.count_append, List.count_singleton_self, lineCount]
    omega

/-- The lines that are read are the lines of the text. The induction is on the length of the text
below the first line. -/
theorem isLine_of_mem (source : Bytes) {number : Nat} {line : Bytes}
    (h : (number, line) ∈ numberedLines source) : IsLine source number line := by
  by_cases hm : Bytes.newline ∈ source
  · obtain ⟨raw, rest, hcut, hraw⟩ := List.eq_append_cons_of_mem hm
    have hshorter : rest.length < source.length := by
      rw [hcut, List.length_append, List.length_cons]
      omega
    rw [hcut, mem_numberedLines_joined, numberedLines_one hraw, List.mem_singleton] at h
    rcases h with h | ⟨n, hrest, rfl⟩
    · cases h
      exact ⟨[], raw, Bytes.newline :: rest, hcut, hraw, by simp, by simp, by simp,
        dropReturn_eq.1 rfl⟩
    · obtain ⟨above, raw', below, hsplit, hraw', habove, hbelow, rfl, hline⟩ :=
        isLine_of_mem rest hrest
      refine ⟨raw ++ Bytes.newline :: above, raw', below, ?_, hraw', ?_, hbelow, ?_, hline⟩
      · rw [hcut, hsplit]
        simp
      · intro b hb
        cases above with
        | nil => simpa [eq_comm] using hb
        | cons c above =>
          apply habove b
          simpa [List.getLast?_append, List.getLast?_cons_cons] using hb
      · simp only [List.count_append, List.count_cons_self, lineCount]
        omega
  · rw [numberedLines_one hm, List.mem_singleton] at h
    cases h
    exact ⟨[], source, [], by simp, hm, by simp, by simp, by simp, dropReturn_eq.1 rfl⟩
termination_by source.length

theorem mem_numberedLines_iff :
    (number, line) ∈ numberedLines source ↔ IsLine source number line :=
  ⟨isLine_of_mem source, IsLine.mem⟩

/-- There is no newline in a line. -/
theorem IsLine.newline_not_mem (h : IsLine source number line) : Bytes.newline ∉ line := by
  obtain ⟨above, raw, below, -, hraw, -, -, -, rfl | ⟨rfl, -⟩⟩ := h
  · exact fun hm => hraw (List.mem_append_left _ hm)
  · exact hraw

end Source

namespace Importer

open PatternEngine.Source (Alias IsLine numberedLines)

variable {find : Finder} {filename : Option Bytes} {source line name expression : Bytes}
  {number : Nat} {p : Progress}

/-! ## What a line does -/

/-- A line that is read as a fault adds an error about itself, and does nothing else. -/
theorem processLine_fault (h : (Line.classify line).isFault = true) (p : Progress) :
    ∃ message, processLine find filename p (number, line) =
      p.report (lineDiagnostic filename number line .error message none) := by
  unfold processLine
  dsimp only
  split <;> rename_i hl <;> rw [hl] at h
  · cases h
  · cases h
  · exact ⟨_, rfl⟩
  · cases h
  · exact ⟨_, rfl⟩
  · cases h
  · exact ⟨_, rfl⟩
  · exact ⟨_, rfl⟩

/-- The first package that is declared counts, and another one is an error. -/
def Declares (filename : Option Bytes) (number : Nat) (line name : Bytes) (p q : Progress) : Prop :=
  match p.declared with
  | none => q = { p with declared := some name }
  | some other => q = p.report (lineDiagnostic filename number line .error
      (text "package already declared as " ++ other) none)

/-- The package is searched for, and its names are bound if it is found. If not, that is an error
after all that the search has said. -/
def Takes (find : Finder) (filename : Option Bytes) (number : Nat) (line name : Bytes)
    (under : Alias) (p q : Progress) : Prop :=
  let finding := find p.packages name
  q.packages = finding.packages ∧ q.own = p.own ∧ q.declared = p.declared ∧
  match finding.exports with
  | some exports => q.bindings = p.bindings.setPackage name under exports ∧
      q.diagnostics = p.diagnostics ++ finding.diagnostics
  | none => q.bindings = p.bindings ∧
      q.diagnostics = p.diagnostics ++ finding.diagnostics ++
        [lineDiagnostic filename number line .error (text "cannot import package " ++ name) none]

/-- The name is bound to what the expression is built to. If it cannot be built, that is an error
and nothing else happens. -/
def Binds (filename : Option Bytes) (number : Nat) (line name expression : Bytes)
    (p q : Progress) : Prop :=
  match Environment.build p.bindings expression name with
  | .ok built => q.bindings = p.bindings.set name built.source ∧
      q.own = p.own.set name built.source ∧ q.packages = p.packages ∧ q.declared = p.declared ∧
      q.diagnostics = p.diagnostics ++
        if (p.bindings.get? name).isSome then [lineDiagnostic filename number line .warning
          (text "reassignment to identifier " ++ name) none] else []
  | .error obstacle => q = p.report
      (lineDiagnostic filename number line .error obstacle.message (some expression))

theorem processLine_declared_as (h : Line.classify line = .package name) (p : Progress) :
    Declares filename number line name p (processLine find filename p (number, line)) := by
  unfold processLine Declares
  simp only [h]
  cases p.declared <;> rfl

theorem processLine_takes {under : Alias} (h : Line.classify line = .importing name under)
    (p : Progress) :
    Takes find filename number line name under p
      (processLine find filename p (number, line)) := by
  unfold processLine Takes
  simp only [h]
  cases (find p.packages name).exports <;> exact ⟨rfl, rfl, rfl, rfl, rfl⟩

theorem processLine_binds (h : Line.classify line = .binding name expression) (p : Progress) :
    Binds filename number line name expression p
      (processLine find filename p (number, line)) := by
  unfold processLine Binds
  simp only [h, bind]
  cases Environment.build p.bindings expression name with
  | error obstacle => rfl
  | ok built =>
    dsimp only
    split
    · exact ⟨rfl, rfl, rfl, rfl, rfl⟩
    · exact ⟨rfl, rfl, rfl, rfl, (List.append_nil _).symm⟩

/-- What a line may do, by what it says. -/
theorem processLine_ways (find : Finder) (filename : Option Bytes)
    (hline : IsLine source number line) (p : Progress) :
    let q := processLine find filename p (number, line)
    q = p ∨ (∃ name, Reads line (.package name) ∧ Declares filename number line name p q) ∨
      (∃ name under, Reads line (.importing name under) ∧
        Takes find filename number line name under p q) ∨
      (∃ name expression, Reads line (.binding name expression) ∧
        Binds filename number line name expression p q) ∨
      ∃ message, q = p.report (lineDiagnostic filename number line .error message none) := by
  by_cases hfault : (Line.classify line).isFault = true
  · exact .inr (.inr (.inr (.inr (processLine_fault hfault p))))
  · rw [Bool.not_eq_true] at hfault
    have hreads := Source.reads_of_classify hline.newline_not_mem hfault
    cases hl : Line.classify line with
    | blank =>
      refine .inl ?_
      unfold processLine
      simp only [hl]
    | package name => exact .inr (.inl ⟨name, hl ▸ hreads, processLine_declared_as hl p⟩)
    | importing name under =>
      exact .inr (.inr (.inl ⟨name, under, hl ▸ hreads, processLine_takes hl p⟩))
    | binding name expression =>
      exact .inr (.inr (.inr (.inl ⟨name, expression, hl ▸ hreads, processLine_binds hl p⟩)))
    | badPackage => rw [hl] at hfault; cases hfault
    | badImport => rw [hl] at hfault; cases hfault
    | noExpression name => rw [hl] at hfault; cases hfault
    | malformed => rw [hl] at hfault; cases hfault

/-- A text that is loaded has no line that is read as a fault. -/
theorem no_fault_of_load {files : FileSystem} {env : Environment}
    (hm : (number, line) ∈ numberedLines source)
    (hok : (load files env source filename).1.ok = true) :
    (Line.classify line).isFault = false := by
  by_contra hfault
  rw [Bool.not_eq_false] at hfault
  obtain ⟨above, below, hlines⟩ := List.append_of_mem hm
  let job := textJob files env filename source
  let find := findPackage files env.searchPath job.fuel
  let p := job.after files env.searchPath above
  obtain ⟨message, hline⟩ : ∃ message, processLine find filename p (number, line) =
      p.report (lineDiagnostic filename number line .error message none) :=
    processLine_fault hfault p
  have hsaid : Diagnostic.anyError (processLine find filename p (number, line)).diagnostics =
      true := by
    rw [hline]
    exact anyError_report rfl
  have hprefix : (processLine find filename p (number, line)).diagnostics <+:
      (job.progress files env.searchPath).diagnostics := by
    unfold Job.progress Job.after
    have hsource : numberedLines job.source = above ++ (number, line) :: below := hlines
    rw [hsource, List.foldl_append, List.foldl_cons]
    exact Job.foldl_prefix below _
  have herror := Job.anyError_of_infix hprefix.isInfix hsaid
  have hreport : (load files env source filename).1.ok =
      !Diagnostic.anyError (load files env source filename).1.diagnostics := load_ok source filename
  rw [load_diagnostics, herror, hok] at hreport
  cases hreport

/-- The lines of a text are read by the grammar, and by nothing else. What a line says decides what
it does. A line that says nothing adds an error with its number and changes nothing else, and the
text is not loaded. -/
theorem lines_by_grammar (source : Bytes) (number : Nat) (line : Bytes)
    (hline : IsLine source number line) :
    (number, line) ∈ numberedLines source ∧
    (∀ said, Reads line said ↔ Line.classify line = said ∧ said.isFault = false) ∧
    (∀ (find : Finder) (filename : Option Bytes) (p : Progress),
      let q := processLine find filename p (number, line)
      (Reads line .blank → q = p) ∧
      (∀ name, Reads line (.package name) → Declares filename number line name p q) ∧
      (∀ name under, Reads line (.importing name under) →
        Takes find filename number line name under p q) ∧
      (∀ name expression, Reads line (.binding name expression) →
        Binds filename number line name expression p q) ∧
      ((∀ said, ¬Reads line said) → ∃ message,
        q = p.report (lineDiagnostic filename number line .error message none))) ∧
    ∀ (files : FileSystem) (env : Environment) (filename : Option Bytes),
      (load files env source filename).1.ok = true → ∃ said, Reads line said := by
  have hfree := hline.newline_not_mem
  have hreads : ∀ said, Reads line said ↔ Line.classify line = said ∧ said.isFault = false :=
    fun said => Source.classify_iff hfree
  refine ⟨hline.mem, hreads, ?_, ?_⟩
  · intro find filename p q
    refine ⟨?_, ?_, ?_, ?_, ?_⟩
    · intro h
      have hblank := h.classify hfree
      unfold q processLine
      simp only [hblank]
    · exact fun name h => processLine_declared_as (h.classify hfree) p
    · exact fun name under h => processLine_takes (h.classify hfree) p
    · exact fun name expression h => processLine_binds (h.classify hfree) p
    · intro h
      apply processLine_fault
      by_contra hfault
      rw [Bool.not_eq_true] at hfault
      exact h _ ((hreads _).2 ⟨rfl, hfault⟩)
  · intro files env filename hok
    exact ⟨_, (hreads _).2 ⟨rfl, no_fault_of_load hline.mem hok⟩⟩

/-- The keyword may be repeated as a name, and the carriage return is not part of the line. -/
theorem lines_by_grammar_sample :
    let source := text "-- names\nimport as as as\r\npackage=x\n"
    let line := text "import as as as"
    IsLine source 2 line ∧ (2, line) ∈ numberedLines source ∧
      Reads line (.importing (text "as") (.word (text "as"))) := by
  intro source line
  have hline : IsLine source 2 line :=
    ⟨text "-- names\n", text "import as as as\r", text "\npackage=x\n", by decide, by decide,
      fun b hb => (Option.some.inj hb).symm, fun b hb => (Option.some.inj hb).symm, by decide,
      .inl (by decide)⟩
  obtain ⟨hm, hreads, -⟩ := lines_by_grammar source 2 line hline
  exact ⟨hline, hm, (hreads _).2 ⟨by decide, rfl⟩⟩

end Importer

end PatternEngine
