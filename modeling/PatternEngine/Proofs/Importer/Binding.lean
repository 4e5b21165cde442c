import PatternEngine.Proofs.Importer.Lines
import PatternEngine.Proofs.Text.Pieces
/-!
# A text of one binding

A text of one line that binds a name is read as that (`classify_assignment`), unless the name is a
keyword. When such a text is loaded and nothing is wrong, the name is bound to the source of the
expression, and nothing else changes (`load_assignment`).
-/
namespace PatternEngine

open PatternEngine.Source

namespace Source

variable {name expression : Bytes}

/-- The line that binds a name to an expression. -/
def assignment (name expression : Bytes) : Bytes := name ++ text " = " ++ expression

theorem assignment_eq (name expression : Bytes) :
    assignment name expression = name ++ 32 :: 61 :: 32 :: expression := by
  unfold assignment
  rw [List.append_assoc]
  rfl

/-- A run of bytes that satisfy `p` ends before the first one that does not. -/
theorem span_run {p : UInt8 → Bool} {run : Bytes} {b : UInt8} (hrun : ∀ x ∈ run, p x = true)
    (hb : p b = false) (rest : Bytes) :
    (run ++ b :: rest).takeWhile p = run ∧ (run ++ b :: rest).dropWhile p = b :: rest := by
  rw [List.takeWhile_append_of_pos hrun, List.dropWhile_append_of_pos hrun]
  simp [hb]

/-! ## The ends of an expression -/

theorem getLast_of_trimmed (h : trim expression = expression) {b : UInt8}
    (hb : expression.getLast? = some b) : isBlank b = false := by
  rw [← h] at hb
  unfold trim Bytes.dropWhileRight at hb
  rw [List.getLast?_reverse] at hb
  have := List.head?_dropWhile_not isBlank (expression.dropWhile isBlank).reverse
  rw [hb] at this
  exact this

theorem not_all_blank (h : trim expression = expression) (hne : expression ≠ []) :
    expression.all isBlank = false := by
  cases ha : expression.all isBlank with
  | false => rfl
  | true =>
    obtain ⟨b, hb⟩ : ∃ b, expression.getLast? = some b := ⟨_, List.getLast?_eq_some_getLast hne⟩
    have hblank := List.all_eq_true.1 ha b (List.mem_of_getLast? hb)
    rw [getLast_of_trimmed h hb] at hblank
    cases hblank

theorem dropReturn_assignment (h : trim expression = expression) :
    dropReturn (assignment name expression) = assignment name expression := by
  have hequals : (text " = ").getLast? = some 32 := rfl
  unfold dropReturn
  rw [if_neg]
  unfold assignment
  rw [List.getLast?_append, List.getLast?_append, hequals]
  intro hlast
  cases hl : expression.getLast? with
  | none =>
    rw [hl] at hlast
    cases hlast
  | some b =>
    rw [hl] at hlast
    cases eq_of_beq hlast
    cases getLast_of_trimmed h hl

/-! ## The line -/

theorem tokens_equals (expression : Bytes) :
    tokens (61 :: 32 :: expression) = [61] :: tokens expression := by
  unfold tokens
  simp only [List.foldr_cons]
  rfl

theorem ofPackage_equals (expression : Bytes) :
    Line.ofPackage (61 :: 32 :: expression) = .badPackage := by
  unfold Line.ofPackage
  rw [tokens_equals]
  generalize tokens expression = more
  split
  · rename_i heq
    cases heq
    rfl
  · rfl

theorem ofImport_equals (expression : Bytes) :
    Line.ofImport (61 :: 32 :: expression) = .badImport := by
  unfold Line.ofImport
  rw [tokens_equals]
  generalize tokens expression = more
  split
  · rename_i heq
    cases heq
    rfl
  · rename_i heq
    cases heq
    rfl
  · rfl

/-- What follows a keyword in such a line, when the name is the keyword. -/
theorem afterKeyword_assignment {keyword rest : Bytes} (hk : isWord keyword = true)
    (hname : isWord name = true)
    (h : Line.afterKeyword? keyword (assignment name expression) = some rest) :
    rest = 61 :: 32 :: expression := by
  unfold Line.afterKeyword? at h
  split at h
  · rename_i hp
    split at h
    · rename_i b more hd
      split at h
      · rename_i hb
        cases h
        obtain ⟨tail, ht⟩ := List.isPrefixOf_iff_prefix.1 hp
        rw [← ht, List.drop_left] at hd
        subst hd
        rw [assignment_eq] at ht
        have hword : isWordByte b = false := by
          cases hw : isWordByte b with
          | false => rfl
          | true => rw [isBlank_of_isWordByte hw] at hb; cases hb
        have hl := (span_run (isWord_all hk) hword rest).2
        have hr := (span_run (isWord_all hname) (by decide : isWordByte 32 = false)
          (61 :: 32 :: expression)).2
        rw [ht, hr] at hl
        cases hl
        rfl
      · cases h
    · cases h
  · cases h

theorem ofBinding_assignment (hname : isWord name = true) (htrim : trim expression = expression) :
    Line.ofBinding (assignment name expression) =
      if expression = [] then .noExpression name else .binding name expression := by
  obtain ⟨htake, hdrop⟩ := span_run (isWord_all hname) (by decide : isWordByte 32 = false)
    (61 :: 32 :: expression)
  have hequals : (32 :: 61 :: 32 :: expression).dropWhile isBlank = 61 :: 32 :: expression := rfl
  have hblank : trim (32 :: expression) = trim expression := rfl
  have hempty : name.isEmpty = false := by simpa using isWord_ne hname
  rw [assignment_eq]
  unfold Line.ofBinding
  simp only [htake, hdrop, hequals, hblank, htrim, hempty, Bool.false_eq_true, if_false]
  cases expression <;> rfl

/-- The line is no comment and not blank. -/
theorem starts_assignment (expression : Bytes) (hname : isWord name = true) :
    (assignment name expression).dropWhile isBlank = assignment name expression ∧
      ((assignment name expression).isEmpty ||
        (text "--").isPrefixOf (assignment name expression)) = false := by
  rw [assignment_eq]
  cases name with
  | nil => cases hname
  | cons b name =>
    have hb : isWordByte b = true := isWord_all hname b (by simp)
    refine ⟨by simp [isBlank_of_isWordByte hb], ?_⟩
    have hdash : (45 == b) = false := by
      rw [beq_eq_false_iff_ne]
      rintro rfl
      exact absurd hb (by decide)
    show ((45 == b) && _) = false
    rw [hdash, Bool.false_and]

/-- The line binds the name, or is refused. -/
theorem classify_assignment (hname : isWord name = true) (htrim : trim expression = expression) :
    Line.classify (assignment name expression) = .binding name expression ∧ expression ≠ [] ∨
      Line.classify (assignment name expression) ∈
        [.badPackage, .badImport, .noExpression name] := by
  obtain ⟨hdrop, hstart⟩ := starts_assignment expression hname
  rw [classify_eq]
  unfold Line.byTokens
  simp only [hdrop, hstart, Bool.false_eq_true, if_false]
  split
  · rename_i rest hk
    rw [afterKeyword_assignment (by decide) hname hk, ofPackage_equals]
    exact .inr (by simp)
  · split
    · rename_i rest hk
      rw [afterKeyword_assignment (by decide) hname hk, ofImport_equals]
      exact .inr (by simp)
    · rw [ofBinding_assignment hname htrim]
      split
      · exact .inr (by simp)
      · rename_i hne
        exact .inl ⟨rfl, hne⟩

theorem numberedLines_assignment (hname : isWord name = true)
    (hline : Bytes.newline ∉ expression) (htrim : trim expression = expression) :
    numberedLines (assignment name expression) = [(1, assignment name expression)] := by
  have hnew : Bytes.newline ∉ assignment name expression := by
    rw [assignment_eq, List.mem_append]
    rintro (hn | hn)
    · exact absurd (isWord_all hname _ hn) (by decide)
    · simp only [List.mem_cons] at hn
      rcases hn with hn | hn | hn | hn
      · cases hn
      · cases hn
      · cases hn
      · exact hline hn
  unfold numberedLines
  rw [Bytes.splitOn_of_not_mem hnew]
  simp only [List.zipIdx_cons, List.zipIdx_nil, List.map_cons, List.map_nil,
    dropReturn_assignment htrim]

end Source

namespace Importer

variable {files : FileSystem} {env : Environment} {filename : Option Bytes}
  {name expression : Bytes}

/-- A line with an error is all it takes. -/
theorem bind_clean {p : Progress} {report : Severity → Bytes → Option Bytes → Diagnostic}
    (hreport : ∀ severity message expression,
      (report severity message expression).severity = severity)
    (h : Diagnostic.anyError (bind p report name expression).diagnostics = false) :
    ∃ built, Environment.build p.bindings expression name = .ok built ∧
      (bind p report name expression).packages = p.packages ∧
      (bind p report name expression).bindings = p.bindings.set name built.source := by
  unfold bind at h ⊢
  cases hb : Environment.build p.bindings expression name with
  | error obstacle =>
    rw [hb] at h
    rw [anyError_report (hreport _ _ _)] at h
    cases h
  | ok built =>
    refine ⟨built, rfl, ?_⟩
    dsimp only
    split <;> exact ⟨rfl, rfl⟩

/-- When the text of one binding is loaded and nothing is wrong, the name is bound to the source of
the expression. -/
theorem load_assignment (hname : isWord name = true) (hline : Bytes.newline ∉ expression)
    (htrim : trim expression = expression)
    (hok : (load files env (assignment name expression) filename).1.ok = true) :
    expression ≠ [] ∧ ∃ built, Environment.build env.bindings expression name = .ok built ∧
      (load files env (assignment name expression) filename).2 =
        { env with bindings := env.bindings.set name built.source } := by
  have hprocess : process (finder files env) env.packages env.bindings filename
      (assignment name expression) = processLine (finder files env) filename
        { bindings := env.bindings, packages := env.packages }
        (1, assignment name expression) := by
    unfold process
    rw [numberedLines_assignment hname hline htrim]
    rfl
  unfold load at hok ⊢
  rw [hprocess] at hok ⊢
  have hclean : Diagnostic.anyError (processLine (finder files env) filename
      { bindings := env.bindings, packages := env.packages }
      (1, assignment name expression)).diagnostics = false := by
    cases ha : Diagnostic.anyError (processLine (finder files env) filename
      { bindings := env.bindings, packages := env.packages }
      (1, assignment name expression)).diagnostics with
    | false => rfl
    | true =>
      simp only [ha, if_true] at hok
      cases hok
  rcases classify_assignment hname htrim with ⟨hc, hne⟩ | hc
  · refine ⟨hne, ?_⟩
    simp only [processLine, hc] at hclean ⊢
    obtain ⟨built, hb, hp, hset⟩ := bind_clean (fun _ _ _ => rfl) hclean
    refine ⟨built, hb, ?_⟩
    simp only [hclean, Bool.false_eq_true, if_false, hp, hset]
  · simp only [List.mem_cons, List.not_mem_nil, or_false] at hc
    rcases hc with hc | hc | hc <;> simp only [processLine, hc] at hclean <;>
      cases (anyError_report rfl).symm.trans hclean

end Importer

end PatternEngine
