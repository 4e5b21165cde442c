import PatternEngine.Proofs.Source.Tokens
/-!
# The grammar of lines

What a line may say, told without reading it from left to right (`Reads`): a line says nothing, or
its tokens declare or import a package, or it binds a name. Reading a line gives what it says by
this grammar, and a fault exactly when it says nothing of the kind (`classify_iff`).
-/
namespace PatternEngine.Source

variable {line rest name expression gap : Bytes} {b : UInt8}

/-- A line starts with a keyword and a gap. -/
def Leads (keyword line : Bytes) : Prop :=
  ∃ gap b rest, IsGap gap ∧ b ∈ gaps ∧ line = gap ++ keyword ++ b :: rest

/-- A line with nothing in it, or with a comment only. -/
def Silent (line : Bytes) : Prop :=
  IsGap line ∨ ∃ gap rest, IsGap gap ∧ line = gap ++ text "--" ++ rest

/-- What a line says. -/
inductive Reads (line : Bytes) : Line → Prop where
  | silent (silent : Silent line) : Reads line .blank
  | package {name : Bytes} (word : isWord name = true)
      (tokens : Tokens line [text "package", name]) : Reads line (.package name)
  | importing {name : Bytes} (word : isWord name = true)
      (tokens : Tokens line [text "import", name]) : Reads line (.importing name .none)
  | importingUnder {name under : Bytes} (word : isWord name = true)
      (under_word : isWord under = true)
      (tokens : Tokens line [text "import", name, text "as", under]) :
      Reads line (.importing name (.word under))
  | importingBare {name : Bytes} (word : isWord name = true)
      (tokens : Tokens line [text "import", name, text "as", text "."]) :
      Reads line (.importing name .bare)
  | binding {gap name between rest expression : Bytes} (no_package : ¬Leads (text "package") line)
      (no_import : ¬Leads (text "import") line) (isGap : IsGap gap) (word : isWord name = true)
      (between_isGap : IsGap between) (shape : line = gap ++ name ++ between ++ 61 :: rest)
      (trimmed : Trimmed rest expression) (ne_nil : expression ≠ []) :
      Reads line (.binding name expression)

/-- What is wrong with a line that says nothing by the grammar. -/
def Line.isFault : Line → Bool
  | .badPackage | .badImport | .noExpression _ | .malformed => true
  | _ => false

/-! ## Keywords -/

/-- A word starts with no gap. -/
theorem dropWhile_word {keyword : Bytes} (hk : isWord keyword = true) (rest : Bytes) :
    (keyword ++ rest).dropWhile isBlank = keyword ++ rest := by
  cases keyword with
  | nil => cases hk
  | cons b keyword =>
    have hb : isBlank b = false := isBlank_of_isWordByte (isWord_all hk b List.mem_cons_self)
    simp [hb]

theorem not_blank_of_word {keyword : Bytes} (hk : isWord keyword = true) :
    ∀ b ∈ keyword, isBlank b = false :=
  fun b hb => isBlank_of_isWordByte (isWord_all hk b hb)

/-- What follows a keyword is found where the line leads with it. -/
theorem afterKeyword_iff {keyword : Bytes} (hk : isWord keyword = true)
    (hline : Bytes.newline ∉ line) :
    Line.afterKeyword? keyword (line.dropWhile isBlank) = some rest ↔
      ∃ gap b, IsGap gap ∧ b ∈ gaps ∧ line = gap ++ keyword ++ b :: rest := by
  constructor
  · intro h
    obtain ⟨gap, hgap, hsplit⟩ := leading_gap hline
    unfold Line.afterKeyword? at h
    split at h
    · rename_i hprefix
      obtain ⟨more, hmore⟩ := List.isPrefixOf_iff_prefix.1 hprefix
      rw [← hmore] at h hsplit
      rw [List.drop_left] at h
      split at h
      · rename_i b tail
        split at h
        · rename_i hb
          cases h
          refine ⟨gap, b, hgap, ?_, by rw [hsplit, List.append_assoc]⟩
          exact (mem_gaps_iff hline (by rw [hsplit]; simp)).2 hb
        · cases h
      · cases h
    · cases h
  · rintro ⟨gap, b, hgap, hb, rfl⟩
    have hblank : isBlank b = true := isBlank_iff.2 (.inl hb)
    rw [List.append_assoc, dropWhile_gap hgap, dropWhile_word hk]
    unfold Line.afterKeyword?
    rw [if_pos (List.isPrefixOf_iff_prefix.2 (List.prefix_append _ _)), List.drop_left]
    simp only [hblank, if_true]

theorem afterKeyword_none {keyword : Bytes} (hk : isWord keyword = true)
    (hline : Bytes.newline ∉ line) (h : ¬Leads keyword line) :
    Line.afterKeyword? keyword (line.dropWhile isBlank) = none := by
  cases ha : Line.afterKeyword? keyword (line.dropWhile isBlank) with
  | none => rfl
  | some rest =>
    obtain ⟨gap, b, hgap, hb, hsplit⟩ := (afterKeyword_iff hk hline).1 ha
    exact absurd ⟨gap, b, rest, hgap, hb, hsplit⟩ h

/-- The keyword is the first token of a line that leads with it. -/
theorem tokens_leads {keyword : Bytes} (hk : isWord keyword = true) (hgap : IsGap gap)
    (hb : b ∈ gaps) : tokens (gap ++ keyword ++ b :: rest) = keyword :: tokens rest := by
  have hblank : isBlank b = true := isBlank_iff.2 (.inl hb)
  rw [List.append_assoc, tokens_gap hgap,
    tokens_token (isWord_ne hk) (not_blank_of_word hk) (by simp [hblank]), tokens_blank hblank]

/-- A line whose first token is a keyword leads with it, if there is a second one. -/
theorem Tokens.leads {keyword token : Bytes} {more : List Bytes}
    (h : Tokens line (keyword :: token :: more)) : Leads keyword line := by
  obtain - | ⟨hgap, -, -, hends, htail⟩ := h
  rename_i gap rest
  cases rest with
  | nil =>
    generalize hnil : ([] : Bytes) = empty at htail
    obtain - | ⟨-, hne, -, -, -⟩ := htail
    simp [hne] at hnil
  | cons b rest => exact ⟨gap, b, rest, hgap, hends b rfl, rfl⟩

/-! ## What a line says -/

/-- A line that says nothing is seen by its first bytes. -/
theorem silent_iff (hline : Bytes.newline ∉ line) :
    Silent line ↔ ((line.dropWhile isBlank).isEmpty ||
      (text "--").isPrefixOf (line.dropWhile isBlank)) = true := by
  obtain ⟨gap, hgap, hsplit⟩ := leading_gap hline
  rw [Bool.or_eq_true, List.isEmpty_iff, List.isPrefixOf_iff_prefix]
  refine or_congr ?_ ?_
  · rw [isGap_iff hline, List.all_eq_true, List.dropWhile_eq_nil_iff]
  · constructor
    · rintro ⟨gap', rest, hgap', rfl⟩
      rw [List.append_assoc, dropWhile_gap hgap']
      exact ⟨rest, rfl⟩
    · rintro ⟨rest, hrest⟩
      exact ⟨gap, rest, hgap, by rw [List.append_assoc, hrest]; exact hsplit⟩

theorem classify_silent (hline : Bytes.newline ∉ line) (h : Silent line) :
    Line.classify line = .blank := by
  rw [classify_eq]
  unfold Line.byTokens
  simp only [(silent_iff hline).1 h, if_true]

theorem not_silent_of_word {word : Bytes} (hword : isWord word = true) (hgap : IsGap gap)
    (hline : Bytes.newline ∉ gap ++ word ++ rest) : ¬Silent (gap ++ word ++ rest) := by
  rw [silent_iff hline, List.append_assoc, dropWhile_gap hgap, dropWhile_word hword]
  cases word with
  | nil => cases hword
  | cons b word =>
    have hdash : (45 == b) = false := by
      rw [beq_eq_false_iff_ne]
      rintro rfl
      exact absurd (isWord_all hword 45 List.mem_cons_self) (by decide)
    show ¬((45 == b) && _) = true
    simp [hdash]

/-- A line that leads with a keyword is read by what follows the keyword. -/
theorem classify_package (hgap : IsGap gap) (hb : b ∈ gaps)
    (hline : Bytes.newline ∉ gap ++ text "package" ++ b :: rest) :
    Line.classify (gap ++ text "package" ++ b :: rest) = Line.ofPackage rest := by
  have hloud := not_silent_of_word (by decide) hgap hline
  rw [silent_iff hline, Bool.not_eq_true] at hloud
  have hafter := (afterKeyword_iff (by decide) hline).2 ⟨gap, b, hgap, hb, rfl⟩
  rw [classify_eq]
  unfold Line.byTokens
  simp only [hloud, Bool.false_eq_true, if_false, hafter]

theorem classify_import (hgap : IsGap gap) (hb : b ∈ gaps)
    (hline : Bytes.newline ∉ gap ++ text "import" ++ b :: rest) :
    Line.classify (gap ++ text "import" ++ b :: rest) = Line.ofImport rest := by
  have hloud := not_silent_of_word (by decide) hgap hline
  rw [silent_iff hline, Bool.not_eq_true] at hloud
  have hafter := (afterKeyword_iff (by decide) hline).2 ⟨gap, b, hgap, hb, rfl⟩
  have hpackage : Line.afterKeyword? (text "package")
      ((gap ++ text "import" ++ b :: rest).dropWhile isBlank) = none := by
    rw [List.append_assoc, dropWhile_gap hgap, dropWhile_word (by decide)]
    rfl
  rw [classify_eq]
  unfold Line.byTokens
  simp only [hloud, Bool.false_eq_true, if_false, hpackage, hafter]

theorem classify_other (hline : Bytes.newline ∉ line) (hloud : ¬Silent line)
    (hpackage : ¬Leads (text "package") line) (himport : ¬Leads (text "import") line) :
    Line.classify line = Line.ofBinding (line.dropWhile isBlank) := by
  rw [silent_iff hline, Bool.not_eq_true] at hloud
  have hnone := afterKeyword_none (by decide) hline hpackage
  have hnone' := afterKeyword_none (by decide) hline himport
  rw [classify_eq]
  unfold Line.byTokens
  simp only [hloud, Bool.false_eq_true, if_false, hnone, hnone']

/-- A package line has a second token, which is a word, and no third. -/
theorem ofPackage_iff : Line.ofPackage rest = .package name ↔
    tokens rest = [name] ∧ isWord name = true := by
  unfold Line.ofPackage
  split
  · rename_i token htokens
    rw [htokens]
    split
    · rename_i hword
      simp only [Line.package.injEq, List.cons.injEq, and_true]
      exact ⟨fun h => ⟨h, h ▸ hword⟩, And.left⟩
    · rename_i hword
      simp only [reduceCtorEq, List.cons.injEq, and_true, false_iff, not_and]
      rintro rfl
      exact hword
  · rename_i hne
    simp only [reduceCtorEq, false_iff, not_and]
    intro h
    exact absurd h (hne name)

/-- An import line names the package, and perhaps what its names are to be bound under. -/
theorem ofImport_iff {under : Alias} : Line.ofImport rest = .importing name under ↔
    isWord name = true ∧ (tokens rest = [name] ∧ under = .none ∨
      ∃ token, tokens rest = [name, text "as", token] ∧
        (isWord token = true ∨ token = text ".") ∧ under = Alias.ofName token) := by
  unfold Line.ofImport
  split
  · rename_i token htokens
    rw [htokens]
    split
    · rename_i hword
      simp only [Line.importing.injEq, List.cons.injEq, and_true]
      constructor
      · rintro ⟨rfl, rfl⟩
        exact ⟨hword, .inl ⟨rfl, rfl⟩⟩
      · rintro ⟨-, ⟨rfl, rfl⟩ | ⟨token, ⟨-, h⟩, -⟩⟩
        · exact ⟨rfl, rfl⟩
        · cases h
    · rename_i hword
      simp only [reduceCtorEq, List.cons.injEq, and_true, false_iff, not_and]
      rintro hname (⟨rfl, -⟩ | ⟨token, ⟨-, h⟩, -⟩)
      · exact hword hname
      · cases h
  · rename_i token keyword token' htokens
    rw [htokens]
    split
    · rename_i hshape
      simp only [Bool.and_eq_true, Bool.or_eq_true, beq_iff_eq] at hshape
      obtain ⟨⟨hword, rfl⟩, hunder⟩ := hshape
      simp only [Line.importing.injEq]
      constructor
      · rintro ⟨rfl, rfl⟩
        exact ⟨hword, .inr ⟨token', rfl, hunder, rfl⟩⟩
      · rintro ⟨-, ⟨h, -⟩ | ⟨token, h, -, rfl⟩⟩
        · cases h
        · cases h
          exact ⟨rfl, rfl⟩
    · rename_i hshape
      refine iff_of_false (by simp) ?_
      rintro ⟨hword, ⟨h, -⟩ | ⟨token, h, hunder, -⟩⟩
      · cases h
      · cases h
        apply hshape
        simp only [Bool.and_eq_true, Bool.or_eq_true, beq_iff_eq]
        exact ⟨⟨hword, trivial⟩, hunder⟩
  · rename_i hone hthree
    refine iff_of_false (by simp) ?_
    rintro ⟨-, ⟨h, -⟩ | ⟨token, h, -⟩⟩
    · exact hone _ h
    · exact hthree _ _ _ h

/-! ## Bindings -/

/-- The word at the start of a line ends where a gap or an equals sign follows. -/
theorem span_word {between : Bytes} (hname : isWord name = true) (hbetween : IsGap between) :
    (name ++ between ++ 61 :: rest).takeWhile isWordByte = name ∧
      (name ++ between ++ 61 :: rest).dropWhile isWordByte = between ++ 61 :: rest := by
  rw [List.append_assoc]
  cases between with
  | nil => exact span_run (isWord_all hname) (by decide) rest
  | cons b between =>
    have hb : isWordByte b = false := by
      cases hw : isWordByte b with
      | false => rfl
      | true =>
        have hblank := hbetween.blank b List.mem_cons_self
        rw [isBlank_of_isWordByte hw] at hblank
        cases hblank
    exact span_run (isWord_all hname) hb _

/-- A line binds a name when a word, an equals sign and an expression follow each other. -/
theorem ofBinding_iff (hline : Bytes.newline ∉ line) :
    Line.ofBinding line = .binding name expression ↔
      ∃ between rest, isWord name = true ∧ IsGap between ∧
        line = name ++ between ++ 61 :: rest ∧ Trimmed rest expression ∧ expression ≠ [] := by
  constructor
  · intro h
    have hsplit := List.takeWhile_append_dropWhile (p := isWordByte) (l := line)
    have hafter : Bytes.newline ∉ line.dropWhile isWordByte := fun hm =>
      hline ((List.dropWhile_sublist _).subset hm)
    obtain ⟨between, hbetween, hgap⟩ := leading_gap hafter
    unfold Line.ofBinding at h
    dsimp only at h
    split at h
    · rename_i rest hrest
      rw [hrest] at hgap
      split at h
      · cases h
      · rename_i hne
        split at h
        · cases h
        · rename_i hnil
          cases h
          have hword : isWord (line.takeWhile isWordByte) = true := by
            simp only [isWord, Bool.and_eq_true, List.all_takeWhile, and_true]
            simpa using hne
          have hin : Bytes.newline ∉ rest := fun hm => hafter (by rw [hgap]; simp [hm])
          refine ⟨between, rest, hword, hbetween, ?_, trim_trimmed hin, hnil⟩
          rw [List.append_assoc, ← hgap, hsplit]
    · cases h
  · rintro ⟨between, rest, hname, hbetween, rfl, htrimmed, hne⟩
    have hrest : Bytes.newline ∉ rest := fun hm => hline (by simp [hm])
    have hspan : (name ++ between ++ 61 :: rest).takeWhile isWordByte = name ∧
        (name ++ between ++ 61 :: rest).dropWhile isWordByte = between ++ 61 :: rest :=
      span_word hname hbetween
    obtain ⟨htake, hdrop⟩ := hspan
    have hequals : (61 :: rest).dropWhile isBlank = 61 :: rest := rfl
    have hempty : name.isEmpty = false := by simpa using isWord_ne hname
    unfold Line.ofBinding
    simp only [htake, hdrop, dropWhile_gap hbetween, hequals, hempty, Bool.false_eq_true, if_false,
      (trimmed_iff hrest).1 htrimmed]

/-! ## Reading a line -/

theorem Reads.classify (hline : Bytes.newline ∉ line) {said : Line} (h : Reads line said) :
    Line.classify line = said := by
  cases h with
  | silent silent => exact classify_silent hline silent
  | @package name word tokens =>
    obtain ⟨gap, b, rest, hgap, hb, rfl⟩ := tokens.leads
    rw [tokens_iff hline, tokens_leads (by decide) hgap hb] at tokens
    rw [classify_package hgap hb hline, ofPackage_iff]
    exact ⟨List.tail_eq_of_cons_eq tokens, word⟩
  | @importing name word tokens =>
    obtain ⟨gap, b, rest, hgap, hb, rfl⟩ := tokens.leads
    rw [tokens_iff hline, tokens_leads (by decide) hgap hb] at tokens
    rw [classify_import hgap hb hline, ofImport_iff]
    exact ⟨word, .inl ⟨List.tail_eq_of_cons_eq tokens, rfl⟩⟩
  | @importingUnder name under word under_word tokens =>
    obtain ⟨gap, b, rest, hgap, hb, rfl⟩ := tokens.leads
    rw [tokens_iff hline, tokens_leads (by decide) hgap hb] at tokens
    rw [classify_import hgap hb hline, ofImport_iff]
    refine ⟨word, .inr ⟨under, List.tail_eq_of_cons_eq tokens, .inl under_word, ?_⟩⟩
    unfold Alias.ofName
    rw [if_neg]
    rintro h
    rw [eq_of_beq h] at under_word
    exact absurd under_word (by decide)
  | @importingBare name word tokens =>
    obtain ⟨gap, b, rest, hgap, hb, rfl⟩ := tokens.leads
    rw [tokens_iff hline, tokens_leads (by decide) hgap hb] at tokens
    rw [classify_import hgap hb hline, ofImport_iff]
    exact ⟨word, .inr ⟨_, List.tail_eq_of_cons_eq tokens, .inr rfl, rfl⟩⟩
  | @binding gap name between rest expression no_package no_import isGap word between_isGap shape
      trimmed ne_nil =>
    have hshape : line = gap ++ name ++ (between ++ 61 :: rest) := by
      rw [shape, List.append_assoc]
    have hstart : line.dropWhile isBlank = name ++ between ++ 61 :: rest := by
      rw [hshape, List.append_assoc, dropWhile_gap isGap, dropWhile_word word, List.append_assoc]
    have hloud : ¬Silent line := hshape ▸ not_silent_of_word word isGap (hshape ▸ hline)
    have hstarted : Bytes.newline ∉ name ++ between ++ 61 :: rest := by
      rw [← hstart]
      exact fun hm => hline ((List.dropWhile_sublist _).subset hm)
    rw [classify_other hline hloud no_package no_import, hstart, ofBinding_iff hstarted]
    exact ⟨between, rest, word, between_isGap, rfl, trimmed, ne_nil⟩

theorem ofPackage_fault (rest : Bytes) :
    (Line.ofPackage rest).isFault = true ∨ ∃ name, Line.ofPackage rest = .package name := by
  unfold Line.ofPackage
  split
  · split
    · exact .inr ⟨_, rfl⟩
    · exact .inl rfl
  · exact .inl rfl

theorem ofImport_fault (rest : Bytes) : (Line.ofImport rest).isFault = true ∨
    ∃ name under, Line.ofImport rest = .importing name under := by
  unfold Line.ofImport
  split
  · split
    · exact .inr ⟨_, _, rfl⟩
    · exact .inl rfl
  · split
    · exact .inr ⟨_, _, rfl⟩
    · exact .inl rfl
  · exact .inl rfl

theorem ofBinding_fault (line : Bytes) : (Line.ofBinding line).isFault = true ∨
    ∃ name expression, Line.ofBinding line = .binding name expression := by
  unfold Line.ofBinding
  dsimp only
  split
  · split
    · exact .inl rfl
    · split
      · exact .inl rfl
      · exact .inr ⟨_, _, rfl⟩
  · exact .inl rfl

theorem reads_package (hgap : IsGap gap) (hb : b ∈ gaps)
    (hline : Bytes.newline ∉ gap ++ text "package" ++ b :: rest)
    (h : (Line.ofPackage rest).isFault = false) :
    Reads (gap ++ text "package" ++ b :: rest) (Line.ofPackage rest) := by
  have htokens : tokens (gap ++ text "package" ++ b :: rest) = text "package" :: tokens rest :=
    tokens_leads (by decide) hgap hb
  rcases ofPackage_fault rest with hfault | ⟨name, hname⟩
  · rw [h] at hfault
    cases hfault
  · rw [hname]
    obtain ⟨hfound, hword⟩ := ofPackage_iff.1 hname
    exact .package hword ((tokens_iff hline).2 (by rw [htokens, hfound]))

theorem reads_import (hgap : IsGap gap) (hb : b ∈ gaps)
    (hline : Bytes.newline ∉ gap ++ text "import" ++ b :: rest)
    (h : (Line.ofImport rest).isFault = false) :
    Reads (gap ++ text "import" ++ b :: rest) (Line.ofImport rest) := by
  have htokens : tokens (gap ++ text "import" ++ b :: rest) = text "import" :: tokens rest :=
    tokens_leads (by decide) hgap hb
  rcases ofImport_fault rest with hfault | ⟨name, under, hname⟩
  · rw [h] at hfault
    cases hfault
  · rw [hname]
    obtain ⟨hword, ⟨hfound, rfl⟩ | ⟨token, hfound, hunder, rfl⟩⟩ := ofImport_iff.1 hname
    · exact .importing hword ((tokens_iff hline).2 (by rw [htokens, hfound]))
    · have hread := (tokens_iff hline).2 (htokens.trans (congrArg _ hfound))
      by_cases hdot : token = text "."
      · subst hdot
        exact .importingBare hword hread
      · have hother : Alias.ofName token = .word token := if_neg fun h => hdot (eq_of_beq h)
        rw [hother]
        exact .importingUnder hword (hunder.resolve_right hdot) hread

theorem reads_binding (hline : Bytes.newline ∉ line) (hpackage : ¬Leads (text "package") line)
    (himport : ¬Leads (text "import") line)
    (h : (Line.ofBinding (line.dropWhile isBlank)).isFault = false) :
    Reads line (Line.ofBinding (line.dropWhile isBlank)) := by
  obtain ⟨gap, hgap, hsplit⟩ := leading_gap hline
  rcases ofBinding_fault (line.dropWhile isBlank) with hfault | ⟨name, expression, hname⟩
  · rw [h] at hfault
    cases hfault
  · have hstarted : Bytes.newline ∉ line.dropWhile isBlank := fun hm =>
      hline ((List.dropWhile_sublist _).subset hm)
    obtain ⟨between, rest, hword, hbetween, hshape, htrimmed, hne⟩ :=
      (ofBinding_iff hstarted).1 hname
    rw [hname]
    refine .binding hpackage himport hgap hword hbetween ?_ htrimmed hne
    rw [List.append_assoc, List.append_assoc, ← List.append_assoc name, ← hshape]
    exact hsplit

/-- A line that is read without a fault says by the grammar what was read. -/
theorem reads_of_classify (hline : Bytes.newline ∉ line)
    (h : (Line.classify line).isFault = false) : Reads line (Line.classify line) := by
  by_cases hsilent : Silent line
  · rw [classify_silent hline hsilent]
    exact .silent hsilent
  by_cases hpackage : Leads (text "package") line
  · obtain ⟨gap, b, rest, hgap, hb, rfl⟩ := hpackage
    rw [classify_package hgap hb hline] at h ⊢
    exact reads_package hgap hb hline h
  by_cases himport : Leads (text "import") line
  · obtain ⟨gap, b, rest, hgap, hb, rfl⟩ := himport
    rw [classify_import hgap hb hline] at h ⊢
    exact reads_import hgap hb hline h
  rw [classify_other hline hsilent hpackage himport] at h ⊢
  exact reads_binding hline hpackage himport h

/-- A line says by the grammar exactly what is read, unless it is read as a fault. -/
theorem classify_iff (hline : Bytes.newline ∉ line) {said : Line} :
    Reads line said ↔ Line.classify line = said ∧ said.isFault = false := by
  constructor
  · intro h
    refine ⟨h.classify hline, ?_⟩
    cases h <;> rfl
  · rintro ⟨rfl, h⟩
    exact reads_of_classify hline h

end PatternEngine.Source
