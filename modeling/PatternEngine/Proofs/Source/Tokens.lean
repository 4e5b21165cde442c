import Mathlib.Data.List.TakeWhile
import PatternEngine.Proofs.Importer.Binding
/-!
# Tokens of a line

The tokens of a line are its longest pieces without gaps (`Tokens`), and reading a line from the
right finds them (`tokens_iff`). What is left of a text without the gaps at both ends is found by
trimming it (`trimmed_iff`).
-/
namespace PatternEngine.Source

variable {line rest expression gap : Bytes} {b : UInt8}

/-- The bytes that stand between the tokens of a line: space, tab, form feed, carriage return. -/
def gaps : Bytes := [32, 9, 12, 13]

/-- There is nothing but gaps. -/
def IsGap (bytes : Bytes) : Prop := ∀ b ∈ bytes, b ∈ gaps

/-- The tokens of a line are its longest pieces without gaps. -/
inductive Tokens : Bytes → List Bytes → Prop where
  | nil {gap : Bytes} (isGap : IsGap gap) : Tokens gap []
  | cons {gap token rest : Bytes} {more : List Bytes} (isGap : IsGap gap) (ne_nil : token ≠ [])
      (inside : ∀ b ∈ token, b ∉ gaps) (ends : ∀ b ∈ rest.head?, b ∈ gaps)
      (tail : Tokens rest more) : Tokens (gap ++ token ++ rest) (token :: more)

/-- The expression is what is left of a text without the gaps at both ends. -/
structure Trimmed (rest expression : Bytes) : Prop where
  within : ∃ left right, IsGap left ∧ IsGap right ∧ rest = left ++ expression ++ right
  first : ∀ b ∈ expression.head?, b ∉ gaps
  last : ∀ b ∈ expression.getLast?, b ∉ gaps

/-! ## Gaps -/

theorem isBlank_iff : isBlank b = true ↔ b ∈ gaps ∨ b = Bytes.newline := by
  simp only [isBlank, gaps, Bytes.newline, Bool.or_eq_true, beq_iff_eq, List.mem_cons,
    List.not_mem_nil, or_false]
  grind

theorem IsGap.blank (h : IsGap gap) : ∀ b ∈ gap, isBlank b = true :=
  fun b hb => isBlank_iff.2 (.inl (h b hb))

/-- In a line the blanks are the gaps. -/
theorem mem_gaps_iff (hline : Bytes.newline ∉ line) (hb : b ∈ line) :
    b ∈ gaps ↔ isBlank b = true := by
  have hne : b ≠ Bytes.newline := fun h => hline (h ▸ hb)
  simp [isBlank_iff, hne]

theorem isGap_iff (hline : Bytes.newline ∉ line) : IsGap line ↔ line.all isBlank = true := by
  rw [List.all_eq_true]
  exact forall₂_congr fun b hb => mem_gaps_iff hline hb

/-- A line is cut after the gaps at its start. -/
theorem leading_gap (hline : Bytes.newline ∉ line) :
    ∃ gap, IsGap gap ∧ line = gap ++ line.dropWhile isBlank := by
  refine ⟨line.takeWhile isBlank, ?_, List.takeWhile_append_dropWhile.symm⟩
  have hsub : line.takeWhile isBlank ⊆ line := (List.takeWhile_sublist _).subset
  intro b hb
  have hblank : isBlank b = true := List.all_eq_true.1 List.all_takeWhile b hb
  exact (mem_gaps_iff hline (hsub hb)).2 hblank

theorem dropWhile_gap (hgap : IsGap gap) (rest : Bytes) :
    (gap ++ rest).dropWhile isBlank = rest.dropWhile isBlank :=
  List.dropWhile_append_of_pos hgap.blank

/-! ## Tokens -/

theorem tokens_gap (hgap : IsGap gap) (rest : Bytes) : tokens (gap ++ rest) = tokens rest := by
  induction gap with
  | nil => rfl
  | cons b gap ih =>
    have hrest : IsGap gap := fun c hc => hgap c (List.mem_cons_of_mem _ hc)
    rw [List.cons_append, tokens_blank (hgap.blank b List.mem_cons_self), ih hrest]

theorem Tokens.tokens_eq (hline : Bytes.newline ∉ line) {found : List Bytes}
    (h : Tokens line found) : tokens line = found := by
  induction h with
  | @nil gap isGap =>
    have hgap := tokens_gap isGap []
    rwa [List.append_nil] at hgap
  | @cons gap token rest more isGap ne_nil inside ends tail ih =>
    have htoken : Bytes.newline ∉ token := fun hm => hline (by simp [hm])
    have hrest : Bytes.newline ∉ rest := fun hm => hline (by simp [hm])
    have hinside : ∀ b ∈ token, isBlank b = false := by
      intro b hb
      simpa [mem_gaps_iff htoken hb] using inside b hb
    rw [List.append_assoc, tokens_gap isGap,
      tokens_token ne_nil hinside fun b hb => isBlank_iff.2 (.inl (ends b hb)), ih hrest]

/-- A line has the tokens that are read. The induction is on the length of what is left of it. -/
theorem tokens_reads (line : Bytes) (hline : Bytes.newline ∉ line) : Tokens line (tokens line) := by
  obtain ⟨gap, hgap, hsplit⟩ := leading_gap hline
  generalize hfrom : line.dropWhile isBlank = first at hsplit
  cases first with
  | nil =>
    rw [List.append_nil] at hsplit
    have htokens := tokens_gap hgap []
    rw [List.append_nil, ← hsplit] at htokens
    rw [htokens]
    exact .nil (hsplit ▸ hgap)
  | cons c tail =>
    have hc : isBlank c = false := by
      have hhead := List.head?_dropWhile_not isBlank line
      rw [hfrom] at hhead
      exact hhead
    let token := (c :: tail).takeWhile fun b => !isBlank b
    let rest := (c :: tail).dropWhile fun b => !isBlank b
    have hcut : c :: tail = token ++ rest := List.takeWhile_append_dropWhile.symm
    have hmem : ∀ b, b ∈ token ∨ b ∈ rest → b ∈ line := by
      intro b hb
      rw [hsplit, hcut]
      simp only [List.mem_append]
      exact .inr hb
    have hne : token ≠ [] := by
      simp [token, hc]
    have hinside : ∀ b ∈ token, isBlank b = false := by
      intro b hb
      simpa using List.all_eq_true.1 List.all_takeWhile b hb
    have hends : ∀ b ∈ rest.head?, isBlank b = true := by
      intro b hb
      have hhead := List.head?_dropWhile_not (fun b => !isBlank b) (c :: tail)
      have hrest : rest.head? = some b := hb
      rw [hrest] at hhead
      simpa using hhead
    have hshort : rest.length < line.length := by
      have hlength := congrArg List.length hsplit
      have hpos := List.length_pos_iff.2 hne
      rw [hcut, List.length_append, List.length_append] at hlength
      omega
    have hrest := tokens_reads rest fun hm => hline (hmem _ (.inr hm))
    have hgaps : ∀ b, b ∈ token ∨ b ∈ rest → (b ∈ gaps ↔ isBlank b = true) :=
      fun b hb => mem_gaps_iff hline (hmem b hb)
    have hfound : tokens line = token :: tokens rest := by
      rw [hsplit, tokens_gap hgap, hcut, tokens_token hne hinside hends]
    rw [hfound, hsplit, hcut, ← List.append_assoc]
    refine .cons hgap hne ?_ ?_ hrest
    · intro b hb
      rw [hgaps b (.inl hb), hinside b hb]
      simp
    · intro b hb
      exact (hgaps b (.inr (List.mem_of_mem_head? hb))).2 (hends b hb)
termination_by line.length

/-- Reading a line from the right finds its tokens. -/
theorem tokens_iff (hline : Bytes.newline ∉ line) {found : List Bytes} :
    Tokens line found ↔ tokens line = found := by
  constructor
  · exact Tokens.tokens_eq hline
  · rintro rfl
    exact tokens_reads line hline

/-! ## Trimming -/

/-- What starts and ends with no gap is what is left between gaps. -/
theorem trim_within {left right : Bytes} (hleft : IsGap left) (hright : IsGap right)
    (hfirst : ∀ b ∈ expression.head?, isBlank b = false)
    (hlast : ∀ b ∈ expression.getLast?, isBlank b = false) :
    trim (left ++ expression ++ right) = expression := by
  unfold trim Bytes.dropWhileRight
  rw [List.append_assoc, dropWhile_gap hleft]
  cases expression with
  | nil =>
    rw [List.nil_append, List.dropWhile_eq_nil_iff.2 hright.blank]
    rfl
  | cons b more =>
    have hb : isBlank b = false := hfirst b rfl
    have hkept : (b :: more ++ right).dropWhile isBlank = b :: more ++ right := by
      simp [hb]
    have hgap : IsGap right.reverse := fun c hc => hright c (List.mem_reverse.1 hc)
    have hend : (b :: more).reverse.dropWhile isBlank = (b :: more).reverse := by
      generalize hreversed : (b :: more).reverse = reversed
      cases reversed with
      | nil => rfl
      | cons c tail =>
        have hc : isBlank c = false := by
          apply hlast
          rw [← List.head?_reverse, hreversed]
          rfl
        simp [hc]
    rw [hkept, List.reverse_append, dropWhile_gap hgap, hend, List.reverse_reverse]

theorem trim_trimmed (hrest : Bytes.newline ∉ rest) : Trimmed rest (trim rest) := by
  obtain ⟨left, hleft, hsplit⟩ := leading_gap hrest
  have htail : ∀ b ∈ rest.dropWhile isBlank, b ∈ rest := fun b hb =>
    (List.dropWhile_sublist _).subset hb
  have hreversed : Bytes.newline ∉ (rest.dropWhile isBlank).reverse := fun hm =>
    hrest (htail _ (List.mem_reverse.1 hm))
  obtain ⟨right, hright, hend⟩ := leading_gap hreversed
  have hkept : rest.dropWhile isBlank = trim rest ++ right.reverse := by
    rw [← List.reverse_reverse (rest.dropWhile isBlank), hend, List.reverse_append]
    rfl
  have hmem : ∀ b ∈ trim rest, b ∈ rest := by
    intro b hb
    exact htail b (by rw [hkept]; exact List.mem_append_left _ hb)
  refine ⟨⟨left, right.reverse, hleft, ?_, ?_⟩, ?_, ?_⟩
  · exact fun b hb => hright b (List.mem_reverse.1 hb)
  · rw [List.append_assoc, ← hkept]
    exact hsplit
  · intro b hb
    have hhead : (rest.dropWhile isBlank).head? = some b := by
      rw [hkept, List.head?_append, hb]
      rfl
    have hblank := List.head?_dropWhile_not isBlank rest
    rw [hhead] at hblank
    rw [mem_gaps_iff hrest (hmem b (List.mem_of_mem_head? hb)), hblank]
    simp
  · intro b hb
    have hblank := List.head?_dropWhile_not isBlank (rest.dropWhile isBlank).reverse
    have hhead : ((rest.dropWhile isBlank).reverse.dropWhile isBlank).head? = some b := by
      rw [← List.getLast?_reverse]
      exact hb
    rw [hhead] at hblank
    rw [mem_gaps_iff hrest (hmem b (List.mem_of_mem_getLast? hb)), hblank]
    simp

theorem trimmed_iff (hrest : Bytes.newline ∉ rest) : Trimmed rest expression ↔
    trim rest = expression := by
  constructor
  · rintro ⟨⟨left, right, hleft, hright, rfl⟩, hfirst, hlast⟩
    have hinside : ∀ b ∈ expression, b ∉ gaps → isBlank b = false := by
      intro b hb hgap
      rw [mem_gaps_iff hrest (by simp [hb]), Bool.not_eq_true] at hgap
      exact hgap
    refine trim_within hleft hright ?_ ?_
    · exact fun b hb => hinside b (List.mem_of_mem_head? hb) (hfirst b hb)
    · exact fun b hb => hinside b (List.mem_of_mem_getLast? hb) (hlast b hb)
  · rintro rfl
    exact trim_trimmed hrest

end PatternEngine.Source
