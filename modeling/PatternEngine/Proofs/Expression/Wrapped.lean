import PatternEngine.Proofs.Expression.Moves
import PatternEngine.Proofs.Expression.Progress
/-!
# Expressions in a group of their own

Put into a group that does not capture, an expression stays the same expression (`ofChars_wrapped`),
with two exceptions: a comment that is still open at its end hides the closing parenthesis, and an
expression that nests as deeply as possible nests too deeply in the group.
-/
namespace PatternEngine.Expression

variable {p p' q : Progress} {move : Move} {outer : List Level} {rest rest' : List Char}

/-! ## Inside of other groups -/

/-- The same progress inside of other groups. -/
def Progress.lift (outer : List Level) (p : Progress) : Progress :=
  { p with levels := p.levels ++ outer }

theorem push_lift {part : Part} (h : p.push part = some p') :
    (p.lift outer).push part = some (p'.lift outer) := by
  unfold Progress.push at h ⊢
  split at h
  · cases h
  · rename_i hn
    cases h
    exact if_neg hn

theorem pushAtom_lift {a : Atom} (h : p.pushAtom a = some p') :
    (p.lift outer).pushAtom a = some (p'.lift outer) := by
  cases a <;> exact push_lift (by exact h)

theorem openGroup_lift {index : Option Nat} {mode : Mode} (h : p.openGroup index mode = some p') :
    (p.lift outer).openGroup index mode = some (p'.lift outer) ∨
      (p.lift outer).openGroup index mode = none ∧
        nestLimit + 1 < p'.levels.length + outer.length := by
  unfold Progress.openGroup at h ⊢
  split at h
  · cases h
  · cases h
    split
    · rename_i hn
      simp only [Progress.lift, List.length_append] at hn
      refine .inr ⟨rfl, ?_⟩
      simp only [List.length_cons]
      omega
    · exact .inl rfl

theorem closeGroup_lift (h : p.closeGroup = some p') :
    (p.lift outer).closeGroup = some (p'.lift outer) := by
  unfold Progress.closeGroup at h
  split at h
  · cases h
  · rename_i level levels hl
    unfold Progress.closeGroup
    simp only [Progress.lift, hl, List.cons_append]
    exact push_lift h

theorem repeatLast_lift {least : Nat} {most : Option Nat} {greedy : Bool}
    (h : p.repeatLast least most greedy = some p') :
    (p.lift outer).repeatLast least most greedy = some (p'.lift outer) := by
  unfold Progress.repeatLast at h
  split at h
  · rename_i part parts hp
    split at h
    · rename_i ho
      unfold Progress.repeatLast
      simp only [Progress.lift, hp, ho, if_true]
      exact push_lift h
    · cases h
  · cases h

/-- Inside of other groups a move does the same, unless it opens too many groups. -/
theorem run_lift (h : move.run p = some p') : move.run (p.lift outer) = some (p'.lift outer) ∨
    move.run (p.lift outer) = none ∧ nestLimit + 1 < p'.levels.length + outer.length := by
  cases move with
  | atom a => exact .inl (pushAtom_lift h)
  | bracket elements height => exact .inl (push_lift h)
  | capture name =>
    simp only [Move.run, Progress.openCapture] at h ⊢
    split at h
    · cases h
    · rename_i hn
      rw [if_neg (by exact hn)]
      exact openGroup_lift h
  | enter mode => exact openGroup_lift h
  | switch mode => exact .inl (push_lift h)
  | close => exact .inl (closeGroup_lift h)
  | branch =>
    cases h
    exact .inl rfl
  | repeated least most greedy => exact .inl (repeatLast_lift h)

theorem step_lift {left : List Char} (h : step p rest = some (p', left)) :
    step (p.lift outer) rest = some (p'.lift outer, left) ∨
      step (p.lift outer) rest = none ∧ nestLimit + 1 < p'.levels.length + outer.length := by
  obtain ⟨⟨move, next⟩, hmove, h⟩ := Option.bind_eq_some_iff.1 h
  obtain ⟨made, hrun, h⟩ := Option.bind_eq_some_iff.1 h
  cases h
  have hmove' : readMove (p.lift outer).mode rest = some (move, left) := hmove
  unfold step
  rw [hmove']
  rcases run_lift hrun with h | ⟨h, hd⟩
  · exact .inl (congrArg (· >>= fun made => some (made, left)) h)
  · exact .inr ⟨congrArg (· >>= fun made => some (made, left)) h, hd⟩

/-! ## The end of the group -/

theorem skip_nil (m : Mode) : m.skip [] = [] := by
  unfold Mode.skip
  split <;> rfl

theorem skip_closing (m : Mode) (rest : List Char) : m.skip (')' :: rest) = ')' :: rest := by
  unfold Mode.skip
  split <;> rfl

theorem readAll_done {fuel : Nat} (h : p.mode.skip rest = []) :
    readAll (fuel + 1) p rest = some p := by
  simp only [readAll, h]

theorem readAll_more {fuel : Nat} {c : Char} {more : List Char}
    (h : p.mode.skip rest = c :: more) : readAll (fuel + 1) p rest =
      (step p (c :: more) >>= fun x => readAll fuel x.1 x.2) := by
  simp only [readAll, h]

/-- What the reading of an expression leaves of a closing parenthesis behind it. -/
def Leaves (left : List Char) : Prop := left = [] ∨ left = [')']

/-- With a closing parenthesis behind it and inside of other groups, an expression is read alike up
to its end, unless it opens too many groups. -/
theorem readAll_lift : ∀ (fuel : Nat) {p : Progress} {rest rest' : List Char},
    readAll fuel p rest = some q → q.levels = [] → Extended rest rest' →
    ∃ left k, Leaves left ∧ ∀ (d : Nat) (outer : List Level),
      readAll (fuel + d) (p.lift outer) rest' = readAll (k + d + 1) (q.lift outer) left ∨
        readAll (fuel + d) (p.lift outer) rest' = none ∧
          nestLimit < q.body.height + outer.length
  | 0, _, _, _, h, _, _ => by cases h
  | fuel + 1, p, rest, rest', h, hq, hx => by
    rcases skip_cases (m := p.mode) hx with hs | ⟨c, more, hs, hs'⟩
    -- nothing is left of the expression: with the parenthesis, that one is left or hidden
    · rw [readAll_done hs] at h
      cases h
      have hleft : Extended (q.mode.skip rest) (q.mode.skip rest') := skip_extended hx
      rw [hs] at hleft
      generalize hs' : q.mode.skip rest' = left at hleft
      refine ⟨left, fuel, ?_, fun d outer => .inl ?_⟩
      · rcases hleft with _ | _
        · exact .inr rfl
        · exact .inl rfl
      · rw [Nat.add_right_comm]
        rcases hleft with _ | _
        · rw [List.nil_append, readAll_more (by exact hs'), readAll_more (skip_closing _ [])]
        · rw [readAll_done (by exact hs'), readAll_done (skip_nil _)]
    -- the next part is read alike, and taken into account alike unless it opens too many groups
    · rw [readAll_more hs] at h
      obtain ⟨⟨next, more'⟩, hstep, h⟩ := Option.bind_eq_some_iff.1 h
      obtain ⟨left', hstep', hl⟩ := step_frames p (.visible (c :: more)) next more' hstep
      obtain ⟨stop, k, hstop, ih⟩ := readAll_lift fuel h hq hl
      refine ⟨stop, k, hstop, fun d outer => ?_⟩
      have hdeep := levels_le_height h hq
      rw [Nat.add_right_comm, readAll_more (by exact hs')]
      rcases step_lift hstep' with hlift | ⟨hnone, hd⟩
      · rw [← List.cons_append, hlift]
        exact ih d outer
      · rw [← List.cons_append, hnone]
        dsimp only at hdeep
        exact .inr ⟨rfl, by omega⟩

/-- How deep an expression nests. -/
def nesting (chars : List Char) : Nat :=
  match readAll (chars.length + 1) {} chars with
  | some p => p.body.height
  | none => 0

/-- At the end of the text a comment is open: a closing parenthesis behind it is not read. -/
def EndsInComment (chars : List Char) : Prop := (ofChars? (chars ++ [')'])).isSome = true

instance (chars : List Char) : Decidable (EndsInComment chars) :=
  inferInstanceAs (Decidable (_ = true))

/-- An expression in a group that does not capture. -/
def wrapped (chars : List Char) : List Char := '(' :: '?' :: ':' :: (chars ++ [')'])

/-- What is around the only group of a text. -/
def base : Level := ⟨none, {}, [], []⟩

theorem ofChars_read {chars : List Char} (h : readAll (chars.length + 1) {} chars = some q) :
    ofChars? chars = if q.levels.isEmpty && q.body.height ≤ nestLimit then
      some ⟨q.body.term, labelsOf q.names.reverse⟩ else none := by
  unfold ofChars?
  rw [h]
  rfl

theorem ofChars_of_read {chars : List Char} (h : readAll (chars.length + 1) {} chars = some q)
    (hq : q.levels = []) (hd : q.body.height ≤ nestLimit) :
    ofChars? chars = some ⟨q.body.term, labelsOf q.names.reverse⟩ := by
  rw [ofChars_read h, hq, if_pos (by simpa using hd)]

theorem ofChars_none {chars : List Char} (h : readAll (chars.length + 1) {} chars = none) :
    ofChars? chars = none := by
  unfold ofChars?
  rw [h]
  rfl

theorem readAll_wrapped (fuel : Nat) (rest : List Char) :
    readAll (fuel + 1) {} ('(' :: '?' :: ':' :: rest) =
      readAll fuel (Progress.lift [base] {}) rest :=
  rfl

/-- The expression as the only part of what is around it. -/
def Progress.inGroup (q : Progress) : Progress :=
  { q with mode := {}, parts := [⟨q.body.term, q.body.height + 1, true⟩], branches := [] }

theorem closeGroup_base (hq : q.levels = []) : (q.lift [base]).closeGroup =
    if nestLimit < q.body.height + 1 then none else some q.inGroup := by
  unfold Progress.closeGroup
  simp only [Progress.lift, hq, List.nil_append]
  unfold Progress.push Progress.inGroup
  rw [hq]
  rfl

theorem readAll_closing (fuel : Nat) (hq : q.levels = []) :
    readAll (fuel + 2) (q.lift [base]) [')'] =
      if nestLimit < q.body.height + 1 then none else some q.inGroup := by
  have hstep : step (q.lift [base]) [')'] =
      ((q.lift [base]).closeGroup >>= fun p => some (p, [])) := rfl
  rw [readAll_more (skip_closing _ []), hstep, closeGroup_base hq]
  split
  · rfl
  · show readAll (fuel + 1) q.inGroup [] = some q.inGroup
    exact readAll_done (skip_nil q.inGroup.mode)

theorem readAll_stray (fuel : Nat) (hq : q.levels = []) :
    readAll (fuel + 1) (q.lift []) [')'] = none := by
  have hstep : step (q.lift []) [')'] =
      ((q.lift []).closeGroup >>= fun p => some (p, [])) := rfl
  rw [readAll_more (skip_closing _ []), hstep]
  unfold Progress.closeGroup
  simp only [Progress.lift, hq, List.append_nil]
  rfl

/-- Such an expression can be put into a group: the group is closed, and it is not too deep. -/
structure Wrappable (chars : List Char) : Prop where
  closed : ¬EndsInComment chars
  shallow : nesting chars < nestLimit

section
variable {chars : List Char} {e : Expression}

theorem ofChars_some (h : ofChars? chars = some e) :
    ∃ q, readAll (chars.length + 1) {} chars = some q ∧
      q.levels = [] ∧ q.body.height ≤ nestLimit ∧ e = ⟨q.body.term, labelsOf q.names.reverse⟩ := by
  cases hr : readAll (chars.length + 1) {} chars with
  | none => rw [ofChars_none hr] at h; cases h
  | some q =>
    rw [ofChars_read hr] at h
    split at h
    · rename_i hq
      simp only [Bool.and_eq_true, List.isEmpty_iff, decide_eq_true_eq] at hq
      cases h
      exact ⟨q, rfl, hq.1, hq.2, rfl⟩
    · cases h

theorem nesting_read (h : readAll (chars.length + 1) {} chars = some q) :
    nesting chars = q.body.height := by
  unfold nesting
  rw [h]

theorem tidied_start : Tidied {} := ⟨by simp [TidyParts], by simp [TidyParts], by simp⟩

/-- In the group an expression has the same term and the same labels. -/
theorem inGroup_read {rest : List Char} {fuel : Nat} (h : readAll fuel {} rest = some q)
    (hn : q.body.height < nestLimit) :
    q.inGroup.body.term = q.body.term ∧ q.inGroup.body.height ≤ nestLimit := by
  refine ⟨concat_body (readAll_tidied h tidied_start), ?_⟩
  have hb : q.inGroup.body.height = max 0 (q.body.height + 1) := rfl
  omega

/-- The readings of an expression with a closing parenthesis behind it, and in a group. -/
theorem readings (hr : readAll (chars.length + 1) {} chars = some q) (hq : q.levels = [])
    (hheight : q.body.height ≤ nestLimit) : ∃ left k, Leaves left ∧
      readAll ((chars ++ [')']).length + 1) {} (chars ++ [')']) =
        readAll (k + 2) (q.lift []) left ∧
      (readAll ((wrapped chars).length + 1) {} (wrapped chars) =
          readAll (k + 4) (q.lift [base]) left ∨
        readAll ((wrapped chars).length + 1) {} (wrapped chars) = none ∧
          nestLimit < q.body.height + 1) := by
  obtain ⟨left, k, hleft, hlift⟩ := readAll_lift _ hr hq (.visible chars)
  refine ⟨left, k, hleft, ?_, ?_⟩
  · rw [List.length_append]
    refine (hlift 1 []).resolve_right fun hn => ?_
    have hdeep := hn.2
    simp only [List.length_nil] at hdeep
    omega
  · have hl : (wrapped chars).length = chars.length + 1 + 3 := by simp [wrapped]
    have hopen : readAll ((wrapped chars).length + 1) {} (wrapped chars) =
        readAll (chars.length + 1 + 3) (Progress.lift [base] {}) (chars ++ [')']) := by
      rw [hl]
      exact readAll_wrapped _ _
    rw [hopen]
    exact hlift 3 [base]

/-- The group of an expression is read to its end. -/
theorem ofChars_closing {k : Nat} (hr : readAll (chars.length + 1) {} chars = some q)
    (hq : q.levels = []) (hwrapped : readAll ((wrapped chars).length + 1) {} (wrapped chars) =
      readAll (k + 2) (q.lift [base]) [')']) :
    ofChars? (wrapped chars) = if nestLimit < nesting chars + 1 then none else
      some ⟨q.body.term, labelsOf q.names.reverse⟩ := by
  rw [readAll_closing _ hq] at hwrapped
  rw [nesting_read hr]
  split at hwrapped
  · rename_i hd
    rw [if_pos hd]
    exact ofChars_none hwrapped
  · rename_i hd
    obtain ⟨hterm, hdepth⟩ := inGroup_read hr (by omega)
    rw [if_neg hd, ofChars_of_read hwrapped hq hdepth, hterm]
    rfl

/-- The group of an expression has no end when the parenthesis is hidden. -/
theorem ofChars_unclosed {k : Nat} (hwrapped : readAll ((wrapped chars).length + 1) {}
    (wrapped chars) = readAll (k + 1) (q.lift [base]) []) : ofChars? (wrapped chars) = none := by
  rw [readAll_done (skip_nil _)] at hwrapped
  rw [ofChars_read hwrapped, if_neg]
  simp [Progress.lift]

/-- Whether a comment is open shows when a closing parenthesis is put behind the text. -/
theorem wrapped_cases (h : ofChars? chars = some e) :
    EndsInComment chars ∧ ofChars? (wrapped chars) = none ∨
      ¬EndsInComment chars ∧ ofChars? (wrapped chars) =
        if nestLimit < nesting chars + 1 then none else some e := by
  obtain ⟨q, hr, hq, hheight, rfl⟩ := ofChars_some h
  obtain ⟨left, k, rfl | rfl, hbare, hwrapped⟩ := readings hr hq hheight
  · refine .inl ⟨?_, ?_⟩
    · rw [readAll_done (skip_nil _)] at hbare
      unfold EndsInComment
      rw [ofChars_of_read hbare (by simpa [Progress.lift] using hq) hheight]
      rfl
    · rcases hwrapped with hwrapped | ⟨hwrapped, -⟩
      · exact ofChars_unclosed hwrapped
      · exact ofChars_none hwrapped
  · refine .inr ⟨?_, ?_⟩
    · rw [readAll_stray _ hq] at hbare
      unfold EndsInComment
      rw [ofChars_none hbare]
      simp
    · rcases hwrapped with hwrapped | ⟨hwrapped, hdeep⟩
      · exact ofChars_closing hr hq hwrapped
      · rw [nesting_read hr, if_pos hdeep]
        exact ofChars_none hwrapped

/-- A group around an expression changes nothing. -/
theorem ofChars_wrapped (h : ofChars? chars = some e) (hw : Wrappable chars) :
    ofChars? (wrapped chars) = some e := by
  rcases wrapped_cases h with ⟨hc, -⟩ | ⟨-, he⟩
  · exact absurd hc hw.closed
  · rw [he, if_neg]
    have := hw.shallow
    omega

/-- Otherwise there is no such group. -/
theorem ofChars_wrapped_none (h : ofChars? chars = some e) (hw : ¬Wrappable chars) :
    ofChars? (wrapped chars) = none := by
  rcases wrapped_cases h with ⟨-, he⟩ | ⟨hc, he⟩
  · exact he
  · rw [he, if_pos]
    refine Nat.lt_of_not_le fun hn => hw ⟨hc, ?_⟩
    omega

/-- A hash starts a comment only when blanks are skipped. -/
example : EndsInComment "(?x)b #c".toList ∧ ¬EndsInComment "b #c".toList := by decide

end

end PatternEngine.Expression
