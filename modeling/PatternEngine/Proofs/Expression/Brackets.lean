import PatternEngine.Expression.Bracket
import PatternEngine.Proofs.Expression.Extended
/-!
# Reading brackets with a parenthesis to come

A set in brackets is read alike with and without a closing parenthesis behind it (`read_frames`).
The reader looks ahead in three places: for a named set, for the second sign of an operation, and
past a hyphen. In none of them does a parenthesis make a difference.
-/
namespace PatternEngine.Expression.Bracket

open PatternEngine.Unicode

section
variable {rest rest' : List Char} {m : Mode}

/-! ## The start of a bracket -/

theorem hyphens_frames : ∀ (fuel fuel' : Nat) (d : Draft) {rest rest' : List Char},
    fuel ≤ fuel' → Extended rest rest' →
    Frames (hyphens m d fuel rest) (hyphens m d fuel' rest')
  | 0, _, _, _, _, _, _ => Frames.none
  | _ + 1, _, _, [], _, _, _ => Frames.none
  | fuel + 1, fuel' + 1, d, c :: rest, _, hfuel, .visible _ => by
    simp only [List.cons_append, hyphens]
    split
    · exact hyphens_frames fuel fuel' _ (Nat.le_of_succ_le_succ hfuel)
        (skip_extended (.visible rest))
    · exact Frames.some _ (.visible (c :: rest))

theorem negation_other (h : ∀ more, rest ≠ '^' :: more) : negation m rest = (false, rest) := by
  unfold negation
  split
  · rename_i more
    exact absurd rfl (h more)
  · rfl

theorem negation_extended (h : Extended rest rest') :
    (negation m rest).1 = (negation m rest').1 ∧
      Extended (negation m rest).2 (negation m rest').2 := by
  rcases h.head (by decide : '^' ≠ ')') with ⟨more, more', rfl, rfl, hm⟩ | ⟨hn, hn'⟩
  · exact ⟨rfl, skip_extended hm⟩
  · rw [negation_other hn, negation_other hn']
    exact ⟨rfl, h⟩

theorem firstClosing_other {negated : Bool} {d : Draft} (h : ∀ more, rest ≠ ']' :: more) :
    firstClosing m negated d rest = some ((negated, d), rest) := by
  unfold firstClosing
  split
  · rename_i more
    exact absurd rfl (h more)
  · rfl

theorem firstClosing_frames (negated : Bool) (d : Draft) (h : Extended rest rest') :
    Frames (firstClosing m negated d rest) (firstClosing m negated d rest') := by
  rcases h.head (by decide : ']' ≠ ')') with ⟨more, more', rfl, rfl, hm⟩ | ⟨hn, hn'⟩
  · simp only [firstClosing]
    split
    · rcases skip_cases (m := m) hm with hs | ⟨c, left, hs, hs'⟩
      · rw [hs]
        exact Frames.none
      · rw [hs, hs']
        exact Frames.some _ (.visible (c :: left))
    · exact Frames.some _ h
  · rw [firstClosing_other hn, firstClosing_other hn']
    exact Frames.some _ h

theorem start_frames (h : Extended rest rest') : Frames (start m rest) (start m rest') := by
  obtain ⟨hneg, hrest⟩ := negation_extended (m := m) (skip_extended (m := m) h)
  unfold start
  dsimp only
  rw [← hneg]
  exact Frames.bind (hyphens_frames _ _ _ (Nat.succ_le_succ hrest.length_le) hrest)
    fun d _ _ h => firstClosing_frames _ d h

/-! ## Items -/

theorem namedBody_other {negated : Bool}
    (h : ∀ after, rest.dropWhile (· != ':') ≠ ':' :: ']' :: after) :
    namedBody m negated rest = none := by
  unfold namedBody
  split
  · rename_i after heq
    exact absurd heq (h after)
  · rfl

/-- A reading that takes nothing of the parenthesis. -/
def keep {α : Type} (s : Option (α × List Char)) : Option (α × List Char) :=
  s.map fun x => (x.1, x.2 ++ [')'])

theorem namedBody_append (negated : Bool) (rest : List Char) :
    namedBody m negated (rest ++ [')']) = keep (namedBody m negated rest) := by
  rcases span_append (p := (· != ':')) (by decide) rest with ⟨hd, ht⟩ | ⟨hd, hd'⟩
  · rcases (Extended.visible (rest.dropWhile (· != ':'))).two (k := ':') (l := ']') (by decide)
      (by decide) with ⟨after, _, ha, -, -⟩ | ⟨hn, hn'⟩
    · unfold namedBody
      rw [hd, ht, ha]
      dsimp only [List.cons_append]
      cases named? (rest.takeWhile (· != ':')) <;> rfl
    · rw [namedBody_other (by rw [hd]; exact hn'), namedBody_other hn]
      rfl
  · rw [namedBody_other (by simp [hd']), namedBody_other (by simp [hd])]
    rfl

theorem sign_other (h : ∀ more, rest ≠ '^' :: more) : sign rest = (false, rest) := by
  unfold sign
  split
  · rename_i more
    exact absurd rfl (h more)
  · rfl

theorem namedSet_other (h : ∀ more, rest ≠ ':' :: more) : namedSet m rest = none := by
  unfold namedSet
  split
  · rename_i more
    exact absurd rfl (h more)
  · rfl

/-- Whether a named set follows does not depend on the parenthesis. -/
theorem namedSet_append (m : Mode) (rest : List Char) :
    namedSet m (rest ++ [')']) = keep (namedSet m rest) := by
  rcases (Extended.visible rest).head (by decide : ':' ≠ ')') with
    ⟨more, more', rfl, he, -⟩ | ⟨hn, hn'⟩
  · simp only [List.cons_append, namedSet]
    rcases (Extended.visible more).head (by decide : '^' ≠ ')') with
      ⟨name, name', rfl, he, -⟩ | ⟨hn, hn'⟩
    · exact namedBody_append true name
    · rw [sign_other hn, sign_other hn']
      exact namedBody_append false more
  · rw [namedSet_other hn, namedSet_other hn']
    rfl

theorem item_other {c : Char} (hc : c ≠ '\\') :
    item m (c :: rest) = some (.literal c false, rest) := by
  unfold item
  split
  · rename_i heq
    cases heq
  · rename_i heq
    cases heq
    exact absurd rfl hc
  · rename_i heq
    cases heq
    rfl

theorem item_frames (h : Extended rest rest') : Frames (item m rest) (item m rest') := by
  rcases h with _ | _
  · rcases rest with _ | ⟨c, rest⟩
    · exact Frames.none
    · by_cases hc : c = '\\'
      · subst hc
        exact escape_frames (.visible rest)
      · rw [List.cons_append, item_other hc, item_other hc]
        exact Frames.some _ (.visible rest)
  · exact Frames.none

/-- A text starts with a character that is dropped, or with the first one that is not. -/
theorem head_of_dropWhile {p : Char → Bool} {k : Char} {left : List Char}
    (h : rest.dropWhile p = left) (hk : p k = false) (hl : left.head? ≠ some k) :
    rest.head? ≠ some k := by
  subst h
  rcases rest with _ | ⟨c, rest⟩
  · simp
  · intro he
    cases he
    simp [hk] at hl

/-- Past a hyphen, a bracket or a hyphen is found with and without the parenthesis. -/
theorem peekPast_extended {k : Char} (hk : k ≠ ')') (hw : isWhiteSpace k = false) (hs : k ≠ '#')
    (h : Extended rest rest') : (m.peekPast rest' = some k) ↔ (m.peekPast rest = some k) := by
  have hblank : isWhiteSpace ')' = false := by decide
  rcases h with _ | _
  · unfold Mode.peekPast
    split
    · rw [List.dropWhile_append]
      cases hd : rest.dropWhile isWhiteSpace with
      | nil =>
        have hr := head_of_dropWhile hd hw (by simp)
        simp [hblank, hk.symm, hr]
      | cons c more =>
        simp only [List.isEmpty_cons, Bool.false_eq_true, if_false, List.cons_append]
        split
        · rename_i hc
          rw [List.dropWhile_append]
          cases hm : more.dropWhile isWhiteSpace with
          | nil =>
            have hr := head_of_dropWhile hd hw (by simp [beq_iff_eq.1 hc, hs.symm])
            simp [hblank, hk.symm, hr]
          | cons d more => simp
        · exact Iff.rfl
    · cases rest <;> simp [hk.symm]
  · exact Iff.rfl

theorem rangeFrom_other {first : Atom} {c : Char} (h : c ≠ '-') :
    rangeFrom m first (c :: rest) =
      (elements? m first >>= fun elements => some (elements, c :: rest)) := by
  unfold rangeFrom
  split
  · rename_i heq
    cases heq
  · rename_i heq
    cases heq
    exact absurd rfl h
  · rfl

theorem rangeEnd_frames (first : Atom) (h : Extended rest rest') :
    Frames (rangeEnd m first rest) (rangeEnd m first rest') := by
  refine Frames.bind (item_frames (skip_extended h)) fun second left left' hx => ?_
  refine Frames.after fun lo => Frames.after fun hi => ?_
  split
  · exact Frames.some _ hx
  · exact Frames.none

theorem rangeFrom_frames (first : Atom) (h : Extended rest rest') :
    Frames (rangeFrom m first rest) (rangeFrom m first rest') := by
  rcases h with _ | _
  · rcases rest with _ | ⟨c, more⟩
    · exact Frames.none
    · by_cases hc : c = '-'
      · subst hc
        have hm : Extended more (more ++ [')']) := .visible more
        have hb := peekPast_extended (m := m) (k := ']') (by decide) (by decide) (by decide) hm
        have hh := peekPast_extended (m := m) (k := '-') (by decide) (by decide) (by decide) hm
        simp only [List.cons_append, rangeFrom, Bool.or_eq_true, beq_iff_eq, hb, hh]
        split
        · exact Frames.after fun elements => Frames.some _ (.visible ('-' :: more))
        · exact rangeEnd_frames first hm
      · rw [List.cons_append, rangeFrom_other hc, rangeFrom_other hc]
        exact Frames.after fun elements => Frames.some _ (.visible (c :: more))
  · exact Frames.none

theorem range_frames (h : Extended rest rest') : Frames (range m rest) (range m rest') :=
  Frames.bind (item_frames h) fun first _ _ h => rangeFrom_frames first (skip_extended h)

/-! ## The loop -/

theorem operator_none (ha : ∀ more, rest ≠ '&' :: '&' :: more)
    (hd : ∀ more, rest ≠ '-' :: '-' :: more) (hs : ∀ more, rest ≠ '~' :: '~' :: more) :
    operator? rest = none := by
  unfold operator?
  split
  · rename_i more
    exact absurd rfl (ha more)
  · rename_i more
    exact absurd rfl (hd more)
  · rename_i more
    exact absurd rfl (hs more)
  · rfl

/-- The second sign of an operation is never the parenthesis. -/
theorem operator_extended (h : Extended rest rest') :
    (∃ op more more', operator? rest = some (op, more) ∧ operator? rest' = some (op, more') ∧
      Extended more more') ∨ operator? rest = none ∧ operator? rest' = none := by
  rcases h.two (by decide : '&' ≠ ')') (by decide : '&' ≠ ')') with
    ⟨more, more', rfl, rfl, hm⟩ | ⟨ha, ha'⟩
  · exact .inl ⟨.intersection, more, more', rfl, rfl, hm⟩
  rcases h.two (by decide : '-' ≠ ')') (by decide : '-' ≠ ')') with
    ⟨more, more', rfl, rfl, hm⟩ | ⟨hd, hd'⟩
  · exact .inl ⟨.difference, more, more', rfl, rfl, hm⟩
  rcases h.two (by decide : '~' ≠ ')') (by decide : '~' ≠ ')') with
    ⟨more, more', rfl, rfl, hm⟩ | ⟨hs, hs'⟩
  · exact .inl ⟨.symmetricDifference, more, more', rfl, rfl, hm⟩
  · exact .inr ⟨operator_none ha hd hs, operator_none ha' hd' hs'⟩

section
variable {more : List Char} {frames : List Frame} {fuel : Nat} {d : Draft}

theorem loop_open (h : m.skip rest = '[' :: more) :
    loop m (fuel + 1) frames d rest = match namedSet m more with
      | some (elements, rest) => loop m fuel frames (d.add elements 0) rest
      | none =>
        if nestLimit < frames.length then none
        else start m more >>= fun x => loop m fuel (.bracket x.1.1 d :: frames) x.1.2 x.2 := by
  rw [loop, h]
  rfl

theorem loop_close (h : m.skip rest = ']' :: more) :
    loop m (fuel + 1) frames d rest = match closeOperand m d frames with
      | ((elements, height), .bracket negated before :: frames) =>
        match frames with
        | [] => some ((m.finish negated elements, height + 1), more)
        | frames => loop m fuel frames (before.add (m.finish negated elements) (height + 1)) more
      | _ => none := by
  rw [loop, h]
  rfl

theorem loop_other {c : Char} (h : m.skip rest = c :: more) (ho : c ≠ '[') (hc : c ≠ ']') :
    loop m (fuel + 1) frames d rest = match operator? (c :: more) with
      | some (op, rest) =>
        loop m fuel (.operation op (closeOperand m d frames).1.1 (closeOperand m d frames).1.2 ::
          (closeOperand m d frames).2) {} rest
      | none => range m (c :: more) >>= fun x => loop m fuel frames (d.add x.1 0) x.2 := by
  rw [loop, h]
  split
  · rename_i heq
    cases heq
  · rename_i heq
    cases heq
    exact absurd rfl ho
  · rename_i heq
    cases heq
    exact absurd rfl hc
  · rfl

end

theorem loop_frames : ∀ (fuel fuel' : Nat) (frames : List Frame) (d : Draft)
    {rest rest' : List Char}, fuel ≤ fuel' → Extended rest rest' →
    Frames (loop m fuel frames d rest) (loop m fuel' frames d rest')
  | 0, _, _, _, _, _, _, _ => Frames.none
  | fuel + 1, fuel' + 1, frames, d, rest, rest', hfuel, h => by
    have ih := fun frames d {rest rest'} (h : Extended rest rest') =>
      loop_frames fuel fuel' frames d (Nat.le_of_succ_le_succ hfuel) h
    rcases skip_cases (m := m) h with hs | ⟨c, more, hs, hs'⟩
    · rw [loop, hs]
      exact Frames.none
    have hm : Extended more (more ++ [')']) := .visible more
    by_cases ho : c = '['
    · subst ho
      rw [loop_open hs, loop_open hs', namedSet_append]
      cases namedSet m more with
      | some named => exact ih frames _ (.visible named.2)
      | none =>
        dsimp only [keep, Option.map_none]
        split
        · exact Frames.none
        · exact Frames.bind (start_frames hm) fun x _ _ h => ih _ x.2 h
    by_cases hc : c = ']'
    · subst hc
      rw [loop_close hs, loop_close hs']
      split
      · split
        · exact Frames.some _ hm
        · exact ih _ _ hm
      · exact Frames.none
    rw [loop_other hs ho hc, loop_other hs' ho hc]
    rcases operator_extended (.visible (c :: more)) with
      ⟨op, left, left', hop, hop', hl⟩ | ⟨hop, hop'⟩
    · rw [hop, ← List.cons_append, hop']
      exact ih _ {} hl
    · rw [hop, ← List.cons_append, hop']
      exact Frames.bind (range_frames (.visible (c :: more))) fun elements _ _ h => ih frames _ h

theorem read_frames (h : Extended rest rest') : Frames (read m rest) (read m rest') := by
  refine Frames.bind (start_frames h) fun x left left' hx => ?_
  exact loop_frames _ _ [.bracket x.1 {}] x.2 (Nat.succ_le_succ hx.length_le) hx

end

end PatternEngine.Expression.Bracket
