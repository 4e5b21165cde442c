import PatternEngine.Expression
/-!
# Reading with a parenthesis to come

What a reader makes of a text does not depend on a closing parenthesis behind it: it takes the same
characters and leaves the parenthesis to the next reader. There is one exception: at the end of
verbose text a comment may hide the parenthesis, and then nothing is left with it and without it.
`Extended` holds of the two texts that are still to be read, `Frames` of two readers.
-/
namespace PatternEngine.Expression

open PatternEngine.Unicode

/-- The second text has a closing parenthesis behind the first, unless a comment hides it. -/
inductive Extended : List Char → List Char → Prop
  | visible (rest : List Char) : Extended rest (rest ++ [')'])
  | hidden : Extended [] []

/-- When the first reading succeeds, the second gives the same and leaves the parenthesis. -/
def Frames {α : Type} (s s' : Option (α × List Char)) : Prop :=
  ∀ a rest, s = some (a, rest) → ∃ rest', s' = some (a, rest') ∧ Extended rest rest'

section
variable {α β : Type} {rest rest' : List Char} {m : Mode}

theorem Frames.some (a : α) (h : Extended rest rest') :
    Frames (Option.some (a, rest)) (Option.some (a, rest')) := by
  intro b left he
  cases he
  exact ⟨rest', rfl, h⟩

theorem Frames.none {s : Option (α × List Char)} : Frames Option.none s := by
  intro a rest h
  cases h

/-- One reader after another. -/
theorem Frames.bind {s s' : Option (α × List Char)} {f f' : α × List Char → Option (β × List Char)}
    (h : Frames s s')
    (hf : ∀ a rest rest', Extended rest rest' → Frames (f (a, rest)) (f' (a, rest'))) :
    Frames (s >>= f) (s' >>= f') := by
  intro b left he
  obtain ⟨⟨a, rest⟩, hs, hb⟩ := Option.bind_eq_some_iff.1 he
  obtain ⟨rest', hs', hx⟩ := h a rest hs
  obtain ⟨left', hb', hleft⟩ := hf a rest rest' hx b left hb
  exact ⟨left', Option.bind_eq_some_iff.2 ⟨_, hs', hb'⟩, hleft⟩

/-- A reader after something that reads nothing. -/
theorem Frames.after {x : Option α} {f f' : α → Option (β × List Char)}
    (hf : ∀ a, Frames (f a) (f' a)) : Frames (x >>= f) (x >>= f') := by
  cases x with
  | none => exact Frames.none
  | some a => exact hf a

/-- A reader that hands on what another has read. -/
theorem Frames.map {s s' : Option (α × List Char)} (f : α → β) (h : Frames s s') :
    Frames (s.map fun x => (f x.1, x.2)) (s'.map fun x => (f x.1, x.2)) := by
  intro b left he
  obtain ⟨⟨a, rest⟩, hs, hb⟩ := Option.map_eq_some_iff.1 he
  obtain ⟨rest', hs', hx⟩ := h a rest hs
  cases hb
  exact ⟨rest', Option.map_eq_some_iff.2 ⟨_, hs', rfl⟩, hx⟩

theorem Extended.length_le (h : Extended rest rest') : rest.length ≤ rest'.length := by
  cases h <;> simp

/-- Both texts start with a character, or neither does. -/
theorem Extended.head {k : Char} (hk : k ≠ ')') (h : Extended rest rest') :
    (∃ more more', rest = k :: more ∧ rest' = k :: more' ∧ Extended more more') ∨
      (∀ more, rest ≠ k :: more) ∧ ∀ more, rest' ≠ k :: more := by
  rcases h with _ | _
  · rcases rest with _ | ⟨c, rest⟩
    · refine .inr ⟨by simp, fun more he => ?_⟩
      cases he
      exact hk rfl
    · by_cases hc : c = k
      · subst hc
        exact .inl ⟨rest, _, rfl, rfl, .visible rest⟩
      · exact .inr ⟨by simp [hc], by simp [hc]⟩
  · exact .inr ⟨by simp, by simp⟩

/-- Both texts start with two characters, or neither does. -/
theorem Extended.two {k l : Char} (hk : k ≠ ')') (hl : l ≠ ')') (h : Extended rest rest') :
    (∃ more more', rest = k :: l :: more ∧ rest' = k :: l :: more' ∧ Extended more more') ∨
      (∀ more, rest ≠ k :: l :: more) ∧ ∀ more, rest' ≠ k :: l :: more := by
  rcases h.head hk with ⟨left, left', rfl, rfl, hleft⟩ | ⟨hn, hn'⟩
  · rcases hleft.head hl with ⟨more, more', rfl, rfl, hm⟩ | ⟨hn, hn'⟩
    · exact .inl ⟨more, more', rfl, rfl, hm⟩
    · exact .inr ⟨by simpa using hn, by simpa using hn'⟩
  · exact .inr ⟨fun more => hn (l :: more), fun more => hn' (l :: more)⟩

/-- Where a run of characters ends does not depend on the parenthesis, unless the parenthesis could
be part of it. -/
theorem span_append {p : Char → Bool} (hp : p ')' = true) (rest : List Char) :
    (rest ++ [')']).dropWhile p = rest.dropWhile p ++ [')'] ∧
        (rest ++ [')']).takeWhile p = rest.takeWhile p ∨
      rest.dropWhile p = [] ∧ (rest ++ [')']).dropWhile p = [] := by
  induction rest with
  | nil => exact .inr ⟨rfl, by simp [hp]⟩
  | cons c rest ih =>
    simp only [List.cons_append, List.dropWhile_cons, List.takeWhile_cons]
    split
    · rcases ih with ⟨hd, ht⟩ | ih
      · exact .inl ⟨hd, congrArg (c :: ·) ht⟩
      · exact .inr ih
    · exact .inl ⟨rfl, rfl⟩

/-! ## Blanks and comments -/

theorem skipFrom_extended : ∀ (inComment : Bool) (rest : List Char),
    Extended (Mode.skipFrom inComment rest) (Mode.skipFrom inComment (rest ++ [')']))
  | true, [] => .hidden
  | false, [] => .visible []
  | true, c :: rest => skipFrom_extended (c != '\n') rest
  | false, c :: rest => by
    simp only [List.cons_append, Mode.skipFrom, Bool.false_eq_true, if_false]
    split
    · exact skipFrom_extended false rest
    · split
      · exact skipFrom_extended true rest
      · exact .visible (c :: rest)

theorem skip_extended (h : Extended rest rest') : Extended (m.skip rest) (m.skip rest') := by
  unfold Mode.skip
  split
  · cases h with
    | visible => exact skipFrom_extended false rest
    | hidden => exact .hidden
  · exact h

/-- The first character that is not skipped, if the first reading has any. -/
theorem skip_cases (h : Extended rest rest') : m.skip rest = [] ∨
    ∃ c more, m.skip rest = c :: more ∧ m.skip rest' = c :: (more ++ [')']) := by
  have hs : Extended (m.skip rest) (m.skip rest') := skip_extended h
  generalize m.skip rest = left at hs ⊢
  generalize m.skip rest' = left' at hs ⊢
  rcases hs with _ | _
  · rcases left with _ | ⟨c, more⟩
    · exact .inl rfl
    · exact .inr ⟨c, more, rfl, rfl⟩
  · exact .inl rfl

theorem length_skipFrom_le : ∀ (inComment : Bool) (rest : List Char),
    (Mode.skipFrom inComment rest).length ≤ rest.length
  | _, [] => Nat.le_refl _
  | inComment, c :: rest => by
    unfold Mode.skipFrom
    have h := fun inComment => length_skipFrom_le inComment rest
    split
    · exact Nat.le_succ_of_le (h _)
    · split
      · exact Nat.le_succ_of_le (h _)
      · split
        · exact Nat.le_succ_of_le (h _)
        · exact Nat.le_refl _

theorem length_skip_le (m : Mode) (rest : List Char) : (m.skip rest).length ≤ rest.length := by
  unfold Mode.skip
  split
  · exact length_skipFrom_le false rest
  · exact Nat.le_refl _

/-- A run of characters is the same, for it ends before the parenthesis. -/
theorem span_extended {p : Char → Bool} (hp : p ')' = false) :
    ∀ (fuel fuel' : Nat) {rest rest' : List Char},
    rest.length < fuel → rest'.length < fuel' → Extended rest rest' →
    (m.span p fuel rest).1 = (m.span p fuel' rest').1 ∧
      Extended (m.span p fuel rest).2 (m.span p fuel' rest').2
  | fuel + 1, fuel' + 1, [], _, _, _, .hidden => ⟨rfl, .hidden⟩
  | fuel + 1, fuel' + 1, [], _, _, _, .visible _ => by
    simp only [List.nil_append, Mode.span, hp]
    exact ⟨rfl, .visible []⟩
  | fuel + 1, fuel' + 1, c :: rest, _, hl, hl', .visible _ => by
    have hs : Extended (m.skip rest) (m.skip (rest ++ [')'])) := skip_extended (.visible rest)
    have hle := length_skip_le m rest
    have hle' := length_skip_le m (rest ++ [')'])
    simp only [List.cons_append, List.length_cons] at hl hl'
    have ih := span_extended hp fuel fuel' (by omega) (by omega) hs
    simp only [List.cons_append, Mode.span]
    split
    · exact ⟨congrArg (c :: ·) ih.1, ih.2⟩
    · exact ⟨rfl, .visible (c :: rest)⟩

/-! ## Atoms -/

theorem hexFixed_frames : ∀ (n value : Nat) {rest rest' : List Char}, Extended rest rest' →
    Frames (Atom.hexFixed m value n rest) (Atom.hexFixed m value n rest')
  | 0, _, _, _, h => Frames.some _ h
  | _ + 1, _, [], _, _ => Frames.none
  | n + 1, _, _ :: rest, _, .visible _ =>
    Frames.after fun _ => hexFixed_frames n _ (skip_extended (.visible rest))

theorem hexBraced_frames : ∀ (fuel fuel' value : Nat) (empty : Bool) {rest rest' : List Char},
    fuel ≤ fuel' → Extended rest rest' →
    Frames (Atom.hexBraced m value empty fuel rest) (Atom.hexBraced m value empty fuel' rest')
  | 0, _, _, _, _, _, _, _ => Frames.none
  | fuel + 1, _, _, _, [], _, _, _ => Frames.none
  | fuel + 1, fuel' + 1, value, empty, c :: rest, _, hfuel, .visible _ => by
    simp only [List.cons_append, Atom.hexBraced]
    split
    · split
      · exact Frames.none
      · exact Frames.some _ (skip_extended (.visible rest))
    · exact Frames.after fun d => hexBraced_frames fuel fuel' _ _ (Nat.le_of_succ_le_succ hfuel)
        (skip_extended (.visible rest))

theorem hex_plain (digits : Nat) (h : ∀ more, m.skip rest ≠ '\x7b' :: more) :
    Atom.hex m digits rest = Atom.hexPlain m digits (m.skip rest) := by
  unfold Atom.hex
  split
  · rename_i more heq
    exact absurd heq (h more)
  · rfl

theorem hex_frames (digits : Nat) (h : Extended rest rest') :
    Frames (Atom.hex m digits rest) (Atom.hex m digits rest') := by
  have hs : Extended (m.skip rest) (m.skip rest') := skip_extended h
  rcases hs.head (by decide : '\x7b' ≠ ')') with ⟨more, more', he, he', hm⟩ | ⟨hn, hn'⟩
  · have hm' : Extended (m.skip more) (m.skip more') := skip_extended hm
    unfold Atom.hex
    rw [he, he']
    exact Frames.bind (hexBraced_frames _ _ 0 true (Nat.succ_le_succ hm'.length_le) hm')
      fun n rest rest' h => Frames.after fun c => Frames.some _ h
  · rw [hex_plain digits hn, hex_plain digits hn']
    exact Frames.bind (hexFixed_frames digits 0 hs) fun n rest rest' h =>
      Frames.after fun c => Frames.some _ h

theorem bracedName_frames : ∀ (fuel fuel' : Nat) {rest rest' : List Char}, fuel ≤ fuel' →
    Extended rest rest' →
    Frames (Atom.bracedName m fuel rest) (Atom.bracedName m fuel' rest')
  | 0, _, _, _, _, _ => Frames.none
  | _ + 1, _, [], _, _, _ => Frames.none
  | fuel + 1, fuel' + 1, c :: rest, _, hfuel, .visible _ => by
    simp only [List.cons_append, Atom.bracedName]
    split
    · exact Frames.some _ (.visible rest)
    · exact Frames.bind (bracedName_frames fuel fuel' (Nat.le_of_succ_le_succ hfuel)
        (skip_extended (.visible rest))) fun name rest rest' h => Frames.some _ h

theorem bracedSet_frames (negated : Bool) (h : Extended rest rest') :
    Frames (Atom.bracedSet m negated rest) (Atom.bracedSet m negated rest') :=
  Frames.bind (bracedName_frames _ _ (Nat.succ_le_succ h.length_le) (skip_extended h))
    fun _ _ _ h => Frames.after fun _ => Frames.some _ h

theorem letterSet_frames (negated : Bool) (h : Extended rest rest') :
    Frames (Atom.letterSet m negated rest) (Atom.letterSet m negated rest') := by
  rcases h with _ | _
  · rcases rest with _ | ⟨c, rest⟩
    · exact Frames.none
    · exact Frames.after fun elements => Frames.some _ (skip_extended (.visible rest))
  · exact Frames.none

theorem unicodeSet_letter (negated : Bool) (hu : m.unicode = true)
    (h : ∀ more, m.skip rest ≠ '\x7b' :: more) :
    Atom.unicodeSet m negated rest = Atom.letterSet m negated (m.skip rest) := by
  unfold Atom.unicodeSet
  rw [if_pos hu]
  split
  · rename_i more heq
    exact absurd heq (h more)
  · rfl

theorem unicodeSet_frames (negated : Bool) (h : Extended rest rest') :
    Frames (Atom.unicodeSet m negated rest) (Atom.unicodeSet m negated rest') := by
  by_cases hu : m.unicode = true
  · have hs : Extended (m.skip rest) (m.skip rest') := skip_extended h
    rcases hs.head (by decide : '\x7b' ≠ ')') with ⟨more, more', he, he', hm⟩ | ⟨hn, hn'⟩
    · unfold Atom.unicodeSet
      rw [if_pos hu, if_pos hu, he, he']
      exact bracedSet_frames negated hm
    · rw [unicodeSet_letter negated hu hn, unicodeSet_letter negated hu hn']
      exact letterSet_frames negated hs
  · unfold Atom.unicodeSet
    rw [if_neg hu, if_neg hu]
    exact Frames.none

theorem edgeOf_other {read : List Char × List Char} (h : ∀ more, read.2 ≠ '\x7d' :: more) :
    Atom.edgeOf read = none := by
  unfold Atom.edgeOf
  split
  · rename_i name after
    exact absurd rfl (h after)
  · rfl

theorem edgeOf_frames {read read' : List Char × List Char} (hname : read.1 = read'.1)
    (h : Extended read.2 read'.2) : Frames (Atom.edgeOf read) (Atom.edgeOf read') := by
  obtain ⟨name, left⟩ := read
  obtain ⟨name', left'⟩ := read'
  dsimp only at hname h
  subst hname
  rcases h.head (by decide : '\x7d' ≠ ')') with ⟨more, more', rfl, rfl, hm⟩ | ⟨hn, -⟩
  · simp only [Atom.edgeOf]
    split
    · exact Frames.some _ hm
    · split
      · exact Frames.some _ hm
      · split
        · exact Frames.some _ hm
        · split
          · exact Frames.some _ hm
          · exact Frames.none
  · rw [edgeOf_other (by exact hn)]
    exact Frames.none

theorem wordEdge_other (h : ∀ inner, rest ≠ '\x7b' :: inner) :
    Atom.wordEdge m rest = some (.boundary, rest) := by
  unfold Atom.wordEdge
  split
  · rename_i inner
    exact absurd rfl (h inner)
  · rfl

theorem wordEdge_frames (h : Extended rest rest') :
    Frames (Atom.wordEdge m rest) (Atom.wordEdge m rest') := by
  rcases h.head (by decide : '\x7b' ≠ ')') with ⟨inner, inner', rfl, rfl, hi⟩ | ⟨hn, hn'⟩
  · simp only [Atom.wordEdge]
    rcases skip_cases (m := m) hi with hs | ⟨c, more, hs, hs'⟩
    · rw [hs]
      exact Frames.none
    · rw [hs, hs']
      dsimp only
      split
      · obtain ⟨hname, hrest⟩ := span_extended (p := Atom.isEdgeChar) (m := m) (by decide)
          (more.length + 2) ((more ++ [')']).length + 2) (by simp) (by simp)
          (Extended.visible (c :: more))
        exact edgeOf_frames hname hrest
      · exact Frames.some _ h
  · rw [wordEdge_other hn, wordEdge_other hn']
    exact Frames.some _ h

theorem escape_frames (h : Extended rest rest') :
    Frames (Atom.escape m rest) (Atom.escape m rest') := by
  rcases h with _ | _
  · rcases rest with _ | ⟨c, rest⟩
    · exact Frames.none
    · have hv : Extended rest (rest ++ [')']) := .visible rest
      simp only [List.cons_append]
      unfold Atom.escape
      dsimp only
      split
      case h_1 => exact hex_frames 2 hv
      case h_2 => exact hex_frames 4 hv
      case h_3 => exact hex_frames 8 hv
      case h_4 => exact unicodeSet_frames false hv
      case h_5 => exact unicodeSet_frames true hv
      case h_20 =>
        exact Frames.map (fun edge => Atom.look (.word m.unicode edge)) (wordEdge_frames hv)
      case h_24 =>
        split
        · exact Frames.some _ hv
        · exact Frames.none
      all_goals exact Frames.some _ hv
  · exact Frames.none

end

end PatternEngine.Expression
