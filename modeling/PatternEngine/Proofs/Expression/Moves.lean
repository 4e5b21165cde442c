import PatternEngine.Expression
import PatternEngine.Proofs.Expression.Brackets
/-!
# Moves with a parenthesis to come

What the next characters of an expression ask for is read alike with and without a closing
parenthesis behind the expression (`readMove_frames`), and so is every step (`step_frames`).
-/
namespace PatternEngine.Expression

open PatternEngine.Unicode

section
variable {rest rest' : List Char} {m : Mode}

/-! ## Counts -/

theorem lazyMark_other (h : ∀ more, rest ≠ '?' :: more) : lazyMark rest = (true, rest) := by
  unfold lazyMark
  split
  · rename_i more
    exact absurd rfl (h more)
  · rfl

theorem repetition_frames (least : Nat) (most : Option Nat) (h : Extended rest rest') :
    Frames (some (repetition least most rest)) (some (repetition least most rest')) := by
  unfold repetition
  rcases h.head (by decide : '?' ≠ ')') with ⟨more, more', rfl, rfl, hm⟩ | ⟨hn, hn'⟩
  · exact Frames.some _ hm
  · rw [lazyMark_other hn, lazyMark_other hn']
    exact Frames.some _ h

theorem dropWhile_extended {p : Char → Bool} (hp : p ')' = false) (h : Extended rest rest') :
    Extended (rest.dropWhile p) (rest'.dropWhile p) := by
  rcases h with _ | _
  · induction rest with
    | nil =>
      simp only [List.nil_append, List.dropWhile_cons, hp]
      exact .visible []
    | cons c rest ih =>
      simp only [List.cons_append, List.dropWhile_cons]
      split
      · exact ih
      · exact .visible (c :: rest)
  · exact .hidden

theorem count_frames (h : Extended rest rest') : Frames (count m rest) (count m rest') := by
  have hblank : isWhiteSpace ')' = false := by decide
  obtain ⟨hdigits, hrest⟩ := span_extended (p := Char.isDigit) (m := m) (by decide) _ _
    (Nat.lt_succ_self _) (Nat.lt_succ_self _) (dropWhile_extended hblank h)
  unfold count
  dsimp only
  rw [← hdigits]
  split
  · exact Frames.none
  · exact Frames.some _ (dropWhile_extended hblank hrest)

theorem closeCounts_other {least most : Nat} (h : ∀ more, rest ≠ '\x7d' :: more) :
    closeCounts m least most rest = none := by
  unfold closeCounts
  split
  · rename_i more
    exact absurd rfl (h more)
  · rfl

theorem closeCounts_frames (least most : Nat) (h : Extended rest rest') :
    Frames (closeCounts m least most rest) (closeCounts m least most rest') := by
  rcases h.head (by decide : '\x7d' ≠ ')') with ⟨more, more', rfl, rfl, hm⟩ | ⟨hn, -⟩
  · simp only [closeCounts]
    split
    · exact Frames.some _ (skip_extended hm)
    · exact Frames.none
  · rw [closeCounts_other hn]
    exact Frames.none

theorem upperCount_other {least : Nat} (h : ∀ more, rest ≠ '\x7d' :: more) :
    upperCount m least rest = (count m rest >>= fun x => closeCounts m least x.1 x.2) := by
  unfold upperCount
  split
  · rename_i more
    exact absurd rfl (h more)
  · rfl

theorem upperCount_frames (least : Nat) (h : Extended rest rest') :
    Frames (upperCount m least rest) (upperCount m least rest') := by
  rcases h.head (by decide : '\x7d' ≠ ')') with ⟨more, more', rfl, rfl, hm⟩ | ⟨hn, hn'⟩
  · exact Frames.some _ (skip_extended hm)
  · rw [upperCount_other hn, upperCount_other hn']
    exact Frames.bind (count_frames h) fun most _ _ h => closeCounts_frames least most h

theorem countsFrom_other {least : Nat} (h : ∀ more, rest ≠ ',' :: more) :
    countsFrom m least rest = closeCounts m least least rest := by
  unfold countsFrom
  split
  · rename_i more
    exact absurd rfl (h more)
  · rfl

theorem countsFrom_frames (least : Nat) (h : Extended rest rest') :
    Frames (countsFrom m least rest) (countsFrom m least rest') := by
  rcases h.head (by decide : ',' ≠ ')') with ⟨more, more', rfl, rfl, hm⟩ | ⟨hn, hn'⟩
  · exact upperCount_frames least (skip_extended hm)
  · rw [countsFrom_other hn, countsFrom_other hn']
    exact closeCounts_frames least least h

theorem counts_frames (h : Extended rest rest') : Frames (counts m rest) (counts m rest') :=
  Frames.bind (count_frames (skip_extended h)) fun least _ _ h => countsFrom_frames least h

/-! ## Groups -/

theorem closeName_other {name : List Char} (h : ∀ more, rest ≠ '>' :: more) :
    closeName name rest = none := by
  unfold closeName
  split
  · rename_i more
    exact absurd rfl (h more)
  · rfl

theorem closeName_frames (name : List Char) (h : Extended rest rest') :
    Frames (closeName name rest) (closeName name rest') := by
  rcases h.head (by decide : '>' ≠ ')') with ⟨more, more', rfl, rfl, hm⟩ | ⟨hn, -⟩
  · simp only [closeName]
    split
    · exact Frames.some _ hm
    · exact Frames.none
  · rw [closeName_other hn]
    exact Frames.none

theorem groupName_frames (h : Extended rest rest') :
    Frames (groupName rest) (groupName rest') := by
  rcases h with _ | _
  · unfold groupName
    rcases span_append (p := (· != '>')) (by decide) rest with ⟨hd, ht⟩ | ⟨hd, -⟩
    · rw [hd, ht]
      exact closeName_frames _ (.visible _)
    · rw [closeName_other (by simp [hd])]
      exact Frames.none
  · exact Frames.none

theorem switches_frames (value : Bool) (seen : List Char) (h : Extended rest rest') :
    Frames (switches m value seen rest) (switches m value seen rest') := by
  rcases h with _ | _
  · induction rest generalizing m value seen with
    | nil => exact Frames.none
    | cons c rest ih =>
      simp only [List.cons_append, switches]
      split
      · split
        · exact Frames.none
        · exact Frames.some _ (.visible (c :: rest))
      · split
        · exact Frames.none
        · split
          · exact ih false _
          · exact Frames.after fun mode => ih value _
  · exact Frames.none

theorem switched_other {mode : Mode} {seen : List Char} (h : ∀ more, rest ≠ ')' :: more) :
    switched mode seen rest = some (.enter mode, rest.drop 1) := by
  unfold switched
  split
  · rename_i more
    exact absurd rfl (h more)
  · rfl

/-- What follows switches begins with the colon or the parenthesis that ends them. -/
theorem switched_frames {mode : Mode} {seen : List Char} (h : Extended rest rest')
    (hne : rest ≠ []) : Frames (switched mode seen rest) (switched mode seen rest') := by
  rcases h with _ | _
  · rcases rest with _ | ⟨c, more⟩
    · exact absurd rfl hne
    · by_cases hc : c = ')'
      · subst hc
        simp only [List.cons_append, switched]
        split
        · exact Frames.none
        · exact Frames.some _ (.visible more)
      · rw [switched_other (by simp [hc]), switched_other (by simp [hc])]
        exact Frames.some _ (.visible more)
  · exact absurd rfl hne

theorem switches_ne {value : Bool} {seen : List Char} {mode : Mode × List Char} {left : List Char}
    (h : switches m value seen rest = some (mode, left)) : left ≠ [] := by
  induction rest generalizing m value seen with
  | nil => cases h
  | cons c rest ih =>
    simp only [switches] at h
    split at h
    · split at h
      · cases h
      · cases h
        simp
    · split at h
      · cases h
      · split at h
        · exact ih h
        · obtain ⟨next, -, h⟩ := Option.bind_eq_some_iff.1 h
          exact ih h

theorem readMarked_other (hp : ∀ more, rest ≠ 'P' :: '<' :: more)
    (ha : ∀ more, rest ≠ '<' :: more) : readMarked m rest =
      (switches m true [] rest >>= fun x => switched x.1.1 x.1.2 x.2) := by
  unfold readMarked
  split
  · rename_i more
    exact absurd rfl (hp more)
  · rename_i more
    exact absurd rfl (ha more)
  · rfl

theorem readMarked_frames (h : Extended rest rest') :
    Frames (readMarked m rest) (readMarked m rest') := by
  rcases h.two (by decide : 'P' ≠ ')') (by decide : '<' ≠ ')') with
    ⟨more, more', rfl, rfl, hm⟩ | ⟨hp, hp'⟩
  · exact Frames.map (fun name => Move.capture (some name)) (groupName_frames hm)
  rcases h.head (by decide : '<' ≠ ')') with ⟨more, more', rfl, rfl, hm⟩ | ⟨ha, ha'⟩
  · exact Frames.map (fun name => Move.capture (some name)) (groupName_frames hm)
  rw [readMarked_other hp ha, readMarked_other hp' ha']
  intro move left he
  obtain ⟨⟨mode, next⟩, hs, hmove⟩ := Option.bind_eq_some_iff.1 he
  obtain ⟨next', hs', hx⟩ := switches_frames true [] h _ _ hs
  obtain ⟨left', hmove', hleft⟩ := switched_frames hx (switches_ne hs) move left hmove
  exact ⟨left', Option.bind_eq_some_iff.2 ⟨_, hs', hmove'⟩, hleft⟩

theorem readGroup_other (h : ∀ more, m.skip rest ≠ '?' :: more) :
    readGroup m rest = some (.capture none, m.skip rest) := by
  unfold readGroup
  split
  · rename_i more heq
    exact absurd heq (h more)
  · rfl

theorem readGroup_frames (h : Extended rest rest') :
    Frames (readGroup m rest) (readGroup m rest') := by
  have hs : Extended (m.skip rest) (m.skip rest') := skip_extended h
  rcases hs.head (by decide : '?' ≠ ')') with ⟨more, more', he, he', hm⟩ | ⟨hn, hn'⟩
  · unfold readGroup
    rw [he, he']
    exact readMarked_frames hm
  · rw [readGroup_other hn, readGroup_other hn']
    exact Frames.some _ hs

/-! ## Steps -/

theorem readMove_frames (h : Extended rest rest') :
    Frames (readMove m rest) (readMove m rest') := by
  rcases h with _ | _
  · rcases rest with _ | ⟨c, rest⟩
    · exact Frames.none
    · have hv : Extended rest (rest ++ [')']) := .visible rest
      simp only [List.cons_append]
      unfold readMove
      dsimp only
      split
      case h_1 => exact readGroup_frames hv
      case h_4 => exact Frames.bind (Bracket.read_frames hv) fun set _ _ h => Frames.some _ h
      case h_5 => exact repetition_frames 0 (some 1) hv
      case h_6 => exact repetition_frames 0 none hv
      case h_7 => exact repetition_frames 1 none hv
      case h_8 =>
        exact Frames.bind (counts_frames hv) fun bounds _ _ h =>
          repetition_frames bounds.1 bounds.2 h
      case h_9 => exact Frames.map Move.atom (escape_frames hv)
      all_goals exact Frames.some _ hv
  · exact Frames.none

theorem step_frames (p : Progress) (h : Extended rest rest') :
    Frames (step p rest) (step p rest') :=
  Frames.bind (readMove_frames h) fun _ _ _ h => Frames.after fun _ => Frames.some _ h

end

end PatternEngine.Expression
