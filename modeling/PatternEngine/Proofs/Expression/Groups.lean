import PatternEngine.Matcher
import PatternEngine.Proofs.Expression.Wrapped
/-!
# The numbers and labels of groups

A text opens its capture groups one after the other, each under the next number (`Opens`). The
labels of its expression are those of its groups in this order (`labels_iff`), so the groups that a
match lists stand in the order of their numbers, each under its declared name or its number
(`Matcher.mem_numbered_iff`).
-/
namespace PatternEngine

namespace Expression

variable {chars rest : List Char} {p p' q : Progress} {declared : Option (List Char)}
  {group k fuel : Nat}

/-- How far the reading of a text comes: what has been read by then, and what is left. -/
inductive Reached (chars : List Char) : Progress → List Char → Prop
  | start : Reached chars {} chars
  | step {p p' : Progress} {rest left : List Char} (reached : Reached chars p rest)
      (next : step p (p.mode.skip rest) = some (p', left)) : Reached chars p' left

/-- The text opens a capture group under a number, and it may declare a name for it. -/
def Opens (chars : List Char) (group : Nat) (declared : Option (List Char)) : Prop :=
  ∃ p p' rest left level outer, Reached chars p rest ∧
    readMove p.mode (p.mode.skip rest) = some (.capture declared, left) ∧
    p.openCapture declared = some p' ∧ p'.levels = level :: outer ∧ level.index = some group

/-- The label of a group is its declared name, or else its number. -/
def labelOf (group : Nat) : Option (List Char) → Bytes
  | some name => Text.Utf8.ofChars name
  | none => Bytes.ofNat group

/-! ## Names -/

theorem openCapture_eq (h : p.openCapture declared = some p') : p'.names = declared :: p.names ∧
    p'.levels = ⟨some (p.names.length + 1), p.mode, p.parts, p.branches⟩ :: p.levels := by
  unfold Progress.openCapture Progress.openGroup at h
  split at h
  · cases h
  · split at h
    · cases h
    · cases h
      exact ⟨rfl, rfl⟩

/-- Only a move that opens a capture group declares anything. -/
theorem run_names {move : Move} (h : move.run p = some p') :
    (∃ declared, move = .capture declared ∧ p'.names = declared :: p.names) ∨
      p'.names = p.names := by
  cases move with
  | atom a =>
    cases a <;> simp only [Move.run, Progress.pushAtom] at h <;> exact .inr (by rw [push_eq h])
  | bracket elements height => exact .inr (by rw [push_eq h])
  | capture declared => exact .inl ⟨declared, rfl, (openCapture_eq h).1⟩
  | enter mode =>
    simp only [Move.run, Progress.openGroup] at h
    split at h
    · cases h
    · cases h
      exact .inr rfl
  | switch mode => exact .inr (by rw [push_eq h])
  | close =>
    simp only [Move.run, Progress.closeGroup] at h
    split at h
    · cases h
    · exact .inr (by rw [push_eq h])
  | branch =>
    cases h
    exact .inr rfl
  | repeated least most greedy =>
    simp only [Move.run, Progress.repeatLast] at h
    split at h
    · split at h
      · exact .inr (by rw [push_eq h])
      · cases h
    · cases h

/-- A step is a move. -/
theorem step_run {left : List Char} (h : step p rest = some (p', left)) :
    ∃ move, readMove p.mode rest = some (move, left) ∧ move.run p = some p' := by
  obtain ⟨⟨move, next⟩, hread, h⟩ := Option.bind_eq_some_iff.1 h
  obtain ⟨made, hrun, h⟩ := Option.bind_eq_some_iff.1 h
  cases h
  exact ⟨move, hread, hrun⟩

/-- There is more to read where a step is taken. -/
theorem readAll_step {left : List Char} (h : step p (p.mode.skip rest) = some (p', left)) :
    readAll (fuel + 1) p rest = readAll fuel p' left := by
  cases hskip : p.mode.skip rest with
  | nil =>
    rw [hskip] at h
    cases h
  | cons c more =>
    rw [hskip] at h
    rw [readAll_more hskip, h]
    rfl

theorem readAll_cases (h : readAll (fuel + 1) p rest = some q) : p = q ∨
    ∃ p' left, step p (p.mode.skip rest) = some (p', left) ∧ readAll fuel p' left = some q := by
  simp only [readAll] at h
  split at h
  · cases h
    exact .inl rfl
  · rename_i hskip
    obtain ⟨⟨p', left⟩, hstep, h⟩ := Option.bind_eq_some_iff.1 h
    exact .inr ⟨p', left, hstep, h⟩

/-- A reading adds to the names. -/
theorem readAll_names : ∀ (fuel : Nat) {p : Progress} {rest : List Char},
    readAll fuel p rest = some q → p.names <:+ q.names
  | 0, _, _, h => by cases h
  | fuel + 1, p, rest, h => by
    rcases readAll_cases h with rfl | ⟨p', left, hstep, h⟩
    · exact List.suffix_rfl
    · refine List.IsSuffix.trans ?_ (readAll_names fuel h)
      obtain ⟨move, -, hrun⟩ := step_run hstep
      rcases run_names hrun with ⟨declared, -, hnames⟩ | hnames
      · rw [hnames]
        exact List.suffix_cons declared p.names
      · exact hnames ▸ List.suffix_rfl

/-- Wherever a reading comes, it goes on to its end. -/
theorem Reached.readAll {n : Nat} (h : Reached chars p rest) (hread : readAll n {} chars = some q) :
    ∃ fuel, Expression.readAll fuel p rest = some q := by
  induction h with
  | start => exact ⟨n, hread⟩
  | step reached next ih =>
    obtain ⟨fuel, hfuel⟩ := ih
    cases fuel with
    | zero => cases hfuel
    | succ fuel => exact ⟨fuel, (readAll_step next).symm.trans hfuel⟩

/-! ## Numbers -/

theorem names_of_opens {n : Nat} (hread : readAll n {} chars = some q)
    (h : Opens chars group declared) :
    ∃ k, group = k + 1 ∧ q.names.reverse[k]? = some declared := by
  obtain ⟨p, p', rest, left, level, outer, hreached, hmove, hopen, hlevels, hindex⟩ := h
  obtain ⟨hnames, hlevels'⟩ := openCapture_eq hopen
  rw [hlevels'] at hlevels
  cases hlevels
  cases hindex
  refine ⟨p.names.length, rfl, ?_⟩
  have hstep : step p (p.mode.skip rest) = some (p', left) := by
    simp only [step, hmove, Option.bind_eq_bind, Option.bind_some, Move.run, hopen]
    rfl
  obtain ⟨fuel, hfuel⟩ := (hreached.step hstep).readAll hread
  obtain ⟨more, hmore⟩ := readAll_names fuel hfuel
  rw [← hmore, hnames]
  simp

/-- Every name that is known at the end was known before, or its group is opened. The induction is
on the reading. -/
theorem opens_of_names : ∀ (fuel : Nat) {p : Progress} {rest : List Char}, Reached chars p rest →
    readAll fuel p rest = some q → q.names.reverse[k]? = some declared →
      p.names.reverse[k]? = some declared ∨ Opens chars (k + 1) declared
  | 0, _, _, _, h, _ => by cases h
  | fuel + 1, p, rest, hreached, h, hk => by
    rcases readAll_cases h with rfl | ⟨p', left, hstep, h⟩
    · exact .inl hk
    rcases opens_of_names fuel (hreached.step hstep) h hk with hk | hopens
    · obtain ⟨move, hmove, hrun⟩ := step_run hstep
      rcases run_names hrun with ⟨other, rfl, hnames⟩ | hnames
      · rw [hnames, List.reverse_cons, List.getElem?_append, List.length_reverse] at hk
        split at hk
        · exact .inl hk
        · rename_i hlt
          rw [List.getElem?_singleton] at hk
          split at hk
          · rename_i hlast
            cases hk
            have hnumber : k = p.names.length := by omega
            subst hnumber
            exact .inr
              ⟨p, p', rest, left, _, _, hreached, hmove, hrun, (openCapture_eq hrun).2, rfl⟩
          · cases hk
      · exact .inl (by rwa [hnames] at hk)
    · exact .inr hopens

theorem opens_iff {n : Nat} (hread : readAll n {} chars = some q) :
    Opens chars (k + 1) declared ↔ q.names.reverse[k]? = some declared := by
  constructor
  · intro h
    obtain ⟨k', hk', hname⟩ := names_of_opens hread h
    cases hk'
    exact hname
  · intro h
    rcases opens_of_names n .start hread h with h | h
    · cases h
    · exact h

theorem getElem?_labelsOf (names : List (Option (List Char))) (k : Nat) :
    (labelsOf names)[k]? = names[k]?.map (labelOf (k + 1)) := by
  unfold labelsOf
  rw [List.getElem?_map, List.getElem?_zipIdx, Option.map_map, Nat.zero_add]
  congr 1

/-- The labels are those of the groups, in the order in which the text opens them. -/
theorem labels_iff {e : Expression} (h : ofChars? chars = some e) {label : Bytes} :
    e.labels[k]? = some label ↔
      ∃ declared, Opens chars (k + 1) declared ∧ label = labelOf (k + 1) declared := by
  obtain ⟨q, hread, -, -, rfl⟩ := ofChars_some h
  dsimp only
  rw [getElem?_labelsOf, Option.map_eq_some_iff]
  simp only [opens_iff hread, eq_comm]

/-- There is no group without a number. -/
theorem not_opens_zero {e : Expression} (h : ofChars? chars = some e) :
    ¬Opens chars 0 declared := by
  obtain ⟨q, hread, -, -, rfl⟩ := ofChars_some h
  intro hopens
  obtain ⟨k, hk, -⟩ := names_of_opens hread hopens
  cases hk

end Expression

namespace Matcher

open Expression Automaton

variable {source name : Bytes} {m : Matcher} {chars : List Char} {notes : Notes}

/-- The groups that took part, with their numbers. -/
def numbered (m : Matcher) (notes : Notes) : List (Nat × Capture) :=
  m.labels.zipIdx.filterMap fun (label, i) =>
    (notes.span? (i + 1)).map fun span => (i + 1, ⟨label, span⟩)

theorem captures_numbered (m : Matcher) (notes : Notes) :
    m.captures notes = (m.numbered notes).map Prod.snd := by
  unfold captures numbered
  rw [List.map_filterMap]
  simp only [Option.map_map]
  rfl

/-- The groups stand in the order of their numbers, each once. -/
theorem numbered_increasing (m : Matcher) (notes : Notes) :
    ((m.numbered notes).map Prod.fst).Pairwise (· < ·) := by
  have hplaces : m.labels.zipIdx.Pairwise fun x y => x.2 < y.2 := by
    have hrange : (m.labels.zipIdx.map Prod.snd).Pairwise (· < ·) := by
      rw [List.zipIdx_map_snd]
      exact List.pairwise_lt_range'
    exact List.pairwise_map.1 hrange
  unfold numbered
  rw [List.map_filterMap, List.pairwise_filterMap]
  refine hplaces.imp fun hlt g hg g' hg' => ?_
  simp only [Option.map_map, Option.map_eq_some_iff, Function.comp_apply] at hg hg'
  obtain ⟨-, -, rfl⟩ := hg
  obtain ⟨-, -, rfl⟩ := hg'
  exact Nat.succ_lt_succ hlt

/-- What compiles to a matcher is the text of an expression that is not too large. It has the labels
of the expression, and any other text of the expression compiles to the same. -/
theorem compile_ok (h : compile source name = .ok m) : ∃ chars e,
    Text.Utf8.chars? source = some chars ∧ ofChars? chars = some e ∧ m.labels = e.labels ∧
      ∀ source' chars' name', Text.Utf8.chars? source' = some chars' →
        ofChars? chars' = some e → compile source' name' = .ok { m with name := name' } := by
  unfold compile at h
  split at h
  · cases h
  · rename_i chars hchars
    split at h
    · cases h
    · rename_i e he
      split at h
      · rename_i hfits
        cases h
        refine ⟨chars, e, hchars, he, rfl, fun source' chars' name' hchars' he' => ?_⟩
        unfold compile
        simp only [hchars', he', hfits, if_true]
      · cases h

/-- A group is listed exactly when the source opens it and it took part. -/
theorem mem_numbered_iff (h : compile source name = .ok m)
    (hchars : Text.Utf8.chars? source = some chars) {group : Nat} {c : Capture} :
    (group, c) ∈ m.numbered notes ↔ ∃ declared span, Opens chars group declared ∧
      notes.span? group = some span ∧ c = ⟨labelOf group declared, span⟩ := by
  obtain ⟨chars', e, hchars', he, hlabels, -⟩ := compile_ok h
  rw [hchars] at hchars'
  cases hchars'
  unfold numbered
  rw [hlabels, List.mem_filterMap]
  constructor
  · rintro ⟨⟨label, i⟩, hm, hc⟩
    obtain ⟨span, hspan, hc⟩ := Option.map_eq_some_iff.1 hc
    cases hc
    obtain ⟨declared, hopens, hlabel⟩ := (labels_iff he).1 (List.mem_zipIdx_iff_getElem?.1 hm)
    dsimp only at hopens hlabel
    exact ⟨declared, span, hopens, hspan, by rw [hlabel]⟩
  · rintro ⟨declared, span, hopens, hspan, rfl⟩
    cases group with
    | zero => exact absurd hopens (not_opens_zero he)
    | succ i =>
      refine ⟨(labelOf (i + 1) declared, i), List.mem_zipIdx_iff_getElem?.2 ?_, ?_⟩
      · exact (labels_iff he).2 ⟨declared, hopens, rfl⟩
      · rw [Option.map_eq_some_iff]
        exact ⟨span, hspan, rfl⟩

end Matcher

end PatternEngine
