import PatternEngine.Expression
import PatternEngine.Proofs.Expression.Tidy
import Mathlib.Logic.Relation
/-!
# What a move changes

`Change` lists what one move can do to the progress of a reading. Two facts follow for every
reading: the terms stay tidy (`readAll_tidied`), and an expression is at least as deep as there are
groups open together in it (`levels_le_height`).
-/
namespace PatternEngine.Expression

open PatternEngine.Unicode

/-- What a move can make of the progress `p`. -/
inductive Change (p : Progress) : Progress → Prop
  | pushed (mode : Mode) (part : Part) (tidy : part.term.Tidy) :
    Change p { p with mode, parts := part :: p.parts }
  | opened (index : Option Nat) (mode : Mode) (names : List (Option (List Char))) :
    Change p { p with
      mode, names, parts := [], branches := [],
      levels := ⟨index, p.mode, p.parts, p.branches⟩ :: p.levels }
  | closed (level : Level) (levels : List Level) (term : Term) (open_ : p.levels = level :: levels)
    (tidy : p.body.term.Tidy → term.Tidy) :
    Change p { p with
      mode := level.mode, parts := ⟨term, p.body.height + 1, true⟩ :: level.parts,
      branches := level.branches, levels }
  | branched : Change p p.nextBranch
  | repeated (part : Part) (parts : List Part) (term : Term) (last : p.parts = part :: parts)
    (tidy : part.term.Tidy → term.Tidy) :
    Change p { p with parts := ⟨term, part.height + 1, true⟩ :: parts }

variable {p p' q : Progress} {move : Move}

theorem push_eq {part : Part} (h : p.push part = some p') :
    p' = { p with parts := part :: p.parts } := by
  unfold Progress.push at h
  split at h
  · cases h
  · cases h
    rfl

theorem setTerm_tidy (m : Mode) (elements : Charset) : (m.setTerm elements).Tidy := by
  unfold Mode.setTerm
  split
  · exact (Term.charSet_part elements).tidy
  · exact (Term.byteSet_part elements).tidy

theorem literal_tidy (m : Mode) (c : Char) (raw : Bool) : (m.literal c raw).Tidy := by
  unfold Mode.literal
  split
  · trivial
  · split
    · trivial
    · split
      · exact (Term.charSet_part _).tidy
      · split
        · exact (Term.byteSet_part _).tidy
        · trivial

theorem pushAtom_change {a : Atom} (h : p.pushAtom a = some p') : Change p p' := by
  cases a with
  | literal c raw =>
    rw [push_eq h]
    exact .pushed p.mode _ (literal_tidy p.mode c raw)
  | look condition =>
    rw [push_eq h]
    exact .pushed p.mode ⟨.look condition, 0, true⟩ trivial
  | set elements =>
    rw [push_eq h]
    exact .pushed p.mode _ (setTerm_tidy p.mode elements)

theorem openGroup_change {index : Option Nat} {mode : Mode} {names : List (Option (List Char))}
    (h : { p with names }.openGroup index mode = some p') : Change p p' := by
  unfold Progress.openGroup at h
  split at h
  · cases h
  · cases h
    exact .opened index mode names

theorem closeGroup_change (h : p.closeGroup = some p') : Change p p' := by
  unfold Progress.closeGroup at h
  split at h
  · cases h
  · rename_i level levels hl
    rw [push_eq h]
    refine .closed level levels _ hl fun ht => ?_
    split
    · trivial
    · exact ht

theorem repeatLast_change {least : Nat} {most : Option Nat} {greedy : Bool}
    (h : p.repeatLast least most greedy = some p') : Change p p' := by
  unfold Progress.repeatLast at h
  split at h
  · rename_i part parts hp
    split at h
    · rw [push_eq h]
      exact .repeated part parts _ hp fun ht => Term.iterated_tidy ht
    · cases h
  · cases h

/-- A move does one of these things, or fails. -/
theorem run_change (h : move.run p = some p') : Change p p' := by
  cases move with
  | atom a => exact pushAtom_change h
  | bracket elements height =>
    rw [push_eq h]
    exact .pushed p.mode _ (setTerm_tidy p.mode elements)
  | capture name =>
    simp only [Move.run, Progress.openCapture] at h
    split at h
    · cases h
    · exact openGroup_change h
  | enter mode => exact openGroup_change h
  | switch mode =>
    rw [push_eq h]
    exact .pushed mode ⟨.empty, 0, false⟩ trivial
  | close => exact closeGroup_change h
  | branch =>
    cases h
    exact .branched
  | repeated least most greedy => exact repeatLast_change h

theorem step_change {rest left : List Char} (h : step p rest = some (p', left)) :
    Change p p' := by
  obtain ⟨⟨move, next⟩, -, h⟩ := Option.bind_eq_some_iff.1 h
  obtain ⟨made, hm, h⟩ := Option.bind_eq_some_iff.1 h
  cases h
  exact run_change hm

theorem readAll_change : ∀ (fuel : Nat) {p : Progress} {rest : List Char},
    readAll fuel p rest = some q → Relation.ReflTransGen Change p q
  | 0, _, _, h => by cases h
  | fuel + 1, p, rest, h => by
    simp only [readAll] at h
    split at h
    · cases h
      exact .refl
    · obtain ⟨⟨next, left⟩, hstep, h⟩ := Option.bind_eq_some_iff.1 h
      exact .head (step_change hstep) (readAll_change fuel h)

/-! ## Terms -/

/-- All parts are tidy. -/
def TidyParts (parts : List Part) : Prop := ∀ part ∈ parts, part.term.Tidy

/-- All parts that have been read are tidy. -/
structure Tidied (p : Progress) : Prop where
  parts : TidyParts p.parts
  branches : TidyParts p.branches
  levels : ∀ level ∈ p.levels, TidyParts level.parts ∧ TidyParts level.branches

theorem TidyParts.cons {part : Part} {parts : List Part} (h : part.term.Tidy)
    (hp : TidyParts parts) : TidyParts (part :: parts) := by
  intro x hx
  rcases List.mem_cons.1 hx with rfl | hx
  · exact h
  · exact hp x hx

theorem TidyParts.terms {parts : List Part} (h : TidyParts parts) :
    ∀ t ∈ parts.reverse.map Part.term, t.Tidy := by
  intro t ht
  obtain ⟨part, hp, rfl⟩ := List.mem_map.1 ht
  exact h part (List.mem_reverse.1 hp)

theorem branch_tidy (h : Tidied p) : p.branch.term.Tidy := Term.concat_tidy h.parts.terms

/-- What is in the open group is a sequence, or a choice between several branches. -/
theorem body_cases (p : Progress) : p.branches = [] ∧ p.body = p.branch ∨
    2 ≤ (p.branch :: p.branches).length ∧
      p.body.term = .alternation ((p.branch :: p.branches).reverse.map Part.term) ∧
      p.body.height = combinedHeight (p.branch :: p.branches).reverse := by
  unfold Progress.body
  split
  · rename_i hb
    exact .inl ⟨hb, rfl⟩
  · rename_i hb
    refine .inr ⟨?_, rfl, rfl⟩
    have := List.length_pos_iff.2 hb
    rw [List.length_cons]
    omega

theorem body_tidy (h : Tidied p) : p.body.term.Tidy := by
  rcases body_cases p with ⟨-, he⟩ | ⟨hl, he, -⟩
  · rw [he]
    exact branch_tidy h
  · rw [he]
    exact Term.alternation_tidy (TidyParts.cons (branch_tidy h) h.branches).terms
      (by simpa using hl)

/-- The only part of an expression stands for the expression itself. -/
theorem concat_body (h : Tidied p) : Term.concat [p.body.term] = p.body.term := by
  rcases body_cases p with ⟨-, he⟩ | ⟨hl, he, -⟩
  · rw [he]
    exact Term.concat_concat h.parts.terms
  · rw [he]
    exact Term.concat_alternation (TidyParts.cons (branch_tidy h) h.branches).terms
      (by simpa using hl)

theorem Change.tidied (h : Change p p') (hp : Tidied p) : Tidied p' := by
  cases h with
  | pushed mode part tidy => exact ⟨.cons tidy hp.parts, hp.branches, hp.levels⟩
  | opened index mode names =>
    refine ⟨by simp [TidyParts], by simp [TidyParts], fun level hl => ?_⟩
    rcases List.mem_cons.1 hl with rfl | hl
    · exact ⟨hp.parts, hp.branches⟩
    · exact hp.levels level hl
  | closed level levels term open_ tidy =>
    have hl := hp.levels level (by simp [open_])
    exact ⟨.cons (tidy (body_tidy hp)) hl.1, hl.2, fun l hm => hp.levels l (by simp [open_, hm])⟩
  | branched =>
    exact ⟨by simp [TidyParts, Progress.nextBranch], .cons (branch_tidy hp) hp.branches, hp.levels⟩
  | repeated part parts term last tidy =>
    have hparts := hp.parts
    rw [last] at hparts
    exact ⟨.cons (tidy (hparts part (by simp))) fun x hx => hparts x (by simp [hx]), hp.branches,
      hp.levels⟩

theorem readAll_tidied {fuel : Nat} {rest : List Char} (h : readAll fuel p rest = some q)
    (hp : Tidied p) : Tidied q := by
  have hc := readAll_change fuel h
  clear h
  induction hc with
  | refl => exact hp
  | tail _ hc ih => exact hc.tidied ih

/-! ## Depth -/

/-- Nothing that has been read, put into the groups that are open around it, is deeper than `n`. -/
def Below (n : Nat) : List Level → List Part → List Part → Prop
  | [], parts, branches => ∀ part, part ∈ parts ∨ part ∈ branches → part.height ≤ n
  | level :: levels, parts, branches =>
    levels.length + 1 ≤ n ∧
      (∀ part, part ∈ parts ∨ part ∈ branches → part.height + (levels.length + 1) ≤ n) ∧
      Below n levels level.parts level.branches

section
variable {n : Nat} {levels : List Level} {parts branches : List Part}

theorem below_iff : Below n levels parts branches ↔ levels.length ≤ n ∧
    (∀ part, part ∈ parts ∨ part ∈ branches → part.height + levels.length ≤ n) ∧
    ∀ level more, levels = level :: more → Below n more level.parts level.branches := by
  cases levels with
  | nil => simp [Below]
  | cons level levels => simp [Below]

theorem le_foldl_height : ∀ (parts : List Part) (h : Nat),
    h ≤ parts.foldl (fun h p => max h p.height) h ∧
      ∀ part ∈ parts, part.height ≤ parts.foldl (fun h p => max h p.height) h
  | [], h => ⟨Nat.le_refl h, by simp⟩
  | first :: parts, h => by
    have ih := le_foldl_height parts (max h first.height)
    refine ⟨Nat.le_trans (Nat.le_max_left _ _) ih.1, fun part hp => ?_⟩
    rcases List.mem_cons.1 hp with rfl | hp
    · exact Nat.le_trans (Nat.le_max_right _ _) ih.1
    · exact ih.2 part hp

theorem le_combinedHeight {part : Part} (h : part ∈ parts) :
    part.height ≤ combinedHeight parts := by
  have := (le_foldl_height parts 0).2 part h
  simp only [combinedHeight]
  split <;> omega

theorem le_body {part : Part} (h : part ∈ p.parts ∨ part ∈ p.branches) :
    part.height ≤ p.body.height := by
  have hparts : ∀ part ∈ p.parts, part.height ≤ p.branch.height := fun _ hp => le_combinedHeight hp
  rcases body_cases p with ⟨hn, he⟩ | ⟨-, -, he⟩
  · rw [he]
    rw [hn] at h
    exact hparts part (h.resolve_right (by simp))
  · rw [he]
    rcases h with h | h
    · exact Nat.le_trans (hparts part h) (le_combinedHeight (by simp))
    · exact le_combinedHeight (by simp [h])

theorem Below.length_le (h : Below n levels parts branches) : levels.length ≤ n :=
  (below_iff.1 h).1

/-- What has been read may be replaced by something that is less deep. -/
theorem Below.mono {parts' branches' : List Part} (h : Below n levels parts' branches')
    (hle : ∀ part, part ∈ parts ∨ part ∈ branches →
      ∃ part', (part' ∈ parts' ∨ part' ∈ branches') ∧ part.height ≤ part'.height) :
    Below n levels parts branches := by
  obtain ⟨hl, hp, hr⟩ := below_iff.1 h
  refine below_iff.2 ⟨hl, fun part hm => ?_, hr⟩
  obtain ⟨part', hm', hh⟩ := hle part hm
  exact Nat.le_trans (Nat.add_le_add_right hh _) (hp part' hm')

/-- A move only makes what has been read deeper. -/
theorem Change.below (h : Change p p') (hb : Below n p'.levels p'.parts p'.branches) :
    Below n p.levels p.parts p.branches := by
  cases h with
  | pushed mode part tidy =>
    refine hb.mono fun x hx => ⟨x, ?_, Nat.le_refl _⟩
    exact hx.imp (List.mem_cons_of_mem part) id
  | opened index mode names => exact hb.2.2
  | closed level levels term open_ tidy =>
    have hd := (below_iff.1 hb).2.1 _ (.inl (List.mem_cons_self ..))
    dsimp only at hd
    rw [open_]
    refine ⟨by omega, fun part hp => ?_, hb.mono fun x hx => ⟨x, ?_, Nat.le_refl _⟩⟩
    · have := le_body hp
      omega
    · exact hx.imp (List.mem_cons_of_mem _) id
  | branched =>
    refine hb.mono fun x hx => ?_
    rcases hx with hx | hx
    · exact ⟨p.branch, .inr (List.mem_cons_self ..), le_combinedHeight hx⟩
    · exact ⟨x, .inr (List.mem_cons_of_mem _ hx), Nat.le_refl _⟩
  | repeated part parts term last tidy =>
    refine hb.mono fun x hx => ?_
    rcases hx with hx | hx
    · rw [last] at hx
      rcases List.mem_cons.1 hx with rfl | hx
      · exact ⟨_, .inl (List.mem_cons_self ..), Nat.le_succ _⟩
      · exact ⟨x, .inl (List.mem_cons_of_mem _ hx), Nat.le_refl _⟩
    · exact ⟨x, .inr hx, Nat.le_refl _⟩

end

/-- An expression is as deep as the groups that are open together in it. -/
theorem levels_le_height {fuel : Nat} {rest : List Char} (h : readAll fuel p rest = some q)
    (hq : q.levels = []) : p.levels.length ≤ q.body.height := by
  have hb : Below q.body.height q.levels q.parts q.branches := by
    rw [hq]
    exact fun part hp => le_body hp
  have hc := readAll_change fuel h
  clear h
  suffices Below q.body.height p.levels p.parts p.branches from this.length_le
  induction hc using Relation.ReflTransGen.head_induction_on with
  | refl => exact hb
  | head hc _ ih => exact hc.below ih

end PatternEngine.Expression
