import PatternEngine.Expression.Term
/-!
# Terms in normal form

The smart constructors keep terms tidy: no sequence begins with a sequence or with the empty term,
not even inside a choice. In a sequence made by `concat` no two literals follow each other either,
so taking such a term for the only part of another sequence changes nothing (`concat_concat`,
`concat_alternation`).
-/
namespace PatternEngine.Expression.Term

/-- The term is one part. -/
def IsPart (t : Term) : Prop := t.parts = [t]

/-- Sequences are flat, and in choices all branches are tidy. What is inside a group or a
repetition does not matter here. -/
def Tidy : Term → Prop
  | .seq head tail => IsPart head ∧ Tidy head ∧ Tidy tail
  | .choice first others => Tidy first ∧ Tidy others
  | _ => True

/-- A part of a flat sequence. -/
structure TidyPart (t : Term) : Prop where
  single : IsPart t
  tidy : Tidy t

theorem Tidy.of_mem_parts : ∀ {t : Term}, Tidy t → ∀ x ∈ t.parts, TidyPart x
  | .seq head tail, ⟨hs, hh, ht⟩, x, hx => by
    rcases List.mem_cons.1 hx with rfl | hx
    · exact ⟨hs, hh⟩
    · exact ht.of_mem_parts x hx
  | .empty, _, x, hx => by cases hx
  | .literal _, h, x, hx | .bytes _, h, x, hx | .chars _, h, x, hx | .look _, h, x, hx
  | .iterate .., h, x, hx | .group .., h, x, hx | .choice .., h, x, hx => by
    cases List.mem_singleton.1 hx
    exact ⟨rfl, h⟩

theorem Tidy.of_mem_branches : ∀ {t : Term}, Tidy t → ∀ b ∈ t.branches, Tidy b
  | .choice first others, ⟨hf, ho⟩, b, hb => by
    rcases List.mem_cons.1 hb with rfl | hb
    · exact hf
    · exact ho.of_mem_branches b hb
  | .empty, h, b, hb | .literal _, h, b, hb | .bytes _, h, b, hb | .chars _, h, b, hb
  | .look _, h, b, hb | .iterate .., h, b, hb | .group .., h, b, hb | .seq .., h, b, hb => by
    cases List.mem_singleton.1 hb
    exact h

theorem ofParts_tidy : ∀ {terms : List Term}, (∀ t ∈ terms, TidyPart t) → Tidy (ofParts terms)
  | [], _ => trivial
  | [t], h => (h t (by simp)).tidy
  | t :: u :: terms, h =>
    ⟨(h t (by simp)).single, (h t (by simp)).tidy,
      ofParts_tidy fun x hx => h x (List.mem_cons_of_mem t hx)⟩

theorem parts_ofParts : ∀ {terms : List Term}, (∀ t ∈ terms, TidyPart t) →
    (ofParts terms).parts = terms
  | [], _ => rfl
  | [t], h => (h t (by simp)).single
  | t :: u :: terms, h => by
    have ih := parts_ofParts fun x hx => h x (List.mem_cons_of_mem t hx)
    simp only [ofParts, parts, ih]

theorem ofBranches_tidy : ∀ {terms : List Term}, (∀ t ∈ terms, Tidy t) → Tidy (ofBranches terms)
  | [], _ => trivial
  | [t], h => h t (by simp)
  | t :: u :: terms, h =>
    ⟨h t (by simp), ofBranches_tidy fun x hx => h x (List.mem_cons_of_mem t hx)⟩

theorem consPart_tidy {t : Term} {rest : List Term} (ht : TidyPart t)
    (hrest : ∀ x ∈ rest, TidyPart x) : ∀ x ∈ consPart t rest, TidyPart x := by
  intro x hx
  unfold consPart at hx
  split at hx
  · rcases List.mem_cons.1 hx with rfl | hx
    · exact ⟨rfl, trivial⟩
    · exact hrest x (List.mem_cons_of_mem _ hx)
  · rcases List.mem_cons.1 hx with rfl | hx
    · exact ht
    · exact hrest x hx

/-! ## Sequences -/

/-- Whether a sequence begins with a literal. -/
def startsLiteral : List Term → Bool
  | .literal _ :: _ => true
  | _ => false

/-- No two literals follow each other. -/
def Merged : List Term → Prop
  | [] => True
  | t :: rest => (startsLiteral [t] = true → startsLiteral rest = false) ∧ Merged rest

theorem consPart_merged {t : Term} {rest : List Term} (h : Merged rest) :
    Merged (consPart t rest) := by
  unfold consPart
  split
  · exact ⟨fun _ => h.1 rfl, h.2⟩
  · rename_i hne
    refine ⟨fun ht => ?_, h⟩
    unfold startsLiteral at ht
    split at ht
    · rename_i a _ hl
      cases hl
      unfold startsLiteral
      split
      · rename_i b more
        exact absurd rfl (hne a b more rfl)
      · rfl
    · cases ht

theorem consPart_of_merged {t : Term} {rest : List Term} (h : Merged (t :: rest)) :
    consPart t rest = t :: rest := by
  unfold consPart
  split
  · cases h.1 rfl
  · rfl

/-- The literals of a sequence that is merged already stay as they are. -/
theorem foldr_consPart : ∀ {terms : List Term}, Merged terms → terms.foldr consPart [] = terms
  | [], _ => rfl
  | t :: rest, h => by rw [List.foldr_cons, foldr_consPart h.2, consPart_of_merged h]

theorem merged_foldr (terms : List Term) : Merged (terms.foldr consPart []) := by
  induction terms with
  | nil => trivial
  | cons t terms ih => exact consPart_merged ih

theorem foldr_tidy {terms : List Term} (h : ∀ t ∈ terms, TidyPart t) :
    ∀ x ∈ terms.foldr consPart [], TidyPart x := by
  induction terms with
  | nil => simp
  | cons t terms ih =>
    exact consPart_tidy (h t (by simp)) (ih fun x hx => h x (List.mem_cons_of_mem t hx))

theorem flatMap_parts_tidy {terms : List Term} (h : ∀ t ∈ terms, Tidy t) :
    ∀ x ∈ terms.flatMap parts, TidyPart x := by
  intro x hx
  obtain ⟨t, ht, hx⟩ := List.mem_flatMap.1 hx
  exact (h t ht).of_mem_parts x hx

theorem concat_tidy {terms : List Term} (h : ∀ t ∈ terms, Tidy t) : Tidy (concat terms) :=
  ofParts_tidy (foldr_tidy (flatMap_parts_tidy h))

/-- A sequence that is taken for the only part of another stays as it is. -/
theorem concat_concat {terms : List Term} (h : ∀ t ∈ terms, Tidy t) :
    concat [concat terms] = concat terms := by
  have hparts := parts_ofParts (foldr_tidy (flatMap_parts_tidy h))
  have hfold := foldr_consPart (merged_foldr (terms.flatMap parts))
  unfold concat at hparts ⊢
  rw [List.flatMap_cons, List.flatMap_nil, List.append_nil, hparts, hfold]

theorem concat_part {t : Term} (h : IsPart t) : concat [t] = t := by
  unfold concat
  rw [List.flatMap_cons, List.flatMap_nil, List.append_nil, h]
  cases t <;> rfl

/-! ## Choices -/

theorem byteSet_part (set : Charset) : TidyPart (byteSet set) := by
  unfold byteSet
  split <;> exact ⟨rfl, trivial⟩

theorem charSet_part (set : Charset) : TidyPart (charSet set) := by
  unfold charSet
  split
  · exact ⟨rfl, trivial⟩
  · split <;> exact ⟨rfl, trivial⟩

theorem asSet_part {terms : List Term} {t : Term} (h : asSet terms = some t) : TidyPart t := by
  unfold asSet at h
  split at h
  · cases h; exact charSet_part _
  · split at h
    · cases h; exact byteSet_part _
    · split at h
      · cases h; exact charSet_part _
      · split at h
        · cases h; exact byteSet_part _
        · cases h

theorem choose_tidy {terms : List Term} (h : ∀ t ∈ terms, Tidy t) : Tidy (choose terms) := by
  unfold choose
  split
  · trivial
  · exact h _ (by simp)
  · cases hs : asSet _ with
    | some t => exact (asSet_part hs).tidy
    | none => exact ofBranches_tidy h

theorem mem_commonPrefix : ∀ {as bs : List Term} {x : Term}, x ∈ commonPrefix as bs → x ∈ as
  | [], _, x, h => by simp [commonPrefix] at h
  | a :: as, [], x, h => by simp [commonPrefix] at h
  | a :: as, b :: bs, x, h => by
    unfold commonPrefix at h
    split at h
    · rcases List.mem_cons.1 h with rfl | h
      · simp
      · exact List.mem_cons_of_mem a (mem_commonPrefix h)
    · cases h

theorem foldl_commonPrefix {others : List Term} : ∀ {shared : List Term} {x : Term},
    x ∈ others.foldl (fun shared t => commonPrefix shared t.parts) shared → x ∈ shared := by
  induction others with
  | nil => exact fun h => h
  | cons t others ih => exact fun h => mem_commonPrefix (ih h)

/-- What all branches share is parts of the first of them. -/
theorem mem_sharedParts {first : Term} {others : List Term} {x : Term}
    (h : x ∈ sharedParts (first :: others)) : x ∈ first.parts := by
  simp only [sharedParts] at h
  split at h
  · exact foldl_commonPrefix h
  · cases h

theorem length_branches (t : Term) : 1 ≤ t.branches.length := by
  cases t <;> simp [branches]

/-- The three ways in which a choice between several branches is made. -/
theorem alternation_cases {terms : List Term} (h : ∀ t ∈ terms, Tidy t) (hl : 2 ≤ terms.length) :
    TidyPart (alternation terms) ∨
      ∃ rest, alternation terms = concat rest ∧ ∀ t ∈ rest, Tidy t := by
  have hflat : ∀ b ∈ terms.flatMap branches, Tidy b := by
    intro b hb
    obtain ⟨t, ht, hb⟩ := List.mem_flatMap.1 hb
    exact (h t ht).of_mem_branches b hb
  have hlen : 2 ≤ (terms.flatMap branches).length := by
    match terms, hl with
    | t :: u :: terms, _ =>
      have := length_branches t
      have := length_branches u
      simp only [List.flatMap_cons, List.length_append]
      omega
  unfold alternation
  dsimp only
  generalize terms.flatMap branches = flat at hflat hlen
  match flat, hlen with
  | first :: second :: others, _ =>
  dsimp only
  split
  · rename_i set hs
    exact .inl (asSet_part hs)
  · split
    · exact .inl ⟨rfl, ofBranches_tidy hflat⟩
    · refine .inr ⟨_, rfl, fun t ht => ?_⟩
      rcases List.mem_append.1 ht with ht | ht
      · exact ((hflat first (by simp)).of_mem_parts t (mem_sharedParts ht)).tidy
      · cases List.mem_singleton.1 ht
        refine choose_tidy fun b hb => ?_
        obtain ⟨u, hu, hb⟩ := List.mem_flatMap.1 hb
        obtain ⟨v, hv, rfl⟩ := List.mem_map.1 hu
        refine (concat_tidy fun x hx => ?_).of_mem_branches b hb
        exact ((hflat v hv).of_mem_parts x (List.mem_of_mem_drop hx)).tidy

theorem alternation_tidy {terms : List Term} (h : ∀ t ∈ terms, Tidy t) (hl : 2 ≤ terms.length) :
    Tidy (alternation terms) := by
  rcases alternation_cases h hl with ht | ⟨rest, he, ht⟩
  · exact ht.tidy
  · rw [he]
    exact concat_tidy ht

/-- A choice that is taken for the only part of a sequence stays as it is. -/
theorem concat_alternation {terms : List Term} (h : ∀ t ∈ terms, Tidy t) (hl : 2 ≤ terms.length) :
    concat [alternation terms] = alternation terms := by
  rcases alternation_cases h hl with ht | ⟨rest, he, ht⟩
  · exact concat_part ht.single
  · rw [he]
    exact concat_concat ht

theorem iterated_tidy {least : Nat} {most : Option Nat} {greedy : Bool} {body : Term}
    (h : Tidy body) : Tidy (iterated least most greedy body) := by
  unfold iterated
  generalize (if body.maxLength == some 0 then _ else _ : Nat × Option Nat) = counts
  obtain ⟨least, most⟩ := counts
  dsimp only
  split
  · trivial
  · split
    · exact h
    · trivial

end PatternEngine.Expression.Term
