import PatternEngine.Proofs.Importer.Binding
/-!
# References and what they expand to

A text has a reference where it starts with one (`leading_iff`). A text without references
(`Plain`) is expanded to itself (`expand_plain`). A reference is expanded to a group, whose
parenthesis is no part of any reference, so that nothing that was put in can make a reference with
what stands around it: if the sources are plain, what they are put into becomes plain
(`plain_of_expand`).
-/
namespace PatternEngine.Source

variable {name source bytes rest : Bytes} {lookup : Bytes → Option Bytes}

/-- The expression that refers to a name. -/
def reference (name : Bytes) : Bytes := 36 :: 123 :: (name ++ [125])

/-- A source in a group of its own. -/
def grouped (source : Bytes) : Bytes := text "(?:" ++ source ++ text ")"

theorem grouped_append (source ys : Bytes) :
    grouped source ++ ys = 40 :: 63 :: 58 :: (source ++ 41 :: ys) := by
  unfold grouped
  rw [List.append_assoc, List.append_assoc]
  rfl

/-- What can stand between the braces of a reference. -/
def IsName (name : Bytes) : Prop := name ≠ [] ∧ ∀ b ∈ name, isNameByte b = true

theorem isName_of_isWord (h : isWord name = true) : IsName name := by
  refine ⟨isWord_ne h, ?_⟩
  intro b hb
  simp [isNameByte, isWord_all h b hb]

/-- A text starts with the reference that is found at its start. -/
theorem leading_iff : Fragment.leading? bytes = some name ↔
    IsName name ∧ reference name <+: bytes := by
  constructor
  · intro h
    unfold Fragment.leading? at h
    split at h
    · rename_i rest
      dsimp only at h
      split at h
      · rename_i hname
        cases h
        simp only [Bool.and_eq_true, Bool.not_eq_true', beq_iff_eq] at hname
        obtain ⟨hne, hbrace⟩ := hname
        obtain ⟨more, hmore⟩ : ∃ more, rest.dropWhile isNameByte = 0x7D :: more := by
          cases hd : rest.dropWhile isNameByte with
          | nil =>
            rw [hd] at hbrace
            cases hbrace
          | cons b more =>
            rw [hd] at hbrace
            cases hbrace
            exact ⟨more, rfl⟩
        refine ⟨⟨by simpa using hne, List.all_eq_true.1 List.all_takeWhile⟩, more, ?_⟩
        have hsplit := List.takeWhile_append_dropWhile (p := isNameByte) (l := rest)
        rw [hmore] at hsplit
        simp only [reference, List.cons_append, List.append_assoc, List.nil_append]
        rw [hsplit]
      · cases h
    · cases h
  · rintro ⟨⟨hne, hall⟩, more, rfl⟩
    obtain ⟨htake, hdrop⟩ := span_run hall (by decide : isNameByte 125 = false) more
    have hempty : name.isEmpty = false := by simpa using hne
    simp only [reference, List.cons_append, List.append_assoc, List.nil_append,
      Fragment.leading?, htake, hdrop, hempty]
    rfl

theorem leading_reference (hname : IsName name) (rest : Bytes) :
    Fragment.leading? (reference name ++ rest) = some name :=
  leading_iff.2 ⟨hname, List.prefix_append _ _⟩

/-- To skip bytes is to read what is left without them. -/
theorem scan_skip : ∀ (skip : Nat) (bytes : Bytes),
    Fragment.scan skip bytes = Fragment.ofExpression (bytes.drop skip)
  | 0, _ => rfl
  | _ + 1, [] => rfl
  | skip + 1, _ :: rest => scan_skip skip rest

theorem ofExpression_cons {b : UInt8} (h : Fragment.leading? (b :: rest) = none) :
    Fragment.ofExpression (b :: rest) = .plain b :: Fragment.ofExpression rest := by
  unfold Fragment.ofExpression
  rw [Fragment.scan, h]

theorem ofExpression_append (hname : IsName name) (rest : Bytes) :
    Fragment.ofExpression (reference name ++ rest) =
      .reference name :: Fragment.ofExpression rest := by
  have hlead := leading_reference hname rest
  have hdrop : (123 :: (name ++ [125]) ++ rest).drop (name.length + 2) = rest :=
    List.drop_left' (by simp)
  unfold reference at hlead ⊢
  rw [List.cons_append] at hlead ⊢
  rw [Fragment.ofExpression, Fragment.scan, hlead]
  dsimp only
  rw [scan_skip, hdrop]

theorem ofExpression_reference (hname : IsName name) :
    Fragment.ofExpression (reference name) = [.reference name] := by
  have h := ofExpression_append hname []
  rwa [List.append_nil] at h

/-- A reference is expanded to the source of its name in a group. -/
theorem expand_reference (hname : IsName name) (h : lookup name = some source) :
    expand lookup (reference name) = .ok (grouped source) := by
  unfold expand
  simp only [ofExpression_reference hname, List.findSome?_cons, List.findSome?_nil,
    Fragment.unbound?, h, Option.isNone_some, Bool.false_eq_true, if_false]
  simp [Fragment.source, h, grouped]

/-! ## Texts without references -/

/-- There is no reference in a text. -/
def Plain (bytes : Bytes) : Prop := ∀ name, IsName name → ¬reference name <:+: bytes

theorem plain_nil : Plain [] := by
  intro name _ hin
  cases List.infix_nil.1 hin

theorem Plain.tail {b : UInt8} (h : Plain (b :: rest)) : Plain rest := by
  intro name hname hin
  exact h name hname (hin.trans (List.infix_cons_iff.2 (.inr (List.infix_refl _))))

theorem Plain.leading (h : Plain bytes) : Fragment.leading? bytes = none := by
  cases hl : Fragment.leading? bytes with
  | none => rfl
  | some name =>
    obtain ⟨hname, hpre⟩ := leading_iff.1 hl
    exact absurd hpre.isInfix (h name hname)

theorem scan_plain : ∀ {bytes : Bytes}, Plain bytes →
    Fragment.scan 0 bytes = bytes.map .plain
  | [], _ => rfl
  | b :: rest, h => by
    rw [Fragment.scan, h.leading]
    dsimp only
    rw [scan_plain h.tail]
    rfl

/-- A text without references is expanded to itself. -/
theorem expand_plain (h : Plain bytes) (lookup : Bytes → Option Bytes) :
    expand lookup bytes = .ok bytes := by
  have hbound : (bytes.map Fragment.plain).findSome? (Fragment.unbound? lookup) = none := by
    simp [Fragment.unbound?]
  have hsource : (bytes.map Fragment.plain).flatMap (Fragment.source lookup) = bytes := by
    simp [List.flatMap_map, Fragment.source]
  unfold expand
  simp only [Fragment.ofExpression, scan_plain h, hbound, hsource]

/-! ## References across a seam -/

/-- A string in a text around a byte that is none of its own is on one side of it. -/
theorem infix_around {xs ys zs : Bytes} {c : UInt8} (hc : c ∉ zs) (h : zs <:+: xs ++ c :: ys) :
    zs <:+: xs ∨ zs <:+: ys := by
  obtain ⟨before, after, h⟩ := h
  rcases List.append_eq_append_iff.1 h with ⟨more, rfl, -⟩ | ⟨more, hfront, hback⟩
  · exact .inl ⟨before, more, rfl⟩
  · cases more with
    | nil => exact .inl ⟨before, [], by simpa using hfront⟩
    | cons d more =>
      cases (List.cons.inj hback).1
      rcases List.append_eq_append_iff.1 hfront with ⟨inner, rfl, rfl⟩ | ⟨inner, rfl, hinner⟩
      · simp at hc
      · cases inner with
        | nil =>
          rw [List.nil_append] at hinner
          simp [← hinner] at hc
        | cons d inner =>
          obtain ⟨-, rfl⟩ := List.cons.inj hinner
          exact .inr ⟨inner, after, (List.cons.inj hback).2.symm⟩

/-- A byte that is no part of any reference. -/
def Breaks (c : UInt8) : Prop := c ≠ 36 ∧ c ≠ 123 ∧ c ≠ 125 ∧ isNameByte c = false

theorem Breaks.not_mem {c : UInt8} (h : Breaks c) (hname : IsName name) : c ∉ reference name := by
  obtain ⟨hdollar, hopen, hclose, hword⟩ := h
  simp only [reference, List.mem_cons, List.mem_append, List.not_mem_nil, or_false, not_or]
  refine ⟨hdollar, hopen, ?_, hclose⟩
  intro hm
  rw [hname.2 c hm] at hword
  cases hword

theorem Plain.around {xs ys : Bytes} {c : UInt8} (hc : Breaks c) (hx : Plain xs) (hy : Plain ys) :
    Plain (xs ++ c :: ys) := by
  intro name hname hin
  rcases infix_around (hc.not_mem hname) hin with hin | hin
  · exact hx name hname hin
  · exact hy name hname hin

/-- A plain source in a group makes no reference with what follows. -/
theorem Plain.grouped {ys : Bytes} (hs : Plain source) (hy : Plain ys) :
    Plain (grouped source ++ ys) := by
  have hbody : Plain (source ++ 41 :: ys) := hs.around (by unfold Breaks; decide) hy
  have hopen : Plain (58 :: (source ++ 41 :: ys)) :=
    plain_nil.around (by unfold Breaks; decide) hbody
  have hmark : Plain (63 :: 58 :: (source ++ 41 :: ys)) :=
    plain_nil.around (by unfold Breaks; decide) hopen
  rw [grouped_append]
  exact plain_nil.around (by unfold Breaks; decide) hmark

/-! ## Expanding -/

/-- What is put together from the pieces of a text. -/
def expansion (lookup : Bytes → Option Bytes) (skip : Nat) (bytes : Bytes) : Bytes :=
  (Fragment.scan skip bytes).flatMap (Fragment.source lookup)

theorem expansion_skip (skip : Nat) (b : UInt8) (rest : Bytes) :
    expansion lookup (skip + 1) (b :: rest) = expansion lookup skip rest := rfl

theorem expansion_reference {b : UInt8} (h : Fragment.leading? (b :: rest) = some name) :
    expansion lookup 0 (b :: rest) =
      grouped ((lookup name).getD []) ++ expansion lookup (name.length + 2) rest := by
  unfold expansion
  rw [Fragment.scan, h]
  rfl

theorem expansion_plain {b : UInt8} (h : Fragment.leading? (b :: rest) = none) :
    expansion lookup 0 (b :: rest) = b :: expansion lookup 0 rest := by
  unfold expansion
  rw [Fragment.scan, h]
  rfl

/-- Up to the first parenthesis nothing has been put in. -/
theorem prefix_of_expansion : ∀ {xs bytes : Bytes}, 40 ∉ xs →
    xs <+: expansion lookup 0 bytes → xs <+: bytes
  | [], _, _, _ => List.nil_prefix
  | x :: xs, [], _, h => h
  | x :: xs, b :: rest, hx, h => by
    cases hl : Fragment.leading? (b :: rest) with
    | some name =>
      rw [expansion_reference hl, grouped_append] at h
      obtain ⟨rfl, -⟩ := List.cons_prefix_cons.1 h
      simp at hx
    | none =>
      rw [expansion_plain hl] at h
      obtain ⟨rfl, hrest⟩ := List.cons_prefix_cons.1 h
      have hxs : 40 ∉ xs := fun hm => hx (List.mem_cons_of_mem _ hm)
      exact List.cons_prefix_cons.2 ⟨rfl, prefix_of_expansion hxs hrest⟩

/-- If nothing that is put in has a reference, there is none afterwards. The induction is on the
text, for any number of bytes to skip. -/
theorem plain_expansion (hlookup : ∀ name source, lookup name = some source → Plain source) :
    ∀ (skip : Nat) (bytes : Bytes), Plain (expansion lookup skip bytes)
  | skip, [] => by
    cases skip <;> exact plain_nil
  | skip + 1, b :: rest => by
    rw [expansion_skip]
    exact plain_expansion hlookup skip rest
  | 0, b :: rest => by
    cases hl : Fragment.leading? (b :: rest) with
    | some name =>
      have hsource : Plain ((lookup name).getD []) := by
        cases hs : lookup name with
        | none => exact plain_nil
        | some source => exact hlookup name source hs
      rw [expansion_reference hl]
      exact hsource.grouped (plain_expansion hlookup _ rest)
    | none =>
      have hrest := plain_expansion hlookup 0 rest
      rw [expansion_plain hl]
      intro name hname hin
      rcases List.infix_cons_iff.1 hin with hpre | hin
      · have hopen : 40 ∉ reference name := Breaks.not_mem (by unfold Breaks; decide) hname
        rw [← expansion_plain hl] at hpre
        have hlead := leading_iff.2 ⟨hname, prefix_of_expansion hopen hpre⟩
        rw [hl] at hlead
        cases hlead
      · exact hrest name hname hin

theorem expand_eq_ok (h : expand lookup bytes = .ok source) :
    source = expansion lookup 0 bytes := by
  unfold expand at h
  dsimp only at h
  split at h
  · cases h
  · cases h
    rfl

/-- What a text is expanded to has no reference if none of the bound sources has one. -/
theorem plain_of_expand (hlookup : ∀ name source, lookup name = some source → Plain source)
    (h : expand lookup bytes = .ok source) : Plain source := by
  rw [expand_eq_ok h]
  exact plain_expansion hlookup 0 bytes

theorem not_blank_expansion : ∀ {bytes : Bytes}, bytes.all isBlank = false →
    (expansion lookup 0 bytes).all isBlank = false
  | [], h => h
  | b :: rest, h => by
    cases hl : Fragment.leading? (b :: rest) with
    | some name =>
      rw [expansion_reference hl]
      rfl
    | none =>
      rw [expansion_plain hl]
      rw [List.all_cons, Bool.and_eq_false_iff] at h ⊢
      rcases h with h | h
      · exact .inl h
      · exact .inr (not_blank_expansion h)

/-- What is not blank is not blank after it has been expanded. -/
theorem not_blank_of_expand (hblank : bytes.all isBlank = false)
    (h : expand lookup bytes = .ok source) : source.all isBlank = false := by
  rw [expand_eq_ok h]
  exact not_blank_expansion hblank

end PatternEngine.Source
