import PatternEngine.Proofs.Importer.Naming
/-!
# Expanding is substitution

There is one way to cut a text at references so that no other reference stands anywhere in it
(`Cuts`). References do not overlap (`reference_within`), so reading from the left finds this cut
(`cut_unique`), and expanding puts groups in all of its places at once (`expand_substitutes`).
-/
namespace PatternEngine.Source

variable {name other before inner rest expression result : Bytes} {b : UInt8}
  {lookup : Bytes → Option Bytes}

/-! ## Templates -/

/-- A text with places for names: what stands in front of each place with the name that has it,
and what stands after the last. -/
structure Template where
  parts : List (Bytes × Bytes)
  last : Bytes

namespace Template

variable {t : Template} {put : Bytes → Bytes}

/-- The names that have a place, from left to right. -/
def names (t : Template) : List Bytes := t.parts.map Prod.snd

/-- The text that comes of putting something in the place of each name. -/
def fill (put : Bytes → Bytes) (t : Template) : Bytes :=
  t.parts.flatMap (fun part => part.1 ++ put part.2) ++ t.last

/-- A name has a place behind the bytes that stand before it when references fill the places. -/
def Holds (t : Template) (before name : Bytes) : Prop :=
  ∃ earlier front later, t.parts = earlier ++ (front, name) :: later ∧
    before = fill reference ⟨earlier, front⟩

/-- The first name that is not bound. -/
def FirstUnbound (lookup : Bytes → Option Bytes) (t : Template) (name : Bytes) : Prop :=
  lookup name = none ∧ ∃ earlier later, t.names = earlier ++ name :: later ∧
    ∀ other ∈ earlier, lookup other ≠ none

/-- One more byte in front of all. -/
def push (b : UInt8) : Template → Template
  | ⟨[], last⟩ => ⟨[], b :: last⟩
  | ⟨(front, name) :: parts, last⟩ => ⟨(b :: front, name) :: parts, last⟩

/-- One more place in front of all. -/
def refer (name : Bytes) (t : Template) : Template := ⟨([], name) :: t.parts, t.last⟩

/-- A template is made from the empty one by putting bytes and places in front. -/
theorem forms (t : Template) :
    t = ⟨[], []⟩ ∨ (∃ b u, t = push b u) ∨ ∃ name u, t = refer name u := by
  obtain ⟨_ | ⟨⟨_ | ⟨b, front⟩, name⟩, parts⟩, last⟩ := t
  · cases last with
    | nil => exact .inl rfl
    | cons b last => exact .inr (.inl ⟨b, ⟨[], last⟩, rfl⟩)
  · exact .inr (.inr ⟨name, ⟨parts, last⟩, rfl⟩)
  · exact .inr (.inl ⟨b, ⟨(front, name) :: parts, last⟩, rfl⟩)

@[simp] theorem names_push (b : UInt8) (t : Template) : (t.push b).names = t.names := by
  obtain ⟨_ | ⟨_, _⟩, _⟩ := t <;> rfl

@[simp] theorem names_refer (name : Bytes) (t : Template) :
    (t.refer name).names = name :: t.names := rfl

@[simp] theorem fill_push (put : Bytes → Bytes) (b : UInt8) (t : Template) :
    (t.push b).fill put = b :: t.fill put := by
  obtain ⟨_ | ⟨_, _⟩, _⟩ := t <;> rfl

@[simp] theorem fill_refer (put : Bytes → Bytes) (name : Bytes) (t : Template) :
    (t.refer name).fill put = put name ++ t.fill put := by
  simp [fill, refer]

theorem fill_congr {put' : Bytes → Bytes} (h : ∀ name ∈ t.names, put name = put' name) :
    t.fill put = t.fill put' := by
  unfold fill
  rw [List.flatMap_congr fun part hpart => ?_]
  rw [h part.2 (List.mem_map_of_mem hpart)]

theorem not_holds_text (last : Bytes) : ¬Holds ⟨[], last⟩ before name := by
  rintro ⟨earlier, front, later, hparts, -⟩
  simp at hparts

theorem holds_push :
    (t.push b).Holds before name ↔ ∃ more, before = b :: more ∧ t.Holds more name := by
  obtain ⟨_ | ⟨⟨first, other⟩, parts⟩, last⟩ := t
  · simp [push, not_holds_text]
  · constructor
    · rintro ⟨_ | ⟨part, earlier⟩, front, later, hparts, rfl⟩
      · cases hparts
        exact ⟨first, rfl, [], first, parts, rfl, rfl⟩
      · cases hparts
        exact ⟨_, rfl, (first, other) :: earlier, front, later, rfl, rfl⟩
    · rintro ⟨more, rfl, _ | ⟨part, earlier⟩, front, later, hparts, rfl⟩
      · cases hparts
        exact ⟨[], b :: first, parts, rfl, rfl⟩
      · cases hparts
        exact ⟨(b :: first, other) :: earlier, front, later, rfl, rfl⟩

theorem holds_refer : (t.refer other).Holds before name ↔
    before = [] ∧ name = other ∨ ∃ more, before = reference other ++ more ∧ t.Holds more name := by
  obtain ⟨parts, last⟩ := t
  constructor
  · rintro ⟨_ | ⟨part, earlier⟩, front, later, hparts, rfl⟩
    · cases hparts
      exact .inl ⟨rfl, rfl⟩
    · cases hparts
      exact .inr ⟨_, fill_refer reference other ⟨earlier, front⟩, earlier, front, later, rfl, rfl⟩
  · rintro (⟨rfl, rfl⟩ | ⟨more, rfl, earlier, front, later, hparts, rfl⟩)
    · exact ⟨[], [], parts, rfl, rfl⟩
    · cases hparts
      exact ⟨([], other) :: earlier, front, later, rfl,
        (fill_refer reference other ⟨earlier, front⟩).symm⟩

/-- The pieces of a template. -/
def fragments (t : Template) : List Fragment :=
  t.parts.flatMap (fun part => part.1.map .plain ++ [.reference part.2]) ++ t.last.map .plain

@[simp] theorem fragments_push (b : UInt8) (t : Template) :
    (t.push b).fragments = .plain b :: t.fragments := by
  obtain ⟨_ | ⟨_, _⟩, _⟩ := t <;> rfl

@[simp] theorem fragments_refer (name : Bytes) (t : Template) :
    (t.refer name).fragments = .reference name :: t.fragments := by
  simp [fragments, refer]

end Template

open Template

variable {t : Template}

/-! ## Where references stand -/

/-- A reference to a name stands in a text behind the bytes before it. -/
def Refers (bytes before name : Bytes) : Prop :=
  IsName name ∧ before ++ reference name <+: bytes

theorem not_refers_nil : ¬Refers [] before name := by
  rintro ⟨-, hpre⟩
  simp [reference] at hpre

theorem refers_start (hname : IsName name) (rest : Bytes) :
    Refers (reference name ++ rest) [] name :=
  ⟨hname, List.prefix_append _ _⟩

theorem refers_cons (h : Fragment.leading? (b :: rest) = none) :
    Refers (b :: rest) before name ↔ ∃ more, before = b :: more ∧ Refers rest more name := by
  constructor
  · rintro ⟨hname, hpre⟩
    cases before with
    | nil => cases h.symm.trans (leading_iff.2 ⟨hname, hpre⟩)
    | cons c more =>
      obtain ⟨rfl, hmore⟩ := List.cons_prefix_cons.1 hpre
      exact ⟨more, rfl, hname, hmore⟩
  · rintro ⟨more, rfl, hname, hpre⟩
    exact ⟨hname, List.cons_prefix_cons.2 ⟨rfl, hpre⟩⟩

/-- In a reference there is no dollar sign but the first. -/
theorem dollar_not_mem (hname : IsName name) : 36 ∉ 123 :: (name ++ [125]) := by
  intro hm
  have hin : 36 ∈ name := by simpa using hm
  exact absurd (hname.2 36 hin) (by decide)

/-- References do not overlap: one that starts in another starts where this starts or ends. -/
theorem reference_within (hother : IsName other) (hinner : before ++ inner = reference other)
    (hpre : reference name <+: inner ++ rest) : before = [] ∨ inner = [] := by
  match before, inner with
  | [], _ => exact .inl rfl
  | _, [] => exact .inr rfl
  | c :: before, d :: inner =>
    -- the second reference would have its dollar sign among the later bytes of the first
    obtain ⟨rfl, -⟩ := List.cons_prefix_cons.1 hpre
    obtain ⟨-, htail⟩ := List.cons.inj hinner
    have hdollar : 36 ∈ 123 :: (other ++ [125]) := by
      rw [← htail]
      exact List.mem_append_right _ List.mem_cons_self
    exact absurd hdollar (dollar_not_mem hother)

theorem refers_append (hother : IsName other) :
    Refers (reference other ++ rest) before name ↔ before = [] ∧ name = other ∨
      ∃ more, before = reference other ++ more ∧ Refers rest more name := by
  constructor
  · rintro ⟨hname, hpre⟩
    rcases List.prefix_or_prefix_of_prefix ((List.prefix_append _ _).trans hpre)
      (List.prefix_append (reference other) rest) with ⟨inner, hinner⟩ | ⟨more, rfl⟩
    · have hinside := hpre
      rw [← hinner, List.append_assoc, List.prefix_append_right_inj] at hinside
      rcases reference_within hother hinner hinside with rfl | rfl
      · cases (leading_reference hother rest).symm.trans (leading_iff.2 ⟨hname, hpre⟩)
        exact .inl ⟨rfl, rfl⟩
      · exact .inr ⟨[], by simpa using hinner, hname, hinside⟩
    · rw [List.append_assoc, List.prefix_append_right_inj] at hpre
      exact .inr ⟨more, rfl, hname, hpre⟩
  · rintro (⟨rfl, rfl⟩ | ⟨more, rfl, hname, hpre⟩)
    · exact refers_start hother rest
    · refine ⟨hname, ?_⟩
      rw [List.append_assoc, List.prefix_append_right_inj]
      exact hpre

/-! ## Reading from the left -/

/-- A text is empty, or starts with a reference, or with a byte that no reference starts at. -/
theorem reading_induction {P : Bytes → Prop} (nil : P [])
    (plain : ∀ b rest, Fragment.leading? (b :: rest) = none → P rest → P (b :: rest))
    (reference : ∀ name rest, IsName name → P rest → P (reference name ++ rest)) :
    ∀ bytes, P bytes
  | [] => nil
  | b :: rest => by
    cases hlead : Fragment.leading? (b :: rest) with
    | none => exact plain b rest hlead (reading_induction nil plain reference rest)
    | some name =>
      obtain ⟨hname, more, hmore⟩ := leading_iff.1 hlead
      have hlength : more.length < (b :: rest).length := by
        rw [← hmore, Source.reference, List.length_append, List.length_cons]
        omega
      rw [← hmore]
      exact reference name more hname (reading_induction nil plain reference more)
termination_by bytes => bytes.length
decreasing_by exacts [Nat.lt_succ_self _, hlength]

/-! ## The cut of a text -/

/-- The text is cut at references, and no other reference stands in it. -/
structure Cuts (expression : Bytes) (t : Template) : Prop where
  written : t.fill reference = expression
  names : ∀ name ∈ t.names, IsName name
  only : ∀ before name, Refers expression before name → t.Holds before name

theorem cuts_nil : Cuts [] t ↔ t = ⟨[], []⟩ := by
  constructor
  · rintro ⟨hwritten, -, -⟩
    rcases t.forms with rfl | ⟨b, u, rfl⟩ | ⟨name, u, rfl⟩
    · rfl
    · simp at hwritten
    · simp [reference] at hwritten
  · rintro rfl
    exact ⟨rfl, fun _ h => (List.not_mem_nil h).elim, fun _ _ h => (not_refers_nil h).elim⟩

theorem cuts_push (h : Fragment.leading? (b :: rest) = none) :
    Cuts (b :: rest) (t.push b) ↔ Cuts rest t := by
  constructor
  · rintro ⟨hwritten, hnames, honly⟩
    rw [fill_push] at hwritten
    refine ⟨(List.cons.inj hwritten).2, by simpa using hnames, fun before name hrefers => ?_⟩
    have hcons : Refers (b :: rest) (b :: before) name := (refers_cons h).2 ⟨before, rfl, hrefers⟩
    obtain ⟨more, hmore, hholds⟩ := holds_push.1 (honly _ name hcons)
    rwa [(List.cons.inj hmore).2]
  · rintro ⟨rfl, hnames, honly⟩
    refine ⟨fill_push _ _ _, by simpa using hnames, fun before name hrefers => ?_⟩
    obtain ⟨more, rfl, hmore⟩ := (refers_cons h).1 hrefers
    exact holds_push.2 ⟨more, rfl, honly more name hmore⟩

theorem cuts_refer (hname : IsName name) :
    Cuts (reference name ++ rest) (t.refer name) ↔ Cuts rest t := by
  constructor
  · rintro ⟨hwritten, hnames, honly⟩
    rw [fill_refer, List.append_cancel_left_eq] at hwritten
    refine ⟨hwritten, fun other hother => hnames other (List.mem_cons_of_mem _ hother), ?_⟩
    intro before other hrefers
    have happend : Refers (reference name ++ rest) (reference name ++ before) other :=
      (refers_append hname).2 (.inr ⟨before, rfl, hrefers⟩)
    rcases holds_refer.1 (honly _ other happend) with ⟨hempty, -⟩ | ⟨more, hmore, hholds⟩
    · simp [reference] at hempty
    · rwa [List.append_cancel_left hmore]
  · rintro ⟨rfl, hnames, honly⟩
    refine ⟨fill_refer _ _ _, by simpa using ⟨hname, hnames⟩, fun before other hrefers => ?_⟩
    rcases (refers_append hname).1 hrefers with hfirst | ⟨more, rfl, hmore⟩
    · exact holds_refer.2 (.inl hfirst)
    · exact holds_refer.2 (.inr ⟨more, rfl, honly more other hmore⟩)

/-- A byte that no reference starts at is text in every cut. -/
theorem cuts_cons (hlead : Fragment.leading? (b :: rest) = none) :
    Cuts (b :: rest) t ↔ ∃ u, t = push b u ∧ Cuts rest u := by
  constructor
  · intro h
    have hwritten := h.written
    rcases t.forms with rfl | ⟨c, u, rfl⟩ | ⟨name, u, rfl⟩
    · cases hwritten
    · rw [fill_push] at hwritten
      cases (List.cons.inj hwritten).1
      exact ⟨u, rfl, (cuts_push hlead).1 h⟩
    · -- a place in front would be a reference that the text starts with
      have hrefers := refers_start (h.names name List.mem_cons_self) (u.fill reference)
      rw [fill_refer] at hwritten
      rw [hwritten] at hrefers
      obtain ⟨more, hmore, -⟩ := (refers_cons hlead).1 hrefers
      cases hmore
  · rintro ⟨u, rfl, hu⟩
    exact (cuts_push hlead).2 hu

/-- A reference at the start of a text is a place in every cut. -/
theorem cuts_append (hname : IsName name) :
    Cuts (reference name ++ rest) t ↔ ∃ u, t = refer name u ∧ Cuts rest u := by
  constructor
  · intro h
    -- the reference has to be one of the places, and nothing stands in front of it
    have hholds := h.only [] name (refers_start hname rest)
    rcases t.forms with rfl | ⟨b, u, rfl⟩ | ⟨other, u, rfl⟩
    · exact absurd hholds (not_holds_text _)
    · obtain ⟨more, hmore, -⟩ := holds_push.1 hholds
      cases hmore
    · rcases holds_refer.1 hholds with ⟨-, rfl⟩ | ⟨more, hmore, -⟩
      · exact ⟨u, rfl, (cuts_refer hname).1 h⟩
      · simp [reference] at hmore
  · rintro ⟨u, rfl, hu⟩
    exact (cuts_refer hname).2 hu

/-- Reading from the left finds the only cut of a text. -/
theorem cut_unique (expression : Bytes) : ∃ t : Template,
    t.fragments = Fragment.ofExpression expression ∧
    ∀ other, Cuts expression other ↔ other = t := by
  induction expression using reading_induction with
  | nil => exact ⟨⟨[], []⟩, rfl, fun _ => cuts_nil⟩
  | plain b rest hlead ih =>
    obtain ⟨t, hfragments, ht⟩ := ih
    refine ⟨t.push b, by rw [fragments_push, hfragments, ofExpression_cons hlead], fun other => ?_⟩
    simp only [cuts_cons hlead, ht, exists_eq_right]
  | reference name rest hname ih =>
    obtain ⟨t, hfragments, ht⟩ := ih
    refine ⟨t.refer name, by rw [fragments_refer, hfragments, ofExpression_append hname], ?_⟩
    intro other
    simp only [cuts_append hname, ht, exists_eq_right]

/-! ## Expanding -/

/-- The first name that is not bound in the pieces is the first of the names. -/
theorem findSome_fragments (lookup : Bytes → Option Bytes) (t : Template) :
    t.fragments.findSome? (Fragment.unbound? lookup) =
      t.names.find? fun name => (lookup name).isNone := by
  obtain ⟨parts, last⟩ := t
  have hplain : ∀ bytes : Bytes,
      (bytes.map Fragment.plain).findSome? (Fragment.unbound? lookup) = none := by
    simp [Fragment.unbound?]
  unfold fragments names
  dsimp only
  rw [List.findSome?_append, hplain, Option.or_none]
  induction parts with
  | nil => rfl
  | cons part parts ih =>
    rw [List.flatMap_cons, List.append_assoc, List.findSome?_append, hplain, Option.none_or,
      List.findSome?_append, ih, List.map_cons, List.find?_cons]
    cases hpart : lookup part.2 <;> simp [Fragment.unbound?, hpart]

/-- The sources of the pieces fill the template. -/
theorem flatMap_fragments (lookup : Bytes → Option Bytes) (t : Template) :
    t.fragments.flatMap (Fragment.source lookup) =
      t.fill fun name => grouped ((lookup name).getD []) := by
  have hplain : ∀ bytes : Bytes,
      (bytes.map Fragment.plain).flatMap (Fragment.source lookup) = bytes := by
    simp [List.flatMap_map, Fragment.source]
  unfold fragments fill
  rw [List.flatMap_append, hplain, List.flatMap_assoc]
  simp only [List.flatMap_append, hplain]
  simp [Fragment.source, grouped]

theorem expand_fragments (h : t.fragments = Fragment.ofExpression expression)
    (lookup : Bytes → Option Bytes) :
    expand lookup expression = (t.names.find? fun name => (lookup name).isNone).elim
      (.ok (t.fill fun name => grouped ((lookup name).getD []))) .error := by
  unfold expand
  simp only [← h, findSome_fragments, flatMap_fragments]
  cases t.names.find? fun name => (lookup name).isNone <;> rfl

theorem firstUnbound_iff : t.FirstUnbound lookup name ↔
    (t.names.find? fun name => (lookup name).isNone) = some name := by
  rw [List.find?_eq_some_iff_append]
  simp [FirstUnbound, Option.isSome_iff_ne_none]

theorem expand_error_iff (h : t.fragments = Fragment.ofExpression expression) :
    expand lookup expression = .error name ↔ t.FirstUnbound lookup name := by
  rw [firstUnbound_iff, expand_fragments h]
  cases t.names.find? fun name => (lookup name).isNone <;> simp

theorem expand_ok_iff (h : t.fragments = Fragment.ofExpression expression) :
    expand lookup expression = .ok result ↔ ∃ source : Bytes → Bytes,
      (∀ name ∈ t.names, lookup name = some (source name)) ∧
      result = t.fill fun name => grouped (source name) := by
  rw [expand_fragments h]
  constructor
  · intro hresult
    refine ⟨fun name => (lookup name).getD [], ?_⟩
    cases hfind : t.names.find? fun name => (lookup name).isNone with
    | some name =>
      rw [hfind] at hresult
      cases hresult
    | none =>
      rw [hfind] at hresult
      cases hresult
      refine ⟨fun name hname => ?_, rfl⟩
      have hbound : lookup name ≠ none := by simpa using List.find?_eq_none.1 hfind name hname
      obtain ⟨source, hsource⟩ := Option.ne_none_iff_exists'.1 hbound
      simp [hsource]
  · rintro ⟨source, hsource, rfl⟩
    have hfind : (t.names.find? fun name => (lookup name).isNone) = none := by
      refine List.find?_eq_none.2 fun name hname => ?_
      simp [hsource name hname]
    have hfill : (t.fill fun name => grouped ((lookup name).getD [])) =
        t.fill fun name => grouped (source name) :=
      fill_congr fun name hname => by simp [hsource name hname]
    rw [hfind, Option.elim_none, hfill]

/-- A text is cut in one way only at references such that no other stands in it. Expanding fails
with the first name in the cut that is not bound. If all are bound, it puts their sources in groups
in the places of the references, all at once: the text between them stays as it is, and so do the
sources. -/
theorem expand_substitutes (lookup : Bytes → Option Bytes) (expression : Bytes) :
    ∃ t : Template, (∀ other, Cuts expression other ↔ other = t) ∧
      (∀ name, expand lookup expression = .error name ↔ t.FirstUnbound lookup name) ∧
      ∀ result, expand lookup expression = .ok result ↔ ∃ source : Bytes → Bytes,
        (∀ name ∈ t.names, lookup name = some (source name)) ∧
        result = t.fill fun name => grouped (source name) := by
  obtain ⟨t, hfragments, hcut⟩ := cut_unique expression
  exact ⟨t, hcut, fun _ => expand_error_iff hfragments, fun _ => expand_ok_iff hfragments⟩

/-- An opener that is not closed stays, and what looks like a reference in a source does too. -/
example : expand (fun name => if name = text "a" then some (text "${b}") else none)
    (text "$\x7b${a}") = .ok (text "$\x7b(?:${b})") := by decide

end PatternEngine.Source
