import PatternEngine.Proofs.Json.Records
/-!
# Reading documents of any form

The readers so far know what they want to see. Here a document of any form is read (`parse`), with
whole numbers only; of two fields with one name the later is kept, and the fields are put in order.
What has been written is read back exactly (`parse_render`) if it is plain: its texts are valid, its
numbers are whole, and its fields stand in order.
-/
namespace PatternEngine.Json

open PatternEngine.Text.Utf8

namespace Reader

/-- Reads a natural number. -/
def natural : Reader Nat := do
  let ds ← digits
  if ds.isEmpty then throw (if (← peek).isNone then .ending else .grammar)
  if 1 < ds.length && ds.head? == some 48 then throw .grammar
  match ← peek with
  | some 0x2E | some 0x65 | some 0x45 => throw .form
  | _ => return valueOf ds

/-- Reads a whole number. -/
def whole : Reader Json := do
  match ← peek with
  | some 0x2D => do eat; return .int (-(← natural))
  | _ => return .int (← natural)

/-- Reads the fields of an object after its opening brace. -/
def members (value : Reader Json) : Nat → Bool → Reader (List (Bytes × Json))
  | 0, _ => throw .ending
  | fuel + 1, first => do
    if ← moreFields first then
      let name ← string
      colon
      let document ← value
      return (name, document) :: (← members value fuel false)
    else return []

/-- Reads a document of any form, in which this many documents may be nested in each other. -/
def document : Nat → Reader Json
  | 0 => throw .ending
  | depth + 1 => do
    match ← peekPast with
    | none => throw .ending
    | some 0x6E => do eat; word (text "ull"); return .null
    | some 0x74 => do eat; word (text "rue"); return .bool true
    | some 0x66 => do eat; word (text "alse"); return .bool false
    | some 0x22 => do eat; return .str (← string)
    | some 0x5B => do
      eat
      let found ← items (document depth) ((← get).length + 1) true
      closeArray
      return .array found
    | some 0x7B => do
      eat
      let found ← members (document depth) ((← get).length + 1) true
      eat
      return .ofFields found
    | some _ => whole

end Reader

/-- Reads a text that is one document. -/
def parse (source : Bytes) : Except Malformation Json :=
  Reader.readAll (Reader.document (source.length + 1)) source

/-- A document that is read back as it is. -/
inductive Plain : Json → Prop where
  | null : Plain .null
  | bool (value : Bool) : Plain (.bool value)
  | int (value : Int) : Plain (.int value)
  | str {value : Bytes} (valid : isValid value = true) : Plain (.str value)
  | array {items : List Json} (items_plain : ∀ item ∈ items, Plain item) : Plain (.array items)
  | object {fields : List (Bytes × Json)} (names_valid : ∀ field ∈ fields, isValid field.1 = true)
      (values_plain : ∀ field ∈ fields, Plain field.2)
      (ordered : ofFields fields = .object fields) : Plain (.object fields)

namespace Reader

variable {d : Json} {rest : Bytes}

/-! ## Numbers -/

theorem natural_run {n : Nat} (hrest : Ended rest) :
    natural.run (Bytes.ofNat n ++ rest) = .ok (n, rest) := by
  obtain ⟨b, ds, hds, -⟩ := ofNat_cons n
  have hdigits : digits.run (Bytes.ofNat n ++ rest) = .ok (Bytes.ofNat n, rest) :=
    digits_run isDigit_ofNat hrest
  have hsome : (Bytes.ofNat n).isEmpty = false := by
    rw [hds]
    rfl
  unfold natural
  rw [run_bind_ok hdigits]
  simp only [hsome, no_leading_zero]
  obtain rfl | ⟨tail, rfl | rfl | rfl⟩ := hrest
  all_goals
    simp only [Bool.false_eq_true, if_false]
    rw [run_bind_ok (peek_run _)]
    simp only [valueOf_ofNat]
    rfl

/-- A whole number is read back up to what ends it. -/
theorem whole_run (n : Int) (hrest : Ended rest) :
    whole.run (Bytes.ofInt n ++ rest) = .ok (.int n, rest) := by
  cases n with
  | ofNat n =>
    obtain ⟨b, ds, hds, hdigit⟩ := ofNat_cons n
    have hpeek : peek.run (Bytes.ofNat n ++ rest) = .ok (some b, Bytes.ofNat n ++ rest) := by
      rw [peek_run, hds]
      rfl
    unfold whole Bytes.ofInt
    rw [run_bind_ok hpeek]
    split
    · rename_i hminus
      rw [Option.some.inj hminus] at hdigit
      cases hdigit
    · rw [run_bind_ok (natural_run hrest)]
      rfl
  | negSucc n =>
    unfold whole Bytes.ofInt
    rw [List.cons_append, run_bind_ok (peek_run _)]
    refine (run_bind_ok (eat_cons _ _)).trans ?_
    rw [run_bind_ok (natural_run hrest)]
    rfl

/-- A number starts with a sign or a digit. -/
theorem ofInt_cons (n : Int) : ∃ b ds, Bytes.ofInt n = b :: ds ∧ (b = 0x2D ∨ isDigit b = true) := by
  cases n with
  | ofNat n =>
    obtain ⟨b, ds, hds, hdigit⟩ := ofNat_cons n
    exact ⟨b, ds, hds, .inr hdigit⟩
  | negSucc n => exact ⟨0x2D, Bytes.ofNat (n + 1), rfl, .inl rfl⟩

theorem isBlank_number {b : UInt8} (hb : b = 0x2D ∨ isDigit b = true) : isBlank b = false := by
  rcases hb with rfl | hdigit
  · rfl
  · exact isBlank_digit hdigit

/-! ## Objects -/

/-- The fields of an object are read back one by one. -/
theorem members_run {value : Reader Json} {entries : List (Bytes × Json)} (rest : Bytes)
    (hnames : ∀ entry ∈ entries, isValid entry.1 = true)
    (hvalues : ∀ entry ∈ entries, ReadsBack value entry.2 entry.2) :
    ∀ (fuel : Nat) (first : Bool), entries.length < fuel →
      (members value fuel first).run (fieldsFrom first entries ++ rest) =
        .ok (entries, 0x7D :: rest) := by
  induction entries with
  | nil =>
    intro fuel first hfuel
    have hend : fieldsFrom first [] ++ rest = 0x7D :: rest := by cases first <;> rfl
    cases fuel with
    | zero => simp at hfuel
    | succ fuel =>
      rw [members, hend, run_bind_ok (moreFields_done _ _)]
      rfl
  | cons entry entries ih =>
    intro fuel first hfuel
    cases fuel with
    | zero => simp at hfuel
    | succ fuel =>
      have hlater := ih (fun e he => hnames e (List.mem_cons_of_mem _ he))
        (fun e he => hvalues e (List.mem_cons_of_mem _ he)) fuel false (by simpa using hfuel)
      have hname := hnames entry List.mem_cons_self
      have hvalue := hvalues entry List.mem_cons_self _ (ended_fieldsFrom entries rest)
      rw [members, run_bind_ok (moreFields_run first entry entries rest)]
      simp only [if_true]
      rw [run_bind_ok (string_run hname), run_bind_ok (colon_run _), run_bind_ok hvalue,
        run_bind_ok hlater]
      rfl

/-! ## Documents -/

theorem length_lt_items {item : Json} {items : List Json} (hm : item ∈ items) :
    item.render.length < (renderItems items).length := by
  induction items with
  | nil => cases hm
  | cons other items ih =>
    rw [renderItems_cons, List.length_append]
    rcases List.mem_cons.1 hm with rfl | hm
    · have hclose : 0 < (itemsFrom false items).length := by
        cases items <;> simp [itemsFrom, renderItems]
      omega
    · have hlater := ih hm
      cases items with
      | nil => cases hm
      | cons next items =>
        rw [itemsFrom, List.length_cons]
        omega

theorem length_lt_fields {field : Bytes × Json} {fields : List (Bytes × Json)}
    (hm : field ∈ fields) : field.2.render.length < (renderFields fields).length := by
  induction fields with
  | nil => cases hm
  | cons other fields ih =>
    rw [renderFields_cons, List.length_append, List.length_cons, List.length_append]
    rcases List.mem_cons.1 hm with rfl | hm
    · omega
    · have hlater := ih hm
      cases fields with
      | nil => cases hm
      | cons next fields =>
        rw [fieldsFrom, List.length_cons]
        omega

theorem opens_plain (h : Plain d) : Opens d := by
  cases h with
  | null => exact ⟨_, _, rfl, rfl, by decide⟩
  | bool value => cases value <;> exact ⟨_, _, rfl, rfl, by decide⟩
  | int n =>
    obtain ⟨b, ds, hds, hb⟩ := ofInt_cons n
    refine ⟨b, ds, by rw [render, hds], isBlank_number hb, ?_⟩
    rintro rfl
    rcases hb with hb | hb <;> cases hb
  | @str s => exact ⟨0x22, s.flatMap Json.escape ++ [0x22], by rw [render]; rfl, rfl, by decide⟩
  | @array items => exact ⟨0x5B, renderItems items, by rw [render], rfl, by decide⟩
  | object => exact opens_object _

/-- A document that starts with a sign or a digit is a number. -/
theorem document_number {b : UInt8} {depth : Nat} (hb : b = 0x2D ∨ isDigit b = true) :
    (document (depth + 1)).run (b :: rest) = whole.run (b :: rest) := by
  rw [document, run_bind_ok (peekPast_cons _ (isBlank_number hb))]
  -- no sign and no digit is a byte that starts another kind of document
  split <;> first
    | rfl
    | (rename_i h
       cases h <;> exact absurd hb (by decide))

theorem room_of_length {depth : Nat} (h : Plain d) (hdepth : d.render.length ≤ depth) :
    ∃ less, depth = less + 1 := by
  obtain ⟨b, tail, hrender, -⟩ := opens_plain h
  rw [hrender, List.length_cons] at hdepth
  exact ⟨depth - 1, by omega⟩

/-- What is written of a plain document is read back. Every document that is nested in it is
shorter, so there is room for reading it. -/
theorem document_run (h : Plain d) : ∀ depth, d.render.length ≤ depth →
    ReadsBack (document depth) d d := by
  induction h with
  | null =>
    intro depth hdepth rest _
    obtain ⟨depth, rfl⟩ := room_of_length .null hdepth
    rfl
  | bool value =>
    intro depth hdepth rest _
    obtain ⟨depth, rfl⟩ := room_of_length (.bool value) hdepth
    cases value <;> rfl
  | int n =>
    intro depth hdepth rest hrest
    obtain ⟨depth, rfl⟩ := room_of_length (.int n) hdepth
    obtain ⟨b, ds, hds, hb⟩ := ofInt_cons n
    rw [← whole_run n hrest, render, hds, List.cons_append]
    exact document_number hb
  | @str s valid =>
    intro depth hdepth rest _
    obtain ⟨depth, rfl⟩ := room_of_length (.str valid) hdepth
    rw [render, quote_append, document, run_bind_ok (peekPast_cons _ rfl)]
    refine (run_bind_ok (eat_cons _ _)).trans ?_
    rw [run_bind_ok (string_run valid)]
    rfl
  | @array items items_plain ih =>
    intro depth hdepth rest _
    obtain ⟨depth, rfl⟩ := room_of_length (.array items_plain) hdepth
    have hitems : List.Forall₂ (ReadsItem (document depth)) items items := by
      rw [List.forall₂_same]
      intro item hm
      have hshorter := length_lt_items hm
      rw [render, List.length_cons] at hdepth
      exact ⟨opens_plain (items_plain item hm), ih item hm depth (by omega)⟩
    rw [render, List.cons_append, document, run_bind_ok (peekPast_cons _ rfl)]
    refine (run_bind_ok (eat_cons _ _)).trans ?_
    rw [run_bind_ok (run_get _), run_bind_ok (allItems_run rest hitems),
      run_bind_ok (closeArray_run rest)]
    rfl
  | @object fields names_valid values_plain ordered ih =>
    intro depth hdepth rest _
    obtain ⟨depth, rfl⟩ := room_of_length (.object names_valid values_plain ordered) hdepth
    have hlength := length_lt_renderFields fields
    have hfirst : renderFields fields = fieldsFrom true fields := by cases fields <;> rfl
    have hvalues : ∀ field ∈ fields, ReadsBack (document depth) field.2 field.2 := by
      intro field hm
      have hshorter := length_lt_fields hm
      rw [render, List.length_cons] at hdepth
      exact ih field hm depth (by omega)
    have hmembers := members_run rest names_valid hvalues ((renderFields fields ++ rest).length + 1)
      true (by rw [List.length_append]; omega)
    rw [← hfirst] at hmembers
    rw [render, List.cons_append, document, run_bind_ok (peekPast_cons _ rfl)]
    refine (run_bind_ok (eat_cons _ _)).trans ?_
    rw [run_bind_ok (run_get _), run_bind_ok hmembers, run_bind_ok (eat_cons _ _), ordered]
    rfl

end Reader

/-- A plain document is what is read of its text. -/
theorem parse_render {d : Json} (h : Plain d) : parse d.render = .ok d := by
  have hread := Reader.document_run h (d.render.length + 1) (Nat.le_succ _) [] (.inl rfl)
  rw [List.append_nil] at hread
  exact Reader.readAll_run hread

end PatternEngine.Json
