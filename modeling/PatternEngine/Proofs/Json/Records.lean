import Mathlib.Data.List.Forall2
import PatternEngine.Proofs.Json.Strings
/-!
# Reading back records and arrays

An object that has been written is read back field by field: what is read is what each value is
read back as, and a text under a name that nobody asked for is passed over (`record_run`). An
array is read back item by item (`array_run`).
-/
namespace PatternEngine.Json.Reader

open PatternEngine.Text.Utf8

variable {α : Type}

/-- A value that is read back from its document, whatever ends it. -/
def ReadsBack (value : Reader α) (document : Json) (a : α) : Prop :=
  ∀ rest, Ended rest → value.run (document.render ++ rest) = .ok (a, rest)

/-! ## Values -/

theorem readsBack_text {s : Bytes} (h : isValid s = true) : ReadsBack textValue (.str s) s :=
  fun _ _ => textValue_run h

theorem readsBack_natural {n : Nat} (h : n ≤ maxNatural) :
    ReadsBack naturalValue (.int n) n :=
  fun _ hrest => naturalValue_run h hrest

theorem ReadsBack.map {β : Type} {value : Reader α} {document : Json} {a : α} (f : α → β)
    (h : ReadsBack value document a) : ReadsBack (f <$> value) document (f a) := by
  intro rest hrest
  rw [StateT.run_map, h rest hrest]
  rfl

/-- A name is read as what it stands for. -/
theorem readsBack_choice {ofName? : Bytes → Option α} {name : Bytes} {a : α}
    (hname : isValid name = true) (ha : ofName? name = some a) :
    ReadsBack (choice ofName?) (.str name) a := by
  intro rest _
  unfold choice
  rw [render, quote_append, run_bind_ok (peekPast_cons _ rfl)]
  refine (run_bind_ok (eat_cons _ _)).trans ?_
  rw [run_bind_ok (string_run hname)]
  simp only [ha]
  rfl

/-- What is there is read as a value that may be missing. -/
theorem ReadsBack.optional {value : Reader α} {document : Json} {a : α} {b : UInt8} {tail : Bytes}
    (hdocument : document.render = b :: tail) (hblank : isBlank b = false) (hb : b ≠ 0x6E)
    (h : ReadsBack value document a) : ReadsBack (optional value) document (some a) := by
  intro rest hrest
  have hpeek : peekPast.run (document.render ++ rest) =
      .ok (some b, document.render ++ rest) := by
    rw [hdocument]
    exact peekPast_cons _ hblank
  unfold Reader.optional
  rw [run_bind_ok hpeek]
  split
  · rename_i hn
    exact absurd (Option.some.inj hn) hb
  · rw [run_bind_ok (h rest hrest)]
    rfl

/-- A text that nobody asked for is passed over. -/
theorem skipValue_text (s rest : Bytes) : skipValue.run (quote s ++ rest) = .ok ((), rest) := by
  unfold skipValue
  rw [run_bind_ok (run_get _), skipValues, quote_append, run_bind_ok (peekPast_cons _ rfl)]
  refine (run_bind_ok (eat_cons _ _)).trans ?_
  exact run_bind_ok (skipString_run s)

/-! ## Objects -/

/-- How a field of an object is read: under its name, or not at all. -/
inductive Reads (fields : List (Field α)) : Bytes × Json → Option (Bytes × α) → Prop where
  | known {name : Bytes} {document : Json} {field : Field α} {a : α}
      (hname : isValid name = true) (hfield : fields.find? (·.name == name) = some field)
      (hvalue : ReadsBack field.value document a) :
      Reads fields (name, document) (some (name, a))
  | unknown {name s : Bytes} (hname : isValid name = true)
      (hfield : fields.find? (·.name == name) = none) : Reads fields (name, .str s) none

/-- The fields of an object with the brace that closes it: from the first one on, or from a later
one on. -/
def fieldsFrom : Bool → List (Bytes × Json) → Bytes
  | false, entry :: entries => 0x2C :: renderFields (entry :: entries)
  | _, entries => renderFields entries

theorem renderFields_cons (name : Bytes) (document : Json) (entries : List (Bytes × Json)) :
    renderFields ((name, document) :: entries) =
      quote name ++ 0x3A :: (document.render ++ fieldsFrom false entries) := by
  cases entries <;> simp [renderFields, fieldsFrom]

theorem ended_fieldsFrom (entries : List (Bytes × Json)) (rest : Bytes) :
    Ended (fieldsFrom false entries ++ rest) := by
  cases entries with
  | nil => exact .inr ⟨rest, .inr (.inl rfl)⟩
  | cons entry entries => exact .inr ⟨renderFields (entry :: entries) ++ rest, .inl rfl⟩

theorem moreFields_done (first : Bool) (rest : Bytes) :
    (moreFields first).run (0x7D :: rest) = .ok (false, 0x7D :: rest) := by
  rw [moreFields, run_bind_ok (peekPast_cons _ rfl)]
  rfl

theorem moreFields_run (first : Bool) (entry : Bytes × Json) (entries : List (Bytes × Json))
    (rest : Bytes) :
    (moreFields first).run (fieldsFrom first (entry :: entries) ++ rest) =
      .ok (true, entry.1.flatMap Json.escape ++
        0x22 :: 0x3A :: (entry.2.render ++ (fieldsFrom false entries ++ rest))) := by
  have hrender : renderFields (entry :: entries) ++ rest =
      0x22 :: (entry.1.flatMap Json.escape ++
        0x22 :: 0x3A :: (entry.2.render ++ (fieldsFrom false entries ++ rest))) := by
    rw [renderFields_cons, List.append_assoc, quote_append]
    simp
  cases first with
  | true =>
    rw [fieldsFrom, hrender, moreFields, run_bind_ok (peekPast_cons _ rfl)]
    · exact run_bind_ok (eat_cons _ _)
    · simp
  | false =>
    rw [fieldsFrom, List.cons_append, hrender, moreFields, run_bind_ok (peekPast_cons _ rfl)]
    refine (run_bind_ok (eat_cons _ _)).trans ?_
    rw [run_bind_ok (peekPast_cons _ rfl)]
    exact run_bind_ok (eat_cons _ _)

theorem colon_run (rest : Bytes) : colon.run (0x3A :: rest) = .ok ((), rest) := by
  rw [colon, run_bind_ok (peekPast_cons _ rfl)]
  rfl

/-- One field of an object is read. -/
theorem namedFields_step {fields : List (Field α)} {fuel : Nat} {found : List (Bytes × α)}
    {entry : Bytes × Json} {mark : Option (Bytes × α)} (first : Bool)
    (entries : List (Bytes × Json)) (rest : Bytes) (hmark : Reads fields entry mark)
    (hfresh : found.lookup entry.1 = none) :
    (namedFields fields (fuel + 1) first found).run
        (fieldsFrom first (entry :: entries) ++ rest) =
      (namedFields fields fuel false (mark.toList ++ found)).run
        (fieldsFrom false entries ++ rest) := by
  rw [namedFields, run_bind_ok (moreFields_run first entry entries rest)]
  simp only [if_true]
  cases hmark with
  | @known name document field a hname hfield hvalue =>
    have hnew : (found.lookup name).isSome = false := by
      simpa using hfresh
    rw [run_bind_ok (string_run hname)]
    simp only [hfield, hnew]
    refine (run_bind_ok (colon_run _)).trans ?_
    exact run_bind_ok (hvalue _ (ended_fieldsFrom _ _))
  | @unknown name s hname hfield =>
    rw [run_bind_ok (string_run hname)]
    simp only [hfield]
    refine (run_bind_ok (colon_run _)).trans ?_
    exact run_bind_ok (skipValue_text s _)

/-- What has been found before is found under other names than those to come. -/
theorem lookup_mark {fields : List (Field α)} {entry : Bytes × Json} {mark : Option (Bytes × α)}
    {found : List (Bytes × α)} {name : Bytes} (hmark : Reads fields entry mark)
    (hname : name ≠ entry.1) (hfound : found.lookup name = none) :
    (mark.toList ++ found).lookup name = none := by
  cases hmark with
  | unknown => exact hfound
  | @known other document field a =>
    have hother : (name == other) = false := beq_eq_false_iff_ne.2 hname
    simpa [List.lookup_cons, hother] using hfound

/-- The fields of an object are read. What they are read as stands in reverse order before what
was found. -/
theorem namedFields_run {fields : List (Field α)} {entries : List (Bytes × Json)}
    {marks : List (Option (Bytes × α))} (rest : Bytes)
    (h : List.Forall₂ (Reads fields) entries marks) :
    ∀ (fuel : Nat) (first : Bool) (found : List (Bytes × α)), entries.length < fuel →
      (entries.map Prod.fst).Nodup → (∀ entry ∈ entries, found.lookup entry.1 = none) →
      (namedFields fields fuel first found).run (fieldsFrom first entries ++ rest) =
        .ok ((marks.filterMap id).reverse ++ found, 0x7D :: rest) := by
  induction h with
  | nil =>
    intro fuel first found hfuel _ _
    have hend : fieldsFrom first [] ++ rest = 0x7D :: rest := by cases first <;> rfl
    cases fuel with
    | zero => simp at hfuel
    | succ fuel =>
      rw [namedFields, hend, run_bind_ok (moreFields_done _ _)]
      rfl
  | @cons entry mark entries marks hmark _ ih =>
    intro fuel first found hfuel hnodup hfresh
    obtain ⟨hother, hnodup⟩ := List.nodup_cons.1 hnodup
    cases fuel with
    | zero => simp at hfuel
    | succ fuel =>
      have hlater : ∀ later ∈ entries, (mark.toList ++ found).lookup later.1 = none := by
        intro later hm
        refine lookup_mark hmark ?_ (hfresh _ (List.mem_cons_of_mem _ hm))
        rintro heq
        exact hother (heq ▸ List.mem_map_of_mem hm)
      rw [namedFields_step first entries rest hmark (hfresh _ List.mem_cons_self),
        ih fuel false _ (by simpa using hfuel) hnodup hlater]
      cases mark <;> simp

/-- What was found is put in the order of the fields. -/
theorem arrange_run {found : List (Bytes × α)} (s : Bytes) : ∀ {fields : List (Field α)},
    (∀ field ∈ fields, field.required = true → (found.lookup field.name).isSome = true) →
    (arrange found fields).run s = .ok (fields.map fun field => found.lookup field.name, s)
  | [], _ => rfl
  | field :: fields, h => by
    have ih := arrange_run s fun later hm => h later (List.mem_cons_of_mem field hm)
    unfold arrange
    cases hf : found.lookup field.name with
    | some a =>
      rw [List.map_cons, hf, run_bind_ok ih]
      rfl
    | none =>
      have hoptional : field.required = false := by
        by_contra hrequired
        have hsome := h field List.mem_cons_self (by simpa using hrequired)
        rw [hf] at hsome
        cases hsome
      simp only [hoptional]
      rw [List.map_cons, hf]
      exact run_bind_ok ih

theorem length_lt_renderFields (entries : List (Bytes × Json)) :
    entries.length < (renderFields entries).length := by
  induction entries with
  | nil => decide
  | cons entry entries ih =>
    have hlater : entries.length < (fieldsFrom false entries).length := by
      cases entries with
      | nil => decide
      | cons other entries => exact Nat.lt_succ_of_lt ih
    rw [renderFields_cons]
    simp only [List.length_append, List.length_cons]
    omega

/-- An object is read as the record that asks for its fields. -/
theorem record_run {fields : List (Field α)} {entries : List (Bytes × Json)}
    {marks : List (Option (Bytes × α))} (rest : Bytes)
    (h : List.Forall₂ (Reads fields) entries marks) (hnodup : (entries.map Prod.fst).Nodup)
    (hrequired : ∀ field ∈ fields, field.required = true →
      ((marks.filterMap id).reverse.lookup field.name).isSome = true) :
    (record fields).run ((Json.object entries).render ++ rest) =
      .ok (fields.map fun field => (marks.filterMap id).reverse.lookup field.name, rest) := by
  have hlength := length_lt_renderFields entries
  have hfirst : renderFields entries = fieldsFrom true entries := by cases entries <;> rfl
  have hfound := namedFields_run rest h ((renderFields entries ++ rest).length + 1) true []
    (by rw [List.length_append]; omega) hnodup fun _ _ => rfl
  rw [List.append_nil, ← hfirst] at hfound
  unfold record
  rw [render, List.cons_append, run_bind_ok (peekPast_cons _ rfl)]
  refine (run_bind_ok (eat_cons _ _)).trans ?_
  rw [run_bind_ok (run_get _), run_bind_ok hfound, run_bind_ok (arrange_run _ hrequired)]
  rfl

/-! ## Arrays -/

/-- The items of an array with the bracket that closes it: from the first one on, or from a later
one on. -/
def itemsFrom : Bool → List Json → Bytes
  | false, item :: items => 0x2C :: renderItems (item :: items)
  | _, items => renderItems items

theorem renderItems_cons (item : Json) (items : List Json) :
    renderItems (item :: items) = item.render ++ itemsFrom false items := by
  cases items <;> simp [renderItems, itemsFrom]

theorem ended_itemsFrom (items : List Json) (rest : Bytes) :
    Ended (itemsFrom false items ++ rest) := by
  cases items with
  | nil => exact .inr ⟨rest, .inr (.inr rfl)⟩
  | cons item items => exact .inr ⟨renderItems (item :: items) ++ rest, .inl rfl⟩

/-- The text of a document starts with a byte that neither is passed over nor closes an array. -/
def Opens (document : Json) : Prop :=
  ∃ b tail, document.render = b :: tail ∧ isBlank b = false ∧ b ≠ 0x5D

theorem opens_object (entries : List (Bytes × Json)) : Opens (.object entries) :=
  ⟨0x7B, renderFields entries, by rw [render], rfl, by decide⟩

/-- An item of an array that is read back. -/
def ReadsItem (item : Reader α) (document : Json) (a : α) : Prop :=
  Opens document ∧ ReadsBack item document a

theorem moreItems_done (first : Bool) (rest : Bytes) :
    (moreItems first).run (0x5D :: rest) = .ok (false, 0x5D :: rest) := by
  rw [moreItems, run_bind_ok (peekPast_cons _ rfl)]
  rfl

theorem moreItems_run (first : Bool) {document : Json} (hopens : Opens document)
    (items : List Json) (rest : Bytes) :
    (moreItems first).run (itemsFrom first (document :: items) ++ rest) =
      .ok (true, document.render ++ (itemsFrom false items ++ rest)) := by
  obtain ⟨b, tail, hdocument, hblank, hclose⟩ := hopens
  have hrender : renderItems (document :: items) ++ rest =
      b :: (tail ++ (itemsFrom false items ++ rest)) := by
    rw [renderItems_cons, hdocument]
    simp
  cases first with
  | true =>
    rw [itemsFrom, hrender, moreItems, run_bind_ok (peekPast_cons _ hblank), hdocument]
    · split
      · contradiction
      · rename_i h
        exact absurd (Option.some.inj h) hclose
      · rfl
    · simp
  | false =>
    rw [itemsFrom, List.cons_append, hrender, moreItems, run_bind_ok (peekPast_cons _ rfl),
      hdocument]
    refine (run_bind_ok (eat_cons _ _)).trans ?_
    rw [run_bind_ok (peekPast_cons _ hblank)]
    split
    · contradiction
    · rename_i h
      exact absurd (Option.some.inj h) hclose
    · rfl

theorem items_run {item : Reader α} {documents : List Json} {values : List α} (rest : Bytes)
    (h : List.Forall₂ (ReadsItem item) documents values) :
    ∀ (fuel : Nat) (first : Bool), documents.length < fuel →
      (items item fuel first).run (itemsFrom first documents ++ rest) =
        .ok (values, 0x5D :: rest) := by
  induction h with
  | nil =>
    intro fuel first hfuel
    have hend : itemsFrom first [] ++ rest = 0x5D :: rest := by cases first <;> rfl
    cases fuel with
    | zero => simp at hfuel
    | succ fuel =>
      rw [items, hend, run_bind_ok (moreItems_done _ _)]
      rfl
  | @cons document a documents values hitem _ ih =>
    intro fuel first hfuel
    obtain ⟨hopens, hrun⟩ := hitem
    cases fuel with
    | zero => simp at hfuel
    | succ fuel =>
      rw [items, run_bind_ok (moreItems_run first hopens documents rest)]
      simp only [if_true]
      rw [run_bind_ok (hrun _ (ended_itemsFrom documents rest)),
        run_bind_ok (ih fuel false (by simpa using hfuel))]
      rfl

theorem length_le_renderItems (documents : List Json) :
    documents.length ≤ (renderItems documents).length := by
  induction documents with
  | nil => exact Nat.zero_le _
  | cons document documents ih =>
    cases documents with
    | nil => simp [renderItems]
    | cons other documents =>
      rw [renderItems]
      · simp only [List.length_append, List.length_cons] at ih ⊢
        omega
      · simp

/-- The items of an array are read back from its opening bracket on. -/
theorem allItems_run {item : Reader α} {documents : List Json} {values : List α} (rest : Bytes)
    (h : List.Forall₂ (ReadsItem item) documents values) :
    (items item ((renderItems documents ++ rest).length + 1) true).run
      (renderItems documents ++ rest) = .ok (values, 0x5D :: rest) := by
  have hlength := length_le_renderItems documents
  have hfirst : renderItems documents = itemsFrom true documents := by cases documents <;> rfl
  have hitems := items_run rest h ((renderItems documents ++ rest).length + 1) true
    (by rw [List.length_append]; omega)
  rw [← hfirst] at hitems
  exact hitems

theorem closeArray_run (rest : Bytes) : closeArray.run (0x5D :: rest) = .ok ((), rest) := by
  rw [closeArray, run_bind_ok (peekPast_cons _ rfl)]
  rfl

/-- An array is read back item by item. -/
theorem array_run {item : Reader α} {documents : List Json} {values : List α} (rest : Bytes)
    (h : List.Forall₂ (ReadsItem item) documents values) :
    (array item).run ((Json.array documents).render ++ rest) = .ok (values, rest) := by
  unfold array
  rw [render, List.cons_append, run_bind_ok (peekPast_cons _ rfl)]
  refine (run_bind_ok (eat_cons _ _)).trans ?_
  rw [run_bind_ok (run_get _), run_bind_ok (allItems_run rest h), run_bind_ok (closeArray_run rest)]
  rfl

/-- A text that is read to its end is read as a whole. -/
theorem readAll_run {reader : Reader α} {source : Bytes} {a : α}
    (h : reader.run source = .ok (a, [])) : readAll reader source = .ok a := by
  unfold readAll
  rw [h]
  rfl

end PatternEngine.Json.Reader
