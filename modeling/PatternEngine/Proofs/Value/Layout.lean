import PatternEngine.Proofs.Value.Context
import PatternEngine.Proofs.Value.Tables
/-!
# Values as trees

The document of a value, told by recursion over the value itself (`document`). In the memory that a
value is laid out in, no table is met twice but the ones that enclose it, so encoding that memory
gives this document (`encode_eq`).
-/
namespace PatternEngine.Value

open Heap

/-- The name of the field for a key. -/
def keyName (key : Value) : Except Undocumentable Bytes := (key.datum []).keyName

mutual

/-- The document of a value inside `depth` tables. -/
def document (depth : Nat) : Value → Except Undocumentable Json
  | .nil => .ok .null
  | .bool b => .ok (.bool b)
  | .int n => .ok (.int n)
  | .float x => floatDocument x
  | .str bytes => .ok (.str (Text.Utf8.lossy bytes))
  | .table items fields =>
    if maxDepth ≤ depth then .error .tooDeep
    else
      match items with
      | [] => do
        match ← fieldDocuments (depth + 1) fields with
        | [] => return .array []
        | documents => return Json.ofFields documents
      | items => do return .array (← itemDocuments (depth + 1) items)
  | .ancestor outer =>
    if outer < depth then .error (if maxDepth ≤ depth then .tooDeep else .circular)
    else .error (.valueType (text "table"))
  | v => .error (.valueType v.typeName)

/-- The documents of the items of a table. -/
def itemDocuments (depth : Nat) : List Value → Except Undocumentable (List Json)
  | [] => .ok []
  | item :: items => do
    let document ← document depth item
    return document :: (← itemDocuments depth items)

/-- The documents of the fields of a table, with their names. -/
def fieldDocuments (depth : Nat) :
    List (Value × Value) → Except Undocumentable (List (Bytes × Json))
  | [] => .ok []
  | (key, value) :: fields => do
    let name ← keyName key
    let document ← document depth value
    return (name, document) :: (← fieldDocuments depth fields)

end

variable {v w : Value} {path : Path} {items : List Value} {fields : List (Value × Value)}
  {depth : Nat}

/-! ## Places -/

theorem at?_append (v : Value) (path : Path) (i : Nat) :
    v.at? (path ++ [i]) = (v.at? path).bind fun w => w.parts[i]? := by
  induction path generalizing v with
  | nil =>
    rw [List.nil_append, at?, at?, Option.bind_some]
    cases v.parts[i]? <;> rfl
  | cons j path ih =>
    rw [List.cons_append, at?, at?]
    cases v.parts[j]? with
    | none => rfl
    | some part => exact ih part

theorem parts_item {i : Nat} (h : items[i]? = some w) :
    (table items fields).parts[i]? = some w := by
  obtain ⟨hi, -⟩ := List.getElem?_eq_some_iff.1 h
  rw [parts, List.getElem?_append_left hi, h]

theorem parts_field {i : Nat} {f : Value × Value} (h : fields[i]? = some f) :
    (table items fields).parts[items.length + 2 * i + 1]? = some f.2 := by
  rw [parts, List.getElem?_append_right (by omega)]
  have hindex : items.length + 2 * i + 1 - items.length = 2 * i + 1 := by omega
  rw [hindex]
  clear hindex
  induction fields generalizing i with
  | nil => cases h
  | cons g fields ih =>
    cases i with
    | zero =>
      cases h
      rfl
    | succ i => exact ih h

theorem datum_ancestor (outer : Nat) (path : Path) : (ancestor outer).datum path =
    if outer < path.length then .table (path.take outer) else .other (text "table") := rfl

theorem keyName_datum (key : Value) (path : Path) : (key.datum path).keyName = keyName key := by
  cases key with
  | ancestor outer =>
    rw [datum_ancestor]
    split <;> rfl
  | _ => rfl

/-- The tables that are entered on the way to a place stand at the places on this way. -/
def Encloses (c : Context Path) (path : Path) : Prop :=
  c.depth = path.length ∧ ∀ address, address ∈ c.visiting ↔ ∃ k < path.length, address = path.take k

theorem Encloses.inside {c : Context Path} (h : Encloses c path) (i : Nat) :
    Encloses (c.inside path) (path ++ [i]) := by
  refine ⟨by simp [Context.inside, h.1], fun address => ?_⟩
  rw [Context.inside, List.mem_cons, h.2]
  constructor
  · rintro (rfl | ⟨k, hk, rfl⟩)
    · exact ⟨address.length, by simp, by simp⟩
    · exact ⟨k, by rw [List.length_append]; omega, by rw [List.take_append_of_le_length (by omega)]⟩
  · rintro ⟨k, hk, rfl⟩
    rw [List.length_append, List.length_singleton] at hk
    rw [List.take_append_of_le_length (by omega)]
    rcases Nat.lt_succ_iff_lt_or_eq.1 hk with hless | rfl
    · exact .inr ⟨k, hless, rfl⟩
    · exact .inl (List.take_length)

theorem Encloses.not_mem {c : Context Path} (h : Encloses c path) : path ∉ c.visiting := by
  rw [h.2]
  rintro ⟨k, hk, heq⟩
  have hlength := congrArg List.length heq
  rw [List.length_take] at hlength
  omega

/-! ## Tables -/

/-- The items fill the slots one after the other. `done` stands in the slots before them. -/
theorem foldlM_items {inner : Datum Path → Except Undocumentable Json} {table : Table Path}
    (place : Nat → Path) (done : List Json) (hlength : done.length + items.length ≤ table.length)
    (h : ∀ (i : Nat) (item : Value), items[i]? = some item →
      inner (item.datum (place (done.length + i))) = document depth item) :
    ((items.zipIdx done.length).map fun (item, i) => (.int (i + 1), item.datum (place i))).foldlM
        (table.fillSlot inner) (done ++ List.replicate items.length Json.null) =
      (itemDocuments depth items).map (done ++ ·) := by
  induction items generalizing done with
  | nil => simp [itemDocuments, Except.map, pure, Except.pure]
  | cons item items ih =>
    have hslot : table.slot? (.int (done.length + 1)) = some done.length :=
      Table.slot?_int (by rw [List.length_cons] at hlength; omega)
    have hitem : inner (item.datum (place done.length)) = document depth item := h 0 item rfl
    rw [List.zipIdx_cons, List.map_cons, List.foldlM_cons, itemDocuments, Table.fillSlot_some hslot,
      hitem]
    cases hd : document depth item with
    | error reason => rfl
    | ok d =>
      have hset : (done ++ List.replicate (item :: items).length Json.null).set done.length d =
          done ++ [d] ++ List.replicate items.length Json.null := by
        simp [List.replicate_succ]
      have hmore := ih (done ++ [d]) (by simp at hlength ⊢; omega) fun i item hi => by
        rw [← h (i + 1) item hi, List.length_append, List.length_singleton, Nat.add_assoc,
          Nat.add_comm 1]
      rw [List.length_append, List.length_singleton] at hmore
      show List.foldlM (table.fillSlot inner) ((done ++ _).set done.length d) _ = _
      rw [hset, hmore]
      cases itemDocuments depth items with
      | error reason => rfl
      | ok documents => exact congrArg Except.ok (List.append_assoc _ _ _)

/-- The fields have their documents one after the other. -/
theorem mapM_fields {inner : Datum Path → Except Undocumentable Json} (place place' : Nat → Path)
    (k : Nat) (h : ∀ (i : Nat) (f : Value × Value), fields[i]? = some f →
      inner (f.2.datum (place' (k + i))) = document depth f.2) :
    ((fields.zipIdx k).map fun ((key, value), i) =>
        (key.datum (place i), value.datum (place' i))).mapM (Table.fieldDocument inner) =
      fieldDocuments depth fields := by
  induction fields generalizing k with
  | nil => rfl
  | cons f fields ih =>
    obtain ⟨key, value⟩ := f
    have hvalue : inner (value.datum (place' k)) = document depth value := h 0 _ rfl
    have hmore := ih (k + 1) fun i f hi => by
      rw [← h (i + 1) f hi, Nat.add_assoc, Nat.add_comm 1]
    rw [List.zipIdx_cons, List.map_cons, List.mapM_cons, hmore, fieldDocuments, Table.fieldDocument,
      keyName_datum, hvalue]
    cases keyName key with
    | error reason => rfl
    | ok name => cases document depth value <;> rfl

/-- The fields at the places of items are no entries. -/
theorem foldlM_skipped {inner : Datum Path → Except Undocumentable Json} {table : Table Path}
    {entries : List (Datum Path × Datum Path)} (h : ∀ e ∈ entries, table.slot? e.1 = none)
    (documents : List Json) :
    entries.foldlM (table.fillSlot inner) documents = .ok documents := by
  induction entries with
  | nil => rfl
  | cons e entries ih =>
    rw [List.foldlM_cons, Table.fillSlot_none (h e List.mem_cons_self)]
    exact ih fun e he => h e (List.mem_cons_of_mem _ he)

theorem tableAt_nil (path : Path) (fields : List (Value × Value)) :
    tableAt path [] fields = ⟨0, namedAt path 0 fields⟩ := by
  have hkept : (namedAt path 0 fields).filter
      (fun entry => (Table.slot? ⟨0, listedAt path []⟩ entry.1).isNone) = namedAt path 0 fields :=
    List.filter_eq_self.2 fun e _ => Option.isNone_iff_eq_none.2 (Table.slot?_empty rfl e.1)
  exact congrArg (Table.mk 0) hkept

/-- A table with items becomes the array of their documents. -/
theorem document_tableAt {inner : Datum Path → Except Undocumentable Json} {item : Value}
    (h : ∀ (i : Nat) (w : Value), (item :: items)[i]? = some w →
      inner (w.datum (path ++ [i])) = document depth w) :
    (tableAt path (item :: items) fields).document inner =
      (itemDocuments depth (item :: items)).map .array := by
  let table := tableAt path (item :: items) fields
  have hskipped : ∀ e ∈ (namedAt path (item :: items).length fields).filter fun entry =>
      (Table.slot? ⟨(item :: items).length, listedAt path (item :: items)⟩ entry.1).isNone,
      table.slot? e.1 = none :=
    fun e he => Option.isNone_iff_eq_none.1 (List.mem_filter.1 he).2
  have hlisted : (listedAt path (item :: items)).foldlM (table.fillSlot inner)
      ([] ++ List.replicate (item :: items).length Json.null) =
      (itemDocuments depth (item :: items)).map ([] ++ ·) :=
    foldlM_items (fun i => path ++ [i]) [] (by simp [table, tableAt]) fun i w hw => by
      rw [← h i w hw, List.length_nil, Nat.zero_add]
  show Table.arrayDocument inner table = _
  unfold Table.arrayDocument
  show (List.foldlM _ _ (listedAt path (item :: items) ++ _) >>= _) = _
  rw [List.foldlM_append]
  show ((List.foldlM _ ([] ++ List.replicate (item :: items).length Json.null) _ >>= _) >>= _) = _
  rw [hlisted]
  cases itemDocuments depth (item :: items) with
  | error reason => rfl
  | ok documents =>
    show (List.foldlM _ documents _ >>= _) = _
    rw [foldlM_skipped hskipped]
    rfl

/-- A table without items becomes the object of its fields, unless there are none. -/
theorem document_tableAt_nil {inner : Datum Path → Except Undocumentable Json}
    (h : ∀ (i : Nat) (f : Value × Value), fields[i]? = some f →
      inner (f.2.datum (path ++ [2 * i + 1])) = document depth f.2) :
    (tableAt path [] fields).document inner = (fieldDocuments depth fields).map fun documents =>
      if documents.isEmpty then .array [] else Json.ofFields documents := by
  have hfields : (namedAt path 0 fields).mapM (Table.fieldDocument inner) =
      fieldDocuments depth fields :=
    mapM_fields (fun i => path ++ [0 + 2 * i]) (fun i => path ++ [0 + 2 * i + 1]) 0 fun i f hf => by
      rw [← h i f hf, Nat.zero_add, Nat.zero_add]
  rw [tableAt_nil, ← hfields]
  exact Table.objectDocument_eq

theorem layout_table (h : v.at? path = some (table items fields)) :
    v.layout path = tableAt path items fields := by
  unfold layout
  rw [h]

/-- What is answered for a value where it stands is its document. The recursion follows the tables
inwards. -/
theorem told_layout (v : Value) : ∀ (w : Value) (path : Path) (c : Context Path),
    v.at? path = some w → Encloses c path → v.layout.told c (w.datum path) = w.document path.length
  | .nil, _, _, _, _ => by rw [document]; rfl
  | .bool b, _, _, _, _ => by rw [document]; rfl
  | .int n, _, _, _, _ => by rw [document]; rfl
  | .str bytes, _, _, _, _ => by rw [document]; rfl
  | .float x, path, c, _, _ => by rw [document]; exact told_float x c
  | .ancestor outer, path, c, _, hc => by
    rw [datum_ancestor, document]
    split
    · rename_i houter
      have hmem : path.take outer ∈ c.visiting := (hc.2 _).2 ⟨outer, houter, rfl⟩
      rw [told_table, if_pos hmem, hc.1]
      split <;> rfl
    · rfl
  | .table [] fields, path, c, hat, hc => by
    have hfields : (tableAt path [] fields).document (v.layout.told (c.inside path)) =
        (fieldDocuments (path.length + 1) fields).map fun documents =>
          if documents.isEmpty then .array [] else Json.ofFields documents :=
      document_tableAt_nil fun i (key, value) hf => by
        have hpart : v.at? (path ++ [2 * i + 1]) = some value := by
          have hfield : (table [] fields).parts[0 + 2 * i + 1]? = some value := parts_field hf
          rwa [at?_append, hat, Option.bind_some, ← Nat.zero_add (2 * i)]
        have hsmaller : 1 + sizeOf key + sizeOf value < sizeOf fields :=
          List.sizeOf_lt_of_mem (List.mem_of_getElem? hf)
        have hdepth : path.length + 1 = (path ++ [2 * i + 1]).length := by simp
        rw [hdepth]
        exact told_layout v value _ _ hpart (hc.inside _)
    show v.layout.told c (.table path) = _
    rw [told_table, if_neg hc.not_mem, layout_table hat, hc.1, hfields, document]
    split
    · rfl
    · cases fieldDocuments (path.length + 1) fields with
      | error reason => rfl
      | ok documents => cases documents <;> rfl
  | .table (item :: items) fields, path, c, hat, hc => by
    have hitems : (tableAt path (item :: items) fields).document (v.layout.told (c.inside path)) =
        (itemDocuments (path.length + 1) (item :: items)).map .array :=
      document_tableAt fun i w hw => by
        have hpart : v.at? (path ++ [i]) = some w := by
          rw [at?_append, hat, Option.bind_some, parts_item hw]
        have hsmaller : sizeOf w < 1 + sizeOf item + sizeOf items :=
          List.sizeOf_lt_of_mem (List.mem_of_getElem? hw)
        have hdepth : path.length + 1 = (path ++ [i]).length := by simp
        rw [hdepth]
        exact told_layout v w _ _ hpart (hc.inside _)
    show v.layout.told c (.table path) = _
    rw [told_table, if_neg hc.not_mem, layout_table hat, hc.1, hitems, document]
    · split
      · rfl
      · cases itemDocuments (path.length + 1) (item :: items) <;> rfl
    · exact List.cons_ne_nil _ _
  | .function, _, _, _, _ => by rw [document] <;> first | rfl | simp
  | .thread, _, _, _, _ => by rw [document] <;> first | rfl | simp
  | .object, _, _, _, _ => by rw [document] <;> first | rfl | simp
  | .matcher _, _, _, _, _ => by rw [document] <;> first | rfl | simp
  | .result _, _, _, _, _ => by rw [document] <;> first | rfl | simp
  | .lent _, _, _, _, _ => by rw [document] <;> first | rfl | simp
termination_by w => sizeOf w

theorem encode_eq (v : Value) : v.encode = (v.document 0).map Json.render := by
  have hnowhere : Encloses ⟨[], 0⟩ ([] : Path) := ⟨rfl, by simp⟩
  have htold : v.layout.told ⟨[], 0⟩ (v.datum []) = v.document 0 :=
    told_layout v v [] ⟨[], 0⟩ rfl hnowhere
  rw [← htold]
  rfl

end PatternEngine.Value
