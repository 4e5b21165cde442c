import Mathlib.Data.List.Forall2
import PatternEngine.Value.Document
/-!
# The document of a table

An array is put together slot by slot (`foldlM_fillSlot`), an object field by field
(`objectDocument_eq`). So a table has a document if and only if all that is seen of it has one, and
its keys are names where they have to be (`document_ok_iff`).
-/
namespace PatternEngine

open PatternEngine.Text.Utf8

variable {α : Type}

/-- What is seen of a table: every entry, or if it has a sequence part what is in it. -/
def Table.Sees (table : Table α) (key : Datum α) : Prop :=
  table.length = 0 ∨ ∃ n, key.toInt? = some n ∧ 1 ≤ n ∧ n ≤ table.length

/-- A key that gives a field its name. -/
def Datum.IsName : Datum α → Prop
  | .str bytes => isValid bytes = true
  | .int _ | .float _ | .bool _ => True
  | _ => False

/-! ## One after the other -/

section Lists

variable {β γ ε : Type} {f : β → Except ε γ} {xs : List β}

theorem mapM_eq_ok {ys : List γ} :
    xs.mapM f = .ok ys ↔ List.Forall₂ (fun x y => f x = .ok y) xs ys := by
  induction xs generalizing ys with
  | nil => simp [pure, Except.pure, eq_comm]
  | cons x xs ih =>
    rw [List.mapM_cons, List.forall₂_cons_left_iff]
    simp only [← ih]
    cases f x with
    | error reason => simp [bind, Except.bind]
    | ok y =>
      cases xs.mapM f with
      | error reason => simp [bind, Except.bind]
      | ok rest => simp [bind, Except.bind, pure, Except.pure, eq_comm]

theorem mapM_ok_iff : (∃ ys, xs.mapM f = .ok ys) ↔ ∀ x ∈ xs, ∃ y, f x = .ok y := by
  simp only [mapM_eq_ok]
  induction xs with
  | nil => simp
  | cons x xs ih =>
    rw [List.forall_mem_cons, ← ih]
    constructor
    · rintro ⟨ys, h⟩
      obtain ⟨y, rest, hy, hrest, rfl⟩ := List.forall₂_cons_left_iff.1 h
      exact ⟨⟨y, hy⟩, rest, hrest⟩
    · rintro ⟨⟨y, hy⟩, rest, hrest⟩
      exact ⟨y :: rest, .cons hy hrest⟩

/-- A reason is that of one of them. -/
theorem mapM_error {reason : ε} (h : xs.mapM f = .error reason) :
    ∃ x ∈ xs, f x = .error reason := by
  induction xs with
  | nil => cases h
  | cons x xs ih =>
    rw [List.mapM_cons] at h
    cases hx : f x with
    | error other =>
      rw [hx] at h
      cases h
      exact ⟨x, List.mem_cons_self, hx⟩
    | ok y =>
      rw [hx] at h
      cases hrest : xs.mapM f with
      | error other =>
        rw [hrest] at h
        cases h
        obtain ⟨x', hm, hx'⟩ := ih hrest
        exact ⟨x', List.mem_cons_of_mem _ hm, hx'⟩
      | ok ys =>
        rw [hrest] at h
        cases h

end Lists

/-! ## Keys -/

theorem Datum.keyName_iff {key : Datum α} : (∃ name, key.keyName = .ok name) ↔ key.IsName := by
  cases key with
  | bool b => cases b <;> simp [keyName, IsName]
  | float x =>
    unfold IsName
    rw [keyName]
    cases x.toInt? <;> simp
  | str bytes =>
    unfold IsName
    rw [keyName]
    split <;> rename_i hvalid <;> simp [hvalid]
  | _ => simp [keyName, IsName]

theorem Datum.keyName_error {key : Datum α} {reason : Undocumentable}
    (h : key.keyName = .error reason) : ∃ name, reason = .keyType name := by
  cases key with
  | bool b => cases b <;> cases h
  | float x =>
    rw [keyName] at h
    split at h <;> cases h
  | str bytes =>
    rw [keyName] at h
    split at h <;> cases h
    exact ⟨_, rfl⟩
  | int n => cases h
  | _ =>
    cases h
    exact ⟨_, rfl⟩

namespace Table

variable {inner : Datum α → Except Undocumentable Json} {table : Table α} {i : Nat}
  {key value : Datum α}

theorem slot?_int (h : i < table.length) : table.slot? (.int (i + 1)) = some i := by
  have hrange : (1 : Int) ≤ (i : Int) + 1 ∧ (i : Int) + 1 ≤ table.length := by omega
  have hslot : ((i : Int) + 1 - 1).toNat = i := by omega
  show (if (1 : Int) ≤ (i : Int) + 1 ∧ (i : Int) + 1 ≤ table.length then
    some ((i : Int) + 1 - 1).toNat else none) = _
  rw [if_pos hrange, hslot]

theorem slot?_empty (h : table.length = 0) (key : Datum α) : table.slot? key = none := by
  unfold slot?
  cases key.toInt? with
  | none => rfl
  | some n =>
    dsimp only
    rw [if_neg]
    omega

theorem fillSlot_some (h : table.slot? key = some i) (items : List Json) :
    table.fillSlot inner items (key, value) = (inner value).map (items.set i ·) := by
  unfold fillSlot
  rw [h]
  cases inner value <;> rfl

theorem fillSlot_none {entry : Datum α × Datum α} (h : table.slot? entry.1 = none)
    (items : List Json) : table.fillSlot inner items entry = .ok items := by
  unfold fillSlot
  rw [h]
  rfl

theorem fillField_eq (fields : List (Bytes × Json)) :
    fillField inner fields (key, value) =
      key.keyName.bind fun name => (inner value).map fun d => Json.insertField name d fields := by
  unfold fillField
  cases key.keyName with
  | error reason => rfl
  | ok name => cases inner value <;> rfl

theorem slot?_isSome {key : Datum α} : (table.slot? key).isSome = true ↔
    ∃ n, key.toInt? = some n ∧ 1 ≤ n ∧ n ≤ table.length := by
  unfold slot?
  cases key.toInt? with
  | none => simp
  | some n =>
    dsimp only
    split <;> rename_i hrange <;> simp [hrange]

/-! ## Arrays -/

/-- The entries that are in the sequence part of a table. -/
def inSequence (table : Table α) (entry : Datum α × Datum α) : Bool :=
  (table.slot? entry.1).isSome

/-- The slots are filled with the documents of what is in the sequence part. -/
theorem foldlM_fillSlot (entries : List (Datum α × Datum α)) (items : List Json) :
    entries.foldlM (table.fillSlot inner) items =
      ((entries.filter table.inSequence).mapM fun entry => inner entry.2).map fun documents =>
        ((entries.filter table.inSequence).zip documents).foldl
          (fun items (entry, d) => items.set ((table.slot? entry.1).getD 0) d) items := by
  induction entries generalizing items with
  | nil => rfl
  | cons entry entries ih =>
    rw [List.foldlM_cons]
    cases hslot : table.slot? entry.1 with
    | none =>
      have hskip : table.inSequence entry = false := by rw [inSequence, hslot]; rfl
      rw [fillSlot_none hslot, List.filter_cons_of_neg (by rw [hskip]; exact Bool.false_ne_true)]
      exact ih items
    | some i =>
      have htake : table.inSequence entry = true := by rw [inSequence, hslot]; rfl
      rw [List.filter_cons_of_pos htake, List.mapM_cons, fillSlot_some hslot]
      cases inner entry.2 with
      | error reason => rfl
      | ok d =>
        show entries.foldlM _ (items.set i d) = _
        rw [ih]
        cases (entries.filter table.inSequence).mapM fun entry => inner entry.2 with
        | error reason => rfl
        | ok documents =>
          simp only [Except.map, bind, Except.bind, pure, Except.pure, List.zip_cons_cons,
            List.foldl_cons, hslot, Option.getD_some]

/-! ## Objects -/

theorem insertField_ne_nil (name : Bytes) (value : Json) (fields : List (Bytes × Json)) :
    Json.insertField name value fields ≠ [] := by
  cases fields with
  | nil => exact List.cons_ne_nil _ _
  | cons f fields =>
    unfold Json.insertField
    split
    · exact List.cons_ne_nil _ _
    · split <;> exact List.cons_ne_nil _ _

theorem isEmpty_inserted (documents found : List (Bytes × Json)) :
    (documents.foldl (fun sorted (name, value) => Json.insertField name value sorted)
      found).isEmpty = (documents.isEmpty && found.isEmpty) := by
  induction documents generalizing found with
  | nil => rfl
  | cons d documents ih =>
    have hne : (Json.insertField d.1 d.2 found).isEmpty = false :=
      List.isEmpty_eq_false_iff.2 (insertField_ne_nil _ _ _)
    rw [List.foldl_cons, ih, hne, Bool.and_false]
    rfl

/-- The document of a field, with its name. -/
def fieldDocument (inner : Datum α → Except Undocumentable Json) (entry : Datum α × Datum α) :
    Except Undocumentable (Bytes × Json) := do
  let name ← entry.1.keyName
  return (name, ← inner entry.2)

theorem fieldDocument_eq_ok {entry : Datum α × Datum α} {d : Bytes × Json} :
    fieldDocument inner entry = .ok d ↔ entry.1.keyName = .ok d.1 ∧ inner entry.2 = .ok d.2 := by
  obtain ⟨name, document⟩ := d
  unfold fieldDocument
  cases entry.1.keyName with
  | error reason => simp [bind, Except.bind]
  | ok name' => cases inner entry.2 <;> simp [bind, Except.bind, pure, Except.pure]

theorem foldlM_fillField (entries : List (Datum α × Datum α)) (fields : List (Bytes × Json)) :
    entries.foldlM (fillField inner) fields =
      (entries.mapM (fieldDocument inner)).map fun documents =>
        documents.foldl (fun sorted (name, value) => Json.insertField name value sorted)
          fields := by
  induction entries generalizing fields with
  | nil => rfl
  | cons entry entries ih =>
    obtain ⟨key, value⟩ := entry
    rw [List.foldlM_cons, List.mapM_cons, fillField_eq, fieldDocument]
    cases key.keyName with
    | error reason => rfl
    | ok name =>
      cases inner value with
      | error reason => rfl
      | ok d =>
        show entries.foldlM _ (Json.insertField name d fields) = _
        rw [ih]
        cases entries.mapM (fieldDocument inner) <;> rfl

/-- The object is put together from the documents of all entries. -/
theorem objectDocument_eq : table.objectDocument inner =
    (table.entries.mapM (fieldDocument inner)).map fun documents =>
      if documents.isEmpty then .array [] else Json.ofFields documents := by
  unfold objectDocument
  rw [foldlM_fillField]
  cases table.entries.mapM (fieldDocument inner) with
  | error reason => rfl
  | ok documents =>
    have hempty := isEmpty_inserted documents []
    rw [List.isEmpty_nil, Bool.and_true] at hempty
    show (Except.ok (if List.isEmpty _ = true then _ else _) : Except Undocumentable Json) = _
    rw [hempty]
    rfl

/-! ## What is seen -/

theorem sees_of_empty (h : table.length = 0) (key : Datum α) : table.Sees key := .inl h

theorem sees_iff (h : 0 < table.length) {key : Datum α} :
    table.Sees key ↔ (table.slot? key).isSome = true := by
  rw [slot?_isSome, Sees]
  exact or_iff_right (Nat.ne_of_gt h)

/-- A table has a document if what is seen of it has one, and its keys are names. -/
theorem document_ok_iff : (∃ d, table.document inner = .ok d) ↔
    (∀ entry ∈ table.entries, table.Sees entry.1 → ∃ d, inner entry.2 = .ok d) ∧
      (table.length = 0 → ∀ entry ∈ table.entries, entry.1.IsName) := by
  unfold document
  by_cases hlength : 0 < table.length
  · have hmap : (∃ d, table.arrayDocument inner = .ok d) ↔
        ∃ documents, ((table.entries.filter table.inSequence).mapM fun entry => inner entry.2) =
          .ok documents := by
      unfold arrayDocument
      dsimp only
      rw [foldlM_fillSlot]
      cases (table.entries.filter table.inSequence).mapM fun entry => inner entry.2 with
      | error reason => simp [Except.map, bind, Except.bind]
      | ok documents => simp [Except.map, bind, Except.bind, pure, Except.pure]
    have hne : table.length ≠ 0 := Nat.ne_of_gt hlength
    rw [if_pos hlength, hmap, mapM_ok_iff]
    simp only [List.mem_filter, inSequence, sees_iff hlength, hne, false_imp_iff, and_true, and_imp]
  · have hzero : table.length = 0 := Nat.eq_zero_of_not_pos hlength
    have hmap : (∃ d, table.objectDocument inner = .ok d) ↔
        ∃ documents, table.entries.mapM (fieldDocument inner) = .ok documents := by
      rw [objectDocument_eq]
      cases table.entries.mapM (fieldDocument inner) <;> simp [Except.map]
    rw [if_neg hlength, hmap, mapM_ok_iff]
    have hfield (entry : Datum α × Datum α) : (∃ d, fieldDocument inner entry = .ok d) ↔
        entry.1.IsName ∧ ∃ d, inner entry.2 = .ok d := by
      simp only [fieldDocument_eq_ok, Prod.exists, exists_and_left, exists_and_right,
        Datum.keyName_iff]
    simp only [hfield, sees_of_empty hzero, hzero, true_imp_iff]
    exact ⟨fun h => ⟨fun e he => (h e he).2, fun e he => (h e he).1⟩,
      fun h e he => ⟨h.2 e he, h.1 e he⟩⟩

/-- A reason is that of something that is seen, or that of a key. -/
theorem document_error {reason : Undocumentable} (h : table.document inner = .error reason) :
    (∃ entry ∈ table.entries, table.Sees entry.1 ∧ inner entry.2 = .error reason) ∨
      ∃ name, reason = .keyType name := by
  unfold document at h
  by_cases hlength : 0 < table.length
  · rw [if_pos hlength] at h
    unfold arrayDocument at h
    dsimp only at h
    rw [foldlM_fillSlot] at h
    cases hmap : (table.entries.filter table.inSequence).mapM fun entry => inner entry.2 with
    | error other =>
      rw [hmap] at h
      cases h
      obtain ⟨entry, hm, hinner⟩ := mapM_error hmap
      obtain ⟨hmem, hslot⟩ := List.mem_filter.1 hm
      exact .inl ⟨entry, hmem, (sees_iff hlength).2 hslot, hinner⟩
    | ok documents =>
      rw [hmap] at h
      cases h
  · have hzero : table.length = 0 := Nat.eq_zero_of_not_pos hlength
    rw [if_neg hlength, objectDocument_eq] at h
    cases hmap : table.entries.mapM (fieldDocument inner) with
    | error other =>
      rw [hmap] at h
      cases h
      obtain ⟨entry, hmem, hfield⟩ := mapM_error hmap
      unfold fieldDocument at hfield
      cases hkey : entry.1.keyName with
      | error other =>
        rw [hkey] at hfield
        cases hfield
        exact .inr (Datum.keyName_error hkey)
      | ok name =>
        rw [hkey] at hfield
        cases hinner : inner entry.2 with
        | error other =>
          rw [hinner] at hfield
          cases hfield
          exact .inl ⟨entry, hmem, .inl hzero, hinner⟩
        | ok d =>
          rw [hinner] at hfield
          cases hfield
    | ok documents =>
      rw [hmap] at h
      cases h

end Table

end PatternEngine
