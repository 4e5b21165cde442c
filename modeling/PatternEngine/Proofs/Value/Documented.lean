import PatternEngine.Proofs.Value.Layout
/-!
# Values that have documents

Texts have documents, and so have records and lists of what has them, as long as the tables do not
nest too deeply.
-/
namespace PatternEngine

namespace Value

/-- The value has a document inside this many tables. -/
def Documented (depth : Nat) (v : Value) : Prop := ∃ document, v.document depth = .ok document

variable {depth : Nat}

theorem documented_str (bytes : Bytes) : Documented depth (.str bytes) := ⟨_, rfl⟩

theorem itemDocuments_ok : ∀ {items : List Value}, (∀ v ∈ items, Documented depth v) →
    ∃ documents, itemDocuments depth items = .ok documents
  | [], _ => ⟨_, rfl⟩
  | v :: items, h => by
    obtain ⟨document, hd⟩ := h v List.mem_cons_self
    obtain ⟨documents, hds⟩ :=
      itemDocuments_ok fun w hw => h w (List.mem_cons_of_mem v hw)
    exact ⟨document :: documents, by simp only [itemDocuments, hd, hds]; rfl⟩

theorem fieldDocuments_ok : ∀ {fields : List (Value × Value)},
    (∀ f ∈ fields, (∃ name, keyName f.1 = .ok name) ∧ Documented depth f.2) →
    ∃ documents, fieldDocuments depth fields = .ok documents
  | [], _ => ⟨_, rfl⟩
  | (key, value) :: fields, h => by
    obtain ⟨⟨name, hn⟩, document, hd⟩ := h (key, value) List.mem_cons_self
    obtain ⟨documents, hds⟩ :=
      fieldDocuments_ok fun f hf => h f (List.mem_cons_of_mem (key, value) hf)
    exact ⟨(name, document) :: documents, by simp only [fieldDocuments, hn, hd, hds]; rfl⟩

theorem documented_list {items : List Value} (hdepth : depth < maxDepth)
    (h : ∀ v ∈ items, Documented (depth + 1) v) : Documented depth (.table items []) := by
  obtain ⟨documents, hds⟩ := itemDocuments_ok h
  cases items with
  | nil => exact ⟨.array [], by rw [document, if_neg (Nat.not_le.2 hdepth)]; rfl⟩
  | cons v items =>
    refine ⟨.array documents, ?_⟩
    rw [document, if_neg (Nat.not_le.2 hdepth)]
    · simp only [hds]; rfl
    · simp

theorem documented_fields {fields : List (Value × Value)} (hdepth : depth < maxDepth)
    (h : ∀ f ∈ fields, (∃ name, keyName f.1 = .ok name) ∧ Documented (depth + 1) f.2) :
    Documented depth (.table [] fields) := by
  obtain ⟨documents, hds⟩ := fieldDocuments_ok h
  rw [Documented, document, if_neg (Nat.not_le.2 hdepth)]
  simp only [hds]
  cases documents <;> exact ⟨_, rfl⟩

/-- A record has a document if its names are text and what is in its fields has documents. -/
theorem documented_record {fields : List (Bytes × Value)} (hdepth : depth < maxDepth)
    (h : ∀ f ∈ fields, Text.Utf8.isValid f.1 = true ∧ Documented (depth + 1) f.2) :
    Documented depth (record fields) := by
  refine documented_fields hdepth fun f hf => ?_
  obtain ⟨⟨name, v⟩, hm, rfl⟩ := List.mem_map.1 hf
  obtain ⟨hname, hd⟩ := h _ (List.mem_filter.1 hm).1
  exact ⟨⟨name, by simp [keyName, datum, Datum.keyName, hname]⟩, hd⟩

end Value

end PatternEngine
