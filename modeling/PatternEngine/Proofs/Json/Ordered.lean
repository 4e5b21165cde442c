import Mathlib.Data.List.Induction
import Mathlib.Data.List.Nodup
import PatternEngine.Proofs.Json.Documents
/-!
# The order of fields

The names of fields are in a strict order (`lessThan_trans`, `lessThan_cases`). Fields that are put
into an object one by one come to stand in it (`sortFields_spec`), so an object does not depend on
the order in which it was given its fields (`sortFields_perm`), and gives itself when it is put
together anew (`Ordered.sortFields_eq`).
-/
namespace PatternEngine

namespace Bytes

theorem lessThan_irrefl : ∀ a : Bytes, lessThan a a = false
  | [] => rfl
  | b :: bs => by simp [lessThan, lessThan_irrefl bs]

theorem lessThan_trans : ∀ {a b c : Bytes},
    lessThan a b = true → lessThan b c = true → lessThan a c = true
  | [], _ :: _, _ :: _, _, _ => rfl
  | x :: a, y :: b, z :: c, hab, hbc => by
    have ih := @lessThan_trans a b c
    simp only [lessThan] at hab hbc ⊢
    grind

/-- Of two different names one comes first. -/
theorem lessThan_cases : ∀ a b : Bytes, lessThan a b = true ∨ a = b ∨ lessThan b a = true
  | [], [] => .inr (.inl rfl)
  | [], _ :: _ => .inl rfl
  | _ :: _, [] => .inr (.inr rfl)
  | x :: a, y :: b => by
    have ih := lessThan_cases a b
    simp only [lessThan]
    grind

end Bytes

namespace Json

/-- The fields stand in the order of their names, and no two have the same name. -/
def Ordered (fields : List (Bytes × Json)) : Prop :=
  fields.Pairwise fun a b => Bytes.lessThan a.1 b.1 = true

variable {name : Bytes} {value : Json} {fields fields' : List (Bytes × Json)}

theorem insertField_perm (h : name ∉ fields.map Prod.fst) :
    (insertField name value fields).Perm ((name, value) :: fields) := by
  induction fields with
  | nil => exact .refl _
  | cons field fields ih =>
    obtain ⟨other, old⟩ := field
    have hne : (name == other) = false := by
      simpa using fun he : name = other => h (by simp [he])
    have hrest := ih fun hm => h (List.mem_cons_of_mem _ hm)
    simp only [insertField, hne, Bool.false_eq_true, if_false]
    split
    · exact .refl _
    · exact (hrest.cons _).trans (.swap _ _ _)

theorem insertField_ordered (h : name ∉ fields.map Prod.fst) (hordered : Ordered fields) :
    Ordered (insertField name value fields) := by
  induction fields with
  | nil => exact List.pairwise_singleton _ _
  | cons field fields ih =>
    obtain ⟨other, old⟩ := field
    have hne : name ≠ other := fun he => h (by simp [he])
    have hrest : name ∉ fields.map Prod.fst := fun hm => h (List.mem_cons_of_mem _ hm)
    obtain ⟨hfirst, hlater⟩ := List.pairwise_cons.1 hordered
    simp only [insertField, beq_eq_false_iff_ne.2 hne, Bool.false_eq_true, if_false]
    split
    · rename_i hless
      refine List.pairwise_cons.2 ⟨?_, hordered⟩
      intro field hm
      rcases List.mem_cons.1 hm with rfl | hm
      · exact hless
      · exact Bytes.lessThan_trans hless (hfirst field hm)
    · rename_i hnot
      have hless : Bytes.lessThan other name = true := by
        rcases Bytes.lessThan_cases name other with hless | he | hless
        · exact absurd hless hnot
        · exact absurd he hne
        · exact hless
      refine List.pairwise_cons.2 ⟨?_, ih hrest hlater⟩
      intro field hm
      rcases List.mem_cons.1 ((insertField_perm hrest).mem_iff.1 hm) with rfl | hm
      · exact hless
      · exact hfirst field hm

/-- The fields of an object that was given fields in this order. -/
def sortFields (fields : List (Bytes × Json)) : List (Bytes × Json) :=
  fields.foldl (fun sorted (name, value) => insertField name value sorted) []

theorem ofFields_eq (fields : List (Bytes × Json)) :
    ofFields fields = .object (sortFields fields) := rfl

/-- Fields with different names are all there, in their order. -/
theorem sortFields_spec (h : (fields.map Prod.fst).Nodup) :
    (sortFields fields).Perm fields ∧ Ordered (sortFields fields) := by
  induction fields using List.reverseRecOn with
  | nil => exact ⟨.refl _, .nil⟩
  | append_singleton fields field ih =>
    obtain ⟨name, value⟩ := field
    rw [List.map_append, List.nodup_append] at h
    obtain ⟨hnodup, -, hnew⟩ := h
    obtain ⟨hperm, hordered⟩ := ih hnodup
    have hsort : sortFields (fields ++ [(name, value)]) =
        insertField name value (sortFields fields) := List.foldl_concat ..
    have hname : name ∉ (sortFields fields).map Prod.fst := by
      intro hm
      exact hnew name ((hperm.map _).mem_iff.1 hm) name (by simp) rfl
    rw [hsort]
    exact ⟨((insertField_perm hname).trans (hperm.cons _)).trans
      (List.perm_append_singleton _ _).symm, insertField_ordered hname hordered⟩

theorem Ordered.nodup (h : Ordered fields) : (fields.map Prod.fst).Nodup := by
  rw [List.Nodup, List.pairwise_map]
  refine List.Pairwise.imp ?_ h
  intro a b hless he
  rw [he, Bytes.lessThan_irrefl] at hless
  cases hless

/-- There is one order only. -/
theorem Ordered.eq_of_perm (h : Ordered fields) (h' : Ordered fields')
    (hperm : fields.Perm fields') : fields = fields' := by
  refine List.Perm.eq_of_pairwise ?_ h h' hperm
  intro a b _ _ hab hba
  have hself := Bytes.lessThan_trans hab hba
  rw [Bytes.lessThan_irrefl] at hself
  cases hself

/-- An object does not depend on the order in which it was given its fields. -/
theorem sortFields_perm (h : (fields.map Prod.fst).Nodup) (hperm : fields.Perm fields') :
    sortFields fields = sortFields fields' := by
  have h' : (fields'.map Prod.fst).Nodup := (hperm.map _).nodup_iff.1 h
  obtain ⟨hsort, hordered⟩ := sortFields_spec h
  obtain ⟨hsort', hordered'⟩ := sortFields_spec h'
  exact hordered.eq_of_perm hordered' ((hsort.trans hperm).trans hsort'.symm)

/-- Fields that are in order stay as they are. -/
theorem Ordered.sortFields_eq (h : Ordered fields) : sortFields fields = fields := by
  obtain ⟨hsort, hordered⟩ := sortFields_spec h.nodup
  exact hordered.eq_of_perm h hsort

end Json

end PatternEngine
