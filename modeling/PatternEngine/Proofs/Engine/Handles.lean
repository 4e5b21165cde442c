import PatternEngine.Proofs.Engine.Patterns
/-!
# Handle tables as finite maps

The free handles of a table are those of its gaps, and none of them is kept twice (`Exact`). Putting
a value in and taking one out therefore change what is found under one handle only
(`Exact.insert`, `Exact.remove`).
-/
namespace PatternEngine.HandleTable

variable {α : Type} {t t' : HandleTable α} {handle other : Handle} {v : α}

/-- The handles that can be given out again are those of the gaps, each of them once. -/
structure Exact (t : HandleTable α) : Prop where
  nodup : t.free.Nodup
  gaps : ∀ handle, handle ∈ t.free ↔
    handle.number ≠ 0 ∧ handle.number ≤ t.entries.length ∧ t.get? handle = none

theorem get?_zero (h : handle.number = 0) : t.get? handle = none := by
  simp [get?, Handle.index?, h]

theorem get?_eq (h : handle.number ≠ 0) : t.get? handle = (t.entries[handle.number - 1]?).join := by
  simp [get?, Handle.index?, h]

theorem get?_beyond (h : t.entries.length < handle.number) : t.get? handle = none := by
  have hlen : t.entries.length ≤ handle.number - 1 := by omega
  rw [get?_eq (by omega), List.getElem?_eq_none hlen]
  rfl

theorem number_ne (h : other ≠ handle) : other.number ≠ handle.number := by
  intro he
  apply h
  cases other
  cases handle
  simp_all

/-- What is found after one entry has been replaced. -/
theorem get?_set {x : Option α} {free : List Handle} (hne : handle.number ≠ 0)
    (hle : handle.number ≤ t.entries.length) :
    ({ t with entries := t.entries.set (handle.number - 1) x, free } : HandleTable α).get? other =
      if other = handle then x else t.get? other := by
  by_cases ho : other = handle
  · subst ho
    have hlt : other.number - 1 < t.entries.length := by omega
    simp [get?_eq hne, hlt]
  · rw [if_neg ho]
    by_cases hz : other.number = 0
    · rw [get?_zero hz, get?_zero hz]
    · have hnumber := number_ne ho
      have hindex : handle.number - 1 ≠ other.number - 1 := by omega
      rw [get?_eq hz, get?_eq hz, List.getElem?_set_ne hindex]

/-- What is found after an entry has been added behind all others. -/
theorem get?_concat : ({ t with entries := t.entries ++ [some v] } : HandleTable α).get? other =
    if other = ⟨t.entries.length + 1⟩ then some v else t.get? other := by
  by_cases hz : other.number = 0
  · have hne : other ≠ ⟨t.entries.length + 1⟩ := by
      rintro rfl
      simp at hz
    rw [if_neg hne, get?_zero hz, get?_zero hz]
  · rw [get?_eq hz, get?_eq hz]
    by_cases ho : other = ⟨t.entries.length + 1⟩
    · subst ho
      simp
    · have hnumber : other.number ≠ t.entries.length + 1 := number_ne ho
      rw [if_neg ho, List.getElem?_append]
      by_cases hlt : other.number - 1 < t.entries.length
      · rw [if_pos hlt]
      · have hbeyond : t.entries.length ≤ other.number - 1 := by omega
        have hone : 1 ≤ other.number - 1 - t.entries.length := by omega
        rw [if_neg hlt, List.getElem?_eq_none (by simpa using hone),
          List.getElem?_eq_none hbeyond]

theorem exact_empty {limit : Nat} : ({ limit } : HandleTable α).Exact := by
  constructor
  · simp
  · intro handle
    simp
    omega

/-- A value that is put in has a handle that was not in use, and all else is found as before. -/
theorem Exact.insert (ht : t.Exact) (h : t.insert v = some (handle, t')) :
    t.get? handle = none ∧ handle.number ≠ 0 ∧
      (∀ other, t'.get? other = if other = handle then some v else t.get? other) ∧ t'.Exact := by
  unfold HandleTable.insert at h
  split at h
  · rename_i first free hfree
    cases h
    have hmem : handle ∈ t.free := by simp [hfree]
    obtain ⟨hne, hle, hgap⟩ := (ht.gaps handle).1 hmem
    have hnodup := ht.nodup
    rw [hfree, List.nodup_cons] at hnodup
    have hget : ∀ other, ({ t with
        entries := t.entries.set (handle.number - 1) (some v), free } : HandleTable α).get? other =
          if other = handle then some v else t.get? other := fun other => get?_set hne hle
    refine ⟨hgap, hne, hget, hnodup.2, fun other => ?_⟩
    rw [hget other]
    by_cases ho : other = handle
    · subst ho
      simp [hnodup.1]
    · have hiff := ht.gaps other
      simp only [hfree, List.mem_cons, ho, false_or] at hiff
      simp [hiff, ho]
  · rename_i hfree
    dsimp only at h
    split at h
    · cases h
      refine ⟨get?_beyond (by simp), by simp, fun other => get?_concat, by simp [hfree],
        fun other => ?_⟩
      have hiff := ht.gaps other
      rw [get?_concat]
      simp only [hfree, List.not_mem_nil, false_iff, List.length_append, List.length_cons,
        List.length_nil] at hiff ⊢
      rintro ⟨hne, hle, hget⟩
      by_cases ho : other = ⟨t.entries.length + 1⟩
      · simp [ho] at hget
      · rw [if_neg ho] at hget
        have hnumber : other.number ≠ t.entries.length + 1 := number_ne ho
        exact hiff ⟨hne, by omega, hget⟩
    · cases h

theorem remove_eq_none_iff : t.remove handle = none ↔ t.get? handle = none := by
  unfold HandleTable.remove
  split
  · rename_i i value hi hv
    simp [hv]
  · rename_i hnone
    simp only [true_iff]
    cases hv : t.get? handle with
    | none => rfl
    | some v =>
      have hne := (number_of_get? hv).1
      exact absurd hv (hnone _ _ (index?_eq hne))

/-- A value that is taken out was found, and all else is found as before. -/
theorem Exact.remove (ht : t.Exact) (h : t.remove handle = some (v, t')) :
    t.get? handle = some v ∧
      (∀ other, t'.get? other = if other = handle then none else t.get? other) ∧ t'.Exact := by
  unfold HandleTable.remove at h
  split at h
  · rename_i i value hi hv
    cases h
    obtain ⟨hne, hle⟩ := number_of_get? hv
    cases (index?_eq hne).symm.trans hi
    have hget : ∀ other, ({ t with
        entries := t.entries.set (handle.number - 1) none
        free := handle :: t.free } : HandleTable α).get? other =
          if other = handle then none else t.get? other := fun other => get?_set hne hle
    have hused : handle ∉ t.free := by
      intro hm
      have hgap := ((ht.gaps handle).1 hm).2.2
      rw [hv] at hgap
      cases hgap
    refine ⟨hv, hget, List.nodup_cons.2 ⟨hused, ht.nodup⟩, fun other => ?_⟩
    rw [hget other]
    by_cases ho : other = handle
    · subst ho
      simp [hne, hle]
    · have hiff := ht.gaps other
      simp [hiff, ho]
  · cases h

end PatternEngine.HandleTable
