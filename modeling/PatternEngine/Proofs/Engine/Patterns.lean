import PatternEngine.Proofs.Engine.Calls
/-!
# The patterns of an engine

A handle table holds what was put into it and nothing else, and gives out a handle as long as there
is one (`insert_none_iff`, `Sound.insert`). An engine with the standard module therefore holds
pattern objects only (`pattern_of_get?`), and a matcher is found in each.
-/
namespace PatternEngine

namespace HandleTable

variable {α : Type} {t t' : HandleTable α} {handle : Handle} {v w : α}

theorem mem_of_get? (h : t.get? handle = some v) : some v ∈ t.entries := by
  obtain ⟨i, -, hi⟩ := Option.bind_eq_some_iff.1 h
  exact List.mem_of_getElem? (Option.join_eq_some_iff.1 hi)

/-- What is in a table after a value was put in, was there before or is this value. -/
theorem mem_insert (h : t.insert v = some (handle, t')) (hw : some w ∈ t'.entries) :
    some w ∈ t.entries ∨ w = v := by
  unfold insert at h
  split at h
  · cases h
    rcases List.mem_or_eq_of_mem_set hw with hw | hw
    · exact .inl hw
    · exact .inr (Option.some.inj hw)
  · dsimp only at h
    split at h
    · cases h
      rcases List.mem_append.1 hw with hw | hw
      · exact .inl hw
      · exact .inr (Option.some.inj (List.mem_singleton.1 hw))
    · cases h

/-- What is in a table after a value was removed was there before. -/
theorem mem_remove (h : t.remove handle = some (v, t')) (hw : some w ∈ t'.entries) :
    some w ∈ t.entries := by
  unfold remove at h
  split at h
  · cases h
    rcases List.mem_or_eq_of_mem_set hw with hw | hw
    · exact hw
    · cases hw
  · cases h

/-- All handles are taken. -/
def Full (t : HandleTable α) : Prop := t.free = [] ∧ t.limit ≤ t.entries.length

theorem insert_none_iff : t.insert v = none ↔ t.Full := by
  unfold insert Full
  split
  · rename_i hfree
    simp [hfree]
  · rename_i hfree
    dsimp only
    split
    · rename_i hle
      simp only [reduceCtorEq, hfree, true_and, false_iff]
      omega
    · rename_i hle
      simp only [hfree, true_and, true_iff]
      omega

/-- Handles that can be given out again have a place among the entries. -/
def Sound (t : HandleTable α) : Prop :=
  ∀ handle ∈ t.free, handle.number ≠ 0 ∧ handle.number ≤ t.entries.length

theorem index?_eq {handle : Handle} (h : handle.number ≠ 0) :
    handle.index? = some (handle.number - 1) := if_neg h

/-- A value that is put in gets a handle, under which it is found. -/
theorem Sound.insert (hs : t.Sound) (h : t.insert v = some (handle, t')) :
    handle.number ≠ 0 ∧ t'.get? handle = some v ∧ t'.Sound := by
  unfold HandleTable.insert at h
  split at h
  · rename_i first free hfree
    cases h
    obtain ⟨hne, hle⟩ := hs handle (by simp [hfree])
    refine ⟨hne, ?_, fun other ho => ?_⟩
    · have hlt : handle.number - 1 < t.entries.length := by omega
      unfold get?
      rw [index?_eq hne]
      simp [hlt]
    · obtain ⟨hne, hle⟩ := hs other (by simp [hfree, ho])
      exact ⟨hne, by rwa [List.length_set]⟩
  · rename_i hfree
    dsimp only at h
    split at h
    · cases h
      refine ⟨Nat.succ_ne_zero _, ?_, fun other ho => ?_⟩
      · unfold get?
        rw [index?_eq (Nat.succ_ne_zero _)]
        simp
      · rw [hfree] at ho
        cases ho
    · cases h

/-- A handle under which something is found has a place among the entries. -/
theorem number_of_get? (h : t.get? handle = some v) :
    handle.number ≠ 0 ∧ handle.number ≤ t.entries.length := by
  obtain ⟨i, hi, hv⟩ := Option.bind_eq_some_iff.1 h
  obtain ⟨hlt, -⟩ := List.getElem?_eq_some_iff.1 (Option.join_eq_some_iff.1 hv)
  unfold Handle.index? at hi
  split at hi
  · cases hi
  · rename_i hne
    cases hi
    exact ⟨hne, by omega⟩

theorem Sound.remove (hs : t.Sound) (h : t.remove handle = some (v, t')) : t'.Sound := by
  unfold HandleTable.remove at h
  split at h
  · rename_i i value hi hv
    cases h
    intro other ho
    rw [List.length_set]
    rcases List.mem_cons.1 ho with rfl | ho
    · exact number_of_get? hv
    · exact hs other ho
  · cases h

end HandleTable

namespace Standard

open PatternEngine.Engine

variable {e₀ e : StandardEngine} {allowed : Call → World → Prop}

/-- Every value with a handle is the object of a pattern. -/
def Patterned (e : StandardEngine) : Prop :=
  ∀ v, some v ∈ e.patterns.entries → ∃ pattern, v = StandardModule.patternObject pattern

/-- Every value with a handle is the object of a pattern with this property. -/
def AllPatterns (P : Environment.Pattern → Prop) (e : StandardEngine) : Prop :=
  ∀ v, some v ∈ e.patterns.entries →
    ∃ pattern, v = StandardModule.patternObject pattern ∧ P pattern

/-- A property of whatever compiles is kept, since no pattern gets a handle in another way. -/
theorem after_allPatterns {P : Environment.Pattern → Prop} (hs : Shipped e)
    (hcompile : ∀ expression pattern,
      e.state.environment.compile expression = .ok pattern → P pattern)
    (h : AllPatterns P e) (call : Call) (world : World) : AllPatterns P (call.after world e) := by
  intro v hv
  rcases after_patterns hs call world with
    ht | ⟨expression, pattern, handle, -, hc, ht⟩ | ⟨handle, value, -, ht⟩
  · exact h v (ht ▸ hv)
  · rcases HandleTable.mem_insert ht hv with hv | rfl
    · exact h v hv
    · exact ⟨pattern, rfl, hcompile expression pattern hc⟩
  · exact h v (HandleTable.mem_remove ht hv)

theorem allPatterns_fresh {P : Environment.Pattern → Prop} (hfresh : Fresh e) :
    AllPatterns P e := by
  intro v hv
  rw [hfresh.patterns] at hv
  cases hv

/-- What holds of every pattern that compiles in any environment holds of all patterns. -/
theorem allPatterns_of_steps {P : Environment.Pattern → Prop}
    (hcompile : ∀ (env : Environment) expression pattern,
      env.compile expression = .ok pattern → P pattern)
    (hfresh : Fresh e₀) (h : Steps allowed e₀ e) : AllPatterns P e :=
  keeps_of_steps hfresh.shipped
    (fun call world _ hs hp => after_allPatterns hs (hcompile _) hp call world) h
    (allPatterns_fresh hfresh)

theorem patterned_of_steps (hfresh : Fresh e₀) (h : Steps allowed e₀ e) : Patterned e := by
  have hall : AllPatterns (fun _ => True) e :=
    allPatterns_of_steps (fun _ _ _ _ => trivial) hfresh h
  intro v hv
  obtain ⟨pattern, hpattern, -⟩ := hall v hv
  exact ⟨pattern, hpattern⟩

/-- Handles that are given out again belong to gaps in the table. -/
theorem sound_of_steps (hfresh : Fresh e₀) (h : Steps allowed e₀ e) : e.patterns.Sound := by
  have hempty : e₀.patterns.Sound := by
    rw [hfresh.patterns]
    intro handle hm
    cases hm
  refine keeps_of_steps (P := fun e => e.patterns.Sound) hfresh.shipped ?_ h hempty
  intro call world e hs hp
  rcases after_patterns hs call world with
    ht | ⟨expression, pattern, handle, -, -, ht⟩ | ⟨handle, value, -, ht⟩
  · rw [ht]
    exact hp
  · exact (hp.insert ht).2.2
  · exact hp.remove ht

theorem pattern_of_get? (hp : Patterned e) {handle : Handle} {v : Value}
    (h : e.patterns.get? handle = some v) :
    ∃ pattern, v = StandardModule.patternObject pattern :=
  hp v (HandleTable.mem_of_get? h)

theorem patternObject_peg (pattern : Environment.Pattern) :
    (StandardModule.patternObject pattern).field (text "peg") = .matcher pattern.matcher := rfl

end Standard

end PatternEngine
