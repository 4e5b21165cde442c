import PatternEngine.Proofs.Engine.Standard
/-!
# Operations that only look

Matching, tracing and asking for settings change nothing of an engine with the standard module but
the bytes of the last results (`Unmoved`), whether they end in a fault or not.
-/
namespace PatternEngine.Standard

open PatternEngine.Action PatternEngine.Engine

variable {e : StandardEngine} {files : FileSystem}

/-- An engine has changed in nothing but the bytes of the last results. -/
structure Unmoved (e e' : StandardEngine) : Prop where
  slots : e'.slots = e.slots
  state : e'.state = e.state
  patterns : e'.patterns = e.patterns
  limit : e'.limit = e.limit

theorem Unmoved.refl (e : StandardEngine) : Unmoved e e := ⟨rfl, rfl, rfl, rfl⟩

theorem Unmoved.trans {e₁ e₂ e₃ : StandardEngine} (h₁ : Unmoved e₁ e₂) (h₂ : Unmoved e₂ e₃) :
    Unmoved e₁ e₃ :=
  ⟨h₂.slots.trans h₁.slots, h₂.state.trans h₁.state, h₂.patterns.trans h₁.patterns,
    h₂.limit.trans h₁.limit⟩

theorem Unmoved.get? {e e' : StandardEngine} (hu : Unmoved e e') {handle : Handle} {v : Value}
    (h : e.patterns.get? handle = some v) : e'.patterns.get? handle = some v := by
  rw [hu.patterns]
  exact h

theorem Unmoved.shipped {e e' : StandardEngine} (hu : Unmoved e e') (h : Shipped e) :
    Shipped e' := h.of_slots hu.slots

/-- A step that is followed by others. What follows still finds the standard module. -/
theorem Unmoved.bind {α β : Type} {a : Action (StandardModule.State Unit) α}
    {f : α → Action (StandardModule.State Unit) β} (h : Shipped e)
    (ha : Unmoved e (a.run e).2)
    (hf : ∀ x (e' : StandardEngine), Shipped e' → Unmoved e' ((f x).run e').2) :
    Unmoved e ((a >>= f).run e).2 := by
  rw [run_bind]
  split <;> rename_i hr <;> rw [hr] at ha
  · exact ha.trans (hf _ _ (ha.shipped h))
  · exact ha

/-- An entry point that leaves the state of the module as it is. -/
theorem call_unmoved {entry : EntryPoint (StandardModule.State Unit)} {arguments : List Value}
    (hentry : (entry files arguments e.state).2 = e.state) (name : String) :
    Unmoved e ((call entry name files arguments).run e).2 := by
  rw [call_run]
  split <;> rename_i hr <;> rw [hr] at hentry <;> exact ⟨rfl, hentry, rfl, rfl⟩

theorem marshal_unmoved (h : Shipped e) (v : Value) :
    Unmoved e ((marshal files v).run e).2 := by
  unfold marshal
  split
  · exact .refl e
  · rw [run_bind_ok (run_get e), h.encoder]
    refine .bind h (call_unmoved rfl _) fun values e' _ => ?_
    split
    · split <;> exact .refl e'
    · exact .refl e'

/-- The extensions of the standard module keep nothing. -/
theorem extension?_stateless {name : Bytes} {x : StandardModule.Extension Unit}
    (hx : StandardModule.extension? StandardModule.extensions name = some x) :
    (∃ v, x = .value v) ∨ ∃ reply, x = .function (StandardModule.stateless reply) := by
  unfold StandardModule.extension? at hx
  split at hx
  · cases hx
    exact .inl ⟨_, rfl⟩
  · simp only [StandardModule.extensions, List.lookup_cons] at hx
    split at hx
    · cases hx; exact .inl ⟨_, rfl⟩
    · split at hx
      · cases hx; exact .inr ⟨_, rfl⟩
      · split at hx
        · cases hx; exact .inr ⟨_, rfl⟩
        · split at hx
          · cases hx; exact .inr ⟨_, rfl⟩
          · cases hx

/-- Matching with an extension changes nothing in the module. -/
theorem matchInput_state (arguments : List Value) (s : StandardModule.State Unit) :
    (StandardModule.matchInput StandardModule.extensions files arguments s).2 = s := by
  unfold StandardModule.matchInput
  split
  · rename_i name
    dsimp only
    split
    · rfl
    · rfl
    · rfl
    · rename_i x _ _ hx
      split
      · rfl
      · rcases extension?_stateless hx with ⟨v, rfl⟩ | ⟨reply, rfl⟩
        · rfl
        · simp only [StandardModule.runExtension, StandardModule.ofHost, StandardModule.stateless]
          generalize reply _ = r
          cases r <;> rfl
      · rfl
  · rfl

theorem trace_state (arguments : List Value) (s : StandardModule.State Unit) :
    (StandardModule.trace files arguments s).2 = s := by
  unfold StandardModule.trace
  split
  · split
    · rfl
    · split <;> rfl
  · rfl

theorem integer_unmoved (what : String) (v : Value) :
    Unmoved e ((integer what v).run e).2 := by
  unfold integer
  split <;> exact .refl e

theorem keepResult_unmoved (result : Value) : Unmoved e ((keepResult result).run e).2 := by
  unfold keepResult
  split <;> exact ⟨rfl, rfl, rfl, rfl⟩

theorem decode_unmoved (h : Shipped e) (values : List Value) :
    Unmoved e ((decode values).run e).2 := by
  unfold decode
  split
  · refine .bind h (integer_unmoved _ _) fun leftover e h => ?_
    split
    · refine .bind h (integer_unmoved _ _) fun total e h => ?_
      refine .bind h (integer_unmoved _ _) fun time e h => ?_
      exact .bind h (keepResult_unmoved _) fun data e _ => .refl e
    · exact .refl e
  · exact .refl e

theorem scriptedMatch_unmoved (h : Shipped e) (pattern : Value) (start : Int)
    (encoder input : Bytes) :
    Unmoved e ((scriptedMatch files pattern start encoder input).run e).2 := by
  unfold scriptedMatch
  refine .bind h ⟨rfl, rfl, rfl, rfl⟩ fun _ e h => ?_
  rw [run_bind, callMethod_run (by rw [h.methods]; rfl), ← run_bind]
  exact .bind h (call_unmoved (matchInput_state _ _) _) fun values e h => decode_unmoved h values

theorem nativeMatch_unmoved (h : Shipped e) (pattern : Value) (start : Int)
    (encoder : BuiltinEncoder) (input : Bytes) :
    Unmoved e ((nativeMatch pattern start encoder input).run e).2 := by
  unfold nativeMatch
  split
  · exact .bind h ⟨rfl, rfl, rfl, rfl⟩ fun _ e _ => .refl e
  · exact .refl e

theorem dispatch_unmoved (h : Shipped e) (handle : Handle) (start : Int) (encoder input : Bytes) :
    Unmoved e ((dispatch files handle start encoder input).run e).2 := by
  unfold dispatch
  rw [run_bind_ok (run_get e)]
  split
  · exact .refl e
  · split
    · exact nativeMatch_unmoved h _ _ _ _
    · split
      · exact scriptedMatch_unmoved h _ _ _ _
      · exact .refl e

theorem matchInput_unmoved (h : Shipped e) (handle : Handle) (start : Int)
    (encoder input : Bytes) :
    Unmoved e ((matchInput files handle start encoder input).run e).2 := by
  unfold matchInput
  rw [run_bind_ok (govern_run h)]
  exact dispatch_unmoved h _ _ _ _

theorem flag_unmoved (what : String) (v : Value) : Unmoved e ((flag what v).run e).2 := by
  unfold flag
  split <;> exact .refl e

theorem traceBytes_unmoved (h : Shipped e) (v : Value) :
    Unmoved e ((traceBytes files v).run e).2 := by
  unfold traceBytes
  dsimp only
  split
  · refine .bind h (marshal_unmoved h v) fun bytes e _ => ?_
    split <;> exact .refl e
  · refine .bind h (.refl e) fun bytes e _ => ?_
    split <;> exact .refl e

theorem trace_unmoved (h : Shipped e) (handle : Handle) (start : Int) (style input : Bytes) :
    Unmoved e ((trace files handle start style input).run e).2 := by
  unfold trace
  rw [run_bind_ok (govern_run h), run_bind_ok (run_get e)]
  split
  · exact .refl e
  · rw [run_bind, callMethod_run (by rw [h.methods]; rfl), ← run_bind]
    refine .bind h (call_unmoved (trace_state _ _) _) fun values e h => ?_
    split
    · refine .bind h (flag_unmoved _ _) fun known e h => ?_
      split
      · refine .bind h (flag_unmoved _ _) fun matched e h => ?_
        exact .bind h (traceBytes_unmoved h _) fun bytes e _ => .refl e
      · exact .refl e
    · exact .refl e

theorem searchPath_unmoved (h : Shipped e) : Unmoved e ((searchPath files).run e).2 := by
  unfold searchPath
  rw [run_bind, callMethod_run (by rw [h.methods]; rfl), ← run_bind]
  refine .bind h (call_unmoved rfl _) fun values e _ => ?_
  split <;> exact .refl e

theorem config_unmoved (h : Shipped e) : Unmoved e ((config files).run e).2 := by
  unfold config
  obtain ⟨gauge, root, path, hs⟩ := id h
  rw [run_bind_ok (run_get e), hs]
  refine .bind h (call_unmoved rfl _) fun values e h => ?_
  split
  · exact marshal_unmoved h _
  · exact .refl e

theorem queryLimit_run (h : Shipped e) :
    (queryLimit files).run e = (.ok ⟨e.limit.megabytes, inUse e⟩, e) := by
  unfold queryLimit
  rw [run_bind_ok (run_get e), run_bind_ok (usage_run h)]
  rfl

/-! ## Matching files -/

theorem matchRecord_unmoved (files : FileSystem) (h : Shipped e) (r : FileRequest)
    (number : Nat) (record : Bytes) : Unmoved e ((matchRecord files r number record).run e).2 := by
  unfold matchRecord
  dsimp only
  split
  · rw [run_bind_ok (govern_run h)]
    exact .bind h (dispatch_unmoved h _ _ _ _) fun outcome e _ => .refl e
  · exact .bind h (dispatch_unmoved h _ _ _ _) fun outcome e _ => .refl e

theorem matchRecords_unmoved (r : FileRequest) (records : List Bytes) :
    ∀ (tally : Tally) {e : StandardEngine}, Shipped e →
      Unmoved e (matchRecords files r tally records e).2 := by
  induction records with
  | nil => exact fun tally e h => .refl e
  | cons record records ih =>
    intro tally e h
    unfold matchRecords
    have hu := matchRecord_unmoved files h r (tally.records + 1) record
    dsimp only
    split <;> rename_i hr <;> rw [hr] at hu
    · exact hu.trans (ih _ (hu.shipped h))
    · exact hu.trans (ih _ (hu.shipped h))
    · exact hu

theorem processFile_unmoved (h : Shipped e) (r : FileRequest) (world : World) :
    Unmoved e (processFile r world e).2 := by
  unfold processFile
  dsimp only
  split
  · exact .refl e
  · split
    · exact .refl e
    · split
      · exact .refl e
      · split
        · unfold matchInputFile
          dsimp only
          split <;> exact matchRecords_unmoved r _ _ h
        · exact .refl e

theorem matchFile_unmoved (h : Shipped e) (r : FileRequest) (world : World) :
    Unmoved e (matchFile e r world).2 := by
  unfold matchFile
  rw [govern_run h]
  dsimp only
  split
  · exact .refl e
  · split
    · exact processFile_unmoved h r world
    · split
      · exact processFile_unmoved h r world
      · exact .refl e

end PatternEngine.Standard
