import Mathlib.Data.List.Induction
import PatternEngine.Proofs.Engine.Handles
import PatternEngine.Proofs.Engine.Traces
/-!
# The life of a handle

A handle is in use from the call that compiled its pattern until the call that frees it (`InUse`),
and these are the handles under which the table holds something (`inUse_iff`). No other call
reaches what is kept under a handle in use (`after_get?`), so that it means the same for as long as
it lives (`live_handle_keeps_meaning`).
-/
namespace PatternEngine

/-- What a row of calls makes of an engine, each in a world of its own. -/
def Engine.afterAll {σ : Type} (e : Engine σ) (calls : List (Call × World)) : Engine σ :=
  calls.foldl (fun e (call, world) => call.after world e) e

theorem Engine.afterAll_append {σ : Type} (e : Engine σ) (calls later : List (Call × World)) :
    e.afterAll (calls ++ later) = (e.afterAll calls).afterAll later := List.foldl_append

theorem Engine.steps_afterAll {σ : Type} (e : Engine σ) (calls : List (Call × World)) :
    Steps Call.Any e (e.afterAll calls) := by
  induction calls generalizing e with
  | nil => exact .refl
  | cons step calls ih => exact .head ⟨step.1, step.2, trivial, rfl⟩ (ih _)

namespace Standard

open PatternEngine.Action PatternEngine.Engine

variable {e₀ e : StandardEngine} {allowed : Call → World → Prop} {handle : Handle} {v : Value}

theorem after_exact (hs : Shipped e) (ht : e.patterns.Exact) (call : Call) (world : World) :
    (call.after world e).patterns.Exact := by
  rcases after_patterns hs call world with
    hp | ⟨expression, pattern, handle, -, -, hp⟩ | ⟨handle, value, -, hp⟩
  · rw [hp]
    exact ht
  · exact (ht.insert hp).2.2.2
  · exact (ht.remove hp).2.2

/-- The free handles of an engine are those of its gaps. -/
theorem exact_of_steps (hfresh : Fresh e₀) (h : Steps allowed e₀ e) : e.patterns.Exact := by
  have hempty : e₀.patterns.Exact := by
    rw [hfresh.patterns]
    exact HandleTable.exact_empty
  exact keeps_of_steps (P := fun e => e.patterns.Exact) hfresh.shipped
    (fun call world e hs ht => after_exact hs ht call world) h hempty

/-! ## What one call does to what is kept -/

/-- What is kept under a handle stays there, unless this handle is freed. -/
theorem after_get? (hs : Shipped e) (ht : e.patterns.Exact) {call : Call} (world : World)
    (hcall : call ≠ .free handle) (hv : e.patterns.get? handle = some v) :
    (call.after world e).patterns.get? handle = some v := by
  rcases after_patterns hs call world with
    hp | ⟨expression, pattern, other, -, -, hp⟩ | ⟨other, value, rfl, hp⟩
  · rw [hp]
    exact hv
  · obtain ⟨hfree, -, hget, -⟩ := ht.insert hp
    have hne : handle ≠ other := by
      rintro rfl
      rw [hfree] at hv
      cases hv
    rw [hget, if_neg hne]
    exact hv
  · have hne : handle ≠ other := by
      rintro rfl
      exact hcall rfl
    rw [(ht.remove hp).2.1, if_neg hne]
    exact hv

/-- Under a handle that compiling returned, the table holds something. -/
theorem compile_get? (hs : Shipped e) (ht : e.patterns.Exact) {expression : Bytes} {world : World}
    {messages : Option Bytes} {e' : StandardEngine}
    (hrun : (compile world.files expression).run e = (.ok ⟨handle, messages⟩, e'))
    (hne : handle.isNone = false) :
    ∃ v, ((Call.compile expression).after world e).patterns.get? handle = some v := by
  have hafter : (Call.compile expression).after world e = e' := by
    simp only [Call.after, hrun]
  rw [hafter]
  cases hc : e.state.environment.compile expression with
  | error d =>
    obtain ⟨messages', herror⟩ := compile_run_error world.files hs hc
    cases herror.symm.trans hrun
    cases hne
  | ok pattern =>
    rw [compile_run_ok hs hc, keep_run] at hrun
    cases hi : e.patterns.insert (StandardModule.patternObject pattern) with
    | none =>
      rw [hi] at hrun
      cases hrun
    | some inserted =>
      rw [hi] at hrun
      cases hrun
      exact ⟨_, by rw [(ht.insert hi).2.2.1, if_pos rfl]⟩

/-- What is found under a handle after a call was there before, unless the call was the one that
compiled it. -/
theorem get?_after (hs : Shipped e) (ht : e.patterns.Exact) {call : Call} {world : World}
    (hv : (call.after world e).patterns.get? handle = some v) :
    (call ≠ .free handle ∧ e.patterns.get? handle = some v) ∨
      ∃ expression messages e', call = .compile expression ∧
        (compile world.files expression).run e = (.ok ⟨handle, messages⟩, e') ∧
        handle.isNone = false := by
  rcases after_patterns hs call world with
    hp | ⟨expression, pattern, other, rfl, hc, hp⟩ | ⟨other, value, rfl, hp⟩
  · rw [hp] at hv
    refine .inl ⟨?_, hv⟩
    rintro rfl
    -- nothing is kept under a handle once it has been freed
    cases hr : e.patterns.remove handle with
    | none =>
      rw [HandleTable.remove_eq_none_iff.1 hr] at hv
      cases hv
    | some removed =>
      obtain ⟨value, patterns⟩ := removed
      have hfreed : (Call.after world e (.free handle)).patterns = patterns := by
        simp only [Call.after, freePattern_run, hr]
      rw [← hp, hfreed, (ht.remove hr).2.1, if_pos rfl] at hv
      cases hv
  · obtain ⟨-, hnumber, hget, -⟩ := ht.insert hp
    rw [hget] at hv
    by_cases hne : handle = other
    · subst hne
      have hrun : (compile world.files expression).run e = _ := compile_run_ok hs hc
      rw [keep_run, hp] at hrun
      exact .inr ⟨expression, none, _, rfl, hrun, by simpa [Handle.isNone] using hnumber⟩
    · rw [if_neg hne] at hv
      exact .inl ⟨by simp, hv⟩
  · rw [(ht.remove hp).2.1] at hv
    by_cases hne : handle = other
    · rw [if_pos hne] at hv
      cases hv
    · rw [if_neg hne] at hv
      refine .inl ⟨?_, hv⟩
      intro hfree
      exact hne (Call.free.inj hfree).symm

/-! ## What a row of calls does -/

/-- What is kept under a handle stays there as long as it is not freed. -/
theorem afterAll_get? (hs : Shipped e) (ht : e.patterns.Exact) {calls : List (Call × World)}
    (hcalls : ∀ step ∈ calls, step.1 ≠ .free handle) (hv : e.patterns.get? handle = some v) :
    (e.afterAll calls).patterns.get? handle = some v := by
  induction calls generalizing e with
  | nil => exact hv
  | cons step calls ih =>
    obtain ⟨call, world⟩ := step
    have hstep : call ≠ .free handle := hcalls (call, world) (by simp)
    have hrest : ∀ step ∈ calls, step.1 ≠ .free handle :=
      fun step hstep => hcalls step (by simp [hstep])
    have hs' := (after_environment hs call world).1
    exact ih hs' (after_exact hs ht call world) hrest (after_get? hs ht world hstep hv)

/-- A handle that some compiling has returned, and that has not been freed since. -/
def InUse (e₀ : StandardEngine) (calls : List (Call × World)) (handle : Handle) : Prop :=
  ∃ before expression world since messages e,
    calls = before ++ (.compile expression, world) :: since ∧
    (compile world.files expression).run (e₀.afterAll before) = (.ok ⟨handle, messages⟩, e) ∧
    handle.isNone = false ∧ ∀ step ∈ since, step.1 ≠ .free handle

/-- The handles in use are those under which the table holds something. -/
theorem inUse_iff (hfresh : Fresh e₀) (calls : List (Call × World)) :
    InUse e₀ calls handle ↔ ∃ v, (e₀.afterAll calls).patterns.get? handle = some v := by
  have hshipped : ∀ calls, Shipped (e₀.afterAll calls) := fun calls =>
    shipped_of_steps hfresh.shipped (e₀.steps_afterAll calls)
  have hexact : ∀ calls, (e₀.afterAll calls).patterns.Exact := fun calls =>
    exact_of_steps hfresh (e₀.steps_afterAll calls)
  constructor
  · rintro ⟨before, expression, world, since, messages, e, rfl, hrun, hne, hsince⟩
    have hstep : e₀.afterAll (before ++ [(.compile expression, world)]) =
        (Call.compile expression).after world (e₀.afterAll before) := by
      rw [afterAll_append]
      rfl
    obtain ⟨v, hv⟩ := compile_get? (hshipped before) (hexact before) hrun hne
    rw [← hstep] at hv
    refine ⟨v, ?_⟩
    rw [List.append_cons, afterAll_append]
    exact afterAll_get? (hshipped _) (hexact _) hsince hv
  · induction calls using List.reverseRecOn with
    | nil =>
      rintro ⟨v, hv⟩
      have hempty : e₀.patterns.get? handle = some v := hv
      rw [hfresh.patterns] at hempty
      cases HandleTable.mem_of_get? hempty
    | append_singleton calls step ih =>
      obtain ⟨call, world⟩ := step
      rintro ⟨v, hv⟩
      rw [afterAll_append] at hv
      rcases get?_after (hshipped calls) (hexact calls) hv with
        ⟨hcall, hv⟩ | ⟨expression, messages, e', rfl, hrun, hne⟩
      · obtain ⟨before, expression, world', since, messages, e, rfl, hrun, hne, hsince⟩ :=
          ih ⟨v, hv⟩
        refine ⟨before, expression, world', since ++ [(call, world)], messages, e, by simp, hrun,
          hne, ?_⟩
        intro step hstep
        rcases List.mem_append.1 hstep with hstep | hstep
        · exact hsince step hstep
        · cases List.mem_singleton.1 hstep
          exact hcall
      · exact ⟨calls, expression, world, [], messages, e', rfl, hrun, hne, by simp⟩

/-- Without a pattern no file is touched. -/
theorem matchFile_none (hs : Shipped e) (hp : e.patterns.get? handle = none) {r : FileRequest}
    (hr : r.pattern = handle) (world : World) :
    matchFile e r world = ((.ok .noSuchPattern, world), e) := by
  unfold matchFile
  rw [govern_run hs]
  dsimp only
  rw [hr, hp]
  rfl

/-- A handle in use means the same until it is freed: whatever else is done, matching and tracing
come to what they came to before. Without a pattern there is nothing to match, and nothing to
free. -/
theorem live_handle_keeps_meaning {gauge : StandardModule.Gauge} {installation : FileSystem}
    {settings : Settings} {standardHome : Bytes} {options : Options}
    (hmade : create (shippedModule gauge) installation settings standardHome options = .ok e₀)
    (calls : List (Call × World)) (handle : Handle) :
    (InUse e₀ calls handle → ∀ later : List (Call × World),
      (∀ step ∈ later, step.1 ≠ .free handle) → ∀ (files files' : FileSystem) (start : Int)
        (input : Bytes),
        (∀ encoder, ∃ a : Answer, a.status ≠ .noSuchPattern ∧
          answer files handle start encoder input (e₀.afterAll calls) = some a ∧
          answer files' handle start encoder input (e₀.afterAll (calls ++ later)) = some a) ∧
        ∀ style, ∃ outcome : TraceOutcome, outcome ≠ .noSuchPattern ∧
          ((trace files handle start style input).run (e₀.afterAll calls)).1 = .ok outcome ∧
          ((trace files' handle start style input).run (e₀.afterAll (calls ++ later))).1 =
            .ok outcome) ∧
    (¬InUse e₀ calls handle →
      (∀ files start encoder input, answer files handle start encoder input (e₀.afterAll calls) =
        some ⟨.noSuchPattern, none, 0, false⟩) ∧
      (∀ files start style input,
        ((trace files handle start style input).run (e₀.afterAll calls)).1 =
          .ok .noSuchPattern) ∧
      ∀ (r : FileRequest) world, r.pattern = handle →
        (matchFile (e₀.afterAll calls) r world).1 = (.ok .noSuchPattern, world)) ∧
    (handle.isNone = true → ¬InUse e₀ calls handle) ∧
    ∃ freed, ((freePattern handle).run (e₀.afterAll calls)).1 = .ok freed ∧
      (freed = true ↔ InUse e₀ calls handle) := by
  have hfresh := (fresh_of_create hmade).1
  have hrun := e₀.steps_afterAll calls
  have hs := shipped_of_steps hfresh.shipped hrun
  have ht := exact_of_steps hfresh hrun
  have hiff : InUse e₀ calls handle ↔ _ := inUse_iff hfresh calls
  have hnone : ¬InUse e₀ calls handle → (e₀.afterAll calls).patterns.get? handle = none := by
    rw [hiff]
    intro h
    cases hv : (e₀.afterAll calls).patterns.get? handle with
    | none => rfl
    | some v => exact absurd ⟨v, hv⟩ h
  refine ⟨?_, ?_, ?_, ?_⟩
  · intro huse later hlater files files' start input
    obtain ⟨v, hv⟩ := hiff.1 huse
    obtain ⟨pattern, rfl⟩ := pattern_of_get? (patterned_of_steps hfresh hrun) hv
    have hv' := afterAll_get? hs ht hlater hv
    rw [← afterAll_append] at hv'
    have hs' := shipped_of_steps hfresh.shipped (e₀.steps_afterAll (calls ++ later))
    constructor
    · intro encoder
      refine ⟨replyOf pattern.matcher start encoder input, ?_, answer_live files hs hv _ _ _,
        answer_live files' hs' hv' _ _ _⟩
      unfold replyOf answerOf
      split
      · split <;> simp
      · simp
    · intro style
      refine ⟨traceOf pattern start style input, ?_, by rw [trace_run files hs hv],
        by rw [trace_run files' hs' hv']⟩
      unfold traceOf
      split <;> simp
  · intro huse
    have hv := hnone huse
    refine ⟨fun files start encoder input => answer_none files hs hv _ _ _,
      fun files start style input => by rw [trace_run_none files hs hv], ?_⟩
    intro r world hr
    rw [matchFile_none hs hv hr]
  · intro hzero huse
    obtain ⟨before, expression, world, since, messages, e, -, -, hne, -⟩ := huse
    rw [hzero] at hne
    cases hne
  · rw [freePattern_run]
    cases hr : (e₀.afterAll calls).patterns.remove handle with
    | none =>
      refine ⟨false, rfl, ?_⟩
      simp [hiff, HandleTable.remove_eq_none_iff.1 hr]
    | some removed =>
      obtain ⟨value, patterns⟩ := removed
      refine ⟨true, rfl, ?_⟩
      simp [hiff, (ht.remove hr).1]

/-- A name is bound anew and used again after a pattern has been built from it. -/
theorem live_handle_keeps_meaning_sample : ∃ e₀ : StandardEngine,
    let world : World := ⟨sample, [], [], []⟩
    let calls : List (Call × World) :=
      [(.load (text "x = a"), world), (.compile (text "${x}"), world)]
    let later : List (Call × World) :=
      [(.load (text "x = b"), world), (.compile (text "${x}"), world), (.free ⟨2⟩, world)]
    create standardModule sample {} (text "r") {} = .ok e₀ ∧
    InUse e₀ calls ⟨1⟩ ∧ ¬InUse e₀ calls ⟨0⟩ ∧ (∀ step ∈ later, step.1 ≠ .free ⟨1⟩) ∧
    ∃ a : Answer, a.status ≠ .noSuchPattern ∧
      answer sample ⟨1⟩ 1 (text "json") (text "a") (e₀.afterAll (calls ++ later)) = some a := by
  obtain ⟨e₀, hmade, messages, e, hcompiled⟩ : ∃ e₀ : StandardEngine,
      create standardModule sample {} (text "r") {} = .ok e₀ ∧ ∃ messages e,
      (compile sample (text "${x}")).run (e₀.afterAll [(.load (text "x = a"),
        ⟨sample, [], [], []⟩)]) = (.ok ⟨⟨1⟩, messages⟩, e) := ⟨_, rfl, _, _, rfl⟩
  have huse : InUse e₀ [(.load (text "x = a"), ⟨sample, [], [], []⟩),
      (.compile (text "${x}"), ⟨sample, [], [], []⟩)] ⟨1⟩ :=
    ⟨[_], _, _, [], messages, e, rfl, hcompiled, rfl, by simp⟩
  have hlater : ∀ step ∈ ([(.load (text "x = b"), ⟨sample, [], [], []⟩),
      (.compile (text "${x}"), ⟨sample, [], [], []⟩), (.free ⟨2⟩, ⟨sample, [], [], []⟩)] :
        List (Call × World)), step.1 ≠ .free ⟨1⟩ := by simp
  obtain ⟨hlive, -⟩ := live_handle_keeps_meaning hmade _ ⟨1⟩
  obtain ⟨-, -, hzero, -⟩ := live_handle_keeps_meaning hmade _ ⟨0⟩
  obtain ⟨a, hstatus, -, ha⟩ := (hlive huse _ hlater sample sample 1 (text "a")).1 (text "json")
  exact ⟨e₀, hmade, huse, hzero rfl, hlater, a, hstatus, ha⟩

end Standard

end PatternEngine
