import PatternEngine.Proofs.Engine.Lifetimes
import PatternEngine.Proofs.Importer.Closed
/-!
# Engines are closed

Whatever is called, all that an engine with the standard module keeps is closed: the bindings, the
exports of the packages found, and the sources of the patterns that have a handle. So the source
that a trace reports can be compiled again anywhere, and finds the same there
(`environment_closed`).
-/
namespace PatternEngine

namespace Environment

variable {env : Environment} {expression : Bytes} {pattern : Environment.Pattern}

/-- A pattern that depends on nothing but its source. -/
structure Pattern.Closed (pattern : Environment.Pattern) : Prop where
  source : PatternEngine.Closed pattern.source
  matcher : ∀ name, Matcher.compile pattern.source name = .ok { pattern.matcher with name }
  not_blank : pattern.source.all Source.isBlank = false

theorem Closed.compile (h : env.Closed) (hc : env.compile expression = .ok pattern) :
    pattern.Closed := by
  unfold Environment.compile at hc
  split at hc
  · cases hc
  · rename_i hblank
    cases hb : build env.bindings expression expression with
    | error obstacle =>
      rw [hb] at hc
      cases hc
    | ok built =>
      rw [hb] at hc
      cases hc
      obtain ⟨hexpand, hm⟩ := build_cases hb
      refine ⟨Bindings.closed_of_build h.bindings hb, Matcher.compile_rename hm, ?_⟩
      exact Source.not_blank_of_expand (by simpa using hblank) hexpand

/-- The source of a closed pattern compiles to the same in every environment. -/
theorem Pattern.Closed.compile_source (h : pattern.Closed) (env : Environment) :
    env.compile pattern.source = .ok ⟨pattern.source, pattern.source,
      { pattern.matcher with name := matcherName pattern.source }⟩ := by
  unfold Environment.compile build
  simp only [h.not_blank, Bool.false_eq_true, if_false, Source.expand_plain h.source.plain,
    h.matcher]

end Environment

/-- No call opens an environment. -/
theorem Call.closed_environment {files : FileSystem} {env : Environment} (call : Call)
    (h : env.Closed) : (call.environment files env).Closed := by
  cases call with
  | load source => exact Importer.load_closed h _ _
  | loadFile path => exact Importer.loadFile_closed h _
  | importPackage package under => exact Importer.importPackage_closed h _ _
  | setSearchPath path => exact ⟨h.bindings, h.packages⟩
  | _ => exact h

namespace Standard

open PatternEngine.Action PatternEngine.Engine

variable {e₀ e : StandardEngine} {allowed : Call → World → Prop} {handle : Handle} {v : Value}

/-- All that an engine keeps is closed. -/
structure ClosedEngine (e : StandardEngine) : Prop where
  environment : e.state.environment.Closed
  patterns : ∀ v, some v ∈ e.patterns.entries →
    ∃ pattern, v = StandardModule.patternObject pattern ∧ pattern.Closed

theorem after_closed (hs : Shipped e) (h : ClosedEngine e) (call : Call) (world : World) :
    ClosedEngine (call.after world e) := by
  constructor
  · rw [(after_environment hs call world).2]
    exact call.closed_environment h.environment
  · exact after_allPatterns hs (fun _ _ => h.environment.compile) h.patterns call world

theorem closed_of_steps (hfresh : Fresh e₀) (h : Steps allowed e₀ e) : ClosedEngine e := by
  refine keeps_of_steps hfresh.shipped
    (fun call world e hs he => after_closed hs he call world) h ⟨⟨?_, ?_⟩, ?_⟩
  · rw [hfresh.bindings]
    exact Bindings.closed_nil
  · rw [hfresh.packages]
    intro entry hm
    cases hm
  · exact allPatterns_fresh hfresh

/-- A trace as a document tells the source. -/
theorem document_source (s : Tracing.Subject) : (Tracing.document s).field? (text "source") =
    some (.str (Text.Utf8.lossy s.source)) := by
  unfold Tracing.document Tracing.rangeFields
  cases s.found <;> rfl

/-- Matchers that find the same give the same answers, but for the name in a document. -/
theorem replyOf_congr {m m' : Matcher} {start : Int} {input : Bytes}
    (h : Primitive.matchAt m' input start = Primitive.matchAt m input start) (encoder : Bytes) :
    let a := replyOf m start encoder input
    let a' := replyOf m' start encoder input
    a'.status = a.status ∧ a'.leftover = a.leftover ∧ a'.abend = a.abend ∧
      (encoder ≠ text "json" → encoder ≠ text "default" → a'.data = a.data) := by
  unfold replyOf
  by_cases hencoder : encoder ∈ encoderNames
  · simp only [hencoder, if_true]
    unfold answerOf
    rw [h]
    rcases Primitive.matchAt m input start with _ | ⟨index, _ | found⟩
    · exact ⟨rfl, rfl, rfl, fun _ _ => rfl⟩
    · exact ⟨rfl, rfl, rfl, fun _ _ => rfl⟩
    · refine ⟨rfl, rfl, rfl, fun hjson hdefault => ?_⟩
      rw [encoding_congr hencoder hjson hdefault]
  · simp only [hencoder, if_false]
    exact ⟨trivial, trivial, trivial, fun _ _ => trivial⟩

/-- Every source that an engine keeps, for a name, for a package or in a pattern, is valid text, can
be compiled and has no references, so that expanding leaves it as it is. A trace of a pattern tells
its source, and wherever this is compiled, it is a pattern again that finds the same. -/
theorem environment_closed {gauge : StandardModule.Gauge} {installation : FileSystem}
    {settings : Settings} {standardHome : Bytes} {options : Options}
    (hmade : create (shippedModule gauge) installation settings standardHome options = .ok e₀)
    (hrun : Steps Call.Any e₀ e) :
    (∀ entry ∈ e.state.environment.bindings, Closed entry.2) ∧
    (∀ package ∈ e.state.environment.packages.found, ∀ entry ∈ package.2, Closed entry.2) ∧
    (∀ source, Closed source → ∀ lookup, Source.expand lookup source = .ok source) ∧
    ∀ handle v, e.patterns.get? handle = some v → ∃ pattern,
      v = StandardModule.patternObject pattern ∧ Closed pattern.source ∧
      (∀ files start input, ∃ matched document,
        ((trace files handle start (text "json") input).run e).1 =
          .ok (.traced matched (Json.render document)) ∧
        document.field? (text "source") = some (.str pattern.source)) ∧
      ∀ {gauge' : StandardModule.Gauge} {installation' : FileSystem} {settings' : Settings}
        {standardHome' : Bytes}
        {options' : Options} {e₀' e' : StandardEngine} (files : FileSystem),
        create (shippedModule gauge') installation' settings' standardHome' options' = .ok e₀' →
        Steps Call.Any e₀' e' →
        ∃ pattern', e'.state.environment.compile pattern.source = .ok pattern' ∧
          ((∃ handle' after, Compiles files pattern.source e' pattern' handle' after) ↔
            ¬e'.patterns.Full) ∧
          ∀ {handle' : Handle} {after : StandardEngine},
            Compiles files pattern.source e' pattern' handle' after → ∀ start input,
              Primitive.matchAt pattern'.matcher input start =
                Primitive.matchAt pattern.matcher input start ∧
              ∀ encoder, ∃ a a' : Answer,
                answer files handle start encoder input e = some a ∧
                answer files handle' start encoder input after = some a' ∧
                a'.status = a.status ∧ a'.leftover = a.leftover ∧ a'.abend = a.abend ∧
                (encoder ≠ text "json" → encoder ≠ text "default" → a'.data = a.data) := by
  have hfresh := (fresh_of_create hmade).1
  have hs : Shipped e := shipped_of_steps hfresh.shipped hrun
  have hclosed := closed_of_steps hfresh hrun
  refine ⟨hclosed.environment.bindings, hclosed.environment.packages,
    fun source h => Source.expand_plain h.plain, ?_⟩
  intro handle v hv
  obtain ⟨pattern, rfl, hpattern⟩ := hclosed.patterns v (HandleTable.mem_of_get? hv)
  refine ⟨pattern, rfl, hpattern.source, ?_, ?_⟩
  · intro files start input
    refine ⟨(subjectOf pattern start input).found.isSome,
      Tracing.document (subjectOf pattern start input), ?_, ?_⟩
    · rw [trace_run files hs hv]
      rfl
    · obtain ⟨m, hm⟩ := hpattern.source.compiles []
      obtain ⟨chars, -, hchars, -⟩ := Matcher.compile_ok hm
      rw [document_source]
      exact congrArg (fun source => some (Json.str source)) (Text.Utf8.lossy_chars hchars)
  · intro gauge' installation' settings' standardHome' options' e₀' e' files hmade' hrun'
    have hfresh' := (fresh_of_create hmade').1
    have hs' : Shipped e' := shipped_of_steps hfresh'.shipped hrun'
    have hcompile := hpattern.compile_source e'.state.environment
    refine ⟨_, hcompile, compiles_iff files hs' (sound_of_steps hfresh' hrun') hcompile, ?_⟩
    intro handle' after hcompiles start input
    have hsame : Primitive.matchAt { pattern.matcher with
        name := Environment.matcherName pattern.source } input start =
          Primitive.matchAt pattern.matcher input start := rfl
    refine ⟨hsame, ?_⟩
    intro encoder
    exact ⟨_, _, answer_live files hs hv start encoder input,
      answer_live files hcompiles.shipped hcompiles.found start encoder input,
      replyOf_congr hsame encoder⟩

/-- A pattern that was built from a name, in a new engine. -/
theorem environment_closed_sample : ∃ e : StandardEngine,
    (∃ entry, entry ∈ e.state.environment.bindings) ∧
    ∃ v, e.patterns.get? ⟨1⟩ = some v ∧ ∃ pattern,
      v = StandardModule.patternObject pattern ∧ Closed pattern.source ∧
      ∃ pattern', e.state.environment.compile pattern.source = .ok pattern' := by
  obtain ⟨e₀, hmade, hbound, v, hv⟩ : ∃ e₀ : StandardEngine,
      create standardModule sample {} (text "r") {} = .ok e₀ ∧
      let e := e₀.afterAll [(.load (text "x = a"), ⟨sample, [], [], []⟩),
        (.compile (text "${x}"), ⟨sample, [], [], []⟩)]
      (∃ entry, entry ∈ e.state.environment.bindings) ∧
        ∃ v, e.patterns.get? ⟨1⟩ = some v :=
    ⟨_, rfl, ⟨_, List.mem_cons_self⟩, _, rfl⟩
  have hsteps := e₀.steps_afterAll [(.load (text "x = a"), ⟨sample, [], [], []⟩),
    (.compile (text "${x}"), ⟨sample, [], [], []⟩)]
  obtain ⟨-, -, -, hlive⟩ := environment_closed hmade hsteps
  obtain ⟨pattern, hpattern, hclosed, -, hanywhere⟩ := hlive ⟨1⟩ v hv
  obtain ⟨pattern', hcompile, -⟩ := hanywhere sample hmade hsteps
  exact ⟨_, hbound, v, hv, pattern, hpattern, hclosed, pattern', hcompile⟩

end Standard

end PatternEngine
