import PatternEngine.Proofs.Engine.Subjects
import PatternEngine.Proofs.Value.Layout
/-!
# Traces of live patterns

A trace of a pattern that has a handle depends on the pattern alone (`trace_run`). The trace in the
style `json` is a document (`Tracing.document`), which can always be written.
-/
namespace PatternEngine

open PatternEngine.Text

namespace Tracing

/-- The document of a group. -/
def captureDocument (input : Bytes) (c : Capture) : Json := Json.ofFields [
  (text "name", .str (Utf8.lossy c.name)),
  (text "s", .int (c.span.start + 1)),
  (text "e", .int (c.span.stop + 1)),
  (text "data", .str (Utf8.lossy (c.span.slice input)))]

/-- The fields that tell where the match is. -/
def rangeFields : Option Match → List (Bytes × Json)
  | some found => [
    (text "s", .int (found.span.start + 1)), (text "e", .int (found.span.stop + 1))]
  | none => []

/-- The trace as a document. -/
def document (s : Subject) : Json := Json.ofFields <|
  [(text "expression", .str (Utf8.lossy s.expression)),
    (text "source", .str (Utf8.lossy s.source)),
    (text "start", .int s.start),
    (text "matched", .bool s.found.isSome)] ++ rangeFields s.found ++
  [(text "leftover", .int s.leftover),
    (text "subs", .array ((captures s).map (captureDocument s.input)))]

theorem captureRecord_document (input : Bytes) (c : Capture) (depth : Nat)
    (hdepth : depth < maxDepth) :
    (captureRecord input c).document depth = .ok (captureDocument input c) := by
  have hn : ¬maxDepth ≤ depth := by omega
  unfold captureRecord Value.record
  rw [Value.document, if_neg hn]
  rfl

theorem captureRecords_documents (input : Bytes) (cs : List Capture) {depth : Nat}
    (hdepth : depth < maxDepth) :
    Value.itemDocuments depth (cs.map (captureRecord input)) =
      .ok (cs.map (captureDocument input)) := by
  induction cs with
  | nil => rfl
  | cons c cs ih =>
    simp only [List.map_cons, Value.itemDocuments, captureRecord_document input c depth hdepth, ih]
    rfl

theorem subs_document (input : Bytes) (cs : List Capture) {depth : Nat}
    (hdepth : depth + 1 < maxDepth) :
    (Value.table (cs.map (captureRecord input)) []).document depth =
      .ok (.array (cs.map (captureDocument input))) := by
  have hn : ¬maxDepth ≤ depth := by omega
  rw [Value.document.eq_def]
  simp only [hn, if_false]
  cases cs with
  | nil => rfl
  | cons c cs =>
    have hitems := captureRecords_documents input (c :: cs) hdepth
    simp only [List.map_cons] at hitems ⊢
    rw [hitems]
    rfl

/-- The record of a trace has a document. -/
theorem record_document (s : Subject) : (record s).document 0 = .ok (document s) := by
  have hroom : 1 + 1 < maxDepth := by decide
  have hsubs := subs_document s.input (captures s) hroom
  have hdepth : ¬maxDepth ≤ 0 := by decide
  unfold record Value.record document rangeFields
  cases s.found <;> rw [Value.document, if_neg hdepth] <;>
    simp only [List.filter_cons, List.filter_nil, List.map_cons, List.map_nil, Value.isNil,
      Option.elim, Bool.not_true, Bool.not_false, Bool.false_eq_true, if_true, if_false,
      Value.fieldDocuments, hsubs] <;> rfl

theorem encode_record (s : Subject) : (record s).encode = .ok (document s).render := by
  rw [Value.encode_eq, record_document]
  rfl

theorem record_isEmpty (s : Subject) : (record s).isEmpty = false := by
  unfold record Value.record
  rfl

/-- The bytes of a trace. -/
def bytes : TraceStyle → Subject → Bytes
  | .condensed, s => lines false s
  | .full, s => lines true s
  | .json, s => (document s).render

end Tracing

namespace Standard

open PatternEngine.Action PatternEngine.Engine

variable {e : StandardEngine} {files : FileSystem} {handle : Handle}
  {pattern : Environment.Pattern} {start : Int} {style input : Bytes}

/-- What a trace of a pattern is told of. -/
def subjectOf (pattern : Environment.Pattern) (start : Int) (input : Bytes) : Tracing.Subject :=
  Tracing.subject pattern.matcher pattern.expression pattern.source input start

/-- The trace that a pattern gives. -/
def traceOf (pattern : Environment.Pattern) (start : Int) (style input : Bytes) : TraceOutcome :=
  match TraceStyle.ofName? style with
  | none => .invalidStyle
  | some style =>
    let subject := subjectOf pattern start input
    .traced subject.found.isSome (Tracing.bytes style subject)

/-- A trace as a document is marshalled, one in lines is a text already. -/
theorem traceBytes_run (files : FileSystem) (h : Shipped e) (style : TraceStyle)
    (s : Tracing.Subject) :
    (traceBytes files (Tracing.render style s)).run e = (.ok (Tracing.bytes style s), e) := by
  cases style with
  | condensed => rfl
  | full => rfl
  | json =>
    have hmarshal := marshal_run files h (Tracing.record_isEmpty s) (Tracing.encode_record s)
    have htable : (Tracing.render .json s).isTable = true := rfl
    unfold traceBytes
    rw [htable, if_pos rfl]
    dsimp only [Tracing.render]
    rw [run_bind_ok hmarshal]
    rfl

/-- A trace of a pattern that has a handle depends on the pattern alone. -/
theorem trace_run (files : FileSystem) (h : Shipped e)
    (hp : e.patterns.get? handle = some (StandardModule.patternObject pattern)) :
    (trace files handle start style input).run e =
      (.ok (traceOf pattern start style input), e) := by
  unfold trace
  rw [run_bind_ok (govern_run h), run_bind_ok (run_get e), hp]
  dsimp only
  rw [run_bind, callMethod_run (by rw [h.methods]; rfl), ← run_bind]
  unfold traceOf
  cases hs : TraceStyle.ofName? style with
  | none =>
    have hcall : (call StandardModule.trace "trace" files [StandardModule.patternObject pattern,
        .str input, .int start, .str style]).run e =
          (.ok [.bool false, .bool false, .str []], e) := by
      rw [call_run]
      simp only [StandardModule.trace, hs]
    rw [run_bind_ok hcall]
    rfl
  | some known =>
    have hcall : (call StandardModule.trace "trace" files [StandardModule.patternObject pattern,
        .str input, .int start, .str style]).run e =
          (.ok [.bool true, .bool (subjectOf pattern start input).found.isSome,
            Tracing.render known (subjectOf pattern start input)], e) := by
      rw [call_run, StandardModule.trace_eq hs]
      rfl
    have hflag : ∀ (what : String) (b : Bool), (flag what (.bool b)).run e = (.ok b, e) :=
      fun _ _ => rfl
    rw [run_bind_ok hcall]
    dsimp only
    rw [run_bind_ok (hflag _ _), if_pos rfl, run_bind_ok (hflag _ _),
      run_bind_ok (traceBytes_run files h known _)]
    rfl

/-- Without a pattern there is no trace. -/
theorem trace_run_none (files : FileSystem) (h : Shipped e) (hp : e.patterns.get? handle = none) :
    (trace files handle start style input).run e = (.ok .noSuchPattern, e) := by
  unfold trace
  rw [run_bind_ok (govern_run h), run_bind_ok (run_get e), hp]
  rfl

end Standard

end PatternEngine
