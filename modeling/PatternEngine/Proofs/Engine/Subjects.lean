import PatternEngine.Proofs.Engine.Encoders
/-!
# What a trace is told of

The module makes a trace of the values that the matching primitive returns. The same trace is told
of a match and its groups (`Subject`), with ranges for the numbers and what they cut out of the
input for the bytes (`trace_eq`).
-/
namespace PatternEngine

namespace Tracing

/-- What a trace is told of: the expression and its source, where the match was to start, the
bytes left over, and the match if there is one. -/
structure Subject where
  expression : Bytes
  source : Bytes
  input : Bytes
  start : Int
  leftover : Int
  found : Option Match

/-- What matching a pattern at a place has to tell. -/
def subject (matcher : Matcher) (expression source input : Bytes) (start : Int) : Subject :=
  let (leftover, found) : Int × Option Match :=
    match Primitive.matchAt matcher input start with
    | some (_, some found) => ((input.length - found.span.stop : Nat), some found)
    | some (index, none) => ((input.length - index : Nat), none)
    | none => (0, none)
  { expression, source, input, start := max start 1, leftover, found }

/-- The numbers of a range, counted from one. -/
def rangeText (span : Span) : Bytes :=
  Bytes.ofNat (span.start + 1) ++ text ".." ++ Bytes.ofNat (span.stop + 1)

/-- The line that tells whether there is a match. -/
def headline (s : Subject) : Bytes :=
  match s.found with
  | some found =>
    text "Matched " ++ s.expression ++ text " at " ++ rangeText found.span ++
      text ", leftover " ++ Bytes.ofInt s.leftover
  | none => text "No match for " ++ s.expression ++ text " at " ++ Bytes.ofInt s.start

/-- The line that tells of a group. -/
def captureLine (input : Bytes) (c : Capture) : Bytes :=
  text "  " ++ c.name ++ text " " ++ rangeText c.span ++ text ": " ++
    Text.Utf8.lossy (c.span.slice input)

/-- The groups of the match. -/
def captures (s : Subject) : List Capture := (s.found.map Match.captures).getD []

/-- The trace in lines. -/
def lines (full : Bool) (s : Subject) : Bytes :=
  Bytes.join [Bytes.newline] <|
    if full then
      headline s :: (text "  regex: " ++ s.source) :: (captures s).map (captureLine s.input)
    else [headline s]

/-- The record of a group. -/
def captureRecord (input : Bytes) (c : Capture) : Value := .record [
  (text "name", .str c.name),
  (text "s", .int (c.span.start + 1)),
  (text "e", .int (c.span.stop + 1)),
  (text "data", .str (c.span.slice input))]

/-- The trace as a record. -/
def record (s : Subject) : Value := .record [
  (text "expression", .str s.expression),
  (text "source", .str s.source),
  (text "start", .int s.start),
  (text "matched", .bool s.found.isSome),
  (text "s", s.found.elim .nil fun found => .int (found.span.start + 1)),
  (text "e", s.found.elim .nil fun found => .int (found.span.stop + 1)),
  (text "leftover", .int s.leftover),
  (text "subs", .table ((captures s).map (captureRecord s.input)) [])]

/-- The trace in a style. -/
def render : TraceStyle → Subject → Value
  | .condensed, s => .str (lines false s)
  | .full, s => .str (lines true s)
  | .json, s => record s

/-! ## From the values -/

variable {input : Bytes}

/-- What was found, as the values that are listed for it. -/
def Subject.finding (s : Subject) : Finding where
  expression := s.expression
  source := s.source
  position := s.start
  first := s.found.elim (.bool false) fun found => .int (found.span.start + 1)
  last := s.found.elim .nil fun found => .int (found.span.stop + 1)
  leftover := .int s.leftover
  groups := (captures s).map fun c =>
    ⟨.str c.name, .int (c.span.start + 1), .int (c.span.stop + 1), c.span.slice s.input⟩

/-- The groups are read back from the flat list, and the numbers cut out what the ranges do. -/
theorem groups_captureList (cs : List Capture) :
    groups input (Primitive.captureList cs).items = cs.map fun c =>
      ⟨.str c.name, .int (c.span.start + 1), .int (c.span.stop + 1), c.span.slice input⟩ := by
  induction cs with
  | nil => rfl
  | cons c cs ih =>
    have hslice := Primitive.slice_span c.span input
    show ⟨_, _, _, Primitive.slice input _ _⟩ :: groups input _ = _
    rw [List.map_cons, ← ih, ← hslice]
    rfl

theorem matched_finding (s : Subject) : s.finding.matched = s.found.isSome := by
  unfold Finding.matched Subject.finding
  cases s.found <;> rfl

theorem headline_finding (s : Subject) : s.finding.headline = headline s := by
  unfold Finding.headline headline
  rw [matched_finding]
  unfold Subject.finding
  cases s.found with
  | none => rfl
  | some found =>
    show text "Matched " ++ s.expression ++ text " at " ++ Bytes.ofNat _ ++ text ".." ++
      Bytes.ofNat _ ++ text ", leftover " ++ Bytes.ofInt s.leftover = _
    simp only [rangeText, List.append_assoc]

theorem group_line (c : Capture) : Group.line ⟨.str c.name, .int (c.span.start + 1),
    .int (c.span.stop + 1), c.span.slice input⟩ = captureLine input c := by
  show text "  " ++ c.name ++ text " " ++ Bytes.ofNat _ ++ text ".." ++ Bytes.ofNat _ ++
    text ": " ++ Text.Utf8.lossy (c.span.slice input) = _
  simp only [captureLine, rangeText, List.append_assoc]

theorem lines_finding (style : TraceStyle) (s : Subject) :
    Bytes.join [Bytes.newline] (s.finding.lines style) = lines (style = .full) s := by
  have hgroups : s.finding.groups.map Group.line = (captures s).map (captureLine s.input) := by
    show ((captures s).map _).map Group.line = _
    rw [List.map_map]
    exact List.map_congr_left fun c _ => group_line c
  unfold Finding.lines lines
  rw [headline_finding, hgroups]
  cases style <;> rfl

theorem record_finding (s : Subject) : s.finding.record = record s := by
  have hgroups : s.finding.groups.map Group.record = (captures s).map (captureRecord s.input) := by
    show ((captures s).map _).map Group.record = _
    rw [List.map_map]
    rfl
  unfold Finding.record record
  rw [matched_finding, hgroups]
  unfold Subject.finding
  cases s.found <;> rfl

theorem render_finding (style : TraceStyle) (s : Subject) :
    s.finding.render style = render style s := by
  unfold Finding.render
  rw [record_finding, lines_finding]
  cases style <;> rfl

/-- What the matching primitive returns is what is found. -/
theorem matchInput_subject (m : Matcher) (expression source input : Bytes) (start : Int) :
    let s := subject m expression source input start
    ∃ time captures, Primitive.matchInput [.matcher m, .str input, .int start] =
        .returned [s.finding.first, s.finding.last, s.finding.leftover, time, captures] ∧
      groups input captures.items = s.finding.groups := by
  unfold subject
  rw [Primitive.matchInput_matcher rfl]
  rcases Primitive.matchAt m input start with _ | ⟨index, _ | found⟩
  · exact ⟨_, _, rfl, rfl⟩
  · exact ⟨_, _, rfl, rfl⟩
  · exact ⟨_, _, rfl, groups_captureList found.captures⟩

end Tracing

namespace StandardModule

variable {τ : Type}

/-- The trace of a pattern in a style that is known. -/
theorem trace_eq {name : Bytes} {style : TraceStyle} (hstyle : TraceStyle.ofName? name = some style)
    (files : FileSystem) (p : Environment.Pattern) (start : Int) (input : Bytes) (s : State τ) :
    let subject := Tracing.subject p.matcher p.expression p.source input start
    trace files [patternObject p, .str input, .int start, .str name] s =
      (.returned [.bool true, .bool subject.found.isSome, Tracing.render style subject], s) := by
  intro subject
  obtain ⟨time, captures, hmatch, hgroups⟩ :=
    Tracing.matchInput_subject p.matcher p.expression p.source input start
  have hpeg : (patternObject p).field (text "peg") = .matcher p.matcher := rfl
  have hexpression : (patternObject p).field (text "expression") = .str p.expression := rfl
  have hsource : (patternObject p).field (text "source") = .str p.source := rfl
  unfold trace
  dsimp only
  rw [hstyle, hpeg, hexpression, hsource, hmatch]
  dsimp only
  rw [hgroups, ← Tracing.matched_finding, ← Tracing.render_finding]
  rfl

end StandardModule

end PatternEngine
