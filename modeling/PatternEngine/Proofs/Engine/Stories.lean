import Mathlib.Data.List.Forall2
import PatternEngine.Proofs.Engine.Closed
import PatternEngine.Proofs.Engine.Faults
import PatternEngine.Proofs.Json.Strings
/-!
# Traces tell what matches tell

A trace is made by the module from the parts of a match, the document of a match by the built-in
encoder. Both tell the same story (`trace_tells_match`): whether there is a match, where it is, what
is left over, and what the groups are. Labels of groups are valid text, so that none is changed in
a document (`Matcher.lossy_label`).
-/
namespace PatternEngine

open PatternEngine.Text.Utf8

/-! ## Labels of groups -/

namespace Expression

variable {chars : List Char} {e : Expression}

/-- The label of a group is its name, which has been read from a text, or a number. -/
theorem lossy_label (h : ofChars? chars = some e) : ∀ label ∈ e.labels, lossy label = label := by
  obtain ⟨q, -, -, -, rfl⟩ := ofChars_some h
  intro label hlabel
  obtain ⟨⟨name, i⟩, -, rfl⟩ := List.mem_map.1 hlabel
  cases name with
  | some name => exact lossy_ofChars name
  | none => exact lossy_ofNat (i + 1)

end Expression

namespace Matcher

variable {source name input : Bytes} {m : Matcher} {start : Nat} {found : Match}

theorem lossy_label (h : compile source name = .ok m) :
    ∀ label ∈ m.labels, lossy label = label := by
  obtain ⟨chars, e, -, he, hlabels, -⟩ := compile_ok h
  rw [hlabels]
  exact Expression.lossy_label he

/-- The groups of a match have labels of the matcher. -/
theorem label_of_find (h : m.find input start = some found) :
    ∀ c ∈ found.captures, c.name ∈ m.labels := by
  unfold find at h
  split at h
  · split at h
    · cases h
      intro c hc
      obtain ⟨⟨label, i⟩, hm, hc⟩ := List.mem_filterMap.1 hc
      obtain ⟨span, -, rfl⟩ := Option.map_eq_some_iff.1 hc
      exact List.fst_mem_of_mem_zipIdx hm
    · cases h
  · cases h

end Matcher

/-! ## Lines -/

namespace Bytes

theorem newline_not_mem_ofNat (n : Nat) : newline ∉ ofNat n := by
  intro h
  exact absurd (Json.Reader.isDigit_ofNat _ h) (by decide)

theorem newline_not_mem_ofInt (n : Int) : newline ∉ ofInt n := by
  cases n with
  | ofNat n => exact newline_not_mem_ofNat n
  | negSucc n =>
    intro h
    rcases List.mem_cons.1 h with h | h
    · cases h
    · exact newline_not_mem_ofNat _ h

end Bytes

namespace Tracing

theorem headline_found {s : Subject} {found : Match} (h : s.found = some found) :
    headline s = text "Matched " ++ s.expression ++ text " at " ++
      Bytes.ofInt (found.span.start + 1) ++ text ".." ++ Bytes.ofInt (found.span.stop + 1) ++
      text ", leftover " ++ Bytes.ofInt s.leftover := by
  have hnumber : ∀ n : Nat, Bytes.ofInt (n + 1) = Bytes.ofNat (n + 1) := fun _ => rfl
  unfold headline rangeText
  rw [h, hnumber, hnumber]
  simp only [List.append_assoc]

theorem headline_none {s : Subject} (h : s.found = none) :
    headline s = text "No match for " ++ s.expression ++ text " at " ++ Bytes.ofInt s.start := by
  unfold headline
  rw [h]

/-- A headline is one line unless the expression has more. -/
theorem newline_not_mem_headline {s : Subject} (h : Bytes.newline ∉ s.expression) :
    Bytes.newline ∉ headline s := by
  have htexts : ∀ fixed ∈ [text "Matched ", text " at ", text "..", text ", leftover ",
      text "No match for "], Bytes.newline ∉ fixed := by decide
  unfold headline rangeText
  split <;>
    simp only [List.mem_append, not_or, h, Bytes.newline_not_mem_ofNat,
      Bytes.newline_not_mem_ofInt, not_false_eq_true, and_true, true_and] <;>
    simp [htexts]

/-- The full trace goes on after the headline. -/
theorem lines_full (s : Subject) : ∃ rest, lines true s = headline s ++ Bytes.newline :: rest :=
  ⟨Bytes.join [Bytes.newline] ((text "  regex: " ++ s.source) ::
    (captures s).map (captureLine s.input)), by simp [lines, Bytes.join]⟩

end Tracing

/-! ## Documents -/

/-- A group in the document of a trace is the group in the document of a match: what is called name
in one is called type in the other. -/
def SameGroup (traced matched : Json) : Prop :=
  ∃ (name data : Bytes) (first last : Int),
    traced.field? (text "name") = some (.str name) ∧
    matched.field? (text "type") = some (.str name) ∧
    traced.field? (text "s") = some (.int first) ∧ matched.field? (text "s") = some (.int first) ∧
    traced.field? (text "e") = some (.int last) ∧ matched.field? (text "e") = some (.int last) ∧
    traced.field? (text "data") = some (.str data) ∧ matched.field? (text "data") = some (.str data)

theorem sameGroup_documents {input : Bytes} {c : Capture} (h : lossy c.name = c.name) :
    SameGroup (Tracing.captureDocument input c)
      (Json.ofFields (BuiltinEncoder.spanFields c.name input c.span)) := by
  refine ⟨c.name, lossy (c.span.slice input), c.span.start + 1, c.span.stop + 1, ?_, rfl, rfl, rfl,
    rfl, rfl, rfl, rfl⟩
  exact congrArg (fun name => some (Json.str name)) h

namespace BuiltinEncoder

theorem document_range (r : MatchRecord) :
    (document r).field? (text "s") = some (.int (r.span.start + 1)) ∧
      (document r).field? (text "e") = some (.int (r.span.stop + 1)) := by
  unfold document
  dsimp only
  split <;> exact ⟨rfl, rfl⟩

theorem document_subs (r : MatchRecord) :
    (document r).subs =
      r.captures.map fun c => Json.ofFields (spanFields c.name r.input c.span) := by
  unfold document
  dsimp only
  split
  · rename_i hempty
    rw [List.isEmpty_iff.1 hempty]
    rfl
  · rfl

/-- The groups that a trace tells of are those in the document of the match. -/
theorem sameGroup_subs {source name input : Bytes} {m : Matcher} {start : Nat} {found : Match}
    (hcompile : Matcher.compile source name = .ok m) (hfind : m.find input start = some found) :
    List.Forall₂ SameGroup (found.captures.map (Tracing.captureDocument input))
      (document ⟨m.name, input, found.span, found.captures⟩).subs := by
  rw [document_subs, List.forall₂_map_left_iff, List.forall₂_map_right_iff, List.forall₂_same]
  intro c hc
  have hlabel : c.name ∈ m.labels := Matcher.label_of_find hfind c hc
  exact sameGroup_documents (Matcher.lossy_label hcompile _ hlabel)

end BuiltinEncoder

namespace Tracing

theorem document_fields (s : Subject) :
    (document s).field? (text "start") = some (.int s.start) ∧
      (document s).field? (text "matched") = some (.bool s.found.isSome) ∧
      (document s).field? (text "leftover") = some (.int s.leftover) ∧
      (document s).field? (text "subs") =
        some (.array ((captures s).map (captureDocument s.input))) := by
  unfold document rangeFields
  cases s.found <;> exact ⟨rfl, rfl, rfl, rfl⟩

theorem document_range {s : Subject} {found : Match} (h : s.found = some found) :
    (document s).field? (text "s") = some (.int (found.span.start + 1)) ∧
      (document s).field? (text "e") = some (.int (found.span.stop + 1)) := by
  unfold document rangeFields
  rw [h]
  exact ⟨rfl, rfl⟩

end Tracing

namespace Standard

open PatternEngine.Engine

variable {gauge : StandardModule.Gauge} {installation : FileSystem} {settings : Settings}
  {standardHome : Bytes} {options : Options} {e₀ e : StandardEngine} {handle : Handle}

/-- What a trace is told of and what a match answers have the same origin. -/
theorem answerOf_subject (m : Matcher) (expression source input : Bytes) (start : Int)
    (encode : Match → Bytes) :
    let s := Tracing.subject m expression source input start
    let a := answerOf m input start encode
    (s.found.isSome = true ↔ a.status = .matched) ∧ s.leftover = a.leftover ∧
      ∀ found, s.found = some found → a.data = some (encode found) ∧
        ∃ index, m.find input index = some found := by
  unfold Tracing.subject answerOf
  dsimp only
  cases hm : Primitive.matchAt m input start with
  | none => exact ⟨by simp, rfl, by simp⟩
  | some place =>
    obtain ⟨index, _ | found⟩ := place
    · exact ⟨by simp, rfl, by simp⟩
    · refine ⟨by simp, rfl, ?_⟩
      intro found' h
      cases h
      obtain ⟨index', -, hfind⟩ := Option.map_eq_some_iff.1 hm
      exact ⟨rfl, index', congrArg Prod.snd hfind⟩

/-- A trace and a match that start at the same place of the same input tell the same. The trace is
of a match exactly when the match has been found. As a document it tells how much is left over,
where the match was to start, where the match is, and what its groups are, all as the document of
the match does; a match without groups has an empty list of them. In one line, which is broken only
where the expression is, it tells the same numbers, and in full it starts with this line. -/
theorem trace_tells_match
    (hmade : create (shippedModule gauge) installation settings standardHome options = .ok e₀)
    (hrun : Steps Call.Any e₀ e) (hlive : (e.patterns.get? handle).isSome = true)
    (files : FileSystem) (start : Int) (input : Bytes) :
    ∃ (pattern : Environment.Pattern) (a : Answer) (matched : Bool) (story : Json)
      (groups : List Json) (line rest : Bytes),
      e.patterns.get? handle = some (StandardModule.patternObject pattern) ∧
      answer files handle start (text "json") input e = some a ∧
      (matched = true ↔ a.status = .matched) ∧
      (trace files handle start (text "json") input).run e =
        (.ok (.traced matched story.render), e) ∧
      (trace files handle start (text "condensed") input).run e = (.ok (.traced matched line), e) ∧
      (trace files handle start (text "full") input).run e =
        (.ok (.traced matched (line ++ Bytes.newline :: rest)), e) ∧
      (Bytes.newline ∉ pattern.expression → Bytes.newline ∉ line) ∧
      story.field? (text "matched") = some (.bool matched) ∧
      story.field? (text "leftover") = some (.int a.leftover) ∧
      story.field? (text "start") = some (.int (max start 1)) ∧
      story.field? (text "subs") = some (.array groups) ∧
      (matched = false →
        line = text "No match for " ++ pattern.expression ++ text " at " ++
          Bytes.ofInt (max start 1)) ∧
      (matched = true → ∃ (found : Json) (first last : Int),
        a.data = some found.render ∧
        found.field? (text "s") = some (.int first) ∧ story.field? (text "s") = some (.int first) ∧
        found.field? (text "e") = some (.int last) ∧ story.field? (text "e") = some (.int last) ∧
        List.Forall₂ SameGroup groups found.subs ∧
        line = text "Matched " ++ pattern.expression ++ text " at " ++ Bytes.ofInt first ++
          text ".." ++ Bytes.ofInt last ++ text ", leftover " ++ Bytes.ofInt a.leftover) := by
  have hfresh := (fresh_of_create hmade).1
  have hs : Shipped e := shipped_of_steps hfresh.shipped hrun
  obtain ⟨v, hv⟩ := Option.isSome_iff_exists.1 hlive
  obtain ⟨pattern, rfl, hclosed⟩ :=
    (closed_of_steps hfresh hrun).patterns v (HandleTable.mem_of_get? hv)
  let s := subjectOf pattern start input
  have htrace : ∀ style, (trace files handle start style input).run e =
      (.ok (traceOf pattern start style input), e) := fun style => trace_run files hs hv
  obtain ⟨rest, hfull⟩ := Tracing.lines_full s
  obtain ⟨hstart, hmatched, hleftover, hsubs⟩ := Tracing.document_fields s
  obtain ⟨hstatus, hleft, hfound⟩ := answerOf_subject pattern.matcher pattern.expression
    pattern.source input start fun found =>
      BuiltinEncoder.json.encode ⟨pattern.matcher.name, input, found.span, found.captures⟩
  refine ⟨pattern, _, s.found.isSome, Tracing.document s, _, Tracing.headline s, rest, hv,
    answer_builtin hs hv rfl, hstatus, htrace _, htrace _, ?_, ?_, hmatched, ?_,
    hstart, hsubs, ?_, ?_⟩
  · rw [htrace, ← hfull]
    rfl
  · have hexpression : s.expression = pattern.expression := rfl
    rw [← hexpression]
    exact Tracing.newline_not_mem_headline
  · rw [hleftover]
    exact congrArg (fun n => some (Json.int n)) hleft
  · intro hnone
    exact Tracing.headline_none (by simpa using hnone)
  · intro hsome
    obtain ⟨found, hsome⟩ := Option.isSome_iff_exists.1 hsome
    obtain ⟨hdata, index, hfind⟩ := hfound found hsome
    obtain ⟨hfirst, hlast⟩ := BuiltinEncoder.document_range
      ⟨pattern.matcher.name, input, found.span, found.captures⟩
    obtain ⟨hfirst', hlast'⟩ := Tracing.document_range hsome
    refine ⟨_, _, _, hdata, hfirst, hfirst', hlast, hlast', ?_, ?_⟩
    · have hcaptures : Tracing.captures s = found.captures := by
        unfold Tracing.captures
        rw [hsome]
        rfl
      have hcompile : Matcher.compile pattern.source pattern.matcher.name = .ok pattern.matcher :=
        hclosed.matcher _
      rw [hcaptures]
      exact BuiltinEncoder.sameGroup_subs hcompile hfind
    · rw [← hleft]
      exact Tracing.headline_found hsome

/-- A start below one counts as one in both. -/
theorem trace_tells_match_sample : ∃ e : StandardEngine,
    (e.patterns.get? ⟨1⟩).isSome = true ∧
    ∃ (a : Answer) (matched : Bool) (story : Json),
      answer sample ⟨1⟩ (-3) (text "json") (text "ab") e = some a ∧
      (trace sample ⟨1⟩ (-3) (text "json") (text "ab")).run e =
        (.ok (.traced matched story.render), e) ∧
      (matched = true ↔ a.status = .matched) ∧
      story.field? (text "leftover") = some (.int a.leftover) ∧
      story.field? (text "start") = some (.int 1) := by
  obtain ⟨e₀, hmade, hlive⟩ : ∃ e₀ : StandardEngine,
      create standardModule sample {} (text "r") {} = .ok e₀ ∧
      ((Call.after ⟨sample, [], [], []⟩ e₀ (.compile (text "(?<x>a)"))).patterns.get?
        ⟨1⟩).isSome = true := ⟨_, rfl, rfl⟩
  have hstep : Steps Call.Any e₀
      (Call.after ⟨sample, [], [], []⟩ e₀ (.compile (text "(?<x>a)"))) :=
    .single ⟨_, _, trivial, rfl⟩
  obtain ⟨pattern, a, matched, story, groups, line, rest, -, ha, hmatched, htrace, -, -, -, -,
    hleftover, hstart, -⟩ := trace_tells_match hmade hstep hlive sample (-3) (text "ab")
  exact ⟨_, hlive, a, matched, story, ha, htrace, hmatched, hleftover, hstart⟩

end Standard

end PatternEngine
