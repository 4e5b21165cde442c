import PatternEngine.Proofs.Engine.Patterns
/-!
# The encoders agree

A match with a built-in encoder never leaves the engine, while one with an extension goes through
the module and comes back as values. With the standard module both come to the same answer
(`answerOf`), which depends on the encoder in its bytes only, and these are related
(`encoders_agree`).
-/
namespace PatternEngine

namespace Engine

variable {σ : Type}

/-- How a match has ended, whichever way it went. -/
inductive MatchStatus where
  | matched
  | noMatch
  | noSuchPattern
  | noSuchEncoder
  deriving DecidableEq, Repr

def DataSource.status : DataSource → MatchStatus
  | .native | .scripted => .matched
  | .noMatch => .noMatch
  | .noSuchPattern => .noSuchPattern
  | .noSuchEncoder => .noSuchEncoder

/-- What the caller of a match sees of its outcome. -/
structure Answer where
  status : MatchStatus
  data : Option Bytes
  leftover : Int
  abend : Bool
  deriving DecidableEq, Repr

/-- The answer to a match, unless it ends in a fault. -/
def answer (files : FileSystem) (handle : Handle) (start : Int) (encoder input : Bytes)
    (e : Engine σ) : Option Answer :=
  match (matchInput files handle start encoder input).run e with
  | (.ok outcome, e) =>
    some ⟨outcome.data.status, e.data outcome.data, outcome.leftover, outcome.abend⟩
  | (.error _, _) => none

/-- The answer that a matcher gives, when `encode` makes the bytes of a match. -/
def answerOf (m : Matcher) (input : Bytes) (start : Int) (encode : Match → Bytes) : Answer :=
  match Primitive.matchAt m input start with
  | some (_, some found) =>
    ⟨.matched, some (encode found), (input.length - found.span.stop : Nat), false⟩
  | some (index, none) => ⟨.noMatch, none, (input.length - index : Nat), false⟩
  | none => ⟨.noMatch, none, 0, false⟩

end Engine

namespace Json

/-- The value of a field of an object. -/
def field? (name : Bytes) : Json → Option Json
  | .object fields => fields.lookup name
  | _ => none

/-- The range that an object describes by its fields `s` and `e`, which count from one. -/
def span? (document : Json) : Option Span :=
  match document.field? (text "s"), document.field? (text "e") with
  | some (.int start), some (.int stop) => some ⟨(start - 1).toNat, (stop - 1).toNat⟩
  | _, _ => none

/-- What an object lists under `subs`. -/
def subs (document : Json) : List Json :=
  match document.field? (text "subs") with
  | some (.array items) => items
  | _ => []

end Json

namespace BuiltinEncoder

/-- The range is read back from the fields that describe it, whatever else is listed. -/
theorem span?_spanFields (name input : Bytes) (span : Span) (listed : List (Bytes × Json))
    (h : listed = [] ∨ ∃ subs, listed = [(text "subs", subs)]) :
    (Json.ofFields (spanFields name input span ++ listed)).span? = some span := by
  obtain ⟨start, stop⟩ := span
  have hnat : ∀ n : Nat, ((n : Int) + 1 - 1).toNat = n := by omega
  have hspan : (⟨((start : Int) + 1 - 1).toNat, ((stop : Int) + 1 - 1).toNat⟩ : Span) =
      ⟨start, stop⟩ := by rw [hnat, hnat]
  rcases h with rfl | ⟨subs, rfl⟩ <;> exact congrArg some hspan

theorem span?_captures (input : Bytes) (captures : List Capture) :
    (captures.map fun c => Json.ofFields (spanFields c.name input c.span)).mapM Json.span? =
      some (captures.map (·.span)) := by
  induction captures with
  | nil => rfl
  | cons c captures ih =>
    have hc := span?_spanFields c.name input c.span [] (.inl rfl)
    rw [List.append_nil] at hc
    simp only [List.map_cons, List.mapM_cons, hc, ih]
    rfl

/-- A document tells the range of the match, and lists the ranges of the groups in order. -/
theorem document_spans (r : MatchRecord) :
    (document r).span? = some r.span ∧
      (document r).subs.mapM Json.span? = some (r.captures.map (·.span)) := by
  unfold document
  dsimp only
  split <;> rename_i hsubs
  · rw [List.isEmpty_iff, List.map_eq_nil_iff] at hsubs
    refine ⟨?_, by rw [hsubs]; rfl⟩
    rw [← List.append_nil (spanFields _ _ _)]
    exact span?_spanFields _ _ _ [] (.inl rfl)
  · exact ⟨span?_spanFields _ _ _ _ (.inr ⟨_, rfl⟩), span?_captures r.input r.captures⟩

end BuiltinEncoder

/-- Positions counted from one, as the module sees them, cut out the same bytes as a range. -/
theorem Primitive.slice_span (span : Span) (input : Bytes) :
    slice input (some (span.start + 1)) (some (span.stop + 1)) = span.slice input := by
  obtain ⟨start, stop⟩ := span
  simp only [slice, clamp, Span.slice, Option.getD_some]
  by_cases hs : start ≤ input.length
  · have hstart : max 1 (min ((input.length : Int) + 1) (start + 1)) = start + 1 := by omega
    rw [hstart]
    have hdrop : ((start : Int) + 1 - 1).toNat = start := by omega
    have hlen : (input.drop start).length = input.length - start := List.length_drop
    rw [hdrop]
    by_cases he : stop ≤ input.length
    · congr 1
      omega
    · rw [List.take_of_length_le (by omega), List.take_of_length_le (by omega)]
  · rw [List.drop_eq_nil_of_le (by omega), List.drop_eq_nil_of_le (by omega)]
    simp

theorem Primitive.matchInput_matcher {v : Value} {input : Bytes} (h : inputBytes? v = some input)
    (m : Matcher) (start : Int) :
    matchInput [.matcher m, v, .int start] =
      .returned (matchValues input (matchAt m input start)) := by
  have hread : inputBytes? (argument [.matcher m, v, .int start] 1) = some input := h
  unfold matchInput
  rw [hread]
  rfl

namespace Standard

open PatternEngine.Action PatternEngine.Engine

variable {e : StandardEngine} {files : FileSystem} {handle : Handle} {m : Matcher}
  {pattern : Environment.Pattern} {start : Int} {input : Bytes}

/-- A match with a built-in encoder. -/
theorem answer_builtin (hs : Shipped e)
    (hp : e.patterns.get? handle = some (StandardModule.patternObject pattern))
    {name : Bytes} {encoder : BuiltinEncoder} (hn : BuiltinEncoder.ofName? name = some encoder) :
    answer files handle start name input e =
      some (answerOf pattern.matcher input start fun found =>
        encoder.encode ⟨pattern.matcher.name, input, found.span, found.captures⟩) := by
  have hr : Encoder.resolve name = .builtin encoder := by simp only [Encoder.resolve, hn]
  unfold answer matchInput
  rw [run_bind_ok (govern_run hs)]
  unfold dispatch
  rw [run_bind_ok (run_get e)]
  simp only [hp, hr, nativeMatch, patternObject_peg]
  rw [run_bind_ok (run_modify e _)]
  unfold answerOf Primitive.encodeMatch
  rcases Primitive.matchAt pattern.matcher input start with _ | ⟨index, _ | found⟩ <;> rfl

/-- A match with an extension, by what the module replies. -/
theorem answer_extension (hs : Shipped e)
    (hp : e.patterns.get? handle = some (StandardModule.patternObject pattern)) {name : Bytes}
    (hn : BuiltinEncoder.ofName? name = none) (hx : e.hasExtension name = true)
    {data : Option Bytes} {leftover : Int} {wrap : Bytes → Value}
    (hwrap : wrap = .result ∨ wrap = .str)
    (hreply : StandardModule.matchInput StandardModule.extensions files
      [StandardModule.patternObject pattern, .lent input, .int start, .str name] e.state =
        (.returned [data.elim (.bool false) wrap, .int leftover, .bool false, .int 0, .int 0],
          e.state)) :
    answer files handle start name input e =
      some ⟨if data.isSome then .matched else .noMatch, data, leftover, false⟩ := by
  have hr : Encoder.resolve name = .extension name := by simp only [Encoder.resolve, hn]
  have hcall : (callMethod Methods.matchInput "match" files
      [StandardModule.patternObject pattern, .lent input, .int start, .str name]).run
        { e with previousScripted := none } =
      (.ok [data.elim (.bool false) wrap, .int leftover, .bool false, .int 0, .int 0],
        { e with previousScripted := none }) := by
    rw [callMethod_run (by rw [hs.methods]; rfl), call_run, hreply]
  unfold answer matchInput
  rw [run_bind_ok (govern_run hs)]
  unfold dispatch
  rw [run_bind_ok (run_get e)]
  simp only [hp, hr, hx, if_true, scriptedMatch]
  rw [run_bind_ok (run_modify e _), run_bind_ok hcall]
  rcases hwrap with rfl | rfl <;> cases data <;> rfl

/-- What an extension that is a function makes of a match. -/
theorem matchInput_function {name : Bytes} {reply : List Value → Reply} {encode : Match → Bytes}
    {s : StandardModule.State Unit}
    (hx : StandardModule.extension? (τ := Unit) StandardModule.extensions name =
      some (.function (StandardModule.stateless reply)))
    (hreply : ∀ found : Match, reply [.lent input, .int (found.span.start + 1),
      .int (found.span.stop + 1), Primitive.captureList found.captures] =
        .returned [.str (encode found)]) :
    let answer := answerOf pattern.matcher input start encode
    StandardModule.matchInput StandardModule.extensions files
      [StandardModule.patternObject pattern, .lent input, .int start, .str name] s =
        (.returned [answer.data.elim (.bool false) .str, .int answer.leftover, .bool false,
          .int 0, .int 0], s) := by
  have hread : Primitive.inputBytes? (.lent input) = some input := rfl
  have hmatch := Primitive.matchInput_matcher hread pattern.matcher start
  simp only [StandardModule.matchInput, hx, patternObject_peg, hmatch, answerOf]
  rcases Primitive.matchAt pattern.matcher input start with _ | ⟨index, _ | found⟩
  · rfl
  · rfl
  · simp only [Primitive.matchValues, StandardModule.runExtension, StandardModule.ofHost,
      StandardModule.stateless, hreply]
    rfl

/-- A match with an extension that is a function. -/
theorem answer_function (hs : Shipped e)
    (hp : e.patterns.get? handle = some (StandardModule.patternObject pattern)) {name : Bytes}
    {reply : List Value → Reply} {encode : Match → Bytes}
    (hn : BuiltinEncoder.ofName? name = none) (hknown : e.hasExtension name = true)
    (hx : StandardModule.extension? (τ := Unit) StandardModule.extensions name =
      some (.function (StandardModule.stateless reply)))
    (hreply : ∀ found : Match, reply [.lent input, .int (found.span.start + 1),
      .int (found.span.stop + 1), Primitive.captureList found.captures] =
        .returned [.str (encode found)]) :
    answer files handle start name input e =
      some (answerOf pattern.matcher input start encode) := by
  rw [answer_extension hs hp hn hknown (.inr rfl) (matchInput_function hx hreply)]
  unfold answerOf
  rcases Primitive.matchAt pattern.matcher input start with _ | ⟨index, _ | found⟩ <;> rfl

theorem rangeBytes_span (found : Match) :
    StandardModule.rangeBytes [.lent input, .int (found.span.start + 1),
      .int (found.span.stop + 1), Primitive.captureList found.captures] =
      some (found.span.slice input) :=
  congrArg some (Primitive.slice_span found.span input)

/-- The bytes of the groups, read off the flat list that the module is given. -/
theorem groupBytes_captures (input : Bytes) (captures : List Capture) :
    StandardModule.groupBytes input (captures.flatMap fun c =>
      [.str c.name, .int (c.span.start + 1), .int (c.span.stop + 1)]) =
      captures.map (·.span.slice input) := by
  induction captures with
  | nil => rfl
  | cons c captures ih =>
    simp only [List.flatMap_cons, List.cons_append, List.nil_append, StandardModule.groupBytes,
      ih, List.map_cons, Value.toInt?, Primitive.slice_span]

/-- A match with `default`, which stands for the code of `json`. -/
theorem answer_default (hs : Shipped e)
    (hp : e.patterns.get? handle = some (StandardModule.patternObject pattern)) :
    answer files handle start (text "default") input e =
      some (answerOf pattern.matcher input start fun found =>
        BuiltinEncoder.json.encode
          ⟨pattern.matcher.name, input, found.span, found.captures⟩) := by
  let encoded := Primitive.encodeMatch pattern.matcher input start .json
  have hreply : StandardModule.matchInput StandardModule.extensions files
      [StandardModule.patternObject pattern, .lent input, .int start, .str (text "default")]
        e.state = (.returned [encoded.data.elim (.bool false) .result, .int encoded.leftover,
          .bool false, .int 0, .int 0], e.state) := rfl
  have hknown : e.hasExtension (text "default") = true := by
    obtain ⟨gauge, root, path, hslots⟩ := hs
    rw [hasExtension, hslots]
    rfl
  rw [answer_extension hs hp rfl hknown (.inl rfl) hreply]
  unfold answerOf
  simp only [encoded, Primitive.encodeMatch]
  rcases Primitive.matchAt pattern.matcher input start with _ | ⟨index, _ | found⟩ <;> rfl

/-- The encoders that are there without a host. -/
def encoderNames : List Bytes :=
  [text "json", text "line", text "matches", text "default", text "text", text "subs",
    text "color"]

/-- The bytes that an encoder makes of a match. -/
def encoding (m : Matcher) (input name : Bytes) (found : Match) : Bytes :=
  if name = text "line" then input
  else if name = text "subs" then
    Bytes.join [Bytes.newline] (found.captures.map (·.span.slice input))
  else if name = text "color" then
    27 :: text "[32m" ++ found.span.slice input ++ 27 :: text "[0m"
  else if name = text "matches" ∨ name = text "text" then found.span.slice input
  else BuiltinEncoder.json.encode ⟨m.name, input, found.span, found.captures⟩

theorem answer_encoding (hs : Shipped e)
    (hp : e.patterns.get? handle = some (StandardModule.patternObject pattern)) {name : Bytes}
    (hname : name ∈ encoderNames) :
    answer files handle start name input e =
      some (answerOf pattern.matcher input start (encoding pattern.matcher input name)) := by
  have hknown : ∀ name ∈ StandardModule.extensions (τ := Unit) |>.map Prod.fst,
      e.hasExtension name = true := by
    intro name hname
    obtain ⟨gauge, root, path, hslots⟩ := hs
    rw [hasExtension, hslots]
    exact List.contains_iff_mem.2 hname
  simp only [encoderNames, List.mem_cons, List.not_mem_nil, or_false] at hname
  rcases hname with rfl | rfl | rfl | rfl | rfl | rfl | rfl
  · exact answer_builtin hs hp (rfl : BuiltinEncoder.ofName? (text "json") = some .json)
  · exact answer_builtin hs hp (rfl : BuiltinEncoder.ofName? (text "line") = some .line)
  · exact answer_builtin hs hp (rfl : BuiltinEncoder.ofName? (text "matches") = some .matches)
  · exact answer_default hs hp
  · refine answer_function hs hp rfl (hknown _ (by decide)) rfl fun found => ?_
    simp only [StandardModule.textEncoder, rangeBytes_span]
    rfl
  · refine answer_function hs hp rfl (hknown _ (by decide)) rfl fun found => ?_
    simp only [StandardModule.groupsEncoder, Primitive.argument, Primitive.inputBytes?,
      Primitive.captureList, List.getD_cons_zero, List.getD_cons_succ, groupBytes_captures]
    rfl
  · refine answer_function hs hp rfl (hknown _ (by decide)) rfl fun found => ?_
    simp only [StandardModule.colorEncoder, rangeBytes_span]
    rfl

/-- All encoders but two leave the name of the pattern out. -/
theorem encoding_congr {m m' : Matcher} {input encoder : Bytes} (hencoder : encoder ∈ encoderNames)
    (hjson : encoder ≠ text "json") (hdefault : encoder ≠ text "default") :
    encoding m' input encoder = encoding m input encoder := by
  funext found
  unfold encoding
  simp only [encoderNames, List.mem_cons, List.not_mem_nil, or_false] at hencoder
  rcases hencoder with rfl | rfl | rfl | rfl | rfl | rfl | rfl
  · exact absurd rfl hjson
  · rfl
  · rfl
  · exact absurd rfl hdefault
  · rfl
  · rfl
  · rfl

theorem ofName?_unknown {name : Bytes} (h : name ∉ encoderNames) :
    BuiltinEncoder.ofName? name = none := by
  simp only [encoderNames, List.mem_cons, List.not_mem_nil, or_false, not_or] at h
  obtain ⟨hjson, hline, hmatches, -⟩ := h
  unfold BuiltinEncoder.ofName?
  rw [List.find?_eq_none]
  intro encoder _ hname
  have hname := eq_of_beq hname
  cases encoder
  · exact hjson hname.symm
  · exact hline hname.symm
  · exact hmatches hname.symm

theorem hasExtension_known (hs : Shipped e) {name : Bytes} (h : name ∈ encoderNames)
    (hn : BuiltinEncoder.ofName? name = none) : e.hasExtension name = true := by
  obtain ⟨gauge, root, path, hslots⟩ := hs
  have hextension : ∀ name ∈ encoderNames, BuiltinEncoder.ofName? name = none →
      name ∈ (StandardModule.extensions (τ := Unit)).map Prod.fst := by decide
  rw [hasExtension, hslots]
  exact List.contains_iff_mem.2 (hextension name h hn)

theorem hasExtension_unknown (hs : Shipped e) {name : Bytes} (h : name ∉ encoderNames) :
    e.hasExtension name = false := by
  obtain ⟨gauge, root, path, hslots⟩ := hs
  have hsub : ∀ name ∈ StandardModule.extensions (τ := Unit) |>.map Prod.fst,
      name ∈ encoderNames := by decide
  rw [hasExtension, hslots]
  cases hc : (slots gauge root path).encoders.contains name with
  | false => rfl
  | true => exact absurd (hsub name (List.contains_iff_mem.1 hc)) h

/-- The answer that a pattern gives with any encoder, known or not. -/
def replyOf (m : Matcher) (start : Int) (encoder input : Bytes) : Answer :=
  if encoder ∈ encoderNames then answerOf m input start (encoding m input encoder)
  else ⟨.noSuchEncoder, none, 0, false⟩

/-- A match of a pattern that has a handle depends on the pattern alone. -/
theorem answer_live (files : FileSystem) (hs : Shipped e)
    (hp : e.patterns.get? handle = some (StandardModule.patternObject pattern))
    (start : Int) (encoder input : Bytes) :
    answer files handle start encoder input e =
      some (replyOf pattern.matcher start encoder input) := by
  unfold replyOf
  by_cases hn : encoder ∈ encoderNames
  · rw [if_pos hn]
    exact answer_encoding hs hp hn
  · have hr : Encoder.resolve encoder = .extension encoder := by
      simp only [Encoder.resolve, ofName?_unknown hn]
    rw [if_neg hn]
    unfold answer matchInput
    rw [run_bind_ok (govern_run hs)]
    unfold dispatch
    rw [run_bind_ok (run_get e)]
    simp only [hp, hr, hasExtension_unknown hs hn, Bool.false_eq_true, if_false]
    rfl

theorem answer_none (files : FileSystem) (hs : Shipped e) (hp : e.patterns.get? handle = none)
    (start : Int) (encoder input : Bytes) :
    answer files handle start encoder input e = some ⟨.noSuchPattern, none, 0, false⟩ := by
  unfold answer matchInput
  rw [run_bind_ok (govern_run hs)]
  unfold dispatch
  rw [run_bind_ok (run_get e), hp]
  rfl

/-- All encoders give the same answer but for its bytes. Without a match there are none. With one,
`text` gives what `matches` gives, `default` the document of `json`, `color` the matched bytes in
green, `line` the input, and `subs` the bytes of the ranges that the document lists, in order. -/
theorem encoders_agree {gauge : StandardModule.Gauge} {installation : FileSystem}
    {settings : Settings} {standardHome : Bytes} {options : Options} {e₀ : StandardEngine}
    (hmade : create (shippedModule gauge) installation settings standardHome options = .ok e₀)
    (hrun : Steps Call.Any e₀ e) (hlive : (e.patterns.get? handle).isSome = true)
    (files : FileSystem) (start : Int) (input : Bytes) :
    ∃ a : Bytes → Answer,
      (∀ name ∈ encoderNames, answer files handle start name input e = some (a name) ∧
        (a name).status = (a (text "json")).status ∧
        (a name).leftover = (a (text "json")).leftover ∧
        (a name).abend = (a (text "json")).abend) ∧
      (((a (text "json")).status = .noMatch ∧ ∀ name ∈ encoderNames, (a name).data = none) ∨
      ((a (text "json")).status = .matched ∧ ∃ (document : Json) (span : Span) (spans : List Span),
        document.span? = some span ∧ document.subs.mapM Json.span? = some spans ∧
        (a (text "json")).data = some document.render ∧
        (a (text "default")).data = some document.render ∧
        (a (text "matches")).data = some (span.slice input) ∧
        (a (text "text")).data = some (span.slice input) ∧
        (a (text "color")).data =
          some (27 :: text "[32m" ++ span.slice input ++ 27 :: text "[0m") ∧
        (a (text "line")).data = some input ∧
        (a (text "subs")).data =
          some (Bytes.join [Bytes.newline] (spans.map (·.slice input))))) := by
  obtain ⟨v, hv⟩ := Option.isSome_iff_exists.1 hlive
  have hfresh := (fresh_of_create hmade).1
  have hs : Shipped e := shipped_of_steps hfresh.shipped hrun
  obtain ⟨pattern, rfl⟩ := pattern_of_get? (patterned_of_steps hfresh hrun) hv
  refine ⟨fun name => answerOf pattern.matcher input start
    (encoding pattern.matcher input name), fun name hname => ⟨answer_encoding hs hv hname, ?_⟩, ?_⟩
  · unfold answerOf
    rcases Primitive.matchAt pattern.matcher input start with _ | ⟨index, _ | found⟩ <;>
      exact ⟨rfl, rfl, rfl⟩
  · unfold answerOf
    rcases Primitive.matchAt pattern.matcher input start with _ | ⟨index, _ | found⟩
    · exact .inl ⟨rfl, fun _ _ => rfl⟩
    · exact .inl ⟨rfl, fun _ _ => rfl⟩
    · obtain ⟨hspan, hsubs⟩ := BuiltinEncoder.document_spans
        ⟨pattern.matcher.name, input, found.span, found.captures⟩
      refine .inr ⟨rfl, _, _, _, hspan, hsubs, rfl, rfl, rfl, rfl, rfl, rfl, ?_⟩
      rw [List.map_map]
      rfl

/-- The pattern that has been compiled first in a new engine. -/
theorem encoders_agree_sample : ∃ e : StandardEngine,
    (e.patterns.get? ⟨1⟩).isSome = true ∧
    (answer sample ⟨1⟩ 0 (text "text") (text "ab") e).map Answer.data =
      (answer sample ⟨1⟩ 0 (text "matches") (text "ab") e).map Answer.data := by
  obtain ⟨e₀, hmade, hlive⟩ : ∃ e₀ : StandardEngine,
      create standardModule sample {} (text "r") {} = .ok e₀ ∧
      ((Call.after ⟨sample, [], [], []⟩ e₀ (.compile (text "(?<x>a)"))).patterns.get?
        ⟨1⟩).isSome = true := ⟨_, rfl, rfl⟩
  have hstep : Steps Call.Any e₀
      (Call.after ⟨sample, [], [], []⟩ e₀ (.compile (text "(?<x>a)"))) :=
    .single ⟨_, _, trivial, rfl⟩
  obtain ⟨a, ha, hdata⟩ := encoders_agree hmade hstep hlive sample 0 (text "ab")
  refine ⟨_, hlive, ?_⟩
  rw [(ha _ (by decide)).1, (ha _ (by decide)).1]
  rcases hdata with ⟨-, hnone⟩ | ⟨-, document, span, spans, -, -, -, -, hmatches, htext, -⟩
  · simp only [Option.map_some, hnone _ (by decide : text "text" ∈ encoderNames),
      hnone _ (by decide : text "matches" ∈ encoderNames)]
  · simp only [Option.map_some, hmatches, htext]

end Standard

end PatternEngine
