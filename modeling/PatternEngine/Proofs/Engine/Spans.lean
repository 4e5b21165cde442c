import PatternEngine.Proofs.Automaton.Ranges
import PatternEngine.Proofs.Engine.Traces
import PatternEngine.Proofs.Expression.Groups
/-!
# Bytes are conserved

Matching splits the input into what lies before the start, what is matched and what is left over.
The ways to match tell the same of it (`Told`), and every range that is told of lies in the input,
those of the groups in that of the match (`bytes_conserved`). So whatever is cut out of the input is
there, and the numbers that are computed on the way stay in range.
-/
namespace PatternEngine

open PatternEngine.Automaton

/-- A range cuts the input into three parts, one of them the bytes in the range. -/
structure Span.Cuts (span : Span) (input : Bytes) : Prop where
  start_le_stop : span.start ≤ span.stop
  stop_le_length : span.stop ≤ input.length
  parts : input.take span.start ++ span.slice input ++ input.drop span.stop = input

theorem Span.cuts_of_inside {span : Span} {input : Bytes} {low : Nat}
    (h : span.Inside low input.length) : span.Cuts input := by
  refine ⟨h.start_le_stop, h.le_high, ?_⟩
  have hstop : span.stop = span.start + (span.stop - span.start) := by
    have := h.start_le_stop
    omega
  have hrest : input.drop span.stop = (input.drop span.start).drop (span.stop - span.start) := by
    rw [List.drop_drop, ← hstop]
  unfold Span.slice
  rw [hrest, List.append_assoc, List.take_append_drop, List.take_append_drop]

namespace Primitive

/-- Whatever bounds are given, what is cut out of the input is in range. -/
theorem slice_cuts (input : Bytes) (start stop : Option Int) :
    ∃ span : Span, span.Cuts input ∧ slice input start stop = span.slice input := by
  let last : Int := input.length + 1
  let s := clamp 1 last (start.getD 1)
  let e := clamp s last (stop.getD last)
  have hs : 1 ≤ s ∧ s ≤ last := by
    unfold s clamp
    omega
  have he : s ≤ e ∧ e ≤ last := by
    unfold e clamp
    omega
  refine ⟨⟨(s - 1).toNat, (e - 1).toNat⟩, Span.cuts_of_inside ⟨Nat.zero_le _, ?_, ?_⟩, ?_⟩
  · dsimp only
    omega
  · dsimp only
    omega
  · have hlength : (e - 1).toNat - (s - 1).toNat = (e - s).toNat := by omega
    unfold Span.slice
    rw [hlength]
    rfl

/-- The index that matching starts at; matching starts only if it is in the input. -/
theorem matchAt_eq (m : Matcher) (input : Bytes) (start : Int) :
    let i := (max start 1 - 1).toNat
    matchAt m input start = if i ≤ input.length then some (i, m.find input i) else none := by
  unfold matchAt startIndex
  dsimp only
  split <;> rfl

end Primitive

namespace Matcher

variable {m : Matcher} {input : Bytes} {i : Nat} {found : Match}

/-- A match starts where it is to start, and lies in the input with all its groups. -/
theorem find_within (h : m.find input i = some found) (hi : i ≤ input.length) :
    ∃ f, m.automaton.search (input.take i).reverse (input.drop i) = some f ∧
      found = ⟨⟨i, f.stop⟩, m.captures f.notes⟩ ∧ f.Within i input.length := by
  have hbefore : (input.take i).reverse.length = i := by simp [hi]
  have hafter : (input.drop i).length = input.length - i := List.length_drop
  unfold find at h
  split at h
  · rename_i f hsearch
    split at h
    · cases h
      have hwithin := search_within hsearch
      rw [hbefore, hafter, Nat.add_sub_of_le hi] at hwithin
      exact ⟨f, hsearch, rfl, hwithin⟩
    · cases h
  · cases h

theorem capture_inside {notes : Notes} {low high : Nat} (h : notes.Within low high) :
    ∀ c ∈ m.captures notes, c.span.Inside low high := by
  intro c hc
  obtain ⟨⟨label, k⟩, -, hc⟩ := List.mem_filterMap.1 hc
  obtain ⟨span, hspan, rfl⟩ := Option.map_eq_some_iff.1 hc
  exact h.span hspan

end Matcher

namespace Standard

open PatternEngine.Engine

/-- An engine that has been made and used has a handle for a pattern with this matcher. -/
structure Serves (m : Matcher) (e : StandardEngine) (handle : Handle) : Prop where
  reached : ∃ gauge installation settings standardHome options e₀,
    create (shippedModule gauge) installation settings standardHome options = .ok e₀ ∧
      Steps Call.Any e₀ e
  pattern : ∃ pattern, e.patterns.get? handle = some (StandardModule.patternObject pattern) ∧
    pattern.matcher = m

/-- What is told of matching: the bytes left over, and the match if there is one. The two
primitives, the trace and the engine tell the same. -/
structure Told (m : Matcher) (input : Bytes) (start leftover : Int) (found : Option Match) :
    Prop where
  encoded : ∀ encoder, Primitive.encodeMatch m input start encoder =
    ⟨found.map fun f => encoder.encode ⟨m.name, input, f.span, f.captures⟩, leftover⟩
  listed : ∀ v, Primitive.inputBytes? v = some input →
    Primitive.matchInput [.matcher m, v, .int start] = .returned (found.elim
      [.bool false, .nil, .int leftover, .int 0, .nil]
      fun f => [.int (f.span.start + 1), .int (f.span.stop + 1), .int leftover, .int 0,
        Primitive.captureList f.captures])
  traced : ∀ expression source, Tracing.subject m expression source input start =
    ⟨expression, source, input, max start 1, leftover, found⟩
  replied : ∀ pattern : Environment.Pattern, pattern.matcher = m →
    ∀ name style, TraceStyle.ofName? name = some style →
    ∀ files (s : StandardModule.State Unit),
      StandardModule.trace files
          [StandardModule.patternObject pattern, .str input, .int start, .str name] s =
        (.returned [.bool true, .bool found.isSome, Tracing.render style
          ⟨pattern.expression, pattern.source, input, max start 1, leftover, found⟩], s)
  answered : ∀ e handle, Serves m e handle → ∀ files, ∀ name ∈ encoderNames,
    answer files handle start name input e =
      some ⟨if found.isSome then .matched else .noMatch, found.map (encoding m input name),
        leftover, false⟩

/-- The module replies with the trace of what is told. -/
theorem replied_of_traced {m : Matcher} {input : Bytes} {start leftover : Int}
    {found : Option Match}
    (htraced : ∀ expression source, Tracing.subject m expression source input start =
      ⟨expression, source, input, max start 1, leftover, found⟩)
    (pattern : Environment.Pattern) (hm : pattern.matcher = m) (name : Bytes) (style : TraceStyle)
    (hstyle : TraceStyle.ofName? name = some style) (files : FileSystem)
    (s : StandardModule.State Unit) :
    StandardModule.trace files
        [StandardModule.patternObject pattern, .str input, .int start, .str name] s =
      (.returned [.bool true, .bool found.isSome, Tracing.render style
        ⟨pattern.expression, pattern.source, input, max start 1, leftover, found⟩], s) := by
  rw [StandardModule.trace_eq hstyle, hm, htraced]

/-- What is told follows from where the match is, if there is one. -/
theorem told_of_matchAt (m : Matcher) (input : Bytes) (start : Int) :
    match Primitive.matchAt m input start with
    | some (_, some found) =>
      Told m input start (input.length - found.span.stop : Nat) (some found)
    | some (i, none) => Told m input start (input.length - i : Nat) none
    | none => Told m input start 0 none := by
  have hanswer : ∀ e handle, Serves m e handle → ∀ files, ∀ name ∈ encoderNames,
      answer files handle start name input e =
        some (answerOf m input start (encoding m input name)) := by
    rintro e handle ⟨⟨_, _, _, _, _, e₀, hmade, hrun⟩, pattern, hp, rfl⟩ files name hname
    exact answer_encoding (shipped_of_steps (fresh_of_create hmade).1.shipped hrun) hp hname
  have hlisted : ∀ v, Primitive.inputBytes? v = some input →
      Primitive.matchInput [.matcher m, v, .int start] =
        .returned (Primitive.matchValues input (Primitive.matchAt m input start)) :=
    fun _ hv => Primitive.matchInput_matcher hv m start
  unfold answerOf at hanswer
  rcases hm : Primitive.matchAt m input start with _ | ⟨i, _ | found⟩ <;>
    simp only [hm] at hanswer hlisted ⊢ <;>
    refine ⟨fun encoder => ?_, hlisted, fun expression source => ?_,
      replied_of_traced fun expression source => ?_, hanswer⟩ <;>
    simp only [Primitive.encodeMatch, Tracing.subject, hm] <;> rfl

/-- A number that fits into 64 bits with a sign. -/
def FitsWord (n : Int) : Prop := Int64.minValue.toInt ≤ n ∧ n ≤ Int64.maxValue.toInt

theorem fitsWord_iff {n : Int} :
    FitsWord n ↔ -9223372036854775808 ≤ n ∧ n ≤ 9223372036854775807 := Iff.rfl

/-- The groups of a match are those that the text opens and that have taken part, in the order of
their numbers, each once and under its declared name or its number. -/
def ListsGroups (chars : List Char) (notes : Notes) (captures : List Capture) : Prop :=
  ∃ rows : List (Nat × Capture), captures = rows.map Prod.snd ∧
    (rows.map Prod.fst).Pairwise (· < ·) ∧
    ∀ group c, (group, c) ∈ rows ↔ ∃ declared span, Expression.Opens chars group declared ∧
      notes.span? group = some span ∧ c = ⟨Expression.labelOf group declared, span⟩

/-- A match starts at an index and ends in the input, and its groups lie in it. What is cut out for
it is in the input, and the bytes after it are left over. -/
structure Placed (input : Bytes) (i : Nat) (leftover : Int) (found : Match) : Prop where
  start_eq : found.span.start = i
  start_le_stop : i ≤ found.span.stop
  stop_le_length : found.span.stop ≤ input.length
  leftover_eq : leftover = input.length - found.span.stop
  cuts : found.span.Cuts input
  groups : ∀ c ∈ found.captures, c.span.Inside i found.span.stop ∧ c.span.Cuts input

theorem placed_of_within {m : Matcher} {input : Bytes} {i : Nat} {f : Found}
    (h : f.Within i input.length) :
    Placed input i (input.length - f.stop : Nat) ⟨⟨i, f.stop⟩, m.captures f.notes⟩ := by
  refine ⟨rfl, h.low_le, h.le_high, Int.ofNat_sub h.le_high,
    Span.cuts_of_inside ⟨Nat.zero_le i, h.low_le, h.le_high⟩, fun c hc => ?_⟩
  have hinside := Matcher.capture_inside h.notes c hc
  exact ⟨hinside, Span.cuts_of_inside (hinside.mono h.le_high)⟩

/-- For every matcher, every input and every start: past the end there is no match and nothing is
left over, and without a match all from the start on is left over. A match is placed at the start,
`matches` gives what lies between its ends, and its groups are listed. All bytes that are cut out
are in the input, and no number leaves its range. -/
theorem bytes_conserved {source name : Bytes} {m : Matcher}
    (hcompile : Matcher.compile source name = .ok m) :
    ∃ chars, Text.Utf8.chars? source = some chars ∧ ∀ (input : Bytes) (start : Int),
      let i := (max start 1 - 1).toNat
      ∃ leftover found, Told m input start leftover found ∧
        (input.length < i → found = none ∧ leftover = 0) ∧
        (i ≤ input.length → found = none → leftover = input.length - i) ∧
        (∀ f ∈ found, Placed input i leftover f ∧
          Primitive.encodeMatch m input start .matches =
            ⟨some ((input.drop i).take (f.span.stop - i)), leftover⟩ ∧
          ∃ reached, m.automaton.search (input.take i).reverse (input.drop i) = some reached ∧
            reached.stop = f.span.stop ∧ ListsGroups chars reached.notes f.captures) ∧
        (∀ s e, ∃ span : Span, span.Cuts input ∧ Primitive.slice input s e = span.slice input) ∧
        (FitsWord start → FitsWord input.length → 0 ≤ max start 1 - 1 ∧
          FitsWord (max start 1 - 1) ∧ 0 ≤ leftover ∧ FitsWord leftover ∧
          ∀ f ∈ found, FitsWord f.span.stop ∧ ∀ c ∈ f.captures, FitsWord c.span.stop) := by
  obtain ⟨chars, -, hchars, -⟩ := Matcher.compile_ok hcompile
  refine ⟨chars, hchars, fun input start => ?_⟩
  intro i
  have htold := told_of_matchAt m input start
  have hat : Primitive.matchAt m input start =
      if i ≤ input.length then some (i, m.find input i) else none :=
    Primitive.matchAt_eq m input start
  have hindex : (i : Int) = max start 1 - 1 := Int.toNat_of_nonneg (by omega)
  by_cases hi : i ≤ input.length
  · rw [if_pos hi] at hat
    rw [hat] at htold
    cases hfind : m.find input i with
    | none =>
      rw [hfind] at htold
      refine ⟨_, none, htold, by omega, by omega, by simp, Primitive.slice_cuts input, ?_⟩
      simp only [fitsWord_iff]
      intro hstart hlength
      exact ⟨by omega, by omega, by omega, by omega, by simp⟩
    | some found =>
      rw [hfind] at htold
      obtain ⟨reached, hsearch, rfl, hwithin⟩ := Matcher.find_within hfind hi
      have hplaced : Placed input i (input.length - reached.stop : Nat)
        ⟨⟨i, reached.stop⟩, m.captures reached.notes⟩ := placed_of_within hwithin
      refine ⟨_, some _, htold, by omega, by simp, ?_, Primitive.slice_cuts input, ?_⟩
      · rintro f ⟨⟩
        exact ⟨hplaced, htold.encoded .matches, reached, hsearch, rfl, m.numbered reached.notes,
          m.captures_numbered _, m.numbered_increasing _,
          fun group c => Matcher.mem_numbered_iff hcompile hchars⟩
      · have hstop := hwithin.le_high
        simp only [fitsWord_iff]
        intro hstart hlength
        refine ⟨by omega, by omega, by omega, by omega, ?_⟩
        rintro f ⟨⟩
        dsimp only
        refine ⟨by omega, fun c hc => ?_⟩
        have hinside := (hplaced.groups c hc).2.stop_le_length
        omega
  · rw [if_neg hi] at hat
    rw [hat] at htold
    refine ⟨0, none, htold, fun _ => ⟨rfl, rfl⟩, fun h => absurd h hi, by simp,
      Primitive.slice_cuts input, ?_⟩
    simp only [fitsWord_iff]
    intro hstart hlength
    exact ⟨by omega, by omega, by omega, by omega, by simp⟩

/-- A match with a group that has taken part and one that has not. -/
theorem bytes_conserved_sample : ∃ m leftover f,
    Matcher.compile (text "(?<x>a)(c)?") (text "*") = .ok m ∧
      Told m (text "bab") 2 leftover (some f) ∧ Placed (text "bab") 1 leftover f ∧
      Primitive.encodeMatch m (text "bab") 2 .matches = ⟨some (text "a"), 1⟩ ∧
      leftover = 1 ∧ f = ⟨⟨1, 2⟩, [⟨text "x", ⟨1, 2⟩⟩]⟩ := by
  obtain ⟨m, hm, hfind⟩ : ∃ m, Matcher.compile (text "(?<x>a)(c)?") (text "*") = .ok m ∧
      m.find (text "bab") 1 = some ⟨⟨1, 2⟩, [⟨text "x", ⟨1, 2⟩⟩]⟩ := ⟨_, rfl, by decide +kernel⟩
  obtain ⟨chars, -, h⟩ := bytes_conserved hm
  obtain ⟨leftover, found, htold, -, -, hfound, -⟩ := h (text "bab") 2
  have hmatch : Primitive.matchAt m (text "bab") 2 =
      some (1, some ⟨⟨1, 2⟩, [⟨text "x", ⟨1, 2⟩⟩]⟩) :=
    congrArg (fun f => some (1, f)) hfind
  have hsubject := htold.traced [] []
  rw [Tracing.subject, hmatch] at hsubject
  cases hsubject
  obtain ⟨hplaced, hencoded, -⟩ := hfound _ rfl
  exact ⟨m, _, _, hm, htold, hplaced, hencoded, rfl, rfl⟩

end Standard

end PatternEngine
