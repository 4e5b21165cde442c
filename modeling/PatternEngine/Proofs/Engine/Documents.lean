import PatternEngine.Proofs.Engine.Delivery
import PatternEngine.Proofs.Engine.Spans
import PatternEngine.Proofs.Engine.Stories
import PatternEngine.Proofs.Json.Written
/-!
# Documents of matches

The document of a match is an object with four fields that describe the match, and with a list of
the groups if there are any, each of them described by the same four fields (`document_eq`). Its
text is valid and stands on one line, and the object is what is read of it (`encode_json`). The
names that an engine tells an encoder are valid texts (`texts_of_steps`), so this holds of every
match, and the results of a match with a file are lines with one document each (`match_documents`).
-/
namespace PatternEngine

open PatternEngine.Text.Utf8

namespace BuiltinEncoder

/-- The object that describes a range of the input, with its fields in order. -/
def rangeObject (name input : Bytes) (span : Span) (subs : Option Json) : Json :=
  .object ([
    (text "data", .str (lossy (span.slice input))),
    (text "e", .int (span.stop + 1)),
    (text "s", .int (span.start + 1))] ++
    (subs.toList.map fun subs => (text "subs", subs)) ++
    [(text "type", .str name)])

/-- The object that describes a match: its groups are listed in order, if there are any. -/
def matchObject (r : MatchRecord) : Json :=
  rangeObject r.name r.input r.span <|
    if r.captures = [] then none
    else some (.array (r.captures.map fun c => rangeObject c.name r.input c.span none))

theorem ofFields_spanFields (name input : Bytes) (span : Span) :
    Json.ofFields (spanFields name input span) = rangeObject name input span none := rfl

theorem document_eq (r : MatchRecord) : document r = matchObject r := by
  unfold document matchObject
  simp only [ofFields_spanFields]
  by_cases hcaptures : r.captures = []
  · rw [hcaptures]
    rfl
  · have hsubs :
        (r.captures.map fun c => rangeObject c.name r.input c.span none).isEmpty = false := by
      simpa using hcaptures
    simp only [hsubs, hcaptures]
    rfl

/-- The names in a record are valid texts. -/
structure Named (r : MatchRecord) : Prop where
  name : isValid r.name = true
  captures : ∀ c ∈ r.captures, isValid c.name = true

theorem plain_rangeObject {name : Bytes} (input : Bytes) (span : Span) {subs : Option Json}
    (hname : isValid name = true) (hsubs : ∀ listed ∈ subs, Json.Plain listed) :
    Json.Plain (rangeObject name input span subs) := by
  have hfields : ∀ field ∈ [
      (text "data", Json.str (lossy (span.slice input))),
      (text "e", .int (span.stop + 1)),
      (text "s", .int (span.start + 1))] ++
      (subs.toList.map fun subs => (text "subs", subs)) ++
      [(text "type", .str name)], isValid field.1 = true ∧ Json.Plain field.2 := by
    intro field hm
    simp only [List.mem_append, List.mem_cons, List.mem_map, Option.mem_toList, List.not_mem_nil,
      or_false] at hm
    rcases hm with ((rfl | rfl | rfl) | ⟨listed, hlisted, rfl⟩) | rfl
    · exact ⟨(by decide : isValid (text "data") = true), .str (isValid_lossy _)⟩
    · exact ⟨(by decide : isValid (text "e") = true), .int _⟩
    · exact ⟨(by decide : isValid (text "s") = true), .int _⟩
    · exact ⟨(by decide : isValid (text "subs") = true), hsubs listed hlisted⟩
    · exact ⟨(by decide : isValid (text "type") = true), .str hname⟩
  refine .object (fun field hm => (hfields field hm).1) (fun field hm => (hfields field hm).2) ?_
  cases subs <;> rfl

theorem plain_document {r : MatchRecord} (h : Named r) : Json.Plain (document r) := by
  rw [document_eq]
  refine plain_rangeObject _ _ h.name ?_
  intro listed hlisted
  split at hlisted
  · cases hlisted
  · cases hlisted
    refine .array ?_
    intro item hm
    obtain ⟨c, hc, rfl⟩ := List.mem_map.1 hm
    refine plain_rangeObject _ _ (h.captures c hc) ?_
    intro subs hsubs
    cases hsubs

/-- The text of a match is valid and stands on one line, and what is read of it describes the
match. -/
theorem encode_json {r : MatchRecord} (h : Named r) :
    let bytes := BuiltinEncoder.json.encode r
    isValid bytes = true ∧ Json.Printable bytes ∧ Json.parse bytes = .ok (matchObject r) := by
  have hplain := plain_document h
  refine ⟨Json.isValid_render hplain, Json.printable_render hplain, ?_⟩
  rw [← document_eq]
  exact Json.parse_render hplain

/-! ## Lines -/

/-- The documents of matches, with a newline after each. -/
def documentLines (matched : List MatchRecord) : Bytes :=
  matched.flatMap fun r => BuiltinEncoder.json.encode r ++ [Bytes.newline]

theorem documentLines_eq (matched : List MatchRecord) :
    documentLines matched = Bytes.asLines (matched.map BuiltinEncoder.json.encode) := by
  unfold documentLines Bytes.asLines
  rw [List.flatMap_map]

/-- The lines are the documents, and nothing follows the last newline. -/
theorem splitOn_documentLines {matched : List MatchRecord} (h : ∀ r ∈ matched, Named r) :
    Bytes.splitOn Bytes.newline (documentLines matched) =
      matched.map BuiltinEncoder.json.encode ++ [[]] := by
  rw [documentLines_eq]
  refine Bytes.splitOn_asLines ?_
  intro line hline
  obtain ⟨r, hr, rfl⟩ := List.mem_map.1 hline
  exact Json.newline_not_mem_render (plain_document (h r hr))

theorem count_documentLines {matched : List MatchRecord} (h : ∀ r ∈ matched, Named r) :
    (documentLines matched).count Bytes.newline = matched.length := by
  have hcut := congrArg List.length (splitOn_documentLines h)
  rw [Bytes.length_splitOn] at hcut
  simpa using hcut

end BuiltinEncoder

/-! ## Names -/

namespace Matcher

variable {source name input : Bytes} {m : Matcher} {start : Nat} {found : Match}

/-- A matcher has the name that it was compiled under. -/
theorem name_of_compile (h : compile source name = .ok m) : m.name = name := by
  have hsame := compile_rename h name
  rw [h] at hsame
  exact congrArg Matcher.name (Except.ok.inj hsame)

theorem isValid_label (h : compile source name = .ok m) :
    ∀ label ∈ m.labels, isValid label = true := by
  intro label hlabel
  rw [← lossy_label h label hlabel]
  exact isValid_lossy label

end Matcher

theorem Environment.isValid_matcherName (name : Bytes) : isValid (matcherName name) = true := by
  unfold matcherName
  split
  · rename_i hvalid
    exact hvalid
  · decide

/-- The names in the matches of a pattern are valid texts. -/
def Environment.Pattern.Texts (pattern : Environment.Pattern) : Prop :=
  ∀ input start found, pattern.matcher.find input start = some found →
    BuiltinEncoder.Named ⟨pattern.matcher.name, input, found.span, found.captures⟩

theorem Environment.texts_of_compile {env : Environment} {expression : Bytes}
    {pattern : Environment.Pattern} (h : env.compile expression = .ok pattern) : pattern.Texts := by
  unfold Environment.compile at h
  split at h
  · cases h
  · cases hb : build env.bindings expression expression with
    | error obstacle =>
      rw [hb] at h
      cases h
    | ok built =>
      rw [hb] at h
      cases h
      obtain ⟨-, hcompile⟩ := build_cases hb
      intro input start found hfind
      refine ⟨?_, ?_⟩
      · show isValid built.matcher.name = true
        rw [Matcher.name_of_compile hcompile]
        exact isValid_matcherName expression
      · intro c hc
        exact Matcher.isValid_label hcompile _ (Matcher.label_of_find hfind c hc)

/-! ## Documents of records -/

namespace Primitive

theorem find_of_matchAt {m : Matcher} {input : Bytes} {start : Int} {index : Nat} {found : Match}
    (h : matchAt m input start = some (index, some found)) : m.find input index = some found := by
  unfold matchAt at h
  obtain ⟨i, -, hfind⟩ := Option.map_eq_some_iff.1 h
  obtain ⟨hindex, hfind⟩ := Prod.mk.inj hfind
  rw [← hindex]
  exact hfind

end Primitive

namespace Engine

/-- What an encoder is told of the match of a record, if there is one. -/
def matchOf? (m : Matcher) (record : Bytes) : Option MatchRecord :=
  match Primitive.matchAt m record 1 with
  | some (_, some found) => some ⟨m.name, record, found.span, found.captures⟩
  | _ => none

theorem data_answerOf (m : Matcher) (record : Bytes) :
    (answerOf m record 1 fun found =>
      BuiltinEncoder.json.encode ⟨m.name, record, found.span, found.captures⟩).data =
      (matchOf? m record).map BuiltinEncoder.json.encode := by
  unfold answerOf matchOf?
  rcases Primitive.matchAt m record 1 with _ | ⟨index, _ | found⟩ <;> rfl

theorem named_of_matchOf {pattern : Environment.Pattern} (h : pattern.Texts) {record : Bytes}
    {r : MatchRecord} (hr : matchOf? pattern.matcher record = some r) : BuiltinEncoder.Named r := by
  unfold matchOf? at hr
  split at hr
  · rename_i found hfound
    cases hr
    exact h _ _ _ (Primitive.find_of_matchAt hfound)
  · cases hr

end Engine

namespace Standard

open PatternEngine.Action PatternEngine.Engine

variable {gauge : StandardModule.Gauge} {installation files : FileSystem} {settings : Settings}
  {standardHome : Bytes} {options : Options} {e₀ e : StandardEngine} {handle : Handle}
  {pattern : Environment.Pattern} {r : FileRequest}

/-! ## Names -/

theorem texts_of_steps {allowed : Call → World → Prop} (hfresh : Fresh e₀)
    (h : Steps allowed e₀ e) : AllPatterns Environment.Pattern.Texts e :=
  allPatterns_of_steps (fun _ _ _ => Environment.texts_of_compile) hfresh h

/-! ## Matching files -/

/-- What is written for records are the documents of the matches among them. -/
theorem matchEach_json (files : FileSystem) (records : List Bytes) (hs : Shipped e)
    (hp : e.patterns.get? handle = some (StandardModule.patternObject pattern)) :
    let matched := records.filterMap (matchOf? pattern.matcher)
    ∃ (s : Streams) (e' : StandardEngine),
      (matchEach files handle (text "json") records {}).run e = (.ok s, e') ∧
      s.output = BuiltinEncoder.documentLines matched ∧ s.results = matched.length := by
  intro matched
  have hknown : text "json" ∈ encoderNames := by decide
  obtain ⟨e', hrun⟩ := matchEach_data files hknown records {} hs hp
  have hdata : (fun record => (answerOf pattern.matcher record 1
      (encoding pattern.matcher record (text "json"))).data) =
      fun record => (matchOf? pattern.matcher record).map BuiltinEncoder.json.encode :=
    funext (data_answerOf pattern.matcher)
  have hmatched : matched.map BuiltinEncoder.json.encode =
      records.filterMap fun record =>
        (matchOf? pattern.matcher record).map BuiltinEncoder.json.encode :=
    List.map_filterMap
  rw [Streams.add_all, hdata, ← hmatched] at hrun
  refine ⟨_, e', hrun, (BuiltinEncoder.documentLines_eq matched).symm, ?_⟩
  exact (Nat.zero_add _).trans (List.length_map _)

/-- The documents of the matches arrive, and as many are counted. -/
theorem matchFile_json {world world' : World} {records results misses : Nat} {e' : StandardEngine}
    (hs : Shipped e)
    (hp : e.patterns.get? r.pattern = some (StandardModule.patternObject pattern))
    (hencoder : r.encoder = text "json")
    (h : matchFile e r world = ((.ok (.counts records results misses), world'), e')) :
    ∃ matched : List MatchRecord,
      (∀ m ∈ matched, ∃ record, matchOf? pattern.matcher record = some m) ∧
      results = matched.length ∧
      (Apart world.files r →
        Received r.output world world' (BuiltinEncoder.documentLines matched)) := by
  have hknown : r.encoder ∈ encoderNames := by
    rw [hencoder]
    decide
  rw [matchFile_known hs (by rw [hp]; rfl) hknown] at h
  obtain ⟨output, errors, opened, opened', input, hout, herr, hmatch⟩ := processFile_counts h
  obtain ⟨t, e₁, -, hrecords, heach, -⟩ :=
    matchRecords_each opened' hknown (recordsOf r.wholeFile input) {} hs hp
  obtain ⟨s, e₂, hjson, houtput, hresults⟩ :=
    matchEach_json {} (recordsOf r.wholeFile input) hs hp
  rw [← hencoder] at hjson
  cases (heach {}).symm.trans hjson
  obtain ⟨world₁, hfiles, hstdout, hended⟩ :=
    matchInputFile_ended { world with files := opened' } hrecords output errors
  rw [hended] at hmatch
  cases hmatch
  refine ⟨_, ?_, hresults, ?_⟩
  · intro m hm
    obtain ⟨record, -, hrecord⟩ := List.mem_filterMap.1 hm
    exact ⟨record, hrecord⟩
  · intro hapart
    rw [← houtput]
    exact received_deliver hout (hfiles ▸ herr) hapart hstdout t

/-- Whatever the result slot of an engine holds, a match leaves its document there and nothing
else. -/
theorem matchInput_json (hs : Shipped e)
    (hp : e.patterns.get? handle = some (StandardModule.patternObject pattern)) {input : Bytes}
    {start : Int} {index : Nat} {found : Match}
    (hfound : Primitive.matchAt pattern.matcher input start = some (index, some found))
    (files : FileSystem) (held : Bytes) :
    let r : MatchRecord := ⟨pattern.matcher.name, input, found.span, found.captures⟩
    (matchInput files handle start (text "json") input).run { e with nativeResult := held } =
      (.ok { data := .native, leftover := (input.length - found.span.stop : Nat) },
        { e with nativeResult := BuiltinEncoder.json.encode r }) := by
  intro r
  have hs' : Shipped { e with nativeResult := held } := hs.of_slots rfl
  have hr : Encoder.resolve (text "json") = .builtin .json := rfl
  rw [matchInput_eq hs']
  unfold dispatch
  rw [run_bind_ok (run_get _)]
  simp only [hp, hr, nativeMatch, patternObject_peg, Primitive.encodeMatch, hfound]
  rw [run_bind_ok (run_modify _ _)]
  rfl

/-- With the encoder for documents, a match gives a text that is valid, stands on one line and is
read back as the object that describes the match, and it takes the place of whatever the engine
held as the last result. The results of a match with a file are lines, one document on each, and
their number is told. -/
theorem match_documents
    (hmade : create (shippedModule gauge) installation settings standardHome options = .ok e₀)
    (hrun : Steps Call.Any e₀ e) :
    (∀ r : MatchRecord, BuiltinEncoder.Named r →
      let bytes := BuiltinEncoder.json.encode r
      isValid bytes = true ∧ Json.Printable bytes ∧
        Json.parse bytes = .ok (BuiltinEncoder.matchObject r)) ∧
    ∀ handle v, e.patterns.get? handle = some v →
      ∃ m : Matcher, v.field (text "peg") = .matcher m ∧
      (∀ input start index found,
        Primitive.matchAt m input start = some (index, some found) →
        let r : MatchRecord := ⟨m.name, input, found.span, found.captures⟩
        BuiltinEncoder.Named r ∧ ∀ files held,
          (matchInput files handle start (text "json") input).run { e with nativeResult := held } =
            (.ok { data := .native, leftover := (input.length - found.span.stop : Nat) },
              { e with nativeResult := BuiltinEncoder.json.encode r })) ∧
      ∀ (r : FileRequest) (world : World), r.pattern = handle → r.encoder = text "json" →
        (∀ input output errors, Opens world.files r input output errors →
          ∃ records results misses world' e',
            matchFile e r world = ((.ok (.counts records results misses), world'), e')) ∧
        ∀ records results misses world' e',
          matchFile e r world = ((.ok (.counts records results misses), world'), e') →
          ∃ matched : List MatchRecord,
            let lines := BuiltinEncoder.documentLines matched
            (∀ r' ∈ matched, BuiltinEncoder.Named r' ∧
              ∃ record, matchOf? m record = some r') ∧
            results = matched.length ∧
            lines.count Bytes.newline = results ∧
            Bytes.splitOn Bytes.newline lines =
              matched.map BuiltinEncoder.json.encode ++ [[]] ∧
            (Apart world.files r → Received r.output world world' lines) := by
  have hfresh := (fresh_of_create hmade).1
  have hs : Shipped e := shipped_of_steps hfresh.shipped hrun
  refine ⟨fun r hnamed => BuiltinEncoder.encode_json hnamed, ?_⟩
  intro handle v hv
  obtain ⟨pattern, rfl, htexts⟩ := texts_of_steps hfresh hrun v (HandleTable.mem_of_get? hv)
  refine ⟨pattern.matcher, patternObject_peg pattern, ?_, ?_⟩
  · intro input start index found hfound
    have hfind := Primitive.find_of_matchAt hfound
    exact ⟨htexts input index found hfind, matchInput_json hs hv hfound⟩
  · rintro r world rfl hencoder
    constructor
    · intro input output errors hopens
      have hknown : r.encoder ∈ encoderNames := by
        rw [hencoder]
        decide
      obtain ⟨streams, e', -, -, hprocess⟩ := processFile_run hopens hs hv hknown
      have hmatch := matchFile_known hs (by rw [hv]; rfl) hknown world
      exact ⟨_, _, _, _, _, hmatch.trans hprocess⟩
    · intro records results misses world' e' hmatch
      obtain ⟨matched, hmatched, hcount, hreceived⟩ := matchFile_json hs hv hencoder hmatch
      have hnamed : ∀ r' ∈ matched, BuiltinEncoder.Named r' := by
        intro r' hm
        obtain ⟨record, hrecord⟩ := hmatched r' hm
        exact named_of_matchOf htexts hrecord
      have hlines := BuiltinEncoder.count_documentLines hnamed
      exact ⟨matched, fun r' hm => ⟨hnamed r' hm, hmatched r' hm⟩, hcount,
        hlines.trans hcount.symm, BuiltinEncoder.splitOn_documentLines hnamed, hreceived⟩

/-- A match with a group is described by an object, and the lines of a package file are matched. -/
theorem match_documents_sample : ∃ e : StandardEngine,
    let first : MatchRecord :=
      ⟨text "(?<x>a)", text "ab", ⟨0, 1⟩, [⟨text "x", ⟨0, 1⟩⟩]⟩
    let r : FileRequest := {
      pattern := ⟨1⟩
      encoder := text "json"
      input := text "/r/rpl/a.rpl"
      output := text "/r/out"
      errors := text "/r/err" }
    let world : World := ⟨sample, [], [], []⟩
    BuiltinEncoder.Named first ∧
    Json.parse (BuiltinEncoder.json.encode first) = .ok (BuiltinEncoder.matchObject first) ∧
    (e.patterns.get? r.pattern).isSome = true ∧
    Opens sample r (text "package a\nx = y\n") [text "r", text "out"] [text "r", text "err"] ∧
    Apart sample r ∧
    ∃ records results misses world' e' matched,
      matchFile e r world = ((.ok (.counts records results misses), world'), e') ∧
      results = matched.length ∧
      Received r.output world world' (BuiltinEncoder.documentLines matched) := by
  obtain ⟨e₀, hmade, hlive⟩ : ∃ e₀ : StandardEngine,
      create standardModule sample {} (text "r") {} = .ok e₀ ∧
      ((Call.after ⟨sample, [], [], []⟩ e₀ (.compile (text "(?<x>a)"))).patterns.get?
        ⟨1⟩).isSome = true := ⟨_, rfl, rfl⟩
  have hstep : Steps Call.Any e₀
      (Call.after ⟨sample, [], [], []⟩ e₀ (.compile (text "(?<x>a)"))) :=
    .single ⟨_, _, trivial, rfl⟩
  have hnamed : BuiltinEncoder.Named
      ⟨text "(?<x>a)", text "ab", ⟨0, 1⟩, [⟨text "x", ⟨0, 1⟩⟩]⟩ := ⟨by decide, by decide⟩
  have hopens : Opens sample ⟨⟨1⟩, text "json", text "/r/rpl/a.rpl", text "/r/out",
      text "/r/err", false⟩ (text "package a\nx = y\n") [text "r", text "out"]
      [text "r", text "err"] :=
    ⟨rfl, ⟨_, rfl⟩, ⟨_, rfl⟩, by decide, by decide, by decide⟩
  have hapart : Apart sample ⟨⟨1⟩, text "json", text "/r/rpl/a.rpl", text "/r/out",
      text "/r/err", false⟩ := by
    intro place hplace herror
    exact absurd (hplace.trans herror.symm)
      (by decide : sample.place (text "/r/out") ≠ sample.place (text "/r/err"))
  obtain ⟨v, hv⟩ := Option.isSome_iff_exists.1 hlive
  obtain ⟨hencode, hhandles⟩ := match_documents hmade hstep
  obtain ⟨m, -, -, hfile⟩ := hhandles ⟨1⟩ v hv
  obtain ⟨hcounts, hdocuments⟩ := hfile ⟨⟨1⟩, text "json", text "/r/rpl/a.rpl", text "/r/out",
    text "/r/err", false⟩ ⟨sample, [], [], []⟩ rfl rfl
  obtain ⟨records, results, misses, world', e', hmatch⟩ := hcounts _ _ _ hopens
  obtain ⟨matched, -, hresults, -, -, hreceived⟩ := hdocuments _ _ _ _ _ hmatch
  exact ⟨_, hnamed, (hencode _ hnamed).2.2, hlive, hopens, hapart, records, results, misses,
    world', e', matched, hmatch, hresults, hreceived hapart⟩

end Standard

end PatternEngine
