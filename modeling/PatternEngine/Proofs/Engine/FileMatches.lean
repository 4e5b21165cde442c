import PatternEngine.Proofs.Engine.Lifetimes
import PatternEngine.Proofs.Files.Creating
import PatternEngine.Proofs.Text.Pieces
/-!
# Matching a file is matching its records

The input of a match with a file is cut into records (`Cut`), and with the standard module nothing
else happens than that these are matched one after the other (`matchEach`), while the results go to
one file and the records without a result to another (`matchFile_matches_each`).
-/
namespace PatternEngine

namespace Engine

open PatternEngine.Action

variable {σ : Type}

/-- An input and its records: its lines, where the last one needs no newline if there is a byte in
it, or else the whole, if there is a byte in it. -/
def Cut (wholeFile : Bool) (input : Bytes) (records : List Bytes) : Prop :=
  if wholeFile then records = if input = [] then [] else [input]
  else ∃ lines rest, records = lines ++ (if rest = [] then [] else [rest]) ∧
    input = lines.flatMap (· ++ [Bytes.newline]) ++ rest ∧
    (∀ line ∈ lines, Bytes.newline ∉ line) ∧ Bytes.newline ∉ rest

theorem cut_recordsOf (wholeFile : Bool) (input : Bytes) :
    Cut wholeFile input (recordsOf wholeFile input) := by
  unfold Cut recordsOf
  cases wholeFile with
  | true => cases input <;> simp
  | false =>
    obtain ⟨lines, rest, hsplit, hinput, hlines, hrest⟩ :=
      Bytes.splitOn_pieces Bytes.newline input
    simp only [Bool.false_eq_true, if_false]
    refine ⟨lines, rest, ?_, hinput, hlines, hrest⟩
    by_cases hempty : input = []
    · subst hempty
      obtain ⟨hnone, rfl⟩ := List.append_eq_nil_iff.1 hinput.symm
      have hlines : lines = [] := by
        cases lines with
        | nil => rfl
        | cons line lines => simp at hnone
      simp [hlines]
    · rw [if_neg (by simpa using hempty), hsplit]
      by_cases hr : rest = []
      · simp [hr]
      · simp [hr]

/-! ## What single matches write -/

/-- What has been written to the two streams, and how often. -/
structure Streams where
  output : Bytes := []
  errors : Bytes := []
  results : Nat := 0
  misses : Nat := 0

/-- A result goes to the output, and a record without one to the errors. -/
def Streams.add (s : Streams) (record : Bytes) : Option Bytes → Streams
  | some bytes => { s with
    output := s.output ++ bytes ++ [Bytes.newline]
    results := s.results + 1 }
  | none => { s with
    errors := s.errors ++ record ++ [Bytes.newline]
    misses := s.misses + 1 }

/-- What is written when it is known what comes of each record. -/
theorem Streams.add_all (data : Bytes → Option Bytes) (records : List Bytes) (s : Streams) :
    let hits := records.filterMap data
    let missed := records.filter fun record => (data record).isNone
    records.foldl (fun s record => s.add record (data record)) s =
      ⟨s.output ++ Bytes.asLines hits, s.errors ++ Bytes.asLines missed,
        s.results + hits.length, s.misses + missed.length⟩ := by
  induction records generalizing s with
  | nil => simp [Bytes.asLines]
  | cons record records ih =>
    rw [List.foldl_cons, ih, List.filterMap_cons, List.filter_cons]
    cases hd : data record with
    | none => simp [Streams.add, Bytes.asLines, Nat.add_assoc, Nat.add_comm 1]
    | some bytes => simp [Streams.add, Bytes.asLines, Nat.add_assoc, Nat.add_comm 1]

/-- Matches records one after the other. -/
def matchEach (files : FileSystem) (handle : Handle) (encoder : Bytes) :
    List Bytes → Streams → Action σ Streams
  | [], streams => return streams
  | record :: rest, streams => do
    let outcome ← matchInput files handle 1 encoder record
    let engine ← get
    matchEach files handle encoder rest (streams.add record (engine.data outcome.data))

theorem contents_foldl (stream : Stream) (rest : Bytes) (written : List (Stream × Bytes)) :
    written.foldl (fun rest (s, bytes) =>
      if s = stream then bytes ++ Bytes.newline :: rest else rest) rest =
    (({ written } : Tally).contents stream) ++ rest := by
  unfold Tally.contents
  induction written generalizing rest with
  | nil => rfl
  | cons entry written ih =>
    obtain ⟨s, bytes⟩ := entry
    simp only [List.foldl_cons]
    by_cases hs : s = stream
    · rw [if_pos hs, if_pos hs, ih (bytes ++ Bytes.newline :: rest),
        ih (bytes ++ [Bytes.newline])]
      simp
    · rw [if_neg hs, if_neg hs, ih rest]

/-- What a tally has written. -/
def Tally.streams (t : Tally) : Streams :=
  ⟨t.contents .output, t.contents .errors, t.results, t.misses⟩

/-- A record has been matched, with a result or without. -/
def Tally.add (t : Tally) (record : Bytes) (data : Option Bytes) : Tally :=
  let t := { t with
    records := t.records + 1
    consumed := t.consumed + record.length + 1 }
  match data with
  | some bytes => t.addResult bytes
  | none => t.addMiss record

section
variable (t : Tally) (record : Bytes) (data : Option Bytes)

theorem Tally.streams_add : (t.add record data).streams = t.streams.add record data := by
  cases data with
  | some bytes =>
    have hout := contents_foldl .output (bytes ++ [Bytes.newline]) t.written
    simp [streams, add, Streams.add, addResult, contents] at hout ⊢
    exact hout
  | none =>
    have herr := contents_foldl .errors (record ++ [Bytes.newline]) t.written
    simp [streams, add, Streams.add, addMiss, contents] at herr ⊢
    exact herr

theorem Tally.records_add : (t.add record data).records = t.records + 1 := by
  cases data <;> rfl

theorem Tally.counts_add :
    (t.add record data).results + (t.add record data).misses = t.results + t.misses + 1 := by
  cases data with
  | some bytes => exact Nat.add_right_comm t.results 1 t.misses
  | none => rfl

end

theorem matchRecords_cons {files : FileSystem} {r : FileRequest} {tally : Tally} {record : Bytes}
    {e e' : Engine σ} {data : Option Bytes}
    (h : (matchRecord files r (tally.records + 1) record).run e = (.ok data, e'))
    (rest : List Bytes) :
    matchRecords files r tally (record :: rest) e =
      matchRecords files r (tally.add record data) rest e' := by
  rw [matchRecords]
  dsimp only
  rw [h]
  cases data <;> rfl

end Engine

namespace Standard

open PatternEngine.Action PatternEngine.Engine

variable {e₀ e : StandardEngine} {handle : Handle} {pattern : Environment.Pattern}
  {r : FileRequest}

/-! ## One record -/

theorem matchInput_files (files files' : FileSystem) (arguments : List Value)
    (s : StandardModule.State Unit) :
    StandardModule.matchInput StandardModule.extensions files arguments s =
      StandardModule.matchInput StandardModule.extensions files' arguments s := by
  unfold StandardModule.matchInput
  split
  · dsimp only
    split
    · rfl
    · rfl
    · rfl
    · rename_i x _ _ hx
      split
      · rfl
      · rcases extension?_stateless hx with ⟨v, rfl⟩ | ⟨reply, rfl⟩ <;> rfl
      · rfl
  · rfl

/-- Matching reads no files. -/
theorem dispatch_files (hs : Shipped e) (files files' : FileSystem) (handle : Handle) (start : Int)
    (encoder input : Bytes) :
    (dispatch files handle start encoder input).run e =
      (dispatch files' handle start encoder input).run e := by
  unfold dispatch
  rw [run_bind_ok (run_get e), run_bind_ok (run_get e)]
  split
  · rfl
  · split
    · rfl
    · split
      · unfold scriptedMatch
        rw [run_bind_ok (run_modify e _), run_bind_ok (run_modify e _), run_bind, run_bind,
          callMethod_run (by rw [hs.methods]; rfl), callMethod_run (by rw [hs.methods]; rfl),
          call_run, call_run, matchInput_files files files']
      · rfl

/-- A record is matched like any other input: there is a result or none, and nothing else. -/
theorem dispatch_known (hs : Shipped e)
    (hp : e.patterns.get? handle = some (StandardModule.patternObject pattern)) {encoder : Bytes}
    (hencoder : encoder ∈ encoderNames) (start : Int) (input : Bytes) :
    ∃ (outcome : Outcome) (e' : StandardEngine), Unmoved e e' ∧
      e'.data outcome.data = (answerOf pattern.matcher input start
        (encoding pattern.matcher input encoder)).data ∧
      ∀ files, (dispatch files handle start encoder input).run e = (.ok outcome, e') := by
  have hfiles := fun files => dispatch_files hs files {} handle start encoder input
  have hu : Unmoved e ((dispatch {} handle start encoder input).run e).2 :=
    dispatch_unmoved hs handle start encoder input
  have ha : answer {} handle start encoder input e = _ := answer_encoding hs hp hencoder
  unfold answer matchInput at ha
  rw [run_bind_ok (govern_run hs)] at ha
  rcases hr : (dispatch {} handle start encoder input).run e with ⟨_ | outcome, e'⟩
  · rw [hr] at ha
    cases ha
  · rw [hr] at ha hu
    exact ⟨outcome, e', hu, congrArg Answer.data (Option.some.inj ha),
      fun files => (hfiles files).trans hr⟩

theorem matchInput_eq (hs : Shipped e) (files : FileSystem) (handle : Handle) (start : Int)
    (encoder input : Bytes) :
    (matchInput files handle start encoder input).run e =
      (dispatch files handle start encoder input).run e := by
  unfold matchInput
  rw [run_bind_ok (govern_run hs)]

theorem matchRecord_run (hs : Shipped e) (files : FileSystem) (number : Nat) {record : Bytes}
    {outcome : Outcome} {e' : StandardEngine}
    (hr : (dispatch files r.pattern 1 r.encoder record).run e = (.ok outcome, e')) :
    (matchRecord files r number record).run e = (.ok (e'.data outcome.data), e') := by
  unfold matchRecord
  split
  · rw [run_bind_ok (govern_run hs), run_bind_ok hr]
    rfl
  · rw [run_bind_ok hr]
    rfl

/-! ## All records -/

/-- The records of a file are matched as they are matched one after the other, and each of them is
counted on one side. -/
theorem matchRecords_each (files : FileSystem) (hencoder : r.encoder ∈ encoderNames)
    (records : List Bytes) : ∀ {e : StandardEngine} (tally : Tally), Shipped e →
    e.patterns.get? r.pattern = some (StandardModule.patternObject pattern) →
    ∃ (t : Tally) (e' : StandardEngine), Unmoved e e' ∧
      matchRecords files r tally records e = ((.ok (), t), e') ∧
      (∀ files', (matchEach files' r.pattern r.encoder records tally.streams).run e =
        (.ok t.streams, e')) ∧
      t.records = tally.records + records.length ∧
      t.results + t.misses = tally.results + tally.misses + records.length := by
  induction records with
  | nil =>
    intro e tally hs hp
    exact ⟨tally, e, .refl e, rfl, fun _ => rfl, rfl, rfl⟩
  | cons record records ih =>
    intro e tally hs hp
    obtain ⟨outcome, e₁, hu, -, hdispatch⟩ := dispatch_known hs hp hencoder 1 record
    have hrecord := matchRecords_cons
      (matchRecord_run hs files (tally.records + 1) (hdispatch files)) records
    have heach : ∀ files' streams,
        (matchEach files' r.pattern r.encoder (record :: records) streams).run e =
          (matchEach files' r.pattern r.encoder records
            (streams.add record (e₁.data outcome.data))).run e₁ := by
      intro files' streams
      have hmatch := (matchInput_eq hs files' r.pattern 1 r.encoder record).trans (hdispatch files')
      rw [matchEach, run_bind_ok hmatch, run_bind_ok (run_get e₁)]
    obtain ⟨t, e', hu', hrun, hstreams, hcount, hsum⟩ :=
      ih (tally.add record (e₁.data outcome.data)) (hu.shipped hs) (hu.get? hp)
    rw [Tally.streams_add] at hstreams
    rw [Tally.records_add] at hcount
    rw [Tally.counts_add] at hsum
    refine ⟨t, e', hu.trans hu', hrecord.trans hrun,
      fun files' => (heach files' _).trans (hstreams files'), ?_, ?_⟩
    · rw [hcount, List.length_cons]
      omega
    · rw [hsum, List.length_cons]
      omega

/-- What is written for records is what each of them comes to by itself. -/
theorem matchEach_data (files : FileSystem) {encoder : Bytes} (hencoder : encoder ∈ encoderNames)
    (records : List Bytes) : ∀ {e : StandardEngine} (streams : Streams), Shipped e →
    e.patterns.get? handle = some (StandardModule.patternObject pattern) →
    ∃ e' : StandardEngine, (matchEach files handle encoder records streams).run e =
      (.ok (records.foldl (fun s record => s.add record (answerOf pattern.matcher record 1
        (encoding pattern.matcher record encoder)).data) streams), e') := by
  induction records with
  | nil =>
    intro e streams _ _
    exact ⟨e, rfl⟩
  | cons record records ih =>
    intro e streams hs hp
    obtain ⟨outcome, e₁, hu, hdata, hdispatch⟩ := dispatch_known hs hp hencoder 1 record
    have hmatch := (matchInput_eq hs files handle 1 encoder record).trans (hdispatch files)
    obtain ⟨e', hrun⟩ := ih (streams.add record (e₁.data outcome.data)) (hu.shipped hs) (hu.get? hp)
    refine ⟨e', ?_⟩
    rw [matchEach, run_bind_ok hmatch, run_bind_ok (run_get e₁), List.foldl_cons, ← hdata]
    exact hrun

/-! ## The files -/

/-- The three files of a request can be opened, and are different ones. -/
structure Opens (files : FileSystem) (r : FileRequest) (input : Bytes) (output errors : Place) :
    Prop where
  reads : files.read r.input = .ok input
  outputs : ∃ files', files.create r.output = .ok (output, files')
  misses : ∃ files', files.create r.errors = .ok (errors, files')
  output_ne : files.place r.input ≠ .ok output
  errors_ne : files.place r.input ≠ .ok errors
  different : output ≠ errors

/-- One after the other the files are opened, and the input can still be read. -/
theorem Opens.opened {world : World} {input : Bytes} {output errors : Place}
    (h : Opens world.files r input output errors) :
    let opened := (world.files.put output []).put errors []
    inputError? world.files r.input = none ∧
      openTarget world.files r.output = .ok (some output, world.files.put output []) ∧
      openTarget (world.files.put output []) r.errors = .ok (some errors, opened) ∧
      readInput { world with files := opened } r.input = .ok input := by
  intro opened
  obtain ⟨files₁, hout⟩ := h.outputs
  obtain ⟨files₂, hmisses⟩ := h.misses
  obtain ⟨-, hplaceOut, hfreeOut, rfl⟩ := FileSystem.create_eq_ok.1 hout
  obtain ⟨-, hplaceErr, hfreeErr, -⟩ := FileSystem.create_eq_ok.1 hmisses
  obtain ⟨place, hplace, hentry⟩ := FileSystem.read_iff.1 h.reads
  have herr : (world.files.put output []).create r.errors = .ok (errors, opened) :=
    FileSystem.create_put hfreeOut hmisses
  have hread : opened.read r.input = .ok input := by
    refine FileSystem.read_put (hfreeOut.put hfreeErr) ?_
      (FileSystem.read_put hfreeOut h.output_ne h.reads)
    rw [FileSystem.place_put hfreeOut hplace, ← hplace]
    exact h.errors_ne
  have hinput : r.input.isEmpty = false := FileSystem.isEmpty_of_place hplace
  refine ⟨?_, ?_, ?_, ?_⟩
  · simp [inputError?, hinput, FileSystem.find, hplace, hentry, bind, Except.bind, pure,
      Except.pure]
  · simp [openTarget, FileSystem.isEmpty_of_place hplaceOut, hout, Except.map]
  · simp [openTarget, FileSystem.isEmpty_of_place hplaceErr, herr, Except.map, opened]
  · simp [readInput, hinput, hread]

/-- With the files open, the records are matched and the two files are filled. -/
theorem processFile_run {world : World} {input : Bytes} {output errors : Place}
    (hopens : Opens world.files r input output errors) (hs : Shipped e)
    (hp : e.patterns.get? r.pattern = some (StandardModule.patternObject pattern))
    (hencoder : r.encoder ∈ encoderNames) :
    ∃ (streams : Streams) (e' : StandardEngine),
      (∀ files, (matchEach files r.pattern r.encoder (recordsOf r.wholeFile input) {}).run e =
        (.ok streams, e')) ∧
      streams.results + streams.misses = (recordsOf r.wholeFile input).length ∧
      processFile r world e = ((.ok (.counts (recordsOf r.wholeFile input).length streams.results
        streams.misses), { world with
          files := (((world.files.put output []).put errors []).put output
            streams.output).put errors streams.errors }), e') := by
  obtain ⟨hfind, hout, herr, hread⟩ := hopens.opened
  obtain ⟨place, hplace, -⟩ := FileSystem.read_iff.1 hopens.reads
  have hinput : r.input.isEmpty = false := FileSystem.isEmpty_of_place hplace
  obtain ⟨t, e', -, hrecords, heach, hcount, hsum⟩ :=
    matchRecords_each ((world.files.put output []).put errors []) hencoder
      (recordsOf r.wholeFile input) {} hs hp
  have htotal : t.records = (recordsOf r.wholeFile input).length := by
    simpa using hcount
  have hsplit : t.streams.results + t.streams.misses = (recordsOf r.wholeFile input).length := by
    simpa [Tally.streams] using hsum
  refine ⟨t.streams, e', heach, hsplit, ?_⟩
  have htargets : ¬(some output = some errors) := by
    simpa using hopens.different
  unfold processFile
  rw [hfind]
  dsimp only
  rw [hout]
  dsimp only
  rw [herr]
  dsimp only
  rw [hread]
  dsimp only
  unfold matchInputFile
  dsimp only
  rw [hrecords]
  dsimp only
  simp [hinput, deliver, htargets, htotal, Tally.streams]

/-- No file is touched for a pattern or an encoder that there is not. -/
theorem matchFile_refused (hs : Shipped e) (r : FileRequest) (world : World) :
    (e.patterns.get? r.pattern = none →
      matchFile e r world = ((.ok .noSuchPattern, world), e)) ∧
    ((e.patterns.get? r.pattern).isSome = true → r.encoder ∉ encoderNames →
      matchFile e r world = ((.ok .invalidEncoder, world), e)) := by
  constructor
  · intro hnone
    exact matchFile_none hs hnone rfl world
  · intro hlive hunknown
    have hresolve : Encoder.resolve r.encoder = .extension r.encoder := by
      simp only [Encoder.resolve, ofName?_unknown hunknown]
    obtain ⟨v, hv⟩ := Option.isSome_iff_exists.1 hlive
    unfold matchFile
    rw [govern_run hs]
    simp [hv, hresolve, hasExtension_unknown hs hunknown]

theorem matchFile_known (hs : Shipped e) {r : FileRequest}
    (hlive : (e.patterns.get? r.pattern).isSome = true) (hencoder : r.encoder ∈ encoderNames)
    (world : World) : matchFile e r world = processFile r world e := by
  obtain ⟨v, hv⟩ := Option.isSome_iff_exists.1 hlive
  unfold matchFile
  rw [govern_run hs]
  dsimp only
  rw [hv]
  unfold Encoder.resolve
  cases hname : BuiltinEncoder.ofName? r.encoder with
  | some encoder => rfl
  | none => simp [hasExtension_known hs hencoder hname]

/-- With the standard module, a match of a file comes to single matches of its records, one after
the other and each of them from the start. What they return goes to one file and the records for
which they return nothing to the other, a newline after each, and nothing else is touched. Without
the pattern or the encoder no file is. -/
theorem matchFile_matches_each {gauge : StandardModule.Gauge} {installation : FileSystem}
    {settings : Settings} {standardHome : Bytes} {options : Options}
    (hmade : create (shippedModule gauge) installation settings standardHome options = .ok e₀)
    (hrun : Steps Call.Any e₀ e) (r : FileRequest) (world : World) :
    ((e.patterns.get? r.pattern).isSome = true → r.encoder ∈ encoderNames →
      ∀ {input : Bytes} {output errors : Place}, Opens world.files r input output errors →
      ∃ (records : List Bytes) (streams : Streams) (e' : StandardEngine) (filled : FileSystem),
        Cut r.wholeFile input records ∧
        (∀ files, (matchEach files r.pattern r.encoder records {}).run e = (.ok streams, e')) ∧
        matchFile e r world =
          ((.ok (.counts records.length streams.results streams.misses),
            { world with files := filled }), e') ∧
        records.length = streams.results + streams.misses ∧
        filled.read r.output = .ok streams.output ∧
        filled.read r.errors = .ok streams.errors ∧
        (∀ place, place ≠ output → place ≠ errors →
          filled.entry? place = world.files.entry? place) ∧
        ∀ before record after files, records = before ++ record :: after →
          ∃ (streams' : Streams) (between : StandardEngine) (a : Answer),
            (matchEach files r.pattern r.encoder before {}).run e = (.ok streams', between) ∧
            answer files r.pattern 1 r.encoder record between = some a ∧
            (a.status = .matched ∨ a.status = .noMatch)) ∧
    ((e.patterns.get? r.pattern).isSome = false →
      matchFile e r world = ((.ok .noSuchPattern, world), e)) ∧
    ((e.patterns.get? r.pattern).isSome = true → r.encoder ∉ encoderNames →
      matchFile e r world = ((.ok .invalidEncoder, world), e)) := by
  have hfresh := (fresh_of_create hmade).1
  have hs : Shipped e := shipped_of_steps hfresh.shipped hrun
  obtain ⟨hnone, hunknown⟩ := matchFile_refused hs r world
  refine ⟨?_, fun h => hnone (Option.isNone_iff_eq_none.1 (by simpa using h)), hunknown⟩
  intro hlive hencoder input output errors hopens
  obtain ⟨v, hv⟩ := Option.isSome_iff_exists.1 hlive
  obtain ⟨pattern, rfl⟩ := pattern_of_get? (patterned_of_steps hfresh hrun) hv
  obtain ⟨streams, e', heach, hsum, hprocess⟩ := processFile_run hopens hs hv hencoder
  obtain ⟨files₁, hout⟩ := hopens.outputs
  obtain ⟨files₂, herr⟩ := hopens.misses
  obtain ⟨-, hplaceOut, hfreeOut, -⟩ := FileSystem.create_eq_ok.1 hout
  obtain ⟨-, hplaceErr, hfreeErr, -⟩ := FileSystem.create_eq_ok.1 herr
  obtain ⟨hplaces, hentries⟩ := FileSystem.fill_two (a := streams.output) (b := streams.errors)
    hfreeOut hfreeErr
  refine ⟨_, streams, e', _, cut_recordsOf r.wholeFile input, heach,
    (matchFile_known hs hlive hencoder world).trans hprocess, hsum.symm, ?_, ?_, ?_, ?_⟩
  · refine FileSystem.read_iff.2 ⟨output, hplaces _ _ hplaceOut, ?_⟩
    rw [hentries, if_neg hopens.different, if_pos rfl]
  · refine FileSystem.read_iff.2 ⟨errors, hplaces _ _ hplaceErr, ?_⟩
    rw [hentries, if_pos rfl]
  · intro place hneOut hneErr
    rw [hentries, if_neg hneErr, if_neg hneOut]
  · intro before record after files _
    obtain ⟨t, between, hu, -, hbefore, -⟩ :=
      matchRecords_each {} hencoder before {} hs hv
    have hp : between.patterns.get? r.pattern =
        some (StandardModule.patternObject pattern) := by
      rw [hu.patterns]
      exact hv
    refine ⟨_, between, _, hbefore files, answer_encoding (hu.shipped hs) hp hencoder, ?_⟩
    unfold answerOf
    split <;> simp

/-- The lines of a package file, with the results and the rest next to each other. -/
theorem matchFile_matches_each_sample : ∃ e : StandardEngine,
    let r : FileRequest := {
      pattern := ⟨1⟩
      encoder := text "subs"
      input := text "/r/rpl/a.rpl"
      output := text "/r/out"
      errors := text "/r/err" }
    let contents := text "package a\nx = y\n"
    (e.patterns.get? r.pattern).isSome = true ∧ r.encoder ∈ encoderNames ∧
    Opens sample r contents [text "r", text "out"] [text "r", text "err"] ∧
    ∃ records results misses world' e', Cut false contents records ∧
      matchFile e r ⟨sample, [], [], []⟩ =
        ((.ok (.counts records.length results misses), world'), e') := by
  obtain ⟨e₀, hmade, hlive⟩ : ∃ e₀ : StandardEngine,
      create standardModule sample {} (text "r") {} = .ok e₀ ∧
      ((Call.after ⟨sample, [], [], []⟩ e₀ (.compile (text "(?<x>a)"))).patterns.get?
        ⟨1⟩).isSome = true := ⟨_, rfl, rfl⟩
  have hstep : Steps Call.Any e₀
      (Call.after ⟨sample, [], [], []⟩ e₀ (.compile (text "(?<x>a)"))) :=
    .single ⟨_, _, trivial, rfl⟩
  have hopens : Opens sample ⟨⟨1⟩, text "subs", text "/r/rpl/a.rpl", text "/r/out",
      text "/r/err", false⟩ (text "package a\nx = y\n") [text "r", text "out"]
      [text "r", text "err"] :=
    ⟨rfl, ⟨_, rfl⟩, ⟨_, rfl⟩, by decide, by decide, by decide⟩
  have hknown : text "subs" ∈ encoderNames := by decide
  obtain ⟨records, streams, e', files', hcut, -, hmatch, -⟩ :=
    (matchFile_matches_each hmade hstep _ ⟨sample, [], [], []⟩).1 hlive hknown hopens
  exact ⟨_, hlive, hknown, hopens, records, _, _, _, e', hcut, hmatch⟩

end Standard

end PatternEngine
