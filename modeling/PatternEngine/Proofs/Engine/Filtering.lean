import PatternEngine.Proofs.Engine.FileMatches
/-!
# Matching a file divides it

Lines are found again when they are read as records (`recordsOf_asLines`). A match with a file
therefore divides its records in two: one and the same pattern matches a record or does not,
wherever it stands and whatever the encoder (`matchFile_divides`). What either half was written
to can be matched again, and then it all falls on the side that it came from (`filter_stable`).
-/
namespace PatternEngine

namespace Engine

/-! ## Records are lines -/

theorem newline_not_mem_record {input record : Bytes} (h : record ∈ recordsOf false input) :
    Bytes.newline ∉ record := by
  obtain ⟨lines, rest, hrecords, -, hlines, hrest⟩ := cut_recordsOf false input
  rw [hrecords] at h
  rcases List.mem_append.1 h with hline | hlast
  · exact hlines record hline
  · split at hlast
    · cases hlast
    · rw [List.mem_singleton.1 hlast]
      exact hrest

/-- What is written as lines is read as the same records. -/
theorem recordsOf_asLines {records : List Bytes} (h : ∀ record ∈ records, Bytes.newline ∉ record) :
    recordsOf false (Bytes.asLines records) = records := by
  unfold recordsOf
  cases records with
  | nil => rfl
  | cons record records =>
    have hinput : (Bytes.asLines (record :: records)).isEmpty = false := by
      simp [Bytes.asLines]
    have hlast : (record :: records ++ [[]]).getLast? = some [] := List.getLast?_concat
    rw [hinput, Bytes.splitOn_asLines h]
    simp only [Bool.false_eq_true, if_false, hlast, beq_self_eq_true, if_true,
      List.dropLast_concat]

/-! ## Which records match -/

/-- Whether a matcher matches a record from its first byte on. -/
def selects (m : Matcher) (record : Bytes) : Bool :=
  match Primitive.matchAt m record 1 with
  | some (_, some _) => true
  | _ => false

section
variable (m : Matcher) (record : Bytes) (encode : Match → Bytes)

theorem status_answerOf :
    (answerOf m record 1 encode).status = if selects m record then .matched else .noMatch := by
  unfold answerOf selects
  rcases Primitive.matchAt m record 1 with _ | ⟨index, _ | found⟩ <;> rfl

theorem isSome_answerOf : (answerOf m record 1 encode).data.isSome = selects m record := by
  unfold answerOf selects
  rcases Primitive.matchAt m record 1 with _ | ⟨index, _ | found⟩ <;> rfl

/-- An encoder that repeats its input makes the record of a match. -/
theorem data_answerOf_line :
    (answerOf m record 1 fun _ => record).data =
      if selects m record then some record else none := by
  unfold answerOf selects
  rcases Primitive.matchAt m record 1 with _ | ⟨index, _ | found⟩ <;> rfl

end

end Engine

namespace Standard

open PatternEngine.Action PatternEngine.Engine

variable {gauge : StandardModule.Gauge} {installation : FileSystem} {settings : Settings}
  {standardHome : Bytes} {options : Options} {e₀ e : StandardEngine} {handle : Handle}
  {pattern : Environment.Pattern} {r : FileRequest} {world : World} {input : Bytes}
  {output errors : Place}

/-- Both files can be read when they have been filled. -/
theorem read_filled (hopens : Opens world.files r input output errors) (a b : Bytes) :
    let filled := (((world.files.put output []).put errors []).put output a).put errors b
    filled.read r.output = .ok a ∧ filled.read r.errors = .ok b := by
  intro filled
  obtain ⟨files₁, hout⟩ := hopens.outputs
  obtain ⟨files₂, herr⟩ := hopens.misses
  obtain ⟨-, hplaceOut, hfreeOut, -⟩ := FileSystem.create_eq_ok.1 hout
  obtain ⟨-, hplaceErr, hfreeErr, -⟩ := FileSystem.create_eq_ok.1 herr
  obtain ⟨hplaces, hentries⟩ := FileSystem.fill_two (a := a) (b := b) hfreeOut hfreeErr
  constructor
  · refine FileSystem.read_iff.2 ⟨output, hplaces _ _ hplaceOut, ?_⟩
    rw [hentries, if_neg hopens.different, if_pos rfl]
  · refine FileSystem.read_iff.2 ⟨errors, hplaces _ _ hplaceErr, ?_⟩
    rw [hentries, if_pos rfl]

/-- The records that match are counted and told to the output, the others are counted and written
to the errors, both in order. -/
theorem matchFile_divides (hopens : Opens world.files r input output errors) (hs : Shipped e)
    (hp : e.patterns.get? r.pattern = some (StandardModule.patternObject pattern))
    (hencoder : r.encoder ∈ encoderNames) (hlines : r.wholeFile = false) :
    let records := recordsOf false input
    let hits := records.filter (selects pattern.matcher)
    let misses := records.filter (!selects pattern.matcher ·)
    ∃ (told : List Bytes) (filled : FileSystem) (e' : StandardEngine),
      matchFile e r world = ((.ok (.counts records.length hits.length misses.length),
        { world with files := filled }), e') ∧
      filled.read r.output = .ok (Bytes.asLines told) ∧
      filled.read r.errors = .ok (Bytes.asLines misses) ∧
      told.length = hits.length ∧ (r.encoder = text "line" → told = hits) := by
  intro records hits misses
  let data := fun record => (answerOf pattern.matcher record 1
    (encoding pattern.matcher record r.encoder)).data
  have hsome : ∀ record, (data record).isSome = selects pattern.matcher record :=
    fun record => isSome_answerOf pattern.matcher record _
  have hmissed : (records.filter fun record => (data record).isNone) = misses := by
    refine List.filter_congr ?_
    intro record _
    rw [← hsome, Option.not_isSome]
  have hlength : (records.filterMap data).length = hits.length := by
    rw [List.length_filterMap_eq_countP, ← List.countP_eq_length_filter]
    simp only [hsome]
  have hline : r.encoder = text "line" → records.filterMap data = hits := by
    intro hencoder
    have hdata : data = Option.guard (selects pattern.matcher) := by
      funext record
      simp only [data, hencoder]
      exact (data_answerOf_line pattern.matcher record).trans (by simp [Option.guard])
    rw [hdata, List.filterMap_eq_filter]
  obtain ⟨streams, e', heach, -, hprocess⟩ := processFile_run hopens hs hp hencoder
  obtain ⟨e'', hdata⟩ := matchEach_data {} hencoder (recordsOf r.wholeFile input) {} hs hp
  rw [Streams.add_all, hlines] at hdata
  rw [hlines] at heach hprocess
  cases (heach {}).symm.trans hdata
  obtain ⟨hread, hreadErrors⟩ := read_filled hopens
    (Bytes.asLines (records.filterMap data)) (Bytes.asLines misses)
  refine ⟨records.filterMap data, _, e', ?_, hread, hreadErrors, hlength, hline⟩
  rw [matchFile_known hs (by rw [hp]; rfl) hencoder, hprocess, ← hmissed, ← hlength]
  simp only [Nat.zero_add, List.nil_append]
  rfl

/-- Records that are kept are the records of their lines. -/
theorem recordsOf_filter (input : Bytes) (keep : Bytes → Bool) :
    recordsOf false (Bytes.asLines ((recordsOf false input).filter keep)) =
      (recordsOf false input).filter keep := by
  refine recordsOf_asLines ?_
  intro record hrecord
  exact newline_not_mem_record (List.mem_filter.1 hrecord).1

/-- None of the lines without a match matches when they are matched again. -/
theorem matchFile_misses {before : Bytes}
    (hopens : Opens world.files r
      (Bytes.asLines ((recordsOf false before).filter (!selects pattern.matcher ·))) output errors)
    (hs : Shipped e)
    (hp : e.patterns.get? r.pattern = some (StandardModule.patternObject pattern))
    (hencoder : r.encoder ∈ encoderNames) (hlines : r.wholeFile = false) :
    let misses := (recordsOf false before).filter (!selects pattern.matcher ·)
    ∃ (filled : FileSystem) (e' : StandardEngine),
      matchFile e r world =
        ((.ok (.counts misses.length 0 misses.length), { world with files := filled }), e') ∧
      filled.read r.output = .ok [] ∧ filled.read r.errors = .ok (Bytes.asLines misses) := by
  intro misses
  have hmatched : misses.filter (selects pattern.matcher) = [] := by simp [misses]
  have hmissed : misses.filter (!selects pattern.matcher ·) = misses := by simp [misses]
  obtain ⟨told, filled, e', hmatch, hread, hreadErrors, hcount, -⟩ :=
    matchFile_divides hopens hs hp hencoder hlines
  rw [recordsOf_filter, hmatched] at hcount
  rw [recordsOf_filter, hmatched, hmissed] at hmatch
  rw [recordsOf_filter, hmissed] at hreadErrors
  rw [List.eq_nil_of_length_eq_zero hcount] at hread
  exact ⟨filled, e', hmatch, hread, hreadErrors⟩

/-- All of the lines with a match match when they are matched again. -/
theorem matchFile_hits {before : Bytes}
    (hopens : Opens world.files r
      (Bytes.asLines ((recordsOf false before).filter (selects pattern.matcher))) output errors)
    (hs : Shipped e)
    (hp : e.patterns.get? r.pattern = some (StandardModule.patternObject pattern))
    (hencoder : r.encoder ∈ encoderNames) (hlines : r.wholeFile = false)
    (hline : r.encoder = text "line") :
    let hits := (recordsOf false before).filter (selects pattern.matcher)
    ∃ (filled : FileSystem) (e' : StandardEngine),
      matchFile e r world =
        ((.ok (.counts hits.length hits.length 0), { world with files := filled }), e') ∧
      filled.read r.output = .ok (Bytes.asLines hits) ∧ filled.read r.errors = .ok [] := by
  intro hits
  have hmatched : hits.filter (selects pattern.matcher) = hits := by simp [hits]
  have hmissed : hits.filter (!selects pattern.matcher ·) = [] := by simp [hits]
  obtain ⟨told, filled, e', hmatch, hread, hreadErrors, -, htold⟩ :=
    matchFile_divides hopens hs hp hencoder hlines
  rw [recordsOf_filter, hmatched, hmissed] at hmatch
  rw [htold hline, recordsOf_filter, hmatched] at hread
  rw [recordsOf_filter, hmissed] at hreadErrors
  exact ⟨filled, e', hmatch, hread, hreadErrors⟩

/-- A match with a file divides its records in two, and the pattern alone decides which of them go
where. The records on either side, in order, are the lines of a file. The one without a match gives
itself when it is matched again, and so does the other if the encoder writes the records. -/
theorem filter_stable
    (hmade : create (shippedModule gauge) installation settings standardHome options = .ok e₀)
    (calls : List (Call × World)) (handle : Handle) (huse : InUse e₀ calls handle) :
    ∃ matching : Bytes → Bool,
      (∀ files encoder record, encoder ∈ encoderNames → ∃ a : Answer,
        answer files handle 1 encoder record (e₀.afterAll calls) = some a ∧
        a.status = if matching record then .matched else .noMatch) ∧
      ∀ (r : FileRequest) (world : World) {input : Bytes} {output errors : Place},
        r.pattern = handle → r.encoder ∈ encoderNames → r.wholeFile = false →
        Opens world.files r input output errors →
        ∃ (records : List Bytes) (filled : FileSystem) (e₁ : StandardEngine),
          let hits := records.filter matching
          let misses := records.filter (!matching ·)
          Cut false input records ∧
          matchFile (e₀.afterAll calls) r world =
            ((.ok (.counts records.length hits.length misses.length),
              { world with files := filled }), e₁) ∧
          filled.read r.errors = .ok (Bytes.asLines misses) ∧
          (r.encoder = text "line" → filled.read r.output = .ok (Bytes.asLines hits)) ∧
          ∀ (later : List (Call × World)), (∀ step ∈ later, step.1 ≠ .free handle) →
            ∀ (again : FileRequest) (world' : World) {output' errors' : Place},
              again.pattern = handle → again.encoder ∈ encoderNames → again.wholeFile = false →
              let e' := e₀.afterAll (calls ++ (.matchFile r, world) :: later)
              (Opens world'.files again (Bytes.asLines misses) output' errors' →
                ∃ filled' e₂, matchFile e' again world' =
                  ((.ok (.counts misses.length 0 misses.length),
                    { world' with files := filled' }), e₂) ∧
                  filled'.read again.output = .ok [] ∧
                  filled'.read again.errors = .ok (Bytes.asLines misses)) ∧
              (again.encoder = text "line" →
                Opens world'.files again (Bytes.asLines hits) output' errors' →
                ∃ filled' e₂, matchFile e' again world' =
                  ((.ok (.counts hits.length hits.length 0),
                    { world' with files := filled' }), e₂) ∧
                  filled'.read again.output = .ok (Bytes.asLines hits) ∧
                  filled'.read again.errors = .ok []) := by
  have hfresh := (fresh_of_create hmade).1
  have hshipped : ∀ calls, Shipped (e₀.afterAll calls) := fun calls =>
    shipped_of_steps hfresh.shipped (e₀.steps_afterAll calls)
  have ht := exact_of_steps hfresh (e₀.steps_afterAll calls)
  obtain ⟨v, hv⟩ := (inUse_iff hfresh calls).1 huse
  obtain ⟨pattern, rfl⟩ :=
    pattern_of_get? (patterned_of_steps hfresh (e₀.steps_afterAll calls)) hv
  refine ⟨selects pattern.matcher, ?_, ?_⟩
  · intro files encoder record hencoder
    exact ⟨_, answer_encoding (hshipped calls) hv hencoder, status_answerOf _ _ _⟩
  · rintro r world input output errors rfl hencoder hlines hopens
    obtain ⟨told, filled, e₁, hmatch, hread, hreadErrors, -, hline⟩ :=
      matchFile_divides hopens (hshipped calls) hv hencoder hlines
    refine ⟨recordsOf false input, filled, e₁, cut_recordsOf false input, hmatch, hreadErrors,
      fun hencoder => hline hencoder ▸ hread, ?_⟩
    intro later hlater again world' output' errors' hpattern hencoder' hlines' e'
    have hkeeps : ∀ step ∈ (Call.matchFile r, world) :: later, step.1 ≠ .free r.pattern := by
      intro step hstep
      rcases List.mem_cons.1 hstep with rfl | hstep
      · simp
      · exact hlater step hstep
    have hv' : e'.patterns.get? again.pattern =
        some (StandardModule.patternObject pattern) := by
      have hkept := afterAll_get? (hshipped calls) ht hkeeps hv
      rw [← afterAll_append] at hkept
      rw [hpattern]
      exact hkept
    exact ⟨fun hopens' => matchFile_misses hopens' (hshipped _) hv' hencoder' hlines',
      fun hline' hopens' => matchFile_hits hopens' (hshipped _) hv' hencoder' hlines' hline'⟩

/-- The lines of a package file are divided, and those without a match are matched again. -/
theorem filter_stable_sample :
    let world : World := ⟨sample, [], [], []⟩
    let calls : List (Call × World) := [(.compile (text "package"), world)]
    let r : FileRequest := {
      pattern := ⟨1⟩
      encoder := text "line"
      input := text "/r/rpl/a.rpl"
      output := text "/r/out"
      errors := text "/r/err" }
    let again : FileRequest := {
      pattern := ⟨1⟩
      encoder := text "json"
      input := text "/r/err"
      output := text "/r/none"
      errors := text "/r/same" }
    ∃ e₀ : StandardEngine,
    create standardModule sample {} (text "r") {} = .ok e₀ ∧ InUse e₀ calls ⟨1⟩ ∧
    Opens sample r (text "package a\nx = y\n") [text "r", text "out"] [text "r", text "err"] ∧
    ∃ misses : List Bytes,
      let world' : World := ⟨sample.put [text "r", text "err"] (Bytes.asLines misses), [], [], []⟩
      Opens world'.files again (Bytes.asLines misses) [text "r", text "none"]
        [text "r", text "same"] ∧
      ∃ filled e₂,
        matchFile (e₀.afterAll (calls ++ [(.matchFile r, world)])) again world' =
          ((.ok (.counts misses.length 0 misses.length), { world' with files := filled }), e₂) ∧
        filled.read again.errors = .ok (Bytes.asLines misses) := by
  intro world calls r again
  obtain ⟨e₀, hmade, messages, e, hcompiled⟩ : ∃ e₀ : StandardEngine,
      create standardModule sample {} (text "r") {} = .ok e₀ ∧ ∃ messages e,
      (compile sample (text "package")).run e₀ = (.ok ⟨⟨1⟩, messages⟩, e) := ⟨_, rfl, _, _, rfl⟩
  have huse : InUse e₀ calls ⟨1⟩ := ⟨[], _, _, [], messages, e, rfl, hcompiled, rfl, by simp⟩
  have hopens : Opens sample r (text "package a\nx = y\n") [text "r", text "out"]
      [text "r", text "err"] :=
    ⟨rfl, ⟨_, rfl⟩, ⟨_, rfl⟩, by decide, by decide, by decide⟩
  have hagain : ∀ bytes, Opens (sample.put [text "r", text "err"] bytes) again bytes
      [text "r", text "none"] [text "r", text "same"] := by
    intro bytes
    have hplace : (sample.put [text "r", text "err"] bytes).place again.input =
        .ok [text "r", text "err"] := rfl
    exact ⟨rfl, ⟨_, rfl⟩, ⟨_, rfl⟩, by rw [hplace]; decide, by rw [hplace]; decide, by decide⟩
  obtain ⟨matching, -, hdivides⟩ := filter_stable hmade calls ⟨1⟩ huse
  obtain ⟨records, -, -, -, -, -, -, hsecond⟩ :=
    hdivides r world rfl (by decide : text "line" ∈ encoderNames) rfl hopens
  obtain ⟨hmisses, -⟩ := hsecond [] (by simp) again
    ⟨sample.put [text "r", text "err"] (Bytes.asLines (records.filter (!matching ·))), [], [], []⟩
    rfl (by decide : text "json" ∈ encoderNames) rfl
  obtain ⟨filled, e₂, hmatch, -, hread⟩ := hmisses (hagain _)
  exact ⟨e₀, hmade, huse, hopens, _, hagain _, filled, e₂, hmatch, hread⟩

end Standard

end PatternEngine
