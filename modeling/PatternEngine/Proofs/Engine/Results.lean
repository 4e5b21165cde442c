import PatternEngine.Proofs.Engine.FileMatches
import PatternEngine.Proofs.Engine.Frames
/-!
# The results of matches

An engine keeps the text of the last match that went through the module. A match that goes through
the module gives it up and may leave another (`Attempt.run_slot`), and nothing else touches it. So
the text that is kept tells of the last such match in the history of the engine, and what a match
exposes is always its own (`scripted_result_lives`).
-/
namespace PatternEngine

open PatternEngine.Action

namespace Engine

variable {σ : Type}

/-! ## Attempts -/

/-- An input that is about to be matched, the memory in use having been checked. -/
structure Attempt (σ : Type) where
  engine : Engine σ
  files : FileSystem
  handle : Handle
  start : Int
  encoder : Bytes
  input : Bytes

namespace Attempt

/-- Matches the input. -/
def run (a : Attempt σ) : Except Fault Outcome × Engine σ :=
  (dispatch a.files a.handle a.start a.encoder a.input).run a.engine

/-- The pattern and the extension encoder with which the match goes through the module, if it does
so. -/
def scripted? (a : Attempt σ) : Option (Value × Bytes) :=
  match a.engine.patterns.get? a.handle, Encoder.resolve a.encoder with
  | some pattern, .extension name =>
    if a.engine.hasExtension name then some (pattern, name) else none
  | _, _ => none

/-- The values that the module returns for the match, if it is asked and raises no message. -/
def values? (a : Attempt σ) : Option (List Value) := do
  let (pattern, name) ← a.scripted?
  let entry ← a.engine.slots.methods.matchInput
  match (entry a.files [pattern, .lent a.input, .int a.start, .str name] a.engine.state).1 with
  | .returned values => some values
  | .raised _ => none

/-- The text that the match ends with, if it goes through the module and ends without a fault. -/
def text? (a : Attempt σ) : Option Bytes :=
  match a.run.1 with
  | .ok _ =>
    match a.values? with
    | some (.str bytes :: _) => some bytes
    | _ => none
  | .error _ => none

/-- The bytes that the match itself makes: those that a built-in encoder makes of it, or those in
the value that the module returns for it. -/
def encoded? (a : Attempt σ) : Option Bytes :=
  match a.engine.patterns.get? a.handle, Encoder.resolve a.encoder with
  | some pattern, .builtin encoder =>
    match pattern.field (text "peg") with
    | .matcher m => (Primitive.encodeMatch m a.input a.start encoder).data
    | _ => none
  | _, _ =>
    match a.values? with
    | some (.result bytes :: _) | some (.str bytes :: _) => some bytes
    | _ => none

/-- What the outcome of the match exposes is what the match itself makes, and that is something
exactly when it has matched. -/
structure Exposes (a : Attempt σ) (outcome : Outcome) (e' : Engine σ) : Prop where
  own : e'.data outcome.data = a.encoded?
  matched : outcome.data.status = .matched ↔ a.encoded?.isSome

/-- The text that is kept after the match, when `slot` was kept before. -/
def slotAfter (slot : Option Bytes) (a : Attempt σ) : Option Bytes :=
  if a.scripted?.isSome then a.text? else slot

end Attempt

/-! ## One attempt -/

section

variable {files : FileSystem} {e e' : Engine σ} {values : List Value} {outcome : Outcome}

theorem integer_eq_ok {what : String} {v : Value} {n : Int}
    (h : (integer what v).run e = (.ok n, e')) : e' = e := by
  unfold integer at h
  split at h <;> cases h
  rfl

theorem keepResult_ok {result : Value} {source : DataSource}
    (h : (keepResult result).run e = (.ok source, e')) :
    (∃ bytes, result = .result bytes ∧ source = .native ∧
      e' = { e with nativeResult := bytes }) ∨
    (result = .bool false ∧ source = .noMatch ∧ e' = e) ∨
    ∃ bytes, result = .str bytes ∧ source = .scripted ∧
      e' = { e with previousScripted := some bytes } := by
  unfold keepResult at h
  split at h
  · rename_i bytes
    cases h
    exact .inl ⟨bytes, rfl, rfl, rfl⟩
  · cases h
    exact .inr (.inl ⟨rfl, rfl, rfl⟩)
  · rename_i bytes
    cases h
    exact .inr (.inr ⟨bytes, rfl, rfl, rfl⟩)
  · cases h

/-- Values that pass all checks start with a result, and it is kept. -/
theorem decode_ok (h : (decode values).run e = (.ok outcome, e')) :
    ∃ result rest, values = result :: rest ∧
      (keepResult result).run e = (.ok outcome.data, e') := by
  unfold decode at h
  split at h
  · rename_i result leftover abend totalTime matchTime
    obtain ⟨n, e₁, hleftover, h⟩ := run_bind_eq_ok.1 h
    cases integer_eq_ok hleftover
    split at h
    · obtain ⟨total, e₂, htotal, h⟩ := run_bind_eq_ok.1 h
      cases integer_eq_ok htotal
      obtain ⟨time, e₃, htime, h⟩ := run_bind_eq_ok.1 h
      cases integer_eq_ok htime
      obtain ⟨source, e₄, hkeep, h⟩ := run_bind_eq_ok.1 h
      cases h
      exact ⟨result, _, rfl, hkeep⟩
    · cases h
  · cases h

end

namespace Attempt

variable {a : Attempt σ} {pattern : Value} {name : Bytes} {outcome : Outcome} {e e' : Engine σ}

theorem values?_none (h : a.scripted? = none) : a.values? = none := by
  unfold values?
  rw [h]
  rfl

/-- A match that does not go through the module keeps the text, whatever it ends in. What it
exposes has been made by a built-in encoder. -/
theorem run_direct (h : a.scripted? = none) :
    a.run.2.previousScripted = a.engine.previousScripted ∧
      ∀ outcome e', a.run = (.ok outcome, e') → e'.data outcome.data = a.encoded? ∧
        (outcome.data.status = .matched ↔ a.encoded?.isSome) := by
  have hvalues := values?_none h
  unfold run dispatch
  rw [run_bind_ok (run_get _)]
  unfold encoded?
  unfold scripted? at h
  rw [hvalues]
  cases hp : a.engine.patterns.get? a.handle with
  | none =>
    refine ⟨rfl, ?_⟩
    rintro outcome e' ⟨⟩
    simp [data, DataSource.status]
  | some pattern =>
    rw [hp] at h
    cases hr : Encoder.resolve a.encoder with
    | builtin encoder =>
      unfold nativeMatch
      dsimp only
      cases pattern.field (text "peg") with
      | matcher m =>
        refine ⟨rfl, ?_⟩
        rintro outcome e' ⟨⟩
        dsimp only
        cases (Primitive.encodeMatch m a.input a.start encoder).data <;>
          simp [data, DataSource.status]
      | _ =>
        refine ⟨rfl, ?_⟩
        rintro outcome e' ⟨⟩
    | extension name =>
      rw [hr] at h
      dsimp only at h ⊢
      split at h
      · cases h
      · rename_i hknown
        rw [if_neg hknown]
        refine ⟨rfl, ?_⟩
        rintro outcome e' ⟨⟩
        simp [data, DataSource.status]

/-- A match that goes through the module. -/
theorem run_scripted (h : a.scripted? = some (pattern, name)) :
    a.run = (scriptedMatch a.files pattern a.start name a.input).run a.engine := by
  unfold scripted? at h
  unfold run dispatch
  rw [run_bind_ok (run_get _)]
  split at h
  · rename_i hp hr
    rw [hp, hr]
    dsimp only
    split at h
    · rename_i hknown
      cases h
      rw [if_pos hknown]
    · cases h
  · cases h

/-- What a match that goes through the module makes is in what the module returns. -/
theorem encoded?_scripted (h : a.scripted?.isSome) : a.encoded? = match a.values? with
    | some (.result bytes :: _) | some (.str bytes :: _) => some bytes
    | _ => none := by
  unfold encoded?
  unfold scripted? at h
  split at h
  · rename_i hp hr
    rw [hp, hr]
  · cases h

/-- The module is called when the text has been given up, and it returns its values then. -/
theorem callMethod_values (h : a.scripted? = some (pattern, name)) :
    let called := (callMethod Methods.matchInput "match" a.files
      [pattern, .lent a.input, .int a.start, .str name]).run
        { a.engine with previousScripted := none }
    called.2.previousScripted = none ∧ called.1.toOption = a.values? := by
  intro called
  refine ⟨(quiet_callMethod _ _ _ _ _).previousScripted, ?_⟩
  unfold values?
  rw [h]
  show called.1.toOption = a.engine.slots.methods.matchInput.bind _
  cases hm : a.engine.slots.methods.matchInput with
  | none =>
    have hcalled : called.1 = .error (.missing (text "match")) := by
      unfold called callMethod
      rw [run_bind_ok (run_get _)]
      dsimp only
      rw [hm]
      rfl
    rw [hcalled]
    rfl
  | some entry =>
    dsimp only [Option.bind_some]
    unfold called callMethod
    rw [run_bind_ok (run_get _)]
    dsimp only
    rw [hm]
    dsimp only [call]
    rw [run_bind_ok (run_get _)]
    rcases entry a.files [pattern, .lent a.input, .int a.start, .str name] a.engine.state
      with ⟨values | message, state⟩ <;> rfl

theorem text?_error {fault : Fault} (h : a.run = (.error fault, e')) : a.text? = none := by
  unfold text?
  rw [h]

theorem text?_ok (h : a.run = (.ok outcome, e')) : a.text? = match a.values? with
    | some (.str bytes :: _) => some bytes
    | _ => none := by
  unfold text?
  rw [h]

/-- A match that goes through the module gives the text up, and keeps the one that it ends with. -/
theorem run_through (h : a.scripted?.isSome) :
    a.run.2.previousScripted = a.text? ∧
      ∀ outcome e', a.run = (.ok outcome, e') → e'.data outcome.data = a.encoded? ∧
        (outcome.data.status = .matched ↔ a.encoded?.isSome) := by
  obtain ⟨⟨pattern, name⟩, hscripted⟩ := Option.isSome_iff_exists.1 h
  obtain ⟨hcleared, hvalues⟩ := callMethod_values hscripted
  have hencoded := encoded?_scripted h
  have hrun := run_scripted hscripted
  unfold scriptedMatch at hrun
  rw [run_bind_ok (run_modify _ _), run_bind] at hrun
  -- from here on the text is given up, and only the last step of `decode` may keep another
  split at hrun <;> rename_i hcalled <;> rw [hcalled] at hcleared hvalues
  · rename_i values e₁
    have hvalues : a.values? = some values := hvalues.symm
    rw [hvalues] at hencoded
    rcases hdecode : (decode values).run e₁ with ⟨fault | outcome, e₂⟩ <;> rw [hdecode] at hrun
    · have hspared : Spared e₁ e₂ := atomic_decode values e₁ fault e₂ hdecode
      rw [text?_error hrun, hrun]
      refine ⟨hspared.previousScripted.trans hcleared, ?_⟩
      rintro outcome e' ⟨⟩
    · rw [text?_ok hrun, hvalues, hencoded, hrun]
      obtain ⟨result, rest, rfl, hkeep⟩ := decode_ok hdecode
      rcases keepResult_ok hkeep with ⟨bytes, rfl, hsource, rfl⟩ | ⟨rfl, hsource, rfl⟩ |
        ⟨bytes, rfl, hsource, rfl⟩
      · refine ⟨hcleared, ?_⟩
        rintro outcome e' ⟨⟩
        simp [hsource, data, DataSource.status]
      · refine ⟨hcleared, ?_⟩
        rintro outcome e' ⟨⟩
        simp [hsource, data, DataSource.status]
      · refine ⟨rfl, ?_⟩
        rintro outcome e' ⟨⟩
        simp [hsource, data, DataSource.status]
  · rw [text?_error hrun, hrun]
    refine ⟨hcleared, ?_⟩
    rintro outcome e' ⟨⟩

/-- The text after a match. -/
theorem run_slot (a : Attempt σ) :
    a.run.2.previousScripted = a.slotAfter a.engine.previousScripted := by
  unfold slotAfter
  split <;> rename_i h
  · exact (run_through h).1
  · exact (run_direct (by simpa using h)).1

/-- What a match exposes it has made itself, and it exposes something when there is a match. -/
theorem run_exposes (h : a.run = (.ok outcome, e')) : a.Exposes outcome e' := by
  cases hs : a.scripted? with
  | none =>
    obtain ⟨hown, hmatched⟩ := (run_direct hs).2 outcome e' h
    exact ⟨hown, hmatched⟩
  | some through =>
    obtain ⟨hown, hmatched⟩ := (run_through (by rw [hs]; rfl)).2 outcome e' h
    exact ⟨hown, hmatched⟩

end Attempt

/-! ## Rows of attempts -/

/-- Attempts that follow each other: each starts with the text that the one before has left, the
first with `slot`, and the last leaves `last`. -/
inductive Linked : Option Bytes → List (Attempt σ) → Option Bytes → Prop
  | nil (slot : Option Bytes) : Linked slot [] slot
  | cons {slot : Option Bytes} {a : Attempt σ} {attempts : List (Attempt σ)}
      {last : Option Bytes} (first : a.engine.previousScripted = slot)
      (rest : Linked a.run.2.previousScripted attempts last) : Linked slot (a :: attempts) last

section

variable {slot middle last : Option Bytes} {attempts later before after : List (Attempt σ)}
  {a : Attempt σ} {bytes : Bytes}

theorem Linked.append (h : Linked slot attempts middle) (hlater : Linked middle later last) :
    Linked slot (attempts ++ later) last := by
  induction h with
  | nil => exact hlater
  | cons first _ ih => exact .cons first (ih hlater)

theorem Linked.last_eq (h : Linked slot attempts last) :
    last = attempts.foldl Attempt.slotAfter slot := by
  induction h with
  | nil => rfl
  | cons first _ ih => rw [ih, List.foldl_cons, Attempt.run_slot, first]

/-- Attempts that do not go through the module keep what was there. -/
theorem Linked.last_of_direct (h : Linked slot attempts last)
    (hdirect : ∀ a ∈ attempts, a.scripted? = none) : last = slot := by
  induction h with
  | nil => rfl
  | cons first _ ih =>
    rw [List.forall_mem_cons] at hdirect
    rw [ih hdirect.2, (Attempt.run_direct hdirect.1).1, first]

/-- Each attempt starts with what those before it have left. -/
theorem Linked.entry (h : Linked slot (before ++ a :: after) last) :
    a.engine.previousScripted = before.foldl Attempt.slotAfter slot := by
  induction before generalizing slot with
  | nil =>
    cases h with
    | cons first _ => exact first
  | cons a before ih =>
    cases h with
    | cons first rest => rw [ih rest, List.foldl_cons, Attempt.run_slot, first]

/-- The last of the attempts that went through the module ended with a text. -/
def Left (attempts : List (Attempt σ)) (bytes : Bytes) : Prop :=
  ∃ before a after, attempts = before ++ a :: after ∧ a.scripted?.isSome ∧
    a.text? = some bytes ∧ ∀ later ∈ after, later.scripted? = none

theorem left_cons : Left (a :: attempts) bytes ↔ Left attempts bytes ∨
    a.scripted?.isSome ∧ a.text? = some bytes ∧ ∀ later ∈ attempts, later.scripted? = none := by
  constructor
  · rintro ⟨before, x, after, heq, hscripted, htext, hafter⟩
    cases before with
    | nil =>
      cases heq
      exact .inr ⟨hscripted, htext, hafter⟩
    | cons first before =>
      cases heq
      exact .inl ⟨before, x, after, rfl, hscripted, htext, hafter⟩
  · rintro (⟨before, x, after, rfl, h⟩ | h)
    · exact ⟨a :: before, x, after, rfl, h⟩
    · exact ⟨[], a, attempts, rfl, h⟩

/-- What is kept in the end: the text that the last one through the module ended with, or what was
kept before if there was none. -/
theorem foldl_slotAfter : attempts.foldl Attempt.slotAfter slot = some bytes ↔
    Left attempts bytes ∨ slot = some bytes ∧ ∀ a ∈ attempts, a.scripted? = none := by
  induction attempts generalizing slot with
  | nil =>
    constructor
    · exact fun h => .inr ⟨h, by simp⟩
    · rintro (⟨before, x, after, heq, -⟩ | ⟨h, -⟩)
      · simp at heq
      · exact h
  | cons a attempts ih =>
    rw [List.foldl_cons, ih, left_cons, List.forall_mem_cons, Attempt.slotAfter, or_assoc]
    refine or_congr_right ?_
    cases hs : a.scripted? <;> simp

end

/-! ## Files -/

/-- The check of the memory in use, which is due before some records only. -/
def recordCheck (files : FileSystem) (number : Nat) : Action σ Unit :=
  if number % governInterval = 0 then govern files else pure ()

theorem quiet_recordCheck (files : FileSystem) (number : Nat) :
    Quiet (recordCheck files number : Action σ _) := by
  unfold recordCheck
  split
  · exact quiet_govern
  · exact quiet_pure _

/-- The attempts at records, of which so many others came before. A fault ends them. -/
def recordAttempts (files : FileSystem) (r : FileRequest) :
    Nat → List Bytes → Engine σ → List (Attempt σ)
  | _, [], _ => []
  | earlier, record :: rest, e =>
    match (recordCheck files (earlier + 1)).run e with
    | (.error _, _) => []
    | (.ok (), e) =>
      let a : Attempt σ := ⟨e, files, r.pattern, 1, r.encoder, record⟩
      a :: match a.run with
        | (.ok _, e) => recordAttempts files r (earlier + 1) rest e
        | (.error _, _) => []

/-- What is written for a record: what the match makes of it, or else the record. -/
def Attempt.line (a : Attempt σ) : Stream × Bytes :=
  match a.encoded? with
  | some bytes => (.output, bytes)
  | none => (.errors, a.input)

section

variable (files : FileSystem) (r : FileRequest) {e e' : Engine σ} {tally : Tally} {record : Bytes}

theorem written_add (a : Attempt σ) :
    (tally.add a.input a.encoded?).written = a.line :: tally.written := by
  unfold Attempt.line
  cases a.encoded? <;> rfl

/-- A record is matched after the check. -/
theorem matchRecord_eq (number : Nat) (record : Bytes) :
    (matchRecord files r number record : Action σ _) = (do
      recordCheck files number
      let outcome ← dispatch files r.pattern 1 r.encoder record
      return (← get).data outcome.data) := by
  unfold matchRecord recordCheck
  split
  · rfl
  · rw [pure_bind]

/-- A record is matched as any input is, after the check. -/
theorem matchRecord_run (number : Nat) (record : Bytes) (e : Engine σ) :
    (matchRecord files r number record).run e =
      match (recordCheck files number).run e with
      | (.error fault, e) => (.error fault, e)
      | (.ok (), e) =>
        match (Attempt.mk e files r.pattern 1 r.encoder record).run with
        | (.ok outcome, e) => (.ok (e.data outcome.data), e)
        | (.error fault, e) => (.error fault, e) := by
  rw [matchRecord_eq, run_bind]
  rcases (recordCheck files number).run e with ⟨fault | _, e₁⟩
  · rfl
  · dsimp only [Attempt.run]
    rw [run_bind]
    rcases (dispatch files r.pattern 1 r.encoder record).run e₁ with ⟨fault | outcome, e₂⟩ <;> rfl

theorem matchRecords_error {files : FileSystem} {r : FileRequest} {fault : Fault}
    (h : (matchRecord files r (tally.records + 1) record).run e = (.error fault, e'))
    (rest : List Bytes) : ∃ t : Tally, t.written = tally.written ∧
      matchRecords files r tally (record :: rest) e = ((.error fault, t), e') := by
  refine ⟨{ tally with
    records := tally.records + 1
    consumed := tally.consumed + record.length + 1 }, rfl, ?_⟩
  rw [matchRecords]
  dsimp only
  rw [h]

/-- The attempts at records are linked, and what is written is what they make. -/
theorem recordAttempts_linked (records : List Bytes) : ∀ (tally : Tally) (e : Engine σ),
    let attempts := recordAttempts files r tally.records records e
    let matched := matchRecords files r tally records e
    Linked e.previousScripted attempts matched.2.previousScripted ∧
      matched.1.2.written.reverse =
        tally.written.reverse ++ (attempts.filter (·.run.1.isOk)).map Attempt.line := by
  induction records with
  | nil => exact fun tally e => ⟨.nil _, (List.append_nil _).symm⟩
  | cons record records ih =>
    intro tally e
    -- a fault in the check or in the match ends the row, and otherwise the rest goes on from there
    have hrecord := matchRecord_run files r (tally.records + 1) record e
    unfold recordAttempts
    rcases hcheck : (recordCheck files (tally.records + 1)).run e with ⟨fault | _, e₁⟩ <;>
      rw [hcheck] at hrecord <;>
      rw [← ((quiet_recordCheck files _).spared hcheck).previousScripted] <;>
      dsimp only at hrecord ⊢
    · obtain ⟨t, hwritten, hmatched⟩ := matchRecords_error hrecord records
      rw [hmatched]
      exact ⟨.nil _, by simp [hwritten]⟩
    · rcases hrun : (Attempt.mk e₁ files r.pattern 1 r.encoder record).run with
        ⟨fault | outcome, e₂⟩ <;> rw [hrun] at hrecord <;> dsimp only at hrecord ⊢
      · obtain ⟨t, hwritten, hmatched⟩ := matchRecords_error hrecord records
        rw [hmatched]
        refine ⟨.cons rfl ?_, ?_⟩
        · rw [hrun]
          exact .nil _
        · simp [hwritten, hrun, Except.isOk, Except.toBool]
      · rw [matchRecords_cons hrecord, (Attempt.run_exposes hrun).own]
        obtain ⟨hlinked, hwritten⟩ := ih (tally.add record
          (Attempt.mk e₁ files r.pattern 1 r.encoder record).encoded?) e₂
        rw [Tally.records_add] at hlinked hwritten
        refine ⟨.cons rfl ?_, ?_⟩
        · rw [hrun]
          exact hlinked
        · rw [hwritten, written_add (Attempt.mk e₁ files r.pattern 1 r.encoder record)]
          simp [hrun, Except.isOk, Except.toBool]

end

/-- Whether a match of a file goes on to open its files. -/
def accepts (e : Engine σ) (r : FileRequest) : Bool :=
  (e.patterns.get? r.pattern).isSome &&
    match Encoder.resolve r.encoder with
    | .builtin _ => true
    | .extension name => e.hasExtension name

/-- The attempts at the records of a file, once its files are open. -/
def fileAttempts (e : Engine σ) (r : FileRequest) (world : World) : List (Attempt σ) :=
  match (govern world.files).run e with
  | (.ok (), e) =>
    if e.accepts r then
      match opening r world with
      | .ok (_, opened, input) => recordAttempts opened.files r 0 (recordsOf r.wholeFile input) e
      | .error _ => []
    else []
  | (.error _, _) => []

/-- A match of a file once the memory in use has been checked. -/
theorem matchFile_governed {e e₁ : Engine σ} {r : FileRequest} {world : World}
    (hgovern : (govern world.files).run e = (.ok (), e₁)) :
    matchFile e r world = if e₁.accepts r then processFile r world e₁ else
      ((.ok (if (e₁.patterns.get? r.pattern).isNone then .noSuchPattern else .invalidEncoder),
        world), e₁) := by
  unfold matchFile accepts
  rw [hgovern]
  dsimp only
  cases e₁.patterns.get? r.pattern with
  | none => rfl
  | some pattern =>
    cases Encoder.resolve r.encoder with
    | builtin encoder => rfl
    | extension name => cases hknown : e₁.hasExtension name <;> simp [hknown]

/-- A match of a file delivers what has been written for its records, whether it ends in a fault or
not. -/
theorem matchInputFile_delivers (r : FileRequest) (output errors : Target) (world : World)
    (input : Bytes) (e : Engine σ) : ∃ left first,
      (matchInputFile r output errors world input e).1.2 = deliver left output errors first
        (matchRecords world.files r {} (recordsOf r.wholeFile input) e).1.2 := by
  unfold matchInputFile
  dsimp only
  split <;> exact ⟨_, _, rfl⟩

/-- The attempts at the records of a file are linked, and what is delivered is what they make. -/
theorem fileAttempts_linked (e : Engine σ) (r : FileRequest) (world : World) :
    let attempts := fileAttempts e r world
    let matched := matchFile e r world
    Linked e.previousScripted attempts matched.2.previousScripted ∧
      (attempts ≠ [] → ∃ left output errors first tally,
        matched.1.2 = deliver left output errors first tally ∧
        tally.written.reverse = (attempts.filter (·.run.1.isOk)).map Attempt.line) := by
  intro attempts matched
  have hquiet : Spared e ((govern world.files).run e).2 := quiet_govern e
  unfold attempts fileAttempts
  rcases hgovern : (govern world.files).run e with ⟨fault | _, e₁⟩ <;> rw [hgovern] at hquiet <;>
    rw [← hquiet.previousScripted] <;> dsimp only
  · refine ⟨?_, fun h => absurd rfl h⟩
    unfold matched matchFile
    rw [hgovern]
    exact .nil _
  · cases haccepts : e₁.accepts r with
    | false =>
      refine ⟨?_, fun h => absurd rfl h⟩
      unfold matched
      rw [matchFile_governed hgovern, haccepts]
      exact .nil _
    | true =>
      unfold matched
      rw [matchFile_governed hgovern, haccepts, if_pos rfl, processFile_eq, if_pos rfl]
      rcases opening r world with ⟨outcome, left⟩ | ⟨⟨output, errors⟩, opened, input⟩
      · exact ⟨.nil _, fun h => absurd rfl h⟩
      · obtain ⟨hlinked, hwritten⟩ := recordAttempts_linked opened.files r
          (recordsOf r.wholeFile input) {} e₁
        obtain ⟨left, first, hdelivers⟩ := matchInputFile_delivers r output errors opened input e₁
        dsimp only
        rw [matchInputFile_engine]
        exact ⟨hlinked, fun _ => ⟨left, output, errors, first, _, hdelivers, hwritten⟩⟩

end Engine

/-! ## Histories -/

open PatternEngine.Engine

variable {σ : Type}

/-- The attempts that a call makes of an engine. -/
def Call.attempts (world : World) (e : Engine σ) : Call → List (Attempt σ)
  | .matchInput pattern start encoder input =>
    match (govern world.files).run e with
    | (.ok (), e) => [⟨e, world.files, pattern, start, encoder, input⟩]
    | (.error _, _) => []
  | .matchFile request => fileAttempts e request world
  | _ => []

/-- The attempts of calls that follow each other. -/
def Engine.history (e : Engine σ) : List (Call × World) → List (Attempt σ)
  | [] => []
  | (call, world) :: calls => call.attempts world e ++ (call.after world e).history calls

theorem attempts_linked (call : Call) (world : World) (e : Engine σ) :
    Linked e.previousScripted (call.attempts world e) (call.after world e).previousScripted := by
  cases call with
  | matchInput pattern start encoder input =>
    have hquiet : Spared e ((govern world.files).run e).2 := quiet_govern e
    simp only [Call.attempts, Call.after, matchInput]
    rw [run_bind]
    rcases hgovern : (govern world.files).run e with ⟨fault | _, e₁⟩ <;> rw [hgovern] at hquiet <;>
      rw [← hquiet.previousScripted]
    · exact .nil _
    · exact .cons rfl (.nil _)
  | matchFile request => exact (fileAttempts_linked e request world).1
  | _ =>
    rw [after_previousScripted world e (by simp) (by simp)]
    exact .nil _

theorem history_linked (e : Engine σ) (calls : List (Call × World)) :
    Linked e.previousScripted (e.history calls) (e.afterAll calls).previousScripted := by
  induction calls generalizing e with
  | nil => exact .nil _
  | cons entry calls ih => exact (attempts_linked entry.1 entry.2 e).append (ih _)

/-- A match of an input is one attempt, unless the memory in use could not be checked. -/
theorem attempt_of_match {world : World} {handle : Handle} {start : Int} {encoder input : Bytes}
    {outcome : Outcome} {e e' : Engine σ}
    (h : (matchInput world.files handle start encoder input).run e = (.ok outcome, e')) :
    ∃ e₁, (Call.matchInput handle start encoder input).attempts world e =
        [⟨e₁, world.files, handle, start, encoder, input⟩] ∧
      (Attempt.mk e₁ world.files handle start encoder input).run = (.ok outcome, e') := by
  obtain ⟨_, e₁, hgovern, hdispatch⟩ := run_bind_eq_ok.1 h
  exact ⟨e₁, by rw [Call.attempts, hgovern], hdispatch⟩

/-- The text that is kept is the one that the last match through the module ended with, at the
start of any match and between calls, and it is given up when that match ended with anything else.
Nothing but a match through the module changes it. What a match exposes it has made itself. -/
theorem scripted_result_lives {module : RuntimeModule σ} {installation : FileSystem}
    {settings : Settings} {standardHome : Bytes} {options : Options} {e₀ : Engine σ}
    (h : create module installation settings standardHome options = .ok e₀)
    (calls : List (Call × World)) :
    let e := e₀.afterAll calls
    (∀ bytes, e.previousScripted = some bytes ↔ Left (e₀.history calls) bytes) ∧
    (∀ before a after, e₀.history calls = before ++ a :: after →
      (∀ bytes, a.engine.previousScripted = some bytes ↔ Left before bytes) ∧
      (a.scripted? = none → a.run.2.previousScripted = a.engine.previousScripted) ∧
      ∀ outcome e', a.run = (.ok outcome, e') → a.Exposes outcome e') ∧
    (∀ (call : Call) world, (∀ a ∈ call.attempts world e, a.scripted? = none) →
      (call.after world e).previousScripted = e.previousScripted) ∧
    (∀ world handle start encoder input outcome e',
      (matchInput world.files handle start encoder input).run e = (.ok outcome, e') →
      ∃ a, (Call.matchInput handle start encoder input).attempts world e = [a] ∧
        (a.files, a.handle, a.start, a.encoder, a.input) =
          (world.files, handle, start, encoder, input) ∧
        a.run = (.ok outcome, e') ∧ a.Exposes outcome e') ∧
    ∀ world request, let attempts := (Call.matchFile request).attempts world e
      attempts ≠ [] → ∃ left output errors first tally,
        (matchFile e request world).1.2 = deliver left output errors first tally ∧
        tally.written.reverse = (attempts.filter (·.run.1.isOk)).map Attempt.line := by
  intro e
  have hlinked := history_linked e₀ calls
  rw [(new_of_create h).2] at hlinked
  have hleft : ∀ (attempts : List (Attempt σ)) bytes,
      attempts.foldl Attempt.slotAfter none = some bytes ↔ Left attempts bytes := by
    intro attempts bytes
    rw [foldl_slotAfter]
    simp
  refine ⟨?_, ?_, ?_, ?_, fun world request => (fileAttempts_linked e request world).2⟩
  · intro bytes
    rw [hlinked.last_eq, hleft]
  · intro before a after hsplit
    rw [hsplit] at hlinked
    refine ⟨?_, fun hdirect => (Attempt.run_direct hdirect).1, fun _ _ => Attempt.run_exposes⟩
    intro bytes
    rw [hlinked.entry, hleft]
  · intro call world hdirect
    exact (attempts_linked call world e).last_of_direct hdirect
  · intro world handle start encoder input outcome e' hmatch
    obtain ⟨e₁, hattempts, hrun⟩ := attempt_of_match hmatch
    exact ⟨_, hattempts, rfl, hrun, Attempt.run_exposes hrun⟩

/-- A module that compiles everything to the same pattern, and has one extension, which returns the
input as it is, or nothing for an empty one. -/
def echoing : RuntimeModule Unit where
  start _ _ :=
    let entry (values : List Value → List Value) : EntryPoint Unit :=
      fun _ arguments state => (.returned (values arguments), state)
    .finished (some {
      engine := some (some (.object {
        compile := some (entry fun _ => [.table [] [], .nil])
        matchInput := some (entry fun
          | [_, .lent input, _, _] => [if input.isEmpty then .bool false else .str input,
            .int 0, .bool false, .int 0, .int 0]
          | _ => [])
        setSearchPath := some (entry fun _ => []) }))
      services := some {
        json := some (some (entry fun _ => [.str []]))
        strip := some (entry id)
        encoders := some [text "echo"]
        collect := some (entry fun _ => [.int 0]) } }) ()

/-- The text lives until the next match through the module, which need not leave one. -/
theorem scripted_result_lives_sample : ∃ e₀,
    create echoing Standard.sample {} (text "r") {} = .ok e₀ ∧
    let world : World := ⟨Standard.sample, [], [], []⟩
    let echo (input : Bytes) : Call × World := (.matchInput ⟨1⟩ 1 (text "echo") input, world)
    let calls := [(.compile (text "x"), world), echo (text "ab"), (.searchPath, world),
      (.matchInput ⟨1⟩ 1 (text "line") (text "cd"), world)]
    Left (e₀.history calls) (text "ab") ∧
    (e₀.afterAll calls).previousScripted = some (text "ab") ∧
    (e₀.afterAll (calls ++ [echo []])).previousScripted = none ∧
    ∀ bytes, ¬Left (e₀.history (calls ++ [echo []])) bytes := by
  have hcreate : ∃ e₀, create echoing Standard.sample {} (text "r") {} = .ok e₀ := ⟨_, rfl⟩
  obtain ⟨e₀, h⟩ := hcreate
  refine ⟨e₀, h, ?_⟩
  intro world echo calls
  have hkept : ((create echoing Standard.sample {} (text "r") {}).toOption.bind
      fun e => (e.afterAll calls).previousScripted) = some (text "ab") := rfl
  have hgone : ((create echoing Standard.sample {} (text "r") {}).toOption.bind
      fun e => (e.afterAll (calls ++ [echo []])).previousScripted) = none := rfl
  rw [h] at hkept hgone
  refine ⟨((scripted_result_lives h calls).1 _).1 hkept, hkept, hgone, ?_⟩
  intro bytes hleft
  have hlater := ((scripted_result_lives h (calls ++ [echo []])).1 bytes).2 hleft
  cases hgone.symm.trans hlater

end PatternEngine
