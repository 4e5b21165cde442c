import PatternEngine.Proofs.Engine.Boundary
import PatternEngine.Proofs.Engine.Results
import PatternEngine.Proofs.Foreign.Invocations
/-!
# What foreign calls tell

A foreign call that succeeds has made one call of the engine, and its cells tell what that call
returned (`Tells`): bytes are handed out for bytes, also when there are none of them, and numbers in
place of bytes tell the other outcomes apart. Numbers are exact as far as they fit. So a row of
foreign calls is a row of calls of the engine, and the cells tell of their outcomes
(`outcomes_recovered`).
-/
namespace PatternEngine

namespace Engine

open PatternEngine.Action

variable {σ : Type}

/-! ## Expressions that are refused -/

/-- The module refuses an expression: it returns false in place of a pattern. -/
def Refuses (files : FileSystem) (expression : Bytes) (e : Engine σ) : Prop :=
  ∃ messages e',
    Returned e.slots.methods.compile files [.str expression] e [.bool false, messages] e'

theorem Returned.unique {entry : Option (EntryPoint σ)} {files : FileSystem}
    {arguments values values' : List Value} {e e₁ e₂ : Engine σ}
    (h₁ : Returned entry files arguments e values e₁)
    (h₂ : Returned entry files arguments e values' e₂) : values = values' := by
  obtain ⟨call, state, hentry, hreply, -⟩ := h₁
  obtain ⟨call', state', hentry', hreply', -⟩ := h₂
  cases hentry.symm.trans hentry'
  cases hreply.symm.trans hreply'
  rfl

/-- There is no handle for an expression that is refused, and for any other there is a new one with
a pattern. -/
theorem compile_ok {files : FileSystem} {expression : Bytes} {e e' : Engine σ}
    {compiled : Compiled} (ht : e.patterns.Exact)
    (h : (compile files expression).run e = (.ok compiled, e')) :
    (compiled.pattern = .none ↔ Refuses files expression e) ∧
      (compiled.pattern ≠ .none → e.patterns.get? compiled.pattern = none ∧
        ∃ pattern, e'.patterns.get? compiled.pattern = some pattern) := by
  obtain ⟨values, e₁, hcall, h⟩ := run_bind_eq_ok.1 h
  have hreturned := callMethod_eq_ok.1 hcall
  split at h
  · obtain ⟨diagnostics, e₂, hmarshal, h⟩ := run_bind_eq_ok.1 h
    have hpatterns : e₂.patterns = e.patterns :=
      ((quiet_marshal _).spared hmarshal).patterns.trans
        ((quiet_callMethod _ _ _ _).spared hcall).patterns
    split at h
    · cases h
      exact ⟨iff_of_true rfl ⟨_, e₁, hreturned⟩, fun hsome => absurd rfl hsome⟩
    · -- the pattern is put into a table in good order, so its handle is none of those in use
      rw [keep_run, hpatterns] at h
      split at h
      · rename_i handle patterns hinsert
        cases h
        obtain ⟨hnew, hnumber, hget, -⟩ := ht.insert hinsert
        refine ⟨iff_of_false ?_ ?_, fun _ => ⟨hnew, _, (hget handle).trans (if_pos rfl)⟩⟩
        · rintro rfl
          exact hnumber rfl
        · rintro ⟨messages, e₃, hrefused⟩
          cases hrefused.unique hreturned
      · cases h
    · cases h
  · cases h

end Engine

namespace ForeignCall

open PatternEngine.Action PatternEngine.Engine

variable {σ : Type}

/-! ## Numbers -/

/-- The least and the greatest number with 32 bits. -/
def minInt : Int := -(Nat.pow 2 31)

def maxInt : Int := Nat.pow 2 31 - 1

/-- A number is shown as it is if it fits, and as the nearest number that fits if not. -/
structure Saturates (n shown : Int) : Prop where
  exact : minInt ≤ n → n ≤ maxInt → shown = n
  above : maxInt < n → shown = maxInt
  below : n < minInt → shown = minInt

theorem saturates_clampInt (n : Int) : Saturates n (clampInt n) := by
  have hmin : minInt = -2147483648 := rfl
  have hmax : maxInt = 2147483647 := rfl
  have hclamp : clampInt n = max (-2147483648) (min n 2147483647) := rfl
  constructor <;> omega

/-- The value of the sign bit of a number with 64 bits. -/
def signBit : Nat := Nat.pow 2 63

/-- Counts below the sign bit keep their value. -/
theorem signed64_eq {n : Nat} (h : n < signBit) : signed64 n = n := by
  have hmodulus : Nat.pow 2 64 = 18446744073709551616 := rfl
  have hbit : signBit = 9223372036854775808 := rfl
  unfold signed64
  rw [hmodulus, Int.bmod_eq_of_le] <;> omega

theorem handleOf_eq (n : Int) : handleOf n = ⟨n.toNat⟩ := by
  unfold handleOf
  split
  · rw [Int.toNat_of_nonpos (by omega)]
    rfl
  · rfl

theorem handleOf_number (handle : Handle) : handleOf handle.number = handle := by
  rw [handleOf_eq, Int.toNat_natCast]

theorem number_eq_zero {handle : Handle} : (handle.number : Int) = 0 ↔ handle = .none := by
  cases handle
  simp [Handle.none]

theorem ofFlag_eq_one {b : Bool} : ofFlag b = 1 ↔ b = true := by cases b <;> decide

theorem ofFlag_eq_zero {b : Bool} : ofFlag b = 0 ↔ b = false := by cases b <;> decide

/-! ## Strings -/

/-- The bytes of a string, if there are any. -/
def OutString.bytes? : OutString → Option Bytes
  | .bytes held => some held
  | .null _ => none

theorem handOut_ok {what : String} {bytes : Bytes} {s : OutString}
    (h : handOut what bytes = .ok s) : s = .bytes bytes := by
  unfold handOut at h
  split at h <;> cases h
  rfl

theorem handOutSome_ok {bytes : Option Bytes} {s : OutString} (h : handOutSome bytes = .ok s) :
    s.bytes? = bytes := by
  cases bytes with
  | none =>
    cases h
    rfl
  | some bytes =>
    rw [handOut_ok h]
    rfl

/-! ## What cells tell -/

/-- A cell that has been written to holds what was written. -/
theorem put_eq {α : Type} {cell : Cell α} {x y : α} (h : y ∈ cell.put x) : y = x := by
  cases cell with
  | none => cases h
  | some old =>
    cases h
    rfl

/-- The cells of a call about the limit. -/
structure LimitTold (cells : LimitCells) (usage : Usage) : Prop where
  megabytes : ∃ n, cells.newLimit = some n ∧ Saturates usage.megabytes n
  kilobytes : usage.kilobytes < signBit → ∀ n ∈ cells.usage, Saturates usage.kilobytes n

/-- The cells of a call that compiles tell the handle exactly. -/
structure CompileTold (cells : CompileCells) (compiled : Compiled) : Prop where
  pattern : ∃ n, cells.pattern = some n ∧ n = compiled.pattern.number ∧
    handleOf n = compiled.pattern ∧ (n = 0 ↔ compiled.pattern = .none)
  errors : ∀ s ∈ cells.errors, s.bytes? = compiled.diagnostics

/-- The cell of a match tells the bytes exactly, and by a number why there are none. -/
structure MatchTold (m : MatchCell) (outcome : Outcome) (data : Option Bytes) : Prop where
  bytes : m.data.bytes? = data
  matched : m.data.bytes?.isSome ↔ outcome.data.status = .matched
  noMatch : m.data = .null 0 ↔ outcome.data.status = .noMatch
  noSuchPattern : m.data = .null 1 ↔ outcome.data.status = .noSuchPattern
  noSuchEncoder : m.data = .null 2 ↔ outcome.data.status = .noSuchEncoder
  leftover : Saturates outcome.leftover m.leftover
  abend : m.abend = ofFlag outcome.abend
  totalTime : Saturates outcome.totalTime m.totalTime
  matchTime : Saturates outcome.matchTime m.matchTime

/-- The cells of a trace tell its bytes exactly, and by a number why there are none. -/
structure TraceTold (cells : TraceCells) (outcome : TraceOutcome) : Prop where
  trace : ∃ s, cells.trace = some s ∧
    (∀ bytes, s.bytes? = some bytes ↔ ∃ matched, outcome = .traced matched bytes) ∧
    (s = .null 1 ↔ outcome = .noSuchPattern) ∧ (s = .null 2 ↔ outcome = .invalidStyle)
  matched : ∀ n ∈ cells.matched, n = 1 ↔ ∃ bytes, outcome = .traced true bytes
  unmatched : ∀ n ∈ cells.matched, n = 0 ↔ ¬∃ bytes, outcome = .traced true bytes

/-- The cells of loading or importing tell all there is. -/
structure LoadTold (cells : LoadCells) (outcome : LoadOutcome) : Prop where
  ok : ∀ n ∈ cells.ok, n = ofFlag outcome.ok
  package : ∀ s ∈ cells.package, s.bytes? = outcome.package
  errors : ∀ s ∈ cells.errors, s.bytes? = outcome.diagnostics

/-- The records of a file have been matched. -/
def Counted (outcome : FileOutcome) : Prop :=
  ∃ records results misses, outcome = .counts records results misses

/-- The cells of a match of a file tell the counts, or by numbers why there are none. The sign bit
of a count has to be free. -/
structure FileTold (cells : FileCells) (outcome : FileOutcome) : Prop where
  records : ∀ n ∈ cells.records, ∀ records results misses,
    outcome = .counts records results misses → records < signBit → Saturates records n ∧ n ≠ -1
  results : ∀ n ∈ cells.results, ∀ records results misses,
    outcome = .counts records results misses → results < signBit → Saturates results n
  misses : ∀ n ∈ cells.misses, ∀ records results misses,
    outcome = .counts records results misses → misses < signBit → Saturates misses n
  uncounted : ¬Counted outcome → ∀ n ∈ cells.records, n = -1
  code : ¬Counted outcome → ∀ n ∈ cells.results, (n = 2 ↔ outcome = .invalidEncoder) ∧
    (n = 3 ↔ ∃ message, outcome = .failed message) ∧ (n = 4 ↔ outcome = .noSuchPattern)
  message : ∀ s ∈ cells.message, ∀ message, s.bytes? = some message ↔ outcome = .failed message

theorem limitTold {cells : LimitCells} {old : Int} (h : cells.newLimit = some old)
    (usage : Usage) : LimitTold ⟨cells.newLimit.put (clampInt usage.megabytes),
      cells.usage.put (clampInt (signed64 usage.kilobytes))⟩ usage := by
  constructor
  · rw [h]
    exact ⟨_, rfl, saturates_clampInt _⟩
  · intro hsmall n hn
    rw [put_eq hn, signed64_eq hsmall]
    exact saturates_clampInt _

theorem matchTold {outcome : Outcome} {data : Option Bytes} {string : OutString}
    (hdata : outcome.data.status = .matched ↔ data.isSome)
    (hstring : handOutData outcome.data data = .ok string) :
    MatchTold ⟨string, clampInt outcome.leftover, ofFlag outcome.abend,
      clampInt outcome.totalTime, clampInt outcome.matchTime⟩ outcome data := by
  obtain ⟨source, leftover, abend, totalTime, matchTime⟩ := outcome
  cases data with
  | some bytes =>
    have hmatched : source.status = .matched := hdata.2 rfl
    cases handOut_ok hstring
    constructor <;> simp [hmatched, OutString.bytes?, saturates_clampInt]
  | none =>
    -- without bytes there is no match, and the number is read off the source
    have hmatched : source.status ≠ .matched := fun h => by simpa using hdata.1 h
    cases hstring
    cases source with
    | native => exact absurd rfl hmatched
    | scripted => exact absurd rfl hmatched
    | _ =>
      constructor <;> simp [DataSource.status, sentinel, OutString.bytes?, saturates_clampInt]

theorem traceTold {cells : TraceCells} {outcome : TraceOutcome} {flag : Bool}
    {old string : OutString} (hcell : cells.trace = some old)
    (h : handOutTrace outcome = .ok (flag, string)) :
    TraceTold ⟨cells.matched.put (ofFlag flag), cells.trace.put string⟩ outcome := by
  have htold : (∀ bytes, string.bytes? = some bytes ↔ ∃ matched, outcome = .traced matched bytes) ∧
      (string = .null 1 ↔ outcome = .noSuchPattern) ∧ (string = .null 2 ↔ outcome = .invalidStyle) ∧
      (flag = true ↔ ∃ bytes, outcome = .traced true bytes) := by
    cases outcome with
    | noSuchPattern =>
      cases h
      simp [OutString.bytes?]
    | invalidStyle =>
      cases h
      simp [OutString.bytes?]
    | traced matched trace =>
      obtain ⟨s, hs, h⟩ := bind_eq_ok.1 h
      cases h
      cases handOut_ok hs
      simp [OutString.bytes?]
  obtain ⟨hbytes, hpattern, hstyle, hflag⟩ := htold
  constructor
  · rw [hcell]
    exact ⟨string, rfl, hbytes, hpattern, hstyle⟩
  · intro n hn
    rw [put_eq hn, ofFlag_eq_one]
    exact hflag
  · intro n hn
    rw [put_eq hn, ofFlag_eq_zero, ← hflag]
    simp

theorem loadTold {cells cells' : LoadCells} {outcome : LoadOutcome}
    (h : Invocation.loaded cells outcome = .ok cells') : LoadTold cells' outcome := by
  obtain ⟨diagnostics, hdiagnostics, h⟩ := bind_eq_ok.1 h
  obtain ⟨package, hpackage, h⟩ := bind_eq_ok.1 h
  cases h
  constructor
  · exact fun n hn => put_eq hn
  · intro s hs
    rw [put_eq hs]
    exact handOutSome_ok hpackage
  · intro s hs
    rw [put_eq hs]
    exact handOutSome_ok hdiagnostics

/-- A count is never shown as a negative number. -/
theorem count_told {n : Nat} (h : n < signBit) :
    Saturates n (clampInt (signed64 n)) ∧ clampInt (signed64 n) ≠ -1 := by
  rw [signed64_eq h]
  have hs := saturates_clampInt n
  refine ⟨hs, ?_⟩
  have hmin : minInt = -2147483648 := rfl
  have hmax : maxInt = 2147483647 := rfl
  by_cases hfits : (n : Int) ≤ maxInt
  · rw [hs.exact (by omega) hfits]
    omega
  · rw [hs.above (by omega)]
    omega

theorem fileTold {cells : FileCells} {outcome : FileOutcome} {string : OutString}
    (h : handOutSome (fileNumbers outcome).message = .ok string) :
    FileTold ⟨cells.records.put (fileNumbers outcome).records,
      cells.results.put (fileNumbers outcome).results,
      cells.misses.put (fileNumbers outcome).misses, cells.message.put string⟩ outcome := by
  constructor
  · rintro n hn records results misses rfl hsmall
    rw [put_eq hn]
    exact count_told hsmall
  · rintro n hn records results misses rfl hsmall
    rw [put_eq hn]
    exact (count_told hsmall).1
  · rintro n hn records results misses rfl hsmall
    rw [put_eq hn]
    exact (count_told hsmall).1
  · intro huncounted n hn
    rw [put_eq hn]
    cases outcome with
    | counts records results misses => exact absurd ⟨_, _, _, rfl⟩ huncounted
    | _ => rfl
  · intro huncounted n hn
    rw [put_eq hn]
    cases outcome with
    | counts records results misses => exact absurd ⟨_, _, _, rfl⟩ huncounted
    | _ => simp [fileNumbers]
  · intro s hs message
    rw [put_eq hs, handOutSome_ok h]
    cases outcome <;> simp [fileNumbers]

/-! ## Calls -/

namespace Invocation

/-- The cells of an invocation tell what has been returned. A search path that was set and a pattern
that was freed have no cells to tell of. -/
def Tells : Invocation → Call.Outcome → Prop
  | .memoryLimit cells, .limit usage => LimitTold cells usage
  | .config cell, .config document => ∃ s, cell = some s ∧ s.bytes? = document
  | .searchPath cell, .searchPath path => ∃ s, cell = some s ∧ s.bytes? = some path
  | .searchPath _, .searchPathSet => True
  | .compile _ cells, .compiled compiled => CompileTold cells compiled
  | .free _, .freed _ => True
  | .matchInput _ _ _ _ cell, .matched outcome data =>
    ∃ m, cell = some m ∧ MatchTold m outcome data
  | .trace _ _ _ _ cells, .traced outcome => TraceTold cells outcome
  | .load _ cells, .loaded outcome => LoadTold cells outcome
  | .loadFile _ cells, .loaded outcome => LoadTold cells outcome
  | .importPackage _ _ cells, .loaded outcome => LoadTold cells outcome
  | .matchFile _ _ _ cells, .fileMatched outcome => FileTold cells outcome
  | _, _ => False

/-- Bytes come with a match, and with nothing else. -/
theorem data_of_make {call : Call} {world : World} {e : Engine σ} {outcome : Outcome}
    {data : Option Bytes} (h : (call.make world e).result = .ok (.matched outcome data)) :
    outcome.data.status = .matched ↔ data.isSome := by
  cases call with
  | matchInput pattern start encoder input =>
    obtain ⟨e', made, hrun, hmade⟩ := Call.ending_eq_ok h
    cases hmade
    obtain ⟨e₁, -, hattempt⟩ := attempt_of_match hrun
    obtain ⟨hdata, hstatus⟩ := Attempt.run_exposes hattempt
    rw [hdata]
    exact hstatus
  | matchFile request =>
    obtain ⟨outcome, hmade⟩ := Call.matchFile_eq_ok h
    cases hmade
  | _ =>
    obtain ⟨e', x, -, hx⟩ := Call.ending_eq_ok h
    cases hx

/-- Only calls that compile return a handle. -/
theorem compile_of_make {call : Call} {world : World} {e : Engine σ} {compiled : Compiled}
    (h : (call.make world e).result = .ok (.compiled compiled)) : ∃ expression,
      call = .compile expression ∧
      (Engine.compile world.files expression).run e = (.ok compiled, call.after world e) := by
  cases call with
  | compile expression =>
    obtain ⟨e', made, hrun, hmade⟩ := Call.ending_eq_ok h
    cases hmade
    refine ⟨expression, rfl, ?_⟩
    rw [Call.after, hrun]
  | matchFile request =>
    obtain ⟨outcome, hmade⟩ := Call.matchFile_eq_ok h
    cases hmade
  | _ =>
    obtain ⟨e', x, -, hx⟩ := Call.ending_eq_ok h
    cases hx

/-- What is filled in tells what has been returned. -/
theorem tells_of_fill {i i' : Invocation} {call : Call} {outcome : Call.Outcome}
    (hcall : i.call? = some call) (hfits : i.Fits outcome)
    (hdata : ∀ matched data, outcome = .matched matched data →
      (matched.data.status = .matched ↔ data.isSome))
    (h : i.fill outcome = .ok i') : i'.Tells outcome := by
  cases hfits with
  | memoryLimit cells usage =>
    obtain ⟨old, hcell, -⟩ := Option.bind_eq_some_iff.1 hcall
    cases h
    exact limitTold hcell usage
  | config cell document =>
    obtain ⟨old, rfl, -⟩ := Option.bind_eq_some_iff.1 hcall
    obtain ⟨s, hs, h⟩ := bind_eq_ok.1 h
    cases h
    exact ⟨s, rfl, handOutSome_ok hs⟩
  | searchPath code path =>
    obtain ⟨s, hs, h⟩ := bind_eq_ok.1 h
    cases h
    rw [handOut_ok hs]
    exact ⟨_, rfl, rfl⟩
  | searchPathSet bytes =>
    cases h
    trivial
  | compile expression cells compiled =>
    obtain ⟨bytes, -, hcall⟩ := Option.bind_eq_some_iff.1 hcall
    obtain ⟨old, hcell, -⟩ := Option.bind_eq_some_iff.1 hcall
    unfold fill at h
    dsimp only at h
    split at h
    · cases h
    · obtain ⟨s, hs, h⟩ := bind_eq_ok.1 h
      cases h
      refine ⟨?_, fun s' hs' => ?_⟩
      · rw [hcell]
        exact ⟨_, rfl, rfl, handleOf_number _, number_eq_zero⟩
      · rw [put_eq hs']
        exact handOutSome_ok hs
  | free pattern found =>
    cases h
    trivial
  | matchInput pattern start encoder input cell outcome data =>
    obtain ⟨name, -, hcall⟩ := Option.bind_eq_some_iff.1 hcall
    obtain ⟨bytes, -, hcall⟩ := Option.bind_eq_some_iff.1 hcall
    obtain ⟨old, rfl, -⟩ := Option.bind_eq_some_iff.1 hcall
    obtain ⟨s, hs, h⟩ := bind_eq_ok.1 h
    cases h
    exact ⟨_, rfl, matchTold (hdata _ _ rfl) hs⟩
  | trace pattern start style input cells outcome =>
    obtain ⟨name, -, hcall⟩ := Option.bind_eq_some_iff.1 hcall
    obtain ⟨bytes, -, hcall⟩ := Option.bind_eq_some_iff.1 hcall
    obtain ⟨old, hcell, -⟩ := Option.bind_eq_some_iff.1 hcall
    obtain ⟨⟨flag, s⟩, hs, h⟩ := bind_eq_ok.1 h
    cases h
    exact traceTold hcell hs
  | load source cells outcome =>
    obtain ⟨cells', hloaded, h⟩ := bind_eq_ok.1 h
    cases h
    exact loadTold hloaded
  | loadFile path cells outcome =>
    obtain ⟨cells', hloaded, h⟩ := bind_eq_ok.1 h
    cases h
    exact loadTold hloaded
  | importPackage package under cells outcome =>
    obtain ⟨cells', hloaded, h⟩ := bind_eq_ok.1 h
    cases h
    exact loadTold hloaded
  | matchFile pattern wholeFile names cells outcome =>
    obtain ⟨s, hs, h⟩ := bind_eq_ok.1 h
    cases h
    exact fileTold hs

/-! ## Rows of calls -/

/-- The engine after invocations that follow each other, each in a world of its own. -/
def afterRow (e : Option (Engine σ)) (row : List (Invocation × World)) : Option (Engine σ) :=
  row.foldl (fun e (i, world) => (i.run world e).engine) e

/-- The calls of the engine that invocations stand for. -/
def calls (row : List (Invocation × World)) : List (Call × World) :=
  row.filterMap fun (i, world) => i.call?.map (·, world)

theorem conclude_engine (i : Invocation) (ending : Call.Ending σ) :
    (i.conclude ending).engine = some ending.engine ∧ (i.conclude ending).world = ending.world := by
  unfold conclude
  split <;> exact ⟨rfl, rfl⟩

/-- Only invocations in good form leave a trace in the engine. -/
theorem afterRow_eq (row : List (Invocation × World)) (e : Engine σ) :
    afterRow (some e) row = some (e.afterAll (calls row)) := by
  induction row generalizing e with
  | nil => rfl
  | cons entry row ih =>
    obtain ⟨i, world⟩ := entry
    show afterRow (i.run world (some e)).engine row = _
    cases hcall : i.call? with
    | none =>
      obtain ⟨fault, hrun⟩ := run_malformed hcall world e
      rw [hrun, ih]
      simp [calls, hcall]
    | some call =>
      rw [run_eq hcall, (conclude_engine i _).1, ih, Call.make_engine]
      simp [calls, hcall, afterAll]

theorem exact_afterAll {e : Engine σ} (ht : e.patterns.Exact) (row : List (Call × World)) :
    (e.afterAll row).patterns.Exact := by
  induction row generalizing e with
  | nil => exact ht
  | cons entry row ih => exact ih (exact_of_after ht entry.1 entry.2)

/-- A row of foreign calls is a row of calls of the engine. A foreign call with arguments in good
form makes the call that it stands for, where a negative number stands for no handle, and leaves the
engine and the world as that call does. When it succeeds, its cells tell what that call returned;
and there is no handle exactly if the expression was refused, while a handle is new and has a
pattern. -/
theorem outcomes_recovered {module : RuntimeModule σ} {installation : FileSystem}
    {settings : Settings} {standardHome : Bytes} {options : Options} {e₀ : Engine σ}
    (h : create module installation settings standardHome options = .ok e₀)
    (row : List (Invocation × World)) (i : Invocation) (world : World) :
    ∃ e, afterRow (some e₀) row = some e ∧ e = e₀.afterAll (calls row) ∧
      (∀ pattern : Int, handleOf pattern = ⟨pattern.toNat⟩) ∧
      ∀ call, i.call? = some call →
        let left := i.run world (some e)
        left.engine = some (call.after world e) ∧ left.world = (call.make world e).world ∧
        (left.status = success → ∃ outcome, (call.make world e).result = .ok outcome ∧
          left.cells.Tells outcome ∧
          ∀ compiled, outcome = .compiled compiled → ∃ expression, call = .compile expression ∧
            (compiled.pattern = .none ↔ Refuses world.files expression e) ∧
            (compiled.pattern ≠ .none → e.patterns.get? compiled.pattern = none ∧
              ∃ pattern, (call.after world e).patterns.get? compiled.pattern = some pattern)) := by
  refine ⟨_, afterRow_eq row e₀, rfl, handleOf_eq, ?_⟩
  intro call hcall left
  have ht : (e₀.afterAll (calls row)).patterns.Exact := by
    refine exact_afterAll ?_ _
    rw [(new_of_create h).1]
    exact HandleTable.exact_empty
  have hleft : left = i.conclude (call.make world (e₀.afterAll (calls row))) := run_eq hcall _ _
  rw [hleft]
  obtain ⟨hengine, hworld⟩ := conclude_engine i (call.make world (e₀.afterAll (calls row)))
  refine ⟨by rw [hengine, Call.make_engine], hworld, fun hsuccess => ?_⟩
  obtain ⟨outcome, i', hresult, hfill, hconclude⟩ := conclude_success hsuccess
  rw [hconclude]
  refine ⟨outcome, hresult, tells_of_fill hcall (fits_of_make hcall hresult) ?_ hfill, ?_⟩
  · rintro matched data rfl
    exact data_of_make hresult
  · rintro compiled rfl
    obtain ⟨expression, rfl, hcompile⟩ := compile_of_make hresult
    exact ⟨expression, rfl, compile_ok ht hcompile⟩

/-- The bytes of a match are handed out as they are, and a number in place of them when there is no
such pattern. -/
theorem outcomes_recovered_sample : ∃ e₀ e,
    create echoing Standard.sample {} (text "r") {} = .ok e₀ ∧
    let world : World := { files := Standard.sample }
    let row := [(compile (.bytes (text "x")) ⟨some 7, none⟩, world),
      (load .missing ⟨none, none, none⟩, world)]
    let matching (pattern : Int) (m : MatchCell) : Invocation :=
      .matchInput pattern 1 (some (text "echo")) (.bytes (text "ab")) (some m)
    let left (pattern : Int) := (matching pattern ⟨.null 9, 9, 9, 9, 9⟩).run world (some e)
    afterRow (some e₀) row = some e ∧
    (left 1).cells = matching 1 ⟨.bytes (text "ab"), 0, 0, 0, 0⟩ ∧
    (left (-3)).cells = matching (-3) ⟨.null 1, 0, 0, 0, 0⟩ ∧
    ∃ outcome,
      ((Call.matchInput .none 1 (text "echo") (text "ab")).make world e).result = .ok outcome ∧
      (left (-3)).cells.Tells outcome := by
  have hcreate : ∃ e₀, create echoing Standard.sample {} (text "r") {} = .ok e₀ := ⟨_, rfl⟩
  obtain ⟨e₀, h⟩ := hcreate
  let world : World := { files := Standard.sample }
  let row := [(compile (.bytes (text "x")) ⟨some 7, none⟩, world),
    (load .missing ⟨none, none, none⟩, world)]
  let matching (pattern : Int) (m : MatchCell) : Invocation :=
    .matchInput pattern 1 (some (text "echo")) (.bytes (text "ab")) (some m)
  have hleft : ∀ pattern, pattern = 1 ∨ pattern = -3 →
      ((create echoing Standard.sample {} (text "r") {}).toOption.bind fun e₀ =>
        (afterRow (some e₀) row).map fun e =>
          let left := (matching pattern ⟨.null 9, 9, 9, 9, 9⟩).run world (some e)
          (left.status, left.cells)) = some (success, matching pattern
            ⟨if pattern = 1 then .bytes (text "ab") else .null 1, 0, 0, 0, 0⟩) := by
    rintro pattern (rfl | rfl) <;> rfl
  rw [h] at hleft
  obtain ⟨e, hrow, -, -, hcalls⟩ :=
    outcomes_recovered h row (matching (-3) ⟨.null 9, 9, 9, 9, 9⟩) world
  obtain ⟨-, -, htells⟩ := hcalls _ rfl
  have hmatched := hleft 1 (.inl rfl)
  have hmissing := hleft (-3) (.inr rfl)
  simp only [Except.toOption, Option.bind_some, hrow, Option.map_some, Option.some.injEq,
    Prod.mk.injEq] at hmatched hmissing
  obtain ⟨outcome, hresult, htold, -⟩ := htells hmissing.1
  exact ⟨e₀, e, h, hrow, hmatched.2, hmissing.2, outcome, hresult, htold⟩

end Invocation

end ForeignCall

end PatternEngine
