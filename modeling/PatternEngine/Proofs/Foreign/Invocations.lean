import PatternEngine.Proofs.Engine.Calls
import PatternEngine.Proofs.Foreign.Steps
/-!
# Foreign calls and calls of the engine

A foreign call with arguments in good form stands for a call of the engine (`Call`). It makes that
call and no other, and writes what the call returns to its cells, unless a string is too long
(`run_eq`). With other arguments, or without an engine, it comes to nothing (`run_refused`).
-/
namespace PatternEngine

open PatternEngine.Action

/-! ## What calls return -/

namespace Call

variable {σ α : Type}

/-- What a call returns. -/
inductive Outcome where
  | compiled (outcome : Engine.Compiled)
  | freed (found : Bool)
  /-- with the bytes of the match -/
  | matched (outcome : Engine.Outcome) (data : Option Bytes)
  | traced (outcome : Engine.TraceOutcome)
  | loaded (outcome : Engine.LoadOutcome)
  | fileMatched (outcome : Engine.FileOutcome)
  | searchPath (path : Bytes)
  | searchPathSet
  | config (document : Option Bytes)
  | limit (usage : Engine.Usage)

/-- What a call comes to: what it returns or the fault that it ends in, and what it leaves. -/
structure Ending (σ : Type) where
  result : Except Fault Outcome
  world : World
  engine : Engine σ

/-- The ending of an action that leaves the world alone. -/
def ending (world : World) (e : Engine σ) (action : Action σ α)
    (outcome : Engine σ → α → Outcome) : Ending σ :=
  ⟨(action.run e).1.map (outcome (action.run e).2), world, (action.run e).2⟩

/-- Makes a call. -/
def make (world : World) (e : Engine σ) : Call → Ending σ
  | .compile expression =>
    ending world e (Engine.compile world.files expression) fun _ => .compiled
  | .free pattern => ending world e (Engine.freePattern pattern) fun _ => .freed
  | .matchInput pattern start encoder input =>
    ending world e (Engine.matchInput world.files pattern start encoder input) fun e outcome =>
      .matched outcome (e.data outcome.data)
  | .trace pattern start style input =>
    ending world e (Engine.trace world.files pattern start style input) fun _ => .traced
  | .load source => ending world e (Engine.load world.files source) fun _ => .loaded
  | .loadFile path => ending world e (Engine.loadFile world.files path) fun _ => .loaded
  | .importPackage package under =>
    ending world e (Engine.importPackage world.files package under) fun _ => .loaded
  | .matchFile request =>
    let ((result, world), e) := Engine.matchFile e request world
    ⟨result.map .fileMatched, world, e⟩
  | .searchPath => ending world e (Engine.searchPath world.files) fun _ => .searchPath
  | .setSearchPath path =>
    ending world e (Engine.setSearchPath world.files path) fun _ _ => .searchPathSet
  | .config => ending world e (Engine.config world.files) fun _ => .config
  | .queryLimit => ending world e (Engine.queryLimit world.files) fun _ => .limit
  | .setLimit megabytes => ending world e (Engine.setLimit world.files megabytes) fun _ => .limit

theorem ending_eq_ok {world : World} {e : Engine σ} {action : Action σ α}
    {outcome : Engine σ → α → Outcome} {o : Outcome}
    (h : (ending world e action outcome).result = .ok o) :
    ∃ e' x, action.run e = (.ok x, e') ∧ o = outcome e' x := by
  unfold ending at h
  rcases hr : action.run e with ⟨fault | x, e'⟩ <;> rw [hr] at h <;> cases h
  exact ⟨e', x, rfl, rfl⟩

theorem matchFile_eq_ok {request : Engine.FileRequest} {world : World} {e : Engine σ}
    {o : Outcome} (h : ((matchFile request).make world e).result = .ok o) :
    ∃ outcome, o = .fileMatched outcome := by
  unfold make at h
  dsimp only at h
  cases hr : (Engine.matchFile e request world).1.1 <;> rw [hr] at h <;> cases h
  exact ⟨_, rfl⟩

theorem make_engine (call : Call) (world : World) (e : Engine σ) :
    (call.make world e).engine = call.after world e := by
  cases call <;> rfl

end Call

namespace ForeignCall

variable {σ γ : Type}

/-! ## Invocations -/

/-- The bytes of a string that is passed in good form. -/
def inputBytes? : InString → Option Bytes
  | .missing => none
  | .hollow length => if length = 0 then some [] else none
  | .bytes bytes => some bytes

/-- The text of a name that is passed in good form. -/
def nameText? (name : Option Bytes) : Option Bytes := name.filter Text.Utf8.isValid

/-- The request that names and numbers in good form stand for. -/
def fileRequest? (pattern wholeFile : Int) (names : FileNames) : Option Engine.FileRequest := do
  let encoder ← nameText? names.encoder
  let input ← nameText? names.input
  let output ← nameText? names.output
  let errors ← nameText? names.errors
  return { pattern := handleOf pattern, encoder, input, output, errors,
           wholeFile := wholeFile != 0 }

theorem inputBytes_toOption (call name : String) (s : InString) :
    (inputBytes call name s).toOption = inputBytes? s := by
  cases s with
  | missing => rfl
  | hollow length =>
    unfold inputBytes inputBytes?
    dsimp only
    split <;> rfl
  | bytes bytes => rfl

theorem nameText_toOption (call name : String) (t : Option Bytes) :
    (nameText call name t).toOption = nameText? t := by
  cases t with
  | none => rfl
  | some bytes =>
    unfold nameText nameText? Option.filter
    dsimp only
    cases Text.Utf8.isValid bytes <;> rfl

theorem toOption_bind {α β : Type} (r : Except Fault α) (f : α → Except Fault β) :
    (r >>= f).toOption = r.toOption.bind fun x => (f x).toOption := by
  cases r <;> rfl

theorem fileRequest_toOption (pattern wholeFile : Int) (names : FileNames) :
    (fileRequest pattern wholeFile names).toOption = fileRequest? pattern wholeFile names := by
  unfold fileRequest fileRequest?
  simp only [toOption_bind, nameText_toOption]
  rfl

/-- A foreign call with its arguments and its cells. -/
inductive Invocation where
  | memoryLimit (cells : LimitCells)
  | config (cell : Cell OutString)
  | searchPath (cell : Cell OutString)
  | compile (expression : InString) (cells : CompileCells)
  | free (pattern : Int)
  | matchInput (pattern start : Int) (encoder : Option Bytes) (input : InString)
      (cell : Cell MatchCell)
  | trace (pattern start : Int) (style : Option Bytes) (input : InString) (cells : TraceCells)
  | load (source : InString) (cells : LoadCells)
  | loadFile (path : InString) (cells : LoadCells)
  | importPackage (package under : InString) (cells : LoadCells)
  | matchFile (pattern wholeFile : Int) (names : FileNames) (cells : FileCells)

/-- What is left, with other cells. -/
def Answer.map {δ : Type} (f : γ → δ) (a : Answer σ γ) : Answer σ δ :=
  ⟨a.status, f a.cells, a.world, a.engine⟩

namespace Invocation

/-- Makes the call. What is left is the invocation with what is in its cells by then. -/
def run (world : World) (e : Option (Engine σ)) : Invocation → Answer σ Invocation
  | .memoryLimit cells => (guarded ForeignCall.memoryLimit cells world e).map .memoryLimit
  | .config cell => (guarded ForeignCall.config cell world e).map .config
  | .searchPath cell => (guarded ForeignCall.searchPath cell world e).map .searchPath
  | .compile expression cells =>
    (guarded (ForeignCall.compile expression) cells world e).map (.compile expression)
  | .free pattern => (guarded (ForeignCall.free pattern) () world e).map fun _ => .free pattern
  | .matchInput pattern start encoder input cell =>
    (guarded (ForeignCall.matchInput pattern start encoder input) cell world e).map
      (.matchInput pattern start encoder input)
  | .trace pattern start style input cells =>
    (guarded (ForeignCall.trace pattern start style input) cells world e).map
      (.trace pattern start style input)
  | .load source cells => (guarded (ForeignCall.load source) cells world e).map (.load source)
  | .loadFile path cells => (guarded (ForeignCall.loadFile path) cells world e).map (.loadFile path)
  | .importPackage package under cells =>
    (guarded (ForeignCall.importPackage package under) cells world e).map
      (.importPackage package under)
  | .matchFile pattern wholeFile names cells =>
    (guarded (ForeignCall.matchFile pattern wholeFile names) cells world e).map
      (.matchFile pattern wholeFile names)

/-- The call of the engine that an invocation stands for, unless an argument is missing or in bad
form. -/
def call? : Invocation → Option Call
  | .memoryLimit cells => do
    let requested ← cells.newLimit
    if requested = queryRequest then return .queryLimit
    if requested < 0 then none
    return .setLimit requested.toNat
  | .config cell => do
    let _ ← cell
    return .config
  | .searchPath cell => do
    match ← cell with
    | .bytes bytes => return .setSearchPath (Text.Utf8.lossy bytes)
    | .null _ => return .searchPath
  | .compile expression cells => do
    let expression ← inputBytes? expression
    let _ ← cells.pattern
    return .compile expression
  | .free pattern => some (.free (handleOf pattern))
  | .matchInput pattern start encoder input cell => do
    let encoder ← nameText? encoder
    let input ← inputBytes? input
    let _ ← cell
    return .matchInput (handleOf pattern) start encoder input
  | .trace pattern start style input cells => do
    let style ← nameText? style
    let input ← inputBytes? input
    let _ ← cells.trace
    return .trace (handleOf pattern) start style input
  | .load source _ => do
    return .load (← inputBytes? source)
  | .loadFile path _ => do
    return .loadFile (Text.Utf8.lossy (← inputBytes? path))
  | .importPackage package under _ => do
    return .importPackage (Text.Utf8.lossy (← inputBytes? package))
      ((optionalBytes under).map Text.Utf8.lossy)
  | .matchFile pattern wholeFile names _ => do
    return .matchFile (← fileRequest? pattern wholeFile names)

/-- The cells with the outcome of loading or importing. -/
def loaded (cells : LoadCells) (outcome : Engine.LoadOutcome) : Except Fault LoadCells := do
  let diagnostics ← handOutSome outcome.diagnostics
  let package ← handOutSome outcome.package
  return ⟨cells.ok.put (ofFlag outcome.ok), cells.package.put package, cells.errors.put diagnostics⟩

/-- An invocation with what a call has returned in every one of its cells, unless a string is too
long. The cell with a search path that has been set is not for writing. -/
def fill : Invocation → Call.Outcome → Except Fault Invocation
  | .memoryLimit cells, .limit usage =>
    return .memoryLimit ⟨cells.newLimit.put (clampInt usage.megabytes),
      cells.usage.put (clampInt (signed64 usage.kilobytes))⟩
  | .config cell, .config document => do
    return .config (cell.put (← handOutSome document))
  | .searchPath cell, .searchPath path => do
    return .searchPath (cell.put (← handOut "string" path))
  | .compile expression cells, .compiled outcome => do
    if maxHandle < outcome.pattern.number then throw .handlesExhausted
    return .compile expression ⟨cells.pattern.put outcome.pattern.number,
      cells.errors.put (← handOutSome outcome.diagnostics)⟩
  | .matchInput pattern start encoder input cell, .matched outcome data => do
    let data ← handOutData outcome.data data
    return .matchInput pattern start encoder input (cell.put {
      data
      leftover := clampInt outcome.leftover
      abend := ofFlag outcome.abend
      totalTime := clampInt outcome.totalTime
      matchTime := clampInt outcome.matchTime })
  | .trace pattern start style input cells, .traced outcome => do
    let (flag, string) ← handOutTrace outcome
    return .trace pattern start style input
      ⟨cells.matched.put (ofFlag flag), cells.trace.put string⟩
  | .load source cells, .loaded outcome => return .load source (← loaded cells outcome)
  | .loadFile path cells, .loaded outcome => return .loadFile path (← loaded cells outcome)
  | .importPackage package under cells, .loaded outcome =>
    return .importPackage package under (← loaded cells outcome)
  | .matchFile pattern wholeFile names cells, .fileMatched outcome => do
    let numbers := fileNumbers outcome
    let message ← handOutSome numbers.message
    return .matchFile pattern wholeFile names ⟨cells.records.put numbers.records,
      cells.results.put numbers.results, cells.misses.put numbers.misses, cells.message.put message⟩
  | i, _ => return i

/-- What is left when a call has ended and what it returned is filled in. -/
def conclude (i : Invocation) (ending : Call.Ending σ) : Answer σ Invocation :=
  match ending.result.bind i.fill with
  | .ok i' => ⟨success, i', ending.world, some ending.engine⟩
  | .error fault => ⟨status fault, i, ending.world, some ending.engine⟩

/-- What is left by an invocation: what the call of the engine comes to, if there is one for it, and
else nothing but a fault. -/
def Leaves (i : Invocation) (left : World → Engine σ → Answer σ Invocation) : Option Call → Prop
  | some call => ∀ world e, left world e = i.conclude (call.make world e)
  | none => ∀ world e, ∃ fault, left world e = ⟨status fault, i, world, some e⟩

/-- The same for an invocation that is made by a step. -/
def Stands (step : Step σ γ Unit) (cells : γ) (invoke : γ → Invocation) : Option Call → Prop :=
  (invoke cells).Leaves fun world e => (guarded step cells world (some e)).map invoke

section

variable {α : Type} {step step' : Step σ γ Unit} {cells : γ} {invoke : γ → Invocation}
  {stood : Option Call}

theorem stands_congr (h : ∀ world e, step.run ⟨cells, world, e⟩ = step'.run ⟨cells, world, e⟩)
    (hs : Stands step' cells invoke stood) : Stands step cells invoke stood := by
  have hguarded : ∀ world e,
      guarded step cells world (some e) = guarded step' cells world (some e) := by
    intro world e
    rw [guarded_some, guarded_some, h world e]
  unfold Stands
  simp only [hguarded]
  exact hs

/-! ## Arguments -/

/-- A step that looks at an argument or a cell and changes nothing. It ends in a fault when there is
nothing in good form. -/
def Checks (check : Step σ γ α) (cells : γ) : Option α → Prop
  | some x => ∀ world e, check.run ⟨cells, world, e⟩ = (.ok x, ⟨cells, world, e⟩)
  | none => ∀ world e, ∃ fault, check.run ⟨cells, world, e⟩ = (.error fault, ⟨cells, world, e⟩)

theorem checks_lift (r : Except Fault α) : Checks (liftM r : Step σ γ α) cells r.toOption := by
  cases r with
  | error fault => exact fun world e => ⟨fault, rfl⟩
  | ok x => exact fun world e => rfl

theorem checks_input (call name : String) (s : InString) :
    Checks (liftM (inputBytes call name s) : Step σ γ Bytes) cells (inputBytes? s) := by
  rw [← inputBytes_toOption call name]
  exact checks_lift _

theorem checks_name (call name : String) (t : Option Bytes) :
    Checks (liftM (nameText call name t) : Step σ γ Bytes) cells (nameText? t) := by
  rw [← nameText_toOption call name]
  exact checks_lift _

theorem checks_need (cell : γ → Cell α) (call name : String) :
    Checks (need cell call name : Step σ γ α) cells (cell cells) := by
  cases hc : cell cells with
  | none => exact fun world e => ⟨_, by rw [run_need, hc]⟩
  | some old => exact fun world e => by rw [run_need, hc]

theorem stands_fault
    (h : ∀ world e, ∃ fault, step.run ⟨cells, world, e⟩ = (.error fault, ⟨cells, world, e⟩)) :
    Stands step cells invoke none := by
  intro world e
  obtain ⟨fault, hfault⟩ := h world e
  refine ⟨fault, ?_⟩
  dsimp only
  rw [guarded_some, hfault]
  rfl

theorem stands_check {check : Step σ γ α} {f : α → Step σ γ Unit} {checked : Option α}
    {g : α → Option Call} (hc : Checks check cells checked)
    (h : ∀ x, checked = some x → Stands (f x) cells invoke (g x)) :
    Stands (check >>= f) cells invoke (checked.bind g) := by
  cases checked with
  | none =>
    refine stands_fault fun world e => ?_
    obtain ⟨fault, hfault⟩ := hc world e
    exact ⟨fault, by rw [run_bind, hfault]⟩
  | some x =>
    refine stands_congr (fun world e => ?_) (h x rfl)
    rw [run_bind, hc world e]

/-! ## Asking the engine -/

theorem stands_ask {asking : Step σ γ α} {f : α → Step σ γ Unit} {call : Call}
    {filled : α → Engine σ → γ → Except Fault γ} (outcome : Engine σ → α → Call.Outcome)
    (ha : ∀ world e, ∃ r world' e', asking.run ⟨cells, world, e⟩ = (r, ⟨cells, world', e'⟩) ∧
      call.make world e = ⟨r.map (outcome e'), world', e'⟩)
    (hf : ∀ x, Fills (f x) (filled x))
    (hfill : ∀ x e, (invoke cells).fill (outcome e x) = (filled x e cells).map invoke) :
    Stands (asking >>= f) cells invoke (some call) := by
  intro world e
  obtain ⟨r, world', e', hrun, hmake⟩ := ha world e
  dsimp only
  rw [guarded_some, run_bind, hrun, conclude, hmake]
  cases r with
  | error fault => rfl
  | ok x =>
    dsimp only [Except.map, Except.bind]
    rw [hf x, hfill x e']
    cases filled x e' cells <;> rfl

end

/-! ## Every invocation -/

theorem limit_fills (usage : Engine.Usage) : Fills (σ := σ) (do
      write fun cells : LimitCells =>
        { cells with newLimit := cells.newLimit.put (clampInt usage.megabytes) }
      write fun cells : LimitCells =>
        { cells with usage := cells.usage.put (clampInt (signed64 usage.kilobytes)) })
      fun _ cells => .ok ⟨cells.newLimit.put (clampInt usage.megabytes),
        cells.usage.put (clampInt (signed64 usage.kilobytes))⟩ :=
  fills_write_bind (fills_write _)

theorem memoryLimit_stands (cells : LimitCells) :
    Stands (σ := σ) ForeignCall.memoryLimit cells .memoryLimit (call? (.memoryLimit cells)) := by
  refine stands_check (checks_need _ _ _) fun requested _ => ?_
  by_cases hquery : requested = queryRequest
  · simp only [hquery, ↓reduceIte]
    exact stands_ask (fun _ => .limit) (fun world e => ⟨_, _, _, rfl, rfl⟩) limit_fills
      fun usage e => rfl
  · by_cases hnegative : requested < 0
    · simp only [hquery, hnegative, ↓reduceIte]
      exact stands_fault fun world e => ⟨_, by rw [run_bind, run_throw]⟩
    · simp only [hquery, hnegative, ↓reduceIte]
      exact stands_ask (fun _ => .limit) (fun world e => ⟨_, _, _, rfl, rfl⟩) limit_fills
        fun usage e => rfl

theorem config_stands (cell : Cell OutString) :
    Stands (σ := σ) ForeignCall.config cell .config (call? (.config cell)) := by
  refine stands_check (checks_need _ _ _) fun old _ => ?_
  refine stands_ask (fun _ => .config) (fun world e => ⟨_, _, _, rfl, rfl⟩)
    (fun document => fills_lift fun string => fills_write _) fun document e => ?_
  delta fill
  dsimp only
  cases handOutSome document <;> rfl

theorem searchPath_stands (cell : Cell OutString) :
    Stands (σ := σ) ForeignCall.searchPath cell .searchPath (call? (.searchPath cell)) := by
  refine stands_check (checks_need _ _ _) fun old _ => ?_
  cases old with
  | bytes bytes =>
    let set : Step σ (Cell OutString) Unit := ask (Engine.setSearchPath · (Text.Utf8.lossy bytes))
    have hset : ∀ world e, set.run ⟨cell, world, e⟩ =
        (do set; pure () : Step σ (Cell OutString) Unit).run ⟨cell, world, e⟩ := by
      intro world e
      rw [run_bind, run_ask]
      dsimp only
      cases ((Engine.setSearchPath world.files (Text.Utf8.lossy bytes)).run e).1 <;> rfl
    refine stands_congr hset ?_
    exact stands_ask (fun _ _ => .searchPathSet) (fun world e => ⟨_, _, _, rfl, rfl⟩)
      (fun _ => fills_pure) fun _ e => rfl
  | null code =>
    refine stands_ask (fun _ => .searchPath) (fun world e => ⟨_, _, _, rfl, rfl⟩)
      (fun path => fills_lift fun string => fills_write _) fun path e => ?_
    delta fill
    dsimp only
    cases handOut "string" path <;> rfl

theorem compile_stands (expression : InString) (cells : CompileCells) :
    Stands (σ := σ) (ForeignCall.compile expression) cells (.compile expression)
      (call? (.compile expression cells)) := by
  refine stands_check (checks_input _ _ _) fun bytes _ => ?_
  refine stands_check (checks_need _ _ _) fun old _ => ?_
  have hfills : ∀ compiled : Engine.Compiled, Fills (σ := σ) (do
      if maxHandle < compiled.pattern.number then throw .handlesExhausted
      let diagnostics ← handOutSome compiled.diagnostics
      write fun cells : CompileCells =>
        { cells with pattern := cells.pattern.put compiled.pattern.number }
      write fun cells : CompileCells => { cells with errors := cells.errors.put diagnostics })
      fun _ cells =>
        if maxHandle < compiled.pattern.number then .error .handlesExhausted
        else (handOutSome compiled.diagnostics).bind fun diagnostics =>
          .ok ⟨cells.pattern.put compiled.pattern.number, cells.errors.put diagnostics⟩ := by
    intro compiled
    dsimp only
    split
    · exact fun _ => rfl
    · exact fills_lift fun diagnostics => fills_write_bind (fills_write _)
  refine stands_ask (fun _ => .compiled) (fun world e => ⟨_, _, _, rfl, rfl⟩) hfills
    fun compiled e => ?_
  delta fill
  dsimp only
  split
  · rfl
  · cases handOutSome compiled.diagnostics <;> rfl

theorem matchInput_stands (pattern start : Int) (encoder : Option Bytes) (input : InString)
    (cell : Cell MatchCell) :
    Stands (σ := σ) (ForeignCall.matchInput pattern start encoder input) cell
      (.matchInput pattern start encoder input)
      (call? (.matchInput pattern start encoder input cell)) := by
  refine stands_check (checks_name _ _ _) fun encoder _ => ?_
  refine stands_check (checks_input _ _ _) fun input _ => ?_
  refine stands_check (checks_need _ _ _) fun old _ => ?_
  refine stands_ask (fun e outcome => .matched outcome (e.data outcome.data))
    (fun world e => ⟨_, _, _, rfl, rfl⟩)
    (fun outcome => fills_get (r := fun e => handOutData outcome.data (e.data outcome.data))
      fun _ => fills_write _) fun outcome e => ?_
  delta fill
  dsimp only
  cases handOutData outcome.data (e.data outcome.data) <;> rfl

theorem trace_stands (pattern start : Int) (style : Option Bytes) (input : InString)
    (cells : TraceCells) :
    Stands (σ := σ) (ForeignCall.trace pattern start style input) cells
      (.trace pattern start style input) (call? (.trace pattern start style input cells)) := by
  refine stands_check (checks_name _ _ _) fun style _ => ?_
  refine stands_check (checks_input _ _ _) fun input _ => ?_
  refine stands_check (checks_need _ _ _) fun old _ => ?_
  refine stands_ask (fun _ => .traced) (fun world e => ⟨_, _, _, rfl, rfl⟩)
    (fun outcome => fills_lift fun made => fills_write_bind (fills_write _)) fun outcome e => ?_
  delta fill
  dsimp only
  cases handOutTrace outcome <;> rfl

/-- The calls that load or import differ in what they ask for. -/
theorem loaded_fills (outcome : Engine.LoadOutcome) :
    Fills (σ := σ) (putLoad outcome) fun _ cells => loaded cells outcome :=
  fills_lift fun _ => fills_lift fun _ =>
    fills_write_bind (fills_write_bind (fills_write _))

theorem load_stands (source : InString) (cells : LoadCells) :
    Stands (σ := σ) (ForeignCall.load source) cells (.load source)
      (call? (.load source cells)) := by
  refine stands_check (checks_input _ _ _) fun bytes _ => ?_
  refine stands_ask (fun _ => .loaded) (fun world e => ⟨_, _, _, rfl, rfl⟩) loaded_fills
    fun outcome e => ?_
  delta fill
  dsimp only
  cases loaded cells outcome <;> rfl

theorem loadFile_stands (path : InString) (cells : LoadCells) :
    Stands (σ := σ) (ForeignCall.loadFile path) cells (.loadFile path)
      (call? (.loadFile path cells)) := by
  refine stands_check (checks_input _ _ _) fun bytes _ => ?_
  refine stands_ask (fun _ => .loaded) (fun world e => ⟨_, _, _, rfl, rfl⟩) loaded_fills
    fun outcome e => ?_
  delta fill
  dsimp only
  cases loaded cells outcome <;> rfl

theorem importPackage_stands (package under : InString) (cells : LoadCells) :
    Stands (σ := σ) (ForeignCall.importPackage package under) cells (.importPackage package under)
      (call? (.importPackage package under cells)) := by
  refine stands_check (checks_input _ _ _) fun bytes _ => ?_
  refine stands_ask (fun _ => .loaded) (fun world e => ⟨_, _, _, rfl, rfl⟩) loaded_fills
    fun outcome e => ?_
  delta fill
  dsimp only
  cases loaded cells outcome <;> rfl

theorem free_stands (pattern : Int) :
    Stands (σ := σ) (ForeignCall.free pattern) () (fun _ => .free pattern)
      (call? (.free pattern)) := by
  unfold ForeignCall.free
  split
  · exact stands_ask (fun _ => .freed) (fun world e => ⟨_, _, _, rfl, rfl⟩) (fun _ => fills_pure)
      fun found e => rfl
  · rename_i hnegative
    intro world e
    have hnone : handleOf pattern = .none := if_pos (by omega)
    rw [hnone]
    rfl

theorem matchFile_stands (pattern wholeFile : Int) (names : FileNames) (cells : FileCells) :
    Stands (σ := σ) (ForeignCall.matchFile pattern wholeFile names) cells
      (.matchFile pattern wholeFile names) (call? (.matchFile pattern wholeFile names cells)) := by
  have hchecks : Checks (liftM (fileRequest pattern wholeFile names) : Step σ FileCells _) cells
      (fileRequest? pattern wholeFile names) := by
    rw [← fileRequest_toOption]
    exact checks_lift _
  refine stands_check hchecks fun request _ => ?_
  refine stands_ask (fun _ => .fileMatched) (fun world e => ⟨_, _, _, rfl, rfl⟩)
    (fun outcome => fills_lift fun message =>
      fills_write_bind (fills_write_bind (fills_write_bind (fills_write _)))) fun outcome e => ?_
  delta fill
  dsimp only
  cases handOutSome (fileNumbers outcome).message <;> rfl

/-- Every foreign call comes to the call of the engine that it stands for. -/
theorem run_leaves (i : Invocation) :
    i.Leaves (fun world (e : Engine σ) => i.run world (some e)) i.call? := by
  cases i with
  | memoryLimit cells => exact memoryLimit_stands cells
  | config cell => exact config_stands cell
  | searchPath cell => exact searchPath_stands cell
  | compile expression cells => exact compile_stands expression cells
  | free pattern => exact free_stands pattern
  | matchInput pattern start encoder input cell => exact matchInput_stands _ _ _ _ cell
  | trace pattern start style input cells => exact trace_stands _ _ _ _ cells
  | load source cells => exact load_stands source cells
  | loadFile path cells => exact loadFile_stands path cells
  | importPackage package under cells => exact importPackage_stands package under cells
  | matchFile pattern wholeFile names cells => exact matchFile_stands _ _ _ cells

variable {i : Invocation} {call : Call}

/-- An invocation in good form makes the call that it stands for, and fills in what it returns. -/
theorem run_eq (h : i.call? = some call) (world : World) (e : Engine σ) :
    i.run world (some e) = i.conclude (call.make world e) := by
  have hleaves := run_leaves (σ := σ) i
  rw [h] at hleaves
  exact hleaves world e

/-- An invocation in bad form leaves everything as it was. -/
theorem run_malformed (h : i.call? = none) (world : World) (e : Engine σ) :
    ∃ fault, i.run world (some e) = ⟨status fault, i, world, some e⟩ := by
  have hleaves := run_leaves (σ := σ) i
  rw [h] at hleaves
  exact hleaves world e

theorem run_none (i : Invocation) (world : World) :
    i.run world (none : Option (Engine σ)) = ⟨noEngine, i, world, none⟩ := by
  cases i <;> rfl

/-! ## What invocations leave -/

theorem status_neg (fault : Fault) : status fault < 0 := by
  unfold status
  split <;> decide

theorem status_ne (fault : Fault) : status fault ≠ success := Int.ne_of_lt (status_neg fault)

/-- What may be returned to an invocation. -/
inductive Fits : Invocation → Call.Outcome → Prop where
  | memoryLimit (cells : LimitCells) (usage : Engine.Usage) :
    Fits (.memoryLimit cells) (.limit usage)
  | config (cell : Cell OutString) (document : Option Bytes) :
    Fits (.config cell) (.config document)
  | searchPath (code : Nat) (path : Bytes) :
    Fits (.searchPath (some (.null code))) (.searchPath path)
  | searchPathSet (bytes : Bytes) : Fits (.searchPath (some (.bytes bytes))) .searchPathSet
  | compile (expression : InString) (cells : CompileCells) (outcome : Engine.Compiled) :
    Fits (.compile expression cells) (.compiled outcome)
  | free (pattern : Int) (found : Bool) : Fits (.free pattern) (.freed found)
  | matchInput (pattern start : Int) (encoder : Option Bytes) (input : InString)
    (cell : Cell MatchCell) (outcome : Engine.Outcome) (data : Option Bytes) :
    Fits (.matchInput pattern start encoder input cell) (.matched outcome data)
  | trace (pattern start : Int) (style : Option Bytes) (input : InString) (cells : TraceCells)
    (outcome : Engine.TraceOutcome) :
    Fits (.trace pattern start style input cells) (.traced outcome)
  | load (source : InString) (cells : LoadCells) (outcome : Engine.LoadOutcome) :
    Fits (.load source cells) (.loaded outcome)
  | loadFile (path : InString) (cells : LoadCells) (outcome : Engine.LoadOutcome) :
    Fits (.loadFile path cells) (.loaded outcome)
  | importPackage (package under : InString) (cells : LoadCells) (outcome : Engine.LoadOutcome) :
    Fits (.importPackage package under cells) (.loaded outcome)
  | matchFile (pattern wholeFile : Int) (names : FileNames) (cells : FileCells)
    (outcome : Engine.FileOutcome) :
    Fits (.matchFile pattern wholeFile names cells) (.fileMatched outcome)

theorem fits_of_make {world : World} {e : Engine σ} {o : Call.Outcome} (h : i.call? = some call)
    (ho : (call.make world e).result = .ok o) : i.Fits o := by
  cases i with
  | memoryLimit cells =>
    obtain ⟨requested, -, h⟩ := Option.bind_eq_some_iff.1 h
    dsimp only at h
    split at h
    · cases h
      obtain ⟨e', usage, -, rfl⟩ := Call.ending_eq_ok ho
      exact .memoryLimit cells usage
    · split at h
      · cases h
      · cases h
        obtain ⟨e', usage, -, rfl⟩ := Call.ending_eq_ok ho
        exact .memoryLimit cells usage
  | config cell =>
    obtain ⟨old, -, h⟩ := Option.bind_eq_some_iff.1 h
    cases h
    obtain ⟨e', document, -, rfl⟩ := Call.ending_eq_ok ho
    exact .config cell document
  | searchPath cell =>
    obtain ⟨old, rfl, h⟩ := Option.bind_eq_some_iff.1 h
    cases old with
    | null code =>
      cases h
      obtain ⟨e', path, -, rfl⟩ := Call.ending_eq_ok ho
      exact .searchPath code path
    | bytes bytes =>
      cases h
      obtain ⟨e', -, -, rfl⟩ := Call.ending_eq_ok ho
      exact .searchPathSet bytes
  | compile expression cells =>
    obtain ⟨bytes, -, h⟩ := Option.bind_eq_some_iff.1 h
    obtain ⟨old, -, h⟩ := Option.bind_eq_some_iff.1 h
    cases h
    obtain ⟨e', compiled, -, rfl⟩ := Call.ending_eq_ok ho
    exact .compile expression cells compiled
  | free pattern =>
    cases h
    obtain ⟨e', found, -, rfl⟩ := Call.ending_eq_ok ho
    exact .free pattern found
  | matchInput pattern start encoder input cell =>
    obtain ⟨name, -, h⟩ := Option.bind_eq_some_iff.1 h
    obtain ⟨bytes, -, h⟩ := Option.bind_eq_some_iff.1 h
    obtain ⟨old, -, h⟩ := Option.bind_eq_some_iff.1 h
    cases h
    obtain ⟨e', outcome, -, rfl⟩ := Call.ending_eq_ok ho
    exact .matchInput _ _ _ _ cell outcome _
  | trace pattern start style input cells =>
    obtain ⟨name, -, h⟩ := Option.bind_eq_some_iff.1 h
    obtain ⟨bytes, -, h⟩ := Option.bind_eq_some_iff.1 h
    obtain ⟨old, -, h⟩ := Option.bind_eq_some_iff.1 h
    cases h
    obtain ⟨e', outcome, -, rfl⟩ := Call.ending_eq_ok ho
    exact .trace _ _ _ _ cells outcome
  | load source cells =>
    obtain ⟨bytes, -, h⟩ := Option.bind_eq_some_iff.1 h
    cases h
    obtain ⟨e', outcome, -, rfl⟩ := Call.ending_eq_ok ho
    exact .load source cells outcome
  | loadFile path cells =>
    obtain ⟨bytes, -, h⟩ := Option.bind_eq_some_iff.1 h
    cases h
    obtain ⟨e', outcome, -, rfl⟩ := Call.ending_eq_ok ho
    exact .loadFile path cells outcome
  | importPackage package under cells =>
    obtain ⟨bytes, -, h⟩ := Option.bind_eq_some_iff.1 h
    cases h
    obtain ⟨e', outcome, -, rfl⟩ := Call.ending_eq_ok ho
    exact .importPackage package under cells outcome
  | matchFile pattern wholeFile names cells =>
    obtain ⟨request, -, h⟩ := Option.bind_eq_some_iff.1 h
    cases h
    obtain ⟨outcome, rfl⟩ := Call.matchFile_eq_ok ho
    exact .matchFile _ _ _ cells outcome

/-- What an invocation in good form has left when it succeeds. -/
theorem conclude_success {ending : Call.Ending σ} (h : (i.conclude ending).status = success) :
    ∃ outcome i', ending.result = .ok outcome ∧ i.fill outcome = .ok i' ∧
      i.conclude ending = ⟨success, i', ending.world, some ending.engine⟩ := by
  unfold conclude at h ⊢
  split at h
  · rename_i i' hfilled
    cases hresult : ending.result with
    | error fault =>
      rw [hresult] at hfilled
      cases hfilled
    | ok outcome =>
      rw [hresult] at hfilled
      exact ⟨outcome, i', rfl, hfilled, rfl⟩
  · exact absurd h (status_ne _)

theorem conclude_failure {ending : Call.Ending σ} (h : (i.conclude ending).status ≠ success) :
    (i.conclude ending).status < 0 ∧ (i.conclude ending).cells = i := by
  unfold conclude at h ⊢
  split
  · rename_i hfilled
    rw [hfilled] at h
    exact absurd rfl h
  · exact ⟨status_neg _, rfl⟩

/-- Without an engine, and in bad form, an invocation leaves nothing but its status. -/
theorem run_refused {world : World} {e : Option (Engine σ)} (h : e = none ∨ i.call? = none) :
    (i.run world e).status < 0 ∧ i.run world e = ⟨(i.run world e).status, i, world, e⟩ := by
  cases e with
  | none =>
    have hneg : noEngine < 0 := by decide
    rw [run_none]
    exact ⟨hneg, rfl⟩
  | some e =>
    obtain ⟨fault, hrun⟩ := run_malformed (h.resolve_left (by simp)) world e
    rw [hrun]
    exact ⟨status_neg fault, rfl⟩

end Invocation

end ForeignCall

end PatternEngine
