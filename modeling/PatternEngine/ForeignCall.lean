import PatternEngine.Engine.Compile
import PatternEngine.Engine.Creation
import PatternEngine.Engine.FileMatch
import PatternEngine.Engine.Report
import PatternEngine.Engine.Trace
/-!
# Foreign calls

The engine as it is called from outside: every call has a status, takes strings that may be
missing, and hands out its results through cells that may be missing as well. A call checks its
arguments, asks the engine, turns what the engine says into numbers and strings, and writes these
to the cells one after the other. Whatever it has done by then stays done when it ends in a fault.
-/
namespace PatternEngine.ForeignCall

variable {σ γ α : Type}

/-! ## Status codes -/

def success : Int := 0

/-- The status of a fault (`status`). -/
def status : Fault → Int
  | .outOfMemory => -2
  | .home _ => -3
  | _ => -4

/-- The status of a call without an engine, which is that of most faults (`engine_ref`). -/
def noEngine : Int := -4

/-! ## Strings and numbers -/

inductive InString where
  /-- no string at all -/
  | missing
  /-- a length without bytes -/
  | hollow (length : Nat)
  | bytes (bytes : Bytes)
  deriving DecidableEq, Repr

/-- A string that is handed out: bytes, or a number in place of them. -/
inductive OutString where
  | null (code : Nat)
  | bytes (bytes : Bytes)
  deriving DecidableEq, Repr

def OutString.nothing : OutString := .null 0

/-- One more than the greatest length of a string (`wire_len`). -/
def lengthLimit : Nat := Nat.pow 2 32

/-- A number brought into the range of 32 bits (`clamp`). -/
def clampInt (n : Int) : Int := max (-(Nat.pow 2 31)) (min n (Nat.pow 2 31 - 1))

def signed64 (n : Nat) : Int := (n : Int).bmod (Nat.pow 2 64)

def ofFlag (b : Bool) : Int := if b then 1 else 0

def handOut (what : String) (bytes : Bytes) : Except Fault OutString :=
  if bytes.length < lengthLimit then .ok (.bytes bytes)
  else .error (.tooLong (text what) bytes.length)

/-- A string with these bytes, or the string for nothing (`owned_or_null`). -/
def handOutSome : Option Bytes → Except Fault OutString
  | some bytes => handOut "string" bytes
  | none => .ok .nothing

/-- The fault of a missing argument (`null_argument`). -/
def nullArgument (call name : String) : Fault := .contract (text call) (text "null " ++ text name)

/-- The bytes of a string that has to be there (`input_bytes`). One of length zero may do without
bytes. -/
def inputBytes (call name : String) : InString → Except Fault Bytes
  | .missing => .error (nullArgument call name)
  | .hollow length => if length = 0 then .ok [] else .error (nullArgument call name)
  | .bytes bytes => .ok bytes

def optionalBytes : InString → Option Bytes
  | .bytes bytes => some bytes
  | _ => none

/-- The text of a name, which has to be valid (`c_str`). -/
def nameText (call name : String) : Option Bytes → Except Fault Bytes
  | none => .error (nullArgument call name)
  | some bytes =>
    if Text.Utf8.isValid bytes then .ok bytes
    else .error (.contract (text call) (text name ++ text " is not valid UTF-8"))

/-! ## Cells -/

/-- Something to write a result to, with what it holds; it may be missing. -/
abbrev Cell (α : Type) := Option α

def Cell.put (cell : Cell α) (value : α) : Cell α := cell.map fun _ => value

/-- What a call works on: its cells, the world outside and the engine. -/
structure Scene (σ γ : Type) where
  cells : γ
  world : World
  engine : Engine σ

/-- A step of a call. -/
abbrev Step (σ γ α : Type) := ExceptT Fault (StateM (Scene σ γ)) α

/-- Reads a cell that has to be there (`null_argument`). -/
def need (cell : γ → Cell α) (call name : String) : Step σ γ α := do
  match cell (← get).cells with
  | some value => return value
  | none => throw (nullArgument call name)

def write (put : γ → γ) : Step σ γ Unit := modify fun s => { s with cells := put s.cells }

def ask (action : FileSystem → Action σ α) : Step σ γ α := fun s =>
  let (result, engine) := (action s.world.files).run s.engine
  (result, { s with engine })

structure Answer (σ γ : Type) where
  status : Int
  cells : γ
  world : World
  engine : Option (Engine σ)

/-- Makes a call: the status is that of its fault, if it ends in one (`guarded`). -/
def guarded (step : Step σ γ Unit) (cells : γ) (world : World) : Option (Engine σ) → Answer σ γ
  | none => ⟨noEngine, cells, world, none⟩
  | some engine =>
    match step.run ⟨cells, world, engine⟩ with
    | (.ok (), s) => ⟨success, s.cells, s.world, some s.engine⟩
    | (.error fault, s) => ⟨status fault, s.cells, s.world, some s.engine⟩

/-! ## Calls -/

/-- Makes an engine (`rosie_new`): the engine if it could be made, and what to say if not. -/
def newEngine (created : Except Fault (Engine σ)) (errors : Cell OutString) :
    Option (Engine σ) × Cell OutString :=
  match created with
  | .ok engine => (some engine, errors.put .nothing)
  | .error fault =>
    (none, errors.put ((handOut "string" fault.message).toOption.getD .nothing))

structure LimitCells where
  newLimit : Cell Int
  usage : Cell Int

def queryRequest : Int := -1

/-- Sets or asks for the memory limit (`rosie_alloc_limit`). -/
def memoryLimit : Step σ LimitCells Unit := do
  let requested ← need LimitCells.newLimit "rosie_alloc_limit" "newlimit"
  let current ←
    if requested = queryRequest then ask Engine.queryLimit
    else if requested < 0 then
      throw (.contract (text "rosie_alloc_limit") (text "negative limit " ++
        Bytes.ofInt requested))
    else ask (Engine.setLimit · requested.toNat)
  write fun cells => { cells with newLimit := cells.newLimit.put (clampInt current.megabytes) }
  write fun cells =>
    { cells with usage := cells.usage.put (clampInt (signed64 current.kilobytes)) }

/-- Reports the configuration (`rosie_config`). -/
def config : Step σ (Cell OutString) Unit := do
  let _ ← need id "rosie_config" "retval"
  let config ← handOutSome (← ask Engine.config)
  write (·.put config)

/-- Asks for the search path when the string in the cell has no bytes, and sets it otherwise
(`rosie_libpath`). -/
def searchPath : Step σ (Cell OutString) Unit := do
  match ← need id "rosie_libpath" "newpath" with
  | .bytes bytes => ask (Engine.setSearchPath · (Text.Utf8.lossy bytes))
  | .null _ =>
    let path ← handOut "string" (← ask Engine.searchPath)
    write (·.put path)

structure CompileCells where
  pattern : Cell Int
  errors : Cell OutString

/-- Compiles an expression (`rosie_compile`). -/
def compile (expression : InString) : Step σ CompileCells Unit := do
  let expression ← inputBytes "rosie_compile" "expression" expression
  -- checked before the engine is asked, so no pattern is kept for a cell that is not there
  let _ ← need CompileCells.pattern "rosie_compile" "pat"
  let compiled ← ask (Engine.compile · expression)
  if maxHandle < compiled.pattern.number then throw .handlesExhausted
  let diagnostics ← handOutSome compiled.diagnostics
  write fun cells => { cells with pattern := cells.pattern.put compiled.pattern.number }
  write fun cells => { cells with errors := cells.errors.put diagnostics }

/-- The handle that a number stands for (`handle`); negative numbers stand for none. -/
def handleOf (pattern : Int) : Handle := if pattern < 0 then .none else ⟨pattern.toNat⟩

/-- Frees a pattern (`rosie_free_rplx`). -/
def free (pattern : Int) : Step σ Unit Unit := do
  if 0 ≤ pattern then let _ ← ask fun _ => Engine.freePattern (handleOf pattern)

structure MatchCell where
  data : OutString
  leftover : Int
  abend : Int
  totalTime : Int
  matchTime : Int
  deriving DecidableEq, Repr

/-- The string for a match that has no data (`sentinel`). -/
def sentinel : Engine.DataSource → OutString
  | .noSuchPattern => .null 1
  | .noSuchEncoder => .null 2
  | .noMatch | .native | .scripted => .null 0

def handOutData (source : Engine.DataSource) : Option Bytes → Except Fault OutString
  | some bytes => handOut "match data" bytes
  | none => .ok (sentinel source)

/-- Matches an input (`rosie_match`). -/
def matchInput (pattern start : Int) (encoder : Option Bytes) (input : InString) :
    Step σ (Cell MatchCell) Unit := do
  let encoder ← nameText "rosie_match" "encoder" encoder
  let input ← inputBytes "rosie_match" "input" input
  let _ ← need id "rosie_match" "match"
  let outcome ← ask (Engine.matchInput · (handleOf pattern) start encoder input)
  let data ← handOutData outcome.data ((← get).engine.data outcome.data)
  write (·.put {
    data
    leftover := clampInt outcome.leftover
    abend := ofFlag outcome.abend
    totalTime := clampInt outcome.totalTime
    matchTime := clampInt outcome.matchTime })

structure TraceCells where
  matched : Cell Int
  trace : Cell OutString

def handOutTrace : Engine.TraceOutcome → Except Fault (Bool × OutString)
  | .noSuchPattern => .ok (false, .null 1)
  | .invalidStyle => .ok (false, .null 2)
  | .traced matched trace => return (matched, ← handOut "string" trace)

/-- Traces a match (`rosie_trace`). -/
def trace (pattern start : Int) (style : Option Bytes) (input : InString) :
    Step σ TraceCells Unit := do
  let style ← nameText "rosie_trace" "trace_style" style
  let input ← inputBytes "rosie_trace" "input" input
  -- the cell for the flag may be missing, the one for the trace may not
  let _ ← need TraceCells.trace "rosie_trace" "trace"
  let (matched, trace) ←
    handOutTrace (← ask (Engine.trace · (handleOf pattern) start style input))
  write fun cells => { cells with matched := cells.matched.put (ofFlag matched) }
  write fun cells => { cells with trace := cells.trace.put trace }

structure LoadCells where
  ok : Cell Int
  package : Cell OutString
  errors : Cell OutString

/-- Writes the outcome of loading or importing (`put_load_outcome`). -/
def putLoad (outcome : Engine.LoadOutcome) : Step σ LoadCells Unit := do
  let diagnostics ← handOutSome outcome.diagnostics
  let package ← handOutSome outcome.package
  write fun cells => { cells with ok := cells.ok.put (ofFlag outcome.ok) }
  write fun cells => { cells with package := cells.package.put package }
  write fun cells => { cells with errors := cells.errors.put diagnostics }

/-- Loads a source text (`rosie_load`). -/
def load (source : InString) : Step σ LoadCells Unit := do
  let source ← inputBytes "rosie_load" "src" source
  putLoad (← ask (Engine.load · source))

/-- Loads a source file (`rosie_loadfile`). -/
def loadFile (path : InString) : Step σ LoadCells Unit := do
  let path ← inputBytes "rosie_loadfile" "filename" path
  putLoad (← ask (Engine.loadFile · (Text.Utf8.lossy path)))

/-- Imports a package (`rosie_import`). -/
def importPackage (package under : InString) : Step σ LoadCells Unit := do
  let package ← inputBytes "rosie_import" "pkgname" package
  putLoad (← ask (Engine.importPackage · (Text.Utf8.lossy package)
    ((optionalBytes under).map Text.Utf8.lossy)))

structure FileNames where
  encoder : Option Bytes
  input : Option Bytes
  output : Option Bytes
  errors : Option Bytes

structure FileCells where
  records : Cell Int
  results : Cell Int
  misses : Cell Int
  message : Cell OutString

def fileRequest (pattern : Int) (wholeFile : Int) (names : FileNames) :
    Except Fault Engine.FileRequest := do
  let call := "rosie_matchfile"
  let encoder ← nameText call "encoder" names.encoder
  let input ← nameText call "infilename" names.input
  let output ← nameText call "outfilename" names.output
  let errors ← nameText call "errfilename" names.errors
  return { pattern := handleOf pattern, encoder, input, output, errors,
           wholeFile := wholeFile != 0 }

structure FileNumbers where
  records : Int
  results : Int
  misses : Int
  message : Option Bytes := none

def fileNumbers : Engine.FileOutcome → FileNumbers
  | .counts records results misses =>
    let count (n : Nat) := clampInt (signed64 n)
    { records := count records, results := count results, misses := count misses }
  -- no number of records is negative: -1 says that the next number is a code
  | .invalidEncoder => { records := -1, results := 2, misses := 0 }
  | .failed message => { records := -1, results := 3, misses := 0, message }
  | .noSuchPattern => { records := -1, results := 4, misses := 0 }

/-- Asks the engine to match a file, which may change the world. -/
def askFile (request : Engine.FileRequest) : Step σ γ Engine.FileOutcome := fun s =>
  let ((result, world), engine) := s.engine.matchFile request s.world
  (result, { s with world, engine })

/-- Matches a file (`rosie_matchfile`). -/
def matchFile (pattern wholeFile : Int) (names : FileNames) : Step σ FileCells Unit := do
  let request ← fileRequest pattern wholeFile names
  let numbers := fileNumbers (← askFile request)
  let message ← handOutSome numbers.message
  write fun cells => { cells with records := cells.records.put numbers.records }
  write fun cells => { cells with results := cells.results.put numbers.results }
  write fun cells => { cells with misses := cells.misses.put numbers.misses }
  write fun cells => { cells with message := cells.message.put message }

/-- A new string with the first `length` bytes at some place (`rosie_new_string`); without a place
it is empty. -/
def newString (message : Option Bytes) (length : Nat) : OutString :=
  if lengthLimit ≤ length then .nothing
  else .bytes ((message.getD []).take length)

end PatternEngine.ForeignCall
