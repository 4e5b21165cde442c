import PatternEngine.Engine.Match
import PatternEngine.World
/-!
# Matching files

A pattern is matched with every record of a file: with every line, or with the whole. The result
of a match goes to the output, a record without a match to the errors, each followed by a newline.
-/
namespace PatternEngine.Engine

variable {σ : Type}

/-- Which records to match with what, and where the results go. An empty path stands for a
standard stream. -/
structure FileRequest where
  pattern : Handle
  encoder : Bytes
  input : Bytes := []
  output : Bytes := []
  errors : Bytes := []
  wholeFile : Bool := false
  deriving DecidableEq, Repr

inductive FileOutcome where
  /-- the number of records, of results and of records without a match -/
  | counts (records results misses : Nat)
  | noSuchPattern
  | invalidEncoder
  /-- a file could not be opened or read -/
  | failed (message : Bytes)
  deriving DecidableEq, Repr

/-- The number of records between two checks of the memory in use (`GOVERN_INTERVAL`). -/
def governInterval : Nat := 256

inductive Stream where
  | output
  | errors
  deriving DecidableEq

/-- How far the records have been matched. -/
structure Tally where
  records : Nat := 0
  results : Nat := 0
  misses : Nat := 0
  /-- the bytes of all records read, with the newlines after them -/
  consumed : Nat := 0
  /-- what has been written, newest first -/
  written : List (Stream × Bytes) := []

namespace Tally

def addResult (t : Tally) (bytes : Bytes) : Tally :=
  { t with results := t.results + 1, written := (.output, bytes) :: t.written }

def addMiss (t : Tally) (record : Bytes) : Tally :=
  { t with misses := t.misses + 1, written := (.errors, record) :: t.written }

def contents (t : Tally) (stream : Stream) : Bytes :=
  t.written.foldl
    (fun rest (s, bytes) => if s = stream then bytes ++ Bytes.newline :: rest else rest) []

end Tally

/-- The records of an input. In line mode a newline ends a record, and what follows the last one
is a record only if it is not empty. -/
def recordsOf (wholeFile : Bool) (input : Bytes) : List Bytes :=
  if input.isEmpty then []
  else if wholeFile then [input]
  else
    let pieces := Bytes.splitOn Bytes.newline input
    if pieces.getLast? == some [] then pieces.dropLast else pieces

def matchRecord (files : FileSystem) (r : FileRequest) (number : Nat) (record : Bytes) :
    Action σ (Option Bytes) := do
  -- the first record has been governed with the whole file
  if number % governInterval = 0 then govern files
  let outcome ← dispatch files r.pattern 1 r.encoder record
  return (← get).data outcome.data

/-- Matches records in order, until one ends in a fault. -/
def matchRecords (files : FileSystem) (r : FileRequest) :
    Tally → List Bytes → Engine σ → (Except Fault Unit × Tally) × Engine σ
  | tally, [], engine => ((.ok (), tally), engine)
  | tally, record :: rest, engine =>
    -- counted before it is matched, so that a fault leaves it counted
    let tally := { tally with
      records := tally.records + 1
      consumed := tally.consumed + record.length + 1 }
    match (matchRecord files r tally.records record).run engine with
    | (.ok (some bytes), engine) => matchRecords files r (tally.addResult bytes) rest engine
    | (.ok none, engine) => matchRecords files r (tally.addMiss record) rest engine
    | (.error fault, engine) => ((.error fault, tally), engine)

/-- A file to write to, or a standard stream. -/
abbrev Target := Option Place

/-- Opens a file for writing, and makes it empty (`open_output`). -/
def openTarget (files : FileSystem) (path : Bytes) : Except FileError (Target × FileSystem) :=
  if path.isEmpty then .ok (none, files)
  else (files.create path).map fun (place, files) => (some place, files)

/-- What two writers leave in one file. At the end the writer `first` writes out its buffer
first. -/
def sharedContents (first : Stream) (written : List (Stream × Bytes)) : Bytes :=
  let start : (Writer × Writer) × Bytes := (({}, {}), [])
  let ((output, errors), contents) := written.reverse.foldl
    (fun (writers, contents) (stream, bytes) =>
      let put (w : Writer) (contents : Bytes) : Writer × Bytes :=
        let (w, contents) := w.write bytes contents
        w.write [Bytes.newline] contents
      match stream with
      | .output =>
        let (output, contents) := put writers.1 contents
        ((output, writers.2), contents)
      | .errors =>
        let (errors, contents) := put writers.2 contents
        ((writers.1, errors), contents))
    start
  match first with
  | .output => (errors.flush (output.flush contents).2).2
  | .errors => (output.flush (errors.flush contents).2).2

def deliver (world : World) (output errors : Target) (first : Stream) (tally : Tally) : World :=
  let results := tally.contents .output
  let misses := tally.contents .errors
  let put (files : FileSystem) (target : Target) (contents : Bytes) : FileSystem :=
    match target with
    | some place => files.put place contents
    | none => files
  if output.isSome && output = errors then
    { world with files := put world.files output (sharedContents first tally.written) }
  else
    { world with
      files := put (put world.files output results) errors misses
      stdout := if output.isNone then world.stdout ++ results else world.stdout
      stderr := if errors.isNone then world.stderr ++ misses else world.stderr }

/-- The failure to open or read a file (`io_failure`). -/
def fileFailure (path : Bytes) (error : FileError) : FileOutcome :=
  .failed (path ++ text ": " ++ error.message)

def matchInputFile (r : FileRequest) (output errors : Target) (world : World) (input : Bytes)
    (engine : Engine σ) : (Except Fault FileOutcome × World) × Engine σ :=
  let ((ended, tally), engine) :=
    matchRecords world.files r {} (recordsOf r.wholeFile input) engine
  let world :=
    if r.input.isEmpty then { world with stdin := input.drop tally.consumed } else world
  match ended with
  | .ok () =>
    ((.ok (.counts tally.records tally.results tally.misses),
      deliver world output errors .output tally), engine)
  -- after a fault the buffers are still written out, the one opened last first
  | .error fault => ((.error fault, deliver world output errors .errors tally), engine)

/-- Why the input cannot be opened (`open_input`). -/
def inputError? (files : FileSystem) (path : Bytes) : Option FileError :=
  if path.isEmpty then none
  else
    match files.find path with
    | .error error => some error
    | .ok _ => none

def readInput (world : World) (path : Bytes) : Except FileError Bytes :=
  if path.isEmpty then .ok world.stdin else world.files.read path

/-- Opens the files and matches the records (`process`). The input is opened first and read last, so
it is empty if it is also one of the others. -/
def processFile (r : FileRequest) (world : World) (engine : Engine σ) :
    (Except Fault FileOutcome × World) × Engine σ :=
  let fail (world : World) (path : Bytes) (error : FileError) :=
    ((.ok (fileFailure path error), world), engine)
  match inputError? world.files r.input with
  | some error => fail world r.input error
  | none =>
    match openTarget world.files r.output with
    | .error error => fail world r.output error
    -- from here on the output is empty, whatever comes of the rest
    | .ok (output, files) =>
      let world := { world with files }
      match openTarget world.files r.errors with
      | .error error => fail world r.errors error
      | .ok (errors, files) =>
        let world := { world with files }
        match readInput world r.input with
        | .ok input => matchInputFile r output errors world input engine
        | .error error => fail world r.input error

/-- Matches a file (`run`). No file is opened unless the pattern and the encoder are known. -/
def matchFile (engine : Engine σ) (r : FileRequest) (world : World) :
    (Except Fault FileOutcome × World) × Engine σ :=
  match (govern world.files).run engine with
  | (.error fault, engine) => ((.error fault, world), engine)
  | (.ok (), engine) =>
    if (engine.patterns.get? r.pattern).isNone then ((.ok .noSuchPattern, world), engine)
    else
      match Encoder.resolve r.encoder with
      | .builtin _ => processFile r world engine
      | .extension name =>
        if engine.hasExtension name then processFile r world engine
        else ((.ok .invalidEncoder, world), engine)

end PatternEngine.Engine
