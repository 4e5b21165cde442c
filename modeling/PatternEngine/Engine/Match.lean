import PatternEngine.Engine.Governor
import PatternEngine.Primitive
/-!
# Matching

A match with a built-in encoder goes straight to the matcher of the pattern. A match with an
extension goes through the module, which has to return five values: the result, the bytes left
over, whether it was cut short, and two times.
-/
namespace PatternEngine.Engine

variable {σ : Type}

/-- Where the bytes of a match are. -/
inductive DataSource where
  | noMatch
  | noSuchPattern
  | noSuchEncoder
  /-- with the results of built-in encoders -/
  | native
  /-- with the results of extensions -/
  | scripted
  deriving DecidableEq, Repr

structure Outcome where
  data : DataSource
  leftover : Int := 0
  abend : Bool := false
  totalTime : Int := 0
  matchTime : Int := 0
  deriving DecidableEq, Repr

def data (engine : Engine σ) : DataSource → Option Bytes
  | .native => some engine.nativeResult
  | .scripted => engine.previousScripted
  | .noMatch | .noSuchPattern | .noSuchEncoder => none

/-- Whether the module knows an extension encoder (`has_extension_encoder`). -/
def hasExtension (engine : Engine σ) (name : Bytes) : Bool := engine.slots.encoders.contains name

/-- Matches with a built-in encoder (`native_path`). -/
def nativeMatch (pattern : Value) (start : Int) (encoder : BuiltinEncoder) (input : Bytes) :
    Action σ Outcome := do
  match pattern.field (text "peg") with
  | .matcher m =>
    let encoded := Primitive.encodeMatch m input start encoder
    -- without a match nothing is left of the result before
    modify fun engine => { engine with nativeResult := encoded.data.getD [] }
    return {
      data := if encoded.data.isSome then .native else .noMatch
      leftover := encoded.leftover }
  | _ => violation "compile" (text "compiled pattern has no native matcher")

/-- An integer among the values of a match (`integer_at`). -/
def integer (what : String) (value : Value) : Action σ Int :=
  match value.toInt? with
  | some n => return n
  | none => violation "match" (text what ++ text " must be an integer, got " ++ value.typeName)

/-- Keeps the result of a match by an extension. -/
def keepResult (result : Value) : Action σ DataSource :=
  match result with
  | .result bytes => do
    modify fun engine => { engine with nativeResult := bytes }
    return .native
  | .bool false => return .noMatch
  | .str bytes => do
    modify fun engine => { engine with previousScripted := some bytes }
    return .scripted
  | result => violation "match" (text "unexpected result of type " ++ result.typeName)

/-- Checks the values of a match by an extension, from left to right (`decode`). The result is kept
last, when nothing else can be wrong. -/
def decode : List Value → Action σ Outcome
  | [result, leftover, abend, totalTime, matchTime] => do
    let leftover ← integer "leftover" leftover
    let some abend := abend.toBool? | violation "match" (text "abend must be a boolean")
    let totalTime ← integer "total time" totalTime
    let matchTime ← integer "match time" matchTime
    return { data := ← keepResult result, leftover, abend, totalTime, matchTime }
  | values => violation "match" (text "expected 5 values, got " ++ Bytes.ofNat values.length)

/-- Matches with an extension (`scripted_path`). The result of the last such match is given up
first. -/
def scriptedMatch (files : FileSystem) (pattern : Value) (start : Int) (encoder input : Bytes) :
    Action σ Outcome := do
  -- before the call, so it is gone also when the call raises
  modify fun engine => { engine with previousScripted := none }
  decode (← callMethod Methods.matchInput "match" files
    [pattern, .lent input, .int start, .str encoder])

/-- Looks up the pattern and the encoder, and matches (`dispatch`). -/
def dispatch (files : FileSystem) (handle : Handle) (start : Int) (encoder input : Bytes) :
    Action σ Outcome := do
  let engine ← get
  match engine.patterns.get? handle with
  | none => return { data := .noSuchPattern }
  | some pattern =>
    match Encoder.resolve encoder with
    | .builtin encoder => nativeMatch pattern start encoder input
    | .extension name =>
      if engine.hasExtension name then scriptedMatch files pattern start name input
      else return { data := .noSuchEncoder }

/-- Matches an input with a pattern (`match_input`), from a position on that is counted from one. -/
def matchInput (files : FileSystem) (handle : Handle) (start : Int) (encoder input : Bytes) :
    Action σ Outcome := do
  govern files
  dispatch files handle start encoder input

end PatternEngine.Engine
