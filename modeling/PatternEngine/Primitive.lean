import PatternEngine.Encoder
import PatternEngine.Reply
import PatternEngine.Value.Document
/-!
# Primitives

The operations on matchers and buffers that a runtime module is built on. They take and return
values. Where an optional number is left out, or is no number, a default stands in for it.
-/
namespace PatternEngine.Primitive

/-- The argument at a place, counted from zero. -/
def argument (arguments : List Value) (i : Nat) : Value := arguments.getD i .nil

def inputBytes? : Value → Option Bytes
  | .str bytes | .lent bytes => some bytes
  | _ => none

def matcher? : Value → Option Matcher
  | .matcher m => some m
  | _ => none

/-- The message for an argument of the wrong type (`arg_error`); arguments are counted from one. -/
def badArgument (call : Bytes) (i : Nat) (expected : Bytes) : Reply :=
  .raised (text "bad argument #" ++ Bytes.ofNat i ++ text " to '" ++ call ++ text "' (" ++
    expected ++ text " expected)")

/-- The name of a matcher: a valid text, or else a star. -/
def matcherName : Value → Bytes
  | .str bytes => if Text.Utf8.isValid bytes then bytes else text "*"
  | _ => text "*"

/-- Compiles a source under a name (`peg_compile`): a matcher, or nil and a message. -/
def compile (arguments : List Value) : Reply :=
  match inputBytes? (argument arguments 0) with
  | none => badArgument (text "peg_compile") 1 (text "string")
  | some source =>
    match Matcher.compile source (matcherName (argument arguments 1)) with
    | .ok m => .returned [.matcher m]
    | .error rejection => .returned [.nil, .str rejection.message]

/-- What matching finds: whether the start lies in the input, and if so the index of the start
and the match there. -/
def matchAt (m : Matcher) (input : Bytes) (start : Int) : Option (Nat × Option Match) :=
  (startIndex start input.length).map fun index => (index, m.find input index)

/-- The groups of a match as one flat list: name, start, end of each, counted from one. -/
def captureList (captures : List Capture) : Value :=
  .table (captures.flatMap fun c =>
    [.str c.name, .int (c.span.start + 1), .int (c.span.stop + 1)]) []

/-- The values for what matching finds: start, end, bytes left over, time, groups. Without a match
the start is false, and end and groups are nil. -/
def matchValues (input : Bytes) : Option (Nat × Option Match) → List Value
  | some (_, some found) => [
    .int (found.span.start + 1), .int (found.span.stop + 1),
    .int (input.length - found.span.stop : Nat), .int 0, captureList found.captures]
  | some (index, none) => [.bool false, .nil, .int (input.length - index : Nat), .int 0, .nil]
  | none => [.bool false, .nil, .int 0, .int 0, .nil]

/-- Matches a matcher (`peg_match`). -/
def matchInput (arguments : List Value) : Reply :=
  match matcher? (argument arguments 0) with
  | none => badArgument (text "peg_match") 1 (text "peg")
  | some m =>
    match inputBytes? (argument arguments 1) with
    | none => badArgument (text "peg_match") 2 (text "string or buffer")
    | some input =>
      let start := ((argument arguments 2).toInt?).getD 1
      .returned (matchValues input (matchAt m input start))

/-- What matching with a built-in encoder gives: the encoded match if there is one, and the bytes
left over. -/
structure Encoded where
  data : Option Bytes
  leftover : Int

/-- Matches and encodes with a built-in encoder (`rmatch`). -/
def encodeMatch (m : Matcher) (input : Bytes) (start : Int) (encoder : BuiltinEncoder) :
    Encoded :=
  match matchAt m input start with
  | some (_, some found) =>
    ⟨some (encoder.encode ⟨m.name, input, found.span, found.captures⟩),
      (input.length - found.span.stop : Nat)⟩
  | some (index, none) => ⟨none, (input.length - index : Nat)⟩
  | none => ⟨none, 0⟩

/-- Matches a matcher and encodes the match with the built-in encoder of a code (`peg_rmatch`): a
buffer or false, bytes left over, whether it was cut short, and two times. -/
def matchEncoded (arguments : List Value) : Reply :=
  match matcher? (argument arguments 0) with
  | none => badArgument (text "peg_rmatch") 1 (text "peg")
  | some m =>
    match inputBytes? (argument arguments 1) with
    | none => badArgument (text "peg_rmatch") 2 (text "string or buffer")
    | some input =>
      let start := ((argument arguments 2).toInt?).getD 1
      let code := ((argument arguments 3).toInt?).getD 0
      match BuiltinEncoder.ofCode? code with
      | none => .raised (text "peg_rmatch: invalid encoder code " ++ Bytes.ofInt code)
      | some encoder =>
        let encoded := encodeMatch m input start encoder
        .returned [encoded.data.elim (.bool false) .result, .int encoded.leftover,
          .bool false, .int 0, .int 0]

def clamp (lo hi n : Int) : Int := max lo (min hi n)

/-- The bytes of a range, counted from one, the end not included. Bounds outside of the input are
moved to its ends. -/
def slice (input : Bytes) (start stop : Option Int) : Bytes :=
  let last : Int := input.length + 1
  let s := clamp 1 last (start.getD 1)
  -- an end before the start gives nothing
  let e := clamp s last (stop.getD last)
  (input.drop (s - 1).toNat).take (e - s).toNat

/-- The bytes of a range of a buffer (`buffer_sub`). -/
def bufferSlice (arguments : List Value) : Reply :=
  match inputBytes? (argument arguments 0) with
  | none => badArgument (text "buffer_sub") 1 (text "string or buffer")
  | some input =>
    .returned [.str (slice input (argument arguments 1).toInt? (argument arguments 2).toInt?)]

/-- The number of bytes of a buffer (`buffer_len`). -/
def bufferLength (arguments : List Value) : Reply :=
  match inputBytes? (argument arguments 0) with
  | none => badArgument (text "buffer_len") 1 (text "string or buffer")
  | some input => .returned [.int input.length]

/-- The text of a value's document (`json_encode`), or nil and a message. -/
def encodeValue (arguments : List Value) : Reply :=
  match (argument arguments 0).encode with
  | .ok document => .returned [.str document]
  | .error reason => .returned [.nil, .str reason.message]

end PatternEngine.Primitive
