import PatternEngine.Json
import PatternEngine.Matcher
/-!
# Encoders

An encoder turns a match into the bytes that are handed out for it. Three encoders are built in;
every other name belongs to an extension, which the runtime module has to know.
-/
namespace PatternEngine

/-- The encoders that are built in (`NativeEncoder`). -/
inductive BuiltinEncoder where
  /-- an object with the range of the match, its text and its groups -/
  | json
  /-- the whole input -/
  | line
  /-- the bytes that were matched -/
  | matches
  deriving DecidableEq, Repr

/-- What an encoder knows of a match. -/
structure MatchRecord where
  name : Bytes
  input : Bytes
  span : Span
  captures : List Capture

namespace BuiltinEncoder

def all : List BuiltinEncoder := [.json, .line, .matches]

/-- The number by which an encoder is known to the matching primitive. -/
def code : BuiltinEncoder → Int
  | .json => 1
  | .line => 2
  | .matches => 3

def ofCode? (code : Int) : Option BuiltinEncoder := all.find? (·.code == code)

def name : BuiltinEncoder → Bytes
  | .json => text "json"
  | .line => text "line"
  | .matches => text "matches"

def ofName? (name : Bytes) : Option BuiltinEncoder := all.find? (·.name == name)

/-- The fields that describe a range of the input (`json_span`). Positions are counted from one. -/
def spanFields (name input : Bytes) (span : Span) : List (Bytes × Json) := [
  (text "type", .str name),
  (text "s", .int (span.start + 1)),
  (text "e", .int (span.stop + 1)),
  (text "data", .str (Text.Utf8.lossy (span.slice input)))]

/-- The document for a match (`json_record`); the groups are left out when there are none. -/
def document (r : MatchRecord) : Json :=
  let whole := spanFields r.name r.input r.span
  let subs := r.captures.map fun c => Json.ofFields (spanFields c.name r.input c.span)
  Json.ofFields (if subs.isEmpty then whole else whole ++ [(text "subs", .array subs)])

def encode : BuiltinEncoder → MatchRecord → Bytes
  | .json, r => (document r).render
  | .line, r => r.input
  | .matches, r => r.span.slice r.input

end BuiltinEncoder

/-- The encoder that a name stands for. -/
inductive Encoder where
  | builtin (encoder : BuiltinEncoder)
  | extension (name : Bytes)
  deriving DecidableEq, Repr

namespace Encoder

def resolve (name : Bytes) : Encoder :=
  -- a built-in name is never an extension; engines refuse modules that say otherwise
  match BuiltinEncoder.ofName? name with
  | some encoder => .builtin encoder
  | none => .extension name

/-- The code for the matching primitive; extensions have none, which is written as zero. -/
def code : Encoder → Int
  | .builtin encoder => encoder.code
  | .extension _ => 0

def name : Encoder → Bytes
  | .builtin encoder => encoder.name
  | .extension name => name

end Encoder

end PatternEngine
