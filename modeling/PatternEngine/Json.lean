import PatternEngine.Decimal.Shortest
import PatternEngine.Text.Utf8
/-!
# JSON documents

A document is written on one line without blanks. Strings hold text (valid UTF-8); a quote, a
backslash and every byte below a blank are escaped, all else is written as it is. Objects are
written in the order of their fields; `ofFields` puts these in the order of their names.
-/
namespace PatternEngine

/-- A JSON document. -/
inductive Json where
  | null
  | bool (value : Bool)
  | int (value : Int)
  | float (value : Decimal.Double)
  | str (value : Bytes)
  | array (items : List Json)
  | object (fields : List (Bytes × Json))
  deriving Inhabited

namespace Json

/-- Puts a field in its place by name; a field of that name already there is replaced. -/
def insertField (name : Bytes) (value : Json) : List (Bytes × Json) → List (Bytes × Json)
  | [] => [(name, value)]
  | (other, old) :: rest =>
    if name == other then (name, value) :: rest
    else if Bytes.lessThan name other then (name, value) :: (other, old) :: rest
    else (other, old) :: insertField name value rest

/-- An object with these fields; of two fields with one name the later is kept. -/
def ofFields (fields : List (Bytes × Json)) : Json :=
  .object (fields.foldl (fun sorted (name, value) => insertField name value sorted) [])

def hexDigit (n : Nat) : UInt8 := if n < 10 then (48 + n).toUInt8 else (87 + n).toUInt8

/-- A byte as it is written inside a string. -/
def escape (b : UInt8) : Bytes :=
  if b == 0x22 then [0x5C, 0x22]
  else if b == 0x5C then [0x5C, 0x5C]
  else if b == 8 then [0x5C, 0x62]
  else if b == 12 then [0x5C, 0x66]
  else if b == 10 then [0x5C, 0x6E]
  else if b == 13 then [0x5C, 0x72]
  else if b == 9 then [0x5C, 0x74]
  else if b < 0x20 then
    [0x5C, 0x75, 0x30, 0x30, hexDigit (b.toNat / 16), hexDigit (b.toNat % 16)]
  else [b]

def quote (s : Bytes) : Bytes := 0x22 :: s.flatMap escape ++ [0x22]

mutual

def render : Json → Bytes
  | .null => text "null"
  | .bool true => text "true"
  | .bool false => text "false"
  | .int n => Bytes.ofInt n
  | .float x => Decimal.documentText x
  | .str s => quote s
  | .array items => 0x5B :: renderItems items
  | .object fields => 0x7B :: renderFields fields

/-- The items of an array with the bracket that closes it. -/
def renderItems : List Json → Bytes
  | [] => [0x5D]
  | [item] => render item ++ [0x5D]
  | item :: items => render item ++ 0x2C :: renderItems items

/-- The fields of an object with the brace that closes it. -/
def renderFields : List (Bytes × Json) → Bytes
  | [] => [0x7D]
  | [(name, value)] => quote name ++ 0x3A :: render value ++ [0x7D]
  | (name, value) :: fields => quote name ++ 0x3A :: render value ++ 0x2C :: renderFields fields

end

end Json

end PatternEngine
