import PatternEngine.Decimal.Double
import PatternEngine.Matcher
/-!
# Values

What passes between the engine and a runtime module. Tables come in a normal form: the values at
the keys 1, 2, … without a gap are its items, everything else is in its fields. Tables here are
trees; a table that contains itself is written with `ancestor`.
-/
namespace PatternEngine

open PatternEngine.Decimal (Double)

/-- A value that a runtime module takes or returns. -/
inductive Value where
  | nil
  | bool (value : Bool)
  | int (value : Int)
  | float (value : Double)
  | str (bytes : Bytes)
  | table (items : List Value) (fields : List (Value × Value))
  /-- the enclosing table at this depth, the outermost being zero -/
  | ancestor (depth : Nat)
  | function
  | thread
  /-- an object of no known kind -/
  | object
  | matcher (matcher : Matcher)
  /-- bytes that the matching primitive has produced -/
  | result (bytes : Bytes)
  /-- input bytes that are lent for one call; empty once they are taken back -/
  | lent (bytes : Bytes)
  deriving Inhabited

namespace Value

def typeName : Value → Bytes
  | .nil => text "nil"
  | .bool _ => text "boolean"
  | .int _ | .float _ => text "number"
  | .str _ => text "string"
  | .table .. | .ancestor _ => text "table"
  | .function => text "function"
  | .thread => text "thread"
  | .object | .matcher _ | .result _ | .lent _ => text "userdata"

def isNil : Value → Bool
  | .nil => true
  | _ => false

/-- Everything but nil and false counts as true. -/
def isTrue : Value → Bool
  | .nil | .bool false => false
  | _ => true

def isTable : Value → Bool
  | .table .. | .ancestor _ => true
  | _ => false

/-- Whether nothing is said: nil, or a table with nothing in it. -/
def isEmpty : Value → Bool
  | .nil | .table [] [] => true
  | _ => false

def toBool? : Value → Option Bool
  | .bool b => some b
  | _ => none

/-- The integer that a value is; a float with a whole value counts as one. -/
def toInt? : Value → Option Int
  | .int n => some n
  | .float x => x.toInt?
  | _ => none

def toBytes? : Value → Option Bytes
  | .str bytes => some bytes
  | _ => none

def sameKey : Value → Value → Bool
  | .bool a, .bool b => a == b
  | .int a, .int b => a == b
  | .float a, .float b => a == b
  | .str a, .str b => a == b
  | _, _ => false

/-- A key as tables keep it: a float with a whole value is an integer. -/
def normalKey : Value → Value
  | .float x => (x.toInt?).elim (.float x) .int
  | key => key

/-- Sets a key; the last value of a key is kept. -/
def setKey (key value : Value) : List (Value × Value) → List (Value × Value)
  | [] => [(key, value)]
  | (k, v) :: rest =>
    if sameKey key k then (k, value) :: rest else (k, v) :: setKey key value rest

def findKey? (key : Value) : List (Value × Value) → Option Value
  | [] => none
  | (k, v) :: rest => if sameKey key k then some v else findKey? key rest

/-- Takes the values at the keys from `next` on out of a list of entries, until one is missing. -/
def takeRun (entries : List (Value × Value)) : Nat → Nat → List Value
  | 0, _ => []
  | fuel + 1, next =>
    match findKey? (.int next) entries with
    | some v => v :: takeRun entries fuel (next + 1)
    | none => []

/-- The table with these entries. An entry without a value is none. -/
def ofEntries (entries : List (Value × Value)) : Value :=
  let kept := entries.foldl
    (fun kept (key, value) => if value.isNil then kept else setKey (normalKey key) value kept) []
  let items := takeRun kept kept.length 1
  .table items (kept.filter fun (key, _) =>
    match key with
    | .int n => !(1 ≤ n && n ≤ items.length)
    | _ => true)

/-- The sequence of these values; one that is nil leaves its place empty. -/
def ofList (values : List Value) : Value :=
  if values.any isNil then ofEntries (values.zipIdx.map fun (v, i) => (.int (i + 1), v))
  else .table values []

def record (fields : List (Bytes × Value)) : Value :=
  .table [] ((fields.filter fun (_, v) => !v.isNil).map fun (name, v) => (.str name, v))

/-- What stands at the keys 1, 2, … of a table. -/
def items : Value → List Value
  | .table items _ => items
  | _ => []

def field (name : Bytes) : Value → Value
  | .table _ fields => (findKey? (.str name) fields).getD .nil
  | _ => .nil

end Value

end PatternEngine
