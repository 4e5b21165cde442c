import PatternEngine.Value
/-!
# Tables in memory

In memory a table is known by its address. One table may be met in many places, also inside itself,
and it tells its entries in an order of its own. A value is laid out with its tables at the places
where they stand in it.
-/
namespace PatternEngine

/-- A value in memory. Functions, threads and userdata are told apart by the names of their types
only. -/
inductive Datum (α : Type) where
  | nil
  | bool (value : Bool)
  | int (value : Int)
  | float (value : Decimal.Double)
  | str (bytes : Bytes)
  | table (address : α)
  | other (typeName : Bytes)
  deriving DecidableEq

variable {α : Type}

namespace Datum

/-- The integer that a datum is; a float with a whole value counts as one. -/
def toInt? : Datum α → Option Int
  | .int n => some n
  | .float x => x.toInt?
  | _ => none

def typeName : Datum α → Bytes
  | .nil => text "nil"
  | .bool _ => text "boolean"
  | .int _ | .float _ => text "number"
  | .str _ => text "string"
  | .table _ => text "table"
  | .other name => name

end Datum

/-- What a table tells of itself: the length of its sequence part, and its entries in the order in
which they are enumerated. -/
structure Table (α : Type) where
  length : Nat
  entries : List (Datum α × Datum α)

/-- The slot, counted from zero, that a key stands for in the sequence part of a table. -/
def Table.slot? (table : Table α) (key : Datum α) : Option Nat :=
  match key.toInt? with
  | some n => if 1 ≤ n ∧ n ≤ table.length then some (n - 1).toNat else none
  | none => none

abbrev Heap (α : Type) := α → Table α

namespace Value

/-- Where a value stands in another one: which part to take, which part of that, and so on. -/
abbrev Path := List Nat

/-- What stands in a table: its items, then the key and the value of each field. -/
def parts : Value → List Value
  | .table items fields => items ++ fields.flatMap fun (key, value) => [key, value]
  | _ => []

def at? (v : Value) : Path → Option Value
  | [] => some v
  | i :: path =>
    match v.parts[i]? with
    | some part => part.at? path
    | none => none

/-- The datum for a value that stands at a place. A table has the place for its address. -/
def datum (path : Path) : Value → Datum Path
  | .nil => .nil
  | .bool b => .bool b
  | .int n => .int n
  | .float x => .float x
  | .str bytes => .str bytes
  | .table .. => .table path
  -- the enclosing table at this depth, which is none if the depth is too great
  | .ancestor depth =>
    if depth < path.length then .table (path.take depth) else .other (text "table")
  | v => .other v.typeName

def listedAt (path : Path) (items : List Value) : List (Datum Path × Datum Path) :=
  items.zipIdx.map fun (item, i) => (.int (i + 1), item.datum (path ++ [i]))

/-- The entries for the fields of a table at a place, behind its `n` items. -/
def namedAt (path : Path) (n : Nat) (fields : List (Value × Value)) :
    List (Datum Path × Datum Path) :=
  fields.zipIdx.map fun ((key, value), i) =>
    (key.datum (path ++ [n + 2 * i]), value.datum (path ++ [n + 2 * i + 1]))

/-- The table for a value at a place. A field at the place of an item would be a second entry of one
key; it is left out. -/
def tableAt (path : Path) (items : List Value) (fields : List (Value × Value)) : Table Path :=
  let n := items.length
  let listed : Table Path := ⟨n, listedAt path items⟩
  ⟨n, listed.entries ++ (namedAt path n fields).filter fun entry => (listed.slot? entry.1).isNone⟩

/-- The memory in which the tables of a value are laid out. -/
def layout (v : Value) : Heap Path := fun path =>
  match v.at? path with
  | some (.table items fields) => tableAt path items fields
  | _ => ⟨0, []⟩

end Value

end PatternEngine
