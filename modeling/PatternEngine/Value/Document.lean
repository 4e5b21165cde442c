import PatternEngine.Json
import PatternEngine.Value.Heap
/-!
# Values as documents

A table with a sequence part becomes an array, any other one an object of its entries, and one with
nothing in it an empty array. Some values have no document: functions and the like, numbers that
are not finite, and tables that contain themselves or nest too deeply. The encoder knows the tables
that it is inside of by their addresses.
-/
namespace PatternEngine

/-- Why a value has no document. -/
inductive Undocumentable where
  | tooDeep
  | circular
  | notFinite (x : Decimal.Double)
  | valueType (name : Bytes)
  | keyType (name : Bytes)
  deriving DecidableEq

def maxDepth : Nat := 64

def Undocumentable.message : Undocumentable → Bytes
  | .tooDeep => text "nesting deeper than " ++ Bytes.ofNat maxDepth ++ text " levels"
  | .circular => text "cannot encode a table that contains itself"
  | .notFinite x => text "cannot encode non-finite number " ++ Decimal.plainText x
  | .valueType name => text "cannot encode a value of type " ++ name
  | .keyType name => text "cannot encode a key of type " ++ name

variable {α : Type} {m : Type → Type} [Monad m] [MonadExcept Undocumentable m]

/-- A number with a whole value is written as an integer; what is not finite has no document. -/
def floatDocument (x : Decimal.Double) : Except Undocumentable Json :=
  match x.toInt? with
  | some n => .ok (.int n)
  | none => if x.isFinite then .ok (.float x) else .error (.notFinite x)

/-- The name of the field for a key. -/
def Datum.keyName (key : Datum α) : Except Undocumentable Bytes :=
  match key with
  | .str bytes =>
    if Text.Utf8.isValid bytes then .ok bytes else .error (.keyType key.typeName)
  | .int n => .ok (Bytes.ofInt n)
  | .float x =>
    match x.toInt? with
    | some n => .ok (Bytes.ofInt n)
    | none => .ok (Decimal.plainText x)
  | .bool true => .ok (text "true")
  | .bool false => .ok (text "false")
  | key => .error (.keyType key.typeName)

namespace Table

/-- An entry of the sequence part goes to its slot; any other entry is skipped. -/
def fillSlot (inner : Datum α → m Json) (table : Table α) (items : List Json)
    (entry : Datum α × Datum α) : m (List Json) := do
  match table.slot? entry.1 with
  | some i => return items.set i (← inner entry.2)
  | none => return items

/-- The array of a table with a sequence part (`table_to_json_array`). A slot for which there is no
entry stays null. -/
def arrayDocument (inner : Datum α → m Json) (table : Table α) : m Json := do
  let nulls := List.replicate table.length Json.null
  return .array (← table.entries.foldlM (table.fillSlot inner) nulls)

/-- An entry goes to its field. Of two keys with one name the later is kept. -/
def fillField (inner : Datum α → m Json) (fields : List (Bytes × Json))
    (entry : Datum α × Datum α) : m (List (Bytes × Json)) := do
  let name ← MonadExcept.ofExcept entry.1.keyName
  return Json.insertField name (← inner entry.2) fields

/-- The object of a table without a sequence part (`table_to_json_object`). -/
def objectDocument (inner : Datum α → m Json) (table : Table α) : m Json := do
  let fields ← table.entries.foldlM (fillField inner) []
  -- nothing tells an empty object from an empty sequence
  return if fields.isEmpty then .array [] else .object fields

def document (inner : Datum α → m Json) (table : Table α) : m Json :=
  if 0 < table.length then table.arrayDocument inner else table.objectDocument inner

end Table

namespace Heap

/-- What the encoder keeps in mind: the tables that it is inside of, and how many (`Ctx`). -/
structure Context (α : Type) where
  visiting : List α
  depth : Nat

abbrev Encoding (α : Type) := ExceptT Undocumentable (StateM (Context α))

variable [DecidableEq α]

def enter (address : α) : Encoding α Unit := do
  let context ← get
  if maxDepth ≤ context.depth then throw .tooDeep
  else if address ∈ context.visiting then throw .circular
  else set { context with visiting := address :: context.visiting, depth := context.depth + 1 }

def leave (address : α) : Encoding α Unit :=
  modify fun context =>
    { context with visiting := context.visiting.erase address, depth := context.depth - 1 }

/-- The document of a datum (`table_to_json`), `inner` being that of what stands in a table. A table
that was entered is left again, also when something in it has no document. -/
def documentWith (heap : Heap α) (inner : Datum α → Encoding α Json) :
    Datum α → Encoding α Json
  | .nil => return .null
  | .bool b => return .bool b
  | .int n => return .int n
  | .float x => MonadExcept.ofExcept (floatDocument x)
  | .str bytes => return .str (Text.Utf8.lossy bytes)
  | .table address => do
    enter address
    try (heap address).document inner finally leave address
  | .other name => throw (.valueType name)

/-- The document of a datum in which tables nest at most this many levels deep. -/
def documentWithin (heap : Heap α) : Nat → Datum α → Encoding α Json
  -- no table is entered here: `enter` has refused it
  | 0 => heap.documentWith fun _ => throw .tooDeep
  | levels + 1 => heap.documentWith (heap.documentWithin levels)

/-- The document of a datum. No table is entered behind the deepest level, so there is always a
level left (`document_eq`). -/
def document (heap : Heap α) : Datum α → Encoding α Json := heap.documentWithin maxDepth

/-- The text of the document of a datum (`encode`). -/
def encode (heap : Heap α) (d : Datum α) : Except Undocumentable Bytes :=
  ((heap.document d).run { visiting := [], depth := 0 }).1.map Json.render

end Heap

/-- The text of a value's document. -/
def Value.encode (v : Value) : Except Undocumentable Bytes := v.layout.encode (v.datum [])

end PatternEngine
