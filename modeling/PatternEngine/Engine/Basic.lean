import PatternEngine.Fault
import PatternEngine.HandleTable
import PatternEngine.RuntimeModule
/-!
# Engines

An engine is a runtime module that has started, the patterns it has compiled, a limit on the
memory the module may use, and the bytes of the last results. Operations act on an engine and
either return something or end in a fault; what they had changed until then stays changed.
-/
namespace PatternEngine

/-- The limit on memory: what was asked for, in megabytes, and the ceiling that follows from it,
in kilobytes; both are zero when there is no limit. -/
structure MemoryLimit where
  megabytes : Nat := 0
  ceiling : Nat := 0
  deriving DecidableEq, Repr

/-- What an engine uses of its module (`Slots`), as it was when the engine was made. A module may
change the tables that it has handed out later on: the methods of its engine object, the call for
its configuration, the names of its encoders. Each call would then look these up anew, which is not
described here. -/
structure Slots (σ : Type) where
  methods : Methods σ
  config : Option (EntryPoint σ)
  encoder : EntryPoint σ
  stripper : EntryPoint σ
  /-- the names of the extension encoders -/
  encoders : List Bytes
  collector : EntryPoint σ

structure Engine (σ : Type) where
  slots : Slots σ
  state : σ
  patterns : HandleTable Value := {}
  limit : MemoryLimit := {}
  /-- the text that the last match by an extension has left -/
  previousScripted : Option Bytes := none
  /-- the bytes of the last match by a built-in encoder -/
  nativeResult : Bytes := []

/-- An operation on an engine, which may end in a fault. -/
abbrev Action (σ α : Type) := ExceptT Fault (StateM (Engine σ)) α

namespace Engine

variable {σ : Type}

def violation {α : Type} (call : String) (detail : Bytes) : Action σ α :=
  throw (.contract (text call) detail)

/-- Calls an entry point (`call_function`). -/
def call (entry : EntryPoint σ) (name : String) (files : FileSystem) (arguments : List Value) :
    Action σ (List Value) := do
  let engine ← get
  let (reply, state) := entry files arguments engine.state
  set { engine with state }
  match reply with
  | .returned values => return values
  | .raised message => throw (.raised (text name) message)

/-- Calls a method of the engine object, if it has that method (`call_method`). -/
def callMethod (method : Methods σ → Option (EntryPoint σ)) (name : String) (files : FileSystem)
    (arguments : List Value) : Action σ (List Value) := do
  match method (← get).slots.methods with
  | some entry => call entry name files arguments
  | none => throw (.missing (text name))

/-- The text of a value's document (`marshal`); what says nothing has none. -/
def marshal (files : FileSystem) (value : Value) : Action σ (Option Bytes) := do
  if value.isEmpty then return none
  match ← call (← get).slots.encoder "json.encode" files [value] with
  | [encoded] =>
    match encoded.toBytes? with
    | some bytes => return some bytes
    | none => violation "json.encode" (text "expected a string, got " ++ encoded.typeName)
  | values =>
    violation "json.encode"
      (text "expected exactly one string, got " ++ Bytes.ofNat values.length ++ text " values")

/-- Records without their internal fields (`strip`). -/
def strip (files : FileSystem) (records : Value) : Action σ Value := do
  if records.isEmpty then return records
  let values ← call (← get).slots.stripper "strip_diagnostics" files [records]
  match values with
  | [stripped] => if stripped.isTable then return stripped else wrong values.length
  | values => wrong values.length
where
  wrong (n : Nat) : Action σ Value :=
    violation "strip_diagnostics" (text "expected one table, got " ++ Bytes.ofNat n ++
      text " values")

end Engine

end PatternEngine
