import PatternEngine.Engine.Load
/-!
# Reports

The configuration of the module and the search path of the engine object.
-/
namespace PatternEngine.Engine

variable {σ : Type}

def config (files : FileSystem) : Action σ (Option Bytes) := do
  match (← get).slots.config with
  | none => throw (.missing (text "config"))
  | some entry =>
    match ← call entry "config" files [] with
    | [records] => marshal files records
    | values => violation "config" (text "expected one value, got " ++ Bytes.ofNat values.length)

def searchPath (files : FileSystem) : Action σ Bytes := do
  match (← callMethod Methods.searchPath "libpath" files []).head?.bind Value.toBytes? with
  | some path => return Text.Utf8.lossy path
  | none => violation "libpath" (text "expected a string")

end PatternEngine.Engine
