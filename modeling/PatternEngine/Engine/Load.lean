import PatternEngine.Engine.Basic
import PatternEngine.Text.Utf8
/-!
# Loading and importing
-/
namespace PatternEngine.Engine

variable {σ : Type}

structure LoadOutcome where
  ok : Bool
  package : Option Bytes
  diagnostics : Option Bytes
  deriving DecidableEq, Repr

/-- Checks what a call returned that changes the environment (`load_like`). -/
def decodeLoad (files : FileSystem) (call : String) : List Value → Action σ LoadOutcome
  | [ok, package, messages] => do
    let some ok := ok.toBool? | violation call (text "ok flag must be a boolean")
    let package ← match package with
      | .nil => pure none
      | .str name => pure (some (Text.Utf8.lossy name))
      | _ => violation call (text "package name must be a string")
    let stripped ← strip files messages
    return ⟨ok, package, ← marshal files stripped⟩
  | _ => violation call (text "expected 3 values")

def load (files : FileSystem) (source : Bytes) : Action σ LoadOutcome := do
  decodeLoad files "load" (← callMethod Methods.load "load" files [.str source])

def loadFile (files : FileSystem) (path : Bytes) : Action σ LoadOutcome := do
  decodeLoad files "loadfile" (← callMethod Methods.loadFile "loadfile" files [.str path])

/-- Imports a package, under another name if one is given. -/
def importPackage (files : FileSystem) (package : Bytes) (under : Option Bytes) :
    Action σ LoadOutcome := do
  decodeLoad files "import"
    (← callMethod Methods.importPackage "import" files [.str package, under.elim .nil .str])

end PatternEngine.Engine
