import PatternEngine.Engine.Basic
/-!
# Compiling and freeing patterns
-/
namespace PatternEngine.Engine

variable {σ : Type}

structure Compiled where
  pattern : Handle
  diagnostics : Option Bytes
  deriving DecidableEq, Repr

def keep (pattern : Value) (diagnostics : Option Bytes) : Action σ Compiled := do
  let engine ← get
  match engine.patterns.insert pattern with
  | some (handle, patterns) =>
    set { engine with patterns }
    return ⟨handle, diagnostics⟩
  | none => throw .handlesExhausted

/-- Compiles an expression. A bad expression is no fault: it has no handle, and the diagnostics say
why. -/
def compile (files : FileSystem) (expression : Bytes) : Action σ Compiled := do
  match ← callMethod Methods.compile "compile" files [.str expression] with
  | [compiled, messages] =>
    let diagnostics ← marshal files messages
    match compiled with
    | .bool false => return ⟨.none, diagnostics⟩
    | .table items fields => keep (.table items fields) diagnostics
    | _ => violation "compile" (text "expected a pattern or false")
  | values =>
    violation "compile" (text "expected 2 values, got " ++ Bytes.ofNat values.length)

/-- Frees a pattern (`free_pattern`); whether there was one. -/
def freePattern (pattern : Handle) : Action σ Bool := do
  let engine ← get
  match engine.patterns.remove pattern with
  | some (_, patterns) =>
    set { engine with patterns }
    return true
  | none => return false

end PatternEngine.Engine
