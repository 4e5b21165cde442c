import PatternEngine.Engine.Governor
/-!
# Tracing
-/
namespace PatternEngine.Engine

variable {σ : Type}

inductive TraceOutcome where
  | noSuchPattern
  | invalidStyle
  | traced (matched : Bool) (trace : Bytes)
  deriving DecidableEq, Repr

def flag (what : String) (value : Value) : Action σ Bool :=
  match value.toBool? with
  | some b => return b
  | none => violation "trace" (text what ++ text " must be a boolean")

/-- The bytes of a trace: a text as it is, a table as a document. -/
def traceBytes (files : FileSystem) (trace : Value) : Action σ Bytes := do
  let bytes ← if trace.isTable then marshal files trace else pure trace.toBytes?
  match bytes with
  | some bytes => return bytes
  | none => violation "trace" (text "empty trace")

/-- Traces how a pattern matches an input from a position on. -/
def trace (files : FileSystem) (handle : Handle) (start : Int) (style input : Bytes) :
    Action σ TraceOutcome := do
  govern files
  match (← get).patterns.get? handle with
  | none => return .noSuchPattern
  | some pattern =>
    match ← callMethod Methods.trace "trace" files
        [pattern, .str input, .int start, .str style] with
    | [known, matched, trace] =>
      if ← flag "style flag" known then
        let matched ← flag "matched flag" matched
        return .traced matched (← traceBytes files trace)
      else return .invalidStyle
    | values => violation "trace" (text "expected 3 values, got " ++ Bytes.ofNat values.length)

end PatternEngine.Engine
