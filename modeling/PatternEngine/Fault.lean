import PatternEngine.Bytes
/-!
# Faults

A fault is the failure of the engine or of its runtime module. What can be wrong with an
expression, a source text or an input is no fault: operations report it among their results.
-/
namespace PatternEngine

/-- What can fail in an operation. -/
inductive Fault where
  /-- the root of the installation cannot be found -/
  | home (message : Bytes)
  /-- the start-up script failed, or the module it leaves behind is of no use -/
  | boot (message : Bytes)
  /-- the module lacks something that the engine needs -/
  | missing (name : Bytes)
  /-- a call into the module raised a message -/
  | raised (call message : Bytes)
  /-- a call returned values of the wrong number or type -/
  | contract (call detail : Bytes)
  | limitTooSmall (requested minimum : Nat)
  | outOfMemory
  | handlesExhausted
  /-- a buffer too long for a 32-bit length -/
  | tooLong (what : Bytes) (length : Nat)
  /-- any other failure of the interpreter that runs the module -/
  | interpreter (message : Bytes)
  deriving DecidableEq, Repr

def Fault.message : Fault → Bytes
  | .home message => text "cannot locate rosie home: " ++ message
  | .boot message => text "failed to boot the runtime: " ++ message
  | .missing name => text "runtime module does not provide `" ++ name ++ text "`"
  | .raised call message => call ++ text " raised an error: " ++ message
  | .contract call detail => call ++ text " violated its return contract: " ++ detail
  | .limitTooSmall requested minimum =>
    text "allocation limit of " ++ Bytes.ofNat requested ++
      text " MB is below the minimum of " ++ Bytes.ofNat minimum ++ text " MB"
  | .outOfMemory => text "out of memory"
  | .handlesExhausted => text "pattern handle table is full"
  | .tooLong what length =>
    what ++ text " of " ++ Bytes.ofNat length ++ text " bytes exceeds the 32-bit length limit"
  | .interpreter message => text "lua error: " ++ message

end PatternEngine
