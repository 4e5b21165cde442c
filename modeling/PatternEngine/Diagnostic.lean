import PatternEngine.Value
/-!
# Diagnostics

A diagnostic tells who found something, how bad it is, and what it is, with the place where it
was found if there is one. As a value it is a record; the context it was found in is an internal
field, whose name starts with an underscore.
-/
namespace PatternEngine

inductive Severity where
  | error
  | warning
  | info
  deriving DecidableEq, Repr

namespace Severity

def name : Severity → Bytes
  | .error => text "error"
  | .warning => text "warning"
  | .info => text "info"

def ofName? (name : Bytes) : Option Severity :=
  [Severity.error, .warning, .info].find? (·.name == name)

end Severity

/-- Something that was found while compiling, loading or importing. -/
structure Diagnostic where
  who : Bytes
  severity : Severity
  message : Bytes
  line : Option Nat := none
  filename : Option Bytes := none
  expression : Option Bytes := none
  context : Option Bytes := none
  deriving DecidableEq, Repr

namespace Diagnostic

def isError (d : Diagnostic) : Bool := d.severity == .error

/-- Whether something is wrong (`has_errors`). -/
def anyError (ds : List Diagnostic) : Bool := ds.any isError

/-- The record for a diagnostic (`diagnostic`); what is not known is left out. -/
def toValue (d : Diagnostic) : Value := .record [
  (text "who", .str d.who),
  (text "severity", .str d.severity.name),
  (text "message", .str d.message),
  (text "line", d.line.elim .nil fun n => .int n),
  (text "filename", d.filename.elim .nil .str),
  (text "expression", d.expression.elim .nil .str),
  (text "_context", d.context.elim .nil .str)]

def toValues (ds : List Diagnostic) : Value := .table (ds.map toValue) []

end Diagnostic

end PatternEngine
