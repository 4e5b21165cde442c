import PatternEngine.Source.Line
/-!
# References

An expression refers to bound names by `$` and the name in braces. Expanding puts the source of
the binding, in a group of its own, in place of each reference. What has been put in is not
looked at again.
-/
namespace PatternEngine.Source

/-- Whether a byte may stand in the name of a binding: dots join a package to a name. -/
def isNameByte (b : UInt8) : Bool := isWordByte b || b == 46

inductive Fragment where
  | plain (b : UInt8)
  | reference (name : Bytes)
  deriving DecidableEq, Repr

namespace Fragment

/-- The name of the reference that a text starts with. -/
def leading? : Bytes → Option Bytes
  | 0x24 :: 0x7B :: rest =>
    let name := rest.takeWhile isNameByte
    if !name.isEmpty && (rest.dropWhile isNameByte).head? == some 0x7D then some name else none
  | _ => none

/-- The pieces of an expression after `skip` bytes, from left to right. -/
def scan : Nat → Bytes → List Fragment
  | _, [] => []
  | skip + 1, _ :: rest => scan skip rest
  | 0, b :: rest =>
    match leading? (b :: rest) with
    | some name => .reference name :: scan (name.length + 2) rest
    | none => .plain b :: scan 0 rest

def ofExpression (expression : Bytes) : List Fragment := scan 0 expression

def unbound? (lookup : Bytes → Option Bytes) : Fragment → Option Bytes
  | .plain _ => none
  | .reference name => if (lookup name).isNone then some name else none

def source (lookup : Bytes → Option Bytes) : Fragment → Bytes
  | .plain b => [b]
  | .reference name => text "(?:" ++ (lookup name).getD [] ++ text ")"

end Fragment

/-- The source of an expression, or the first name in it that is not bound (`expand`). -/
def expand (lookup : Bytes → Option Bytes) (expression : Bytes) : Except Bytes Bytes :=
  let fragments := Fragment.ofExpression expression
  match fragments.findSome? (Fragment.unbound? lookup) with
  | some name => .error name
  | none => .ok (fragments.flatMap (Fragment.source lookup))

end PatternEngine.Source
