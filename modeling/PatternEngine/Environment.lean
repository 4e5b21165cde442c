import PatternEngine.Diagnostic
import PatternEngine.Source.Reference
/-!
# Environments

What an engine knows: the names that are bound to sources, the packages that have been found, the
packages that are being loaded just now, and where packages are looked for.
-/
namespace PatternEngine

/-- Names and the sources they are bound to, each name at most once. -/
abbrev Bindings := List (Bytes × Bytes)

namespace Bindings

def get? (bindings : Bindings) (name : Bytes) : Option Bytes := bindings.lookup name

/-- Binds a name, in the stead of what it was bound to. -/
def set (bindings : Bindings) (name source : Bytes) : Bindings :=
  (name, source) :: bindings.filter fun (other, _) => other != name

def qualified (package : Bytes) (under : Source.Alias) (name : Bytes) : Bytes :=
  match under with
  | .none => package ++ text "." ++ name
  | .word under => under ++ text "." ++ name
  | .bare => name

/-- Binds all names of a package (`bind_package`). -/
def setPackage (bindings : Bindings) (package : Bytes) (under : Source.Alias)
    (exports : Bindings) : Bindings :=
  exports.foldr (fun (name, source) bindings => bindings.set (qualified package under name) source)
    bindings

end Bindings

/-- The packages that have been found, with the names they export, and those being loaded. -/
structure Packages where
  found : List (Bytes × Bindings) := []
  loading : List Bytes := []
  deriving Repr

structure Environment where
  bindings : Bindings := []
  packages : Packages := {}
  searchPath : Bytes
  deriving Repr

namespace Environment

inductive Obstacle where
  | unbound (name : Bytes)
  | rejected (rejection : Rejection)
  deriving DecidableEq, Repr

def Obstacle.message : Obstacle → Bytes
  | .unbound name => text "unbound identifier: " ++ name
  | .rejected rejection => text "invalid expression: " ++ rejection.message

structure Built where
  source : Bytes
  matcher : Matcher

/-- The name of the matcher for a name: the name itself if it is valid text. -/
def matcherName (name : Bytes) : Bytes := if Text.Utf8.isValid name then name else text "*"

/-- Expands and compiles an expression (`build`). -/
def build (bindings : Bindings) (expression name : Bytes) : Except Obstacle Built :=
  match Source.expand bindings.get? expression with
  | .error name => .error (.unbound name)
  | .ok source =>
    match Matcher.compile source (matcherName name) with
    | .error rejection => .error (.rejected rejection)
    | .ok matcher => .ok ⟨source, matcher⟩

/-- A compiled pattern: the expression as it was given, and what it was built to. -/
structure Pattern where
  expression : Bytes
  source : Bytes
  matcher : Matcher

/-- Compiles an expression (`compile`). An expression of blanks only is empty. -/
def compile (env : Environment) (expression : Bytes) : Except Diagnostic Pattern :=
  let failure (message : Bytes) (context : Option Bytes) : Diagnostic :=
    { who := text "compiler", severity := .error, message, expression, context }
  -- an empty source would compile; it is refused for the expression, not for what it expands to
  if expression.all Source.isBlank then .error (failure (text "empty expression") none)
  else
    match build env.bindings expression expression with
    | .error obstacle => .error (failure obstacle.message (some (text "compile")))
    | .ok built => .ok ⟨expression, built.source, built.matcher⟩

end Environment

end PatternEngine
