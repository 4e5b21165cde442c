import PatternEngine.Source.Scan
/-!
# Lines of source text

A source text is read line by line. A line declares the package, imports a package, binds a name
to an expression, or says nothing.
-/
namespace PatternEngine.Source

/-- How the names of an imported package are bound. -/
inductive Alias where
  /-- under the name of the package -/
  | none
  /-- under another name -/
  | word (name : Bytes)
  /-- without a prefix -/
  | bare
  deriving DecidableEq, Repr

/-- The alias that a name stands for; the dot means none at all. -/
def Alias.ofName (name : Bytes) : Alias := if name == [46] then .bare else .word name

inductive Line where
  | blank
  | package (name : Bytes)
  | badPackage
  | importing (name : Bytes) (under : Alias)
  | badImport
  | binding (name expression : Bytes)
  | noExpression (name : Bytes)
  | malformed
  deriving DecidableEq, Repr

namespace Line

open Item

/-- A word in brackets, `([%w_]+)`. -/
def wordGroup : List Item := [opening, more .word, closing]

/-- `^%s*$` -/
def nothingPattern : List Item := [many .blank, ending]

/-- `^%s*%-%-` -/
def commentPattern : List Item := many .blank :: literal "--"

/-- `^%s*package%s` and `^%s*import%s` -/
def keywordPattern (keyword : String) : List Item :=
  many .blank :: literal keyword ++ [one .blank]

/-- `^%s*package%s+([%w_]+)%s*$` and `^%s*import%s+([%w_]+)%s*$` -/
def namePattern (keyword : String) : List Item :=
  many .blank :: literal keyword ++ more .blank :: wordGroup ++ nothingPattern

/-- `^%s*import%s+([%w_]+)%s+as%s+` and what stands behind it -/
def underPattern (under : List Item) : List Item :=
  many .blank :: literal "import" ++ more .blank :: wordGroup ++
    more .blank :: literal "as" ++ more .blank :: under ++ nothingPattern

/-- `^%s*([%w_]+)%s*=%s*(.-)%s*$` -/
def bindingPattern : List Item :=
  many .blank :: wordGroup ++ many .blank :: literal "=" ++
    many .blank :: [opening, few .any, closing] ++ nothingPattern

def readPackage (line : Bytes) : Line :=
  match captures? (namePattern "package") line with
  | some [name] => .package name
  | _ => .badPackage

/-- An import under a word, under the dot, and without an alias are tried in this order. -/
def readImport (line : Bytes) : Line :=
  match captures? (underPattern wordGroup) line with
  | some [name, under] => .importing name (.word under)
  | _ =>
    match captures? (underPattern (literal ".")) line with
    | some [name] => .importing name .bare
    | _ =>
      match captures? (namePattern "import") line with
      | some [name] => .importing name .none
      | _ => .badImport

def readBinding (line : Bytes) : Line :=
  match captures? bindingPattern line with
  | some [name, expression] =>
    if expression.isEmpty then .noExpression name else .binding name expression
  | _ => .malformed

/-- Reads a line (the patterns of `process`). What kind of line it is, the first pattern that fits
decides. -/
def classify (line : Bytes) : Line :=
  if fits nothingPattern line || fits commentPattern line then .blank
  else if fits (keywordPattern "package") line then readPackage line
  else if fits (keywordPattern "import") line then readImport line
  else readBinding line

end Line

/-- Drops one carriage return at the end. -/
def dropReturn (line : Bytes) : Bytes :=
  if line.getLast? == some 13 then line.dropLast else line

/-- The lines of a source text, numbered from one. -/
def numberedLines (source : Bytes) : List (Nat × Bytes) :=
  (Bytes.splitOn Bytes.newline source).zipIdx.map fun (line, i) => (i + 1, dropReturn line)

end PatternEngine.Source
