import PatternEngine.Environment
import PatternEngine.FileSystem
/-!
# Loading and importing

Source text is processed line by line into bindings. An import line needs the names that a
package exports, and finding a package means processing its file, which may import others in
turn. The search for packages is a parameter of processing, and the two are tied together by
recursion on the number of files that can still be opened; packages that import each other are
caught before that number runs out.
-/
namespace PatternEngine

open PatternEngine.Source (Alias Line)

namespace Importer

/-- The outcome of a search for a package: the names it exports if it was found, what is to be said
about it, and the packages known afterwards. -/
structure Finding where
  exports : Option Bindings
  diagnostics : List Diagnostic
  packages : Packages

/-- A way to find packages. -/
abbrev Finder := Packages → Bytes → Finding

structure Progress where
  bindings : Bindings
  packages : Packages
  /-- the names that the text itself binds -/
  own : Bindings := []
  declared : Option Bytes := none
  diagnostics : List Diagnostic := []

namespace Progress

def report (p : Progress) (d : Diagnostic) : Progress :=
  { p with diagnostics := p.diagnostics ++ [d] }

end Progress

/-- What is said about a line (`report`). -/
def lineDiagnostic (filename : Option Bytes) (number : Nat) (line : Bytes) (severity : Severity)
    (message : Bytes) (expression : Option Bytes) : Diagnostic :=
  { who := text "loader", severity, message, line := number, filename, expression,
    context := line }

/-- Binds a name to an expression, unless that cannot be built. The names that the text itself binds
are kept apart from those it has imported. -/
def bind (p : Progress) (report : Severity → Bytes → Option Bytes → Diagnostic)
    (name expression : Bytes) : Progress :=
  match Environment.build p.bindings expression name with
  | .error obstacle => p.report (report .error obstacle.message (some expression))
  | .ok built =>
    let warned :=
      if (p.bindings.get? name).isSome then
        p.report (report .warning (text "reassignment to identifier " ++ name) none)
      else p
    -- the warning does not keep the name from being bound anew
    { warned with
      bindings := warned.bindings.set name built.source
      own := warned.own.set name built.source }

/-- Processes one line (the loop of `process`). -/
def processLine (find : Finder) (filename : Option Bytes) (p : Progress) :
    Nat × Bytes → Progress
  | (number, line) =>
    let report := lineDiagnostic filename number line
    let fail (message : Bytes) := p.report (report .error message none)
    match Line.classify line with
    | .blank => p
    | .package name =>
      match p.declared with
      | some other => fail (text "package already declared as " ++ other)
      | none => { p with declared := some name }
    | .badPackage => fail (text "syntax error in package declaration")
    | .importing name under =>
      -- packages found on the way stay known, also when the import comes to nothing
      let finding := find p.packages name
      let p := { p with
        packages := finding.packages
        diagnostics := p.diagnostics ++ finding.diagnostics }
      match finding.exports with
      | some exports => { p with bindings := p.bindings.setPackage name under exports }
      | none => p.report (report .error (text "cannot import package " ++ name) none)
    | .badImport => fail (text "syntax error in import declaration")
    | .binding name expression => bind p report name expression
    | .noExpression name => fail (text "missing expression for " ++ name)
    | .malformed => fail (text "syntax error")

/-- Processes a source text into bindings (`process`). -/
def process (find : Finder) (packages : Packages) (bindings : Bindings)
    (filename : Option Bytes) (source : Bytes) : Progress :=
  (Source.numberedLines source).foldl (processLine find filename) { bindings, packages }

/-- What is said about a search for a package. -/
def searchError (message : Bytes) (filename : Option Bytes) : Diagnostic :=
  { who := text "importer", severity := .error, message, filename }

def directories (searchPath : Bytes) : List Bytes :=
  (Bytes.splitOn 0x3A searchPath).filter fun directory => !directory.isEmpty

def candidate (package directory : Bytes) : Bytes :=
  directory ++ text "/" ++ package ++ text ".rpl"

/-- The first readable file for a package on a search path, with its contents (`read_file`). -/
def locate (files : FileSystem) (searchPath package : Bytes) : Option (Bytes × Bytes) :=
  (directories searchPath).findSome? fun directory =>
    match files.read (candidate package directory) with
    | .ok contents => some (candidate package directory, contents)
    | .error _ => none

/-- Loads a package from the contents of its file (`find_package`), with a way to find the packages
that it imports. -/
def loadPackage (find : Finder) (packages : Packages) (package path contents : Bytes) : Finding :=
  let p := process find { packages with loading := package :: packages.loading } [] (some path)
    contents
  -- the package is no longer being loaded, however its file has ended
  let packages := { p.packages with loading := p.packages.loading.erase package }
  if Diagnostic.anyError p.diagnostics then ⟨none, p.diagnostics, packages⟩
  else if p.declared != some package then
    let message := path ++ text " declares package " ++ p.declared.getD (text "nil") ++
      text ", expected " ++ package
    ⟨none, p.diagnostics ++ [searchError message (some path)], packages⟩
  -- it exports what its own lines bind, not what it has imported
  else ⟨some p.own, p.diagnostics, { packages with found := (package, p.own) :: packages.found }⟩

/-- Finds a package among those known or on the search path (`find_package`). Each nested search
uses up one unit of fuel. -/
def findPackage (files : FileSystem) (searchPath : Bytes) : Nat → Finder
  -- not reached with `enoughFuel`
  | 0, packages, _ => ⟨none, [], packages⟩
  | fuel + 1, packages, package =>
    match packages.found.lookup package with
    | some exports => ⟨some exports, [], packages⟩
    | none =>
      if packages.loading.contains package then
        ⟨none, [searchError (text "circular import of package " ++ package) none], packages⟩
      else
        match locate files searchPath package with
        | none =>
          let message := text "package " ++ package ++ text " not found on libpath " ++ searchPath
          ⟨none, [searchError message none], packages⟩
        | some (path, contents) =>
          loadPackage (findPackage files searchPath fuel) packages package path contents

/-- Enough fuel for every search: the packages being loaded have different files. -/
def enoughFuel (files : FileSystem) : Nat := files.files.length + 2

def finder (files : FileSystem) (env : Environment) : Finder :=
  findPackage files env.searchPath (enoughFuel files)

/-- Why a source file cannot be read, in words: it cannot be opened, or it is a directory. -/
def readFailure (path : Bytes) : FileError → Bytes
  | .isDirectory => path ++ text ": read failed"
  | error => path ++ text ": " ++ error.message

end Importer

end PatternEngine
