import PatternEngine.Importer
/-!
# Loading and importing as reports

What loading and importing lead to, apart from the values in which the module returns it.
-/
namespace PatternEngine.Importer

open PatternEngine.Source (Alias)

/-- What loading or importing has led to. -/
structure Report where
  ok : Bool
  package : Option Bytes
  diagnostics : List Diagnostic

/-- Loads a source text. The bindings change only if nothing is wrong with it. -/
def load (files : FileSystem) (env : Environment) (source : Bytes) (filename : Option Bytes) :
    Report × Environment :=
  let p := process (finder files env) env.packages env.bindings filename source
  if Diagnostic.anyError p.diagnostics then
    (⟨false, p.declared, p.diagnostics⟩, { env with packages := p.packages })
  else
    (⟨true, p.declared, p.diagnostics⟩,
      { env with packages := p.packages, bindings := p.bindings })

/-- Loads a source file. -/
def loadFile (files : FileSystem) (env : Environment) (path : Bytes) : Report × Environment :=
  match files.read path with
  | .ok source => load files env source (some path)
  | .error error =>
    let message := text "cannot open file: " ++ readFailure path error
    (⟨false, none, [{
      who := text "loader", severity := .error, message, filename := path }]⟩, env)

/-- Imports a package. -/
def importPackage (files : FileSystem) (env : Environment) (package : Bytes) (under : Alias) :
    Report × Environment :=
  let finding := finder files env env.packages package
  match finding.exports with
  | none => (⟨false, none, finding.diagnostics⟩, { env with packages := finding.packages })
  | some exports =>
    (⟨true, some package, finding.diagnostics⟩, { env with
      packages := finding.packages
      bindings := env.bindings.setPackage package under exports })

end PatternEngine.Importer
