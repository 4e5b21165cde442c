import PatternEngine.Importer
import PatternEngine.RuntimeModule
import PatternEngine.Tracing
/-!
# The standard runtime module

The module that comes with the library: it compiles and traces patterns, loads sources, imports
packages and knows four extension encoders. Hosts can add encoders or take some away; those have
a state of type `τ` beside the environment.
-/
namespace PatternEngine

open PatternEngine.Source (Alias)

namespace StandardModule

/-- The state of the module: the environment, and what the encoders of the host keep. -/
structure State (τ : Type) where
  environment : Environment
  host : τ

variable {τ : Type}

/-- An extension encoder: a function, or a plain value. A number is the code of a built-in
encoder. -/
inductive Extension (τ : Type) where
  | value (v : Value)
  | function (call : EntryPoint τ)

/-- An entry point of the host as one of the module. -/
def ofHost (call : EntryPoint τ) : EntryPoint (State τ) := fun files arguments s =>
  let (reply, host) := call files arguments s.host
  (reply, { s with host })

/-- A reply that leaves the state as it is. -/
def stateless {σ : Type} (reply : List Value → Reply) : EntryPoint σ := fun _ arguments s =>
  (reply arguments, s)

/-- The reply to arguments that no caller passes. -/
def unexpected : Reply := .raised (text "unexpected arguments")

/-! ## Encoders -/

def rangeBytes (arguments : List Value) : Option Bytes :=
  (Primitive.inputBytes? (Primitive.argument arguments 0)).map fun input =>
    Primitive.slice input (Primitive.argument arguments 1).toInt?
      (Primitive.argument arguments 2).toInt?

/-- The encoder that gives the matched bytes (`text_encoder`). -/
def textEncoder (arguments : List Value) : Reply :=
  match rangeBytes arguments with
  | some bytes => .returned [.str bytes]
  | none => unexpected

def groupBytes (input : Bytes) : List Value → List Bytes
  | _ :: start :: stop :: rest =>
    Primitive.slice input start.toInt? stop.toInt? :: groupBytes input rest
  | _ => []

/-- The encoder that gives the bytes of the groups, each on a line (`subs_encoder`). -/
def groupsEncoder (arguments : List Value) : Reply :=
  match Primitive.inputBytes? (Primitive.argument arguments 0) with
  | some input =>
    match Primitive.argument arguments 3 with
    | .table items _ => .returned [.str (Bytes.join [Bytes.newline] (groupBytes input items))]
    | _ => .returned [.str []]
  | none => unexpected

/-- The encoder that colours the matched bytes green (`color_encoder`). -/
def colorEncoder (arguments : List Value) : Reply :=
  match rangeBytes arguments with
  | some bytes => .returned [.str (27 :: text "[32m" ++ bytes ++ 27 :: text "[0m")]
  | none => unexpected

/-- The extension encoders that are always there. -/
def extensions : List (Bytes × Extension τ) := [
  (text "default", .value (.int 1)),
  (text "text", .function (stateless textEncoder)),
  (text "subs", .function (stateless groupsEncoder)),
  (text "color", .function (stateless colorEncoder))]

/-- The extension that a name stands for. The names of built-in encoders stand for their codes
first. -/
def extension? (extensions : List (Bytes × Extension τ)) (name : Bytes) : Option (Extension τ) :=
  match BuiltinEncoder.ofName? name with
  | some encoder => some (.value (.int encoder.code))
  | none => extensions.lookup name

/-! ## Patterns -/

/-- The object for a compiled pattern. -/
def patternObject (p : Environment.Pattern) : Value := .record [
  (text "peg", .matcher p.matcher),
  (text "source", .str p.source),
  (text "expression", .str p.expression)]

/-- Compiles an expression (`Engine:compile`): the pattern or false, and what is to be said about
it. -/
def compile : EntryPoint (State τ) := fun _ arguments s =>
  match arguments with
  | [.str expression] =>
    match s.environment.compile expression with
    | .ok pattern => (.returned [patternObject pattern, .table [] []], s)
    | .error d => (.returned [.bool false, Diagnostic.toValues [d]], s)
  | _ => (unexpected, s)

/-- The message for a call of something that cannot be called. -/
def notCallable (v : Value) : Bytes :=
  text "boot.lua:293: attempt to call a " ++ v.typeName ++ text " value (local 'enc')"

def runExtension (files : FileSystem) (extension : Extension τ) (arguments : List Value)
    (s : State τ) : Reply × State τ :=
  match extension with
  | .value v => (.raised (notCallable v), s)
  | .function call => ofHost call files arguments s

/-- Matches a pattern and encodes the match with an extension (`Engine:match`): the encoded match or
false, the bytes left over, whether it was cut short, and two times. -/
def matchInput (extensions : List (Bytes × Extension τ)) : EntryPoint (State τ) :=
  fun files arguments s =>
    match arguments with
    | [pattern, input, start, .str name] =>
      let matcher := pattern.field (text "peg")
      match extension? extensions name with
      | none => (.raised (text "boot.lua:283: no such encoder: " ++ name), s)
      -- an extension that is a number stands for the built-in encoder of that code
      | some (.value (.int code)) =>
        (Primitive.matchEncoded [matcher, input, start, .int code], s)
      | some (.value (.float code)) =>
        (Primitive.matchEncoded [matcher, input, start, .float code], s)
      | some extension =>
        match Primitive.matchInput [matcher, input, start] with
        | .returned [.bool false, _, leftover, time, _] =>
          (.returned [.bool false, leftover, .bool false, .int 0, time], s)
        | .returned [first, last, leftover, time, groups] =>
          -- of what the extension returns only the first value counts
          match runExtension files extension [input, first, last, groups] s with
          | (.returned values, s) =>
            (.returned [values.headD .nil, leftover, .bool false, .int 0, time], s)
          | (.raised message, s) => (.raised message, s)
        | reply => (reply, s)
    | _ => (unexpected, s)

/-- Traces a pattern (`Engine:trace`): whether the style is known, whether there is a match, and the
trace. -/
def trace : EntryPoint (State τ) := fun _ arguments s =>
  match arguments with
  | [pattern, .str input, .int start, .str style] =>
    match TraceStyle.ofName? style with
    | none => (.returned [.bool false, .bool false, .str []], s)
    | some style =>
      match Primitive.matchInput [pattern.field (text "peg"), .str input, .int start],
          pattern.field (text "expression"), pattern.field (text "source") with
      | .returned [first, last, leftover, _, captures], .str expression, .str source =>
        let groups := Tracing.groups input captures.items
        let finding : Tracing.Finding :=
          { expression, source, position := max start 1, first, last, leftover, groups }
        (.returned [.bool true, .bool finding.matched, finding.render style], s)
      | .returned _, _, _ => (unexpected, s)
      | reply, _, _ => (reply, s)
  | _ => (unexpected, s)

/-! ## Sources and packages -/

/-- Loads a text: whether it succeeded, the package that the text declares, and what is to be said
(`load_source`). The bindings change only if there is no error. -/
def loadSource (files : FileSystem) (s : State τ) (source : Bytes) (filename : Option Bytes) :
    Reply × State τ :=
  let env := s.environment
  let p := Importer.process (Importer.finder files env) env.packages env.bindings filename source
  let declared : Value := p.declared.elim .nil .str
  let diagnostics := Diagnostic.toValues p.diagnostics
  -- what was found on the way stays known, whatever becomes of the text
  let env := { env with packages := p.packages }
  if Diagnostic.anyError p.diagnostics then
    (.returned [.bool false, declared, diagnostics], { s with environment := env })
  else
    (.returned [.bool true, declared, diagnostics],
      { s with environment := { env with bindings := p.bindings } })

def load : EntryPoint (State τ) := fun files arguments s =>
  match arguments with
  | [.str source] => loadSource files s source none
  | _ => (unexpected, s)

/-- Loads a file, if it can be read (`Engine:loadfile`). -/
def loadFile : EntryPoint (State τ) := fun files arguments s =>
  match arguments with
  | [.str path] =>
    match files.read path with
    | .ok source => loadSource files s source (some path)
    | .error error =>
      let message := text "cannot open file: " ++ Importer.readFailure path error
      let failure : Diagnostic :=
        { who := text "loader", severity := .error, message, filename := path }
      (.returned [.bool false, .nil, Diagnostic.toValues [failure]], s)
  | _ => (unexpected, s)

/-- Binds the names of a package, if it is found (`Engine:import`): whether it is, its name, and
what is to be said. -/
def bindPackage (files : FileSystem) (s : State τ) (package : Bytes) (under : Alias) :
    Reply × State τ :=
  let env := s.environment
  let finding := Importer.finder files env env.packages package
  let diagnostics := Diagnostic.toValues finding.diagnostics
  let env := { env with packages := finding.packages }
  match finding.exports with
  | none => (.returned [.bool false, .nil, diagnostics], { s with environment := env })
  | some exports =>
    let bindings := env.bindings.setPackage package under exports
    (.returned [.bool true, .str package, diagnostics],
      { s with environment := { env with bindings } })

def importPackage : EntryPoint (State τ) := fun files arguments s =>
  match arguments with
  | [.str package, .nil] => bindPackage files s package .none
  | [.str package, .str under] => bindPackage files s package (Alias.ofName under)
  | _ => (unexpected, s)

def searchPath : EntryPoint (State τ) := fun _ _ s =>
  (.returned [.str s.environment.searchPath], s)

def setSearchPath : EntryPoint (State τ) := fun _ arguments s =>
  match arguments with
  | [.str path] =>
    (.returned [], { s with environment := { s.environment with searchPath := path } })
  | _ => (unexpected, s)

def methods (extensions : List (Bytes × Extension τ)) : Methods (State τ) where
  compile := some compile
  matchInput := some (matchInput extensions)
  trace := some trace
  load := some load
  loadFile := some loadFile
  importPackage := some importPackage
  searchPath := some searchPath
  setSearchPath := some setSearchPath

/-! ## Services -/

def configEntry (name value description : Bytes) : Value := .record [
  (text "name", .str name), (text "value", .str value), (text "description", .str description)]

/-- The names of all encoders, in order (`encoder_names`). -/
def encoderNames (extensions : List (Bytes × Extension τ)) : Bytes :=
  Bytes.join (text ",")
    (Bytes.sort (BuiltinEncoder.all.map BuiltinEncoder.name ++ extensions.map Prod.fst))

def version : Bytes := text "0.1.0"

/-- The report on the configuration (`config`). -/
def config (extensions : List (Bytes × Extension τ)) (root defaultPath : Bytes) :
    EntryPoint (State τ) :=
  stateless fun _ => .returned [.table [
    configEntry (text "ROSIE_VERSION") version (text "version of the runtime module"),
    configEntry (text "ROSIE_HOME") root (text "root of the runtime assets"),
    configEntry (text "ROSIE_BOOT") (root ++ text "/lib/boot.lua") (text "bootstrap script"),
    configEntry (text "ROSIE_LIBPATH") defaultPath (text "default import search path"),
    configEntry (text "ROSIE_ENCODERS") (encoderNames extensions)
      (text "available output encoders")] []]

def isInternal : Value → Bool
  | .str (95 :: _) => true
  | _ => false

def stripRecord : Value → Except Bytes Value
  | .table items fields => .ok (.table items (fields.filter fun (key, _) => !isInternal key))
  | v => .error (text "boot.lua:391: bad argument #1 to 'for iterator' (table expected, got " ++
      v.typeName ++ text ")")

/-- Removes the internal fields of all records in a list (`strip_diagnostics`). -/
def strip (arguments : List Value) : Reply :=
  match Primitive.argument arguments 0 with
  | .table items _ =>
    match items.mapM stripRecord with
    | .ok records => .returned [.table records []]
    | .error message => .raised message
  | .str _ => .returned [.table [] []]
  | v => .raised (text "boot.lua:389: attempt to index a " ++ v.typeName ++
      text " value (local 'diags')")

/-- How much memory is in use, in kilobytes. It is not known beforehand, and more may be in use the
more is known. -/
abbrev Gauge := Environment → Decimal.Double

/-- Collects garbage or counts memory (`collectgarbage`). -/
def collect (gauge : Gauge) : EntryPoint (State τ) := fun _ arguments s =>
  match Primitive.argument arguments 0 with
  | .str option =>
    (.returned [if option == text "count" then .float (gauge s.environment) else .int 0], s)
  | _ => (.returned [.int 0], s)

def services (gauge : Gauge) (extensions : List (Bytes × Extension τ)) : Services (State τ) where
  json := some (some (stateless Primitive.encodeValue))
  strip := some (stateless strip)
  encoders := some (extensions.map Prod.fst)
  collect := some (collect gauge)

/-- What the module leaves behind, for an installation and a default search path. -/
def exports (gauge : Gauge) (extensions : List (Bytes × Extension τ)) (root defaultPath : Bytes) :
    Exports (State τ) where
  engine := some (some (.object (methods extensions)))
  config := some (config extensions root defaultPath)
  services := some (services gauge extensions)

/-- One megabyte is in use, whatever is known. -/
def oneMegabyte : Gauge := fun _ => ⟨0x4090000000000000⟩

def initial (host : τ) (defaultPath : Bytes) : State τ :=
  { environment := { searchPath := defaultPath }, host }

end StandardModule

/-- The module as it comes with the library, where this much memory is in use. -/
def shippedModule (gauge : StandardModule.Gauge) : RuntimeModule (StandardModule.State Unit) where
  start root searchPath :=
    .finished (some (StandardModule.exports gauge StandardModule.extensions root searchPath))
      (StandardModule.initial () searchPath)

def standardModule : RuntimeModule (StandardModule.State Unit) :=
  shippedModule StandardModule.oneMegabyte

end PatternEngine
