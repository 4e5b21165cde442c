import PatternEngine.StandardModule
/-!
# Stand-ins

A rehearsal runs an engine with the standard module, some parts of which are replaced by
stand-ins: functions with prepared replies, or plain values. It shows how an engine takes what a
module may come back with. Two things are remembered in a rehearsal: how often the stand-in for a
part was called, and the texts that were passed to stand-ins as first arguments.
-/
namespace PatternEngine

open PatternEngine.StandardModule (State Extension)

inductive Method where
  | compile
  | matchInput
  | trace
  | load
  | loadFile
  | importPackage
  | searchPath
  | setSearchPath
  deriving DecidableEq, Repr

/-- The parts of a module for which something can stand in. -/
inductive Part where
  | script
  | initializer
  /-- the table that the module leaves behind -/
  | exports
  | engineClass
  | newEngine
  | config
  | services
  | documentTable
  | documentEncoder
  | strip
  | encoders
  | encoder (name : Bytes)
  | collect
  | method (m : Method)
  deriving DecidableEq, Repr

inductive StandIn where
  /-- a function with the values of its calls in order; the last ones are for all later calls -/
  | replies (values : List (List Value))
  /-- a function that raises a message -/
  | raises (message : Bytes)
  /-- a function that returns the texts that are remembered -/
  | recall
  | value (v : Value)

/-- Which stand-in is there for which part. -/
abbrev Cast := List (Part × StandIn)

structure Memory where
  calls : List (Part × Nat) := []
  /-- the texts passed to stand-ins, the latest first -/
  heard : List Bytes := []

namespace Memory

def count (m : Memory) (part : Part) : Nat := (m.calls.lookup part).getD 0

def note (m : Memory) (part : Part) (arguments : List Value) : Memory :=
  { calls := (part, m.count part + 1) :: m.calls.filter (·.1 != part)
    heard := (arguments.head?.bind Value.toBytes?).toList ++ m.heard }

end Memory

namespace StandIn

def idle {σ : Type} : EntryPoint σ := fun _ _ s => (.returned [], s)

/-- The function of a value, if it is one. -/
def callable? {σ : Type} : Value → Option (EntryPoint σ)
  | .function => some idle
  | _ => none

/-- The function that a stand-in is for a part, if it is one. -/
def call? (part : Part) : StandIn → Option (EntryPoint Memory)
  | .replies values => some fun _ arguments memory =>
    let i := min (memory.count part) (values.length - 1)
    (.returned (values.getD i []), memory.note part arguments)
  | .raises message => some fun _ _ memory => (.raised message, memory)
  | .recall => some fun _ _ memory =>
    (.returned [.table (memory.heard.reverse.map .str) []], memory)
  | .value v => callable? v

def toValue : StandIn → Value
  | .value v => v
  | .replies _ | .raises _ | .recall => .function

/-- The extension that a stand-in for an encoder is; nil is none. -/
def extension? (part : Part) (s : StandIn) : Option (Extension Memory) :=
  match s.call? part with
  | some call => some (.function call)
  | none => if s.toValue.isNil then none else some (.value s.toValue)

end StandIn

/-! ## Parts made of values -/

def Value.method? {σ : Type} (table : Value) (name : String) : Option (EntryPoint σ) :=
  StandIn.callable? (table.field (text name))

def Methods.ofValue {σ : Type} (v : Value) : Methods σ where
  compile := v.method? "compile"
  matchInput := v.method? "match"
  trace := v.method? "trace"
  load := v.method? "load"
  loadFile := v.method? "loadfile"
  importPackage := v.method? "import"
  searchPath := v.method? "libpath"
  setSearchPath := v.method? "set_libpath"

def Methods.set {σ : Type} (methods : Methods σ) (m : Method) (entry : Option (EntryPoint σ)) :
    Methods σ :=
  match m with
  | .compile => { methods with compile := entry }
  | .matchInput => { methods with matchInput := entry }
  | .trace => { methods with trace := entry }
  | .load => { methods with load := entry }
  | .loadFile => { methods with loadFile := entry }
  | .importPackage => { methods with importPackage := entry }
  | .searchPath => { methods with searchPath := entry }
  | .setSearchPath => { methods with setSearchPath := entry }

/-- The engine object that a call returned. -/
def Creation.ofReply {σ : Type} : Reply → Creation σ
  | .raised message => .raised message
  | .returned values =>
    let first := values.headD .nil
    if first.isTable then .object (Methods.ofValue first) else .other

def encoderNames? (v : Value) : Option (List Bytes) :=
  match v with
  | .table _ fields => some (fields.filterMap fun (key, _) => key.toBytes?)
  | _ => none

def documentTable? {σ : Type} (v : Value) : Option (Option (EntryPoint σ)) :=
  if v.isTable then some (v.method? "encode") else none

/-- The services among the fields of a table. -/
def Services.ofValue? {σ : Type} (v : Value) : Option (Services σ) :=
  if v.isTable then some {
    json := documentTable? (v.field (text "json"))
    strip := v.method? "strip_diagnostics"
    encoders := encoderNames? (v.field (text "encoders"))
    collect := v.method? "collect" }
  else none

def engineClass? {σ : Type} (v : Value) : Option (Option (Creation σ)) :=
  if v.isTable then
    some (match v.field (text "new") with
      | .function => some .other
      | _ => none)
  else none

/-- What a module leaves behind, out of the fields of a table. -/
def Exports.ofValue? {σ : Type} (v : Value) : Option (Exports σ) :=
  if v.isTable then some {
    engine := engineClass? (v.field (text "engine"))
    config := v.method? "config"
    services := Services.ofValue? (v.field (text "env")) }
  else none

namespace Cast

/-- The stand-in for a part as an entry point of the module. -/
def entry (part : Part) (s : StandIn) : Option (EntryPoint (State Memory)) :=
  (s.call? part).map StandardModule.ofHost

/-- The stand-in for a method. A method is passed its object first, which is a table. -/
def methodEntry (m : Method) (s : StandIn) : Option (EntryPoint (State Memory)) :=
  (entry (.method m) s).map fun call files arguments state =>
    call files (.table [] [] :: arguments) state

/-- The extensions, with the stand-ins for encoders. -/
def extensions (cast : Cast) : List (Bytes × Extension Memory) :=
  cast.foldl
    (fun extensions (part, s) =>
      match part with
      | .encoder name =>
        let others := extensions.filter (·.1 != name)
        ((s.extension? part).map (name, ·)).toList ++ others
      | _ => extensions)
    StandardModule.extensions

def replaceService (services : Services (State Memory)) (part : Part) (s : StandIn) :
    Services (State Memory) :=
  match part with
  | .documentTable => { services with json := documentTable? s.toValue }
  | .documentEncoder => { services with json := services.json.map fun _ => entry part s }
  | .strip => { services with strip := entry part s }
  | .encoders => { services with encoders := encoderNames? s.toValue }
  | .collect => { services with collect := entry part s }
  | _ => services

/-- The engine object that a stand-in for the call that makes it returns. -/
def creation? (s : StandIn) : Option (Creation (State Memory)) :=
  (s.call? .newEngine).map fun call => Creation.ofReply (call {} [.table [] []] {}).1

def replace (exports : Option (Exports (State Memory))) (part : Part) (s : StandIn) :
    Option (Exports (State Memory)) :=
  match part with
  | .exports => Exports.ofValue? s.toValue
  | .engineClass => exports.map ({ · with engine := engineClass? s.toValue })
  | .newEngine => exports.map fun e => { e with engine := e.engine.map fun _ => creation? s }
  | .config => exports.map ({ · with config := entry part s })
  | .services => exports.map ({ · with services := Services.ofValue? s.toValue })
  | _ => exports.map fun e => { e with services := e.services.map (replaceService · part s) }

def replaceMethods (cast : Cast) (methods : Methods (State Memory)) : Methods (State Memory) :=
  cast.foldl
    (fun methods (part, s) =>
      match part with
      | .method m => methods.set m (methodEntry m s)
      | _ => methods)
    methods

/-- Replaces methods of the engine object, if one is made. -/
def replaceInClass (cast : Cast) (exports : Exports (State Memory)) : Exports (State Memory) :=
  { exports with
    engine := exports.engine.map fun make => make.map fun
      | .object methods => .object (cast.replaceMethods methods)
      | creation => creation }

/-- How a stand-in for the script ends. -/
def scriptStartup (s : StandIn) (state : State Memory) : Startup (State Memory) :=
  match s with
  | .raises message => .scriptRaised message
  | .replies values =>
    match values.headD [] with
    | .function :: _ => .finished none state
    | _ => .noInitializer
  | .recall | .value _ => .noInitializer

/-- How a stand-in for the initializer ends. -/
def initializerStartup (s : StandIn) (state : State Memory) : Startup (State Memory) :=
  match s with
  | .raises message => .initializerRaised message
  | .replies _ | .recall | .value _ => .finished none state

end Cast

/-- The module for a rehearsal. Parts that are replaced come in the order of the cast. -/
def rehearsal (cast : Cast) : RuntimeModule (State Memory) where
  start root searchPath :=
    let state := StandardModule.initial {} searchPath
    match cast.lookup .script, cast.lookup .initializer with
    | some s, _ => Cast.scriptStartup s state
    | none, some s => Cast.initializerStartup s state
    | none, none =>
      let whole :=
        StandardModule.exports StandardModule.oneMegabyte cast.extensions root searchPath
      let exports := cast.foldl (fun exports (part, s) => Cast.replace exports part s) (some whole)
      .finished (exports.map cast.replaceInClass) state

end PatternEngine
