import PatternEngine.Encoder
import PatternEngine.Engine.Governor
import PatternEngine.Home
/-!
# Making an engine

A module is started, its entry points are looked up one after the other, and the search path and
the memory limit are set. An engine is made only if every step succeeds; the first that does not
decides the fault.
-/
namespace PatternEngine.Engine

variable {σ : Type}

structure Options where
  megabytes : Nat := 0
  searchPath : Option Bytes := none

/-- What is there, or else the fault that its name is missing. -/
def require {α : Type} (name : String) : Option α → Except Fault α
  | some value => .ok value
  | none => .error (.missing (text name))

def shadowing (name : Bytes) : Fault :=
  .boot (text "extension encoder `" ++ name ++ text "` shadows a built-in encoder")

def methodsOf (exports : Exports σ) : Except Fault (Methods σ) := do
  match ← require "new" (← require "engine" exports.engine) with
  | .raised message => .error (.raised (text "new") message)
  | .object methods => return methods
  | .other => .error (.contract (text "engine.new") (text "expected an engine object"))

/-- Looks up everything that an engine uses of a module (`populate`). The first part that is missing
decides the fault. -/
def slotsOf (exports : Option (Exports σ)) : Except Fault (Slots σ) := do
  let exports ← require "rosie" exports
  let methods ← methodsOf exports
  let services ← require "env" exports.services
  let encoder ← require "encode" (← require "json" services.json)
  let stripper ← require "strip_diagnostics" services.strip
  let encoders ← require "encoders" services.encoders
  let collector ← require "collect" services.collect
  -- everything is there, but a name among the encoders may be a built-in one
  match BuiltinEncoder.all.find? fun builtin => encoders.contains builtin.name with
  | some builtin => .error (shadowing builtin.name)
  | none => return { methods, config := exports.config, encoder, stripper, encoders, collector }

/-- Starts a module (`boot`). -/
def boot (startup : Startup σ) : Except Fault (Engine σ) :=
  match startup with
  | .scriptRaised message => .error (.boot (text "running boot.lua: " ++ message))
  | .noInitializer => .error (.boot (text "boot.lua did not return a function"))
  | .initializerRaised message =>
    .error (.boot (text "initializing the runtime module: " ++ message))
  | .finished exports state => do return { slots := ← slotsOf exports, state }

def setSearchPath (files : FileSystem) (path : Bytes) : Action σ Unit := do
  let _ ← callMethod Methods.setSearchPath "set_libpath" files [.str path]

/-- Makes an engine with a module (`with_options`). -/
def create (module : RuntimeModule σ) (files : FileSystem) (settings : Settings)
    (standardHome : Bytes) (options : Options) : Except Fault (Engine σ) := do
  let home ← Home.resolve files settings standardHome
  let engine ← boot (module.start home.root (home.moduleSearchPath settings))
  let setUp : Action σ Unit := do
    setSearchPath files (options.searchPath.getD home.searchPath)
    let _ ← setLimit files options.megabytes
  match setUp.run engine with
  | (.ok _, engine) => return engine
  | (.error fault, _) => .error fault

end PatternEngine.Engine
