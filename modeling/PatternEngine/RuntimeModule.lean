import PatternEngine.FileSystem
import PatternEngine.Reply
/-!
# Runtime modules

An engine does its work through a runtime module: a set of entry points that it calls by value.
Nothing is known of a module beforehand. It may lack any entry point, and what a call returns has
to be checked. A module keeps a state of its own, of any type, and may read files.
-/
namespace PatternEngine

/-- Something that can be called: it reads files, takes values, and may change the state. -/
abbrev EntryPoint (σ : Type) := FileSystem → List Value → σ → Reply × σ

/-- The methods of an engine object, as far as there are any. They are those it has when it is made;
that it may get others later is not described. -/
structure Methods (σ : Type) where
  compile : Option (EntryPoint σ) := none
  matchInput : Option (EntryPoint σ) := none
  trace : Option (EntryPoint σ) := none
  load : Option (EntryPoint σ) := none
  loadFile : Option (EntryPoint σ) := none
  importPackage : Option (EntryPoint σ) := none
  searchPath : Option (EntryPoint σ) := none
  setSearchPath : Option (EntryPoint σ) := none

/-- What the call that makes an engine object comes to. -/
inductive Creation (σ : Type) where
  | raised (message : Bytes)
  | object (methods : Methods σ)
  /-- the first thing returned is no object -/
  | other

/-- The services of a module that serve no single engine, as they are when it has started. A service
that is no table, or no function, is none. -/
structure Services (σ : Type) where
  /-- the table of the document encoder, and the encoder in it -/
  json : Option (Option (EntryPoint σ)) := none
  strip : Option (EntryPoint σ) := none
  /-- the names in the table of extension encoders -/
  encoders : Option (List Bytes) := none
  /-- the call that collects garbage and counts memory -/
  collect : Option (EntryPoint σ) := none

/-- The table that a module leaves behind. -/
structure Exports (σ : Type) where
  /-- the table of the engine class, and the call in it that makes an engine object -/
  engine : Option (Option (Creation σ)) := none
  config : Option (EntryPoint σ) := none
  services : Option (Services σ) := none

/-- How the start of a module ended. -/
inductive Startup (σ : Type) where
  /-- the script raised a message -/
  | scriptRaised (message : Bytes)
  /-- the script returned nothing that can be called -/
  | noInitializer
  /-- the initializer raised a message -/
  | initializerRaised (message : Bytes)
  /-- both ran; the module may still have left no table behind -/
  | finished (exports : Option (Exports σ)) (state : σ)

/-- A module: how it starts, given the path of the installation and the search path for packages
that applies by default. -/
structure RuntimeModule (σ : Type) where
  start : (root searchPath : Bytes) → Startup σ

end PatternEngine
