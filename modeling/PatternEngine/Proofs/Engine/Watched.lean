import PatternEngine.Proofs.Engine.Frames
/-!
# Watching the collector

A module can be watched: beside its state a log is kept of what its collector is asked and what it
replies (`RuntimeModule.watched`). No operation notices that, and all that do not turn to the
collector leave the log alone (`Mirrors`).
-/
namespace PatternEngine

open PatternEngine.Action

/-- A call of a collector, and what came back. -/
structure Exchange where
  arguments : List Value
  reply : Reply

variable {σ : Type}

namespace EntryPoint

/-- The entry point when there is a log beside the state, which it leaves alone. -/
def beside (entry : EntryPoint σ) : EntryPoint (σ × List Exchange) :=
  fun files arguments (state, log) =>
    let (reply, state) := entry files arguments state
    (reply, (state, log))

/-- The entry point when what it is asked and what it replies is written down. -/
def logged (entry : EntryPoint σ) : EntryPoint (σ × List Exchange) :=
  fun files arguments (state, log) =>
    let (reply, state) := entry files arguments state
    (reply, (state, log ++ [⟨arguments, reply⟩]))

end EntryPoint

/-- The methods, with a log beside the state. -/
def Methods.watched (methods : Methods σ) : Methods (σ × List Exchange) where
  compile := methods.compile.map EntryPoint.beside
  matchInput := methods.matchInput.map EntryPoint.beside
  trace := methods.trace.map EntryPoint.beside
  load := methods.load.map EntryPoint.beside
  loadFile := methods.loadFile.map EntryPoint.beside
  importPackage := methods.importPackage.map EntryPoint.beside
  searchPath := methods.searchPath.map EntryPoint.beside
  setSearchPath := methods.setSearchPath.map EntryPoint.beside

/-- What an engine uses, with a log of the collector. -/
def Slots.watched (slots : Slots σ) : Slots (σ × List Exchange) where
  methods := slots.methods.watched
  config := slots.config.map EntryPoint.beside
  encoder := EntryPoint.beside slots.encoder
  stripper := EntryPoint.beside slots.stripper
  encoders := slots.encoders
  collector := EntryPoint.logged slots.collector

def Creation.watched : Creation σ → Creation (σ × List Exchange)
  | .raised message => .raised message
  | .object methods => .object methods.watched
  | .other => .other

def Services.watched (services : Services σ) : Services (σ × List Exchange) where
  json := services.json.map (·.map EntryPoint.beside)
  strip := services.strip.map EntryPoint.beside
  encoders := services.encoders
  collect := services.collect.map EntryPoint.logged

def Exports.watched (exports : Exports σ) : Exports (σ × List Exchange) where
  engine := exports.engine.map (·.map Creation.watched)
  config := exports.config.map EntryPoint.beside
  services := exports.services.map Services.watched

def Startup.watched : Startup σ → Startup (σ × List Exchange)
  | .scriptRaised message => .scriptRaised message
  | .noInitializer => .noInitializer
  | .initializerRaised message => .initializerRaised message
  | .finished exports state => .finished (exports.map Exports.watched) (state, [])

/-- The module, with a log of its collector, which is empty when it has started. -/
def RuntimeModule.watched (module : RuntimeModule σ) : RuntimeModule (σ × List Exchange) where
  start root searchPath := (module.start root searchPath).watched

namespace Engine

/-- The engine, when its module is watched and this has been written down. -/
def watched (e : Engine σ) (log : List Exchange) : Engine (σ × List Exchange) where
  slots := e.slots.watched
  state := (e.state, log)
  patterns := e.patterns
  limit := e.limit
  previousScripted := e.previousScripted
  nativeResult := e.nativeResult

variable {α β : Type} {a : Action σ α} {a' : Action (σ × List Exchange) α} {f : α → Action σ β}
  {f' : α → Action (σ × List Exchange) β} {files : FileSystem}

/-- An action comes to the same when the module is watched, and does not turn to the collector. -/
def Mirrors (a : Action σ α) (a' : Action (σ × List Exchange) α) : Prop :=
  ∀ e log, a'.run (e.watched log) = ((a.run e).1, (a.run e).2.watched log)

namespace Mirrors

theorem pure (x : α) : Mirrors (pure x : Action σ α) (pure x) := fun _ _ => rfl

theorem throw (fault : Fault) : Mirrors (throw fault : Action σ α) (throw fault) := fun _ _ => rfl

theorem violation (call : String) (detail : Bytes) :
    Mirrors (violation call detail : Action σ α) (violation call detail) := fun _ _ => rfl

theorem bind (ha : Mirrors a a') (hf : ∀ x, Mirrors (f x) (f' x)) :
    Mirrors (a >>= f) (a' >>= f') := by
  intro e log
  rw [run_bind, run_bind, ha e log]
  rcases a.run e with ⟨fault | x, e₁⟩
  · rfl
  · exact hf x e₁ log

theorem get_bind {g : Engine σ → Action σ β} {g' : Engine (σ × List Exchange) → Action _ β}
    (hg : ∀ e log, Mirrors (g e) (g' (e.watched log))) : Mirrors (get >>= g) (get >>= g') := by
  intro e log
  rw [run_bind_ok (run_get _), run_bind_ok (run_get _)]
  exact hg e log e log

theorem modify {g : Engine σ → Engine σ} {g' : Engine (σ × List Exchange) → Engine _}
    (hg : ∀ e log, g' (e.watched log) = (g e).watched log) :
    Mirrors (modify g : Action σ PUnit) (modify g') := by
  intro e log
  rw [run_modify, run_modify, hg]

end Mirrors

/-! ## Calls into the module -/

theorem mirrors_call (entry : EntryPoint σ) (name : String) (files : FileSystem)
    (arguments : List Value) :
    Mirrors (call entry name files arguments) (call entry.beside name files arguments) := by
  intro e log
  unfold call
  rw [run_bind_ok (run_get _), run_bind_ok (run_get _)]
  unfold EntryPoint.beside watched
  dsimp only
  rcases entry files arguments e.state with ⟨values | message, state⟩ <;> rfl

theorem mirrors_callMethod {method : Methods σ → Option (EntryPoint σ)}
    {method' : Methods (σ × List Exchange) → Option (EntryPoint _)}
    (hmethod : ∀ methods, method' methods.watched = (method methods).map EntryPoint.beside)
    (name : String) (files : FileSystem) (arguments : List Value) :
    Mirrors (callMethod method name files arguments) (callMethod method' name files arguments) := by
  refine .get_bind fun e log => ?_
  have hfound : method' (e.watched log).slots.methods = _ := hmethod e.slots.methods
  rw [hfound]
  cases method e.slots.methods with
  | none => exact .throw _
  | some entry => exact mirrors_call entry name files arguments

theorem mirrors_marshal (v : Value) : Mirrors (marshal files v : Action σ _) (marshal files v) := by
  unfold marshal
  split
  · exact .pure _
  · refine .get_bind fun e log => (mirrors_call _ _ _ _).bind fun values => ?_
    split
    · split
      · exact .pure _
      · exact .violation _ _
    · exact .violation _ _

theorem mirrors_strip (v : Value) : Mirrors (strip files v : Action σ _) (strip files v) := by
  unfold strip
  split
  · exact .pure _
  · refine .get_bind fun e log => (mirrors_call _ _ _ _).bind fun values => ?_
    split
    · split
      · exact .pure _
      · exact .violation _ _
    · exact .violation _ _

/-! ## Patterns -/

theorem mirrors_keep (pattern : Value) (diagnostics : Option Bytes) :
    Mirrors (keep pattern diagnostics : Action σ _) (keep pattern diagnostics) := by
  intro e log
  rw [keep_run, keep_run]
  have hpatterns : (e.watched log).patterns = e.patterns := rfl
  rw [hpatterns]
  split <;> rfl

theorem mirrors_compile (expression : Bytes) :
    Mirrors (compile files expression : Action σ _) (compile files expression) := by
  refine (mirrors_callMethod (fun _ => rfl) _ _ _).bind fun values => ?_
  split
  · refine (mirrors_marshal _).bind fun diagnostics => ?_
    split
    · exact .pure _
    · exact mirrors_keep _ _
    · exact .violation _ _
  · exact .violation _ _

theorem mirrors_freePattern (handle : Handle) :
    Mirrors (freePattern handle : Action σ _) (freePattern handle) := by
  intro e log
  rw [freePattern_run, freePattern_run]
  have hpatterns : (e.watched log).patterns = e.patterns := rfl
  rw [hpatterns]
  split <;> rfl

/-! ## Matches -/

theorem mirrors_integer (what : String) (v : Value) :
    Mirrors (integer what v : Action σ _) (integer what v) := by
  unfold integer
  split
  · exact .pure _
  · exact .violation _ _

theorem mirrors_keepResult (result : Value) :
    Mirrors (keepResult result : Action σ _) (keepResult result) := by
  unfold keepResult
  split
  · exact (Mirrors.modify fun _ _ => rfl).bind fun _ => .pure _
  · exact .pure _
  · exact (Mirrors.modify fun _ _ => rfl).bind fun _ => .pure _
  · exact .violation _ _

theorem mirrors_decode (values : List Value) :
    Mirrors (decode values : Action σ _) (decode values) := by
  unfold decode
  split
  · refine (mirrors_integer _ _).bind fun leftover => ?_
    split
    · refine (mirrors_integer _ _).bind fun total => (mirrors_integer _ _).bind fun time => ?_
      exact (mirrors_keepResult _).bind fun data => .pure _
    · exact .violation _ _
  · exact .violation _ _

theorem mirrors_nativeMatch (pattern : Value) (start : Int) (encoder : BuiltinEncoder)
    (input : Bytes) : Mirrors (nativeMatch pattern start encoder input : Action σ _)
      (nativeMatch pattern start encoder input) := by
  unfold nativeMatch
  split
  · exact (Mirrors.modify fun _ _ => rfl).bind fun _ => .pure _
  · exact .violation _ _

theorem mirrors_scriptedMatch (pattern : Value) (start : Int) (encoder input : Bytes) :
    Mirrors (scriptedMatch files pattern start encoder input : Action σ _)
      (scriptedMatch files pattern start encoder input) :=
  (Mirrors.modify fun _ _ => rfl).bind fun _ =>
    (mirrors_callMethod (fun _ => rfl) _ _ _).bind fun values => mirrors_decode values

theorem mirrors_dispatch (handle : Handle) (start : Int) (encoder input : Bytes) :
    Mirrors (dispatch files handle start encoder input : Action σ _)
      (dispatch files handle start encoder input) := by
  refine .get_bind fun e log => ?_
  have hpatterns : (e.watched log).patterns = e.patterns := rfl
  have hknown : ∀ name, (e.watched log).hasExtension name = e.hasExtension name := fun _ => rfl
  rw [hpatterns]
  split
  · exact .pure _
  · split
    · exact mirrors_nativeMatch _ _ _ _
    · rw [hknown]
      split
      · exact mirrors_scriptedMatch _ _ _ _
      · exact .pure _

/-! ## Traces -/

theorem mirrors_flag (what : String) (v : Value) :
    Mirrors (flag what v : Action σ _) (flag what v) := by
  unfold flag
  split
  · exact .pure _
  · exact .violation _ _

theorem mirrors_traceBytes (v : Value) :
    Mirrors (traceBytes files v : Action σ _) (traceBytes files v) := by
  unfold traceBytes
  dsimp only
  split
  · refine (mirrors_marshal _).bind fun bytes => ?_
    split
    · exact .pure _
    · exact .violation _ _
  · refine (Mirrors.pure _).bind fun bytes => ?_
    split
    · exact .pure _
    · exact .violation _ _

/-! ## Sources and reports -/

theorem mirrors_decodeLoad (name : String) (values : List Value) :
    Mirrors (decodeLoad files name values : Action σ _) (decodeLoad files name values) := by
  have hrest : ∀ (ok : Bool) (messages : Value) (package : Option Bytes), Mirrors (do
      let stripped ← strip files messages
      return ⟨ok, package, ← marshal files stripped⟩ : Action σ LoadOutcome) (do
      let stripped ← strip files messages
      return ⟨ok, package, ← marshal files stripped⟩) :=
    fun ok messages package => (mirrors_strip _).bind fun stripped =>
      (mirrors_marshal _).bind fun diagnostics => .pure _
  unfold decodeLoad
  split
  · split
    · dsimp only
      split
      · exact (Mirrors.pure _).bind (hrest _ _)
      · exact (Mirrors.pure _).bind (hrest _ _)
      · exact (Mirrors.violation _ _).bind (hrest _ _)
    · exact .violation _ _
  · exact .violation _ _

theorem mirrors_load (source : Bytes) :
    Mirrors (load files source : Action σ _) (load files source) :=
  (mirrors_callMethod (fun _ => rfl) _ _ _).bind fun _ => mirrors_decodeLoad _ _

theorem mirrors_loadFile (path : Bytes) :
    Mirrors (loadFile files path : Action σ _) (loadFile files path) :=
  (mirrors_callMethod (fun _ => rfl) _ _ _).bind fun _ => mirrors_decodeLoad _ _

theorem mirrors_importPackage (package : Bytes) (under : Option Bytes) :
    Mirrors (importPackage files package under : Action σ _)
      (importPackage files package under) :=
  (mirrors_callMethod (fun _ => rfl) _ _ _).bind fun _ => mirrors_decodeLoad _ _

theorem mirrors_setSearchPath (path : Bytes) :
    Mirrors (setSearchPath files path : Action σ _) (setSearchPath files path) :=
  (mirrors_callMethod (fun _ => rfl) _ _ _).bind fun _ => .pure _

theorem mirrors_searchPath : Mirrors (searchPath files : Action σ _) (searchPath files) := by
  refine (mirrors_callMethod (fun _ => rfl) _ _ _).bind fun values => ?_
  split
  · exact .pure _
  · exact .violation _ _

theorem mirrors_config : Mirrors (config files : Action σ _) (config files) := by
  refine .get_bind fun e log => ?_
  have hconfig : (e.watched log).slots.config = e.slots.config.map EntryPoint.beside := rfl
  rw [hconfig]
  cases e.slots.config with
  | none => exact .throw _
  | some entry =>
    refine (mirrors_call _ _ _ _).bind fun values => ?_
    split
    · exact mirrors_marshal _
    · exact .violation _ _

end Engine

end PatternEngine
