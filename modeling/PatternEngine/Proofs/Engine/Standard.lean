import PatternEngine.Engine.Compile
import PatternEngine.Engine.Creation
import PatternEngine.Engine.FileMatch
import PatternEngine.Engine.Report
import PatternEngine.Engine.Trace
import PatternEngine.Proofs.Engine.Atomic
import PatternEngine.Proofs.Diagnostic.RoundTrip
import PatternEngine.Proofs.Importer.Reports
import PatternEngine.StandardModule
/-!
# Engines with the standard module

What each operation comes to when the engine runs the module that comes with the library.
-/
namespace PatternEngine

open PatternEngine.Action

namespace Engine

variable {σ : Type}

theorem call_run (entry : EntryPoint σ) (name : String) (files : FileSystem)
    (arguments : List Value) (e : Engine σ) :
    (call entry name files arguments).run e = match entry files arguments e.state with
      | (.returned values, state) => (.ok values, { e with state })
      | (.raised message, state) =>
        (.error (.raised (text name) message), { e with state }) := by
  unfold call
  rw [run_bind_ok (run_get e)]
  rcases entry files arguments e.state with ⟨_ | _, state⟩ <;>
    exact run_bind_ok (run_set _ _)

theorem callMethod_run {method : Methods σ → Option (EntryPoint σ)} {entry : EntryPoint σ}
    {e : Engine σ} (h : method e.slots.methods = some entry) (name : String) (files : FileSystem)
    (arguments : List Value) :
    (callMethod method name files arguments).run e = (call entry name files arguments).run e := by
  unfold callMethod
  rw [run_bind_ok (run_get e), h]

end Engine

/-- An engine whose module keeps the state of the standard module. -/
abbrev StandardEngine := Engine (StandardModule.State Unit)

namespace Standard

open PatternEngine.Engine

/-- What an engine uses of the standard module. -/
def slots (gauge : StandardModule.Gauge) (root defaultPath : Bytes) :
    Slots (StandardModule.State Unit) where
  methods := StandardModule.methods StandardModule.extensions
  config := some (StandardModule.config StandardModule.extensions root defaultPath)
  encoder := StandardModule.stateless Primitive.encodeValue
  stripper := StandardModule.stateless StandardModule.strip
  encoders := StandardModule.extensions (τ := Unit) |>.map Prod.fst
  collector := StandardModule.collect gauge

/-- The engine runs the standard module. -/
def Shipped (e : StandardEngine) : Prop :=
  ∃ gauge root defaultPath, e.slots = slots gauge root defaultPath

variable {e : StandardEngine} {files : FileSystem}

theorem Shipped.of_slots {e' : StandardEngine} (h : Shipped e) (hs : e'.slots = e.slots) :
    Shipped e' := by
  obtain ⟨gauge, root, path, h⟩ := h
  exact ⟨gauge, root, path, hs.trans h⟩

theorem Shipped.methods (h : Shipped e) :
    e.slots.methods = StandardModule.methods StandardModule.extensions := by
  obtain ⟨gauge, root, path, hs⟩ := h
  rw [hs]
  rfl

theorem Shipped.encoder (h : Shipped e) :
    e.slots.encoder = StandardModule.stateless Primitive.encodeValue := by
  obtain ⟨gauge, root, path, hs⟩ := h
  rw [hs]
  rfl

theorem Shipped.stripper (h : Shipped e) :
    e.slots.stripper = StandardModule.stateless StandardModule.strip := by
  obtain ⟨gauge, root, path, hs⟩ := h
  rw [hs]
  rfl

theorem Shipped.collector (h : Shipped e) :
    ∃ gauge, e.slots.collector = StandardModule.collect gauge := by
  obtain ⟨gauge, root, path, hs⟩ := h
  exact ⟨gauge, by rw [hs]; rfl⟩

theorem boot_standard (gauge : StandardModule.Gauge) (root defaultPath : Bytes) :
    boot ((shippedModule gauge).start root defaultPath) = .ok {
      slots := slots gauge root defaultPath
      state := StandardModule.initial () defaultPath } := rfl

/-! ## The services -/

theorem stateless_run (reply : List Value → Reply) (name : String) (arguments : List Value)
    {values : List Value} (h : reply arguments = .returned values) :
    (call (StandardModule.stateless reply) name files arguments).run e = (.ok values, e) := by
  rw [call_run]
  simp only [StandardModule.stateless, h]

theorem collectorCall_run {gauge : StandardModule.Gauge}
    (h : e.slots.collector = StandardModule.collect gauge) (option : String) :
    (collectorCall files option).run e =
      (.ok [if text option == text "count" then .float (gauge e.state.environment) else .int 0],
        e) := by
  unfold collectorCall
  rw [run_bind_ok (run_get e), h, call_run]
  rfl

theorem collect_run (h : Shipped e) : (collect files).run e = (.ok (), e) := by
  obtain ⟨gauge, hcollector⟩ := h.collector
  unfold collect
  rw [run_bind_ok (collectorCall_run hcollector _)]
  rfl

/-- The kilobytes in use, as the module counts them. -/
def inUse (e : StandardEngine) : Nat :=
  match (e.slots.collector {} [.str (text "count")] e.state).1 with
  | .returned [.float x] => x.ceilNat
  | _ => 0

theorem usage_run (h : Shipped e) : (usage files).run e = (.ok (inUse e), e) := by
  obtain ⟨gauge, hcollector⟩ := h.collector
  unfold usage inUse
  rw [run_bind_ok (collectorCall_run hcollector _), hcollector]
  rfl

theorem govern_run (h : Shipped e) : (govern files).run e = (.ok (), e) := by
  unfold govern
  rw [run_bind_ok (run_get e)]
  dsimp only
  split
  · rfl
  · rw [run_bind_ok (usage_run h)]
    split
    · exact collect_run h
    · rfl

theorem marshal_run (files : FileSystem) (h : Shipped e) {v : Value} {bytes : Bytes}
    (hempty : v.isEmpty = false) (hv : v.encode = .ok bytes) :
    (marshal files v).run e = (.ok (some bytes), e) := by
  have hr : Primitive.encodeValue [v] = .returned [.str bytes] := by
    simp only [Primitive.encodeValue, Primitive.argument, List.getD_cons_zero, hv]
  unfold marshal
  rw [if_neg (by simp [hempty]), run_bind_ok (run_get e), h.encoder,
    run_bind_ok (stateless_run _ _ _ hr)]
  rfl

/-- Diagnostics are handed out as their document, if there are any. -/
theorem marshal_diagnostics (files : FileSystem) (h : Shipped e) (ds : List Diagnostic) :
    (marshal files (Diagnostic.toValues ds)).run e = (.ok (Diagnostic.handOut ds), e) := by
  cases ds with
  | nil => rfl
  | cons d ds => exact marshal_run files h rfl (Diagnostic.encode_toValues (d :: ds))

/-- What is handed out of a diagnostic: its context stays behind. -/
theorem stripRecord_toValue (d : Diagnostic) :
    StandardModule.stripRecord d.toValue = .ok { d with context := none }.toValue := by
  obtain ⟨who, severity, message, line, filename, expression, context⟩ := d
  cases line <;> cases filename <;> cases expression <;> cases context <;> rfl

theorem strip_toValues (ds : List Diagnostic) :
    StandardModule.strip [Diagnostic.toValues ds] =
      .returned [Diagnostic.toValues (ds.map ({ · with context := none }))] := by
  have hmap : (ds.map Diagnostic.toValue).mapM StandardModule.stripRecord =
      .ok ((ds.map ({ · with context := none })).map Diagnostic.toValue) := by
    induction ds with
    | nil => rfl
    | cons d ds ih =>
      simp only [List.map_cons, List.mapM_cons, ih, stripRecord_toValue]
      rfl
  simp only [StandardModule.strip, Primitive.argument, Diagnostic.toValues, List.getD_cons_zero,
    hmap]

theorem strip_run (h : Shipped e) (ds : List Diagnostic) :
    (strip files (Diagnostic.toValues ds)).run e =
      (.ok (Diagnostic.toValues (ds.map ({ · with context := none }))), e) := by
  unfold strip
  split
  · cases ds with
    | nil => rfl
    | cons d ds => contradiction
  · rw [run_bind_ok (run_get e), h.stripper,
      run_bind_ok (stateless_run _ _ _ (strip_toValues ds))]
    rfl

/-! ## Loading and importing -/

/-- The engine with another environment. -/
def withEnvironment (e : StandardEngine) (environment : Environment) : StandardEngine :=
  { e with state := { e.state with environment } }

theorem shipped_withEnvironment (h : Shipped e) (environment : Environment) :
    Shipped (withEnvironment e environment) := h

/-- What is handed out of a report. -/
def outcomeOf (r : Importer.Report) : LoadOutcome where
  ok := r.ok
  package := r.package.map Text.Utf8.lossy
  diagnostics := Diagnostic.handOut (r.diagnostics.map ({ · with context := none }))

/-- The values in which a report is returned. -/
def reportValues (r : Importer.Report) : List Value :=
  [.bool r.ok, r.package.elim .nil .str, Diagnostic.toValues r.diagnostics]

theorem decodeLoad_run (files : FileSystem) (h : Shipped e) (name : String) (r : Importer.Report) :
    (decodeLoad files name (reportValues r)).run e = (.ok (outcomeOf r), e) := by
  have hm := marshal_diagnostics files h (r.diagnostics.map ({ · with context := none }))
  unfold decodeLoad reportValues outcomeOf
  simp only [Value.toBool?]
  cases r.package <;> dsimp only [Option.elim] <;>
    rw [run_bind_ok (run_pure _ _), run_bind_ok (strip_run h _), run_bind_ok hm] <;> rfl

/-- A reply with a report on an environment. -/
def reply (s : StandardModule.State Unit) (outcome : Importer.Report × Environment) :
    Reply × StandardModule.State Unit :=
  (.returned (reportValues outcome.1), { s with environment := outcome.2 })

theorem loadSource_eq (files : FileSystem) (s : StandardModule.State Unit) (source : Bytes)
    (filename : Option Bytes) : StandardModule.loadSource files s source filename =
      reply s (Importer.load files s.environment source filename) := by
  unfold StandardModule.loadSource Importer.load
  dsimp only
  split <;> rfl

theorem loadFile_eq (files : FileSystem) (s : StandardModule.State Unit) (path : Bytes) :
    StandardModule.loadFile files [.str path] s =
      reply s (Importer.loadFile files s.environment path) := by
  unfold StandardModule.loadFile Importer.loadFile
  dsimp only
  cases files.read path with
  | ok source => exact loadSource_eq files s source (some path)
  | error error => rfl

theorem bindPackage_eq (files : FileSystem) (s : StandardModule.State Unit) (package : Bytes)
    (under : Source.Alias) : StandardModule.bindPackage files s package under =
      reply s (Importer.importPackage files s.environment package under) := by
  unfold StandardModule.bindPackage Importer.importPackage
  dsimp only
  cases (Importer.finder files s.environment s.environment.packages package).exports <;> rfl

/-- A call that ends in a report on an environment. -/
theorem reply_run {entry : EntryPoint (StandardModule.State Unit)} {arguments : List Value}
    {outcome : Importer.Report × Environment} (h : Shipped e) (name : String)
    (hentry : entry files arguments e.state = reply e.state outcome) :
    (call entry name files arguments >>= fun values => decodeLoad files name values).run e =
      (.ok (outcomeOf outcome.1), withEnvironment e outcome.2) := by
  have hcall : (call entry name files arguments).run e =
      (.ok (reportValues outcome.1), withEnvironment e outcome.2) := by
    rw [call_run, hentry]
    rfl
  rw [run_bind_ok hcall, decodeLoad_run files (shipped_withEnvironment h outcome.2)]

theorem load_reports (files : FileSystem) (h : Shipped e) (source : Bytes) :
    let outcome := Importer.load files e.state.environment source none
    (load files source).run e = (.ok (outcomeOf outcome.1), withEnvironment e outcome.2) := by
  unfold load
  rw [run_bind, callMethod_run (by rw [h.methods]; rfl), ← run_bind]
  exact reply_run h _ (loadSource_eq files e.state source none)

theorem load_run (files : FileSystem) (h : Shipped e) (source : Bytes) :
    let outcome := Importer.load files e.state.environment source none
    ∃ messages, (load files source).run e =
      (.ok ⟨outcome.1.ok, outcome.1.package.map Text.Utf8.lossy, messages⟩,
        withEnvironment e outcome.2) :=
  ⟨_, load_reports files h source⟩

theorem loadFile_reports (files : FileSystem) (h : Shipped e) (path : Bytes) :
    let outcome := Importer.loadFile files e.state.environment path
    (loadFile files path).run e = (.ok (outcomeOf outcome.1), withEnvironment e outcome.2) := by
  unfold loadFile
  rw [run_bind, callMethod_run (by rw [h.methods]; rfl), ← run_bind]
  exact reply_run h _ (loadFile_eq files e.state path)

theorem loadFile_run (files : FileSystem) (h : Shipped e) (path : Bytes) :
    let outcome := Importer.loadFile files e.state.environment path
    ∃ messages, (loadFile files path).run e =
      (.ok ⟨outcome.1.ok, outcome.1.package.map Text.Utf8.lossy, messages⟩,
        withEnvironment e outcome.2) :=
  ⟨_, loadFile_reports files h path⟩

/-- The name under which a package is imported. -/
def aliasOf (under : Option Bytes) : Source.Alias := under.elim .none Source.Alias.ofName

theorem importPackage_reports (files : FileSystem) (h : Shipped e) (package : Bytes)
    (under : Option Bytes) :
    let outcome := Importer.importPackage files e.state.environment package (aliasOf under)
    (importPackage files package under).run e =
      (.ok (outcomeOf outcome.1), withEnvironment e outcome.2) := by
  unfold importPackage
  rw [run_bind, callMethod_run (by rw [h.methods]; rfl), ← run_bind]
  cases under <;> exact reply_run h _ (bindPackage_eq files e.state package _)

theorem importPackage_run (files : FileSystem) (h : Shipped e) (package : Bytes)
    (under : Option Bytes) :
    let outcome := Importer.importPackage files e.state.environment package (aliasOf under)
    ∃ messages, (importPackage files package under).run e =
      (.ok ⟨outcome.1.ok, outcome.1.package.map Text.Utf8.lossy, messages⟩,
        withEnvironment e outcome.2) :=
  ⟨_, importPackage_reports files h package under⟩

/-! ## Compiling -/

theorem compile_run_ok (h : Shipped e) {expression : Bytes} {pattern : Environment.Pattern}
    (hc : e.state.environment.compile expression = .ok pattern) :
    (compile files expression).run e =
      (keep (StandardModule.patternObject pattern) none).run e := by
  have hcall : (call StandardModule.compile "compile" files [.str expression]).run e =
      (.ok [StandardModule.patternObject pattern, .table [] []], e) := by
    rw [call_run]
    simp only [StandardModule.compile, hc]
  unfold compile
  rw [run_bind, callMethod_run (by rw [h.methods]; rfl), hcall]
  rfl

theorem compile_reports (files : FileSystem) (h : Shipped e) {expression : Bytes}
    {d : Diagnostic} (hc : e.state.environment.compile expression = .error d) :
    (compile files expression).run e = (.ok ⟨.none, Diagnostic.handOut [d]⟩, e) := by
  have hcall : (call StandardModule.compile "compile" files [.str expression]).run e =
      (.ok [.bool false, Diagnostic.toValues [d]], e) := by
    rw [call_run]
    simp only [StandardModule.compile, hc]
  unfold compile
  rw [run_bind, callMethod_run (by rw [h.methods]; rfl), hcall]
  dsimp only
  rw [run_bind_ok (marshal_diagnostics files h [d])]
  rfl

theorem compile_run_error (files : FileSystem) (h : Shipped e) {expression : Bytes} {d : Diagnostic}
    (hc : e.state.environment.compile expression = .error d) :
    ∃ messages, (compile files expression).run e = (.ok ⟨.none, messages⟩, e) :=
  ⟨_, compile_reports files h hc⟩

end Standard

end PatternEngine
