import PatternEngine.Proofs.Engine.FileMatches
import PatternEngine.Proofs.Engine.Traces
import PatternEngine.Proofs.Value.Documented
/-!
# Faults of a running engine

With the standard module almost nothing can go wrong: whatever has been called before, a call ends
in a fault only if it asks for a limit that is too small, or if it compiles when there is no handle
left (`fault_iff`). No entry point ever raises a message or breaks what is agreed about the values
it returns.
-/
namespace PatternEngine

open PatternEngine.Action PatternEngine.Engine

namespace Call

variable {σ α : Type}

/-- The fault that there is. -/
def faultOf : Except Fault α → Option Fault
  | .ok _ => none
  | .error fault => some fault

/-- The fault that a call ends in, if it ends in one. -/
def fault? (world : World) (e : Engine σ) : Call → Option Fault
  | .compile expression => faultOf ((Engine.compile world.files expression).run e).1
  | .free pattern => faultOf ((Engine.freePattern pattern).run e).1
  | .matchInput pattern start encoder input =>
    faultOf ((Engine.matchInput world.files pattern start encoder input).run e).1
  | .trace pattern start style input =>
    faultOf ((Engine.trace world.files pattern start style input).run e).1
  | .load source => faultOf ((Engine.load world.files source).run e).1
  | .loadFile path => faultOf ((Engine.loadFile world.files path).run e).1
  | .importPackage package under =>
    faultOf ((Engine.importPackage world.files package under).run e).1
  | .matchFile request => faultOf (Engine.matchFile e request world).1.1
  | .searchPath => faultOf ((Engine.searchPath world.files).run e).1
  | .setSearchPath path => faultOf ((Engine.setSearchPath world.files path).run e).1
  | .config => faultOf ((Engine.config world.files).run e).1
  | .queryLimit => faultOf ((Engine.queryLimit world.files).run e).1
  | .setLimit megabytes => faultOf ((Engine.setLimit world.files megabytes).run e).1

end Call

namespace Standard

open PatternEngine.Call

variable {gauge : StandardModule.Gauge} {installation : FileSystem} {settings : Settings}
  {standardHome : Bytes} {options : Options} {e₀ e : StandardEngine} {handle : Handle}
  {files : FileSystem}

/-! ## Reports -/

theorem marshal_documented (files : FileSystem) (h : Shipped e) {v : Value}
    (hempty : v.isEmpty = false) (hv : Value.Documented 0 v) :
    ∃ bytes, (marshal files v).run e = (.ok (some bytes), e) := by
  obtain ⟨document, hd⟩ := hv
  refine ⟨document.render, marshal_run files h hempty ?_⟩
  rw [Value.encode_eq, hd]
  rfl

/-- The report on the configuration is a list of records with names and texts. -/
theorem config_run (h : Shipped e) :
    ∃ report, (Engine.config files).run e = (.ok (some report), e) := by
  obtain ⟨gauge, root, path, hs⟩ := id h
  have hentry : ∀ name value description : Bytes,
      Value.Documented 1 (StandardModule.configEntry name value description) := by
    intro name value description
    refine Value.documented_record (by decide) ?_
    intro f hf
    simp only [List.mem_cons, List.not_mem_nil, or_false] at hf
    rcases hf with rfl | rfl | rfl <;> exact ⟨rfl, Value.documented_str _⟩
  unfold Engine.config
  rw [run_bind_ok (run_get e), hs]
  dsimp only [slots, StandardModule.config]
  rw [run_bind_ok (stateless_run (fun _ => .returned _) _ _ rfl)]
  dsimp only
  refine marshal_documented files h rfl ?_
  refine Value.documented_list (by decide) ?_
  intro v hv
  simp only [List.mem_cons, List.not_mem_nil, or_false] at hv
  rcases hv with rfl | rfl | rfl | rfl | rfl <;> exact hentry _ _ _

theorem searchPath_run (h : Shipped e) :
    (Engine.searchPath files).run e =
      (.ok (Text.Utf8.lossy e.state.environment.searchPath), e) := by
  unfold Engine.searchPath
  rw [run_bind, callMethod_run (by rw [h.methods]; rfl), ← run_bind]
  rfl

/-! ## Matching -/

/-- A match that has an answer ends in no fault. -/
theorem fault_of_answer {start : Int} {encoder input : Bytes} {a : Answer}
    (h : answer files handle start encoder input e = some a) :
    faultOf ((Engine.matchInput files handle start encoder input).run e).1 = none := by
  unfold answer at h
  split at h
  · rename_i hrun
    rw [hrun]
    rfl
  · cases h

/-- Matching a file with a known encoder ends in no fault, whatever is wrong with the files. -/
theorem fault_of_processFile {r : FileRequest} {pattern : Environment.Pattern} (h : Shipped e)
    (hp : e.patterns.get? r.pattern = some (StandardModule.patternObject pattern))
    (hencoder : r.encoder ∈ encoderNames) (world : World) :
    faultOf (processFile r world e).1.1 = none := by
  have hmatch : ∀ (output errors : Target) (world : World) (input : Bytes),
      faultOf (matchInputFile r output errors world input e).1.1 = none := by
    intro output errors world input
    obtain ⟨tally, e', -, hrecords, -⟩ :=
      matchRecords_each world.files hencoder (recordsOf r.wholeFile input) {} h hp
    unfold matchInputFile
    dsimp only
    rw [hrecords]
    rfl
  unfold processFile
  dsimp only
  split
  · rfl
  · split
    · rfl
    · split
      · rfl
      · split
        · exact hmatch _ _ _ _
        · rfl

/-- Matching a file ends in no fault, whatever the handle and the encoder are. -/
theorem fault_of_matchFile (hs : Shipped e) (hp : Patterned e) (request : FileRequest)
    (world : World) : faultOf (Engine.matchFile e request world).1.1 = none := by
  obtain ⟨hdead, hunknown⟩ := matchFile_refused hs request world
  cases hv : e.patterns.get? request.pattern with
  | none =>
    rw [hdead hv]
    rfl
  | some v =>
    have hlive : (e.patterns.get? request.pattern).isSome = true := by
      rw [hv]
      rfl
    by_cases hencoder : request.encoder ∈ encoderNames
    · obtain ⟨pattern, rfl⟩ := pattern_of_get? hp hv
      rw [matchFile_known hs hlive hencoder]
      exact fault_of_processFile hs hv hencoder world
    · rw [hunknown hlive hencoder]
      rfl

/-! ## All calls -/

/-- Compiling ends in a fault only when the pattern cannot be kept. -/
theorem compile_fault (h : Shipped e) {expression : Bytes} {fault : Fault} :
    faultOf ((compile files expression).run e).1 = some fault ↔
      (∃ pattern, e.state.environment.compile expression = .ok pattern) ∧ e.patterns.Full ∧
        fault = .handlesExhausted := by
  cases hc : e.state.environment.compile expression with
  | error d =>
    rw [compile_reports files h hc]
    simp [faultOf]
  | ok pattern =>
    have hfull : e.patterns.insert (StandardModule.patternObject pattern) = none ↔
        e.patterns.Full := HandleTable.insert_none_iff
    rw [compile_run_ok h hc, keep_run, ← hfull]
    split
    · rename_i hi
      simp [faultOf, hi]
    · rename_i hi
      simp [faultOf, hi, eq_comm]

theorem setLimit_fault (h : Shipped e) {megabytes : Nat} {fault : Fault} :
    faultOf ((setLimit files megabytes).run e).1 = some fault ↔
      1 ≤ megabytes ∧ megabytes ≤ 7 ∧ fault = .limitTooSmall megabytes 8 := by
  have hmin : minLimit = 8 := rfl
  have hsmall : (megabytes != 0 && megabytes < minLimit) = true ↔
      1 ≤ megabytes ∧ megabytes ≤ 7 := by
    rw [hmin, Bool.and_eq_true, bne_iff_ne, decide_eq_true_eq]
    omega
  rw [setLimit_run h]
  split
  · rename_i hlow
    obtain ⟨hl, hu⟩ := hsmall.1 hlow
    simp [faultOf, hmin, hl, hu, eq_comm]
  · rename_i hhigh
    rw [hsmall] at hhigh
    constructor
    · intro hfault
      cases hfault
    · rintro ⟨hl, hu, -⟩
      exact absurd ⟨hl, hu⟩ hhigh

/-- All other calls end in no fault. -/
theorem fault_none (hs : Shipped e) (hp : Patterned e) (call : Call) (world : World)
    (hcompile : ∀ expression, call ≠ .compile expression)
    (hlimit : ∀ megabytes, call ≠ .setLimit megabytes) : call.fault? world e = none := by
  cases call with
  | compile expression => exact absurd rfl (hcompile expression)
  | free handle =>
    simp only [Call.fault?, freePattern_run]
    split <;> rfl
  | matchInput handle start encoder input =>
    cases hv : e.patterns.get? handle with
    | none => exact fault_of_answer (answer_none world.files hs hv start encoder input)
    | some v =>
      obtain ⟨pattern, rfl⟩ := pattern_of_get? hp hv
      exact fault_of_answer (answer_live world.files hs hv start encoder input)
  | trace handle start style input =>
    simp only [Call.fault?]
    cases hv : e.patterns.get? handle with
    | none =>
      rw [trace_run_none world.files hs hv]
      rfl
    | some v =>
      obtain ⟨pattern, rfl⟩ := pattern_of_get? hp hv
      rw [trace_run world.files hs hv]
      rfl
  | load source =>
    simp only [Call.fault?, load_reports world.files hs]
    rfl
  | loadFile path =>
    simp only [Call.fault?, loadFile_reports world.files hs]
    rfl
  | importPackage package under =>
    simp only [Call.fault?, importPackage_reports world.files hs]
    rfl
  | matchFile request => exact fault_of_matchFile hs hp request world
  | searchPath =>
    simp only [Call.fault?, searchPath_run hs]
    rfl
  | setSearchPath path =>
    simp only [Call.fault?, setSearchPath_run hs]
    rfl
  | config =>
    obtain ⟨report, hreport⟩ : ∃ report, (Engine.config world.files).run e =
        (.ok (some report), e) := config_run hs
    simp only [Call.fault?, hreport]
    rfl
  | queryLimit =>
    simp only [Call.fault?, queryLimit_run hs]
    rfl
  | setLimit megabytes => exact absurd rfl (hlimit megabytes)

/-- A call ends in a fault in two cases only: a limit is set to less than the smallest one, or a
pattern has been compiled for which there is no handle left. -/
theorem fault_iff
    (hmade : create (shippedModule gauge) installation settings standardHome options = .ok e₀)
    (hrun : Steps Call.Any e₀ e) (call : Call) (world : World) (fault : Fault) :
    call.fault? world e = some fault ↔
      (∃ megabytes, call = .setLimit megabytes ∧ 1 ≤ megabytes ∧ megabytes ≤ 7 ∧
        fault = .limitTooSmall megabytes 8) ∨
      ∃ expression, call = .compile expression ∧
        (∃ pattern, e.state.environment.compile expression = .ok pattern) ∧ e.patterns.Full ∧
        fault = .handlesExhausted := by
  have hfresh := (fresh_of_create hmade).1
  have hs : Shipped e := shipped_of_steps hfresh.shipped hrun
  by_cases hcompile : ∃ expression, call = .compile expression
  · obtain ⟨expression, rfl⟩ := hcompile
    rw [Call.fault?, compile_fault hs]
    simp
  · by_cases hlimit : ∃ megabytes, call = .setLimit megabytes
    · obtain ⟨megabytes, rfl⟩ := hlimit
      rw [Call.fault?, setLimit_fault hs]
      simp
    · rw [fault_none hs (patterned_of_steps hfresh hrun) call world (not_exists.1 hcompile)
        (not_exists.1 hlimit)]
      constructor
      · intro h
        cases h
      · rintro (⟨megabytes, h, -⟩ | ⟨expression, h, -⟩)
        · exact absurd ⟨megabytes, h⟩ hlimit
        · exact absurd ⟨expression, h⟩ hcompile

/-- A limit of three megabytes is too small, and to trace bytes that are no text is no fault. -/
theorem fault_iff_sample : ∃ e₀ e : StandardEngine,
    let world : World := ⟨sample, [], [], []⟩
    create standardModule sample {} (text "r") {} = .ok e₀ ∧ Steps Call.Any e₀ e ∧
    (e.patterns.get? ⟨1⟩).isSome = true ∧
    Call.fault? world e (.setLimit 3) = some (.limitTooSmall 3 8) ∧
    Call.fault? world e (.trace ⟨1⟩ (-5) (text "json") [0xFF]) = none := by
  obtain ⟨e₀, hmade, hlive⟩ : ∃ e₀ : StandardEngine,
      create standardModule sample {} (text "r") {} = .ok e₀ ∧
      ((Call.after ⟨sample, [], [], []⟩ e₀ (.compile (text "(?<x>a)"))).patterns.get?
        ⟨1⟩).isSome = true := ⟨_, rfl, rfl⟩
  have hstep : Steps Call.Any e₀
      (Call.after ⟨sample, [], [], []⟩ e₀ (.compile (text "(?<x>a)"))) :=
    .single ⟨_, _, trivial, rfl⟩
  refine ⟨e₀, _, hmade, hstep, hlive, ?_, ?_⟩
  · exact (fault_iff hmade hstep (.setLimit 3) _ _).2
      (.inl ⟨3, rfl, by decide, by decide, rfl⟩)
  · refine Option.eq_none_iff_forall_ne_some.2 fun fault h => ?_
    rcases (fault_iff hmade hstep _ _ fault).1 h with ⟨megabytes, h, -⟩ | ⟨expression, h, -⟩
    · cases h
    · cases h

end Standard

end PatternEngine
