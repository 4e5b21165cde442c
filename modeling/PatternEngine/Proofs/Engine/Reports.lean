import PatternEngine.Proofs.Engine.Lifetimes
import PatternEngine.Proofs.Engine.Packages
import PatternEngine.Proofs.Importer.Processed
/-!
# Diagnostics of a running engine

What the module says about an expression, a source or a package reaches the host as one buffer.

* `diagnostics_cross` — the buffer is there exactly when something was said, and reading it gives
  every diagnostic that the module returned, in order.
* `success_iff_no_error` — a call succeeds exactly when no error is said, through any depth of
  nested imports.
-/
namespace PatternEngine

open PatternEngine.Engine PatternEngine.Importer

/-- A call whose result comes with diagnostics. -/
inductive Request where
  | compile (expression : Bytes)
  | update (update : Update)

namespace Request

variable {σ : Type}

/-- The entry point of the module that is called. -/
def method (methods : Methods σ) : Request → Option (EntryPoint σ)
  | .compile _ => methods.compile
  | .update (.load _) => methods.load
  | .update (.loadFile _) => methods.loadFile
  | .update (.importPackage _ _) => methods.importPackage

/-- What it is called with. -/
def arguments : Request → List Value
  | .compile expression => [.str expression]
  | .update (.load source) => [.str source]
  | .update (.loadFile path) => [.str path]
  | .update (.importPackage package under) => [.str package, under.elim .nil .str]

/-- The module returns these diagnostics, behind everything else that it returns. -/
def Returns (files : FileSystem) (e : Engine σ) (request : Request) (ds : List Diagnostic) : Prop :=
  ∃ entry values, request.method e.slots.methods = some entry ∧
    (entry files request.arguments e.state).1 = .returned (values ++ [Diagnostic.toValues ds])

/-- What of the records is handed out: an update keeps the contexts back. -/
def shown : Request → List Diagnostic → List Diagnostic
  | .compile _, ds => ds
  | .update _, ds => ds.map ({ · with context := none })

theorem handOut_shown_eq_none {request : Request} {ds : List Diagnostic} :
    Diagnostic.handOut (request.shown ds) = none ↔ ds = [] := by
  rw [Diagnostic.handOut_eq_none]
  cases request <;> simp [shown]

/-- What is handed out is read back: contexts are not read in any case. -/
theorem parse_shown {request : Request} {ds : List Diagnostic} {bytes : Bytes}
    (h : Diagnostic.handOut (request.shown ds) = some bytes)
    (hline : ∀ d ∈ ds, ∀ n, d.line = some n → n ≤ Json.Reader.maxNatural) :
    Diagnostic.parse bytes = .ok (ds.map Diagnostic.readBack) := by
  cases request with
  | compile expression => exact Diagnostic.parse_handOut h hline
  | update update =>
    rw [Diagnostic.parse_handOut h, shown, List.map_map]
    · rfl
    · intro d' hd'
      obtain ⟨d, hd, rfl⟩ := List.mem_map.1 hd'
      exact hline d hd

/-- An update hands out no name that starts with an underscore. -/
theorem keys_shown {update : Update} {ds : List Diagnostic} {bytes : Bytes}
    (h : Diagnostic.handOut ((Request.update update).shown ds) = some bytes) :
    ∃ document : Json, bytes = document.render ∧
      ∀ key ∈ document.keys, key.head? ≠ some 0x5F := by
  refine Diagnostic.keys_of_handOut h ?_
  intro d' hd'
  obtain ⟨d, -, rfl⟩ := List.mem_map.1 hd'
  rfl

/-- The buffer of diagnostics that the host gets, unless the call ends in a fault. -/
def buffer (files : FileSystem) (e : Engine σ) : Request → Except Fault (Option Bytes)
  | .compile expression => ((Engine.compile files expression).run e).1.map (·.diagnostics)
  | .update call => ((call.action files).run e).1.map (·.diagnostics)

/-- Texts are no longer than a machine can hold: their lengths are signed numbers of 64 bits. -/
structure Held (files : FileSystem) (request : Request) : Prop where
  files : ∀ entry ∈ files.files, entry.2.length < Nat.pow 2 63
  arguments : ∀ bytes, Value.str bytes ∈ request.arguments → bytes.length < Nat.pow 2 63

end Request

/-! ## What an update says -/

namespace Update

variable {files : FileSystem} {env : Environment} {update : Update}

theorem action_reports {e : StandardEngine} (files : FileSystem) (h : Standard.Shipped e)
    (update : Update) :
    let outcome := update.outcome files e.state.environment
    (update.action files).run e =
      (.ok (Standard.outcomeOf outcome.1), Standard.withEnvironment e outcome.2) := by
  cases update with
  | load source => exact Standard.load_reports files h source
  | loadFile path => exact Standard.loadFile_reports files h path
  | importPackage package under => exact Standard.importPackage_reports files h package under

theorem returned {e : StandardEngine} (files : FileSystem) (h : Standard.Shipped e)
    (update : Update) :
    (Request.update update).Returns files e
      (update.outcome files e.state.environment).1.diagnostics := by
  unfold Request.Returns
  rw [h.methods]
  cases update with
  | load source =>
    exact ⟨_, [_, _], rfl, congrArg Prod.fst (Standard.loadSource_eq files e.state source none)⟩
  | loadFile path =>
    exact ⟨_, [_, _], rfl, congrArg Prod.fst (Standard.loadFile_eq files e.state path)⟩
  | importPackage package under =>
    cases under <;>
      exact ⟨_, [_, _], rfl, congrArg Prod.fst (Standard.bindPackage_eq files e.state package _)⟩

/-- What an update says is about lines, about searches or about a file that cannot be opened. -/
theorem said {P : Diagnostic → Prop}
    (hsearch : ∀ message filename, P (searchError message filename))
    (hopen : ∀ message filename,
      P { who := text "loader", severity := .error, message, filename })
    (hfiles : ∀ entry ∈ files.files, ∀ path, OfLines P (some path) entry.2)
    (hsource : ∀ source, update = .load source → OfLines P none source) :
    ∀ d ∈ (update.outcome files env).1.diagnostics, P d := by
  cases update with
  | load source => exact load_said hsearch hfiles (hsource source rfl)
  | loadFile path => exact loadFile_said hsearch hopen hfiles path
  | importPackage package under => exact importPackage_said hsearch hfiles package _

/-- An update says errors and warnings only. -/
theorem severity_said : ∀ d ∈ (update.outcome files env).1.diagnostics, d.severity ≠ .info := by
  have hlines : ∀ filename source, OfLines (fun d => d.severity ≠ .info) filename source :=
    fun filename source number line severity message expression _ h => h
  refine said ?_ ?_ (fun entry _ path => hlines _ entry.2) (fun source _ => hlines none source)
  · intro message filename h
    cases h
  · intro message filename h
    cases h

/-- Lines that an update speaks of have numbers that can be read back. -/
theorem line_said (h : (Request.update update).Held files) :
    ∀ d ∈ (update.outcome files env).1.diagnostics, ∀ n, d.line = some n →
      n ≤ Json.Reader.maxNatural := by
  have hlines : ∀ filename (source : Bytes), source.length < Nat.pow 2 63 →
      OfLines (fun d => ∀ n, d.line = some n → n ≤ Json.Reader.maxNatural) filename source := by
    intro filename source hlength number line severity message expression hm _ n hn
    have hnumber := number_le_length hm
    have hn : number = n := Option.some.inj hn
    have hroom : Nat.pow 2 63 + 1 ≤ Json.Reader.maxNatural := by decide
    omega
  refine said ?_ ?_ (fun entry hm path => hlines _ _ (h.files entry hm)) ?_
  · intro message filename n hn
    cases hn
  · intro message filename n hn
    cases hn
  · rintro source rfl
    exact hlines _ _ (h.arguments source List.mem_cons_self)

/-- An update succeeds exactly when it says no error. -/
theorem outcome_ok :
    let report := (update.outcome files env).1
    report.ok = !Diagnostic.anyError report.diagnostics := by
  cases update with
  | load source => exact load_ok source none
  | loadFile path => exact loadFile_ok path
  | importPackage package under => exact (importPackage_ok package _).1

/-- An update succeeds exactly when no error is among what it says. -/
theorem ok_iff :
    let report := (update.outcome files env).1
    report.ok = false ↔ ∃ d ∈ report.diagnostics, d.severity = .error := by
  dsimp only
  rw [← Diagnostic.anyError_eq_true, outcome_ok, Bool.not_eq_false']

/-- What is said by an update that succeeds are warnings. -/
theorem warning_of_ok (h : (update.outcome files env).1.ok = true) :
    ∀ d ∈ (update.outcome files env).1.diagnostics, d.severity = .warning := by
  intro d hd
  have herror : d.severity ≠ .error := by
    intro herror
    rw [ok_iff.2 ⟨d, hd, herror⟩] at h
    cases h
  have hinfo : d.severity ≠ .info := severity_said d hd
  cases hseverity : d.severity with
  | error => exact absurd hseverity herror
  | warning => rfl
  | info => exact absurd hseverity hinfo

/-- An error in a part of what an update says makes it fail. -/
theorem fails_of_said {ds : List Diagnostic}
    (h : ds <:+: (update.outcome files env).1.diagnostics)
    (herror : ∃ d ∈ ds, d.severity = .error) : (update.outcome files env).1.ok = false := by
  obtain ⟨d, hd, herror⟩ := herror
  exact ok_iff.2 ⟨d, h.subset hd, herror⟩

/-- A package that is imported is named exactly when it was found. -/
theorem package_of_import {package : Bytes} {under : Option Bytes} :
    let outcome := Standard.outcomeOf ((importPackage package under).outcome files env).1
    outcome.package = if outcome.ok then some (Text.Utf8.lossy package) else none := by
  have hpackage : ((importPackage package under).outcome files env).1.package =
      if ((importPackage package under).outcome files env).1.ok then some package else none :=
    (importPackage_ok package _).2
  simp only [Standard.outcomeOf, hpackage]
  rw [apply_ite (Option.map Text.Utf8.lossy)]
  rfl

/-! ## What is processed on the way -/

/-- The text that an update processes first, if it processes one. -/
def job? (files : FileSystem) (env : Environment) : Update → Option Job
  | .load source => some (textJob files env none source)
  | .loadFile path =>
    match files.read path with
    | .ok source => some (textJob files env (some path) source)
    | .error _ => none
  | .importPackage package _ =>
    fileJob? files env.searchPath (enoughFuel files) env.packages package

/-- An update processes a text, first or on the way. -/
def Processes (files : FileSystem) (env : Environment) (update : Update) (job : Job) : Prop :=
  ∃ first, update.job? files env = some first ∧
    Relation.ReflTransGen (Job.Opens files env.searchPath) first job

/-- Whatever is said about a text that is processed is said by the update. -/
theorem said_of_processed {job : Job} (h : update.Processes files env job) :
    (job.progress files env.searchPath).diagnostics <:+:
      (update.outcome files env).1.diagnostics := by
  obtain ⟨first, hfirst, hopened⟩ := h
  refine (Job.said_of_opened hopened).trans ?_
  cases update with
  | load source =>
    cases hfirst
    simp only [outcome, load_diagnostics, List.infix_rfl]
  | loadFile path =>
    rw [job?] at hfirst
    split at hfirst
    · rename_i source hread
      cases hfirst
      simp only [outcome, Importer.loadFile, hread, load_diagnostics, List.infix_rfl]
    · cases hfirst
  | importPackage package under =>
    rw [outcome, importPackage_diagnostics]
    exact Job.fileJob_said hfirst

end Update

namespace Standard

variable {gauge : StandardModule.Gauge} {installation : FileSystem} {settings : Settings}
  {standardHome : Bytes} {options : Options} {e₀ e : StandardEngine}

/-- What compiling says: nothing, or the one error that there is. -/
theorem compile_returned (files : FileSystem) (h : Shipped e) (expression : Bytes) :
    (∃ pattern, e.state.environment.compile expression = .ok pattern ∧
      (Request.compile expression).Returns files e []) ∨
    ∃ d, e.state.environment.compile expression = .error d ∧ d.severity = .error ∧
      d.line = none ∧ (Request.compile expression).Returns files e [d] := by
  unfold Request.Returns
  rw [h.methods]
  cases hc : e.state.environment.compile expression with
  | ok pattern =>
    have hreply : (StandardModule.compile files [.str expression] e.state).1 =
        .returned [StandardModule.patternObject pattern, .table [] []] := by
      simp only [StandardModule.compile, hc]
    exact .inl ⟨pattern, rfl, _, [_], rfl, hreply⟩
  | error d =>
    have hreply : (StandardModule.compile files [.str expression] e.state).1 =
        .returned [.bool false, Diagnostic.toValues [d]] := by
      simp only [StandardModule.compile, hc]
    refine .inr ⟨d, rfl, ?_, ?_, _, [_], rfl, hreply⟩ <;>
      (unfold Environment.compile at hc; dsimp only at hc; split at hc)
    · cases hc; rfl
    · split at hc <;> cases hc; rfl
    · cases hc; rfl
    · split at hc <;> cases hc; rfl

/-- What a call says, and the buffer in which it is handed out. -/
theorem buffer_of_returned (files : FileSystem) (h : Shipped e) (request : Request) :
    ∃ ds, request.Returns files e ds ∧
      (request.Held files → ∀ d ∈ ds, ∀ n, d.line = some n → n ≤ Json.Reader.maxNatural) ∧
      (request.buffer files e = .ok (Diagnostic.handOut (request.shown ds)) ∨
        request.buffer files e = .error .handlesExhausted ∧ e.patterns.Full ∧ ds = []) := by
  cases request with
  | compile expression =>
    rcases compile_returned files h expression with ⟨pattern, hc, hreturned⟩ |
      ⟨d, hc, -, hline, hreturned⟩
    · refine ⟨[], hreturned, by simp, ?_⟩
      simp only [Request.buffer, compile_run_ok h hc, keep_run]
      cases hi : e.patterns.insert (StandardModule.patternObject pattern) with
      | none => exact .inr ⟨rfl, HandleTable.insert_none_iff.1 hi, trivial⟩
      | some inserted => exact .inl rfl
    · refine ⟨[d], hreturned, ?_, .inl ?_⟩
      · intro _ d' hd n hn
        cases List.mem_singleton.1 hd
        rw [hline] at hn
        cases hn
      · simp only [Request.buffer, compile_reports files h hc]
        rfl
  | update update =>
    refine ⟨_, update.returned files h, update.line_said, .inl ?_⟩
    simp only [Request.buffer, update.action_reports files h]
    rfl

/-- Diagnostics survive the way to the host. For whatever is compiled, loaded or imported, let `ds`
be the records that the module returned. A call that ends in a fault had nothing to say, and found
the handles exhausted. Otherwise there is a buffer exactly when there are records. Reading the
buffer gives as many diagnostics, in the same order and with the same contents, where what is no
text has been replaced. An update hands out no name that starts with an underscore. -/
theorem diagnostics_cross
    (hmade : create (shippedModule gauge) installation settings standardHome options = .ok e₀)
    (hrun : Steps Call.Any e₀ e) (files : FileSystem) (request : Request) :
    ∃ ds, request.Returns files e ds ∧
      (∀ fault, request.buffer files e = .error fault →
        fault = .handlesExhausted ∧ e.patterns.Full ∧ ds = []) ∧
      ∀ buffer, request.buffer files e = .ok buffer →
        (buffer = none ↔ ds = []) ∧
        (request.Held files → ∀ bytes, buffer = some bytes →
          Diagnostic.parse bytes = .ok (ds.map Diagnostic.readBack)) ∧
        ∀ update, request = .update update → ∀ bytes, buffer = some bytes →
          ∃ document : Json, bytes = document.render ∧
            ∀ key ∈ document.keys, key.head? ≠ some 0x5F := by
  have hs : Shipped e := shipped_of_steps (fresh_of_create hmade).1.shipped hrun
  obtain ⟨ds, hreturned, hline, hbuffer | ⟨hfault, hfull, hnone⟩⟩ :=
    buffer_of_returned files hs request
  · refine ⟨ds, hreturned, ?_, ?_⟩
    · intro fault h
      rw [hbuffer] at h
      cases h
    · intro buffer h
      rw [hbuffer] at h
      cases h
      refine ⟨Request.handOut_shown_eq_none, ?_, ?_⟩
      · intro hheld bytes hbytes
        exact Request.parse_shown hbytes (hline hheld)
      · rintro update rfl bytes hbytes
        exact Request.keys_shown hbytes
  · refine ⟨ds, hreturned, ?_, ?_⟩
    · intro fault h
      rw [hfault] at h
      cases h
      exact ⟨rfl, hfull, hnone⟩
    · intro buffer h
      rw [hfault] at h
      cases h

/-- Importing `b` fails in the file of `c`, which imports `b` again. What is said there is read
back. -/
theorem diagnostics_cross_sample : ∃ e₀ : StandardEngine,
    create standardModule sample {} (text "r") {} = .ok e₀ ∧
    ∃ ds bytes, (Request.update (.importPackage (text "b") none)).Returns sample e₀ ds ∧
      (Request.update (.importPackage (text "b") none)).buffer sample e₀ = .ok (some bytes) ∧
      Diagnostic.parse bytes = .ok (ds.map Diagnostic.readBack) := by
  obtain ⟨e₀, hmade⟩ := create_sample
  obtain ⟨ds, hreturned, -, hcross⟩ :=
    diagnostics_cross hmade .refl sample (.update (.importPackage (text "b") none))
  have hrun := Update.action_reports sample (fresh_of_create hmade).1.shipped
    (.importPackage (text "b") none)
  rw [environment_sample hmade] at hrun
  have hsaid : (Importer.importPackage sample { searchPath := text "r/rpl" } (text "b")
      .none).1.diagnostics ≠ [] := by
    decide +kernel
  obtain ⟨bytes, hbuffer⟩ : ∃ bytes,
      (Request.update (.importPackage (text "b") none)).buffer sample e₀ = .ok (some bytes) := by
    simp only [Request.buffer, hrun]
    obtain ⟨bytes, hbytes⟩ := Option.ne_none_iff_exists'.1 fun hnone =>
      hsaid (List.map_eq_nil_iff.1 (Diagnostic.handOut_eq_none.1 hnone))
    exact ⟨bytes, congrArg Except.ok hbytes⟩
  have hheld : (Request.update (.importPackage (text "b") none)).Held sample := by
    constructor
    · decide
    · intro bytes hm
      have hbytes : bytes = text "b" := by
        simpa [Request.arguments] using hm
      rw [hbytes]
      decide
  exact ⟨e₀, hmade, ds, bytes, hreturned, hbuffer, (hcross _ hbuffer).2.1 hheld bytes rfl⟩

/-- Compiling gives the handle of nothing exactly when an error is said. With a handle, nothing is
said. -/
theorem compile_said (files : FileSystem) (h : Shipped e) (hsound : e.patterns.Sound)
    (expression : Bytes) :
    ∃ ds, (Request.compile expression).Returns files e ds ∧
      ∀ compiled e', (compile files expression).run e = (.ok compiled, e') →
        compiled.diagnostics = Diagnostic.handOut ds ∧
        (compiled.pattern = .none ↔ ∃ d ∈ ds, d.severity = .error) ∧
        (compiled.pattern ≠ .none → compiled.diagnostics = none) := by
  rcases compile_returned files h expression with ⟨pattern, hc, hreturned⟩ |
    ⟨d, hc, herror, -, hreturned⟩
  · refine ⟨[], hreturned, ?_⟩
    intro compiled e' hcompiled
    rw [compile_run_ok h hc, keep_run] at hcompiled
    split at hcompiled
    · rename_i handle patterns hi
      cases hcompiled
      have hne := (hsound.insert hi).1
      refine ⟨rfl, iff_of_false ?_ (by simp), fun _ => rfl⟩
      rintro rfl
      exact hne rfl
    · cases hcompiled
  · refine ⟨[d], hreturned, ?_⟩
    intro compiled e' hcompiled
    rw [compile_reports files h hc] at hcompiled
    cases hcompiled
    exact ⟨rfl, by simp [herror], fun h => absurd rfl h⟩

/-- Success and diagnostics agree. Compiling gives the handle of nothing exactly when an error is
said, and with a handle nothing is said. An update fails exactly when an error is said; when it
succeeds, only warnings are. A package that is imported is named exactly when it was found. What is
said about a text that is processed on the way, at any depth, is said by the update, and so is what
is said by a search that such a text makes; so an error in the text, or a search that finds
nothing, makes the update fail. -/
theorem success_iff_no_error
    (hmade : create (shippedModule gauge) installation settings standardHome options = .ok e₀)
    (hrun : Steps Call.Any e₀ e) (files : FileSystem) :
    (∀ expression, ∃ ds, (Request.compile expression).Returns files e ds ∧
      ∀ compiled e', (compile files expression).run e = (.ok compiled, e') →
        compiled.diagnostics = Diagnostic.handOut ds ∧
        (compiled.pattern = .none ↔ ∃ d ∈ ds, d.severity = .error) ∧
        (compiled.pattern ≠ .none → compiled.diagnostics = none)) ∧
    ∀ update : Update, ∃ ds outcome e', (Request.update update).Returns files e ds ∧
      (update.action files).run e = (.ok outcome, e') ∧
      outcome.diagnostics = Diagnostic.handOut (ds.map ({ · with context := none })) ∧
      (outcome.ok = false ↔ ∃ d ∈ ds, d.severity = .error) ∧
      (outcome.ok = true → ∀ d ∈ ds, d.severity = .warning) ∧
      (∀ package under, update = .importPackage package under →
        outcome.package = if outcome.ok then some (Text.Utf8.lossy package) else none) ∧
      ∀ job, update.Processes files e.state.environment job →
        let path := e.state.environment.searchPath
        let said := (job.progress files path).diagnostics
        said <:+: ds ∧
        ((∃ d ∈ said, d.severity = .error) → outcome.ok = false) ∧
        ∀ packages name, job.Searches files path packages name →
          let finding := findPackage files path job.fuel packages name
          finding.diagnostics <:+: ds ∧ (finding.exports = none → outcome.ok = false) := by
  have hfresh := (fresh_of_create hmade).1
  have hs : Shipped e := shipped_of_steps hfresh.shipped hrun
  refine ⟨compile_said files hs (sound_of_steps hfresh hrun), fun update => ?_⟩
  refine ⟨_, _, _, update.returned files hs, update.action_reports files hs, rfl, update.ok_iff,
    update.warning_of_ok, ?_, ?_⟩
  · rintro package under rfl
    exact Update.package_of_import
  · intro job hjob
    have hsaid := update.said_of_processed hjob
    refine ⟨hsaid, Update.fails_of_said hsaid, ?_⟩
    intro packages name hsearches
    obtain ⟨hfinding, hnone⟩ := hsearches.said
    refine ⟨hfinding.trans hsaid, fun hexports => Update.fails_of_said hsaid ?_⟩
    exact Diagnostic.anyError_eq_true.1 (hnone hexports)

/-- The file of `c` is processed when `b` is imported. It imports `b` again, which is an error, so
`b` is not imported. -/
theorem success_iff_no_error_sample : ∃ e₀ : StandardEngine,
    create standardModule sample {} (text "r") {} = .ok e₀ ∧
    ∃ ds outcome e', ∃ job : Job,
      (Request.update (.importPackage (text "b") none)).Returns sample e₀ ds ∧
      ((Update.importPackage (text "b") none).action sample).run e₀ = (.ok outcome, e') ∧
      job.filename = some (text "r/rpl/c.rpl") ∧
      (job.progress sample (text "r/rpl")).diagnostics <:+: ds ∧ outcome.ok = false := by
  obtain ⟨e₀, hmade⟩ := create_sample
  have henv := environment_sample hmade
  let b : Job := ⟨5, { loading := [text "b"] }, [], some (text "r/rpl/b.rpl"),
    text "package b\nimport c\n"⟩
  let c : Job := ⟨4, { loading := [text "c", text "b"] }, [], some (text "r/rpl/c.rpl"),
    text "package c\nimport b\n"⟩
  have hlines : Source.numberedLines b.source =
      [(1, text "package b")] ++ (2, text "import c") :: [(3, [])] := by
    decide
  have himports : Source.Line.classify (text "import c") = .importing (text "c") .none := by
    decide
  have hopens : Job.Opens sample (text "r/rpl") b c :=
    ⟨_, _, .intro hlines himports, rfl⟩
  have hjob : (Update.importPackage (text "b") none).Processes sample e₀.state.environment c := by
    rw [henv]
    exact ⟨b, rfl, .single hopens⟩
  obtain ⟨-, hupdate⟩ := success_iff_no_error hmade .refl sample
  obtain ⟨ds, outcome, e', hreturned, hrun, -, -, -, -, hprocessed⟩ :=
    hupdate (.importPackage (text "b") none)
  obtain ⟨hwithin, herror, -⟩ := hprocessed c hjob
  rw [henv] at hwithin herror
  have hsaid : ∃ d ∈ (c.progress sample (text "r/rpl")).diagnostics, d.severity = .error := by
    decide +kernel
  exact ⟨e₀, hmade, ds, outcome, e', c, hreturned, hrun, rfl, hwithin, herror hsaid⟩

end Standard

end PatternEngine
