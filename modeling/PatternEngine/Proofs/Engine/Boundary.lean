import PatternEngine.Proofs.Engine.Atomic
import PatternEngine.Proofs.Engine.Handles
/-!
# The contract of a module

What an operation asks of the values that a module returns, for any module and any engine. Each
operation succeeds exactly when the module keeps its part (`CompileContract`, `MatchContract`,
`TraceContract`, `LoadContract`), and what is left after a fault is what was there before
(`boundary_contract`).
-/
namespace PatternEngine.Engine

open PatternEngine.Action

variable {σ : Type} {files : FileSystem} {e e' : Engine σ}

/-- An entry point that is there has returned these values. -/
def Returned (entry : Option (EntryPoint σ)) (files : FileSystem) (arguments : List Value)
    (e : Engine σ) (values : List Value) (e' : Engine σ) : Prop :=
  ∃ entry' state, entry = some entry' ∧
    entry' files arguments e.state = (.returned values, state) ∧ e' = { e with state }

/-- A value has a document: it says nothing and has none, or the encoder returns one text. -/
def Marshals (files : FileSystem) (v : Value) (e : Engine σ) (document : Option Bytes)
    (e' : Engine σ) : Prop :=
  (v.isEmpty = true ∧ document = none ∧ e' = e) ∨
    v.isEmpty = false ∧ ∃ bytes, document = some bytes ∧
      Returned (some e.slots.encoder) files [v] e [.str bytes] e'

/-- Records can be stripped: they say nothing, or one table is returned for them. -/
def Strips (files : FileSystem) (records : Value) (e : Engine σ) (stripped : Value)
    (e' : Engine σ) : Prop :=
  (records.isEmpty = true ∧ stripped = records ∧ e' = e) ∨
    records.isEmpty = false ∧ stripped.isTable = true ∧
      Returned (some e.slots.stripper) files [records] e [stripped] e'

/-- What is asked of a module that compiles: two values, of which the second has a document, and
the first is false, or a table for which a handle is left. -/
def CompileContract (files : FileSystem) (expression : Bytes) (e : Engine σ) : Prop :=
  ∃ compiled messages e₁,
    Returned e.slots.methods.compile files [.str expression] e [compiled, messages] e₁ ∧
    (∃ document e₂, Marshals files messages e₁ document e₂) ∧
    (compiled = .bool false ∨
      (∃ items fields, compiled = .table items fields) ∧ ¬e.patterns.Full)

/-- What is asked of a module that matches: five values, of which the first is a native result,
false or a text, the third a boolean, and the others are integers. -/
def MatchContract (files : FileSystem) (pattern : Value) (start : Int) (encoder input : Bytes)
    (e : Engine σ) : Prop :=
  ∃ result leftover abend totalTime matchTime e₁,
    Returned e.slots.methods.matchInput files
      [pattern, .lent input, .int start, .str encoder] { e with previousScripted := none }
      [result, leftover, abend, totalTime, matchTime] e₁ ∧
    (∃ n, leftover.toInt? = some n) ∧ (∃ b, abend = .bool b) ∧
    (∃ n, totalTime.toInt? = some n) ∧ (∃ n, matchTime.toInt? = some n) ∧
    ((∃ bytes, result = .result bytes) ∨ result = .bool false ∨ ∃ bytes, result = .str bytes)

/-- What is asked of a module that traces: three values, of which the first is false, or it is true,
the second a boolean, and the third a text or a table with a document. -/
def TraceContract (files : FileSystem) (pattern : Value) (start : Int) (style input : Bytes)
    (e : Engine σ) : Prop :=
  ∃ known matched trace e₁,
    Returned e.slots.methods.trace files [pattern, .str input, .int start, .str style] e
      [known, matched, trace] e₁ ∧
    (known = .bool false ∨ known = .bool true ∧ (∃ b, matched = .bool b) ∧
      ((∃ bytes, trace = .str bytes) ∨
        trace.isTable = true ∧ ∃ bytes e₂, Marshals files trace e₁ (some bytes) e₂))

/-- What is asked of a module that loads or imports: three values, a boolean, nil or a text, and
records that can be stripped and then have a document. -/
def LoadContract (entry : Option (EntryPoint σ)) (files : FileSystem) (arguments : List Value)
    (e : Engine σ) : Prop :=
  ∃ ok package messages e₁, Returned entry files arguments e [ok, package, messages] e₁ ∧
    (∃ b, ok = .bool b) ∧ (package = .nil ∨ ∃ name, package = .str name) ∧
    ∃ stripped e₂, Strips files messages e₁ stripped e₂ ∧
      ∃ document e₃, Marshals files stripped e₂ document e₃

/-! ## Calls and services -/

theorem call_eq_ok {entry : EntryPoint σ} {name : String} {arguments values : List Value} :
    (call entry name files arguments).run e = (.ok values, e') ↔
      Returned (some entry) files arguments e values e' := by
  unfold call
  rw [run_bind_ok (run_get e)]
  constructor
  · intro h
    rcases hr : entry files arguments e.state with ⟨values' | message, state⟩ <;> rw [hr] at h
    · cases h
      exact ⟨entry, state, rfl, hr, rfl⟩
    · cases h
  · rintro ⟨entry', state, hentry, hr, rfl⟩
    cases hentry
    rw [hr]
    rfl

theorem callMethod_eq_ok {method : Methods σ → Option (EntryPoint σ)} {name : String}
    {arguments values : List Value} :
    (callMethod method name files arguments).run e = (.ok values, e') ↔
      Returned (method e.slots.methods) files arguments e values e' := by
  unfold callMethod
  rw [run_bind_ok (run_get e)]
  cases hm : method e.slots.methods with
  | none =>
    constructor
    · intro h
      cases h
    · rintro ⟨entry, state, hentry, -⟩
      cases hentry
  | some entry => exact call_eq_ok

theorem toBytes_eq_some {v : Value} {bytes : Bytes} : v.toBytes? = some bytes ↔ v = .str bytes := by
  cases v <;> simp [Value.toBytes?]

theorem toBool_eq_some {v : Value} {b : Bool} : v.toBool? = some b ↔ v = .bool b := by
  cases v <;> simp [Value.toBool?]

theorem marshal_eq_ok {v : Value} {document : Option Bytes} :
    (marshal files v).run e = (.ok document, e') ↔ Marshals files v e document e' := by
  unfold marshal Marshals
  cases hempty : v.isEmpty with
  | true =>
    simp only [if_true, true_and, Bool.true_eq_false, false_and, or_false]
    constructor
    · intro h
      cases h
      exact ⟨rfl, rfl⟩
    · rintro ⟨rfl, rfl⟩
      rfl
  | false =>
    simp only [Bool.false_eq_true, if_false, false_and, false_or, true_and]
    rw [run_bind_ok (run_get e), run_bind_eq_ok]
    constructor
    · rintro ⟨values, e₁, hcall, h⟩
      split at h
      · split at h
        · rename_i encoded bytes hbytes
          cases h
          cases toBytes_eq_some.1 hbytes
          exact ⟨bytes, rfl, call_eq_ok.1 hcall⟩
        · cases h
      · cases h
    · rintro ⟨bytes, rfl, hreturned⟩
      exact ⟨[.str bytes], e', call_eq_ok.2 hreturned, rfl⟩

theorem strip_eq_ok {records stripped : Value} :
    (strip files records).run e = (.ok stripped, e') ↔ Strips files records e stripped e' := by
  unfold strip Strips
  cases hempty : records.isEmpty with
  | true =>
    simp only [if_true, true_and, Bool.true_eq_false, false_and, or_false]
    constructor
    · intro h
      cases h
      exact ⟨rfl, rfl⟩
    · rintro ⟨rfl, rfl⟩
      rfl
  | false =>
    simp only [Bool.false_eq_true, if_false, false_and, false_or, true_and]
    rw [run_bind_ok (run_get e), run_bind_eq_ok]
    constructor
    · rintro ⟨values, e₁, hcall, h⟩
      split at h
      · split at h
        · rename_i htable
          cases h
          exact ⟨htable, call_eq_ok.1 hcall⟩
        · cases h
      · cases h
    · rintro ⟨htable, hreturned⟩
      refine ⟨[stripped], e', call_eq_ok.2 hreturned, ?_⟩
      dsimp only
      rw [if_pos htable]
      rfl

theorem succeeds_call {β : Type} {method : Methods σ → Option (EntryPoint σ)} {name : String}
    {arguments : List Value} {f : List Value → Action σ β} :
    Succeeds (callMethod method name files arguments >>= f) e ↔
      ∃ values e₁, Returned (method e.slots.methods) files arguments e values e₁ ∧
        Succeeds (f values) e₁ := by
  simp only [succeeds_bind, callMethod_eq_ok]

theorem succeeds_marshal {β : Type} {v : Value} {f : Option Bytes → Action σ β} :
    Succeeds (marshal files v >>= f) e ↔
      ∃ document e₁, Marshals files v e document e₁ ∧ Succeeds (f document) e₁ := by
  simp only [succeeds_bind, marshal_eq_ok]

theorem succeeds_strip {β : Type} {records : Value} {f : Value → Action σ β} :
    Succeeds (strip files records >>= f) e ↔
      ∃ stripped e₁, Strips files records e stripped e₁ ∧ Succeeds (f stripped) e₁ := by
  simp only [succeeds_bind, strip_eq_ok]

theorem Returned.spared {entry : Option (EntryPoint σ)} {arguments values : List Value}
    (h : Returned entry files arguments e values e') : Spared e e' := by
  obtain ⟨entry', state, -, -, rfl⟩ := h
  exact ⟨rfl, rfl, rfl, rfl, rfl⟩

theorem Marshals.spared {v : Value} {document : Option Bytes}
    (h : Marshals files v e document e') : Spared e e' := by
  rcases h with ⟨-, -, rfl⟩ | ⟨-, bytes, -, h⟩
  · exact .refl e'
  · exact h.spared

/-! ## The operations -/

theorem keep_succeeds {pattern : Value} {diagnostics : Option Bytes} :
    Succeeds (keep pattern diagnostics) e ↔ ¬e.patterns.Full := by
  rw [← HandleTable.insert_none_iff (v := pattern)]
  unfold keep Succeeds
  rw [run_bind_ok (run_get e)]
  cases hi : e.patterns.insert pattern with
  | none =>
    constructor
    · rintro ⟨x, e', h⟩
      cases h
    · intro h
      exact absurd rfl h
  | some inserted =>
    constructor
    · intro _ h
      cases h
    · intro _
      exact ⟨_, _, rfl⟩

theorem compile_succeeds {expression : Bytes} :
    Succeeds (compile files expression) e ↔ CompileContract files expression e := by
  unfold compile
  rw [succeeds_call]
  constructor
  · rintro ⟨values, e₁, hreturned, h⟩
    split at h
    · rename_i compiled messages
      obtain ⟨document, e₂, hmarshals, h⟩ := succeeds_marshal.1 h
      have hspared : Spared e e₂ := hreturned.spared.trans hmarshals.spared
      refine ⟨compiled, messages, e₁, hreturned, ⟨document, e₂, hmarshals⟩, ?_⟩
      split at h
      · exact .inl rfl
      · rw [keep_succeeds, hspared.patterns] at h
        exact .inr ⟨⟨_, _, rfl⟩, h⟩
      · exact absurd h (not_succeeds_violation _ _ _)
    · exact absurd h (not_succeeds_violation _ _ _)
  · rintro ⟨compiled, messages, e₁, hreturned, ⟨document, e₂, hmarshals⟩, hcompiled⟩
    have hspared : Spared e e₂ := hreturned.spared.trans hmarshals.spared
    refine ⟨_, e₁, hreturned, succeeds_marshal.2 ⟨document, e₂, hmarshals, ?_⟩⟩
    rcases hcompiled with rfl | ⟨⟨items, fields, rfl⟩, hroom⟩
    · exact succeeds_pure _ _
    · rw [← hspared.patterns] at hroom
      exact keep_succeeds.2 hroom

theorem succeeds_integer {β : Type} {what : String} {v : Value} {f : Int → Action σ β} :
    Succeeds (integer what v >>= f) e ↔ ∃ n, v.toInt? = some n ∧ Succeeds (f n) e := by
  unfold integer
  rw [succeeds_bind]
  cases v.toInt? with
  | none =>
    constructor
    · rintro ⟨n, e₁, h, -⟩
      cases h
    · rintro ⟨n, h, -⟩
      cases h
  | some n =>
    constructor
    · rintro ⟨n', e₁, h, hf⟩
      cases h
      exact ⟨n, rfl, hf⟩
    · rintro ⟨n', h, hf⟩
      cases h
      exact ⟨n, e, rfl, hf⟩

theorem keepResult_succeeds {result : Value} : Succeeds (keepResult result) e ↔
    (∃ bytes, result = .result bytes) ∨ result = .bool false ∨ ∃ bytes, result = .str bytes := by
  unfold keepResult
  split
  · constructor
    · intro _
      exact .inl ⟨_, rfl⟩
    · intro _
      exact ⟨_, _, rfl⟩
  · constructor
    · intro _
      exact .inr (.inl rfl)
    · intro _
      exact succeeds_pure _ e
  · constructor
    · intro _
      exact .inr (.inr ⟨_, rfl⟩)
    · intro _
      exact ⟨_, _, rfl⟩
  · rename_i hresult hfalse htext
    constructor
    · intro h
      exact absurd h (not_succeeds_violation _ _ _)
    · rintro (⟨bytes, rfl⟩ | rfl | ⟨bytes, rfl⟩)
      · exact absurd rfl (hresult bytes)
      · exact absurd rfl hfalse
      · exact absurd rfl (htext bytes)

/-- A match by an extension, once the pattern and the encoder are known. -/
theorem scriptedMatch_succeeds {pattern : Value} {start : Int} {encoder input : Bytes} :
    Succeeds (scriptedMatch files pattern start encoder input) e ↔
      MatchContract files pattern start encoder input e := by
  unfold scriptedMatch
  rw [succeeds_bind]
  constructor
  · rintro ⟨_, e₀, hclear, h⟩
    cases hclear
    obtain ⟨values, e₁, hreturned, h⟩ := succeeds_call.1 h
    unfold decode at h
    split at h
    · rename_i result leftover abend totalTime matchTime
      obtain ⟨n, hleftover, h⟩ := succeeds_integer.1 h
      split at h
      · rename_i b habend
        obtain ⟨total, htotal, h⟩ := succeeds_integer.1 h
        obtain ⟨time, htime, h⟩ := succeeds_integer.1 h
        obtain ⟨data, e₂, hdata, -⟩ := succeeds_bind.1 h
        exact ⟨result, leftover, abend, totalTime, matchTime, e₁, hreturned, ⟨n, hleftover⟩,
          ⟨b, toBool_eq_some.1 habend⟩, ⟨total, htotal⟩, ⟨time, htime⟩,
          keepResult_succeeds.1 ⟨data, e₂, hdata⟩⟩
      · exact absurd h (not_succeeds_violation _ _ _)
    · exact absurd h (not_succeeds_violation _ _ _)
  · rintro ⟨result, leftover, abend, totalTime, matchTime, e₁, hreturned, ⟨n, hleftover⟩,
      ⟨b, rfl⟩, ⟨total, htotal⟩, ⟨time, htime⟩, hresult⟩
    refine ⟨⟨⟩, _, rfl, succeeds_call.2 ⟨_, e₁, hreturned, ?_⟩⟩
    obtain ⟨data, e₂, hdata⟩ := keepResult_succeeds.2 hresult
    exact succeeds_integer.2 ⟨n, hleftover, succeeds_integer.2 ⟨total, htotal,
      succeeds_integer.2 ⟨time, htime, succeeds_bind.2 ⟨data, e₂, hdata, succeeds_pure _ _⟩⟩⟩⟩

theorem succeeds_flag {β : Type} {what : String} {v : Value} {f : Bool → Action σ β} :
    Succeeds (flag what v >>= f) e ↔ ∃ b, v = .bool b ∧ Succeeds (f b) e := by
  unfold flag
  rw [succeeds_bind]
  constructor
  · rintro ⟨b, e₁, h, hf⟩
    split at h
    · rename_i b' hb
      cases h
      exact ⟨b, toBool_eq_some.1 hb, hf⟩
    · cases h
  · rintro ⟨b, rfl, hf⟩
    exact ⟨b, e, rfl, hf⟩

theorem traceBytes_succeeds {trace : Value} : Succeeds (traceBytes files trace) e ↔
    (∃ bytes, trace = .str bytes) ∨
      trace.isTable = true ∧ ∃ bytes e', Marshals files trace e (some bytes) e' := by
  unfold traceBytes
  dsimp only
  split
  · rename_i htable
    rw [succeeds_marshal]
    constructor
    · rintro ⟨document, e₁, hmarshals, h⟩
      split at h
      · rename_i bytes
        exact .inr ⟨htable, bytes, e₁, hmarshals⟩
      · exact absurd h (not_succeeds_violation _ _ _)
    · rintro (⟨bytes, rfl⟩ | ⟨-, bytes, e₁, hmarshals⟩)
      · cases htable
      · exact ⟨some bytes, e₁, hmarshals, succeeds_pure bytes e₁⟩
  · rename_i htable
    rw [pure_bind]
    constructor
    · intro h
      split at h
      · rename_i bytes hbytes
        exact .inl ⟨bytes, toBytes_eq_some.1 hbytes⟩
      · exact absurd h (not_succeeds_violation _ _ _)
    · rintro (⟨bytes, rfl⟩ | ⟨htrue, -⟩)
      · exact succeeds_pure bytes e
      · exact absurd htrue htable

/-- A check of the memory in use that ends without a fault comes first. -/
theorem succeeds_govern {β : Type} {f : Unit → Action σ β} :
    Succeeds (govern files >>= f) e ↔
      ∃ e₁, (govern files).run e = (.ok (), e₁) ∧ Succeeds (f ()) e₁ := by
  rw [succeeds_bind]
  constructor
  · rintro ⟨⟨⟩, e₁, hgovern, h⟩
    exact ⟨e₁, hgovern, h⟩
  · rintro ⟨e₁, hgovern, h⟩
    exact ⟨(), e₁, hgovern, h⟩

theorem trace_succeeds {handle : Handle} {pattern : Value} {start : Int} {style input : Bytes}
    (hlive : e.patterns.get? handle = some pattern) :
    Succeeds (trace files handle start style input) e ↔
      ∃ e₁, (govern files).run e = (.ok (), e₁) ∧
        TraceContract files pattern start style input e₁ := by
  unfold trace
  rw [succeeds_govern]
  refine exists_congr fun e₁ => and_congr_right fun hgovern => ?_
  have hget : e₁.patterns.get? handle = some pattern := by
    rw [(quiet_govern.spared hgovern).patterns]
    exact hlive
  rw [succeeds_get, hget]
  dsimp only
  rw [succeeds_call]
  constructor
  · rintro ⟨values, e₂, hreturned, h⟩
    split at h
    · rename_i known matched trace
      refine ⟨known, matched, trace, e₂, hreturned, ?_⟩
      obtain ⟨k, rfl, hstyle⟩ := succeeds_flag.1 h
      cases k with
      | false => exact .inl rfl
      | true =>
        rw [if_pos rfl] at hstyle
        obtain ⟨b, rfl, hmatched⟩ := succeeds_flag.1 hstyle
        obtain ⟨bytes, e₃, hbytes, -⟩ := succeeds_bind.1 hmatched
        exact .inr ⟨rfl, ⟨b, rfl⟩, traceBytes_succeeds.1 ⟨bytes, e₃, hbytes⟩⟩
    · exact absurd h (not_succeeds_violation _ _ _)
  · rintro ⟨known, matched, trace, e₂, hreturned, hknown⟩
    refine ⟨_, e₂, hreturned, ?_⟩
    rcases hknown with rfl | ⟨rfl, ⟨b, rfl⟩, htrace⟩
    · exact succeeds_flag.2 ⟨false, rfl, succeeds_pure _ _⟩
    · obtain ⟨bytes, e₃, hbytes⟩ := traceBytes_succeeds.2 htrace
      exact succeeds_flag.2 ⟨true, rfl, succeeds_flag.2 ⟨b, rfl,
        succeeds_bind.2 ⟨bytes, e₃, hbytes, succeeds_pure _ _⟩⟩⟩

theorem matchInput_succeeds {handle : Handle} {pattern : Value} {start : Int}
    {encoder name input : Bytes} (hlive : e.patterns.get? handle = some pattern)
    (hresolve : Encoder.resolve encoder = .extension name) (hknown : e.hasExtension name = true) :
    Succeeds (matchInput files handle start encoder input) e ↔
      ∃ e₁, (govern files).run e = (.ok (), e₁) ∧
        MatchContract files pattern start name input e₁ := by
  unfold matchInput
  rw [succeeds_govern]
  refine exists_congr fun e₁ => and_congr_right fun hgovern => ?_
  have hspared : Spared e e₁ := quiet_govern.spared hgovern
  have hget : e₁.patterns.get? handle = some pattern := by
    rw [hspared.patterns]
    exact hlive
  have hhas : e₁.hasExtension name = true := by
    unfold hasExtension
    rw [hspared.slots]
    exact hknown
  unfold dispatch
  rw [succeeds_get, hget]
  dsimp only
  rw [hresolve]
  dsimp only
  rw [if_pos hhas]
  exact scriptedMatch_succeeds

/-- Stripping and writing out records, the last steps of `decodeLoad`. -/
theorem succeeds_document {β : Type} {records : Value} {f : Option Bytes → β} :
    Succeeds (strip files records >>= fun stripped =>
      marshal files stripped >>= fun document => (pure (f document) : Action σ β)) e ↔
      ∃ stripped e₁, Strips files records e stripped e₁ ∧
        ∃ document e₂, Marshals files stripped e₁ document e₂ := by
  rw [succeeds_strip]
  refine exists_congr fun stripped => exists_congr fun e₁ => and_congr_right fun _ => ?_
  rw [succeeds_marshal]
  refine exists_congr fun document => exists_congr fun e₂ => ?_
  constructor
  · rintro ⟨hmarshals, -⟩
    exact hmarshals
  · intro hmarshals
    exact ⟨hmarshals, succeeds_pure _ _⟩

/-- All operations that change the environment check what was returned in the same way. -/
theorem callLoad_succeeds {method : Methods σ → Option (EntryPoint σ)} {name : String}
    {arguments : List Value} :
    Succeeds (callMethod method name files arguments >>= decodeLoad files name) e ↔
      LoadContract (method e.slots.methods) files arguments e := by
  rw [succeeds_call]
  constructor
  · rintro ⟨values, e₁, hreturned, h⟩
    unfold decodeLoad at h
    split at h
    · rename_i ok package messages
      split at h
      · rename_i b hb
        cases toBool_eq_some.1 hb
        refine ⟨_, package, messages, e₁, hreturned, ⟨b, rfl⟩, ?_⟩
        dsimp only at h
        split at h
        · exact ⟨.inl rfl, succeeds_document.1 h⟩
        · exact ⟨.inr ⟨_, rfl⟩, succeeds_document.1 h⟩
        · obtain ⟨x, e₂, hx, -⟩ := succeeds_bind.1 h
          cases hx
      · exact absurd h (not_succeeds_violation _ _ _)
    · exact absurd h (not_succeeds_violation _ _ _)
  · rintro ⟨ok, package, messages, e₁, hreturned, ⟨b, rfl⟩, hpackage, hdocument⟩
    refine ⟨_, e₁, hreturned, ?_⟩
    rcases hpackage with rfl | ⟨package, rfl⟩
    · exact succeeds_document.2 hdocument
    · exact succeeds_document.2 hdocument

/-! ## The contract -/

/-- For any module and any engine, an operation succeeds exactly if the module keeps its part, a
match and a trace after the check of the memory in use; and a fault leaves everything as it was but
the state of the module and, after a match, the text of the last match by an extension. -/
theorem boundary_contract (files : FileSystem) (e : Engine σ) :
    ((∀ expression, Succeeds (compile files expression) e ↔
        CompileContract files expression e) ∧
      (∀ handle pattern start encoder name input, e.patterns.get? handle = some pattern →
        Encoder.resolve encoder = .extension name → e.hasExtension name = true →
        (Succeeds (matchInput files handle start encoder input) e ↔
          ∃ e₁, (govern files).run e = (.ok (), e₁) ∧
            MatchContract files pattern start name input e₁)) ∧
      (∀ handle pattern start style input, e.patterns.get? handle = some pattern →
        (Succeeds (trace files handle start style input) e ↔
          ∃ e₁, (govern files).run e = (.ok (), e₁) ∧
            TraceContract files pattern start style input e₁)) ∧
      (∀ source, Succeeds (load files source) e ↔
        LoadContract e.slots.methods.load files [.str source] e) ∧
      (∀ path, Succeeds (loadFile files path) e ↔
        LoadContract e.slots.methods.loadFile files [.str path] e) ∧
      (∀ package under, Succeeds (importPackage files package under) e ↔
        LoadContract e.slots.methods.importPackage files
          [.str package, under.elim .nil .str] e)) ∧
    (Atomic (govern files : Action σ _) ∧
      (∀ expression, Atomic (compile files expression : Action σ _)) ∧
      (∀ handle start style input, Atomic (trace files handle start style input : Action σ _)) ∧
      (∀ source, Atomic (load files source : Action σ _)) ∧
      (∀ path, Atomic (loadFile files path : Action σ _)) ∧
      (∀ package under, Atomic (importPackage files package under : Action σ _)) ∧
      ∀ handle start encoder input fault e',
        (matchInput files handle start encoder input).run e = (.error fault, e') →
        Spared e e' ∨ Spared { e with previousScripted := none } e') := by
  constructor
  · refine ⟨fun expression => compile_succeeds, ?_, ?_, fun source => callLoad_succeeds,
      fun path => callLoad_succeeds, fun package under => callLoad_succeeds⟩
    · intro handle pattern start encoder name input hlive hresolve hknown
      exact matchInput_succeeds hlive hresolve hknown
    · intro handle pattern start style input hlive
      exact trace_succeeds hlive
  · refine ⟨quiet_govern.atomic, atomic_compile, ?_, fun source => (quiet_load source).atomic,
      fun path => (quiet_loadFile path).atomic,
      fun package under => (quiet_importPackage package under).atomic, ?_⟩
    · intro handle start style input
      exact (quiet_trace handle start style input).atomic
    · intro handle start encoder input fault e' hfault
      exact matchInput_fault hfault

/-- An engine of a module that returns the same values from every call, with one pattern and one
extension encoder. -/
def answering (values : List Value) : Engine Unit :=
  let entry : EntryPoint Unit := fun _ _ state => (.returned values, state)
  { slots := {
      methods := {
        compile := some entry
        matchInput := some entry
        trace := some entry
        load := some entry }
      config := none
      encoder := entry
      stripper := entry
      encoders := [text "subs"]
      collector := entry }
    state := ()
    patterns := { entries := [some .nil] } }

/-- The five values of a match are taken from a match, and from nothing else. -/
theorem boundary_contract_sample :
    let e := answering [.str (text "a"), .int 0, .bool false, .int 2, .int 0]
    e.patterns.get? ⟨1⟩ = some .nil ∧
    Encoder.resolve (text "subs") = .extension (text "subs") ∧
    e.hasExtension (text "subs") = true ∧
    Succeeds (matchInput {} ⟨1⟩ 1 (text "subs") (text "ab")) e ∧
    ¬Succeeds (trace {} ⟨1⟩ 1 (text "condensed") (text "ab")) e ∧
    ¬Succeeds (compile {} (text "a")) e ∧
    ¬Succeeds (load {} (text "x = a")) e := by
  intro e
  have hlive : e.patterns.get? ⟨1⟩ = some .nil := rfl
  have hresolve : Encoder.resolve (text "subs") = .extension (text "subs") := by decide
  have hknown : e.hasExtension (text "subs") = true := by decide
  obtain ⟨⟨hcompile, hmatch, htrace, hload, -⟩, -⟩ := boundary_contract {} e
  refine ⟨hlive, hresolve, hknown, ?_, ?_, ?_, ?_⟩
  · refine (hmatch ⟨1⟩ .nil 1 _ _ (text "ab") hlive hresolve hknown).2 ⟨e, rfl, ?_⟩
    exact ⟨_, _, _, _, _, _, ⟨_, _, rfl, rfl, rfl⟩, ⟨0, rfl⟩, ⟨false, rfl⟩, ⟨2, rfl⟩,
      ⟨0, rfl⟩, .inr (.inr ⟨_, rfl⟩)⟩
  · rw [htrace ⟨1⟩ .nil 1 _ _ hlive]
    rintro ⟨e₁, hgovern, known, matched, trace, e₂, ⟨entry, state, hentry, hvalues, -⟩, -⟩
    cases hgovern
    cases hentry
    cases hvalues
  · rw [hcompile]
    rintro ⟨compiled, messages, e₁, ⟨entry, state, hentry, hvalues, -⟩, -⟩
    cases hentry
    cases hvalues
  · rw [hload]
    rintro ⟨ok, package, messages, e₁, ⟨entry, state, hentry, hvalues, -⟩, -⟩
    cases hentry
    cases hvalues

end PatternEngine.Engine
