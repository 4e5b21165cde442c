import PatternEngine.Proofs.Engine.Lifetimes
import PatternEngine.Proofs.Engine.Rebinding
import PatternEngine.Proofs.Importer.Naming
/-!
# Which bound names can be referenced

A reference reaches what is a name (`IsName`), and whatever is bound by loading is one. An import
call binds under any alias that it is given, and if this has a byte that is in no name, no reference
reaches what is bound under it (`import_binds_unreachable`). There are no other names of this kind,
and they do not go away (`unnamed_iff_aliased`).
-/
namespace PatternEngine

open PatternEngine.Engine PatternEngine.Importer PatternEngine.Source

/-- A name that is bound stays bound, whether the update succeeds or not. -/
theorem Update.bound {files : FileSystem} {env : Environment} {key old : Bytes} (update : Update)
    (hold : env.bindings.get? key = some old) :
    ∃ now, (update.outcome files env).2.bindings.get? key = some now := by
  cases hok : (update.outcome files env).1.ok with
  | true =>
    obtain ⟨now, hnow, -⟩ := update.rebinds hold hok
    exact ⟨now, hnow⟩
  | false =>
    rw [(update.outcome_updates files env).atomic hok]
    exact ⟨old, hold⟩

namespace Standard

variable {gauge : StandardModule.Gauge} {installation : FileSystem} {settings : Settings}
  {standardHome : Bytes} {options : Options} {e₀ e : StandardEngine} {calls : List (Call × World)}
  {key : Bytes}

theorem after_bound (hs : Shipped e) (call : Call) (world : World)
    (h : ∃ old, e.state.environment.bindings.get? key = some old) :
    ∃ now, (call.after world e).state.environment.bindings.get? key = some now := by
  obtain ⟨old, hold⟩ := h
  rw [(after_environment hs call world).2]
  cases call with
  | load source => exact (Update.load source).bound hold
  | loadFile path => exact (Update.loadFile path).bound hold
  | importPackage package under => exact (Update.importPackage package under).bound hold
  | _ => exact ⟨old, hold⟩

/-! ## Names that import calls make -/

/-- A name that an import call of a row has bound under an alias with a byte that is in no name. -/
def Aliased (e₀ : StandardEngine) (calls : List (Call × World)) (key : Bytes) : Prop :=
  ∃ before package under world since outcome e source,
    calls = before ++ (.importPackage package (some under), world) :: since ∧
    (importPackage world.files package (some under)).run (e₀.afterAll before) =
      (.ok outcome, e) ∧ outcome.ok = true ∧
    Provides e.state.environment.packages package (aliasOf (some under)) key source ∧
    ¬∀ b ∈ under, isNameByte b = true

theorem Aliased.later (h : Aliased e₀ calls key) (step : Call × World) :
    Aliased e₀ (calls ++ [step]) key := by
  obtain ⟨before, package, under, world, since, outcome, e, source, rfl, hrest⟩ := h
  exact ⟨before, package, under, world, since ++ [step], outcome, e, source, by simp, hrest⟩

/-- An alias with a byte that is in no name is not the dot that leaves the alias out. -/
theorem aliasOf_strange {under : Bytes} (h : ¬∀ b ∈ under, isNameByte b = true) :
    aliasOf (some under) = .word under := by
  refine if_neg fun hdot => h fun b hb => ?_
  rw [eq_of_beq hdot] at hb
  rw [List.mem_singleton.1 hb]
  rfl

theorem word_of_aliasOf {under bytes : Bytes} (h : aliasOf (some under) = .word bytes) :
    bytes = under := by
  by_cases hdot : (under == text ".") = true
  · cases (if_pos hdot).symm.trans h
  · exact (Alias.word.inj ((if_neg hdot).symm.trans h)).symm

theorem Aliased.not_isName (h : Aliased e₀ calls key) : ¬IsName key := by
  obtain ⟨before, package, under, world, since, outcome, e, source, -, -, -, hprovides, hunder⟩ := h
  obtain ⟨exports, name, -, -, rfl⟩ := hprovides
  rw [aliasOf_strange hunder]
  intro hname
  refine hunder fun b hb => hname.2 b ?_
  exact List.mem_append_left _ (List.mem_append_left _ hb)

/-- What an import call binds is bound from then on. -/
theorem Aliased.bound (hfresh : Fresh e₀) (h : Aliased e₀ calls key) :
    ∃ source, (e₀.afterAll calls).state.environment.bindings.get? key = some source := by
  obtain ⟨before, package, under, world, since, outcome, e, source, rfl, hrun, hok, hprovides, -⟩ :=
    h
  have hs := shipped_of_steps hfresh.shipped (e₀.steps_afterAll before)
  have hstep : (Call.importPackage package (some under)).after world (e₀.afterAll before) = e := by
    simp only [Call.after, hrun]
  have hnow : ∃ source, e.state.environment.bindings.get? key = some source := by
    rw [importPackage_reports world.files hs] at hrun
    cases hrun
    obtain ⟨exports, hexports⟩ := found_of_importPackage hok
    obtain ⟨-, hfound, hbindings⟩ := importPackage_found (aliasOf (some under)) hexports
    obtain ⟨provided, name, hlookup, hm, rfl⟩ := hprovides
    cases hfound.symm.trans hlookup
    dsimp only [withEnvironment]
    rw [hbindings]
    exact Bindings.bound_setPackage _ _ _ hm
  have hall : e₀.afterAll (before ++ (.importPackage package (some under), world) :: since) =
      e.afterAll since := by
    rw [afterAll_append, ← hstep]
    rfl
  rw [hall]
  exact keeps_of_steps (P := fun e => ∃ source,
    e.state.environment.bindings.get? key = some source)
    (hstep ▸ (after_environment hs _ world).1)
    (fun call world e hs h => after_bound hs call world h) (e.steps_afterAll since) hnow

/-- What one call binds is a name, or an import call has made it. -/
theorem environment_named (hs : Shipped (e₀.afterAll calls))
    (h : (e₀.afterAll calls).state.environment.Named fun key => IsName key ∨ Aliased e₀ calls key)
    (call : Call) (world : World) :
    (call.environment world.files (e₀.afterAll calls).state.environment).Named fun key =>
      IsName key ∨ Aliased e₀ (calls ++ [(call, world)]) key := by
  have hkept : (e₀.afterAll calls).state.environment.Named fun key =>
      IsName key ∨ Aliased e₀ (calls ++ [(call, world)]) key :=
    ⟨h.bindings.mono fun _ _ hkey => hkey.imp_right (·.later _), h.packages⟩
  have hd := handed_names (K := fun key => IsName key ∨ Aliased e₀ (calls ++ [(call, world)]) key)
    fun _ => .inl
  cases call with
  | load source => exact load_all hd hkept _ _
  | loadFile path => exact loadFile_all hd hkept _
  | importPackage package under =>
    refine importPackage_all hd hkept _ _ fun exports hexports hword hwords entry hm => ?_
    have hname : isWord entry.1 = true := hwords entry hm
    cases under with
    | none => exact .inl (Bindings.isName_qualified hword hname (by rintro bytes ⟨⟩))
    | some under =>
      by_cases hunder : ∀ b ∈ under, isNameByte b = true
      · refine .inl (Bindings.isName_qualified hword hname fun bytes hbytes => ?_)
        rw [word_of_aliasOf hbytes]
        exact hunder
      · right
        obtain ⟨hok, hfound, -⟩ := importPackage_found (aliasOf (some under)) hexports
        exact ⟨calls, package, under, world, [], _, _, entry.2, rfl,
          importPackage_reports world.files hs package (some under), hok,
          ⟨exports, entry.1, hfound, hm, rfl⟩, hunder⟩
  | setSearchPath path => exact ⟨hkept.bindings, hkept.packages⟩
  | _ => exact hkept

theorem named_of_calls (hfresh : Fresh e₀) (calls : List (Call × World)) :
    (e₀.afterAll calls).state.environment.Named fun key => IsName key ∨ Aliased e₀ calls key := by
  induction calls using List.reverseRecOn with
  | nil =>
    have hbindings : (e₀.afterAll []).state.environment.bindings = [] := hfresh.bindings
    have hpackages : (e₀.afterAll []).state.environment.packages = {} := hfresh.packages
    refine ⟨?_, ?_⟩
    · rw [hbindings]
      exact Bindings.all_nil
    · rw [hpackages]
      simp [Packages.All]
  | append_singleton calls step ih =>
    have hs := shipped_of_steps hfresh.shipped (e₀.steps_afterAll calls)
    have hlast : e₀.afterAll (calls ++ [step]) = step.1.after step.2 (e₀.afterAll calls) := by
      rw [afterAll_append]
      rfl
    rw [hlast, (after_environment hs step.1 step.2).2]
    exact environment_named hs ih step.1 step.2

/-- The names that are bound and that no reference can hold are those of import calls. -/
theorem unnamed_iff_aliased (hfresh : Fresh e₀) (calls : List (Call × World)) (key : Bytes) :
    (∃ source, (e₀.afterAll calls).state.environment.bindings.get? key = some source) ∧
      ¬IsName key ↔ Aliased e₀ calls key := by
  constructor
  · rintro ⟨⟨source, hsource⟩, hname⟩
    exact ((named_of_calls hfresh calls).bindings.get? hsource).resolve_left hname
  · intro h
    exact ⟨h.bound hfresh, h.not_isName⟩

/-- After any row of calls, a reference to a bound name is expanded to its source, if the name is
not empty and made of word bytes and dots, and no expression refers to any other. The only other
names that are bound are those that an import call of the row has put behind an alias with another
byte, and all of these are bound. -/
theorem bound_names_reached
    (hmade : create (shippedModule gauge) installation settings standardHome options = .ok e₀)
    (calls : List (Call × World)) :
    let bindings := (e₀.afterAll calls).state.environment.bindings
    (∀ key, (∃ source, bindings.get? key = some source) ∧ ¬IsName key ↔ Aliased e₀ calls key) ∧
    (∀ key source, bindings.get? key = some source → IsName key →
      expand bindings.get? (reference key) = .ok (grouped source)) ∧
    ∀ key, ¬IsName key → ∀ expression,
      .reference key ∉ Fragment.ofExpression expression := by
  refine ⟨unnamed_iff_aliased (fresh_of_create hmade).1 calls, ?_, ?_⟩
  · intro key source hsource hname
    exact expand_reference hname hsource
  · intro key hname expression hm
    exact hname (isName_of_mem_scan expression 0 hm)

/-- What an import call puts behind `a-b` stays bound, and no expression refers to it. -/
theorem bound_names_reached_sample : ∃ e₀ : StandardEngine,
    let calls : List (Call × World) :=
      [(.importPackage (text "a") (some (text "a-b")), ⟨sample, [], [], []⟩)]
    create standardModule sample {} (text "r") {} = .ok e₀ ∧
    Aliased e₀ calls (text "a-b.x") ∧
    ∀ expression, .reference (text "a-b.x") ∉ Fragment.ofExpression expression := by
  obtain ⟨e₀, hmade, hx⟩ : ∃ e₀ : StandardEngine,
      create standardModule sample {} (text "r") {} = .ok e₀ ∧
      (e₀.afterAll [(.importPackage (text "a") (some (text "a-b")),
        ⟨sample, [], [], []⟩)]).state.environment.bindings.get? (text "a-b.x") =
          some (text "y") := ⟨_, rfl, rfl⟩
  obtain ⟨hiff, -, hnone⟩ := bound_names_reached hmade
    [(.importPackage (text "a") (some (text "a-b")), ⟨sample, [], [], []⟩)]
  have hstrange : ¬IsName (text "a-b.x") := fun h => absurd (h.2 45 (by decide)) (by decide)
  exact ⟨e₀, hmade, (hiff _).1 ⟨⟨_, hx⟩, hstrange⟩, hnone _ hstrange⟩

/-- An import call puts the names of `a` behind `a-b`, and nothing is said. What it has bound
cannot be used. -/
theorem import_binds_unreachable : ∃ (e₀ e : StandardEngine) (outcome : LoadOutcome),
    create standardModule sample {} (text "r") {} = .ok e₀ ∧
    (importPackage sample (text "a") (some (text "a-b"))).run e₀ = (.ok outcome, e) ∧
    outcome.ok = true ∧ outcome.diagnostics = none ∧
    e.state.environment.bindings.get? (text "a-b.x") = some (text "y") ∧
    ¬IsName (text "a-b.x") ∧
    ∃ messages, (compile sample (reference (text "a-b.x"))).run e =
      (.ok ⟨Handle.none, messages⟩, e) :=
  ⟨_, _, _, rfl, rfl, rfl, rfl, rfl, fun h => absurd (h.2 45 (by decide)) (by decide), _, rfl⟩

end Standard

end PatternEngine
