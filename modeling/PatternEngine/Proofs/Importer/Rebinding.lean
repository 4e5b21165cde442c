import PatternEngine.Proofs.Importer.Exports
/-!
# Names that are bound again

A line that binds a name which is bound already gives a warning, but an import line does not, and
neither does an import call: the names of a package replace what was there. So what a name is bound
to changes with a warning about it, or because an import provides the name
(`load_rebinds`, `importPackage_rebinds`). A line that binds a name again is always warned about
(`load_warns`).
-/
namespace PatternEngine

open PatternEngine.Source (Alias Line Reads IsLine numberedLines)

namespace Bindings

variable {bindings exports : Bindings} {name key source : Bytes}

/-- A name is bound to what it was before the names of a package are, or to what the package
exports. -/
theorem kept_or_provided (bindings : Bindings) (package : Bytes) (under : Alias) (key : Bytes)
    (exports : Bindings) :
    (bindings.setPackage package under exports).get? key = bindings.get? key ∨
      ∃ name source, (name, source) ∈ exports ∧ key = qualified package under name ∧
        (bindings.setPackage package under exports).get? key = some source := by
  rw [get?_setPackage]
  cases hfind : exports.find? fun entry => key == qualified package under entry.1 with
  | none => exact .inl rfl
  | some entry =>
    have hkey := List.find?_some hfind
    exact .inr ⟨entry.1, entry.2, List.mem_of_find?_eq_some hfind, eq_of_beq hkey, rfl⟩

/-- Every name of a package is bound. -/
theorem bound_setPackage (bindings : Bindings) (package : Bytes) (under : Alias)
    {entry : Bytes × Bytes} (hm : entry ∈ exports) :
    ∃ now, (bindings.setPackage package under exports).get? (qualified package under entry.1) =
      some now := by
  rw [get?_setPackage]
  cases hfind : exports.find? fun other =>
      qualified package under entry.1 == qualified package under other.1 with
  | none => exact absurd (beq_self_eq_true _) (List.find?_eq_none.1 hfind entry hm)
  | some other => exact ⟨other.2, rfl⟩

end Bindings

namespace Importer

variable {files : FileSystem} {env : Environment} {find : Finder} {filename : Option Bytes}
  {source line key old package : Bytes} {number : Nat} {p q : Progress}

/-- The warning about a line that binds a name again. -/
def reassignment (filename : Option Bytes) (number : Nat) (line name : Bytes) : Diagnostic :=
  lineDiagnostic filename number line .warning (text "reassignment to identifier " ++ name) none

/-- A package that was found provides a source under a name. -/
def Provides (packages : Packages) (package : Bytes) (under : Alias) (key source : Bytes) : Prop :=
  ∃ exports name, packages.found.lookup package = some exports ∧ (name, source) ∈ exports ∧
    key = Bindings.qualified package under name

/-- A line of a text imports a package that provides a source under a name. -/
def Introduces (packages : Packages) (source key bound : Bytes) : Prop :=
  ∃ number line package under, IsLine source number line ∧
    Reads line (.importing package under) ∧ Provides packages package under key bound

/-- A way to find packages that keeps what was found, and keeps what it finds. -/
structure Keeping (find : Finder) : Prop where
  kept : ∀ packages package name exports, packages.found.lookup name = some exports →
    (find packages package).packages.found.lookup name = some exports
  found : ∀ packages package exports, (find packages package).exports = some exports →
    (find packages package).packages.found.lookup package = some exports

theorem findPackage_found (files : FileSystem) (searchPath : Bytes) (fuel : Nat)
    (packages : Packages) (package : Bytes) {exports : Bindings}
    (h : (findPackage files searchPath fuel packages package).exports = some exports) :
    (findPackage files searchPath fuel packages package).packages.found.lookup package =
      some exports := by
  obtain ⟨known, hknown, hfind⟩ | ⟨diagnostics, hfind⟩ | ⟨less, path, contents, -, hfind⟩ :=
    findPackage_ways files searchPath fuel packages package
  · rw [hfind] at h ⊢
    cases h
    exact hknown
  · rw [hfind] at h
    cases h
  · rw [hfind] at h ⊢
    by_cases ha : Accepted package
        (packageProgress (findPackage files searchPath less) packages package path contents)
    · rw [loadPackage_accepted ha] at h ⊢
      cases h
      exact List.lookup_cons_self
    · rw [(loadPackage_refused ha).1] at h
      cases h

theorem keeping_finder (files : FileSystem) (env : Environment) : Keeping (finder files env) where
  kept packages package :=
    (findPackage_grows files env.searchPath packages _ packages package (not_fresh _)).kept
  found packages package _ h := findPackage_found files env.searchPath _ packages package h

/-! ## What becomes of a name -/

/-- What has become of a name that was bound to `old`: it is bound still, and to `old`, or there is
a warning about it, or a line of the text has imported it. -/
def Accounted (filename : Option Bytes) (source key old : Bytes) (p : Progress) : Prop :=
  ∃ now, p.bindings.get? key = some now ∧ (now = old ∨
    (∃ number line, reassignment filename number line key ∈ p.diagnostics) ∨
    Introduces p.packages source key now)

theorem Introduces.kept {packages later : Packages} {bound : Bytes}
    (h : Introduces packages source key bound)
    (hkept : ∀ name exports, packages.found.lookup name = some exports →
      later.found.lookup name = some exports) : Introduces later source key bound := by
  obtain ⟨number, line, package, under, hline, hreads, exports, name, hfound, hprovides⟩ := h
  exact ⟨number, line, package, under, hline, hreads, exports, name, hkept _ _ hfound, hprovides⟩

/-- What is accounted for stays so while the binding stays. -/
theorem Accounted.stays (h : Accounted filename source key old p)
    (hbindings : q.bindings.get? key = p.bindings.get? key)
    (hdiagnostics : p.diagnostics <+: q.diagnostics)
    (hkept : ∀ name exports, p.packages.found.lookup name = some exports →
      q.packages.found.lookup name = some exports) : Accounted filename source key old q := by
  obtain ⟨now, hnow, hold | ⟨number, line, hwarned⟩ | himported⟩ := h
  · exact ⟨now, hbindings.trans hnow, .inl hold⟩
  · exact ⟨now, hbindings.trans hnow, .inr (.inl ⟨number, line, hdiagnostics.subset hwarned⟩)⟩
  · exact ⟨now, hbindings.trans hnow, .inr (.inr (himported.kept hkept))⟩

theorem Accounted.report (h : Accounted filename source key old p) (d : Diagnostic) :
    Accounted filename source key old (p.report d) :=
  h.stays rfl (List.prefix_append _ _) fun _ _ => id

theorem Accounted.takes (hfind : Keeping find) (h : Accounted filename source key old p)
    {under : Alias} (hline : IsLine source number line)
    (hreads : Reads line (.importing package under))
    (htakes : Takes find filename number line package under p q) :
    Accounted filename source key old q := by
  unfold Takes at htakes
  obtain ⟨hpackages, -, -, htakes⟩ := htakes
  have hkept : ∀ name exports, p.packages.found.lookup name = some exports →
      q.packages.found.lookup name = some exports := by
    rw [hpackages]
    exact hfind.kept p.packages package
  split at htakes
  · rename_i exports hexports
    obtain ⟨hbindings, hdiagnostics⟩ := htakes
    have hprefix : p.diagnostics <+: q.diagnostics := ⟨_, hdiagnostics.symm⟩
    rcases p.bindings.kept_or_provided package under key exports with
      hsame | ⟨name, bound, hm, hkey, hget⟩
    · exact h.stays (hbindings ▸ hsame) hprefix hkept
    · refine ⟨bound, hbindings ▸ hget, .inr (.inr ?_)⟩
      refine ⟨number, line, package, under, hline, hreads, exports, name, ?_, hm, hkey⟩
      rw [hpackages]
      exact hfind.found p.packages package exports hexports
  · obtain ⟨hbindings, hdiagnostics⟩ := htakes
    refine h.stays (by rw [hbindings]) ?_ hkept
    rw [hdiagnostics, List.append_assoc]
    exact List.prefix_append _ _

/-- A line that binds the name gives a warning, for the name is bound. -/
theorem Accounted.binds {name expression : Bytes} (h : Accounted filename source key old p)
    (hbinds : Binds filename number line name expression p q) :
    Accounted filename source key old q := by
  unfold Binds at hbinds
  split at hbinds
  · rename_i built _
    obtain ⟨hbindings, -, hpackages, -, hdiagnostics⟩ := hbinds
    by_cases hkey : key = name
    · subst hkey
      obtain ⟨now, hnow, -⟩ := h
      have hbound : (p.bindings.get? key).isSome = true := by
        rw [hnow]
        rfl
      refine ⟨built.source, by rw [hbindings, Bindings.get?_set], .inr (.inl ⟨number, line, ?_⟩)⟩
      rw [hdiagnostics, if_pos hbound]
      exact List.mem_append_right _ (List.mem_singleton.2 rfl)
    · refine h.stays ?_ ⟨_, hdiagnostics.symm⟩ (by rw [hpackages]; exact fun _ _ => id)
      rw [hbindings, Bindings.get?_set_ne _ _ hkey]
  · rw [hbinds]
    exact h.report _

/-- Whatever a line says, a name that is bound stays accounted for. -/
theorem processLine_accounted (hfind : Keeping find) (hm : (number, line) ∈ numberedLines source)
    (h : Accounted filename source key old p) :
    Accounted filename source key old (processLine find filename p (number, line)) := by
  have hline : IsLine source number line := Source.mem_numberedLines_iff.1 hm
  obtain hq | ⟨name, -, hdeclares⟩ | ⟨name, under, hreads, htakes⟩ |
      ⟨name, expression, -, hbinds⟩ | ⟨message, hq⟩ :=
    processLine_ways find filename hline p
  · rw [hq]
    exact h
  · unfold Declares at hdeclares
    split at hdeclares <;> rw [hdeclares]
    · exact h.stays rfl List.prefix_rfl fun _ _ => id
    · exact h.report _
  · exact h.takes hfind hline hreads htakes
  · exact h.binds hbinds
  · rw [hq]
    exact h.report _

/-- What becomes of a name in a text is warned about, or the text imports the name. -/
theorem process_accounted (hfind : Keeping find) {packages : Packages} {bindings : Bindings}
    (hold : bindings.get? key = some old) :
    Accounted filename source key old (process find packages bindings filename source) := by
  apply process_induction (P := Accounted filename source key old)
  · exact ⟨old, hold, .inl rfl⟩
  · intro p number line hm hp
    exact processLine_accounted hfind hm hp

/-! ## Loading and importing -/

theorem load_text (files : FileSystem) (env : Environment) (source : Bytes)
    (filename : Option Bytes) :
    let p := process (finder files env) env.packages env.bindings filename source
    let outcome := load files env source filename
    outcome.1.diagnostics = p.diagnostics ∧ outcome.2.packages = p.packages ∧
      (outcome.1.ok = true → Diagnostic.anyError p.diagnostics = false ∧
        outcome.2.bindings = p.bindings) := by
  unfold load
  dsimp only
  split
  · exact ⟨rfl, rfl, fun h => by cases h⟩
  · rename_i hclean
    exact ⟨rfl, rfl, fun _ => ⟨Bool.not_eq_true _ ▸ hclean, rfl⟩⟩

/-- A name that a text binds to something else is warned about, or the text imports it. -/
theorem load_rebinds (hold : env.bindings.get? key = some old)
    (hok : (load files env source filename).1.ok = true) :
    let outcome := load files env source filename
    ∃ now, outcome.2.bindings.get? key = some now ∧ (now = old ∨
      (∃ number line, reassignment filename number line key ∈ outcome.1.diagnostics) ∨
      Introduces outcome.2.packages source key now) := by
  obtain ⟨hdiagnostics, hpackages, hbound⟩ := load_text files env source filename
  obtain ⟨-, hbindings⟩ := hbound hok
  dsimp only
  rw [hdiagnostics, hpackages, hbindings]
  exact process_accounted (keeping_finder files env) hold

/-- A name that is bound stays bound. -/
theorem foldl_bound (hfind : Keeping find) {above below : List (Nat × Bytes)}
    (hlines : numberedLines source = above ++ below) (hold : p.bindings.get? key = some old) :
    ((above.foldl (processLine find filename) p).bindings.get? key).isSome = true := by
  have haccounted : Accounted filename source key old
      (above.foldl (processLine find filename) p) := by
    refine List.foldlRecOn above _ ⟨old, hold, .inl rfl⟩ ?_
    intro p hp l hl
    exact processLine_accounted hfind (hlines ▸ List.mem_append_left below hl) hp
  obtain ⟨now, hnow, -⟩ := haccounted
  rw [hnow]
  rfl

/-- A line that binds a name which was bound before the text is warned about. -/
theorem load_warns {expression : Bytes} (hline : IsLine source number line)
    (hreads : Reads line (.binding key expression)) (hold : env.bindings.get? key = some old)
    (hok : (load files env source filename).1.ok = true) :
    reassignment filename number line key ∈ (load files env source filename).1.diagnostics := by
  let find := finder files env
  let start : Progress := { bindings := env.bindings, packages := env.packages }
  obtain ⟨above, below, hlines⟩ := List.append_of_mem hline.mem
  let p := above.foldl (processLine find filename) start
  let q := processLine find filename p (number, line)
  obtain ⟨hdiagnostics, -, hclean⟩ := load_text files env source filename
  have hprefix : q.diagnostics <+:
      (process find env.packages env.bindings filename source).diagnostics := by
    unfold process
    rw [hlines, List.foldl_append, List.foldl_cons]
    exact Job.foldl_prefix below q
  have hbound : (p.bindings.get? key).isSome = true :=
    foldl_bound (keeping_finder files env) hlines hold
  have hbinds : Binds filename number line key expression p q :=
    processLine_binds (hreads.classify hline.newline_not_mem) p
  rw [hdiagnostics]
  apply hprefix.subset
  unfold Binds at hbinds
  split at hbinds
  · rw [hbinds.2.2.2.2, if_pos hbound]
    exact List.mem_append_right _ (List.mem_singleton.2 rfl)
  · have herror : Diagnostic.anyError q.diagnostics = true := by
      rw [hbinds]
      exact anyError_report rfl
    have hall := Job.anyError_of_infix hprefix.isInfix herror
    rw [(hclean hok).1] at hall
    cases hall

/-- An import of a package that is found succeeds, and binds the names of the package. -/
theorem importPackage_found (under : Alias) {exports : Bindings}
    (h : (finder files env env.packages package).exports = some exports) :
    let outcome := importPackage files env package under
    outcome.1.ok = true ∧ outcome.2.packages.found.lookup package = some exports ∧
      outcome.2.bindings = env.bindings.setPackage package under exports := by
  unfold importPackage
  simp only [h]
  exact ⟨trivial, (keeping_finder files env).found _ _ _ h, trivial⟩

theorem found_of_importPackage {under : Alias}
    (hok : (importPackage files env package under).1.ok = true) :
    ∃ exports, (finder files env env.packages package).exports = some exports := by
  unfold importPackage at hok
  dsimp only at hok
  split at hok
  · cases hok
  · rename_i exports hexports
    exact ⟨exports, hexports⟩

/-- A name that an import binds to something else is provided by the package. -/
theorem importPackage_rebinds {under : Alias} (hold : env.bindings.get? key = some old)
    (hok : (importPackage files env package under).1.ok = true) :
    let outcome := importPackage files env package under
    ∃ now, outcome.2.bindings.get? key = some now ∧ (now = old ∨
      Provides outcome.2.packages package under key now) := by
  obtain ⟨exports, hexports⟩ := found_of_importPackage hok
  obtain ⟨-, hfound, hbindings⟩ := importPackage_found under hexports
  dsimp only
  rw [hbindings]
  rcases env.bindings.kept_or_provided package under key exports with
    hsame | ⟨name, bound, hm, hkey, hget⟩
  · exact ⟨old, hsame.trans hold, .inl rfl⟩
  · exact ⟨bound, hget, .inr ⟨exports, name, hfound, hm, hkey⟩⟩

end Importer

end PatternEngine
