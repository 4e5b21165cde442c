import Mathlib.Data.List.Induction
import PatternEngine.Proofs.Importer.Reading
/-!
# What a package exports

A package exports the names that the lines of its own file bind, with the sources that the last of
these lines were built to (`Good.exports_eq`). An import binds these names to these sources and
leaves all other names as they are (`Bindings.adds_setPackage`).
-/
namespace PatternEngine

open PatternEngine.Source (Alias Line)

namespace Bindings

variable {bindings exports : Bindings} {package name other key source : Bytes} {under : Alias}

theorem get?_set (bindings : Bindings) (name source : Bytes) :
    (bindings.set name source).get? name = some source := by
  simp [get?, set]

theorem get?_set_ne (bindings : Bindings) (source : Bytes) (h : key ≠ name) :
    (bindings.set name source).get? key = bindings.get? key := by
  have hkey : (key == name) = false := beq_false_of_ne h
  unfold get? set
  rw [List.lookup_cons, hkey]
  induction bindings with
  | nil => rfl
  | cons entry bindings ih =>
    obtain ⟨other, bound⟩ := entry
    rw [List.filter_cons]
    by_cases hother : other = name
    · have hkept : (key == other) = false := by rw [hother, hkey]
      simp only [hother, bne_self_eq_false, Bool.false_eq_true, if_false, List.lookup_cons, hkey]
      exact ih
    · have hne : (other != name) = true := bne_iff_ne.2 hother
      simp only [hne, if_true, List.lookup_cons]
      split
      · rfl
      · exact ih

theorem setPackage_cons (bindings : Bindings) (package : Bytes) (under : Alias)
    (entry : Bytes × Bytes) (exports : Bindings) :
    bindings.setPackage package under (entry :: exports) =
      (bindings.setPackage package under exports).set (qualified package under entry.1) entry.2 :=
  rfl

/-- The names of a package are bound to what it exports, and all others stay as they are. -/
theorem get?_setPackage (bindings : Bindings) (package : Bytes) (under : Alias) (key : Bytes)
    (exports : Bindings) : (bindings.setPackage package under exports).get? key =
      match exports.find? fun entry => key == qualified package under entry.1 with
      | some entry => some entry.2
      | none => bindings.get? key := by
  induction exports with
  | nil => rfl
  | cons entry exports ih =>
    rw [setPackage_cons, List.find?_cons]
    by_cases hkey : key = qualified package under entry.1
    · rw [hkey, get?_set, beq_self_eq_true]
    · rw [get?_set_ne _ _ hkey, beq_false_of_ne hkey, ih]

theorem qualified_inj : qualified package under name = qualified package under other ↔
    name = other := by
  unfold qualified
  cases under <;> simp

/-- What is bound to the names of a package, and what stays as it was. -/
structure Adds (package : Bytes) (under : Alias) (exports before after : Bindings) : Prop where
  bound : ∀ name source, exports.get? name = some source →
    after.get? (qualified package under name) = some source
  kept : ∀ key, (∀ name source, exports.get? name = some source →
    key ≠ qualified package under name) → after.get? key = before.get? key

theorem get?_cons (entry : Bytes × Bytes) (exports : Bindings) (name : Bytes) :
    get? (entry :: exports) name = if name = entry.1 then some entry.2 else get? exports name := by
  unfold get?
  rw [List.lookup_cons]
  by_cases h : name = entry.1
  · rw [h, beq_self_eq_true, if_pos rfl]
  · rw [beq_false_of_ne h, if_neg h]

theorem find?_qualified (package : Bytes) (under : Alias) (exports : Bindings) (name : Bytes) :
    (exports.find? fun entry => qualified package under name == qualified package under entry.1).map
      Prod.snd = exports.get? name := by
  induction exports with
  | nil => rfl
  | cons entry exports ih =>
    rw [List.find?_cons, get?_cons, ← ih]
    by_cases h : name = entry.1
    · rw [h, beq_self_eq_true, if_pos rfl]
      rfl
    · rw [beq_false_of_ne (mt qualified_inj.1 h), if_neg h]

theorem adds_setPackage (bindings : Bindings) (package : Bytes) (under : Alias)
    (exports : Bindings) :
    Adds package under exports bindings (bindings.setPackage package under exports) := by
  constructor
  · intro name source h
    rw [get?_setPackage]
    rw [← find?_qualified package under] at h
    obtain ⟨entry, hfind, rfl⟩ := Option.map_eq_some_iff.1 h
    rw [hfind]
  · intro key hkey
    rw [get?_setPackage]
    cases hfind : exports.find? fun entry => key == qualified package under entry.1 with
    | none => rfl
    | some entry =>
      have hname := List.find?_some hfind
      obtain rfl : key = qualified package under entry.1 := eq_of_beq hname
      have hget : exports.get? entry.1 = some entry.2 := by
        rw [← find?_qualified package under, hfind]
        rfl
      exact absurd rfl (hkey _ _ hget)

end Bindings

namespace Importer

variable {find : Finder} {filename : Option Bytes} {start p : Progress} {number : Nat}
  {line name source expression : Bytes} {lines : List (Nat × Bytes)}

/-- The last of the lines that bind a name is built to a source, with what is bound above it. -/
def LastBuilt (find : Finder) (filename : Option Bytes) (start : Progress)
    (lines : List (Nat × Bytes)) (name source : Bytes) : Prop :=
  ∃ above l below expression built, lines = above ++ l :: below ∧
    Line.classify l.2 = .binding name expression ∧
    (∀ l ∈ below, (Line.classify l.2).bound? ≠ some name) ∧
    Environment.build (above.foldl (processLine find filename) start).bindings expression name =
      .ok built ∧ built.source = source

theorem exists_binding (h : (Line.classify line).bound? = some name) :
    ∃ expression, Line.classify line = .binding name expression := by
  cases hline : Line.classify line <;> rw [hline] at h <;> cases h
  exact ⟨_, rfl⟩

/-- A line without an error that binds a name gives it the source that it is built to. -/
theorem own_of_binding (hl : Line.classify line = .binding name expression)
    (h : Diagnostic.anyError (processLine find filename p (number, line)).diagnostics = false) :
    ∃ built, Environment.build p.bindings expression name = .ok built ∧
      (processLine find filename p (number, line)).own.get? name = some built.source := by
  have hbinds : Binds filename number line name expression p
      (processLine find filename p (number, line)) := processLine_binds hl p
  unfold Binds at hbinds
  split at hbinds
  · rename_i built hbuilt
    exact ⟨built, hbuilt, by rw [hbinds.2.1, Bindings.get?_set]⟩
  · rw [hbinds, anyError_report rfl] at h
    cases h

/-- A line that does not bind a name leaves what was bound to it. -/
theorem own_of_other (hl : (Line.classify line).bound? ≠ some name) :
    (processLine find filename p (number, line)).own.get? name = p.own.get? name := by
  cases hline : Line.classify line with
  | binding other expression =>
    rw [hline] at hl
    have hne : name ≠ other := fun h => hl (congrArg some h.symm)
    have hbinds : Binds filename number line other expression p
        (processLine find filename p (number, line)) := processLine_binds hline p
    unfold Binds at hbinds
    split at hbinds
    · rw [hbinds.2.1, Bindings.get?_set_ne _ _ hne]
    · rw [hbinds]
      rfl
  | package other =>
    have hdeclares : Declares filename number line other p
        (processLine find filename p (number, line)) := processLine_declared_as hline p
    unfold Declares at hdeclares
    split at hdeclares
    · rw [hdeclares]
    · rw [hdeclares]
      rfl
  | importing other under => rw [(processLine_takes hline p).2.1]
  | _ =>
    unfold processLine
    simp only [hline, Progress.report]

theorem lastBuilt_concat_binding {l : Nat × Bytes}
    (hl : Line.classify l.2 = .binding name expression) :
    LastBuilt find filename start (lines ++ [l]) name source ↔
      ∃ built, Environment.build (lines.foldl (processLine find filename) start).bindings expression
        name = .ok built ∧ built.source = source := by
  constructor
  · rintro ⟨above, m, below, expression', built, hlines, hline, hbelow, hbuilt⟩
    rcases List.eq_nil_or_concat below with rfl | ⟨below, last, rfl⟩
    · obtain ⟨rfl, hlast⟩ := List.append_inj' hlines rfl
      cases hlast
      cases hl.symm.trans hline
      exact ⟨built, hbuilt⟩
    · have hsame : lines ++ [l] = (above ++ m :: below) ++ [last] := by simpa using hlines
      obtain ⟨-, hlast⟩ := List.append_inj' hsame rfl
      cases hlast
      exact absurd (congrArg Line.bound? hl) (hbelow l (by simp))
  · rintro ⟨built, hbuilt⟩
    exact ⟨lines, l, [], expression, built, rfl, hl, by simp, hbuilt⟩

theorem lastBuilt_concat_other {l : Nat × Bytes} (hl : (Line.classify l.2).bound? ≠ some name) :
    LastBuilt find filename start (lines ++ [l]) name source ↔
      LastBuilt find filename start lines name source := by
  constructor
  · rintro ⟨above, m, below, expression, built, hlines, hline, hbelow, hbuilt⟩
    rcases List.eq_nil_or_concat below with rfl | ⟨below, last, rfl⟩
    · obtain ⟨-, hlast⟩ := List.append_inj' hlines rfl
      cases hlast
      exact absurd (congrArg Line.bound? hline) hl
    · have hsame : lines ++ [l] = (above ++ m :: below) ++ [last] := by simpa using hlines
      obtain ⟨rfl, -⟩ := List.append_inj' hsame rfl
      exact ⟨above, m, below, expression, built, rfl, hline,
        fun l hm => hbelow l (by simp [hm]), hbuilt⟩
  · rintro ⟨above, m, below, expression, built, rfl, hline, hbelow, hbuilt⟩
    refine ⟨above, m, below ++ [l], expression, built, by simp, hline, ?_, hbuilt⟩
    intro other hm
    rcases List.mem_append.1 hm with hm | hm
    · exact hbelow other hm
    · rw [List.mem_singleton.1 hm]
      exact hl

/-- Lines without an error bind each name of theirs to what the last line for it is built to. The
induction is on the lines from the last one on. -/
theorem own_get? (hstart : start.own = [])
    (h : Diagnostic.anyError (lines.foldl (processLine find filename) start).diagnostics = false) :
    (lines.foldl (processLine find filename) start).own.get? name = some source ↔
      LastBuilt find filename start lines name source := by
  induction lines using List.reverseRecOn with
  | nil =>
    rw [List.foldl_nil, hstart]
    constructor
    · intro hget
      cases hget
    · rintro ⟨above, l, below, -, -, hlines, -⟩
      simp at hlines
  | append_singleton lines l ih =>
    rw [List.foldl_append] at h ⊢
    have hlines := ih (foldl_clean h)
    rw [List.foldl_cons, List.foldl_nil] at h ⊢
    by_cases hl : (Line.classify l.2).bound? = some name
    · obtain ⟨expression, hline⟩ := exists_binding hl
      obtain ⟨built, hbuilt, hget⟩ := own_of_binding hline h
      rw [hget, lastBuilt_concat_binding hline, hbuilt]
      simp
    · rw [own_of_other hl, hlines, lastBuilt_concat_other hl]

/-- The names of lines without an error are those that a line binds. -/
theorem own_isSome (hstart : start.own = [])
    (h : Diagnostic.anyError (lines.foldl (processLine find filename) start).diagnostics = false) :
    ((lines.foldl (processLine find filename) start).own.get? name).isSome = true ↔
      ∃ l ∈ lines, (Line.classify l.2).bound? = some name := by
  induction lines using List.reverseRecOn with
  | nil =>
    rw [List.foldl_nil, hstart]
    simp [Bindings.get?]
  | append_singleton lines l ih =>
    rw [List.foldl_append] at h ⊢
    have hlines := ih (foldl_clean h)
    rw [List.foldl_cons, List.foldl_nil] at h ⊢
    by_cases hl : (Line.classify l.2).bound? = some name
    · obtain ⟨expression, hline⟩ := exists_binding hl
      obtain ⟨built, -, hget⟩ := own_of_binding hline h
      rw [hget]
      simp [hl]
    · rw [own_of_other hl, hlines]
      simp [hl]

/-- A good package exports the names that the lines of its own file bind, each with the source that
the last of these lines is built to; names that it only imports are not among them. -/
theorem Good.exports_eq {files : FileSystem} {searchPath package : Bytes} {exports : Bindings}
    (h : Good files searchPath package exports) :
    ∃ path contents exportsOf, locate files searchPath package = some (path, contents) ∧
      (∀ imported ∈ importedNames contents,
        Good files searchPath imported (exportsOf imported)) ∧
      (∀ name, (exports.get? name).isSome = true ↔ name ∈ boundNames contents) ∧
      ∀ name source, exports.get? name = some source ↔
        LastBuilt (resolved exportsOf) (some path) { bindings := [], packages := {} }
          (Source.numberedLines contents) name source := by
  obtain ⟨exportsOf, located, imports, clean, -, rfl⟩ := h
  refine ⟨_, _, exportsOf, located, imports, fun name => ?_, fun name source => own_get? rfl clean⟩
  exact (own_isSome rfl clean).trans (by simp [boundNames, collect])

end Importer

end PatternEngine
