import PatternEngine.Proofs.Engine.Reports
import PatternEngine.Proofs.Importer.Joined
/-!
# Sources loaded in parts

A source may be loaded at once or cut at a newline and loaded in two parts (`load_by_parts`). The
engine ends up the same, and so does what is said, up to the numbers of the lines in the second
part. Only a package declaration tells the two ways apart: there can be one in a source.
-/
namespace PatternEngine.Standard

open PatternEngine.Engine PatternEngine.Importer
open PatternEngine.Source (Line lineCount numberedLines)

variable {gauge : StandardModule.Gauge} {installation : FileSystem} {settings : Settings}
  {standardHome : Bytes} {options : Options} {e₀ e : StandardEngine} {files : FileSystem}
  {source : Bytes}

/-- Loading a source leads from one engine to another and has this outcome. The module returned the
records, and they are what the outcome hands out. -/
structure Loading (files : FileSystem) (source : Bytes) (e : StandardEngine)
    (outcome : LoadOutcome) (records : List Diagnostic) (e' : StandardEngine) : Prop where
  run : (load files source).run e = (.ok outcome, e')
  returned : (Request.update (.load source)).Returns files e records
  shown : outcome.diagnostics =
    Diagnostic.handOut ((Request.update (.load source)).shown records)

theorem loading (files : FileSystem) (h : Shipped e) (source : Bytes) :
    let outcome := Importer.load files e.state.environment source none
    Loading files source e (outcomeOf outcome.1) outcome.1.diagnostics
      (withEnvironment e outcome.2) :=
  ⟨load_reports files h source, Update.returned files h (.load source), rfl⟩

/-- There is one way in which a source is loaded. -/
theorem Loading.eq {outcome : LoadOutcome} {records : List Diagnostic} {e' : StandardEngine}
    (h : Loading files source e outcome records e') (hs : Shipped e) :
    let made := Importer.load files e.state.environment source none
    outcome = outcomeOf made.1 ∧ e' = withEnvironment e made.2 := by
  have hrun := h.run.symm.trans (load_reports files hs source)
  obtain ⟨hreply, hstate⟩ := Prod.mk.inj hrun
  exact ⟨Except.ok.inj hreply, hstate⟩

/-- Loading is compositional in the lines. Let two texts be loaded one after the other, and on the
other hand be joined by a newline and loaded at once. If at most one of them declares packages, then
the joined text is loaded exactly when both texts are. In that case the engine is the same in the
end, the package is the one that either of them declares, and the records are those of the first
text, followed by those of the second one with the numbers of its own lines raised by the number of
lines above. If both of them declare packages, then the joined text fails, with a record at every
declaration of the second text. -/
theorem load_by_parts
    (hmade : create (shippedModule gauge) installation settings standardHome options = .ok e₀)
    (hrun : Steps Call.Any e₀ e) (files : FileSystem) (first second : Bytes) :
    ∃ o₁ ds₁ e₁ o₂ ds₂ e₂ o ds e',
      Loading files first e o₁ ds₁ e₁ ∧ Loading files second e₁ o₂ ds₂ e₂ ∧
      Loading files (first ++ Bytes.newline :: second) e o ds e' ∧
      (declaredNames first = [] ∨ declaredNames second = [] →
        (o.ok = true ↔ o₁.ok = true ∧ o₂.ok = true) ∧
        (o.ok = true → e' = e₂ ∧ o.package = o₁.package.or o₂.package ∧
          ds = ds₁ ++ ds₂.map (Diagnostic.lower (lineCount first)))) ∧
      ∀ other, (declaredNames first).head? = some other →
        ∀ number line name, (number, line) ∈ numberedLines second →
          Line.classify line = .package name →
          o.ok = false ∧ ∃ d ∈ ds, d.severity = .error ∧ d.filename = none ∧
            d.line = some (number + lineCount first) ∧
            d.message = text "package already declared as " ++ other := by
  have hs : Shipped e := shipped_of_steps (fresh_of_create hmade).1.shipped hrun
  let env := e.state.environment
  let one := Importer.load files env first none
  let two := Importer.load files one.2 second none
  let both := Importer.load files env (first ++ Bytes.newline :: second) none
  have htwo : Loading files second (withEnvironment e one.2) (outcomeOf two.1) two.1.diagnostics
      (withEnvironment e two.2) :=
    loading files (shipped_withEnvironment hs one.2) second
  refine ⟨_, _, _, _, _, _, outcomeOf both.1, both.1.diagnostics, _, loading files hs first, htwo,
    loading files hs _, ?_, ?_⟩
  · intro hdeclared
    obtain ⟨hok, hsame⟩ := load_joined files env hdeclared
    refine ⟨hok, ?_⟩
    intro hsuccess
    obtain ⟨hstate, hpackage, hrecords⟩ := hsame hsuccess
    have hnamed : (outcomeOf both.1).package =
        (outcomeOf one.1).package.or (outcomeOf two.1).package :=
      (congrArg (Option.map Text.Utf8.lossy) hpackage).trans Option.map_or
    exact ⟨congrArg (withEnvironment e) hstate, hnamed, hrecords⟩
  · intro other hother number line name hm hl
    obtain ⟨hfails, hsaid⟩ := load_declared_twice files env hother hm hl
    exact ⟨hfails, _, hsaid, rfl, rfl, rfl, rfl⟩

/-- The name `x` is bound in both parts. What is said about that on the second line of the second
part is said about line four of the joined text. -/
theorem load_by_parts_sample : ∃ e₀ : StandardEngine,
    create standardModule sample {} (text "r") {} = .ok e₀ ∧
    ∃ o₁ ds₁ e₁ o₂ ds₂ e₂ o ds e',
      Loading sample (text "package p\nx = y") e₀ o₁ ds₁ e₁ ∧
      Loading sample (text "import a\nx = z") e₁ o₂ ds₂ e₂ ∧
      Loading sample (text "package p\nx = y" ++ Bytes.newline :: text "import a\nx = z") e₀ o
        ds e' ∧
      o.ok = true ∧ e' = e₂ ∧ o.package = some (text "p") ∧
      ds = ds₁ ++ ds₂.map (Diagnostic.lower 2) := by
  obtain ⟨e₀, hmade⟩ := create_sample
  let env : Environment := { searchPath := text "r/rpl" }
  let one := Importer.load sample env (text "package p\nx = y") none
  have henv : e₀.state.environment = env := environment_sample hmade
  have hs : Shipped e₀ := (fresh_of_create hmade).1.shipped
  obtain ⟨o₁, ds₁, e₁, o₂, ds₂, e₂, o, ds, e', hone, htwo, hboth, hparts, -⟩ :=
    load_by_parts hmade .refl sample (text "package p\nx = y") (text "import a\nx = z")
  obtain ⟨hfirst, hmiddle⟩ := hone.eq hs
  rw [henv] at hfirst hmiddle
  subst hmiddle
  have hsecond : o₂ = outcomeOf (Importer.load sample one.2 (text "import a\nx = z") none).1 :=
    (htwo.eq (shipped_withEnvironment hs one.2)).1
  have hok₁ : o₁.ok = true := by
    rw [hfirst]
    decide +kernel
  have hok₂ : o₂.ok = true := by
    rw [hsecond]
    decide +kernel
  have hpackage : o₁.package.or o₂.package = some (text "p") := by
    rw [hfirst, hsecond]
    decide +kernel
  obtain ⟨hok, hsame⟩ := hparts (.inr (by decide))
  have hsuccess : o.ok = true := hok.2 ⟨hok₁, hok₂⟩
  obtain ⟨hstate, hdeclared, hrecords⟩ := hsame hsuccess
  exact ⟨e₀, hmade, _, _, _, _, _, _, _, _, _, hone, htwo, hboth, hsuccess, hstate,
    hdeclared.trans hpackage, hrecords⟩

end PatternEngine.Standard
