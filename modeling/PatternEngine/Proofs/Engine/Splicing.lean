import PatternEngine.Proofs.Engine.Encoders
import PatternEngine.Proofs.Expression.Groups
import PatternEngine.Proofs.Importer.Exports
import PatternEngine.Proofs.Source.References
import PatternEngine.Proofs.Text.Utf8
/-!
# Splicing

A reference puts the source of a binding into a group of its own. Whether this means the same as the
source depends on two things, since a text is tried without the group when it is bound: it must not
end in a comment, which hides the end of the group, and it must not nest so deeply that the group
is too much (`Spliceable`). Nothing else can go wrong (`splice_of_assignment`).
-/
namespace PatternEngine

namespace Source

variable {name source : Bytes} {lookup : Bytes → Option Bytes}

/-- The group around a source changes nothing: the source does not end in a comment, and it leaves
room for one more group. -/
def Spliceable (source : Bytes) : Prop :=
  ∃ chars, Text.Utf8.chars? source = some chars ∧ Expression.Wrappable chars

theorem chars_grouped {chars : List Char} (h : Text.Utf8.chars? source = some chars) :
    Text.Utf8.chars? (grouped source) = some (Expression.wrapped chars) := by
  have hopen : Text.Utf8.chars? (text "(?:") = some ['(', '?', ':'] := rfl
  have hclose : Text.Utf8.chars? (text ")") = some [')'] := rfl
  have hfront : Text.Utf8.chars? (text "(?:" ++ source) = some ('(' :: '?' :: ':' :: chars) := by
    rw [Text.Utf8.chars?_append hopen, h]
    rfl
  unfold grouped
  rw [Text.Utf8.chars?_append hfront, hclose]
  rfl

end Source

namespace Matcher

open PatternEngine.Source

variable {source name : Bytes} {m : Matcher}

theorem compile_rename (h : compile source name = .ok m) (name' : Bytes) :
    compile source name' = .ok { m with name := name' } := by
  obtain ⟨chars, e, hchars, he, -, hsame⟩ := compile_ok h
  exact hsame source chars name' hchars he

/-- In a group a source compiles to the same matcher. -/
theorem compile_grouped (h : compile source name = .ok m) (hs : Spliceable source)
    (name' : Bytes) : compile (grouped source) name' = .ok { m with name := name' } := by
  obtain ⟨chars, e, hchars, he, -, hsame⟩ := compile_ok h
  obtain ⟨chars', hchars', hw⟩ := hs
  cases hchars.symm.trans hchars'
  exact hsame _ _ name' (chars_grouped hchars) (Expression.ofChars_wrapped he hw)

/-- If it cannot be put into a group, the source in one is no expression. -/
theorem compile_grouped_malformed (h : compile source name = .ok m) (hs : ¬Spliceable source)
    (name' : Bytes) : compile (grouped source) name' = .error .malformed := by
  obtain ⟨chars, e, hchars, he, -⟩ := compile_ok h
  unfold compile
  rw [chars_grouped hchars]
  dsimp only
  rw [Expression.ofChars_wrapped_none he fun hw => hs ⟨chars, hchars, hw⟩]

end Matcher

namespace Environment

open PatternEngine.Source

variable {env : Environment} {name expression source : Bytes} {built : Built}

theorem build_cases {bindings : Bindings} (h : build bindings expression name = .ok built) :
    expand bindings.get? expression = .ok built.source ∧
      Matcher.compile built.source (matcherName name) = .ok built.matcher := by
  unfold build at h
  split at h
  · cases h
  · rename_i source he
    split at h
    · cases h
    · rename_i m hm
      cases h
      exact ⟨he, hm⟩

/-- What can be bound to a name can be compiled for itself. -/
theorem compile_of_build (hblank : expression.all isBlank = false)
    (h : build env.bindings expression name = .ok built) :
    env.compile expression = .ok ⟨expression, built.source,
      { built.matcher with name := matcherName expression }⟩ := by
  obtain ⟨he, hm⟩ := build_cases h
  have hb : build env.bindings expression expression = .ok ⟨built.source,
      { built.matcher with name := matcherName expression }⟩ := by
    unfold build
    simp only [he, Matcher.compile_rename hm]
  unfold compile
  simp only [hblank, Bool.false_eq_true, if_false, hb]

theorem compile_reference (hname : isWord name = true)
    (h : env.bindings.get? name = some source) {m : Matcher}
    (hm : Matcher.compile (grouped source) (matcherName (reference name)) = .ok m) :
    env.compile (reference name) = .ok ⟨reference name, grouped source, m⟩ := by
  have hblank : (reference name).all isBlank = false := rfl
  have hb : build env.bindings (reference name) (reference name) = .ok ⟨grouped source, m⟩ := by
    unfold build
    simp only [expand_reference (isName_of_isWord hname) h, hm]
  unfold compile
  simp only [hblank, Bool.false_eq_true, if_false, hb]

theorem compile_reference_rejected (hname : isWord name = true)
    (h : env.bindings.get? name = some source) {rejection : Rejection}
    (hm : Matcher.compile (grouped source) (matcherName (reference name)) = .error rejection) :
    ∃ d, env.compile (reference name) = .error d ∧
      d.message = (Obstacle.rejected rejection).message := by
  have hblank : (reference name).all isBlank = false := rfl
  have hb : build env.bindings (reference name) (reference name) =
      .error (.rejected rejection) := by
    unfold build
    simp only [expand_reference (isName_of_isWord hname) h, hm]
  unfold compile
  simp only [hblank, Bool.false_eq_true, if_false, hb]
  exact ⟨_, rfl, rfl⟩

/-- What a binding and a reference to it compile to. -/
theorem compile_assignment {files : FileSystem} {filename : Option Bytes}
    (hname : isWord name = true) (hline : Bytes.newline ∉ expression)
    (htrim : trim expression = expression)
    (hok : (Importer.load files env (assignment name expression) filename).1.ok = true) :
    let bound := (Importer.load files env (assignment name expression) filename).2
    ∃ direct, env.compile expression = .ok direct ∧
      (Spliceable direct.source → ∃ spliced, bound.compile (reference name) = .ok spliced ∧
        spliced.matcher = { direct.matcher with name := spliced.matcher.name }) ∧
      (¬Spliceable direct.source → ∃ d, bound.compile (reference name) = .error d ∧
        d.message = (Obstacle.rejected .malformed).message) := by
  obtain ⟨hne, built, hbuilt, hbound⟩ := Importer.load_assignment hname hline htrim hok
  have hget : (env.bindings.set name built.source).get? name = some built.source :=
    env.bindings.get?_set name built.source
  obtain ⟨-, hm⟩ := build_cases hbuilt
  dsimp only
  rw [hbound]
  refine ⟨_, compile_of_build (not_all_blank htrim hne) hbuilt, fun hs => ?_, fun hs => ?_⟩
  · exact ⟨_, compile_reference hname hget (Matcher.compile_grouped hm hs _), rfl⟩
  · exact compile_reference_rejected hname hget (Matcher.compile_grouped_malformed hm hs _)

end Environment

namespace Standard

open PatternEngine.Action PatternEngine.Engine PatternEngine.Source

variable {e₀ e : StandardEngine} {files : FileSystem} {name expression : Bytes}
  {pattern : Environment.Pattern}

/-- Compiling an expression gives a pattern a handle, under which it is found from then on. -/
structure Compiles (files : FileSystem) (expression : Bytes) (e : StandardEngine)
    (pattern : Environment.Pattern) (handle : Handle) (after : StandardEngine) : Prop where
  run : (compile files expression).run e = (.ok ⟨handle, none⟩, after)
  handle_ne : handle.isNone = false
  shipped : Shipped after
  found : after.patterns.get? handle = some (StandardModule.patternObject pattern)

theorem compile_run_insert (files : FileSystem) (hs : Shipped e)
    (hc : e.state.environment.compile expression = .ok pattern) :
    (compile files expression).run e =
      match e.patterns.insert (StandardModule.patternObject pattern) with
      | some (handle, patterns) => (.ok ⟨handle, none⟩, { e with patterns })
      | none => (.error .handlesExhausted, e) :=
  (compile_run_ok hs hc).trans (keep_run _ _)

/-- A pattern gets a handle, unless there is none left. -/
theorem compiles_iff (files : FileSystem) (hs : Shipped e) (hsound : e.patterns.Sound)
    (hc : e.state.environment.compile expression = .ok pattern) :
    (∃ handle after, Compiles files expression e pattern handle after) ↔ ¬e.patterns.Full := by
  have hrun := compile_run_insert files hs hc
  rw [← HandleTable.insert_none_iff (v := StandardModule.patternObject pattern)]
  cases hi : e.patterns.insert (StandardModule.patternObject pattern) with
  | none =>
    rw [hi] at hrun
    refine ⟨fun ⟨handle, after, h⟩ => ?_, fun h => absurd rfl h⟩
    cases hrun.symm.trans h.run
  | some inserted =>
    obtain ⟨handle, patterns⟩ := inserted
    rw [hi] at hrun
    obtain ⟨hne, hfound, -⟩ := hsound.insert hi
    exact ⟨fun _ => by simp, fun _ =>
      ⟨handle, _, hrun, by simpa [Handle.isNone] using hne, hs, hfound⟩⟩

/-- What has a handle is the pattern that the expression compiles to. -/
theorem Compiles.compiled {handle : Handle} {after : StandardEngine} (hs : Shipped e)
    (hsound : e.patterns.Sound) (h : Compiles files expression e pattern handle after) :
    ∃ compiled, e.state.environment.compile expression = .ok compiled ∧
      compiled.matcher = pattern.matcher ∧ ¬e.patterns.Full := by
  cases hc : e.state.environment.compile expression with
  | error d =>
    obtain ⟨messages, hrun⟩ := compile_run_error files hs hc
    cases hrun.symm.trans h.run
    cases h.handle_ne
  | ok compiled =>
    have hfull : ¬e.patterns.Full := by
      intro hfull
      have hrun := compile_run_insert files hs hc
      rw [HandleTable.insert_none_iff.2 hfull] at hrun
      cases hrun.symm.trans h.run
    refine ⟨compiled, rfl, ?_, hfull⟩
    obtain ⟨handle', after', h'⟩ := (compiles_iff files hs hsound hc).2 hfull
    cases h'.run.symm.trans h.run
    have hobject := Option.some.inj (h'.found.symm.trans h.found)
    have hpeg := congrArg (fun v : Value => v.field (text "peg")) hobject
    simp only [patternObject_peg] at hpeg
    exact Value.matcher.inj hpeg

/-- Patterns whose matchers find the same give the same answer with every encoder that does not
name the pattern. -/
theorem answer_congr {e' : StandardEngine} {handle handle' : Handle}
    {pattern' : Environment.Pattern} {start : Int} {input encoder : Bytes}
    (hs : Shipped e) (hs' : Shipped e')
    (hp : e.patterns.get? handle = some (StandardModule.patternObject pattern))
    (hp' : e'.patterns.get? handle' = some (StandardModule.patternObject pattern'))
    (hsame : Primitive.matchAt pattern'.matcher input start =
      Primitive.matchAt pattern.matcher input start)
    (hencoder : encoder ∈ encoderNames) (hjson : encoder ≠ text "json")
    (hdefault : encoder ≠ text "default") :
    answer files handle' start encoder input e' = answer files handle start encoder input e := by
  rw [answer_encoding hs hp hencoder, answer_encoding hs' hp' hencoder]
  unfold answerOf
  rw [hsame, encoding_congr hencoder hjson hdefault]

/-- After a name has been bound, a reference to it is a pattern exactly when the source of the
expression can be put into a group, as long as there is a handle left. It then finds the same as the
expression itself does in the engine as it was: the same bytes, with the same bytes left over and
the same groups. -/
theorem splice_of_assignment {gauge : StandardModule.Gauge} {installation : FileSystem}
    {settings : Settings} {standardHome : Bytes} {options : Options}
    (hmade : create (shippedModule gauge) installation settings standardHome options = .ok e₀)
    (hrun : Steps Call.Any e₀ e) (hname : isWord name = true)
    (hline : Bytes.newline ∉ expression) (htrim : trim expression = expression)
    {outcome : LoadOutcome} {bound : StandardEngine}
    (hload : (load files (assignment name expression)).run e = (.ok outcome, bound))
    (hok : outcome.ok = true) :
    ∃ direct, e.state.environment.compile expression = .ok direct ∧
      ((∃ handle after, Compiles files expression e direct handle after) ↔ ¬e.patterns.Full) ∧
      ((∃ spliced handle after, Compiles files (reference name) bound spliced handle after) ↔
        Spliceable direct.source ∧ ¬e.patterns.Full) ∧
      ∀ {spliced : Environment.Pattern} {handle handle' : Handle} {after after' : StandardEngine},
        Compiles files expression e direct handle after →
        Compiles files (reference name) bound spliced handle' after' → ∀ input start,
          Primitive.matchAt spliced.matcher input start =
            Primitive.matchAt direct.matcher input start ∧
          ∀ encoder ∈ encoderNames, encoder ≠ text "json" → encoder ≠ text "default" →
            answer files handle' start encoder input after' =
              answer files handle start encoder input after := by
  have hfresh := (fresh_of_create hmade).1
  have hs : Shipped e := shipped_of_steps hfresh.shipped hrun
  have hsound := sound_of_steps hfresh hrun
  obtain ⟨messages, hr⟩ := load_run files hs (assignment name expression)
  cases hload.symm.trans hr
  have hsb := shipped_withEnvironment hs
    (Importer.load files e.state.environment (assignment name expression) none).2
  obtain ⟨direct, hdirect, hyes, hno⟩ :=
    Environment.compile_assignment hname hline htrim hok
  have hgroup : ∀ {compiled : Environment.Pattern},
      (withEnvironment e (Importer.load files e.state.environment (assignment name expression)
        none).2).state.environment.compile (reference name) = .ok compiled →
      Spliceable direct.source := by
    intro compiled hc
    refine Classical.byContradiction fun hnot => ?_
    obtain ⟨d, hd, -⟩ := hno hnot
    cases hd.symm.trans hc
  refine ⟨direct, hdirect, compiles_iff files hs hsound hdirect, ⟨?_, ?_⟩, ?_⟩
  · rintro ⟨spliced, handle, after, h⟩
    obtain ⟨compiled, hc, -, hfull⟩ := h.compiled hsb hsound
    exact ⟨hgroup hc, hfull⟩
  · rintro ⟨hspliceable, hfull⟩
    obtain ⟨spliced, hspliced, -⟩ := hyes hspliceable
    obtain ⟨handle, after, h⟩ := (compiles_iff files hsb hsound hspliced).2 hfull
    exact ⟨spliced, handle, after, h⟩
  · intro spliced handle handle' after after' h h' input start
    obtain ⟨compiled, hc, hm, -⟩ := h'.compiled hsb hsound
    obtain ⟨same, hsplice, hmatcher⟩ := hyes (hgroup hc)
    cases hsplice.symm.trans hc
    have hsame : Primitive.matchAt spliced.matcher input start =
        Primitive.matchAt direct.matcher input start := by
      rw [← hm, hmatcher]
      rfl
    exact ⟨hsame, fun encoder hencoder hjson hdefault =>
      answer_congr h.shipped h'.shipped h.found h'.found hsame hencoder hjson hdefault⟩

/-- A name bound to a choice, in a new engine. -/
theorem splice_of_assignment_sample : ∃ (e bound : StandardEngine) (outcome : LoadOutcome),
    isWord (text "x") = true ∧ Bytes.newline ∉ text "b|(c)" ∧
    trim (text "b|(c)") = text "b|(c)" ∧
    (load sample (assignment (text "x") (text "b|(c)"))).run e = (.ok outcome, bound) ∧
    outcome.ok = true ∧
    ∃ spliced handle after, Compiles sample (reference (text "x")) bound spliced handle after := by
  obtain ⟨e, hmade, outcome, bound, hload, hok, direct, hdirect, hs, hfull⟩ :
      ∃ e : StandardEngine, create standardModule sample {} (text "r") {} = .ok e ∧
      ∃ (outcome : LoadOutcome) (bound : StandardEngine),
        (load sample (assignment (text "x") (text "b|(c)"))).run e = (.ok outcome, bound) ∧
        outcome.ok = true ∧
        ∃ direct, e.state.environment.compile (text "b|(c)") = .ok direct ∧
          Spliceable direct.source ∧ ¬e.patterns.Full :=
    ⟨_, rfl, _, _, rfl, rfl, _, rfl, ⟨"b|(c)".toList, rfl, by decide, by decide⟩,
      fun h => absurd h.2 (by decide)⟩
  have hword : isWord (text "x") = true := by decide
  have hline : Bytes.newline ∉ text "b|(c)" := by decide
  have htrim : trim (text "b|(c)") = text "b|(c)" := by decide
  obtain ⟨direct', hdirect', -, hiff, -⟩ :=
    splice_of_assignment hmade .refl hword hline htrim hload hok
  cases hdirect.symm.trans hdirect'
  exact ⟨e, bound, outcome, hword, hline, htrim, hload, hok, hiff.2 ⟨hs, hfull⟩⟩

/-- A comment hides the end of the group: the text is loaded, but the name cannot be used. -/
theorem splice_hidden_by_comment : ∃ (e bound : StandardEngine) (outcome : LoadOutcome),
    create standardModule sample {} (text "r") {} = .ok e ∧
    isWord (text "a") = true ∧ Bytes.newline ∉ text "(?x)b #c" ∧
    trim (text "(?x)b #c") = text "(?x)b #c" ∧
    (load sample (assignment (text "a") (text "(?x)b #c"))).run e = (.ok outcome, bound) ∧
    outcome.ok = true ∧
    ∃ messages, (compile sample (reference (text "a"))).run bound =
      (.ok ⟨Handle.none, messages⟩, bound) :=
  ⟨_, _, _, rfl, by decide, by decide, by decide, rfl, rfl, _, rfl⟩

end Standard

end PatternEngine
