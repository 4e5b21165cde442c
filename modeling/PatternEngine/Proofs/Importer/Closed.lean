import PatternEngine.Proofs.Engine.Splicing
import PatternEngine.Proofs.Importer.Entries
/-!
# Environments are closed

A source that is kept needs no environment any more: it is an expression in valid text and refers to
nothing (`Closed`). What is built from closed bindings is closed (`closed_of_build`), and nothing
but what was built is ever bound, so that loading and importing keep an environment closed, with
the exports of all packages that have been found (`load_closed`, `importPackage_closed`).
-/
namespace PatternEngine

/-- A source that can be compiled on its own: it is text, it is an expression, and it refers to
nothing. -/
structure Closed (source : Bytes) : Prop where
  valid : Text.Utf8.isValid source = true
  compiles : ∀ name, ∃ m, Matcher.compile source name = .ok m
  plain : Source.Plain source

/-- All sources are closed. -/
def Bindings.Closed (bindings : Bindings) : Prop := ∀ entry ∈ bindings, PatternEngine.Closed entry.2

/-- What is exported by the packages that were found is closed. -/
def Packages.Closed (packages : Packages) : Prop := ∀ entry ∈ packages.found, entry.2.Closed

namespace Bindings

variable {bindings : Bindings} {name source : Bytes}

theorem closed_nil : Bindings.Closed [] := by
  intro entry hm
  cases hm

theorem Closed.get? (hb : bindings.Closed) (h : bindings.get? name = some source) :
    PatternEngine.Closed source := hb (name, source) (mem_of_lookup h)

/-- What is built from closed bindings is closed: what was put in has no references, and the whole
has been compiled. -/
theorem closed_of_build {expression : Bytes} {built : Environment.Built} (hb : bindings.Closed)
    (h : Environment.build bindings expression name = .ok built) :
    PatternEngine.Closed built.source := by
  obtain ⟨hexpand, hm⟩ := Environment.build_cases h
  obtain ⟨chars, e, hchars, -⟩ := Matcher.compile_ok hm
  constructor
  · exact Text.Utf8.isValid_chars hchars
  · intro name'
    exact ⟨_, Matcher.compile_rename hm name'⟩
  · exact Source.plain_of_expand (fun name source hs => (hb.get? hs).plain) hexpand

end Bindings

/-- All that an environment keeps is closed. -/
structure Environment.Closed (env : Environment) : Prop where
  bindings : env.bindings.Closed
  packages : env.packages.Closed

theorem Environment.closed_iff {env : Environment} : env.Closed ↔
    env.All (fun _ => PatternEngine.Closed) (fun _ => PatternEngine.Closed) fun _ => True := by
  constructor
  · exact fun h => ⟨h.bindings, fun entry hm => ⟨trivial, h.packages entry hm⟩⟩
  · exact fun h => ⟨h.bindings, fun entry hm => (h.packages entry hm).2⟩

namespace Importer

variable {files : FileSystem} {env : Environment}

/-- Lines bind closed sources, and an import hands on sources as they are. -/
theorem handed_closed :
    Handed (fun _ => PatternEngine.Closed) (fun _ => PatternEngine.Closed) fun _ => True where
  built hb _ h := ⟨Bindings.closed_of_build hb h, Bindings.closed_of_build hb h⟩
  declared _ := trivial
  imported _ _ h := h

theorem load_closed (h : env.Closed) (source : Bytes) (filename : Option Bytes) :
    (load files env source filename).2.Closed :=
  Environment.closed_iff.2 (load_all handed_closed (Environment.closed_iff.1 h) source filename)

theorem loadFile_closed (h : env.Closed) (path : Bytes) : (loadFile files env path).2.Closed :=
  Environment.closed_iff.2 (loadFile_all handed_closed (Environment.closed_iff.1 h) path)

theorem importPackage_closed (h : env.Closed) (package : Bytes) (under : Source.Alias) :
    (importPackage files env package under).2.Closed := by
  refine Environment.closed_iff.2 ?_
  refine importPackage_all handed_closed (Environment.closed_iff.1 h) package under ?_
  exact fun exports _ _ hexported => hexported

end Importer

end PatternEngine
