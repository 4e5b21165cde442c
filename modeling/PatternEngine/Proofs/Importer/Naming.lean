import PatternEngine.Proofs.Importer.Entries
import PatternEngine.Proofs.Source.References
/-!
# What names are made of

A line binds a word, and a package that is found is a word with words for names. What an import line
binds is put together from words and a dot, so a text only binds names that a reference can reach
(`handed_names`). What an import call binds depends on the alias as well, which can be any bytes.
-/
namespace PatternEngine

open PatternEngine.Source

namespace Source

variable {name package under : Bytes}

/-- Names that are joined by a dot are a name. -/
theorem isName_joined (h : ∀ b ∈ package, isNameByte b = true) (hname : isWord name = true) :
    IsName (package ++ text "." ++ name) := by
  refine ⟨by simp [isWord_ne hname], fun b hb => ?_⟩
  rcases List.mem_append.1 hb with hb | hb
  · rcases List.mem_append.1 hb with hb | hb
    · exact h b hb
    · rw [List.mem_singleton.1 hb]
      rfl
  · exact (isName_of_isWord hname).2 b hb

/-- A reference can only reach names. -/
theorem isName_of_mem_scan : ∀ (bytes : Bytes) (skip : Nat),
    .reference name ∈ Fragment.scan skip bytes → IsName name
  | [], _, h => by cases h
  | _ :: rest, skip + 1, h => isName_of_mem_scan rest skip h
  | b :: rest, 0, h => by
    rw [Fragment.scan] at h
    split at h
    · rename_i other hleading
      rcases List.mem_cons.1 h with heq | h
      · cases heq
        exact (leading_iff.1 hleading).1
      · exact isName_of_mem_scan rest _ h
    · rcases List.mem_cons.1 h with heq | h
      · cases heq
      · exact isName_of_mem_scan rest 0 h

end Source

/-- What an import binds is a name if the alias is made of the bytes of names. -/
theorem Bindings.isName_qualified {package name : Bytes} {under : Alias}
    (hpackage : isWord package = true) (hname : isWord name = true)
    (hunder : ∀ bytes, under = .word bytes → ∀ b ∈ bytes, isNameByte b = true) :
    IsName (qualified package under name) := by
  cases under with
  | none => exact isName_joined (isName_of_isWord hpackage).2 hname
  | word bytes => exact isName_joined (hunder bytes rfl) hname
  | bare => exact isName_of_isWord hname

/-- Names of some kind are bound, and what packages are called and export are words. -/
def Environment.Named (K : Bytes → Prop) (env : Environment) : Prop :=
  env.All (fun name _ => K name) (fun name _ => isWord name = true) fun name => isWord name = true

namespace Importer

/-- The alias of an import line is a word. -/
theorem alias_of_importing {line package : Bytes} {under : Alias}
    (h : Reads line (.importing package under)) :
    ∀ bytes, under = .word bytes → ∀ b ∈ bytes, isNameByte b = true := by
  cases h with
  | importing _ => exact fun bytes h => by cases h
  | importingUnder _ under_word =>
    rintro bytes ⟨⟩
    exact (isName_of_isWord under_word).2
  | importingBare _ => exact fun bytes h => by cases h

/-- A line binds a word, or what an import line makes of words. -/
theorem handed_names {K : Bytes → Prop} (hK : ∀ name, IsName name → K name) :
    Handed (fun name _ => K name) (fun name _ => isWord name = true) fun name =>
      isWord name = true where
  built _ hword _ := ⟨hK _ (isName_of_isWord hword), hword⟩
  declared := id
  imported hreads hpackage hname :=
    hK _ (Bindings.isName_qualified hpackage hname (alias_of_importing hreads))

end Importer

end PatternEngine
