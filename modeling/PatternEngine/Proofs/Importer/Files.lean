import Mathlib.Data.List.Dedup
import Mathlib.Data.List.Nodup
import PatternEngine.Proofs.Files.Creating
import PatternEngine.Proofs.Importer.Lines
import PatternEngine.Proofs.Text.Pieces
/-!
# The files of packages

Packages with different words for names have different files (`place_of_locate`), so there are no
more such packages than files that a search for one of them can open (`length_le_packageFiles`), and
no more of them can wait for each other than there are files (`Nested.length_le`). This is what
bounds the depth of nested searches.
-/
namespace PatternEngine

namespace FileSystem

variable {fs : FileSystem}

/-- A name that leads down and is walked last is the last name of the place. -/
theorem walk_last {last : Bytes} (h0 : last ≠ []) (h1 : last ≠ [46]) (h2 : last ≠ [46, 46]) :
    ∀ (names : List Bytes) (start place : Place), fs.walk start (names ++ [last]) = .ok place →
      place.getLast? = some last
  | [], start, place, h => by
    simp only [List.nil_append, walk] at h
    split at h
    · cases h
    · cases h
    · rw [if_neg (by simp [h0, h1]), if_neg (by simp [h2])] at h
      split at h
      · cases h
      · cases h
        simp
  | name :: names, start, place, h => by
    simp only [List.cons_append, walk] at h
    split at h
    · cases h
    · cases h
    · split at h
      · exact walk_last h0 h1 h2 names _ place h
      · split at h
        · exact walk_last h0 h1 h2 names _ place h
        · split at h
          · cases h
          · exact walk_last h0 h1 h2 names _ place h

end FileSystem

namespace Importer

open PatternEngine.Source (isWord isWordByte)

variable {files : FileSystem} {searchPath package path contents : Bytes}

/-- The name of a package's file. -/
def fileName (package : Bytes) : Bytes := package ++ text ".rpl"

theorem candidate_eq (package directory : Bytes) :
    candidate package directory = directory ++ FileSystem.separator :: fileName package := by
  simp only [candidate, fileName, List.append_assoc]
  rfl

theorem separator_not_mem_fileName (h : isWord package = true) :
    FileSystem.separator ∉ fileName package := by
  simp only [isWord, Bool.and_eq_true, List.all_eq_true] at h
  intro hm
  rcases List.mem_append.1 hm with hm | hm
  · exact absurd (h.2 _ hm) (by decide)
  · exact absurd hm (by decide)

theorem four_lt_length_fileName (h : isWord package = true) : 4 < (fileName package).length := by
  have hl : (text ".rpl").length = 4 := by decide
  cases package with
  | nil => simp [isWord] at h
  | cons b rest => simp [fileName, hl]

/-- The file of a package whose name is a word ends with that word. -/
theorem place_of_locate (hw : isWord package = true)
    (h : locate files searchPath package = some (path, contents)) :
    ∃ place, files.place path = .ok place ∧ files.files.lookup place = some contents ∧
      place.getLast? = some (fileName package) := by
  obtain ⟨directory, -, hd⟩ := List.exists_of_findSome?_eq_some h
  split at hd
  · rename_i c hr
    cases hd
    obtain ⟨place, hp, hentry⟩ := FileSystem.read_iff.1 hr
    refine ⟨place, hp, FileSystem.lookup_of_entry hentry, ?_⟩
    have hlen := four_lt_length_fileName hw
    rw [candidate_eq] at hp
    unfold FileSystem.place at hp
    split at hp
    · cases hp
    · split at hp
      · cases hp
      · split at hp
        · cases hp
        · rw [Bytes.splitOn_append_cons,
            Bytes.splitOn_of_not_mem (separator_not_mem_fileName hw)] at hp
          refine FileSystem.walk_last ?_ ?_ ?_ _ _ _ hp <;> intro he <;> simp [he] at hlen
  · cases hd

/-! ## The files that can be opened -/

/-- The package that the file at a place is named after. -/
def packageAt? (place : Place) : Option Bytes :=
  place.getLast?.bind fun name => name.dropSuffix? (text ".rpl")

/-- The search for a package whose name is a word opens the file at this place. -/
def IsPackageFile (files : FileSystem) (searchPath : Bytes) (place : Place) : Prop :=
  ∃ package path contents, isWord package = true ∧
    locate files searchPath package = some (path, contents) ∧ files.place path = .ok place

/-- The files that searches can open, each of them once. -/
def packageFiles (files : FileSystem) (searchPath : Bytes) : List Place :=
  (files.files.map Prod.fst).dedup.filter fun place =>
    (packageAt? place).any fun package => isWord package &&
      (locate files searchPath package).any fun (path, _) =>
        (files.place path).toOption == some place

theorem toOption_eq_some {ε α : Type} {x : Except ε α} {a : α} :
    x.toOption = some a ↔ x = .ok a := by
  cases x <;> simp [Except.toOption]

theorem packageAt?_iff {place : Place} :
    packageAt? place = some package ↔ place.getLast? = some (fileName package) := by
  rw [packageAt?, Option.bind_eq_some_iff]
  simp only [List.dropSuffix?_eq_some_iff, beq_iff_eq, exists_eq_right, fileName]

theorem mem_packageFiles {place : Place} :
    place ∈ packageFiles files searchPath ↔ IsPackageFile files searchPath place := by
  unfold packageFiles IsPackageFile
  simp only [List.mem_filter, List.mem_dedup, Option.any_eq_true, Bool.and_eq_true, beq_iff_eq,
    toOption_eq_some]
  constructor
  · rintro ⟨-, package, -, hw, ⟨path, contents⟩, hl, hp⟩
    exact ⟨package, path, contents, hw, hl, hp⟩
  · rintro ⟨package, path, contents, hw, hl, hp⟩
    obtain ⟨place', hp', hlookup, hlast⟩ := place_of_locate hw hl
    rw [hp] at hp'
    cases hp'
    obtain ⟨before, after, he, -⟩ := List.lookup_eq_some_iff.1 hlookup
    exact ⟨by simp [he], package, packageAt?_iff.2 hlast, hw, (path, contents), hl, hp⟩

theorem nodup_packageFiles (files : FileSystem) (searchPath : Bytes) :
    (packageFiles files searchPath).Nodup :=
  (List.nodup_dedup _).filter _

theorem length_packageFiles_le (files : FileSystem) (searchPath : Bytes) :
    (packageFiles files searchPath).length ≤ files.files.length := by
  have hsublist : (packageFiles files searchPath).Sublist (files.files.map Prod.fst) :=
    List.filter_sublist.trans (List.dedup_sublist _)
  simpa only [List.length_map] using hsublist.length_le

/-- Different words with a file have different files. -/
theorem length_le_packageFiles {names : List Bytes} (hnodup : names.Nodup)
    (h : ∀ package ∈ names,
      isWord package = true ∧ ∃ file, locate files searchPath package = some file) :
    names.length ≤ (packageFiles files searchPath).length := by
  have hplace : ∀ package ∈ names, ∃ place : Place,
      place ∈ packageFiles files searchPath ∧ place.getLast? = some (fileName package) := by
    intro package hm
    obtain ⟨hw, ⟨path, contents⟩, hl⟩ := h package hm
    obtain ⟨place, hp, -, hlast⟩ := place_of_locate hw hl
    exact ⟨place, mem_packageFiles.2 ⟨package, path, contents, hw, hl, hp⟩, hlast⟩
  choose! placeOf hmem hlast using hplace
  have hplaces : (names.map placeOf).Nodup := by
    refine hnodup.map_on fun a ha b hb hab => ?_
    have hname := (hlast a ha).symm.trans ((congrArg List.getLast? hab).trans (hlast b hb))
    simpa [fileName] using hname
  rw [← List.length_map placeOf]
  refine hplaces.length_le_of_subset fun place hm => ?_
  obtain ⟨name, hn, rfl⟩ := List.mem_map.1 hm
  exact hmem name hn

/-! ## Packages that wait for each other -/

/-- The packages being loaded wait for each other: no name is among them twice, and all but the one
that was asked for first are words with a file. -/
structure Nested (files : FileSystem) (searchPath : Bytes) (loading : List Bytes) : Prop where
  nodup : loading.Nodup
  located : ∀ package ∈ loading.dropLast,
    isWord package = true ∧ ∃ file, locate files searchPath package = some file

theorem Nested.nil : Nested files searchPath [] := ⟨List.nodup_nil, by simp⟩

theorem Nested.cons {loading : List Bytes} (h : Nested files searchPath loading)
    (hn : package ∉ loading) (hw : isWord package = true)
    (hl : locate files searchPath package = some (path, contents)) :
    Nested files searchPath (package :: loading) := by
  refine ⟨List.nodup_cons.2 ⟨hn, h.nodup⟩, fun name hm => ?_⟩
  cases loading with
  | nil => simp at hm
  | cons other loading =>
    rw [List.dropLast_cons_cons] at hm
    rcases List.mem_cons.1 hm with rfl | hm
    · exact ⟨hw, _, hl⟩
    · exact h.located name hm

/-- No more packages wait for each other than there are files, but for one. -/
theorem Nested.length_le {loading : List Bytes} (h : Nested files searchPath loading) :
    loading.length ≤ files.files.length + 1 := by
  have hnodup : loading.dropLast.Nodup := h.nodup.sublist (List.dropLast_sublist _)
  have hfiles := length_le_packageFiles hnodup h.located
  have hall := length_packageFiles_le files searchPath
  rw [List.length_dropLast] at hfiles
  omega

end Importer

end PatternEngine
