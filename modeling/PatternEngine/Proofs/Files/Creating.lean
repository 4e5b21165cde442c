import PatternEngine.FileSystem
/-!
# Putting files into a file system

A file that is put where a path leads changes what is at its own place and nothing else
(`entry?_put`): all above it are directories already (`Rooted`). Every other path therefore leads
where it led before (`place_put`), and can be opened and read as before (`create_put`, `read_put`).
-/
namespace PatternEngine.FileSystem

variable {fs : FileSystem} {place other : Place} {path contents : Bytes}

theorem lookup_put : (fs.put place contents).files.lookup other =
    if other = place then some contents else fs.files.lookup other := by
  unfold put
  rw [List.lookup_cons]
  by_cases hp : other = place
  · simp [hp]
  · have hne : (other == place) = false := by simpa using hp
    rw [if_neg hp, hne]
    dsimp only
    induction fs.files with
    | nil => rfl
    | cons file files ih =>
      obtain ⟨kept, bytes⟩ := file
      by_cases hk : kept = place
      · subst hk
        simp [List.lookup_cons, hne, ih]
      · simp [hk, List.lookup_cons, ih]

theorem isDirectory_iff : fs.isDirectory place = true ↔
    place = [] ∨ (∃ d ∈ fs.directories, place <+: d) ∨
      ∃ file ∈ fs.files, place <+: file.1 ∧ place ≠ file.1 := by
  simp [isDirectory, or_assoc]

/-- What is above a directory is a directory. -/
theorem isDirectory_of_prefix (hpre : other <+: place) (h : fs.isDirectory place = true) :
    fs.isDirectory other = true := by
  rw [isDirectory_iff] at h ⊢
  rcases h with rfl | ⟨d, hd, hp⟩ | ⟨file, hf, hp, hne⟩
  · exact .inl (List.prefix_nil.1 hpre)
  · exact .inr (.inl ⟨d, hd, hpre.trans hp⟩)
  · refine .inr (.inr ⟨file, hf, hpre.trans hp, ?_⟩)
    rintro rfl
    exact hne (hp.eq_of_length_le hpre.length_le)

/-- Everything above a place is a directory. -/
def Rooted (fs : FileSystem) (place : Place) : Prop :=
  ∀ above, above <+: place → above ≠ place → fs.isDirectory above = true

theorem rooted_of_isDirectory (hpre : other <+: place) (h : fs.isDirectory place = true) :
    fs.Rooted other :=
  fun _ habove _ => isDirectory_of_prefix (habove.trans hpre) h

theorem rooted_concat {name : Bytes} (h : fs.isDirectory place = true) :
    fs.Rooted (place ++ [name]) := by
  intro above habove hne
  rcases List.prefix_concat_iff.1 habove with rfl | hpre
  · exact absurd rfl hne
  · exact isDirectory_of_prefix hpre h

theorem isDirectory_of_entry (h : fs.entry? place = some .directory) :
    fs.isDirectory place = true ∧ fs.files.lookup place = none := by
  unfold entry? at h
  split at h
  · cases h
  · rename_i hl
    split at h
    · rename_i hd
      exact ⟨hd, hl⟩
    · cases h

theorem lookup_of_entry (h : fs.entry? place = some (.file contents)) :
    fs.files.lookup place = some contents := by
  unfold entry? at h
  split at h
  · rename_i hl
    cases h
    exact hl
  · split at h <;> cases h

/-- A walk that begins in a directory ends below directories. -/
theorem rooted_of_walk : ∀ (names : List Bytes) {start : Place}, fs.Rooted start →
    fs.walk start names = .ok place → fs.Rooted place
  | [], start, hs, h => by
    cases h
    exact hs
  | name :: names, start, hs, h => by
    rw [walk] at h
    split at h
    · cases h
    · cases h
    · rename_i hentry
      have hd := (isDirectory_of_entry hentry).1
      split at h
      · exact rooted_of_walk names hs h
      · split at h
        · exact rooted_of_walk names (rooted_of_isDirectory (List.dropLast_prefix start) hd) h
        · split at h
          · cases h
          · exact rooted_of_walk names (rooted_concat hd) h

theorem rooted_of_place (h : fs.place path = .ok place) : fs.Rooted place := by
  unfold FileSystem.place at h
  split at h
  · cases h
  · split at h
    · cases h
    · split at h
      · cases h
      · dsimp only at h
        generalize hn : Bytes.splitOn separator path = names at h
        cases names with
        | nil => simp [Bytes.splitOn] at hn
        | cons name names =>
          refine rooted_of_walk (name :: names) ?_ h
          rw [walk] at h
          split at h
          · cases h
          · cases h
          · rename_i hentry
            exact rooted_of_isDirectory (List.prefix_refl _) (isDirectory_of_entry hentry).1

/-! ## What a new file changes -/

theorem isDirectory_put (hr : fs.Rooted place) :
    (fs.put place contents).isDirectory other = fs.isDirectory other := by
  rw [Bool.eq_iff_iff, isDirectory_iff, isDirectory_iff]
  constructor
  · rintro (rfl | hd | ⟨file, hf, hp, hne⟩)
    · exact .inl rfl
    · exact .inr (.inl hd)
    · rcases List.mem_cons.1 hf with rfl | hf
      · exact isDirectory_iff.1 (hr other hp hne)
      · exact .inr (.inr ⟨file, (List.mem_filter.1 hf).1, hp, hne⟩)
  · rintro (rfl | hd | ⟨file, hf, hp, hne⟩)
    · exact .inl rfl
    · exact .inr (.inl hd)
    · refine .inr (.inr ?_)
      by_cases hplace : file.1 = place
      · exact ⟨(place, contents), by simp [put], hplace ▸ hp, hplace ▸ hne⟩
      · refine ⟨file, ?_, hp, hne⟩
        simp [put, hf, hplace]

/-- A file below directories changes what is at its own place only. -/
theorem entry?_put (hr : fs.Rooted place) : entry? (fs.put place contents) other =
    if other = place then some (.file contents) else fs.entry? other := by
  unfold entry?
  rw [lookup_put, isDirectory_put hr]
  by_cases hp : other = place
  · rw [if_pos hp, if_pos hp]
  · rw [if_neg hp, if_neg hp]

/-- A file may stand at a place: all above are directories, and the place is none. -/
structure Free (fs : FileSystem) (place : Place) : Prop where
  rooted : fs.Rooted place
  vacant : fs.entry? place ≠ some .directory

theorem Free.put (hp : fs.Free place) (ho : fs.Free other) :
    (fs.put place contents).Free other := by
  constructor
  · intro above habove hne
    rw [isDirectory_put hp.rooted]
    exact ho.rooted above habove hne
  · rw [entry?_put hp.rooted]
    split
    · simp
    · exact ho.vacant

theorem walk_put (hp : fs.Free place) : ∀ (names : List Bytes) (start stop : Place),
    (fs.put place contents).walk start names = .ok stop ↔ fs.walk start names = .ok stop
  | [], start, stop => Iff.rfl
  | name :: names, start, stop => by
    have ih := fun start => walk_put hp names start stop
    rw [walk, walk, entry?_put hp.rooted]
    by_cases hstart : start = place
    · -- neither the new file nor what was at its place can be walked through
      subst hstart
      rw [if_pos rfl]
      dsimp only
      split
      · simp
      · simp
      · rename_i hentry
        exact absurd hentry hp.vacant
    · rw [if_neg hstart]
      split
      · simp
      · simp
      · split
        · exact ih start
        · split
          · exact ih start.dropLast
          · split
            · simp
            · exact ih (start ++ [name])

/-- Every path leads where it led before, and none leads anywhere else. -/
theorem place_put_iff (hp : fs.Free place) :
    (fs.put place contents).place path = .ok other ↔ fs.place path = .ok other := by
  unfold FileSystem.place
  split
  · rfl
  · split
    · rfl
    · split
      · rfl
      · exact walk_put hp _ _ _

theorem place_put (hp : fs.Free place) (h : fs.place path = .ok other) :
    (fs.put place contents).place path = .ok other :=
  (place_put_iff hp).2 h

/-! ## Opening and reading after a file was put -/

/-- A file that can be created stands at a free place that the path leads to, and is empty then. -/
theorem create_eq_ok {fs' : FileSystem} : fs.create path = .ok (place, fs') ↔
    path.getLast? ≠ some separator ∧ fs.place path = .ok place ∧ fs.Free place ∧
      fs' = fs.put place [] := by
  unfold create
  by_cases hlast : path.getLast? = some separator
  · simp only [hlast, beq_self_eq_true, if_true, ne_eq, not_true, false_and, iff_false]
    split
    · simp
    · cases fs.place _ <;> simp [bind, Except.bind, throw, throwThe, MonadExceptOf.throw]
  · have hne : (path.getLast? == some separator) = false := by simpa using hlast
    rw [hne]
    simp only [Bool.false_eq_true, if_false, ne_eq, hlast, not_false_eq_true, true_and]
    cases hp : fs.place path with
    | error error => simp [bind, Except.bind]
    | ok found =>
      simp only [bind, Except.bind, Except.ok.injEq]
      constructor
      · intro h
        split at h
        · cases h
        · rename_i hentry
          cases h
          exact ⟨rfl, ⟨rooted_of_place hp, hentry⟩, rfl⟩
      · rintro ⟨rfl, hfree, rfl⟩
        split
        · rename_i hentry
          exact absurd hentry hfree.vacant
        · rfl

theorem read_iff : fs.read path = .ok contents ↔
    ∃ place, fs.place path = .ok place ∧ fs.entry? place = some (.file contents) := by
  unfold read find
  cases hp : fs.place path with
  | error error => simp [bind, Except.bind]
  | ok place =>
    simp only [bind, Except.bind, Except.ok.injEq, exists_eq_left']
    rcases fs.entry? place with _ | _ | _ <;>
      simp [throw, throwThe, MonadExceptOf.throw, pure, Except.pure]

/-- The empty path leads nowhere. -/
theorem isEmpty_of_place (h : fs.place path = .ok place) : path.isEmpty = false := by
  cases path with
  | nil => cases h
  | cons b path => rfl

theorem create_put {fs' : FileSystem} (hp : fs.Free place)
    (h : fs.create path = .ok (other, fs')) :
    (fs.put place contents).create path =
      .ok (other, (fs.put place contents).put other []) := by
  obtain ⟨hlast, hother, hfree, -⟩ := create_eq_ok.1 h
  exact create_eq_ok.2 ⟨hlast, place_put hp hother, hp.put hfree, rfl⟩

theorem read_put {found : Bytes} (hp : fs.Free place) (hne : fs.place path ≠ .ok place)
    (h : fs.read path = .ok found) : (fs.put place contents).read path = .ok found := by
  obtain ⟨other, hother, hentry⟩ := read_iff.1 h
  have hother_ne : other ≠ place := by
    rintro rfl
    exact hne hother
  refine read_iff.2 ⟨other, place_put hp hother, ?_⟩
  rw [entry?_put hp.rooted, if_neg hother_ne]
  exact hentry

/-- Two files are made empty and then filled. -/
theorem fill_two {first second : Place} {a b : Bytes} (hf : fs.Free first) (hs : fs.Free second) :
    let filled := (((fs.put first []).put second []).put first a).put second b
    (∀ path place, fs.place path = .ok place → filled.place path = .ok place) ∧
      ∀ place, filled.entry? place =
        if place = second then some (.file b)
        else if place = first then some (.file a) else fs.entry? place := by
  have hs₁ : (fs.put first []).Free second := hf.put hs
  have hf₁ : (fs.put first []).Free first := hf.put hf
  have hf₂ : ((fs.put first []).put second []).Free first := hs₁.put hf₁
  have hs₂ : ((fs.put first []).put second []).Free second := hs₁.put hs₁
  have hs₃ : (((fs.put first []).put second []).put first a).Free second := hf₂.put hs₂
  constructor
  · intro path place h
    exact place_put hs₃ (place_put hf₂ (place_put hs₁ (place_put hf h)))
  · intro place
    rw [entry?_put hs₃.rooted, entry?_put hf₂.rooted, entry?_put hs₁.rooted, entry?_put hf.rooted]
    by_cases hsecond : place = second
    · simp [hsecond]
    · by_cases hfirst : place = first <;> simp [hsecond, hfirst]

end PatternEngine.FileSystem
