import PatternEngine.Proofs.Engine.FileMatches
/-!
# Where results arrive

When a file has been matched to the end, both targets were open (`processFile_counts`), and what was
tallied for the output is in its file, or has been added to the standard output, whatever the errors
of the match went to (`received_deliver`). Only two names of one file are left out: there the two
writers write over each other.
-/
namespace PatternEngine.Engine

variable {σ : Type} {r : FileRequest}

/-- What a request has written to its output: the contents of the file, or what a standard stream
has got in addition. -/
def Received (path : Bytes) (world world' : World) (bytes : Bytes) : Prop :=
  if path = [] then world'.stdout = world.stdout ++ bytes else world'.files.read path = .ok bytes

/-- The output and the errors of a request are not one file. -/
def Apart (files : FileSystem) (r : FileRequest) : Prop :=
  ∀ place, files.place r.output = .ok place → files.place r.errors ≠ .ok place

theorem openTarget_cases {files opened : FileSystem} {path : Bytes} {target : Target}
    (h : openTarget files path = .ok (target, opened)) :
    (path = [] ∧ target = none ∧ opened = files) ∨
      ∃ place, target = some place ∧ files.place path = .ok place ∧ files.Free place ∧
        opened = files.put place [] := by
  unfold openTarget at h
  split at h
  · rename_i hempty
    cases h
    exact .inl ⟨List.isEmpty_iff.1 hempty, rfl, rfl⟩
  · cases hmade : files.create path with
    | error error =>
      rw [hmade] at h
      cases h
    | ok made =>
      rw [hmade] at h
      cases h
      obtain ⟨-, hplace, hfree, hput⟩ := FileSystem.create_eq_ok.1 hmade
      exact .inr ⟨made.1, rfl, hplace, hfree, hput⟩

/-- What has been tallied for the output arrives there and stays, whatever arrives elsewhere. -/
theorem received_deliver {world world₁ : World} {opened : FileSystem} {output errors : Target}
    {r : FileRequest} (hout : openTarget world.files r.output = .ok (output, opened))
    (herr : openTarget opened r.errors = .ok (errors, world₁.files)) (hapart : Apart world.files r)
    (hstdout : world₁.stdout = world.stdout) (t : Tally) :
    Received r.output world (deliver world₁ output errors .output t) (t.contents .output) := by
  unfold Received
  rcases openTarget_cases hout with ⟨hempty, rfl, rfl⟩ | ⟨place, rfl, hplace, hfree, rfl⟩
  · rw [if_pos hempty]
    simp [deliver, hstdout]
  · have hnonempty : r.output ≠ [] := by
      intro hempty
      rw [hempty] at hplace
      cases hplace
    rw [if_neg hnonempty]
    rcases openTarget_cases herr with ⟨-, rfl, hfiles⟩ | ⟨other, rfl, hother, hfree', hfiles⟩
    · have hfree₁ : world₁.files.Free place := hfiles ▸ hfree.put hfree
      have hplace₁ : world₁.files.place r.output = .ok place :=
        hfiles ▸ FileSystem.place_put hfree hplace
      have hfilled : (deliver world₁ (some place) none .output t).files =
          world₁.files.put place (t.contents .output) := by simp [deliver]
      rw [hfilled]
      refine FileSystem.read_iff.2 ⟨place, FileSystem.place_put hfree₁ hplace₁, ?_⟩
      rw [FileSystem.entry?_put hfree₁.rooted, if_pos rfl]
    · have hother₀ : world.files.place r.errors = .ok other :=
        (FileSystem.place_put_iff hfree).1 hother
      have hne : place ≠ other := by
        rintro rfl
        exact hapart place hplace hother₀
      have hvacant : world.files.entry? other ≠ some .directory := by
        have hkept := hfree'.vacant
        rwa [FileSystem.entry?_put hfree.rooted, if_neg hne.symm] at hkept
      obtain ⟨hplaces, hentries⟩ := FileSystem.fill_two (a := t.contents .output)
        (b := t.contents .errors) hfree ⟨FileSystem.rooted_of_place hother₀, hvacant⟩
      have hfilled : (deliver world₁ (some place) (some other) .output t).files =
          (world₁.files.put place (t.contents .output)).put other (t.contents .errors) := by
        simp [deliver, hne]
      rw [hfilled, hfiles]
      refine FileSystem.read_iff.2 ⟨place, hplaces _ _ hplace, ?_⟩
      rw [hentries, if_neg hne, if_pos rfl]

/-! ## To the end -/

/-- If a file is matched to the end, then with both targets open. -/
theorem processFile_counts {e e' : Engine σ} {world world' : World}
    {records results misses : Nat}
    (h : processFile r world e = ((.ok (.counts records results misses), world'), e')) :
    ∃ output errors opened opened' input,
      openTarget world.files r.output = .ok (output, opened) ∧
      openTarget opened r.errors = .ok (errors, opened') ∧
      matchInputFile r output errors { world with files := opened' } input e =
        ((.ok (.counts records results misses), world'), e') := by
  unfold processFile at h
  dsimp only at h
  split at h
  · cases h
  · split at h
    · cases h
    · rename_i hout
      split at h
      · cases h
      · rename_i herr
        split at h
        · exact ⟨_, _, _, _, _, hout, herr, h⟩
        · cases h

theorem matchInputFile_ended {e e' : Engine σ} (world : World) {input : Bytes}
    {t : Tally} (h : matchRecords world.files r {} (recordsOf r.wholeFile input) e =
      ((.ok (), t), e')) (output errors : Target) :
    ∃ world₁ : World, world₁.files = world.files ∧ world₁.stdout = world.stdout ∧
      matchInputFile r output errors world input e =
        ((.ok (.counts t.records t.results t.misses), deliver world₁ output errors .output t),
          e') := by
  refine ⟨if r.input.isEmpty then { world with stdin := input.drop t.consumed } else world,
    ?_, ?_, ?_⟩
  · split <;> rfl
  · split <;> rfl
  · unfold matchInputFile
    rw [h]

end PatternEngine.Engine
