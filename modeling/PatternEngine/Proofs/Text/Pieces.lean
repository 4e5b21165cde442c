import PatternEngine.Bytes
/-!
# Cutting byte strings at a separator

`Bytes.splitOn` runs over the bytes with the open piece in reverse. It is the list library's cut
(`splitOn_eq`), so a string that is put together around a separator is cut there again
(`splitOn_append_cons`), there is one piece more than there are separators (`length_splitOn`), and
the pieces can be put together again (`splitOn_pieces`). Lines give themselves back
(`splitOn_asLines`).
-/
namespace PatternEngine.Bytes

/-- How `splitOn` reads a byte: a separator ends the open piece. -/
def splitStep (separator : UInt8) : Bytes × List Bytes → UInt8 → Bytes × List Bytes
  | (piece, pieces), b =>
    if b == separator then ([], piece.reverse :: pieces) else (b :: piece, pieces)

theorem modifyHead_nil_append (pieces : List Bytes) : pieces.modifyHead ([] ++ ·) = pieces := by
  cases pieces <;> rfl

/-- The open piece stands in front of the first piece that is still to come. -/
theorem splitStep_foldl (separator : UInt8) : ∀ (bytes piece : Bytes) (pieces : List Bytes),
    let r := bytes.foldl (splitStep separator) (piece, pieces)
    (r.1.reverse :: r.2).reverse =
      pieces.reverse ++ (bytes.splitOnP (· == separator)).modifyHead (piece.reverse ++ ·)
  | [], piece, pieces => by simp
  | b :: bytes, piece, pieces => by
    rw [List.splitOnP_cons_eq_if_modifyHead]
    by_cases hb : (b == separator) = true
    · have ih := splitStep_foldl separator bytes [] (piece.reverse :: pieces)
      rw [List.reverse_nil, modifyHead_nil_append] at ih
      simpa [splitStep, hb] using ih
    · have ih := splitStep_foldl separator bytes (b :: piece) pieces
      simp only [List.foldl_cons, splitStep, hb, Bool.false_eq_true, if_false] at ih ⊢
      rw [ih]
      cases bytes.splitOnP (· == separator) <;> simp

theorem splitOn_eq (separator : UInt8) (bytes : Bytes) :
    splitOn separator bytes = bytes.splitOnP (· == separator) := by
  have h := splitStep_foldl separator bytes [] []
  rw [List.reverse_nil, List.reverse_nil, modifyHead_nil_append, List.nil_append] at h
  exact h

/-- A separator between two strings cuts them apart. -/
theorem splitOn_append_cons (separator : UInt8) (xs ys : Bytes) :
    splitOn separator (xs ++ separator :: ys) = splitOn separator xs ++ splitOn separator ys := by
  simp only [splitOn_eq]
  exact List.splitOnP_append_cons xs ys (by simp)

/-- Every separator adds a piece to the first. -/
theorem length_splitOn (separator : UInt8) (bytes : Bytes) :
    (splitOn separator bytes).length = bytes.count separator + 1 := by
  rw [splitOn_eq]
  induction bytes with
  | nil => rfl
  | cons b bytes ih =>
    rw [List.splitOnP_cons_eq_if_modifyHead, List.count_cons]
    split
    · rw [List.length_cons, ih]
    · rw [List.length_modifyHead, ih]

/-- Without a separator there is one piece. -/
theorem splitOn_of_not_mem {separator : UInt8} {bytes : Bytes} (h : separator ∉ bytes) :
    splitOn separator bytes = [bytes] := by
  rw [splitOn_eq]
  apply List.splitOnP_eq_singleton
  intro b hb
  have hne : b ≠ separator := fun e => h (e ▸ hb)
  simpa using hne

/-- The pieces have no separator, and give the string when one is put after each but the last. -/
theorem splitOn_pieces (separator : UInt8) (bytes : Bytes) : ∃ pieces last,
    splitOn separator bytes = pieces ++ [last] ∧
    bytes = pieces.flatMap (· ++ [separator]) ++ last ∧
    (∀ piece ∈ pieces, separator ∉ piece) ∧ separator ∉ last := by
  by_cases hm : separator ∈ bytes
  · obtain ⟨piece, rest, hcut, hpiece⟩ := List.eq_append_cons_of_mem hm
    have hshorter : rest.length < bytes.length := by
      rw [hcut, List.length_append, List.length_cons]
      omega
    obtain ⟨pieces, last, hsplit, hbytes, hpieces, hlast⟩ := splitOn_pieces separator rest
    refine ⟨piece :: pieces, last, ?_, ?_, ?_, hlast⟩
    · rw [hcut, splitOn_append_cons, splitOn_of_not_mem hpiece, hsplit]
      simp
    · rw [List.flatMap_cons, List.append_assoc, ← hbytes, hcut]
      simp
    · intro p hp
      rcases List.mem_cons.1 hp with rfl | hp
      · exact hpiece
      · exact hpieces p hp
  · exact ⟨[], bytes, splitOn_of_not_mem hm, by simp, by simp, hm⟩
termination_by bytes.length

/-- Byte strings, with a newline after each. -/
def asLines (lines : List Bytes) : Bytes := lines.flatMap (· ++ [newline])

/-- Lines are found again, and nothing follows the last newline. -/
theorem splitOn_asLines {lines : List Bytes} (h : ∀ line ∈ lines, newline ∉ line) :
    splitOn newline (asLines lines) = lines ++ [[]] := by
  induction lines with
  | nil => rfl
  | cons line lines ih =>
    have hline := h line List.mem_cons_self
    have hrest := ih fun other hm => h other (List.mem_cons_of_mem _ hm)
    unfold asLines at hrest ⊢
    rw [List.flatMap_cons, List.append_assoc, List.singleton_append, splitOn_append_cons,
      splitOn_of_not_mem hline, hrest]
    rfl

end PatternEngine.Bytes
