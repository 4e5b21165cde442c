import Mathlib.Data.List.Basic
import PatternEngine.Automaton.Search
/-!
# Where a search looks

A search from a position only ever notes positions between that one and the one it has come to
(`Notes.Within`). Each way that is followed keeps this up, so it holds of what is found: the match
ends where there is input, and its groups lie in it (`search_within`).
-/
namespace PatternEngine.Automaton

variable {a : Automaton} {p : Position} {low here group fuel bound : Nat} {notes : Notes}
  {threads : List Thread}

/-- A range lies between two positions. -/
structure Span.Inside (span : Span) (low high : Nat) : Prop where
  low_le : low ≤ span.start
  start_le_stop : span.start ≤ span.stop
  le_high : span.stop ≤ high

theorem Span.Inside.mono {span : Span} {high higher : Nat} (h : span.Inside low high)
    (hle : high ≤ higher) : span.Inside low higher :=
  ⟨h.low_le, h.start_le_stop, Nat.le_trans h.le_high hle⟩

/-- Everything that has been noted lies between two positions. -/
structure Notes.Within (notes : Notes) (low here : Nat) : Prop where
  begun : ∀ group start, (group, start) ∈ notes.begun → low ≤ start
  ended : ∀ group span, (group, span) ∈ notes.ended → span.Inside low here

/-- The newest entry of a group is one of the entries. -/
theorem mem_of_newest {α : Type} {entries : List (Nat × α)} {entry : α}
    (h : entries.lookup group = some entry) : (group, entry) ∈ entries := by
  obtain ⟨newer, older, rfl, -⟩ := List.lookup_eq_some_iff.1 h
  simp

namespace Notes.Within

theorem empty : Notes.Within {} low here := ⟨by simp, by simp⟩

theorem mono {there : Nat} (h : notes.Within low here) (hle : here ≤ there) :
    notes.Within low there :=
  ⟨h.begun, fun group span hm => (h.ended group span hm).mono hle⟩

theorem enter (h : notes.Within low here) (hle : low ≤ here) :
    (notes.enter group here).Within low here := by
  refine ⟨fun other start hm => ?_, h.ended⟩
  rcases List.mem_cons.1 hm with heq | hm
  · cases heq
    exact hle
  · exact h.begun other start hm

theorem leave (h : notes.Within low here) : (notes.leave group here).Within low here := by
  unfold Notes.leave
  split
  · rename_i start hbegun
    split
    · rename_i hle
      refine ⟨h.begun, fun other span hm => ?_⟩
      rcases List.mem_cons.1 hm with heq | hm
      · cases heq
        exact ⟨h.begun group start (mem_of_newest hbegun), hle, Nat.le_refl here⟩
      · exact h.ended other span hm
    · exact h
  · exact h

/-- A group that has a span has ended. -/
theorem span {span : Span} (h : notes.Within low here) (hs : notes.span? group = some span) :
    span.Inside low here :=
  h.ended group span (mem_of_newest hs)

end Notes.Within

/-- All these ways have noted positions in between only. -/
def Ranged (low here : Nat) (threads : List Thread) : Prop :=
  ∀ t ∈ threads, t.notes.Within low here

theorem Ranged.cons {t : Thread} (ht : t.notes.Within low here) (h : Ranged low here threads) :
    Ranged low here (t :: threads) :=
  List.forall_mem_cons.2 ⟨ht, h⟩

/-- Ways that are followed on at a position note that position at most. The cases are the nodes. -/
theorem follow_ranged (hle : low ≤ here) : ∀ (fuel : Nat) (threads : List Thread) (f : Front),
    Ranged low here threads → Ranged low here f.threads →
      Ranged low here (follow a p here fuel threads f).threads
  | 0, _, _, _, hf => hf
  | _ + 1, [], _, _, hf => hf
  | fuel + 1, t :: rest, f, hthreads, hf => by
    obtain ⟨ht, hrest⟩ := List.forall_mem_cons.1 hthreads
    have hvisit : Ranged low here (f.visit t.place).threads := hf
    unfold follow
    split
    · exact follow_ranged hle fuel rest f hrest hf
    · dsimp only
      split
      · split
        · exact follow_ranged hle fuel _ _ (.cons ht hrest) hvisit
        · exact follow_ranged hle fuel rest _ hrest hvisit
      · rename_i nexts _
        refine follow_ranged hle fuel _ _ (List.forall_mem_append.2 ⟨?_, hrest⟩) hvisit
        intro t' hm
        obtain ⟨next, -, rfl⟩ := List.mem_map.1 hm
        exact ht
      · exact follow_ranged hle fuel _ _ (.cons (ht.enter hle) hrest) hvisit
      · exact follow_ranged hle fuel _ _ (.cons ht.leave hrest) hvisit
      · exact follow_ranged hle fuel rest _ hrest (.cons ht hvisit)
      · exact follow_ranged hle fuel rest _ hrest (.cons ht hvisit)

/-- Reading a byte leads one position further. -/
theorem advance_ranged (hle : low ≤ here) (b : UInt8) : ∀ (threads : List Thread) (f : Front),
    Ranged low here threads → Ranged low here f.threads →
      Ranged low here (advance a bound b p here threads f).threads
  | [], _, _, hf => hf
  | t :: rest, f, hthreads, hf => by
    obtain ⟨ht, hrest⟩ := List.forall_mem_cons.1 hthreads
    unfold advance
    rw [List.foldl_cons]
    refine advance_ranged hle b rest _ hrest ?_
    split
    · split
      · exact follow_ranged hle bound _ f (.cons ht (by simp [Ranged])) hf
      · exact hf
    · exact hf

/-- Ways are given up, or accepted with what they have noted. -/
theorem survivors_ranged : ∀ threads : List Thread, Ranged low here threads →
    Ranged low here (survivors a threads).1 ∧
      ∀ notes ∈ (survivors a threads).2, notes.Within low here
  | [], _ => by simp [survivors, Ranged]
  | t :: rest, hthreads => by
    obtain ⟨ht, hrest⟩ := List.forall_mem_cons.1 hthreads
    obtain ⟨hkept, haccepted⟩ := survivors_ranged rest hrest
    unfold survivors
    split
    · simp [Ranged, ht]
    · exact ⟨.cons ht hkept, haccepted⟩

/-- What has been found lies between two positions, and its groups lie in it. -/
structure Found.Within (found : Found) (low high : Nat) : Prop where
  low_le : low ≤ found.stop
  le_high : found.stop ≤ high
  notes : found.notes.Within low found.stop

theorem Found.Within.mono {found : Found} {high higher : Nat} (h : found.Within low high)
    (hle : high ≤ higher) : found.Within low higher :=
  ⟨h.low_le, Nat.le_trans h.le_high hle, h.notes⟩

/-- A run finds matches between where the search has started and the end of the input. The induction
is on the bytes to read; the best match so far may have been found anywhere before. -/
theorem run_within : ∀ (after before : Bytes) (here : Nat) (threads : List Thread)
    (marks : Array Nat) (best : Option Found), low ≤ here → Ranged low here threads →
    (∀ found ∈ best, found.Within low here) →
      ∀ found ∈ run a bound before here threads marks best after,
        found.Within low (here + after.length)
  | [], before, here, threads, marks, best, hle, hthreads, hbest => by
    intro found hfound
    unfold run at hfound
    split at hfound
    · rename_i notes haccepted
      cases hfound
      exact ⟨hle, Nat.le_refl here, (survivors_ranged threads hthreads).2 notes haccepted⟩
    · exact hbest found hfound
  | b :: after, before, here, threads, marks, best, hle, hthreads, hbest => by
    obtain ⟨hkept, haccepted⟩ := survivors_ranged (a := a) threads hthreads
    intro found hfound
    unfold run at hfound
    dsimp -zeta only at hfound
    extract_lets now at hfound
    have hnow : ∀ found ∈ now, found.Within low here := by
      intro found hm
      unfold now at hm
      split at hm
      · rename_i notes hnotes
        cases hm
        exact ⟨hle, Nat.le_refl here, haccepted notes hnotes⟩
      · exact hbest found hm
    split at hfound
    · exact (hnow found hfound).mono (Nat.le_add_right here _)
    · have hlater : Ranged low (here + 1) (survivors a threads).1 := fun t hm =>
        (hkept t hm).mono (Nat.le_succ here)
      have hnext : Ranged low (here + 1) (advance a bound b ⟨b :: before, after⟩ (here + 1)
          (survivors a threads).1 ⟨marks, here + 2, []⟩).threads :=
        advance_ranged (Nat.le_succ_of_le hle) b _ _ hlater (by simp [Ranged])
      have hfar : found.Within low (here + 1 + after.length) :=
        run_within after _ (here + 1) _ _ _ (Nat.le_succ_of_le hle)
          (fun t hm => hnext t (List.mem_reverse.1 hm))
          (fun found hm => (hnow found hm).mono (Nat.le_succ here)) found hfound
      refine hfar.mono ?_
      rw [List.length_cons]
      omega

/-- What a search finds lies between the position it starts from and the end of the input. -/
theorem search_within {before after : Bytes} {found : Found}
    (h : a.search before after = some found) :
    found.Within before.length (before.length + after.length) := by
  unfold search at h
  dsimp only at h
  refine run_within after before before.length _ _ none (Nat.le_refl _) ?_ (by simp) found h
  intro t hm
  exact follow_ranged (Nat.le_refl _) _ _ _ (.cons .empty (by simp [Ranged])) (by simp [Ranged]) t
    (List.mem_reverse.1 hm)

end PatternEngine.Automaton
