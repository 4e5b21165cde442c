import PatternEngine.Proofs.Engine.Boundary
import PatternEngine.Proofs.Foreign.Invocations
/-!
# All cells or none

What is in the cells of a foreign call beforehand does not decide what is done and what is written
(`blank`). So a foreign call either fails and writes to no cell, or it succeeds and writes to all of
them (`writes_all_or_none`).
-/
namespace PatternEngine.ForeignCall.Invocation

variable {σ : Type} {i : Invocation} {call : Call}

/-- The cells of loading or importing, without what happens to be in them. -/
def blankLoad (cells : LoadCells) : LoadCells :=
  ⟨cells.ok.put 0, cells.package.put .nothing, cells.errors.put .nothing⟩

/-- An invocation without what happens to be in its cells. A limit or a search path that is asked
for stays, since it is read. -/
def blank : Invocation → Invocation
  | .memoryLimit cells => .memoryLimit ⟨cells.newLimit, cells.usage.put 0⟩
  | .config cell => .config (cell.put .nothing)
  | .searchPath (some (.null _)) => .searchPath (some .nothing)
  | .searchPath cell => .searchPath cell
  | .compile expression cells =>
    .compile expression ⟨cells.pattern.put 0, cells.errors.put .nothing⟩
  | .free pattern => .free pattern
  | .matchInput pattern start encoder input cell =>
    .matchInput pattern start encoder input (cell.put ⟨.nothing, 0, 0, 0, 0⟩)
  | .trace pattern start style input cells =>
    .trace pattern start style input ⟨cells.matched.put 0, cells.trace.put .nothing⟩
  | .load source cells => .load source (blankLoad cells)
  | .loadFile path cells => .loadFile path (blankLoad cells)
  | .importPackage package under cells => .importPackage package under (blankLoad cells)
  | .matchFile pattern wholeFile names cells => .matchFile pattern wholeFile names
    ⟨cells.records.put 0, cells.results.put 0, cells.misses.put 0, cells.message.put .nothing⟩

theorem put_put {α : Type} (cell : Cell α) (x y : α) : (cell.put x).put y = cell.put y := by
  cases cell <;> rfl

theorem bind_put {α β : Type} (cell : Cell α) (x : α) (y : Option β) :
    ((cell.put x).bind fun _ => y) = cell.bind fun _ => y := by
  cases cell <;> rfl

/-- The contents of cells do not decide which call is made. -/
theorem call?_blank (i : Invocation) : i.blank.call? = i.call? := by
  cases i with
  | memoryLimit cells => rfl
  | config cell => cases cell <;> rfl
  | searchPath cell =>
    cases cell with
    | none => rfl
    | some old => cases old <;> rfl
  | compile expression cells => simp only [blank, call?, bind, bind_put]
  | free pattern => rfl
  | matchInput pattern start encoder input cell => simp only [blank, call?, bind, bind_put]
  | trace pattern start style input cells => simp only [blank, call?, bind, bind_put]
  | load source cells => rfl
  | loadFile path cells => rfl
  | importPackage package under cells => rfl
  | matchFile pattern wholeFile names cells => rfl

/-- What is filled in does not depend on what was there. -/
theorem fill_blank {o : Call.Outcome} (h : i.Fits o) : i.blank.fill o = i.fill o := by
  cases h with
  | searchPath code path => rfl
  | searchPathSet bytes => rfl
  | _ => simp only [blank, blankLoad, fill, loaded, put_put]

/-- What was in the cells at first makes no difference to what is filled in. -/
theorem fill_of_blank {j : Invocation} {world : World} {e : Engine σ} {o : Call.Outcome}
    (hj : j.blank = i.blank) (h : i.call? = some call) (ho : (call.make world e).result = .ok o) :
    j.call? = some call ∧ j.fill o = i.fill o := by
  have hcall : j.call? = some call := by
    rw [← call?_blank, hj, call?_blank, h]
  refine ⟨hcall, ?_⟩
  rw [← fill_blank (fits_of_make hcall ho), hj, fill_blank (fits_of_make h ho)]

/-- A cell with a search path that is to be set is only read. -/
theorem run_searchPathSet (bytes : Bytes) (world : World) (e : Option (Engine σ)) :
    ((searchPath (some (.bytes bytes))).run world e).cells = .searchPath (some (.bytes bytes)) := by
  cases e with
  | none => rfl
  | some e =>
    have hcall : (searchPath (some (.bytes bytes))).call? =
        some (.setSearchPath (Text.Utf8.lossy bytes)) := rfl
    rw [run_eq hcall]
    by_cases hstatus : (conclude (.searchPath (some (.bytes bytes)))
        ((Call.setSearchPath (Text.Utf8.lossy bytes)).make world e)).status = success
    · obtain ⟨outcome, i', hresult, hfill, hleft⟩ := conclude_success hstatus
      rw [hleft]
      cases fits_of_make hcall hresult
      cases hfill
      rfl
    · exact (conclude_failure hstatus).2

/-- A foreign call writes to all its cells or to none. Either it fails, and every cell is left as it
was. Or it succeeds: it had an engine and arguments in good form, it has made the one call of the
engine that it stands for, and what that call returned is in every cell that is there, whatever was
there before. It does succeed when the call of the engine returns and no string is too long. A
search path that is set is not written. Without an engine, and with arguments that are missing or in
bad form, the call fails and leaves the engine and the world as they were. -/
theorem writes_all_or_none (i : Invocation) (world : World) (e : Option (Engine σ)) :
    let left := i.run world e
    (left.status < 0 ∧ left.cells = i ∨
      left.status = success ∧ ∃ engine call outcome, e = some engine ∧ i.call? = some call ∧
        (call.make world engine).result = .ok outcome ∧ i.Fits outcome ∧
        i.fill outcome = .ok left.cells ∧
        ∀ j : Invocation, j.blank = i.blank → j.run world e = left) ∧
    (∀ engine call outcome i', e = some engine → i.call? = some call →
      (call.make world engine).result = .ok outcome → i.fill outcome = .ok i' →
      left.status = success) ∧
    (∀ bytes, i = .searchPath (some (.bytes bytes)) → left.cells = i) ∧
    (e = none ∨ i.call? = none → left.status < 0 ∧ left = ⟨left.status, i, world, e⟩) := by
  refine ⟨?_, ?_, ?_, run_refused⟩
  · by_cases hrefused : e = none ∨ i.call? = none
    · obtain ⟨hneg, hleft⟩ : (i.run world e).status < 0 ∧
          i.run world e = ⟨(i.run world e).status, i, world, e⟩ := run_refused hrefused
      exact .inl ⟨hneg, congrArg Answer.cells hleft⟩
    · obtain ⟨engine, rfl⟩ := Option.ne_none_iff_exists'.1 fun h => hrefused (.inl h)
      obtain ⟨call, hcall⟩ := Option.ne_none_iff_exists'.1 fun h => hrefused (.inr h)
      rw [run_eq hcall]
      by_cases hstatus : (i.conclude (call.make world engine)).status = success
      · obtain ⟨outcome, i', hresult, hfill, hleft⟩ := conclude_success hstatus
        rw [hleft]
        refine .inr ⟨rfl, engine, call, outcome, rfl, hcall, hresult, fits_of_make hcall hresult,
          hfill, fun j hj => ?_⟩
        obtain ⟨hcall', hfill'⟩ := fill_of_blank hj hcall hresult
        rw [run_eq hcall', conclude, hresult]
        simp only [Except.bind, hfill', hfill]
      · exact .inl (conclude_failure hstatus)
  · rintro engine call outcome i' rfl hcall hresult hfill
    rw [run_eq hcall, conclude, hresult]
    simp only [Except.bind, hfill]
  · rintro bytes rfl
    exact run_searchPathSet bytes world e

/-- A match with its cell there writes all of it. A call that compiles without a cell for the
pattern writes nothing and leaves the engine alone, though there is a cell for the errors. -/
theorem writes_all_or_none_sample :
    let world : World := { files := {} }
    let e := Engine.answering [.str (text "a"), .int 0, .bool false, .int 2, .int 0]
    let matching (cell : MatchCell) : Invocation :=
      .matchInput 1 1 (some (text "subs")) (.bytes (text "ab")) (some cell)
    let compiling : Invocation := .compile (.bytes (text "x")) ⟨none, some (.null 9)⟩
    let left := (matching ⟨.null 9, 9, 9, 9, 9⟩).run world (some e)
    left.status = success ∧ left.cells = matching ⟨.bytes (text "a"), 0, 0, 2, 0⟩ ∧
    (∃ call outcome, (matching ⟨.null 9, 9, 9, 9, 9⟩).call? = some call ∧
      (call.make world e).result = .ok outcome ∧
      (matching ⟨.null 9, 9, 9, 9, 9⟩).fill outcome = .ok left.cells) ∧
    (compiling.run world (some e)).status < 0 ∧
    compiling.run world (some e) =
      ⟨(compiling.run world (some e)).status, compiling, world, some e⟩ := by
  intro world e matching compiling left
  have hstatus : left.status = success := rfl
  refine ⟨hstatus, rfl, ?_, (writes_all_or_none compiling world (some e)).2.2.2 (.inr rfl)⟩
  obtain ⟨hneg, -⟩ | ⟨-, engine, call, outcome, hengine, hcall, hresult, -, hfill, -⟩ :=
    (writes_all_or_none (matching ⟨.null 9, 9, 9, 9, 9⟩) world (some e)).1
  · have hneg : success < 0 := hneg
    cases hneg
  · cases hengine
    exact ⟨call, outcome, hcall, hresult, hfill⟩

end PatternEngine.ForeignCall.Invocation
