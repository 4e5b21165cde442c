import PatternEngine.Value.Document
/-!
# What the encoder keeps in mind

Whether a datum has a document or not, the encoder is behind it inside of the same tables as before
it (`keeps_document`). So what it answers can be told table by table (`answer_table`), with the
table added to the context of what stands in it. The recursion never comes to an end for want of
levels (`document_eq`).
-/
namespace PatternEngine

open Heap

variable {α β γ : Type} {heap : Heap α} {c : Context α}

namespace Heap

/-- What is answered in a context. -/
def answer (x : Encoding α β) (c : Context α) : Except Undocumentable β := (x.run c).1

/-- The context is the same behind it, whatever is answered. -/
def Keeps (x : Encoding α β) : Prop := ∀ c, (x.run c).2 = c

theorem Keeps.run_eq {x : Encoding α β} (h : Keeps x) (c : Context α) :
    x.run c = (answer x c, c) := Prod.ext rfl (h c)

theorem keeps_pure (b : β) : Keeps (pure b : Encoding α β) := fun _ => rfl

theorem keeps_throw (reason : Undocumentable) : Keeps (throw reason : Encoding α β) := fun _ => rfl

theorem run_bind (x : Encoding α β) (f : β → Encoding α γ) (c : Context α) :
    (x >>= f).run c =
      match (x.run c).1 with
      | .ok b => (f b).run (x.run c).2
      | .error reason => (.error reason, (x.run c).2) := by
  show (ExceptT.bindCont f (x.run c).1) (x.run c).2 = _
  cases (x.run c).1 <;> rfl

theorem Keeps.bind {x : Encoding α β} {f : β → Encoding α γ} (hx : Keeps x)
    (hf : ∀ b, Keeps (f b)) : Keeps (x >>= f) := by
  intro c
  rw [run_bind, hx]
  cases (x.run c).1 with
  | ok b => exact hf b c
  | error reason => rfl

theorem answer_bind {x : Encoding α β} (hx : Keeps x) (f : β → Encoding α γ) (c : Context α) :
    answer (x >>= f) c = (answer x c).bind fun b => answer (f b) c := by
  unfold answer
  rw [run_bind, hx]
  cases (x.run c).1 <;> rfl

theorem Keeps.foldlM {step : β → γ → Encoding α β} (h : ∀ b x, Keeps (step b x)) (xs : List γ)
    (b : β) : Keeps (xs.foldlM step b) := by
  induction xs generalizing b with
  | nil => exact keeps_pure b
  | cons x xs ih =>
    rw [List.foldlM_cons]
    exact (h b x).bind ih

theorem answer_foldlM {step : β → γ → Encoding α β} (h : ∀ b x, Keeps (step b x)) (xs : List γ)
    (b : β) : answer (xs.foldlM step b) c = xs.foldlM (fun b x => answer (step b x) c) b := by
  induction xs generalizing b with
  | nil => rfl
  | cons x xs ih =>
    rw [List.foldlM_cons, List.foldlM_cons, answer_bind (h b x)]
    exact bind_congr fun b => ih b

/-! ## Tables -/

theorem keeps_ofExcept (e : Except Undocumentable β) :
    Keeps (MonadExcept.ofExcept e : Encoding α β) := by
  cases e <;> exact fun _ => rfl

theorem answer_ofExcept (e : Except Undocumentable β) :
    answer (MonadExcept.ofExcept e : Encoding α β) c = e := by
  cases e <;> rfl

section

variable {inner : Datum α → Encoding α Json} (h : ∀ d, Keeps (inner d)) (table : Table α)

include h

theorem keeps_fillSlot (items : List Json) (entry : Datum α × Datum α) :
    Keeps (table.fillSlot inner items entry) := by
  unfold Table.fillSlot
  cases table.slot? entry.1 with
  | none => exact keeps_pure items
  | some i => exact (h entry.2).bind fun d => keeps_pure _

theorem answer_fillSlot (items : List Json) (entry : Datum α × Datum α) :
    answer (table.fillSlot inner items entry) c =
      table.fillSlot (fun d => answer (inner d) c) items entry := by
  unfold Table.fillSlot
  cases table.slot? entry.1 with
  | none => rfl
  | some i => exact answer_bind (h entry.2) _ c

theorem keeps_fillField (fields : List (Bytes × Json)) (entry : Datum α × Datum α) :
    Keeps (Table.fillField inner fields entry) :=
  (keeps_ofExcept _).bind fun _ => (h entry.2).bind fun _ => keeps_pure _

theorem answer_fillField (fields : List (Bytes × Json)) (entry : Datum α × Datum α) :
    answer (Table.fillField inner fields entry) c =
      Table.fillField (fun d => answer (inner d) c) fields entry := by
  unfold Table.fillField
  rw [answer_bind (keeps_ofExcept _), answer_ofExcept]
  cases entry.1.keyName with
  | error reason => rfl
  | ok name => exact answer_bind (h entry.2) _ c

theorem keeps_table : Keeps (table.document inner) := by
  unfold Table.document
  split
  · exact (Keeps.foldlM (keeps_fillSlot h table) _ _).bind fun _ => keeps_pure _
  · exact (Keeps.foldlM (keeps_fillField h) _ _).bind fun _ => keeps_pure _

/-- The document of a table is put together from what is answered in the same context. -/
theorem answer_table : answer (table.document inner) c =
    table.document fun d => answer (inner d) c := by
  unfold Table.document
  split
  · unfold Table.arrayDocument
    rw [answer_bind (Keeps.foldlM (keeps_fillSlot h table) _ _),
      answer_foldlM (keeps_fillSlot h table)]
    simp only [answer_fillSlot h table]
    rfl
  · unfold Table.objectDocument
    rw [answer_bind (Keeps.foldlM (keeps_fillField h) _ _), answer_foldlM (keeps_fillField h)]
    simp only [answer_fillField h]
    rfl

end

/-! ## Entering and leaving -/

variable [DecidableEq α]

/-- The context inside of one more table. -/
def Context.inside (c : Context α) (address : α) : Context α :=
  { c with visiting := address :: c.visiting, depth := c.depth + 1 }

theorem run_enter (address : α) (c : Context α) : (enter address).run c =
    if maxDepth ≤ c.depth then (.error .tooDeep, c)
    else if address ∈ c.visiting then (.error .circular, c)
    else (.ok (), c.inside address) := by
  show (if maxDepth ≤ c.depth then throw .tooDeep
    else if address ∈ c.visiting then throw .circular else _ : Encoding α Unit).run c = _
  split
  · rfl
  · split <;> rfl

theorem run_finally (body : Encoding α Json) (address : α) (c : Context α) :
    (try body finally leave address : Encoding α Json).run c =
      ((body.run c).1, { (body.run c).2 with
        visiting := (body.run c).2.visiting.erase address
        depth := (body.run c).2.depth - 1 }) := by
  rcases hb : body.run c with ⟨r, c'⟩
  have hbody : body c = (r, c') := hb
  cases r <;>
    · simp only [tryFinally, tryFinally', ExceptT.run, Functor.map, ExceptT.map, ExceptT.mk, bind,
        StateT.bind, hbody, pure]
      rfl

/-- A table that may be entered is left again, whatever is answered. -/
theorem run_within {address : α} {body : Encoding α Json} (h : Keeps body) (c : Context α) :
    (do enter address; try body finally leave address : Encoding α Json).run c =
      (if maxDepth ≤ c.depth then .error .tooDeep
        else if address ∈ c.visiting then .error .circular
        else answer body (c.inside address), c) := by
  rw [run_bind, run_enter]
  by_cases hdepth : maxDepth ≤ c.depth
  · rw [if_pos hdepth, if_pos hdepth]
  · rw [if_neg hdepth, if_neg hdepth]
    by_cases hmem : address ∈ c.visiting
    · rw [if_pos hmem, if_pos hmem]
    · rw [if_neg hmem, if_neg hmem]
      dsimp only
      rw [run_finally, h.run_eq]
      simp [Context.inside]

/-! ## Levels -/

theorem keeps_documentWith {inner : Datum α → Encoding α Json} (h : ∀ d, Keeps (inner d))
    (d : Datum α) : Keeps (heap.documentWith inner d) := by
  cases d with
  | table address => exact fun c => congrArg Prod.snd (run_within (keeps_table h (heap address)) c)
  | float x => exact keeps_ofExcept (floatDocument x)
  | _ => exact fun _ => rfl

theorem answer_documentWith {inner : Datum α → Encoding α Json} (h : ∀ d, Keeps (inner d))
    (address : α) (c : Context α) : answer (heap.documentWith inner (.table address)) c =
      if maxDepth ≤ c.depth then .error .tooDeep
      else if address ∈ c.visiting then .error .circular
      else (heap address).document fun d => answer (inner d) (c.inside address) := by
  rw [← answer_table h]
  exact congrArg Prod.fst (run_within (keeps_table h (heap address)) c)

theorem keeps_documentWithin : ∀ (levels : Nat) (d : Datum α),
    Keeps (heap.documentWithin levels d)
  | 0 => keeps_documentWith fun _ => keeps_throw _
  | levels + 1 => keeps_documentWith (keeps_documentWithin levels)

/-- One more level changes nothing if there is none that could be entered. The induction is on the
levels; each table that is entered takes one of them. -/
theorem documentWithin_succ (levels : Nat) (d : Datum α) (c : Context α)
    (h : maxDepth ≤ c.depth + levels) :
    answer (heap.documentWithin (levels + 1) d) c = answer (heap.documentWithin levels d) c := by
  induction levels generalizing d c with
  | zero =>
    cases d with
    | table address =>
      have hdepth : maxDepth ≤ c.depth := h
      rw [documentWithin, documentWithin, answer_documentWith (keeps_documentWithin 0),
        answer_documentWith fun _ => keeps_throw _, if_pos hdepth, if_pos hdepth]
    | _ => rfl
  | succ levels ih =>
    cases d with
    | table address =>
      show answer (heap.documentWith (heap.documentWithin (levels + 1)) (.table address)) c =
        answer (heap.documentWith (heap.documentWithin levels) (.table address)) c
      rw [answer_documentWith (keeps_documentWithin (levels + 1)),
        answer_documentWith (keeps_documentWithin levels)]
      have hinside : maxDepth ≤ (c.inside address).depth + levels := by
        have hmore : (c.inside address).depth = c.depth + 1 := rfl
        omega
      simp only [ih _ _ hinside]
    | _ => rfl

theorem keeps_document (d : Datum α) : Keeps (heap.document d) := keeps_documentWithin maxDepth d

/-- The document of a datum is that of a datum with the documents of what stands in it. -/
theorem document_eq : heap.document = heap.documentWith heap.document := by
  funext d
  refine funext fun c => ?_
  have hlevels : answer (heap.documentWith heap.document d) c = answer (heap.document d) c :=
    documentWithin_succ maxDepth d c (Nat.le_add_left _ _)
  exact Prod.ext hlevels.symm
    ((keeps_document d c).trans (keeps_documentWith keeps_document d c).symm)

/-- What is answered for a datum inside of the tables of a context. -/
def told (heap : Heap α) (c : Context α) (d : Datum α) : Except Undocumentable Json :=
  answer (heap.document d) c

theorem told_table (address : α) (c : Context α) : heap.told c (.table address) =
    if maxDepth ≤ c.depth then .error .tooDeep
    else if address ∈ c.visiting then .error .circular
    else (heap address).document (heap.told (c.inside address)) := by
  rw [told, congrFun document_eq (.table address), answer_documentWith keeps_document]
  rfl

theorem told_float (x : Decimal.Double) (c : Context α) :
    heap.told c (.float x) = floatDocument x := by
  rw [told, congrFun document_eq (.float x)]
  exact answer_ofExcept (floatDocument x)

theorem encode_eq_told (d : Datum α) :
    heap.encode d = (heap.told ⟨[], 0⟩ d).map Json.render := rfl

end Heap

end PatternEngine
