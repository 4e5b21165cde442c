import PatternEngine.Diagnostic.Document
import PatternEngine.Proofs.Json.Records
import PatternEngine.Proofs.Value.Layout
/-!
# Diagnostics that are handed out and read back

A list of diagnostics always has a document, which holds one object for each of them
(`encode_toValues`). Reading the document gives the diagnostics again, with replaced what is not
text, and without the contexts they were found in (`parse_documents`).
-/
namespace PatternEngine

open PatternEngine.Text.Utf8

namespace Json

mutual

/-- The names of all fields in a document. -/
def keys : Json → List Bytes
  | .array items => itemKeys items
  | .object fields => fieldKeys fields
  | _ => []

/-- The names of all fields in the items of an array. -/
def itemKeys : List Json → List Bytes
  | [] => []
  | item :: items => keys item ++ itemKeys items

/-- The names of these fields, and of all fields in their values. -/
def fieldKeys : List (Bytes × Json) → List Bytes
  | [] => []
  | (name, value) :: fields => name :: (keys value ++ fieldKeys fields)

end

theorem itemKeys_eq (items : List Json) : itemKeys items = items.flatMap keys := by
  induction items with
  | nil => rfl
  | cons item items ih => rw [itemKeys, ih, List.flatMap_cons]

end Json

namespace Diagnostic

/-! ## The document of a diagnostic -/

/-- The fields that are handed out, in the order of their names. -/
def handedFields (d : Diagnostic) : List (Bytes × Json) :=
  (d.context.toList.map fun c => (text "_context", Json.str (lossy c))) ++
  ((d.expression.toList.map fun e => (text "expression", Json.str (lossy e))) ++
  ((d.filename.toList.map fun f => (text "filename", Json.str (lossy f))) ++
  ((d.line.toList.map fun n => (text "line", Json.int (n : Nat))) ++
  [(text "message", .str (lossy d.message)), (text "severity", .str d.severity.name),
    (text "who", .str (lossy d.who))])))

/-- The object that is handed out. -/
def handed (d : Diagnostic) : Json := .object d.handedFields

theorem isValid_name (severity : Severity) : isValid severity.name = true := by
  cases severity <;> rfl

theorem lossy_name (severity : Severity) : lossy severity.name = severity.name := by
  cases severity <;> rfl

theorem document_toValue (d : Diagnostic) : d.toValue.document 1 = .ok d.handed := by
  have hdepth : ¬maxDepth ≤ 1 := by decide
  have hseverity : Json.str d.severity.name = .str (lossy d.severity.name) := by
    rw [lossy_name]
  unfold toValue Value.record handed handedFields
  rw [hseverity]
  obtain ⟨who, severity, message, line, filename, expression, context⟩ := d
  cases line <;> cases filename <;> cases expression <;> cases context <;>
    rw [Value.document, if_neg hdepth] <;> rfl

/-- A list of diagnostics is handed out as an array of their objects. -/
theorem encode_toValues (ds : List Diagnostic) :
    (toValues ds).encode = .ok (Json.array (ds.map handed)).render := by
  have hdepth : ¬maxDepth ≤ 0 := by decide
  have hitems : ∀ ds : List Diagnostic,
      Value.itemDocuments 1 (ds.map toValue) = .ok (ds.map handed) := by
    intro ds
    induction ds with
    | nil => rfl
    | cons d ds ih =>
      simp only [List.map_cons, Value.itemDocuments, document_toValue, ih]
      rfl
  have hdocument : (toValues ds).document 0 = .ok (.array (ds.map handed)) := by
    unfold toValues
    rw [Value.document.eq_def]
    simp only [hdepth, if_false]
    cases ds with
    | nil => rfl
    | cons d ds =>
      have h := hitems (d :: ds)
      simp only [List.map_cons] at h ⊢
      rw [h]
      rfl
  rw [Value.encode_eq, hdocument]
  rfl

/-- Without its context a diagnostic is handed out without any name that starts with an
underscore. -/
theorem head_keys {d : Diagnostic} (h : d.context = none) :
    ∀ key ∈ d.handed.keys, key.head? ≠ some 0x5F := by
  obtain ⟨who, severity, message, line, filename, expression, context⟩ := d
  cases h
  cases line <;> cases filename <;> cases expression <;>
    simp [handed, handedFields, Json.keys, Json.fieldKeys] <;> decide

/-! ## Reading back -/

/-- What is read of a diagnostic that was handed out. -/
def readBack (d : Diagnostic) : Diagnostic where
  who := lossy d.who
  severity := d.severity
  message := lossy d.message
  line := d.line
  filename := d.filename.map lossy
  expression := d.expression.map lossy

open Json.Reader

/-- What the fields that are handed out are read as. -/
def marks (d : Diagnostic) : List (Option (Bytes × FieldValue)) :=
  (d.context.toList.map fun _ => none) ++
  ((d.expression.toList.map fun e => some (text "expression", .text (lossy e))) ++
  ((d.filename.toList.map fun f => some (text "filename", .text (lossy f))) ++
  ((d.line.toList.map fun n => some (text "line", .number n)) ++
  [some (text "message", .text (lossy d.message)), some (text "severity", .severity d.severity),
    some (text "who", .text (lossy d.who))])))

theorem forall₂_optional {α β γ : Type} {R : β → γ → Prop} {f : α → β} {g : α → γ}
    {o : Option α} (h : ∀ a, o = some a → R (f a) (g a)) :
    List.Forall₂ R (o.toList.map f) (o.toList.map g) := by
  cases o with
  | none => exact .nil
  | some a => exact .cons (h a rfl) .nil

theorem readsBack_textField (name : String) (s : Bytes) :
    ReadsBack (textField name).value (.str (lossy s)) (.text (lossy s)) :=
  (readsBack_text (isValid_lossy s)).map _

theorem readsBack_optionalText (name : String) (s : Bytes) :
    ReadsBack (optionalField name (.text <$> textValue)).value (.str (lossy s))
      (.text (lossy s)) := by
  have htext : ReadsBack (FieldValue.text <$> textValue) (.str (lossy s)) (.text (lossy s)) :=
    (readsBack_text (isValid_lossy s)).map _
  have hquote : (Json.str (lossy s)).render =
      0x22 :: ((lossy s).flatMap Json.escape ++ [0x22]) := by
    rw [Json.render, Json.quote, List.cons_append]
  exact (htext.optional hquote rfl (by decide)).map _

theorem readsBack_line {n : Nat} (h : n ≤ maxNatural) :
    ReadsBack (optionalField "line" (.number <$> naturalValue)).value (.int n) (.number n) := by
  obtain ⟨b, ds, hds, hdigit⟩ := ofNat_cons n
  have hnumber : ReadsBack (FieldValue.number <$> naturalValue) (.int n) (.number n) :=
    (readsBack_natural h).map _
  have hrender : (Json.int n).render = b :: ds := by
    rw [Json.render]
    exact hds
  have hb : b ≠ 0x6E := by
    rintro rfl
    exact absurd hdigit (by decide)
  exact (hnumber.optional hrender (isBlank_digit hdigit) hb).map _

/-- Each field that is handed out is read, but for the context. -/
theorem handedFields_reads {d : Diagnostic} (h : ∀ n, d.line = some n → n ≤ maxNatural) :
    List.Forall₂ (Reads fields) d.handedFields d.marks := by
  refine List.rel_append (forall₂_optional fun c _ => .unknown rfl rfl) ?_
  refine List.rel_append (forall₂_optional fun e _ =>
    .known rfl rfl (readsBack_optionalText "expression" e)) ?_
  refine List.rel_append (forall₂_optional fun f _ =>
    .known rfl rfl (readsBack_optionalText "filename" f)) ?_
  refine List.rel_append (forall₂_optional fun n hn =>
    .known rfl rfl (readsBack_line (h n hn))) ?_
  refine .cons (.known rfl rfl (readsBack_textField "message" d.message)) ?_
  refine .cons (.known rfl rfl ?_) ?_
  · have hname : Severity.ofName? d.severity.name = some d.severity := by
      cases d.severity <;> rfl
    exact (readsBack_choice (isValid_name _) hname).map _
  · exact .cons (.known rfl rfl (readsBack_textField "who" d.who)) .nil

theorem handedFields_nodup (d : Diagnostic) : (d.handedFields.map Prod.fst).Nodup := by
  obtain ⟨who, severity, message, line, filename, expression, context⟩ := d
  cases line <;> cases filename <;> cases expression <;> cases context <;>
    simp only [handedFields, Option.toList, List.map_cons, List.map_nil, List.nil_append,
      List.cons_append] <;> decide

/-- What is found under the name of each field. -/
theorem lookup_marks (d : Diagnostic) :
    (fields.map fun field => (d.marks.filterMap id).reverse.lookup field.name) =
      [some (.text (lossy d.who)), some (.severity d.severity), some (.text (lossy d.message)),
        d.line.map .number, (d.filename.map lossy).map .text,
        (d.expression.map lossy).map .text] := by
  obtain ⟨who, severity, message, line, filename, expression, context⟩ := d
  cases line <;> cases filename <;> cases expression <;> cases context <;> rfl

/-- The fields that must be there are there. -/
theorem lookup_required (d : Diagnostic) : ∀ field ∈ fields, field.required = true →
    ((d.marks.filterMap id).reverse.lookup field.name).isSome = true := by
  have hfound := lookup_marks d
  simp only [fields, List.map_cons, List.map_nil, List.cons.injEq] at hfound
  obtain ⟨hwho, hseverity, hmessage, -⟩ := hfound
  intro field hfield hrequired
  simp only [fields, List.mem_cons, List.not_mem_nil, or_false] at hfield
  rcases hfield with rfl | rfl | rfl | rfl | rfl | rfl
  · rw [hwho]; rfl
  · rw [hseverity]; rfl
  · rw [hmessage]; rfl
  all_goals cases hrequired

/-- A diagnostic that was handed out is read back. -/
theorem reader_run {d : Diagnostic} (h : ∀ n, d.line = some n → n ≤ maxNatural)
    (rest : Bytes) : reader.run (d.handed.render ++ rest) = .ok (d.readBack, rest) := by
  have hrecord := record_run rest (handedFields_reads h) (handedFields_nodup d)
    (lookup_required d)
  unfold reader handed
  rw [run_bind_ok hrecord, lookup_marks]
  unfold readBack
  cases d.line <;> cases d.filename <;> cases d.expression <;> rfl

/-- Diagnostics that were handed out are read back, in order. -/
theorem parse_documents {ds : List Diagnostic}
    (h : ∀ d ∈ ds, ∀ n, d.line = some n → n ≤ maxNatural) :
    parse (Json.array (ds.map handed)).render = .ok (ds.map readBack) := by
  have hitems : List.Forall₂ (ReadsItem reader) (ds.map handed) (ds.map readBack) := by
    rw [List.forall₂_map_left_iff, List.forall₂_map_right_iff, List.forall₂_same]
    exact fun d hd => ⟨opens_object _, fun rest _ => reader_run (h d hd) rest⟩
  have harray := array_run [] hitems
  rw [List.append_nil] at harray
  exact readAll_run harray

/-! ## What an engine hands out -/

/-- What is handed out about diagnostics: nothing if there are none. -/
def handOut (ds : List Diagnostic) : Option Bytes :=
  if ds.isEmpty then none else some (Json.array (ds.map handed)).render

theorem handOut_eq_none {ds : List Diagnostic} : handOut ds = none ↔ ds = [] := by
  cases ds <;> simp [handOut]

theorem render_of_handOut {ds : List Diagnostic} {buffer : Bytes} (h : handOut ds = some buffer) :
    buffer = (Json.array (ds.map handed)).render := by
  unfold handOut at h
  split at h
  · cases h
  · exact (Option.some.inj h).symm

theorem parse_handOut {ds : List Diagnostic} {buffer : Bytes} (h : handOut ds = some buffer)
    (hline : ∀ d ∈ ds, ∀ n, d.line = some n → n ≤ maxNatural) :
    parse buffer = .ok (ds.map readBack) := by
  rw [render_of_handOut h]
  exact parse_documents hline

/-- Without contexts no name that is handed out starts with an underscore. -/
theorem keys_of_handOut {ds : List Diagnostic} {buffer : Bytes} (h : handOut ds = some buffer)
    (hcontext : ∀ d ∈ ds, d.context = none) :
    ∃ document : Json, buffer = document.render ∧
      ∀ key ∈ document.keys, key.head? ≠ some 0x5F := by
  refine ⟨_, render_of_handOut h, ?_⟩
  intro key hkey
  rw [Json.keys, Json.itemKeys_eq] at hkey
  obtain ⟨object, hobject, hkey⟩ := List.mem_flatMap.1 hkey
  obtain ⟨d, hd, rfl⟩ := List.mem_map.1 hobject
  exact head_keys (hcontext d hd) key hkey

end Diagnostic

end PatternEngine
