import Mathlib.Data.List.Perm.Basic
import PatternEngine.Proofs.Json.Documents
import PatternEngine.Proofs.Json.Ordered
import PatternEngine.Proofs.Value.Encoding
/-!
# Documents read back

A table is clean if it is a proper sequence or has texts for its keys (`IsSequence`, `IsRecord`).
The document of a clean datum stands for it (`Stands`): the array of a sequence, the object of a
record, entry by entry. So the datum is read back from its text, which does not depend on the order
in which the tables tell their entries (`encode_faithful`).
-/
namespace PatternEngine

open PatternEngine.Text.Utf8

variable {α : Type}

/-- The keys 1, 2, … up to `n`. -/
def Datum.sequenceKeys (n : Nat) : List (Datum α) :=
  (List.range n).map fun i : Nat => .int (i + 1)

namespace Table

/-- The keys are 1, 2, … up to the length, each once. -/
def IsSequence (table : Table α) : Prop :=
  (table.entries.map Prod.fst).Perm (Datum.sequenceKeys table.length)

/-- There is no sequence part, and the keys are texts, each once. -/
def IsRecord (table : Table α) : Prop :=
  table.length = 0 ∧ (table.entries.map Prod.fst).Nodup ∧
    ∀ entry ∈ table.entries, ∃ name, entry.1 = .str name ∧ isValid name = true

variable {inner : Datum α → Except Undocumentable Json} {table : Table α} {documents : List Json}
  {entries listed : List (Datum α × Datum α)}

/-! ## Lists -/

/-- What holds of all pairs holds of all that stand on the left. -/
theorem forall₂_left {β γ : Type} {R : β → γ → Prop} {p : β → Prop} (hR : ∀ x y, R x y → p x)
    {xs : List β} {ys : List γ} (h : List.Forall₂ R xs ys) : ∀ x ∈ xs, p x :=
  ((List.forall₂_and_left _ _).1 (h.imp fun x y hxy => ⟨hR x y hxy, hxy⟩)).1

theorem exists_forall₂ {β γ : Type} {R : γ → β → Prop} {xs : List β} (h : ∀ x ∈ xs, ∃ y, R y x) :
    ∃ ys, List.Forall₂ R ys xs := by
  induction xs with
  | nil => exact ⟨[], .nil⟩
  | cons x xs ih =>
    obtain ⟨y, hy⟩ := h x List.mem_cons_self
    obtain ⟨ys, hys⟩ := ih fun x hx => h x (List.mem_cons_of_mem _ hx)
    exact ⟨y :: ys, .cons hy hys⟩

theorem map_eq_of_forall₂ {β γ δ : Type} {f : β → δ} {g : γ → δ} {xs : List β} {ys : List γ}
    (h : List.Forall₂ (fun x y => g y = f x) xs ys) : ys.map g = xs.map f := by
  rw [← List.forall₂_eq_eq_eq, List.forall₂_map_left_iff, List.forall₂_map_right_iff]
  exact h.flip

theorem exists_listed {β γ : Type} {f : β → γ} {xs : List β} {ys : List γ}
    (h : (xs.map f).Perm ys) : ∃ listed, xs.Perm listed ∧ listed.map f = ys := by
  have hcomp : Relation.Comp (fun ys xs => ys = xs.map f) List.Perm ys xs := by
    rw [List.eq_map_comp_perm]
    exact h.symm
  obtain ⟨listed, hys, hperm⟩ := hcomp
  exact ⟨listed, hperm.symm, hys.symm⟩

/-! ## Sequences -/

/-- The slots end up with the documents that they are to be filled with, in whatever order the
entries come. -/
theorem foldlM_slots (entries : List (Datum α × Datum α)) (items : List Json)
    (hlength : items.length = documents.length)
    (h : ∀ entry ∈ entries, ∃ i d, table.slot? entry.1 = some i ∧ documents[i]? = some d ∧
      inner entry.2 = .ok d) :
    ∃ filled, entries.foldlM (table.fillSlot inner) items = .ok filled ∧
      ∀ j : Nat, filled[j]? = documents[j]? ∨
        filled[j]? = items[j]? ∧ ∀ entry ∈ entries, table.slot? entry.1 ≠ some j := by
  induction entries generalizing items with
  | nil => exact ⟨items, rfl, fun j => .inr ⟨rfl, fun _ hm => absurd hm List.not_mem_nil⟩⟩
  | cons entry entries ih =>
    obtain ⟨i, d, hslot, hd, hinner⟩ := h entry List.mem_cons_self
    have hi : i < items.length := hlength ▸ (List.getElem?_eq_some_iff.1 hd).1
    obtain ⟨filled, hfold, hfilled⟩ := ih (items.set i d) (by rw [List.length_set, hlength])
      fun e he => h e (List.mem_cons_of_mem _ he)
    refine ⟨filled, ?_, fun j => ?_⟩
    · rw [List.foldlM_cons, fillSlot_some hslot, hinner]
      exact hfold
    · rcases hfilled j with hj | ⟨hj, hother⟩
      · exact .inl hj
      · by_cases hij : i = j
        · subst hij
          rw [hj, List.getElem?_set_self hi, hd]
          exact .inl rfl
        · refine .inr ⟨by rw [hj, List.getElem?_set_ne hij], fun e he => ?_⟩
          rcases List.mem_cons.1 he with rfl | he
          · rw [hslot]
            exact fun hsame => hij (Option.some.inj hsame)
          · exact hother e he

/-- A sequence becomes the array of its documents in the order of the keys. -/
theorem arrayDocument_sequence (hlength : table.length = documents.length)
    (hperm : table.entries.Perm listed)
    (hkeys : listed.map Prod.fst = Datum.sequenceKeys documents.length)
    (each : List.Forall₂ (fun d entry => inner entry.2 = .ok d) documents listed) :
    table.arrayDocument inner = .ok (.array documents) := by
  have hslot (i : Nat) (entry : Datum α × Datum α) (hi : listed[i]? = some entry) :
      ∃ d, table.slot? entry.1 = some i ∧ documents[i]? = some d ∧ inner entry.2 = .ok d := by
    obtain ⟨hless, hentry⟩ := List.getElem?_eq_some_iff.1 hi
    have hdocument : i < documents.length := each.length_eq ▸ hless
    have hkey : (listed.map Prod.fst)[i]? = some (.int (i + 1)) := by
      rw [hkeys]
      simp [Datum.sequenceKeys, hdocument]
    rw [List.getElem?_map, hi] at hkey
    have hinner := each.get hdocument hless
    refine ⟨documents[i], ?_, List.getElem?_eq_getElem hdocument, ?_⟩
    · rw [show entry.1 = .int (i + 1) from Option.some.inj hkey]
      exact slot?_int (hlength ▸ hdocument)
    · rw [← hentry]
      exact hinner
  have hnulls : (List.replicate table.length Json.null).length = documents.length := by
    rw [List.length_replicate, hlength]
  obtain ⟨filled, hfold, hfilled⟩ := foldlM_slots table.entries _ hnulls fun entry hm => by
    obtain ⟨i, hi⟩ := List.mem_iff_getElem?.1 (hperm.mem_iff.1 hm)
    obtain ⟨d, hd⟩ := hslot i entry hi
    exact ⟨i, d, hd⟩
  have hsame : filled = documents := by
    refine List.ext_getElem? fun j => ?_
    rcases hfilled j with hj | ⟨hj, hnone⟩
    · exact hj
    · cases hl : listed[j]? with
      | some entry =>
        obtain ⟨d, hsome, -⟩ := hslot j entry hl
        exact absurd hsome (hnone entry (hperm.mem_iff.2 (List.mem_of_getElem? hl)))
      | none =>
        have hpast : documents.length ≤ j := each.length_eq ▸ List.getElem?_eq_none_iff.1 hl
        rw [hj, List.getElem?_eq_none hpast, List.getElem?_eq_none]
        rw [List.length_replicate, hlength]
        exact hpast
  unfold arrayDocument
  dsimp only
  rw [hfold, hsame]
  rfl

/-! ## Records -/

/-- A record becomes the object of its fields, which does not depend on their order. -/
theorem objectDocument_record {fields : List (Bytes × Json)} (hperm : table.entries.Perm listed)
    (hnodup : (fields.map Prod.fst).Nodup)
    (each : List.Forall₂ (fun field entry => entry.1 = .str field.1 ∧ isValid field.1 = true ∧
      inner entry.2 = .ok field.2) fields listed) :
    table.objectDocument inner = .ok (if fields.isEmpty then .array [] else .ofFields fields) := by
  have hlisted : List.Forall₂ (fun entry field => fieldDocument inner entry = .ok field)
      listed fields := by
    refine each.flip.imp fun entry field ⟨hkey, hvalid, hinner⟩ => ?_
    rw [fieldDocument_eq_ok, hkey]
    exact ⟨if_pos hvalid, hinner⟩
  obtain ⟨fields', hentries, hfields⟩ := List.perm_comp_forall₂ hperm hlisted
  have hempty : fields'.isEmpty = fields.isEmpty := by
    rw [Bool.eq_iff_iff, List.isEmpty_iff_length_eq_zero, List.isEmpty_iff_length_eq_zero,
      hfields.length_eq]
  rw [objectDocument_eq, mapM_eq_ok.2 hentries]
  simp only [Except.map, hempty, Json.ofFields_eq, Json.sortFields_perm hnodup hfields.symm]

theorem IsSequence.isRecord (h : table.IsSequence) (hlength : table.length = 0) :
    table.IsRecord := by
  have hnone : table.entries = [] := by
    unfold IsSequence at h
    rw [hlength] at h
    exact List.map_eq_nil_iff.1 (List.perm_nil.1 h)
  refine ⟨hlength, ?_, ?_⟩
  · rw [hnone]
    exact List.nodup_nil
  · rw [hnone]
    exact fun entry hm => absurd hm List.not_mem_nil

theorem IsSequence.sees (h : table.IsSequence) {entry : Datum α × Datum α}
    (hm : entry ∈ table.entries) : table.Sees entry.1 := by
  have hkey := h.mem_iff.1 (List.mem_map_of_mem hm)
  obtain ⟨i, hi, hkey⟩ := List.mem_map.1 hkey
  rw [List.mem_range] at hi
  rw [← hkey]
  exact .inr ⟨i + 1, rfl, by omega, by omega⟩

end Table

namespace Heap

/-- A sequence, a record, or a leaf that is a boolean, an integer or a text. -/
def IsClean (heap : Heap α) : Datum α → Prop
  | .bool _ | .int _ => True
  | .str bytes => isValid bytes = true
  | .table address => (heap address).IsSequence ∨ (heap address).IsRecord
  | _ => False

/-- Everything that is visited is clean. Nothing of a clean table is passed over. -/
def Clean (heap : Heap α) (d : Datum α) : Prop :=
  ∀ depth w, Visits heap d depth w → IsClean heap w

/-- The document says of the datum all there is to say: the same leaf, the items of a sequence in
the order of its keys, the fields of a record. -/
inductive Stands (heap : Heap α) : Json → Datum α → Prop
  | bool (b : Bool) : Stands heap (.bool b) (.bool b)
  | int (n : Int) : Stands heap (.int n) (.int n)
  | str (bytes : Bytes) : Stands heap (.str bytes) (.str bytes)
  | sequence {items : List Json} {address : α} {listed : List (Datum α × Datum α)}
      (length : (heap address).length = items.length)
      (entries : (heap address).entries.Perm listed)
      (keys : listed.map Prod.fst = Datum.sequenceKeys items.length)
      (each : List.Forall₂ (fun item entry => Stands heap item entry.2) items listed) :
      Stands heap (.array items) (.table address)
  | record {fields : List (Bytes × Json)} {address : α} {listed : List (Datum α × Datum α)}
      (length : (heap address).length = 0) (ne_nil : fields ≠ [])
      (entries : (heap address).entries.Perm listed)
      (keys : listed.map Prod.fst = fields.map fun field => .str field.1)
      (each : List.Forall₂ (fun field entry => Stands heap field.2 entry.2) fields listed) :
      Stands heap (.object fields) (.table address)

/-- The same tables, with their entries in another order. -/
def Reordered (heap heap' : Heap α) : Prop :=
  ∀ address, (heap' address).length = (heap address).length ∧
    (heap' address).entries.Perm (heap address).entries

/-! ## Clean data -/

variable {heap heap' : Heap α} {c : Context α} {d w : Datum α} {document : Json} {address : α}

theorem Clean.table (h : Clean heap (.table address)) :
    (heap address).IsSequence ∨ (heap address).IsRecord := h 0 _ .here

/-- Nothing of a clean table is passed over. -/
theorem Clean.sees (h : Clean heap (.table address)) {entry : Datum α × Datum α}
    (listed : entry ∈ (heap address).entries) : (heap address).Sees entry.1 := by
  rcases h.table with hsequence | hrecord
  · exact hsequence.sees listed
  · exact .inl hrecord.1

theorem Clean.entry (h : Clean heap (.table address)) {entry : Datum α × Datum α}
    (listed : entry ∈ (heap address).entries) : Clean heap entry.2 := by
  intro depth w hw
  have hfirst : Visits heap (.table address) 1 entry.2 := .entry .here listed (h.sees listed)
  exact h _ _ (hfirst.trans hw)

/-- Nothing in a clean datum is refused, unless a table is too deep. -/
theorem Clean.accepted (h : Clean heap d)
    (hdepth : ∀ depth address, Visits heap d depth (.table address) → depth < 64) :
    ∀ depth w, Visits heap d depth w → Accepted heap depth w := by
  intro depth w hw
  have hclean := h depth w hw
  cases w with
  | bool | int | str => exact trivial
  | table address =>
    refine ⟨hdepth _ _ hw, fun hlength entry hm => ?_⟩
    have hrecord : (heap address).IsRecord := hclean.elim (·.isRecord hlength) id
    obtain ⟨name, hname, hvalid⟩ := hrecord.2.2 entry hm
    rw [hname]
    exact hvalid
  | _ => exact hclean.elim

variable [DecidableEq α]

/-- What is said of a datum and its document. -/
structure Encodes (heap heap' : Heap α) (c : Context α) (document : Json) (d : Datum α) : Prop where
  told : heap.told c d = .ok document
  plain : Json.Plain document
  stands : Stands heap document d
  same : heap'.told c d = .ok document

theorem Encodes.leaf (htold : heap.told c d = .ok document) (hclean : IsClean heap d)
    (hleaf : ∀ address, d ≠ .table address) : Encodes heap heap' c document d := by
  cases d with
  | bool b =>
    cases htold
    exact ⟨rfl, .bool b, .bool b, rfl⟩
  | int n =>
    cases htold
    exact ⟨rfl, .int n, .int n, rfl⟩
  | str bytes =>
    cases htold
    obtain ⟨cs, hcs⟩ := chars_of_isValid hclean
    rw [lossy_chars hcs]
    exact ⟨congrArg (Except.ok <| Json.str ·) (lossy_chars hcs), .str hclean, .str bytes,
      congrArg (Except.ok <| Json.str ·) (lossy_chars hcs)⟩
  | table address => exact absurd rfl (hleaf address)
  | _ => exact hclean.elim

theorem told_entered (hdepth : c.depth < 64) (hmem : address ∉ c.visiting) :
    heap.told c (.table address) = (heap address).document (heap.told (c.inside address)) := by
  have hless : ¬maxDepth ≤ c.depth := Nat.not_le.2 hdepth
  rw [told_table, if_neg hless, if_neg hmem]

theorem Encodes.sequence (hsame : Reordered heap heap') (hdepth : c.depth < 64)
    (hmem : address ∉ c.visiting) (hlength : 0 < (heap address).length)
    (hsequence : (heap address).IsSequence)
    (h : ∀ entry ∈ (heap address).entries,
      ∃ d, Encodes heap heap' (c.inside address) d entry.2) :
    ∃ document, Encodes heap heap' c document (.table address) := by
  obtain ⟨hlength', hperm'⟩ := hsame address
  obtain ⟨listed, hperm, hkeys⟩ := Table.exists_listed hsequence
  obtain ⟨documents, heach⟩ := Table.exists_forall₂ fun entry hm => h entry (hperm.mem_iff.2 hm)
  have hcount : (heap address).length = documents.length := by
    have hkeys' := congrArg List.length hkeys
    rw [List.length_map, Datum.sequenceKeys, List.length_map, List.length_range] at hkeys'
    rw [heach.length_eq, hkeys']
  rw [hcount] at hkeys
  have htold : (heap address).document (heap.told (c.inside address)) = .ok (.array documents) := by
    rw [Table.document, if_pos hlength]
    exact Table.arrayDocument_sequence hcount hperm hkeys (heach.imp fun _ _ he => he.told)
  have htold' : (heap' address).document (heap'.told (c.inside address)) =
      .ok (.array documents) := by
    rw [Table.document, if_pos (hlength' ▸ hlength)]
    exact Table.arrayDocument_sequence (hlength'.trans hcount) (hperm'.trans hperm) hkeys
      (heach.imp fun _ _ he => he.same)
  exact ⟨.array documents, (told_entered hdepth hmem).trans htold,
    .array (Table.forall₂_left (fun _ _ he => he.plain) heach),
    .sequence hcount hperm hkeys (heach.imp fun _ _ he => he.stands),
    (told_entered hdepth hmem).trans htold'⟩

theorem Encodes.record (hsame : Reordered heap heap') (hdepth : c.depth < 64)
    (hmem : address ∉ c.visiting) (hrecord : (heap address).IsRecord)
    (h : ∀ entry ∈ (heap address).entries,
      ∃ d, Encodes heap heap' (c.inside address) d entry.2) :
    ∃ document, Encodes heap heap' c document (.table address) := by
  obtain ⟨hlength', hperm'⟩ := hsame address
  obtain ⟨hlength, hdistinct, hnamed⟩ := hrecord
  obtain ⟨fields, hfields⟩ : ∃ fields : List (Bytes × Json), List.Forall₂ (fun field entry =>
      entry.1 = .str field.1 ∧ isValid field.1 = true ∧
        Encodes heap heap' (c.inside address) field.2 entry.2) fields (heap address).entries :=
    Table.exists_forall₂ fun entry hm => by
      obtain ⟨name, hname, hvalid⟩ := hnamed entry hm
      obtain ⟨d, hd⟩ := h entry hm
      exact ⟨(name, d), hname, hvalid, hd⟩
  have hnodup : (fields.map Prod.fst).Nodup := by
    have hkeys : (heap address).entries.map Prod.fst = fields.map fun field => .str field.1 :=
      Table.map_eq_of_forall₂ (hfields.imp fun _ _ he => he.1)
    have hnames : fields.map (fun field => (.str field.1 : Datum α)) =
        (fields.map Prod.fst).map .str := by
      rw [List.map_map]
      rfl
    rw [hkeys, hnames] at hdistinct
    exact hdistinct.of_map _
  -- the fields of the document are in the order of their names
  obtain ⟨hsort, hordered⟩ := Json.sortFields_spec hnodup
  have hsorted : ((Json.sortFields fields).map Prod.fst).Nodup := hordered.nodup
  obtain ⟨listed, heach, hperm⟩ := List.perm_comp_forall₂ hsort hfields
  have hvalid : ∀ field ∈ Json.sortFields fields, isValid field.1 = true :=
    Table.forall₂_left (fun _ _ he => he.2.1) heach
  have hplain : ∀ field ∈ Json.sortFields fields, Json.Plain field.2 :=
    Table.forall₂_left (fun _ _ he => he.2.2.plain) heach
  have hobject : Json.ofFields (Json.sortFields fields) = .object (Json.sortFields fields) := by
    rw [Json.ofFields_eq, hordered.sortFields_eq]
  generalize Json.sortFields fields = sorted at heach hsorted hvalid hplain hobject
  have htold : (heap address).document (heap.told (c.inside address)) =
      .ok (if sorted.isEmpty then .array [] else .object sorted) := by
    rw [Table.document, hlength, if_neg (Nat.lt_irrefl 0), ← hobject]
    exact Table.objectDocument_record hperm.symm hsorted
      (heach.imp fun _ _ he => ⟨he.1, he.2.1, he.2.2.told⟩)
  have htold' : (heap' address).document (heap'.told (c.inside address)) =
      .ok (if sorted.isEmpty then .array [] else .object sorted) := by
    rw [Table.document, hlength', hlength, if_neg (Nat.lt_irrefl 0), ← hobject]
    exact Table.objectDocument_record (hperm'.trans hperm.symm) hsorted
      (heach.imp fun _ _ he => ⟨he.1, he.2.1, he.2.2.same⟩)
  refine ⟨_, (told_entered hdepth hmem).trans htold, ?_, ?_,
    (told_entered hdepth hmem).trans htold'⟩
  · split
    · exact .array fun d hd => absurd hd List.not_mem_nil
    · exact .object hvalid hplain hobject
  · cases sorted with
    | nil =>
      cases heach
      exact .sequence hlength hperm.symm rfl .nil
    | cons field sorted =>
      exact .record hlength (List.cons_ne_nil _ _) hperm.symm
        (Table.map_eq_of_forall₂ (heach.imp fun _ _ he => he.1))
        (heach.imp fun _ _ he => he.2.2.stands)

/-- The document of a clean datum is plain, stands for the datum, and is the same for every order
of the entries. The induction is on the levels that are left. -/
theorem Clean.encodes (h : Clean heap d) (hsame : Reordered heap heap') (levels : Nat)
    (hlevels : 64 ≤ c.depth + levels) (hd : Documented heap c d) :
    ∃ document, Encodes heap heap' c document d := by
  induction levels generalizing c d with
  | zero =>
    obtain ⟨document, hdocument⟩ := hd
    refine ⟨document, .leaf hdocument (h 0 d .here) ?_⟩
    rintro address rfl
    have hdepth := (documented_table.1 ⟨document, hdocument⟩).1
    omega
  | succ levels ih =>
    by_cases htable : ∃ address, d = .table address
    · obtain ⟨address, rfl⟩ := htable
      obtain ⟨hdepth, hmem, hentries, -⟩ := documented_table.1 hd
      have hinside : 64 ≤ (c.inside address).depth + levels := by
        have hmore : (c.inside address).depth = c.depth + 1 := rfl
        omega
      have heach : ∀ entry ∈ (heap address).entries,
          ∃ d, Encodes heap heap' (c.inside address) d entry.2 := fun entry hm =>
        ih (h.entry hm) hinside (hentries entry hm (h.sees hm))
      by_cases hlength : (heap address).length = 0
      · have hrecord := h.table.elim (·.isRecord hlength) id
        exact Encodes.record hsame hdepth hmem hrecord heach
      · have hsequence := h.table.resolve_right fun hrecord => hlength hrecord.1
        exact Encodes.sequence hsame hdepth hmem (Nat.pos_of_ne_zero hlength) hsequence heach
    · obtain ⟨document, hdocument⟩ := hd
      exact ⟨document, .leaf hdocument (h 0 d .here) fun address he => htable ⟨address, he⟩⟩

/-! ## Encoding -/

/-- A datum is encoded if and only if nothing that is visited in it is refused, however its tables
are shared. The encoder is behind a datum inside of the same tables as before it, whether it has a
document or not, and it takes only a table that contains itself for one. The text of a clean datum
is read back as a document that stands for the datum, and it does not depend on the order in which
tables tell their entries. A table with nothing in it is an array. -/
theorem encode_faithful (heap : Heap α) (d : Datum α) :
    ((∃ t, heap.encode d = .ok t) ↔ ∀ depth w, Visits heap d depth w → Accepted heap depth w) ∧
    (∀ c : Context α, ((heap.document d).run c).2 = c) ∧
    (heap.encode d = .error .circular → ∃ depth address more,
      Visits heap d depth (.table address) ∧
      Visits heap (.table address) (more + 1) (.table address)) ∧
    (Clean heap d → (∀ depth address, Visits heap d depth (.table address) → depth < 64) →
      ∃ t document, heap.encode d = .ok t ∧ Json.parse t = .ok document ∧
        Stands heap document d ∧
        ∀ heap', Reordered heap heap' → heap'.encode d = .ok t) ∧
    ∀ address, (heap address).length = 0 → (heap address).entries = [] →
      heap.encode (.table address) = .ok (text "[]") := by
  refine ⟨encode_ok_iff.trans documented_iff, keeps_document d, ?_, ?_, ?_⟩
  · intro h
    rw [encode_eq_told] at h
    cases htold : heap.told ⟨[], 0⟩ d with
    | ok document =>
      rw [htold] at h
      cases h
    | error reason =>
      rw [htold] at h
      cases h
      exact circular_of_told 64 (Nat.le_refl _) .here (fun _ hm => absurd hm List.not_mem_nil) htold
  · intro hclean hdepth
    have hd : Documented heap ⟨[], 0⟩ d := documented_iff.2 (hclean.accepted hdepth)
    obtain ⟨document, hdocument⟩ := hclean.encodes (fun _ => ⟨rfl, .refl _⟩) 64 (Nat.le_refl _) hd
    refine ⟨document.render, document, ?_, Json.parse_render hdocument.plain, hdocument.stands, ?_⟩
    · rw [encode_eq_told, hdocument.told]
      rfl
    · intro heap' hsame
      obtain ⟨other, hother⟩ := hclean.encodes hsame 64 (Nat.le_refl _) hd
      have heq : other = document := Except.ok.inj (hother.told.symm.trans hdocument.told)
      rw [encode_eq_told, hother.same, heq]
      rfl
  · intro address hlength hnone
    have htold : heap.told ⟨[], 0⟩ (.table address) =
        (heap address).document (heap.told (Context.inside ⟨[], 0⟩ address)) :=
      told_entered (Nat.zero_lt_succ _) List.not_mem_nil
    rw [encode_eq_told, htold, Table.document, hlength, if_neg (Nat.lt_irrefl 0),
      Table.objectDocument, hnone]
    rfl

/-- One list in two fields of a record is no cycle, and is read back in both. -/
theorem encode_faithful_sample :
    let shared : Heap Bool := fun address =>
      if address then ⟨2, [(.int 2, .bool true), (.int 1, .int 7)]⟩
      else ⟨0, [(.str (text "b"), .table true), (.str (text "a"), .table true)]⟩
    Clean shared (.table false) ∧
      (∀ depth address, Visits shared (.table false) depth (.table address) → depth < 64) ∧
      ∃ t document, shared.encode (.table false) = .ok t ∧ Json.parse t = .ok document ∧
        Stands shared document (.table false) ∧
        t = text "\x7b\"a\":[7,true],\"b\":[7,true]\x7d" := by
  intro shared
  have hvisits : ∀ depth w, Visits shared (.table false) depth w →
      depth = 0 ∧ w = .table false ∨ depth = 1 ∧ w = .table true ∨
        depth = 2 ∧ (w = .bool true ∨ w = .int 7) := by
    intro depth w hw
    induction hw with
    | here => exact .inl ⟨rfl, rfl⟩
    | @entry depth address entry _ listed _ ih =>
      rcases ih with ⟨rfl, htable⟩ | ⟨rfl, htable⟩ | ⟨-, htable | htable⟩ <;> cases htable
      · simp only [shared, Bool.false_eq_true, if_false, List.mem_cons, List.not_mem_nil,
          or_false] at listed
        rcases listed with rfl | rfl <;> exact .inr (.inl ⟨rfl, rfl⟩)
      · simp only [shared, if_true, List.mem_cons, List.not_mem_nil, or_false] at listed
        rcases listed with rfl | rfl
        · exact .inr (.inr ⟨rfl, .inl rfl⟩)
        · exact .inr (.inr ⟨rfl, .inr rfl⟩)
  have hrecord : (shared false).IsRecord := by
    have hdifferent : text "b" ≠ text "a" := by decide
    refine ⟨rfl, by simpa [shared] using hdifferent, ?_⟩
    intro entry hm
    simp only [shared, Bool.false_eq_true, if_false, List.mem_cons, List.not_mem_nil,
      or_false] at hm
    rcases hm with rfl | rfl <;> exact ⟨_, rfl, by decide⟩
  have hsequence : (shared true).IsSequence := List.Perm.swap _ _ _
  have hclean : Clean shared (.table false) := by
    intro depth w hw
    rcases hvisits depth w hw with ⟨-, rfl⟩ | ⟨-, rfl⟩ | ⟨-, rfl | rfl⟩
    · exact .inr hrecord
    · exact .inl hsequence
    · exact trivial
    · exact trivial
  have hdepth : ∀ depth address, Visits shared (.table false) depth (.table address) →
      depth < 64 := by
    intro depth address hw
    rcases hvisits _ _ hw with ⟨rfl, -⟩ | ⟨rfl, -⟩ | ⟨rfl, -⟩ <;> decide
  have htext : shared.encode (.table false) =
      .ok (text "\x7b\"a\":[7,true],\"b\":[7,true]\x7d") := by decide
  obtain ⟨-, -, -, hback, -⟩ := encode_faithful shared (.table false)
  obtain ⟨t, document, ht, hparse, hstands, -⟩ := hback hclean hdepth
  exact ⟨hclean, hdepth, t, document, ht, hparse, hstands, Except.ok.inj (ht.symm.trans htext)⟩

end Heap

end PatternEngine
