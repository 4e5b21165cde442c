import PatternEngine.Proofs.Value.Context
import PatternEngine.Proofs.Value.Tables
/-!
# What is encoded

A datum is encoded if and only if nothing is refused that is visited on the way through it
(`documented_iff`), however its tables are shared. The encoder takes a table for one that contains
itself only if the table does (`circular_of_told`): what it has in mind are the tables that it is
inside of, and from these the table can be visited.
-/
namespace PatternEngine.Heap

variable {α : Type} {heap : Heap α} {c : Context α} {d v w : Datum α} {address : α}
  {depth more : Nat}

/-- What the encoder comes to on its way through a datum, with the number of tables around it. -/
inductive Visits (heap : Heap α) (d : Datum α) : Nat → Datum α → Prop
  | here : Visits heap d 0 d
  | entry {depth : Nat} {address : α} {entry : Datum α × Datum α}
      (table : Visits heap d depth (.table address)) (listed : entry ∈ (heap address).entries)
      (seen : (heap address).Sees entry.1) : Visits heap d (depth + 1) entry.2

/-- A datum that is not refused for what it is: a leaf with a document, or a table that is not too
deep and has names for its keys, if it has no sequence part. -/
def Accepted (heap : Heap α) (depth : Nat) : Datum α → Prop
  | .nil | .bool _ | .int _ | .str _ => True
  | .float x => x.isFinite = true
  | .table address => depth < 64 ∧
      ((heap address).length = 0 → ∀ entry ∈ (heap address).entries, entry.1.IsName)
  | .other _ => False

theorem Visits.trans (h : Visits heap d depth v) (h' : Visits heap v more w) :
    Visits heap d (depth + more) w := by
  induction h' with
  | here => exact h
  | entry _ listed seen ih => exact ih.entry listed seen

/-- A table that is visited from itself is visited again and again. -/
theorem Visits.again (h : Visits heap d depth (.table address))
    (hback : Visits heap (.table address) more (.table address)) (n : Nat) :
    Visits heap d (depth + n * more) (.table address) := by
  induction n with
  | zero =>
    rw [Nat.zero_mul]
    exact h
  | succ n ih =>
    rw [Nat.succ_mul, ← Nat.add_assoc]
    exact ih.trans hback

/-- If nothing is refused, no table contains itself. -/
theorem no_return (h : ∀ depth w, Visits heap d depth w → Accepted heap depth w)
    (hv : Visits heap d depth (.table address)) :
    ¬Visits heap (.table address) (more + 1) (.table address) := by
  intro hback
  have hdeep : depth + 64 * (more + 1) < 64 := (h _ _ (hv.again hback 64)).1
  omega

variable [DecidableEq α]

/-- The datum has a document in the context. -/
def Documented (heap : Heap α) (c : Context α) (d : Datum α) : Prop :=
  ∃ document, heap.told c d = .ok document

theorem documented_table : Documented heap c (.table address) ↔
    c.depth < 64 ∧ address ∉ c.visiting ∧
      (∀ entry ∈ (heap address).entries, (heap address).Sees entry.1 →
        Documented heap (c.inside address) entry.2) ∧
      ((heap address).length = 0 → ∀ entry ∈ (heap address).entries, entry.1.IsName) := by
  unfold Documented
  rw [told_table]
  by_cases hdepth : maxDepth ≤ c.depth
  · have hdeep : ¬c.depth < 64 := Nat.not_lt.2 hdepth
    rw [if_pos hdepth]
    simp [hdeep]
  · have hless : c.depth < 64 := Nat.not_le.1 hdepth
    rw [if_neg hdepth]
    by_cases hmem : address ∈ c.visiting
    · rw [if_pos hmem]
      simp [hmem]
    · rw [if_neg hmem, Table.document_ok_iff]
      simp [hless, hmem]

theorem floatDocument_iff {x : Decimal.Double} :
    (∃ document, floatDocument x = .ok document) ↔ x.isFinite = true := by
  unfold floatDocument
  cases hx : x.toInt? with
  | none =>
    dsimp only
    split <;> rename_i hfinite <;> simp [hfinite]
  | some n =>
    have hfinite : x.isFinite = true := by
      unfold Decimal.Double.toInt? at hx
      split at hx
      · cases hx
      · rename_i hfinite
        simpa using hfinite
    simp [hfinite]

theorem Documented.accepted (h : Documented heap c w) : Accepted heap c.depth w := by
  cases w with
  | nil | bool | int | str => exact trivial
  | float x =>
    obtain ⟨document, hd⟩ := h
    rw [told_float] at hd
    exact floatDocument_iff.1 ⟨document, hd⟩
  | table address =>
    obtain ⟨hdepth, -, -, hnames⟩ := documented_table.1 h
    exact ⟨hdepth, hnames⟩
  | other name =>
    obtain ⟨document, hd⟩ := h
    cases hd

theorem documented_leaf (h : Accepted heap c.depth w) (hw : ∀ address, w ≠ .table address) :
    Documented heap c w := by
  cases w with
  | nil | bool | int | str => exact ⟨_, rfl⟩
  | float x =>
    unfold Documented
    rw [told_float]
    exact floatDocument_iff.2 h
  | table address => exact absurd rfl (hw address)
  | other name => exact h.elim

theorem Documented.visits (h : Documented heap ⟨[], 0⟩ d) (hw : Visits heap d depth w) :
    ∃ c : Context α, c.depth = depth ∧ Documented heap c w := by
  induction hw with
  | here => exact ⟨_, rfl, h⟩
  | @entry _ address _ _ listed seen ih =>
    obtain ⟨c, hc, htable⟩ := ih
    obtain ⟨-, -, hentries, -⟩ := documented_table.1 htable
    exact ⟨c.inside address, congrArg Nat.succ hc, hentries _ listed seen⟩

/-- The datum can be visited from all the tables that the encoder is inside of. -/
def Within (heap : Heap α) (c : Context α) (w : Datum α) : Prop :=
  ∀ address ∈ c.visiting, ∃ more, Visits heap (.table address) (more + 1) w

omit [DecidableEq α] in
theorem Within.entry (h : Within heap c (.table address)) {entry : Datum α × Datum α}
    (listed : entry ∈ (heap address).entries) (seen : (heap address).Sees entry.1) :
    Within heap (c.inside address) entry.2 := by
  intro outer houter
  rcases List.mem_cons.1 houter with rfl | hmem
  · exact ⟨0, .entry .here listed seen⟩
  · obtain ⟨more, hmore⟩ := h outer hmem
    exact ⟨more + 1, hmore.entry listed seen⟩

/-- If nothing is refused, then everything that is visited has a document. The induction is on the
levels that are left. -/
theorem documented_of_accepted (h : ∀ depth w, Visits heap d depth w → Accepted heap depth w)
    (levels : Nat) (hlevels : 64 ≤ c.depth + levels) (hw : Visits heap d c.depth w)
    (hwithin : Within heap c w) : Documented heap c w := by
  induction levels generalizing c w with
  | zero =>
    refine documented_leaf (h _ _ hw) ?_
    rintro address rfl
    have hdepth : c.depth < 64 := (h _ _ hw).1
    omega
  | succ levels ih =>
    by_cases htable : ∃ address, w = .table address
    · obtain ⟨address, rfl⟩ := htable
      obtain ⟨hdepth, hnames⟩ := h _ _ hw
      refine documented_table.2 ⟨hdepth, ?_, ?_, hnames⟩
      · intro hmem
        obtain ⟨more, hback⟩ := hwithin address hmem
        exact no_return h hw hback
      · intro entry listed seen
        have hinside : 64 ≤ (c.inside address).depth + levels := by
          have hmore : (c.inside address).depth = c.depth + 1 := rfl
          omega
        exact ih hinside (hw.entry listed seen) (hwithin.entry listed seen)
    · exact documented_leaf (h _ _ hw) fun address he => htable ⟨address, he⟩

theorem documented_iff :
    Documented heap ⟨[], 0⟩ d ↔ ∀ depth w, Visits heap d depth w → Accepted heap depth w := by
  constructor
  · intro h depth w hw
    obtain ⟨c, rfl, hc⟩ := h.visits hw
    exact hc.accepted
  · intro h
    exact documented_of_accepted h 64 (Nat.le_refl _) .here fun _ hm => absurd hm List.not_mem_nil

/-- How it comes to a table being taken for one that contains itself. -/
theorem told_circular (h : heap.told c w = .error .circular) :
    ∃ address, w = .table address ∧ c.depth < 64 ∧
      (address ∈ c.visiting ∨ ∃ entry ∈ (heap address).entries, (heap address).Sees entry.1 ∧
        heap.told (c.inside address) entry.2 = .error .circular) := by
  cases w with
  | table address =>
    rw [told_table] at h
    by_cases hdepth : maxDepth ≤ c.depth
    · rw [if_pos hdepth] at h
      cases h
    · refine ⟨address, rfl, Nat.not_le.1 hdepth, ?_⟩
      rw [if_neg hdepth] at h
      by_cases hmem : address ∈ c.visiting
      · exact .inl hmem
      · rw [if_neg hmem] at h
        rcases Table.document_error h with hentry | ⟨name, hname⟩
        · exact .inr hentry
        · cases hname
  | float x =>
    rw [told_float, floatDocument] at h
    split at h
    · cases h
    · split at h <;> cases h
  | _ => cases h

/-- Only a table that contains itself is taken for one. -/
theorem circular_of_told (levels : Nat) (hlevels : 64 ≤ c.depth + levels)
    (hw : Visits heap d c.depth w) (hwithin : Within heap c w)
    (htold : heap.told c w = .error .circular) :
    ∃ depth address more, Visits heap d depth (.table address) ∧
      Visits heap (.table address) (more + 1) (.table address) := by
  obtain ⟨address, rfl, hdepth, hcause⟩ := told_circular htold
  induction levels generalizing c address with
  | zero => omega
  | succ levels ih =>
    rcases hcause with hmem | ⟨entry, listed, seen, hentry⟩
    · obtain ⟨more, hback⟩ := hwithin address hmem
      exact ⟨c.depth, address, more, hw, hback⟩
    · obtain ⟨address', he, hdepth', hcause'⟩ := told_circular hentry
      have hinside : 64 ≤ (c.inside address).depth + levels := by
        have hmore : (c.inside address).depth = c.depth + 1 := rfl
        omega
      have hnext := hw.entry listed seen
      have hnext' := hwithin.entry listed seen
      rw [he] at hnext hnext' hentry
      exact ih hinside address' hnext hnext' hentry hdepth' hcause'

theorem encode_ok_iff {d : Datum α} :
    (∃ t, heap.encode d = .ok t) ↔ Documented heap ⟨[], 0⟩ d := by
  unfold Documented
  rw [encode_eq_told]
  cases heap.told ⟨[], 0⟩ d <;> simp [Except.map]

end PatternEngine.Heap
