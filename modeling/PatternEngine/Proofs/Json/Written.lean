import PatternEngine.Proofs.Json.Documents
/-!
# What is written

A plain document is put together from brackets, numbers, words and quoted strings, so what holds of
these and is kept when texts are put together holds of its text (`Writes.render`). The text is
valid (`isValid_render`), and it stands on one line: there is no byte below the blank in it
(`printable_render`).
-/
namespace PatternEngine

namespace Text.Utf8

variable {bytes xs ys : Bytes}

theorem ofChars_append (cs ds : List Char) : ofChars (cs ++ ds) = ofChars cs ++ ofChars ds :=
  List.flatMap_append

/-- Valid text is the text of some characters. -/
theorem isValid_iff : isValid bytes = true ↔ ∃ cs, ofChars cs = bytes := by
  have hcollect : ∀ pieces : List Piece, pieces.all Option.isSome = true →
      ∃ cs, pieces.mapM id = some cs := by
    intro pieces
    induction pieces with
    | nil => exact fun _ => ⟨[], rfl⟩
    | cons piece pieces ih =>
      intro h
      rw [List.all_cons, Bool.and_eq_true] at h
      obtain ⟨c, rfl⟩ := Option.isSome_iff_exists.1 h.1
      obtain ⟨cs, hcs⟩ := ih h.2
      exact ⟨c :: cs, by simp [hcs]⟩
  constructor
  · intro h
    obtain ⟨cs, hcs⟩ := hcollect _ h
    exact ⟨cs, ofChars_chars hcs⟩
  · rintro ⟨cs, rfl⟩
    exact isValid_ofChars cs

theorem isValid_append (hx : isValid xs = true) (hy : isValid ys = true) :
    isValid (xs ++ ys) = true := by
  obtain ⟨cs, rfl⟩ := isValid_iff.1 hx
  obtain ⟨ds, rfl⟩ := isValid_iff.1 hy
  rw [← ofChars_append]
  exact isValid_ofChars _

/-- A character beyond ASCII has no byte of ASCII. -/
theorem encode_high {c : Char} (h : 127 < c.toNat) : ∀ b ∈ encode c, 128 ≤ b.toNat := by
  have hencode := encode_ofNat (v := c.toNat) c.valid
  have hbyte : ∀ n, 128 ≤ n → n < 256 → 128 ≤ (UInt8.ofNat n).toNat := by
    intro n hl hu
    rw [toNat_ofNat_lt hu]
    exact hl
  have hrange : c.toNat < 0xD800 ∨ 0xDFFF < c.toNat ∧ c.toNat < 0x110000 := c.valid
  rw [Char.ofNat_toNat, if_neg (by omega)] at hencode
  rw [hencode]
  intro b hb
  split at hb
  · simp only [List.mem_cons, List.not_mem_nil, or_false] at hb
    rcases hb with rfl | rfl <;> apply hbyte <;> omega
  · split at hb
    · simp only [List.mem_cons, List.not_mem_nil, or_false] at hb
      rcases hb with rfl | rfl | rfl <;> apply hbyte <;> omega
    · simp only [List.mem_cons, List.not_mem_nil, or_false] at hb
      rcases hb with rfl | rfl | rfl | rfl <;> apply hbyte <;> omega

end Text.Utf8

namespace Json

open Text.Utf8 Reader

variable {P : Bytes → Prop} {d : Json}

/-- What holds of all that documents are put together from. -/
structure Writes (P : Bytes → Prop) : Prop where
  append : ∀ {xs ys}, P xs → P ys → P (xs ++ ys)
  fixed : ∀ xs ∈ [text "null", text "true", text "false", [0x2C], [0x3A], [0x5B], [0x5D], [0x7B],
    [0x7D]], P xs
  number : ∀ n, P (Bytes.ofInt n)
  string : ∀ {s}, isValid s = true → P (quote s)

theorem Writes.items (h : Writes P) {items : List Json} (hitems : ∀ item ∈ items, P item.render) :
    P (renderItems items) := by
  induction items with
  | nil => exact h.fixed [0x5D] (by decide)
  | cons item items ih =>
    have hitem := hitems item List.mem_cons_self
    have hrest := ih fun other hm => hitems other (List.mem_cons_of_mem _ hm)
    rw [renderItems_cons]
    refine h.append hitem ?_
    cases items with
    | nil => exact hrest
    | cons next items => exact h.append (h.fixed [0x2C] (by decide)) hrest

theorem Writes.fields (h : Writes P) {fields : List (Bytes × Json)}
    (hnames : ∀ field ∈ fields, isValid field.1 = true)
    (hvalues : ∀ field ∈ fields, P field.2.render) : P (renderFields fields) := by
  induction fields with
  | nil => exact h.fixed [0x7D] (by decide)
  | cons field fields ih =>
    have hname := h.string (hnames field List.mem_cons_self)
    have hvalue := hvalues field List.mem_cons_self
    have hrest := ih (fun other hm => hnames other (List.mem_cons_of_mem _ hm))
      fun other hm => hvalues other (List.mem_cons_of_mem _ hm)
    rw [renderFields_cons]
    refine h.append hname (h.append (h.fixed [0x3A] (by decide)) (h.append hvalue ?_))
    cases fields with
    | nil => exact hrest
    | cons next fields => exact h.append (h.fixed [0x2C] (by decide)) hrest

/-- What holds of the parts holds of the text of a plain document. -/
theorem Writes.render (h : Writes P) (hd : Plain d) : P d.render := by
  induction hd with
  | null => exact h.fixed _ (by decide)
  | bool value => cases value <;> exact h.fixed _ (by decide)
  | int n =>
    rw [Json.render]
    exact h.number n
  | str valid =>
    rw [Json.render]
    exact h.string valid
  | array _ ih =>
    rw [Json.render]
    exact h.append (h.fixed [0x5B] (by decide)) (h.items ih)
  | object names_valid _ _ ih =>
    rw [Json.render]
    exact h.append (h.fixed [0x7B] (by decide)) (h.fields names_valid ih)

/-! ## Valid text -/

theorem escape_ascii : ∀ n < 128, isValid (escape (UInt8.ofNat n)) = true := by decide +kernel

theorem escape_high : ∀ n < 256, 128 ≤ n → escape (UInt8.ofNat n) = [UInt8.ofNat n] := by
  decide +kernel

/-- A character is written with escapes in ASCII, or as it is. -/
theorem isValid_escape (c : Char) : isValid ((encode c).flatMap escape) = true := by
  by_cases hc : c.toNat ≤ 127
  · have hencode := encode_ofNat (v := c.toNat) c.valid
    rw [Char.ofNat_toNat, if_pos hc] at hencode
    rw [hencode, List.flatMap_singleton]
    exact escape_ascii c.toNat (by omega)
  · have hsame : (encode c).flatMap escape = encode c := by
      have hbytes : ∀ b ∈ encode c, escape b = [b] := by
        intro b hb
        have hhigh := encode_high (by omega) b hb
        have hescape := escape_high b.toNat b.toNat_lt hhigh
        rwa [UInt8.ofNat_toNat] at hescape
      rw [List.flatMap_congr hbytes, List.flatMap_singleton']
    rw [hsame, ← List.flatMap_singleton encode c]
    exact isValid_ofChars [c]

theorem isValid_quote {s : Bytes} (h : isValid s = true) : isValid (quote s) = true := by
  obtain ⟨cs, rfl⟩ := isValid_iff.1 h
  have hinside : isValid ((ofChars cs).flatMap escape) = true := by
    unfold ofChars
    rw [List.flatMap_assoc]
    induction cs with
    | nil => rfl
    | cons c cs ih =>
      rw [List.flatMap_cons]
      exact isValid_append (isValid_escape c) (ih (isValid_ofChars cs))
  have hquote : isValid [0x22] = true := by decide
  exact isValid_append (isValid_append hquote hinside) hquote

theorem isValid_ofInt (n : Int) : isValid (Bytes.ofInt n) = true := by
  have hnatural : ∀ n, isValid (Bytes.ofNat n) = true := by
    intro n
    rw [Bytes.ofNat_eq_ofChars]
    exact isValid_ofChars _
  cases n with
  | ofNat n => exact hnatural n
  | negSucc n =>
    have hsign : isValid [45] = true := by decide
    exact isValid_append hsign (hnatural (n + 1))

theorem writes_valid : Writes fun xs => isValid xs = true where
  append := isValid_append
  fixed := by decide
  number := isValid_ofInt
  string := isValid_quote

/-- The text of a plain document is valid. -/
theorem isValid_render (h : Plain d) : isValid d.render = true := writes_valid.render h

/-! ## One line -/

/-- There is no byte below the blank. -/
def Printable (bytes : Bytes) : Prop := ∀ b ∈ bytes, 0x20 ≤ b

instance (bytes : Bytes) : Decidable (Printable bytes) :=
  decidable_of_iff (bytes.all (0x20 ≤ ·) = true) (by simp [Printable])

theorem printable_append {xs ys : Bytes} (hx : Printable xs) (hy : Printable ys) :
    Printable (xs ++ ys) := by
  intro b hb
  rcases List.mem_append.1 hb with hb | hb
  · exact hx b hb
  · exact hy b hb

theorem escape_printable : ∀ n < 256, ∀ b ∈ escape (UInt8.ofNat n), 0x20 ≤ b := by decide +kernel

theorem printable_quote (s : Bytes) : Printable (quote s) := by
  have hinside : Printable (s.flatMap escape) := by
    intro b hb
    obtain ⟨c, -, hc⟩ := List.mem_flatMap.1 hb
    rw [← UInt8.ofNat_toNat (x := c)] at hc
    exact escape_printable c.toNat c.toNat_lt b hc
  have hquote : Printable [0x22] := by decide
  exact printable_append (printable_append hquote hinside) hquote

theorem printable_ofInt (n : Int) : Printable (Bytes.ofInt n) := by
  have hdigit : ∀ b, isDigit b = true → 0x20 ≤ b := by
    intro b hb
    simp only [isDigit, Bool.and_eq_true, decide_eq_true_eq, UInt8.le_iff_toNat_le] at hb ⊢
    exact Nat.le_trans (by decide) hb.1
  cases n with
  | ofNat n => exact fun b hb => hdigit b (isDigit_ofNat b hb)
  | negSucc n =>
    have hsign : Printable [45] := by decide
    exact printable_append hsign fun b hb => hdigit b (isDigit_ofNat b hb)

theorem writes_printable : Writes Printable where
  append := printable_append
  fixed := by decide
  number := printable_ofInt
  string := fun _ => printable_quote _

theorem printable_render (h : Plain d) : Printable d.render := writes_printable.render h

/-- So it stands on one line. -/
theorem newline_not_mem_render (h : Plain d) : Bytes.newline ∉ d.render :=
  fun hm => absurd (printable_render h _ hm) (by decide)

end Json

end PatternEngine
