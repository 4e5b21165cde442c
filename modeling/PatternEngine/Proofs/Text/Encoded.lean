import PatternEngine.Proofs.Text.Utf8
/-!
# What is encoded is valid text

A decoder reads the bytes of a character as this character (`decode_encode`), so the bytes of
characters are valid text. Text with its invalid sequences replaced is therefore valid
(`isValid_lossy`), and so are the digits of a number (`lossy_ofNat`).
-/
namespace PatternEngine

namespace Text.Utf8

/-! ## Decoding what was encoded -/

variable {b lower upper : UInt8} {more value : Nat} {rest : Bytes}

theorem decode_one (h : b.toNat < 0x80) :
    decode .start (b :: rest) = some (Char.ofNat b.toNat) :: decode .start rest := by
  simp [decode, step, first, h]

/-- A byte that starts a character of two bytes. -/
theorem decode_first_two (hl : 0xC2 ≤ b.toNat) (hu : b.toNat < 0xE0) :
    decode .start (b :: rest) = decode (.continuation 0x80 0xBF 0 (b.toNat - 0xC0)) rest := by
  have h₁ : ¬b.toNat < 0x80 := by omega
  have h₂ : ¬b.toNat < 0xC2 := by omega
  simp [decode, step, first, h₁, h₂, hu]

/-- A byte that starts a character of three bytes, with what the next byte may be. -/
theorem decode_first_three (hl : 0xE0 ≤ b.toNat) (hu : b.toNat < 0xF0) :
    ∃ lower upper : UInt8, lower.toNat = (if b.toNat = 0xE0 then 0xA0 else 0x80) ∧
      upper.toNat = (if b.toNat = 0xED then 0x9F else 0xBF) ∧
      ∀ rest, decode .start (b :: rest) =
        decode (.continuation lower upper 1 (b.toNat - 0xE0)) rest := by
  have h₁ : ¬b.toNat < 0x80 := by omega
  have h₂ : ¬b.toNat < 0xC2 := by omega
  have h₃ : ¬b.toNat < 0xE0 := by omega
  by_cases hE0 : b.toNat = 0xE0
  · exact ⟨0xA0, 0xBF, by simp [hE0], by simp [hE0], fun rest => by
      simp [decode, step, first, hE0]⟩
  · by_cases hED : b.toNat = 0xED
    · exact ⟨0x80, 0x9F, by simp [hED], by simp [hED], fun rest => by
        simp [decode, step, first, hED]⟩
    · exact ⟨0x80, 0xBF, by simp [hE0], by simp [hED], fun rest => by
        simp [decode, step, first, h₁, h₂, h₃, hE0, hED, hu]⟩

/-- A byte that starts a character of four bytes, with what the next byte may be. -/
theorem decode_first_four (hl : 0xF0 ≤ b.toNat) (hu : b.toNat < 0xF5) :
    ∃ lower upper : UInt8, lower.toNat = (if b.toNat = 0xF0 then 0x90 else 0x80) ∧
      upper.toNat = (if b.toNat = 0xF4 then 0x8F else 0xBF) ∧
      ∀ rest, decode .start (b :: rest) =
        decode (.continuation lower upper 2 (b.toNat - 0xF0)) rest := by
  have h₁ : ¬b.toNat < 0x80 := by omega
  have h₂ : ¬b.toNat < 0xC2 := by omega
  have h₃ : ¬b.toNat < 0xE0 := by omega
  have h₄ : ¬b.toNat < 0xF0 := by omega
  have hE0 : b.toNat ≠ 0xE0 := by omega
  have hED : b.toNat ≠ 0xED := by omega
  by_cases hF0 : b.toNat = 0xF0
  · exact ⟨0x90, 0xBF, by simp [hF0], by simp [hF0], fun rest => by
      simp [decode, step, first, hF0]⟩
  · by_cases hF4 : b.toNat = 0xF4
    · exact ⟨0x80, 0x8F, by simp [hF4], by simp [hF4], fun rest => by
        simp [decode, step, first, hF4]⟩
    · have hlt : b.toNat < 0xF4 := by omega
      exact ⟨0x80, 0xBF, by simp [hF0], by simp [hF4], fun rest => by
        simp [decode, step, first, h₁, h₂, h₃, h₄, hE0, hED, hF0, hlt]⟩

/-- A byte that continues a character which needs more bytes. -/
theorem decode_next (hl : lower.toNat ≤ b.toNat) (hu : b.toNat ≤ upper.toNat) :
    decode (.continuation lower upper (more + 1) value) (b :: rest) =
      decode (.continuation 0x80 0xBF more (value * 64 + (b.toNat - 0x80))) rest := by
  have hin : lower ≤ b ∧ b ≤ upper := ⟨UInt8.le_iff_toNat_le.2 hl, UInt8.le_iff_toNat_le.2 hu⟩
  simp [decode, step, hin]

/-- A byte that completes a character. -/
theorem decode_last (hl : lower.toNat ≤ b.toNat) (hu : b.toNat ≤ upper.toNat) :
    decode (.continuation lower upper 0 value) (b :: rest) =
      some (Char.ofNat (value * 64 + (b.toNat - 0x80))) :: decode .start rest := by
  have hin : lower ≤ b ∧ b ≤ upper := ⟨UInt8.le_iff_toNat_le.2 hl, UInt8.le_iff_toNat_le.2 hu⟩
  simp [decode, step, hin]

theorem toNat_ofNat_lt {n : Nat} (h : n < 256) : (UInt8.ofNat n).toNat = n := by
  simp [UInt8.toNat_ofNat', Nat.mod_eq_of_lt h]

theorem decode_two {v : Nat} (hl : 128 ≤ v) (hu : v ≤ 2047) :
    decode .start (UInt8.ofNat (v / 64 % 32 + 192) :: UInt8.ofNat (v % 64 + 128) :: rest) =
      some (Char.ofNat v) :: decode .start rest := by
  have h₁ : (UInt8.ofNat (v / 64 % 32 + 192)).toNat = v / 64 % 32 + 192 :=
    toNat_ofNat_lt (by omega)
  have h₂ : (UInt8.ofNat (v % 64 + 128)).toNat = v % 64 + 128 := toNat_ofNat_lt (by omega)
  have hvalue : (v / 64 % 32 + 192 - 0xC0) * 64 + (v % 64 + 128 - 0x80) = v := by omega
  rw [decode_first_two (by omega) (by omega), decode_last (by simp; omega) (by simp; omega),
    h₁, h₂, hvalue]

/-- The second of three bytes is never one that the first rules out. -/
theorem decode_three {v : Nat} (hl : 2048 ≤ v) (hu : v ≤ 65535)
    (hpair : v < 0xD800 ∨ 0xDFFF < v) :
    decode .start (UInt8.ofNat (v / 4096 % 16 + 224) :: UInt8.ofNat (v / 64 % 64 + 128) ::
      UInt8.ofNat (v % 64 + 128) :: rest) = some (Char.ofNat v) :: decode .start rest := by
  have h₁ : (UInt8.ofNat (v / 4096 % 16 + 224)).toNat = v / 4096 % 16 + 224 :=
    toNat_ofNat_lt (by omega)
  have h₂ : (UInt8.ofNat (v / 64 % 64 + 128)).toNat = v / 64 % 64 + 128 :=
    toNat_ofNat_lt (by omega)
  have h₃ : (UInt8.ofNat (v % 64 + 128)).toNat = v % 64 + 128 := toNat_ofNat_lt (by omega)
  have hvalue : ((v / 4096 % 16 + 224 - 0xE0) * 64 + (v / 64 % 64 + 128 - 0x80)) * 64 +
      (v % 64 + 128 - 0x80) = v := by omega
  obtain ⟨lower, upper, hlower, hupper, hfirst⟩ :=
    decode_first_three (b := UInt8.ofNat (v / 4096 % 16 + 224)) (by omega) (by omega)
  have hlow : lower.toNat ≤ v / 64 % 64 + 128 := by
    rw [hlower, h₁]
    split <;> omega
  have hup : v / 64 % 64 + 128 ≤ upper.toNat := by
    rw [hupper, h₁]
    split <;> omega
  rw [hfirst, decode_next (by omega) (by omega), decode_last (by simp; omega) (by simp; omega),
    h₁, h₂, h₃, hvalue]

theorem decode_four {v : Nat} (hl : 65536 ≤ v) (hu : v < 0x110000) :
    decode .start (UInt8.ofNat (v / 262144 % 8 + 240) :: UInt8.ofNat (v / 4096 % 64 + 128) ::
      UInt8.ofNat (v / 64 % 64 + 128) :: UInt8.ofNat (v % 64 + 128) :: rest) =
      some (Char.ofNat v) :: decode .start rest := by
  have h₁ : (UInt8.ofNat (v / 262144 % 8 + 240)).toNat = v / 262144 % 8 + 240 :=
    toNat_ofNat_lt (by omega)
  have h₂ : (UInt8.ofNat (v / 4096 % 64 + 128)).toNat = v / 4096 % 64 + 128 :=
    toNat_ofNat_lt (by omega)
  have h₃ : (UInt8.ofNat (v / 64 % 64 + 128)).toNat = v / 64 % 64 + 128 :=
    toNat_ofNat_lt (by omega)
  have h₄ : (UInt8.ofNat (v % 64 + 128)).toNat = v % 64 + 128 := toNat_ofNat_lt (by omega)
  have hvalue : (((v / 262144 % 8 + 240 - 0xF0) * 64 + (v / 4096 % 64 + 128 - 0x80)) * 64 +
      (v / 64 % 64 + 128 - 0x80)) * 64 + (v % 64 + 128 - 0x80) = v := by omega
  obtain ⟨lower, upper, hlower, hupper, hfirst⟩ :=
    decode_first_four (b := UInt8.ofNat (v / 262144 % 8 + 240)) (by omega) (by omega)
  have hlow : lower.toNat ≤ v / 4096 % 64 + 128 := by
    rw [hlower, h₁]
    split <;> omega
  have hup : v / 4096 % 64 + 128 ≤ upper.toNat := by
    rw [hupper, h₁]
    split <;> omega
  rw [hfirst, decode_next (by omega) (by omega), decode_next (by simp; omega) (by simp; omega),
    decode_last (by simp; omega) (by simp; omega), h₁, h₂, h₃, h₄, hvalue]

/-- The bytes of a character are decoded to this character. -/
theorem decode_encode_ofNat {v : Nat} (hv : v.isValidChar) (rest : Bytes) :
    decode .start (encode (Char.ofNat v) ++ rest) =
      some (Char.ofNat v) :: decode .start rest := by
  have hrange : v < 0xD800 ∨ 0xDFFF < v ∧ v < 0x110000 := hv
  rw [encode_ofNat hv]
  split
  · have hb : (UInt8.ofNat v).toNat = v := toNat_ofNat_lt (by omega)
    rw [List.cons_append, decode_one (by omega), hb, List.nil_append]
  · split
    · exact decode_two (by omega) (by omega)
    · split
      · exact decode_three (by omega) (by omega) (by omega)
      · exact decode_four (by omega) (by omega)

theorem decode_encode (c : Char) (rest : Bytes) :
    decode .start (encode c ++ rest) = some c :: decode .start rest := by
  have h := decode_encode_ofNat (v := c.toNat) c.valid rest
  rwa [Char.ofNat_toNat] at h

/-- The bytes of characters are valid text, with these characters. -/
theorem pieces_ofChars (cs : List Char) : pieces (ofChars cs) = cs.map some := by
  rw [pieces_eq]
  unfold ofChars
  induction cs with
  | nil => rfl
  | cons c cs ih => rw [List.flatMap_cons, decode_encode, ih, List.map_cons]

theorem isValid_ofChars (cs : List Char) : isValid (ofChars cs) = true := by
  simp [isValid, pieces_ofChars]

theorem lossy_ofChars (cs : List Char) : lossy (ofChars cs) = ofChars cs := by
  unfold lossy
  rw [pieces_ofChars, List.flatMap_map]
  rfl

/-- With its invalid sequences replaced, any byte string is valid text. -/
theorem isValid_lossy (bytes : Bytes) : isValid (lossy bytes) = true := by
  have hchars : lossy bytes = ofChars ((pieces bytes).map (·.getD replacement)) := by
    simp [lossy, ofChars, List.flatMap_map]
  rw [hchars]
  exact isValid_ofChars _

end Text.Utf8

open Text.Utf8

/-- The digits of a number are characters of one byte each. -/
theorem Bytes.ofNat_eq_ofChars (n : Nat) : Bytes.ofNat n = ofChars (Nat.toDigits 10 n) := by
  have hdigits : ∀ cs : List Char, (∀ c ∈ cs, c.isDigit = true) →
      (cs.map fun c => c.toNat.toUInt8) = ofChars cs := by
    intro cs
    induction cs with
    | nil => exact fun _ => rfl
    | cons c cs ih =>
      intro h
      have hc : c.isDigit = true := h c List.mem_cons_self
      have hone : encode c = [c.toNat.toUInt8] := by
        have hle : c.toNat ≤ 127 := by
          simp only [Char.isDigit, Bool.and_eq_true, decide_eq_true_eq] at hc
          have hlt : c.val.toNat ≤ 57 := UInt32.le_iff_toNat_le.1 hc.2
          have heq : c.toNat = c.val.toNat := rfl
          omega
        have hencode := encode_ofNat (v := c.toNat) c.valid
        rw [Char.ofNat_toNat, if_pos hle] at hencode
        exact hencode
      have hrest := ih fun c hm => h c (List.mem_cons_of_mem _ hm)
      simp [ofChars, hone, hrest]
  exact hdigits _ fun c hc => Nat.isDigit_of_mem_toDigits (by decide) (by decide) hc

theorem lossy_ofNat (n : Nat) : lossy (Bytes.ofNat n) = Bytes.ofNat n := by
  rw [Bytes.ofNat_eq_ofChars, lossy_ofChars]

end PatternEngine
