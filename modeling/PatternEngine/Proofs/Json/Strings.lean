import PatternEngine.Json.Reader
import PatternEngine.Proofs.Text.Encoded
/-!
# Reading back strings and numbers

A reader takes what it reads from the front of a text and leaves the rest. A string that has been
written with its escapes is read back, or skipped, up to its closing quote (`string_run`,
`skipString_run`), and the digits of a number are read back as the number (`naturalValue_run`).
-/
namespace PatternEngine.Json.Reader

open PatternEngine.Text.Utf8

variable {α β : Type} {rest : Bytes}

/-! ## Steps of a reader -/

section
variable (s : Bytes)

theorem run_bind_ok {r : Reader α} {f : α → Reader β} {s s' : Bytes} {a : α}
    (h : r.run s = .ok (a, s')) : (r >>= f).run s = (f a).run s' := by
  rw [StateT.run_bind, h]
  rfl

theorem run_pure (a : α) : (pure a : Reader α).run s = .ok (a, s) := rfl

theorem run_get : (get : Reader Bytes).run s = .ok (s, s) := rfl

theorem peek_run : peek.run s = .ok (s.head?, s) := rfl

theorem eat_cons (b : UInt8) : eat.run (b :: s) = .ok ((), s) := rfl

theorem next_cons (b : UInt8) : next.run (b :: s) = .ok (some b, s) := rfl

/-- In front of a byte that is not blank nothing is skipped. -/
theorem peekPast_cons {b : UInt8} (h : isBlank b = false) :
    peekPast.run (b :: s) = .ok (some b, b :: s) := by
  have hskip : skipBlanks.run (b :: s) = .ok ((), b :: s) := by
    have hdrop : (b :: s).dropWhile isBlank = b :: s := by simp [h]
    show Except.ok ((), (b :: s).dropWhile isBlank) = _
    rw [hdrop]
  unfold peekPast
  rw [run_bind_ok hskip]
  rfl

end

/-! ## Strings -/

theorem hexDigit?_hexDigit : ∀ n < 16, hexDigit? (hexDigit n) = some n := by decide

/-- The number of a byte below the blank is read back. -/
theorem hexEscape_run {b : UInt8} (h : b < 0x20) :
    hexEscape.run (0x30 :: 0x30 :: hexDigit (b.toNat / 16) :: hexDigit (b.toNat % 16) :: rest) =
      .ok (b.toNat, rest) := by
  have hlt : b.toNat < 32 := UInt8.lt_iff_toNat_lt.1 h
  have hzero : hexDigit? 0x30 = some 0 := rfl
  have hhigh := hexDigit?_hexDigit (b.toNat / 16) (by omega)
  have hlow := hexDigit?_hexDigit (b.toNat % 16) (by omega)
  have hvalue : ((0 * 16 + 0) * 16 + b.toNat / 16) * 16 + b.toNat % 16 = b.toNat := by omega
  unfold hexEscape
  rw [run_bind_ok (run_get _)]
  simp only [hzero, hhigh, hlow, hvalue]
  rfl

theorem unicodeEscape_run {b : UInt8} (h : b < 0x20) :
    unicodeEscape.run
      (0x30 :: 0x30 :: hexDigit (b.toNat / 16) :: hexDigit (b.toNat % 16) :: rest) =
      .ok ([b], rest) := by
  have hlt : b.toNat < 32 := UInt8.lt_iff_toNat_lt.1 h
  have hvalid : b.toNat.isValidChar := by
    unfold Nat.isValidChar
    omega
  have hencode : encode (Char.ofNat b.toNat) = [b] := by
    rw [encode_ofNat hvalid, if_pos (by omega), ofNat_eq rfl]
  have hpair : ¬(0xDC00 ≤ b.toNat) := by omega
  have hsmall : b.toNat < 0xD800 := by omega
  unfold unicodeEscape
  rw [run_bind_ok (hexEscape_run h)]
  simp only [hpair, hsmall, hencode]
  rfl

/-- A byte as it is written is one byte that stands for itself, or an escape that is read back. -/
theorem escape_cases (skipped : Bool) (b : UInt8) :
    (Json.escape b = [b] ∧ b ≠ 0x22 ∧ b ≠ 0x5C ∧ ¬b < 0x20) ∨
      ∃ tail bytes, Json.escape b = 0x5C :: tail ∧ (skipped = false → bytes = [b]) ∧
        ∀ rest, (escape skipped).run (tail ++ rest) = .ok (bytes, rest) := by
  by_cases hplain : b = 0x22 ∨ b = 0x5C ∨ b = 8 ∨ b = 12 ∨ b = 10 ∨ b = 13 ∨ b = 9
  · refine .inr ?_
    rcases hplain with rfl | rfl | rfl | rfl | rfl | rfl | rfl <;>
      exact ⟨_, _, rfl, fun _ => rfl, fun rest => rfl⟩
  · simp only [not_or] at hplain
    obtain ⟨hquote, hslash, h8, h12, h10, h13, h9⟩ := hplain
    by_cases hcontrol : b < 0x20
    · have hwritten : Json.escape b =
          [0x5C, 0x75, 0x30, 0x30, hexDigit (b.toNat / 16), hexDigit (b.toNat % 16)] := by
        simp [Json.escape, hquote, hslash, h8, h12, h10, h13, h9, hcontrol]
      refine .inr ⟨_, if skipped then [] else [b], hwritten, fun h => by simp [h], fun rest => ?_⟩
      simp only [List.cons_append, List.nil_append]
      unfold escape
      rw [run_bind_ok (next_cons _ _)]
      cases skipped with
      | true =>
        simp only [if_true]
        rw [run_bind_ok (hexEscape_run hcontrol)]
        rfl
      | false => exact unicodeEscape_run hcontrol
    · refine .inl ⟨?_, hquote, hslash, hcontrol⟩
      simp [Json.escape, hquote, hslash, h8, h12, h10, h13, h9, hcontrol]

theorem stringBytes_plain {skipped : Bool} {fuel : Nat} {read : Bytes} {b : UInt8}
    (hquote : b ≠ 0x22) (hslash : b ≠ 0x5C) (hcontrol : ¬b < 0x20) :
    (stringBytes skipped (fuel + 1) read).run (b :: rest) =
      (stringBytes skipped fuel (b :: read)).run rest := by
  rw [stringBytes, run_bind_ok (next_cons _ _)]
  split
  · rename_i h; cases h
  · rename_i h; exact absurd (Option.some.inj h) hquote
  · rename_i h; exact absurd (Option.some.inj h) hslash
  · rename_i c _ _ h
    cases h
    rw [if_neg hcontrol]

theorem stringBytes_escape {skipped : Bool} {fuel : Nat} {read tail bytes : Bytes}
    (h : (escape skipped).run (tail ++ rest) = .ok (bytes, rest)) :
    (stringBytes skipped (fuel + 1) read).run (0x5C :: tail ++ rest) =
      (stringBytes skipped fuel (bytes.reverse ++ read)).run rest := by
  rw [stringBytes, List.cons_append, run_bind_ok (next_cons _ _)]
  exact run_bind_ok h

/-- A string is read up to its closing quote. Where it is skipped, its escapes need not be read
back. -/
theorem stringBytes_run (skipped : Bool) (s rest : Bytes) : ∀ (fuel : Nat) (read : Bytes),
    s.length < fuel → ∃ bytes, (skipped = false → bytes = read.reverse ++ s) ∧
      (stringBytes skipped fuel read).run (s.flatMap Json.escape ++ 0x22 :: rest) =
        .ok (bytes, rest) := by
  induction s with
  | nil =>
    intro fuel read hfuel
    cases fuel with
    | zero => simp at hfuel
    | succ fuel => exact ⟨read.reverse, fun _ => by simp, rfl⟩
  | cons b s ih =>
    intro fuel read hfuel
    cases fuel with
    | zero => simp at hfuel
    | succ fuel =>
      have hless : s.length < fuel := by simpa using hfuel
      rw [List.flatMap_cons, List.append_assoc]
      rcases escape_cases skipped b with ⟨hb, hquote, hslash, hcontrol⟩ |
        ⟨tail, bytes, hb, hbytes, hescape⟩
      · obtain ⟨found, hfound, hrun⟩ := ih fuel (b :: read) hless
        refine ⟨found, fun h => by simp [hfound h], ?_⟩
        rw [hb, List.cons_append, List.nil_append, stringBytes_plain hquote hslash hcontrol, hrun]
      · obtain ⟨found, hfound, hrun⟩ := ih fuel (bytes.reverse ++ read) hless
        refine ⟨found, fun h => by simp [hfound h, hbytes h], ?_⟩
        rw [hb, stringBytes_escape (hescape _), hrun]

/-- Every byte of a string is written with one byte or more. -/
theorem length_le_escape (s : Bytes) : s.length ≤ (s.flatMap Json.escape).length := by
  induction s with
  | nil => simp
  | cons b s ih =>
    have hb : 1 ≤ (Json.escape b).length := by
      rcases escape_cases false b with ⟨hb, -⟩ | ⟨tail, bytes, hb, -⟩ <;> simp [hb]
    simp only [List.flatMap_cons, List.length_append, List.length_cons]
    omega

/-- Valid text that has been written as a string is read back. -/
theorem string_run {s : Bytes} (h : isValid s = true) :
    string.run (s.flatMap Json.escape ++ 0x22 :: rest) = .ok (s, rest) := by
  have hlength := length_le_escape s
  obtain ⟨bytes, hbytes, hrun⟩ := stringBytes_run false s rest
    ((s.flatMap Json.escape ++ 0x22 :: rest).length + 1) []
    (by simp only [List.length_append, List.length_cons]; omega)
  have hs : bytes = s := hbytes rfl
  subst hs
  unfold string
  rw [run_bind_ok (run_get _), run_bind_ok hrun, if_pos h]
  rfl

theorem skipString_run (s : Bytes) :
    skipString.run (s.flatMap Json.escape ++ 0x22 :: rest) = .ok ((), rest) := by
  have hlength := length_le_escape s
  obtain ⟨bytes, -, hrun⟩ := stringBytes_run true s rest
    ((s.flatMap Json.escape ++ 0x22 :: rest).length + 1) []
    (by simp only [List.length_append, List.length_cons]; omega)
  unfold skipString
  rw [run_bind_ok (run_get _), run_bind_ok hrun]
  rfl

theorem quote_append (s rest : Bytes) :
    quote s ++ rest = 0x22 :: (s.flatMap Json.escape ++ 0x22 :: rest) := by
  simp [quote]

theorem textValue_run {s : Bytes} (h : isValid s = true) :
    textValue.run (quote s ++ rest) = .ok (s, rest) := by
  unfold textValue
  rw [quote_append, run_bind_ok (peekPast_cons _ rfl)]
  exact (run_bind_ok (eat_cons _ _)).trans (string_run h)

/-! ## Numbers -/

/-- What follows a value: nothing, or a comma, or what closes an object or an array. -/
def Ended (rest : Bytes) : Prop :=
  rest = [] ∨ ∃ tail, rest = 0x2C :: tail ∨ rest = 0x7D :: tail ∨ rest = 0x5D :: tail

theorem isBlank_digit {b : UInt8} (h : isDigit b = true) : isBlank b = false := by
  simp only [isDigit, Bool.and_eq_true, decide_eq_true_eq, UInt8.le_iff_toNat_le] at h
  have hb : ∀ c : UInt8, c.toNat < 48 → b ≠ c := by
    rintro c hc rfl
    exact absurd h.1 (Nat.not_le.2 hc)
  simp [isBlank, hb 32 (by decide), hb 10 (by decide), hb 9 (by decide), hb 13 (by decide)]

theorem isDigit_byte {c : Char} (h : c.isDigit = true) :
    c.toNat.toUInt8.toNat = c.toNat ∧ isDigit c.toNat.toUInt8 = true := by
  simp only [Char.isDigit, Bool.and_eq_true, decide_eq_true_eq] at h
  have hl : 48 ≤ c.toNat := UInt32.le_iff_toNat_le.1 h.1
  have hu : c.toNat ≤ 57 := UInt32.le_iff_toNat_le.1 h.2
  have hbyte : c.toNat.toUInt8.toNat = c.toNat := toNat_ofNat_lt (by omega)
  refine ⟨hbyte, ?_⟩
  simp only [isDigit, Bool.and_eq_true, decide_eq_true_eq, UInt8.le_iff_toNat_le, hbyte]
  exact ⟨hl, hu⟩

theorem isDigit_ofNat {n : Nat} : ∀ b ∈ Bytes.ofNat n, isDigit b = true := by
  intro b hb
  obtain ⟨c, hc, rfl⟩ := List.mem_map.1 hb
  exact (isDigit_byte (Nat.isDigit_of_mem_toDigits (by decide) (by decide) hc)).2

theorem valueOf_ofNat (n : Nat) : valueOf (Bytes.ofNat n) = n := by
  have hfold : ∀ (cs : List Char) (m : Nat), (∀ c ∈ cs, c.isDigit = true) →
      (cs.map fun c => c.toNat.toUInt8).foldl (fun n d => n * 10 + (d.toNat - 48)) m =
        Nat.ofDigitChars 10 cs m := by
    intro cs
    induction cs with
    | nil => exact fun _ _ => rfl
    | cons c cs ih =>
      intro m h
      have hc := (isDigit_byte (h c List.mem_cons_self)).1
      have hzero : '0'.toNat = 48 := rfl
      rw [List.map_cons, List.foldl_cons, ih _ fun c hm => h c (List.mem_cons_of_mem _ hm),
        Nat.ofDigitChars_cons, hc, hzero, Nat.mul_comm m 10]
  exact (hfold _ 0 fun c hc => Nat.isDigit_of_mem_toDigits (by decide) (by decide) hc).trans
    Nat.ofDigitChars_ten_toDigits

/-- A number that is not zero does not start with the digit zero. -/
theorem head_toDigits {n : Nat} (h : 0 < n) : (Nat.toDigits 10 n).head? ≠ some '0' := by
  induction n using Nat.strongRecOn with
  | _ n ih =>
    rw [Nat.toDigits_eq_if (by decide)]
    by_cases hn : n < 10
    · rw [if_pos hn]
      intro hzero
      have hdigit : n.digitChar = '0' := by simpa using hzero
      rw [Nat.digitChar_eq_zero] at hdigit
      omega
    · have hhead := ih (n / 10) (by omega) (by omega)
      rw [if_neg hn]
      cases hd : Nat.toDigits 10 (n / 10) with
      | nil => exact absurd hd Nat.toDigits_ne_nil
      | cons c cs =>
        rw [hd] at hhead
        simpa using hhead

/-- The digits of a number have no zero in front. -/
theorem no_leading_zero (n : Nat) :
    (1 < (Bytes.ofNat n).length && (Bytes.ofNat n).head? == some 48) = false := by
  by_cases hn : n = 0
  · subst hn
    rfl
  · have hhead : (Bytes.ofNat n).head? ≠ some 48 := by
      intro h
      obtain ⟨c, hc, hb⟩ : ∃ c, (Nat.toDigits 10 n).head? = some c ∧ c.toNat.toUInt8 = 48 := by
        simpa [Bytes.ofNat] using h
      have hdigit : c.isDigit = true :=
        Nat.isDigit_of_mem_toDigits (by decide) (by decide) (List.mem_of_head? hc)
      have hvalue : c.toNat = 48 := by
        rw [← (isDigit_byte hdigit).1, hb]
        rfl
      have hzero : c = '0' := by
        rw [← Char.ofNat_toNat c, hvalue]
      exact head_toDigits (Nat.pos_of_ne_zero hn) (hzero ▸ hc)
    simp [hhead]

theorem digits_run {ds : Bytes} (h : ∀ b ∈ ds, isDigit b = true) (hrest : Ended rest) :
    digits.run (ds ++ rest) = .ok (ds, rest) := by
  have hspan : (ds ++ rest).takeWhile isDigit = ds ∧ (ds ++ rest).dropWhile isDigit = rest := by
    obtain rfl | ⟨tail, rfl | rfl | rfl⟩ := hrest <;>
      rw [List.takeWhile_append_of_pos h, List.dropWhile_append_of_pos h] <;>
      simp [isDigit]
  show Except.ok ((ds ++ rest).takeWhile isDigit, (ds ++ rest).dropWhile isDigit) = _
  rw [hspan.1, hspan.2]

/-- The digits of a number, of which there is at least one. -/
theorem ofNat_cons (n : Nat) : ∃ b ds, Bytes.ofNat n = b :: ds ∧ isDigit b = true := by
  cases hds : Bytes.ofNat n with
  | nil => exact absurd (List.map_eq_nil_iff.1 hds) Nat.toDigits_ne_nil
  | cons b ds => exact ⟨b, ds, rfl, isDigit_ofNat b (hds ▸ List.mem_cons_self)⟩

/-- A number that is not too large is read back. -/
theorem numeral_run {n : Nat} (hn : n ≤ maxNatural) (hrest : Ended rest) :
    (numeral true).run (Bytes.ofNat n ++ rest) = .ok (.natural n, rest) := by
  obtain ⟨b, ds, hds, hdigit⟩ := ofNat_cons n
  have hdigits : digits.run (Bytes.ofNat n ++ rest) = .ok (Bytes.ofNat n, rest) :=
    digits_run isDigit_ofNat hrest
  have hpeek : peek.run (Bytes.ofNat n ++ rest) = .ok (some b, Bytes.ofNat n ++ rest) := by
    rw [peek_run, hds]
    rfl
  unfold numeral
  rw [run_bind_ok hpeek]
  simp only [hdigit, if_true]
  rw [run_bind_ok hdigits]
  simp only [no_leading_zero]
  obtain rfl | ⟨tail, rfl | rfl | rfl⟩ := hrest
  all_goals
    simp only [Bool.false_eq_true, if_false]
    rw [run_bind_ok (peek_run _)]
    refine (run_bind_ok (run_pure _ ([] : Bytes))).trans ?_
    rw [run_bind_ok (peek_run _)]
    refine (run_bind_ok (run_pure _ none)).trans ?_
    simp only [List.append_nil, valueOf_ofNat, hn]
    rfl

theorem naturalValue_run {n : Nat} (hn : n ≤ maxNatural) (hrest : Ended rest) :
    naturalValue.run (Bytes.ofNat n ++ rest) = .ok (n, rest) := by
  obtain ⟨b, ds, hds, hdigit⟩ := ofNat_cons n
  have hpeek : peekPast.run (Bytes.ofNat n ++ rest) = .ok (some b, Bytes.ofNat n ++ rest) := by
    rw [hds]
    exact peekPast_cons _ (isBlank_digit hdigit)
  unfold naturalValue
  rw [run_bind_ok hpeek]
  simp only [hdigit, if_true]
  rw [run_bind_ok (numeral_run hn hrest)]
  rfl

end PatternEngine.Json.Reader
