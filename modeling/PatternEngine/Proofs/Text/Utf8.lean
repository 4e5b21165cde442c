import PatternEngine.Text.Utf8
/-!
# Decoding and encoding

A decoder that has read whole characters only is back where it started, so valid text in front of
other bytes is decoded on its own (`chars?_append`). What was read of a character that is open is
how the character will be encoded, whatever it turns out to be (`Opened`), so valid text is what its
characters encode to (`ofChars_chars`).
-/
namespace PatternEngine.Text.Utf8

/-- The pieces that are still to come when a character is open. -/
def decode : Pending → Bytes → List Piece
  | pending, [] => pending.finish
  | pending, b :: bytes => (step pending b).2 ++ decode (step pending b).1 bytes

/-- How `pieces` reads a byte: the pieces found are kept newest first. -/
def pieceStep : Pending × List Piece → UInt8 → Pending × List Piece
  | (pending, found), b => ((step pending b).1, (step pending b).2.reverse ++ found)

theorem pieceStep_foldl : ∀ (bytes : Bytes) (pending : Pending) (found : List Piece),
    let r := bytes.foldl pieceStep (pending, found)
    r.2.reverse ++ r.1.finish = found.reverse ++ decode pending bytes
  | [], pending, found => rfl
  | b :: bytes, pending, found => by
    have ih := pieceStep_foldl bytes (step pending b).1 ((step pending b).2.reverse ++ found)
    simpa [pieceStep, decode] using ih

theorem pieces_eq (bytes : Bytes) : pieces bytes = decode .start bytes :=
  pieceStep_foldl bytes .start []

theorem decode_append {xs ys : Bytes} : ∀ {pending : Pending},
    (∀ piece ∈ decode pending xs, piece.isSome = true) →
    decode pending (xs ++ ys) = decode pending xs ++ decode .start ys := by
  induction xs with
  | nil =>
    intro pending h
    cases pending with
    | start => rfl
    | continuation lower upper more value =>
      have hnone := h none (by simp [decode, Pending.finish])
      cases hnone
  | cons b xs ih =>
    intro pending h
    simp only [List.cons_append, decode, List.append_assoc]
    rw [ih fun piece hp => h piece (by simp [decode, hp])]

theorem mapM_id_eq_some {pieces : List Piece} : ∀ {cs : List Char},
    pieces.mapM id = some cs → pieces = cs.map some := by
  induction pieces with
  | nil => intro cs h; cases h; rfl
  | cons piece pieces ih =>
    intro cs h
    rw [List.mapM_cons] at h
    obtain ⟨c, hc, h⟩ := Option.bind_eq_some_iff.1 h
    obtain ⟨rest, hr, h⟩ := Option.bind_eq_some_iff.1 h
    cases h
    rw [ih hr, List.map_cons, ← hc]
    rfl

/-- Valid text in front of other bytes is decoded on its own. -/
theorem chars?_append {xs ys : Bytes} {cs : List Char} (h : chars? xs = some cs) :
    chars? (xs ++ ys) = (chars? ys).map (cs ++ ·) := by
  simp only [chars?, pieces_eq] at h ⊢
  have hpieces := mapM_id_eq_some h
  have hsome : ∀ piece ∈ decode .start xs, piece.isSome = true := by
    rw [hpieces]
    simp
  rw [decode_append hsome, List.mapM_append, h]
  cases (decode .start ys).mapM id <;> rfl

/-! ## Encoding what was decoded -/

theorem val_ofNat {v : Nat} (hv : v.isValidChar) : (Char.ofNat v).val.toNat = v := by
  unfold Char.ofNat
  rw [dif_pos hv]
  rfl

theorem encode_ofNat {v : Nat} (hv : v.isValidChar) : encode (Char.ofNat v) =
    if v ≤ 127 then [UInt8.ofNat v]
    else if v ≤ 2047 then [UInt8.ofNat (v / 64 % 32 + 192), UInt8.ofNat (v % 64 + 128)]
    else if v ≤ 65535 then
      [UInt8.ofNat (v / 4096 % 16 + 224), UInt8.ofNat (v / 64 % 64 + 128),
        UInt8.ofNat (v % 64 + 128)]
    else
      [UInt8.ofNat (v / 262144 % 8 + 240), UInt8.ofNat (v / 4096 % 64 + 128),
        UInt8.ofNat (v / 64 % 64 + 128), UInt8.ofNat (v % 64 + 128)] := by
  unfold encode String.utf8EncodeChar
  rw [val_ofNat hv]

theorem ofNat_eq {b : UInt8} {n : Nat} (h : n = b.toNat) : UInt8.ofNat n = b := by
  subst h
  exact UInt8.ofNat_toNat

/-- A byte that continues a character. -/
theorem tail_bounds {b : UInt8} (hl : 0x80 ≤ b) (hu : b ≤ 0xBF) :
    0x80 ≤ b.toNat ∧ b.toNat ≤ 0xBF :=
  ⟨UInt8.le_iff_toNat_le.1 hl, UInt8.le_iff_toNat_le.1 hu⟩

/-- The bytes read of a character that is open: whichever bytes complete it, the character that
is read then is encoded by all of them. -/
def Opened (seen : Bytes) (lower upper : UInt8) : Nat → Nat → Prop
  | 0, value => ∀ b : UInt8, lower ≤ b → b ≤ upper →
    encode (Char.ofNat (value * 64 + (b.toNat - 0x80))) = seen ++ [b]
  | more + 1, value => ∀ b : UInt8, lower ≤ b → b ≤ upper →
    Opened (seen ++ [b]) 0x80 0xBF more (value * 64 + (b.toNat - 0x80))

theorem opened_two {b : UInt8} (hl : 0xC2 ≤ b.toNat) (hu : b.toNat < 0xE0) :
    Opened [b] 0x80 0xBF 0 (b.toNat - 0xC0) := by
  intro c hlc huc
  obtain ⟨hlc, huc⟩ := tail_bounds hlc huc
  have hvalid : ((b.toNat - 0xC0) * 64 + (c.toNat - 0x80)).isValidChar := by
    unfold Nat.isValidChar
    omega
  rw [encode_ofNat hvalid, if_neg (by omega), if_pos (by omega), ofNat_eq (b := b) (by omega),
    ofNat_eq (b := c) (by omega)]
  rfl

/-- The second of three bytes is kept from those that would do with fewer, and from the halves of
pairs. -/
theorem opened_three {b lower upper : UInt8} (hl : 0xE0 ≤ b.toNat) (hu : b.toNat < 0xF0)
    (hlower : 0x80 ≤ lower.toNat) (hupper : upper.toNat ≤ 0xBF)
    (hshort : b.toNat = 0xE0 → 0xA0 ≤ lower.toNat) (hpair : b.toNat = 0xED → upper.toNat ≤ 0x9F) :
    Opened [b] lower upper 1 (b.toNat - 0xE0) := by
  intro c hlc huc d hld hud
  rw [UInt8.le_iff_toNat_le] at hlc huc
  obtain ⟨hld, hud⟩ := tail_bounds hld hud
  have hvalid : (((b.toNat - 0xE0) * 64 + (c.toNat - 0x80)) * 64 +
      (d.toNat - 0x80)).isValidChar := by
    unfold Nat.isValidChar
    omega
  rw [encode_ofNat hvalid, if_neg (by omega), if_neg (by omega), if_pos (by omega),
    ofNat_eq (b := b) (by omega), ofNat_eq (b := c) (by omega), ofNat_eq (b := d) (by omega)]
  rfl

/-- The second of four bytes is kept from those that would do with fewer, and from what is no
character. -/
theorem opened_four {b lower upper : UInt8} (hl : 0xF0 ≤ b.toNat) (hu : b.toNat < 0xF5)
    (hlower : 0x80 ≤ lower.toNat) (hupper : upper.toNat ≤ 0xBF)
    (hshort : b.toNat = 0xF0 → 0x90 ≤ lower.toNat) (hlarge : b.toNat = 0xF4 → upper.toNat ≤ 0x8F) :
    Opened [b] lower upper 2 (b.toNat - 0xF0) := by
  intro c hlc huc d hld hud g hlg hug
  rw [UInt8.le_iff_toNat_le] at hlc huc
  obtain ⟨hld, hud⟩ := tail_bounds hld hud
  obtain ⟨hlg, hug⟩ := tail_bounds hlg hug
  have hvalid : ((((b.toNat - 0xF0) * 64 + (c.toNat - 0x80)) * 64 + (d.toNat - 0x80)) * 64 +
      (g.toNat - 0x80)).isValidChar := by
    unfold Nat.isValidChar
    omega
  rw [encode_ofNat hvalid, if_neg (by omega), if_neg (by omega), if_neg (by omega),
    ofNat_eq (b := b) (by omega), ofNat_eq (b := c) (by omega), ofNat_eq (b := d) (by omega),
    ofNat_eq (b := g) (by omega)]
  rfl

/-- The bytes that a state has read of a character that is not complete yet. -/
def Pending.Seen (seen : Bytes) : Pending → Prop
  | .start => seen = []
  | .continuation lower upper more value => Opened seen lower upper more value

theorem Pending.seen_start : Pending.start.Seen [] := rfl

/-- What a step leads to: something invalid has been found, the character is still open, or it is
complete and all that was read encodes it. -/
def Advance (seen : Bytes) (outcome : Pending × List Piece) : Prop :=
  none ∈ outcome.2 ∨ (outcome.2 = [] ∧ outcome.1.Seen seen) ∨
    ∃ c, outcome = (.start, [some c]) ∧ encode c = seen

theorem first_advance (b : UInt8) : Advance [b] (first b) := by
  have hbyte : b.toNat < 256 := UInt8.toNat_lt b
  have hopened : ∀ {lower upper more value}, Opened [b] lower upper more value →
      Advance [b] (.continuation lower upper more value, []) := fun h => .inr (.inl ⟨rfl, h⟩)
  unfold first
  dsimp only
  split
  · have hvalid : b.toNat.isValidChar := by
      unfold Nat.isValidChar
      omega
    refine .inr (.inr ⟨_, rfl, ?_⟩)
    rw [encode_ofNat hvalid, if_pos (by omega), ofNat_eq rfl]
  split
  · exact .inl (by simp)
  split
  · exact hopened (opened_two (by omega) (by omega))
  split
  · rename_i hfirst
    rw [beq_iff_eq] at hfirst
    exact hopened (opened_three (by omega) (by omega) (by decide) (by decide)
      (fun _ => by decide) (by omega))
  split
  · rename_i hfirst
    rw [beq_iff_eq] at hfirst
    exact hopened (opened_three (by omega) (by omega) (by decide) (by decide) (by omega)
      (fun _ => by decide))
  split
  · rename_i hE0 hED _
    rw [beq_iff_eq] at hE0 hED
    exact hopened (opened_three (by omega) (by omega) (by decide) (by decide) (by omega)
      (by omega))
  split
  · rename_i hfirst
    rw [beq_iff_eq] at hfirst
    exact hopened (opened_four (by omega) (by omega) (by decide) (by decide)
      (fun _ => by decide) (by omega))
  split
  · rename_i hF0 _
    rw [beq_iff_eq] at hF0
    exact hopened (opened_four (by omega) (by omega) (by decide) (by decide) (by omega)
      (by omega))
  split
  · rename_i hfirst
    rw [beq_iff_eq] at hfirst
    exact hopened (opened_four (by omega) (by omega) (by decide) (by decide) (by omega)
      (fun _ => by decide))
  · exact .inl (by simp)

theorem step_advance {pending : Pending} {seen : Bytes} (b : UInt8) (hs : pending.Seen seen) :
    Advance (seen ++ [b]) (step pending b) := by
  cases pending with
  | start =>
    cases hs
    exact first_advance b
  | continuation lower upper more value =>
    by_cases hb : lower ≤ b ∧ b ≤ upper
    · have hin : (lower ≤ b && b ≤ upper) = true := by simpa using hb
      simp only [step, hin, if_true]
      cases more with
      | zero => exact .inr (.inr ⟨_, rfl, hs b hb.1 hb.2⟩)
      | succ more => exact .inr (.inl ⟨rfl, hs b hb.1 hb.2⟩)
    · have hout : ¬(lower ≤ b && b ≤ upper) = true := by simpa using hb
      rw [step, if_neg hout]
      exact .inl (by simp)

/-- Characters that were decoded are encoded by the bytes they were decoded from. -/
theorem encode_decode {bytes : Bytes} : ∀ {pending : Pending} {seen : Bytes} {cs : List Char},
    pending.Seen seen → decode pending bytes = cs.map some → ofChars cs = seen ++ bytes := by
  induction bytes with
  | nil =>
    intro pending seen cs hs h
    cases pending with
    | start =>
      cases hs
      cases cs with
      | nil => rfl
      | cons c cs => cases h
    | continuation lower upper more value => cases cs <;> cases h
  | cons b bytes ih =>
    intro pending seen cs hs h
    rw [decode] at h
    rcases step_advance b hs with hbad | ⟨hnone, hopen⟩ | ⟨c, hstep, hc⟩
    · have hm : none ∈ cs.map some := h ▸ List.mem_append_left _ hbad
      simp at hm
    · rw [hnone, List.nil_append] at h
      rw [ih hopen h, List.append_assoc]
      rfl
    · rw [hstep] at h
      cases cs with
      | nil => cases h
      | cons c' cs =>
        cases (List.cons.inj h).1
        have hrest := ih Pending.seen_start (List.cons.inj h).2
        rw [List.nil_append] at hrest
        unfold ofChars at hrest ⊢
        rw [List.flatMap_cons, hc, hrest, List.append_assoc]
        rfl

/-- Valid text is what its characters encode to. -/
theorem ofChars_chars {bytes : Bytes} {cs : List Char} (h : chars? bytes = some cs) :
    ofChars cs = bytes := by
  unfold chars? at h
  rw [pieces_eq] at h
  exact encode_decode Pending.seen_start (mapM_id_eq_some h)

/-- Valid text is handed out as it is. -/
theorem lossy_chars {bytes : Bytes} {cs : List Char} (h : chars? bytes = some cs) :
    lossy bytes = bytes := by
  have hpieces := mapM_id_eq_some h
  unfold lossy
  rw [hpieces, List.flatMap_map]
  exact ofChars_chars h

theorem isValid_chars {bytes : Bytes} {cs : List Char} (h : chars? bytes = some cs) :
    isValid bytes = true := by
  unfold isValid
  rw [mapM_id_eq_some h]
  simp

theorem chars_of_isValid {bytes : Bytes} (h : isValid bytes = true) :
    ∃ cs, chars? bytes = some cs := by
  unfold isValid at h
  unfold chars?
  generalize pieces bytes = all at h
  induction all with
  | nil => exact ⟨[], rfl⟩
  | cons piece rest ih =>
    rw [List.all_cons, Bool.and_eq_true_iff] at h
    obtain ⟨c, hc⟩ := Option.isSome_iff_exists.1 h.1
    obtain ⟨cs, hcs⟩ := ih h.2
    exact ⟨c :: cs, by rw [List.mapM_cons, hcs, hc]; rfl⟩

end PatternEngine.Text.Utf8
