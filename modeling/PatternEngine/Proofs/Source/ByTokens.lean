import Mathlib.Data.List.TakeWhile
import PatternEngine.Source.Line
/-!
# Lines by their tokens

The patterns that a line is read with never have to give a byte back, the one of the expression
apart: no item can start with what the run before it has taken (`Refuses`). So a pattern of words
and keywords sees a line only through its tokens (`Tells`), and reading a line pattern by pattern
is reading it by its tokens (`classify_eq`).
-/
namespace PatternEngine.Source

open Item

/-- Whether a byte string is a word. -/
def isWord (bytes : Bytes) : Bool := !bytes.isEmpty && bytes.all isWordByte

/-- The longest pieces without blanks, in order. -/
def tokens (bytes : Bytes) : List Bytes :=
  let (token, found) := bytes.foldr
    (fun b (token, found) =>
      if isBlank b then ([], if token.isEmpty then found else token :: found)
      else (b :: token, found))
    (([] : Bytes), ([] : List Bytes))
  if token.isEmpty then found else token :: found

def nonBlank (b : UInt8) : Bool := !isBlank b

/-- Whether a text can be a token. -/
def isSolid (bytes : Bytes) : Bool := !bytes.isEmpty && bytes.all nonBlank

/-- Drops the blanks at both ends. -/
def trim (bytes : Bytes) : Bytes := Bytes.dropWhileRight isBlank (bytes.dropWhile isBlank)

namespace Line

/-- The rest of a line after a keyword and a blank. -/
def afterKeyword? (keyword line : Bytes) : Option Bytes :=
  if keyword.isPrefixOf line then
    match line.drop keyword.length with
    | b :: rest => if isBlank b then some rest else none
    | [] => none
  else none

def ofPackage (rest : Bytes) : Line :=
  match tokens rest with
  | [name] => if isWord name then .package name else .badPackage
  | _ => .badPackage

def ofImport (rest : Bytes) : Line :=
  match tokens rest with
  | [name] => if isWord name then .importing name .none else .badImport
  | [name, keyword, under] =>
    if isWord name && keyword == text "as" && (isWord under || under == [46]) then
      .importing name (.ofName under)
    else .badImport
  | _ => .badImport

def ofBinding (line : Bytes) : Line :=
  let name := line.takeWhile isWordByte
  match (line.dropWhile isWordByte).dropWhile isBlank with
  | 61 :: rest =>
    if name.isEmpty then .malformed
    else
      match trim rest with
      | [] => .noExpression name
      | expression => .binding name expression
  | _ => .malformed

/-- Reads a line by its tokens. -/
def byTokens (line : Bytes) : Line :=
  let line := line.dropWhile isBlank
  if line.isEmpty || (text "--").isPrefixOf line then .blank
  else
    match afterKeyword? (text "package") line with
    | some rest => ofPackage rest
    | none =>
      match afterKeyword? (text "import") line with
      | some rest => ofImport rest
      | none => ofBinding line

end Line

variable {α : Type} {c : ByteClass} {items : List Item} {start : Option Bytes}
  {line rest name : Bytes} {b : UInt8}

theorem isWord_all (h : isWord name = true) : ∀ b ∈ name, isWordByte b = true := by
  simp only [isWord, Bool.and_eq_true, List.all_eq_true] at h
  exact h.2

theorem isWord_ne (h : isWord name = true) : name ≠ [] := by
  rintro rfl
  cases h

theorem isBlank_of_isWordByte (h : isWordByte b = true) : isBlank b = false := by
  cases hb : isBlank b with
  | false => rfl
  | true =>
    simp only [isBlank, Bool.or_eq_true, beq_iff_eq] at hb
    rcases hb with (((rfl | rfl) | rfl) | rfl) | rfl <;> exact absurd h (by decide)

theorem isSolid_ne (h : isSolid name = true) : name ≠ [] := by
  rintro rfl
  cases h

theorem isSolid_all (h : isSolid name = true) : ∀ b ∈ name, isBlank b = false := by
  simp only [isSolid, nonBlank, Bool.and_eq_true, List.all_eq_true, Bool.not_eq_true'] at h
  exact h.2

/-! ## Tokens, one after the other -/

/-- How `tokens` reads a byte, from the right: a blank ends the open token. -/
def tokenStep (b : UInt8) : Bytes × List Bytes → Bytes × List Bytes
  | (token, found) =>
    if isBlank b then ([], if token.isEmpty then found else token :: found)
    else (b :: token, found)

theorem tokens_eq (bytes : Bytes) :
    let r := bytes.foldr tokenStep ([], [])
    tokens bytes = if r.1.isEmpty then r.2 else r.1 :: r.2 := rfl

theorem tokens_blank (hb : isBlank b = true) (rest : Bytes) : tokens (b :: rest) = tokens rest := by
  rw [tokens_eq, tokens_eq, List.foldr_cons]
  simp only [tokenStep, hb, if_true, List.isEmpty_nil]

theorem tokens_dropWhile (rest : Bytes) : tokens (rest.dropWhile isBlank) = tokens rest := by
  induction rest with
  | nil => rfl
  | cons b rest ih =>
    rw [List.dropWhile_cons]
    split
    · rename_i hb
      rw [ih, tokens_blank hb]
    · rfl

/-- No token is open in front of a blank. -/
theorem foldr_tokenStep (hends : ∀ b ∈ rest.head?, isBlank b = true) :
    rest.foldr tokenStep ([], []) = ([], tokens rest) := by
  cases rest with
  | nil => rfl
  | cons b rest =>
    have hb : isBlank b = true := hends b rfl
    rw [tokens_blank hb, tokens_eq, List.foldr_cons]
    simp only [tokenStep, hb, if_true]

theorem tokens_token {token : Bytes} (hne : token ≠ [])
    (hinside : ∀ b ∈ token, isBlank b = false) (hends : ∀ b ∈ rest.head?, isBlank b = true) :
    tokens (token ++ rest) = token :: tokens rest := by
  have hopen : (token ++ rest).foldr tokenStep ([], []) = (token, tokens rest) := by
    clear hne
    induction token with
    | nil => exact foldr_tokenStep hends
    | cons b token ih =>
      have hb : isBlank b = false := hinside b List.mem_cons_self
      have htail := ih fun c hc => hinside c (List.mem_cons_of_mem _ hc)
      rw [List.cons_append, List.foldr_cons, htail]
      simp only [tokenStep, hb, Bool.false_eq_true, if_false]
  rw [tokens_eq, hopen]
  simp [hne]

/-! ## Runs that give nothing back -/

@[simp] theorem ByteClass.has_blank (b : UInt8) : ByteClass.blank.has b = isBlank b := rfl

@[simp] theorem ByteClass.has_word (b : UInt8) : ByteClass.word.has b = isWordByte b := rfl

/-- The items cannot start with such a byte. -/
def Refuses (items : List Item) (p : UInt8 → Bool) : Prop :=
  ∀ start b rest, p b = true → run items start (b :: rest) = none

/-- If what follows cannot start with a byte of the class, only the longest run counts. -/
theorem longest_eq {next : Bytes → Option α}
    (h : ∀ b rest, c.has b = true → next (b :: rest) = none) (line : Bytes) :
    longest c next line = next (line.dropWhile c.has) := by
  induction line with
  | nil => rfl
  | cons b rest ih =>
    unfold longest
    rw [List.dropWhile_cons]
    split
    · rename_i hb
      rw [ih, h b rest hb, Option.or_none]
    · rfl

/-- If what follows the longest run fits, no other run is tried. -/
theorem longest_of_some {next : Bytes → Option α} {a : α}
    (h : next (line.dropWhile c.has) = some a) : longest c next line = some a := by
  induction line with
  | nil => exact h
  | cons b rest ih =>
    unfold longest
    rw [List.dropWhile_cons] at h
    split at h
    · rename_i hb
      rw [if_pos hb, ih h, Option.some_or]
    · rename_i hb
      rwa [if_neg hb]

theorem run_many (h : Refuses items c.has) (line : Bytes) :
    run (many c :: items) start line = run items start (line.dropWhile c.has) := by
  simp only [run]
  exact longest_eq (h start) line

theorem run_blanks (h : Refuses items isBlank) (line : Bytes) :
    run (many .blank :: items) start line = run items start (line.dropWhile isBlank) :=
  run_many h line

theorem run_more (h : Refuses items c.has) (hb : c.has b = true) :
    run (more c :: items) start (b :: rest) = run items start ((b :: rest).dropWhile c.has) := by
  simp only [run, hb, if_true]
  rw [longest_eq (h start), List.dropWhile_cons_of_pos hb]

variable {p : UInt8 → Bool}

theorem refuses_one (h : ∀ b, p b = true → c.has b = false) : Refuses (one c :: items) p := by
  intro start b rest hb
  simp [run, h b hb]

theorem refuses_more (h : ∀ b, p b = true → c.has b = false) : Refuses (more c :: items) p := by
  intro start b rest hb
  simp [run, h b hb]

theorem refuses_many (h : ∀ b, p b = true → c.has b = false) (hi : Refuses items p) :
    Refuses (many c :: items) p := by
  intro start b rest hb
  simp only [run, longest, h b hb, Bool.false_eq_true, if_false]
  exact hi start b rest hb

theorem refuses_group (hword : ∀ b, p b = true → isWordByte b = false) :
    Refuses (Line.wordGroup ++ items) p := by
  intro start b rest hb
  simp [Line.wordGroup, run, hword b hb]

theorem refuses_nothing (h : ∀ b, p b = true → isBlank b = false) : Refuses Line.nothingPattern p :=
  refuses_many h fun _ _ _ _ => rfl

/-- A fixed text is taken off the front. -/
theorem run_literal (s : String) (line : Bytes) : run (literal s ++ items) start line =
    if (text s).isPrefixOf line then run items start (line.drop (text s).length) else none := by
  unfold literal
  generalize text s = bytes
  induction bytes generalizing line with
  | nil => simp
  | cons a bytes ih =>
    cases line with
    | nil => simp [run]
    | cons b rest =>
      simp only [List.map_cons, List.cons_append, run, ByteClass.has, ih, List.isPrefixOf,
        List.length_cons, List.drop_succ_cons, Bool.and_eq_true, beq_iff_eq]
      by_cases hab : b = a
      · simp [hab]
      · rw [if_neg hab, if_neg fun h => hab h.1.symm]

theorem refuses_literal {s : String} (hs : isSolid (text s) = true) :
    Refuses (literal s ++ items) isBlank := by
  unfold literal
  cases ht : text s with
  | nil => exact absurd ht (isSolid_ne hs)
  | cons a more =>
    refine refuses_one fun b hb => ?_
    simp only [ByteClass.has, beq_eq_false_iff_ne]
    rintro rfl
    rw [isSolid_all hs b (by simp [ht])] at hb
    cases hb

/-- What stands in front of the rest of a run is the run. -/
theorem take_run (p : UInt8 → Bool) (line : Bytes) :
    line.take (line.length - (line.dropWhile p).length) = line.takeWhile p := by
  have hsplit := List.takeWhile_append_dropWhile (p := p) (l := line)
  have hlength := congrArg List.length hsplit
  rw [List.length_append] at hlength
  have hcount : line.length - (line.dropWhile p).length = (line.takeWhile p).length := by omega
  rw [hcount]
  exact (List.prefix_iff_eq_take.1 (List.takeWhile_prefix p)).symm

/-- A bracket around a word tells the longest one. -/
theorem run_group (h : Refuses items isWordByte) (line : Bytes) :
    run (Line.wordGroup ++ items) start line =
      if (line.takeWhile isWordByte).isEmpty then none
      else (run items none (line.dropWhile isWordByte)).map (line.takeWhile isWordByte :: ·) := by
  have hclosing : Refuses (closing :: items) ByteClass.word.has := by
    intro start b rest hb
    simp only [run, h none b rest hb, Option.map_none]
  cases line with
  | nil => rfl
  | cons b rest =>
    show run (more .word :: closing :: items) (some (b :: rest)) (b :: rest) = _
    by_cases hb : isWordByte b = true
    · rw [run_more hclosing hb]
      have hopen : ((b :: rest).takeWhile isWordByte).isEmpty = false := by simp [hb]
      have htake := take_run isWordByte (b :: rest)
      simp only [run, hopen, Bool.false_eq_true, if_false, Option.getD_some]
      show (run items none ((b :: rest).dropWhile isWordByte)).map
        ((b :: rest).take ((b :: rest).length - ((b :: rest).dropWhile isWordByte).length) :: ·) = _
      rw [htake]
    · simp [run, hb]

/-! ## Patterns that see the tokens only -/

/-- A pattern that starts at the end of a token, and what it makes of the tokens from there on. -/
structure Tells (items : List Item) (told : List Bytes → Option (List Bytes)) : Prop where
  refuses : Refuses items nonBlank
  run_eq : ∀ start rest, (∀ b ∈ rest.head?, isBlank b = true) →
    run items start rest = told (tokens rest)

/-- What the end of a line makes of the tokens. -/
def endThen (found : List Bytes) : Option (List Bytes) := if found.isEmpty then some [] else none

theorem tells_nothing : Tells Line.nothingPattern endThen where
  refuses := refuses_nothing fun b hb => by simpa [nonBlank] using hb
  run_eq := by
    intro start rest _
    unfold Line.nothingPattern
    rw [run_many fun _ _ _ _ => rfl, ← tokens_dropWhile rest]
    show run [ending] start (rest.dropWhile isBlank) = _
    generalize hdrop : rest.dropWhile isBlank = left
    cases left with
    | nil => rfl
    | cons b more =>
      have hb : isBlank b = false := by
        have hhead := List.head?_dropWhile_not isBlank rest
        rw [hdrop] at hhead
        exact hhead
      have hopen : (tokens (b :: more)).isEmpty = false := by
        rw [tokens_eq, List.foldr_cons]
        simp [tokenStep, hb]
      simp [run, endThen, hopen]

/-- Behind a token stands a blank, or nothing. -/
theorem ends_token (line : Bytes) : ∀ b ∈ (line.dropWhile nonBlank).head?, isBlank b = true := by
  intro b hb
  have hhead := List.head?_dropWhile_not nonBlank line
  rw [hb] at hhead
  simpa [nonBlank] using hhead

/-- A text that starts with no blank is its first token and what is past it. -/
theorem first_token (hb : isBlank b = false) (rest : Bytes) : tokens (b :: rest) =
    (b :: rest).takeWhile nonBlank :: tokens ((b :: rest).dropWhile nonBlank) := by
  rw [← tokens_token ?_ ?_ (ends_token _), List.takeWhile_append_dropWhile]
  · simp [nonBlank, hb]
  · intro b hb
    simpa [nonBlank] using List.mem_takeWhile_imp hb

/-- Where the first token is a word, the longest word is the first token. Otherwise the longest word
ends inside the token. -/
theorem word_of_token (line : Bytes) :
    (line.takeWhile nonBlank).all isWordByte = true ∧
        line.takeWhile isWordByte = line.takeWhile nonBlank ∧
        line.dropWhile isWordByte = line.dropWhile nonBlank ∨
      (line.takeWhile nonBlank).all isWordByte = false ∧
        ∃ b rest, line.dropWhile isWordByte = b :: rest ∧ nonBlank b = true := by
  induction line with
  | nil => exact .inl ⟨rfl, rfl, rfl⟩
  | cons b line ih =>
    by_cases hb : isWordByte b = true
    · have hnon : nonBlank b = true := by simp [nonBlank, isBlank_of_isWordByte hb]
      simpa [hb, hnon] using ih
    · by_cases hnon : nonBlank b = true
      · refine .inr ⟨?_, b, line, ?_, hnon⟩ <;> simp [hb, hnon]
      · refine .inl ?_
        simp [hb, hnon]

/-- A bracketed word behind which nothing but a blank can follow is a token. -/
theorem run_word (h : Refuses items nonBlank) (line : Bytes) :
    run (Line.wordGroup ++ items) start line =
      if isWord (line.takeWhile nonBlank) then
        (run items none (line.dropWhile nonBlank)).map (line.takeWhile nonBlank :: ·)
      else none := by
  have hword : Refuses items isWordByte := fun start b rest hb =>
    h start b rest (by simp [nonBlank, isBlank_of_isWordByte hb])
  rw [run_group hword]
  rcases word_of_token line with ⟨hall, htake, hdrop⟩ | ⟨hnone, b, rest, hdrop, hb⟩
  · rw [htake, hdrop]
    cases hempty : (line.takeWhile nonBlank).isEmpty <;> simp [isWord, hall, hempty]
  · have hnot : isWord (line.takeWhile nonBlank) = false := by simp [isWord, hnone]
    rw [hdrop, h none b rest hb, hnot]
    simp

/-- A fixed text behind which nothing but a blank can follow is a token. -/
theorem run_keyword {s : String} (hs : isSolid (text s) = true)
    (h : Refuses items nonBlank) (line : Bytes) : run (literal s ++ items) start line =
      if line.takeWhile nonBlank == text s then run items start (line.dropWhile nonBlank)
      else none := by
  have hinside : ∀ b ∈ text s, nonBlank b = true := fun b hb => by
    simp [nonBlank, isSolid_all hs b hb]
  rw [run_literal]
  by_cases hfront : (text s).isPrefixOf line = true
  · obtain ⟨rest, rfl⟩ := List.isPrefixOf_iff_prefix.1 hfront
    rw [if_pos hfront, List.drop_left, List.takeWhile_append_of_pos hinside,
      List.dropWhile_append_of_pos hinside]
    cases rest with
    | nil => simp
    | cons b rest =>
      by_cases hb : nonBlank b = true
      · simp [h start b rest hb, hb]
      · simp [hb]
  · rw [if_neg hfront, if_neg]
    intro heq
    apply hfront
    rw [← eq_of_beq heq]
    exact List.isPrefixOf_iff_prefix.2 (List.takeWhile_prefix _)

variable {told : List Bytes → Option (List Bytes)} {s : String}

/-- After the blanks of `%s+` a token starts. -/
theorem Tells.of_more (hblank : Refuses items isBlank) (hnil : ∀ start, run items start [] = none)
    (htold : told [] = none)
    (h : ∀ start b rest, isBlank b = false →
      run items start (b :: rest) = told (tokens (b :: rest))) :
    Tells (more .blank :: items) told where
  refuses := refuses_more fun b hb => by simpa [nonBlank] using hb
  run_eq := by
    intro start rest hends
    cases rest with
    | nil => exact htold.symm
    | cons b rest =>
      have hmore : run (more .blank :: items) start (b :: rest) =
          run items start ((b :: rest).dropWhile isBlank) := run_more hblank (hends b rfl)
      rw [hmore, ← tokens_dropWhile]
      have hhead := List.head?_dropWhile_not isBlank (b :: rest)
      generalize (b :: rest).dropWhile isBlank = left at hhead ⊢
      cases left with
      | nil => rw [hnil, ← htold]; rfl
      | cons b' more => exact h start b' more hhead

/-- What a word in brackets makes of the tokens, if the rest of the pattern makes `told` of them. -/
def wordThen (told : List Bytes → Option (List Bytes)) : List Bytes → Option (List Bytes)
  | token :: found => if isWord token then (told found).map (token :: ·) else none
  | [] => none

theorem Tells.word (h : Tells items told) :
    Tells (more .blank :: (Line.wordGroup ++ items)) (wordThen told) := by
  refine .of_more (refuses_group fun b hb => ?_) (fun _ => rfl) rfl fun start b rest hb => ?_
  · cases hw : isWordByte b with
    | false => rfl
    | true => rw [isBlank_of_isWordByte hw] at hb; cases hb
  · rw [run_word h.refuses, first_token hb, h.run_eq none _ (ends_token _)]
    rfl

/-- The same for a fixed token. -/
def keywordThen (keyword : Bytes) (told : List Bytes → Option (List Bytes)) :
    List Bytes → Option (List Bytes)
  | token :: found => if token == keyword then told found else none
  | [] => none

theorem Tells.keyword (hs : isSolid (text s) = true) (h : Tells items told) :
    Tells (more .blank :: (literal s ++ items)) (keywordThen (text s) told) := by
  refine .of_more (refuses_literal hs) (fun start => ?_) rfl fun start b rest hb => ?_
  · rw [run_literal, if_neg]
    cases ht : text s with
    | nil => exact absurd ht (isSolid_ne hs)
    | cons a more => exact Bool.false_ne_true
  · rw [run_keyword hs h.refuses, first_token hb, h.run_eq start _ (ends_token _)]
    rfl

/-! ## The patterns of a line -/

/-- A pattern that starts with a keyword and a blank reads the tokens behind them. -/
theorem captures_afterKeyword (hs : isSolid (text s) = true)
    (h : Tells (more .blank :: items) told) (line : Bytes) :
    captures? (many .blank :: (literal s ++ more .blank :: items)) line =
      (Line.afterKeyword? (text s) (line.dropWhile isBlank)).bind fun rest =>
        told (tokens rest) := by
  have hmany : captures? (many .blank :: (literal s ++ more .blank :: items)) line =
      run (literal s ++ more .blank :: items) none (line.dropWhile isBlank) :=
    run_blanks (refuses_literal hs) line
  rw [hmany, run_literal, Line.afterKeyword?]
  split
  · cases (line.dropWhile isBlank).drop (text s).length with
    | nil => rfl
    | cons b rest =>
      by_cases hb : isBlank b = true
      · rw [h.run_eq none _ fun c hc => by cases hc; exact hb, tokens_blank hb]
        simp [hb]
      · rw [h.refuses none b rest (by simp [nonBlank, hb])]
        simp [hb]
  · rfl

theorem fits_keyword (hs : isSolid (text s) = true) (line : Bytes) :
    fits (Line.keywordPattern s) line =
      (Line.afterKeyword? (text s) (line.dropWhile isBlank)).isSome := by
  have hmany : captures? (Line.keywordPattern s) line =
      run (literal s ++ [one .blank]) none (line.dropWhile isBlank) :=
    run_blanks (refuses_literal hs) line
  rw [fits, hmany, run_literal, Line.afterKeyword?]
  split
  · cases (line.dropWhile isBlank).drop (text s).length with
    | nil => rfl
    | cons b rest => by_cases hb : isBlank b = true <;> simp [run, hb]
  · rfl

theorem fits_nothing (line : Bytes) :
    fits Line.nothingPattern line = (line.dropWhile isBlank).isEmpty := by
  have hmany : captures? Line.nothingPattern line = run [ending] none (line.dropWhile isBlank) :=
    run_blanks (fun _ _ _ _ => rfl) line
  rw [fits, hmany]
  cases line.dropWhile isBlank <;> rfl

theorem fits_comment (line : Bytes) :
    fits Line.commentPattern line = (text "--").isPrefixOf (line.dropWhile isBlank) := by
  have hrefuses : Refuses (literal "--" ++ []) isBlank := refuses_literal rfl
  have hmany : captures? Line.commentPattern line =
      run (literal "--" ++ []) none (line.dropWhile isBlank) := run_blanks hrefuses line
  rw [fits, hmany, run_literal]
  split
  · rename_i hfront
    rw [hfront]; rfl
  · rename_i hfront
    rw [eq_false_of_ne_true hfront]; rfl

theorem run_nothing (line : Bytes) :
    run Line.nothingPattern start line = if line.all isBlank then some [] else none := by
  unfold Line.nothingPattern
  rw [run_blanks fun _ _ _ _ => rfl]
  by_cases hall : line.all isBlank = true
  · have hnil : line.dropWhile isBlank = [] := by
      rw [List.dropWhile_eq_nil_iff]
      exact List.all_eq_true.1 hall
    rw [hnil, if_pos hall]
    rfl
  · rw [if_neg hall]
    cases hleft : line.dropWhile isBlank with
    | nil =>
      rw [List.dropWhile_eq_nil_iff] at hleft
      exact absurd (List.all_eq_true.2 hleft) hall
    | cons b rest => rfl

theorem dropWhileRight_blank (h : line.all isBlank = true) :
    Bytes.dropWhileRight isBlank line = [] := by
  have hnil : line.reverse.dropWhile isBlank = [] := by
    rw [List.dropWhile_eq_nil_iff]
    exact fun b hb => List.all_eq_true.1 h b (List.mem_reverse.1 hb)
  rw [Bytes.dropWhileRight, hnil, List.reverse_nil]

theorem dropWhileRight_cons (h : (b :: rest).all isBlank = false) :
    Bytes.dropWhileRight isBlank (b :: rest) = b :: Bytes.dropWhileRight isBlank rest := by
  unfold Bytes.dropWhileRight
  rw [List.reverse_cons, List.dropWhile_append]
  split
  · rename_i hnil
    have hrest : rest.all isBlank = true := by
      rw [List.isEmpty_iff, List.dropWhile_eq_nil_iff] at hnil
      exact List.all_eq_true.2 fun b hb => hnil b (List.mem_reverse.2 hb)
    have hb : isBlank b = false := by simpa [hrest] using h
    simp [hb, List.isEmpty_iff.1 hnil]
  · simp

theorem run_closing (before rest : Bytes) :
    run (closing :: Line.nothingPattern) (some (before ++ rest)) rest =
      if rest.all isBlank then some [before] else none := by
  have hlength : (before ++ rest).length - rest.length = before.length := by simp
  simp only [run, run_nothing, Option.getD_some, hlength, List.take_left]
  split <;> rfl

/-- The shortest text that only blanks follow. `before` has been passed over. -/
theorem shortest_trimmed (before rest : Bytes) :
    shortest .any (run (closing :: Line.nothingPattern) (some (before ++ rest))) rest =
      some [before ++ Bytes.dropWhileRight isBlank rest] := by
  induction rest generalizing before with
  | nil =>
    rw [shortest, run_closing]
    simp [Bytes.dropWhileRight]
  | cons b rest ih =>
    rw [shortest, run_closing]
    cases hall : (b :: rest).all isBlank with
    | true => simp [dropWhileRight_blank hall]
    | false =>
      have hrest := ih (before ++ [b])
      rw [List.append_assoc, List.append_assoc] at hrest
      rw [dropWhileRight_cons hall]
      exact hrest

/-- What stands behind an equals sign. -/
def afterEquals? : Bytes → Option Bytes
  | 61 :: rest => some rest
  | _ => none

theorem afterEquals_cases (line : Bytes) :
    (∃ rest, line = 61 :: rest) ∨ afterEquals? line = none ∧ ∀ rest, line ≠ 61 :: rest := by
  unfold afterEquals?
  split
  · exact .inl ⟨_, rfl⟩
  · rename_i hne
    exact .inr ⟨rfl, hne⟩

theorem run_equals {told : Bytes → List Bytes} (h : ∀ rest, run items none rest = some (told rest))
    (line : Bytes) : run (literal "=" ++ items) none line = (afterEquals? line).map told := by
  rcases afterEquals_cases line with ⟨rest, rfl⟩ | ⟨hnone, hne⟩
  · exact h rest
  · rw [hnone, run_literal, if_neg]
    · rfl
    · intro hfront
      obtain ⟨rest, rfl⟩ := List.isPrefixOf_iff_prefix.1 hfront
      exact hne rest rfl

theorem captures_binding (line : Bytes) : captures? Line.bindingPattern line =
    if ((line.dropWhile isBlank).takeWhile isWordByte).isEmpty then none
    else (afterEquals? (((line.dropWhile isBlank).dropWhile isWordByte).dropWhile isBlank)).map
      fun rest => [(line.dropWhile isBlank).takeWhile isWordByte, trim rest] := by
  let expression := many .blank :: opening :: few .any :: closing :: Line.nothingPattern
  have hexpression (rest : Bytes) : run expression none rest = some [trim rest] :=
    longest_of_some (shortest_trimmed [] (rest.dropWhile isBlank))
  have hblank : Refuses (literal "=" ++ expression) isBlank :=
    refuses_literal rfl
  have hword : Refuses (many .blank :: (literal "=" ++ expression)) isWordByte := by
    refine refuses_many (fun b hb => isBlank_of_isWordByte hb) fun start b rest hb => ?_
    have hne : (61 == b) = false := by
      rw [beq_eq_false_iff_ne]
      rintro rfl
      cases hb
    rw [run_literal, if_neg]
    show ¬((61 == b) && _) = true
    simp [hne]
  have hgroup : Refuses (Line.wordGroup ++ (many .blank :: (literal "=" ++ expression))) isBlank :=
    refuses_group fun b hb => by
      cases hw : isWordByte b with
      | false => rfl
      | true => rw [isBlank_of_isWordByte hw] at hb; cases hb
  show run (many .blank :: (Line.wordGroup ++ (many .blank :: (literal "=" ++ expression)))) none
    line = _
  rw [run_blanks hgroup, run_group hword, run_blanks hblank, run_equals hexpression]
  split
  · rfl
  · cases afterEquals? (((line.dropWhile isBlank).dropWhile isWordByte).dropWhile isBlank) <;> rfl

/-! ## Reading a line -/

theorem captures_name {keyword : String} (hs : isSolid (text keyword) = true) (line : Bytes) :
    captures? (Line.namePattern keyword) line =
      (Line.afterKeyword? (text keyword) (line.dropWhile isBlank)).bind fun rest =>
        wordThen endThen (tokens rest) := by
  rw [← captures_afterKeyword hs tells_nothing.word, Line.namePattern]
  simp only [List.append_assoc, List.cons_append]

/-- An import under an alias of which the tokens are told by `read`. -/
theorem captures_under {under : List Item} {read : List Bytes → Option (List Bytes)}
    (h : Tells (more .blank :: (under ++ Line.nothingPattern)) read) (line : Bytes) :
    captures? (Line.underPattern under) line =
      (Line.afterKeyword? (text "import") (line.dropWhile isBlank)).bind fun rest =>
        wordThen (keywordThen (text "as") read) (tokens rest) := by
  have hkeyword : Tells
      (more .blank :: (literal "as" ++ more .blank :: (under ++ Line.nothingPattern)))
      (keywordThen (text "as") read) := h.keyword rfl
  rw [← captures_afterKeyword rfl hkeyword.word, Line.underPattern]
  simp only [List.append_assoc, List.cons_append]

theorem readPackage_eq
    (h : Line.afterKeyword? (text "package") (line.dropWhile isBlank) = some rest) :
    Line.readPackage line = Line.ofPackage rest := by
  unfold Line.readPackage Line.ofPackage
  rw [captures_name rfl, h, Option.bind_some]
  rcases tokens rest with - | ⟨name, - | ⟨b, more⟩⟩
  · rfl
  · cases hw : isWord name <;> simp [wordThen, endThen, hw]
  · cases hw : isWord name <;> simp [wordThen, endThen, hw]

theorem Alias.ofName_word (h : isWord name = true) : Alias.ofName name = .word name := by
  unfold Alias.ofName
  rw [if_neg]
  intro hdot
  rw [eq_of_beq hdot] at h
  cases h

theorem readImport_eq
    (h : Line.afterKeyword? (text "import") (line.dropWhile isBlank) = some rest) :
    Line.readImport line = Line.ofImport rest := by
  have hdot : text "." = [46] := rfl
  have hbare : Alias.ofName [46] = .bare := rfl
  have htells : Tells (more .blank :: (literal "." ++ Line.nothingPattern))
      (keywordThen (text ".") endThen) := tells_nothing.keyword rfl
  unfold Line.readImport Line.ofImport
  rw [captures_under tells_nothing.word, captures_under htells,
    captures_name rfl, h]
  simp only [Option.bind_some]
  rcases tokens rest with - | ⟨name, - | ⟨keyword, - | ⟨under, - | ⟨more, found⟩⟩⟩⟩
  · rfl
  · cases hw : isWord name <;> simp [wordThen, keywordThen, endThen, hw]
  · cases hw : isWord name <;> simp [wordThen, keywordThen, endThen, hw]
  · -- three tokens are an import under the last one, if the one between is the keyword
    by_cases hk : keyword = text "as"
    · cases hname : isWord name
      · simp [wordThen, hname]
      · cases hunder : isWord under
        · by_cases hu : under = [46]
          · subst hk hu
            simp [wordThen, keywordThen, endThen, hname, hunder, hdot, hbare]
          · simp [wordThen, keywordThen, endThen, hname, hunder, hk, hu, hdot]
        · simp [wordThen, keywordThen, endThen, hname, hunder, hk, Alias.ofName_word hunder]
    · simp [wordThen, keywordThen, endThen, hk]
  · cases hw : isWord name <;> simp [wordThen, keywordThen, endThen, hw]

theorem readBinding_eq (line : Bytes) :
    Line.readBinding line = Line.ofBinding (line.dropWhile isBlank) := by
  unfold Line.readBinding Line.ofBinding
  rw [captures_binding]
  generalize line.dropWhile isBlank = started
  dsimp only
  rcases afterEquals_cases ((started.dropWhile isWordByte).dropWhile isBlank) with
    ⟨rest, hrest⟩ | ⟨hnone, hne⟩
  · have hequals : afterEquals? (61 :: rest) = some rest := rfl
    rw [hrest, hequals]
    cases hname : (started.takeWhile isWordByte).isEmpty
    · cases htrim : trim rest <;> simp [htrim]
    · simp
  · rw [hnone]
    split
    · rename_i h
      split at h <;> cases h
    · split
      · rename_i rest h
        exact absurd h (hne rest)
      · rfl

/-- Trying the patterns in order reads a line by its tokens. -/
theorem classify_eq (line : Bytes) : Line.classify line = Line.byTokens line := by
  unfold Line.classify Line.byTokens
  rw [fits_nothing, fits_comment, fits_keyword rfl,
    fits_keyword rfl, readBinding_eq]
  dsimp only
  split
  · rfl
  · cases hp : Line.afterKeyword? (text "package") (line.dropWhile isBlank) with
    | some rest => simp [readPackage_eq hp]
    | none =>
      cases hi : Line.afterKeyword? (text "import") (line.dropWhile isBlank) with
      | some rest => simp [readImport_eq hi]
      | none => simp

end PatternEngine.Source
