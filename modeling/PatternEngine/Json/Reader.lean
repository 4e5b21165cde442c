import PatternEngine.Json
/-!
# Reading documents

A document of known form is read from left to right, and reading stops at the first thing that is
wrong. There are three ways to be wrong: the text is no JSON, it ends too early, or it is JSON of
another form.
-/
namespace PatternEngine.Json

/-- What is wrong with a document. -/
inductive Malformation where
  /-- the text is no JSON -/
  | grammar
  /-- the text ends too early -/
  | ending
  /-- the document has another form -/
  | form
  deriving DecidableEq, Repr

/-- Reading from the front of a text. -/
abbrev Reader := StateT Bytes (Except Malformation)

namespace Reader

def isBlank (b : UInt8) : Bool := b == 32 || b == 10 || b == 9 || b == 13

def isDigit (b : UInt8) : Bool := 48 ≤ b && b ≤ 57

def skipBlanks : Reader Unit := modify fun rest => rest.dropWhile isBlank

def peek : Reader (Option UInt8) := do return (← get).head?

/-- The next byte after blanks, which stays there. -/
def peekPast : Reader (Option UInt8) := do
  skipBlanks
  peek

def eat : Reader Unit := modify fun rest => rest.drop 1

def next : Reader (Option UInt8) := do
  let b ← peek
  eat
  return b

def word : Bytes → Reader Unit
  | [] => return
  | b :: rest => do
    match ← next with
    | none => throw .ending
    | some c => if b == c then word rest else throw .grammar

/-! ## Strings -/

def hexDigit? (b : UInt8) : Option Nat :=
  if isDigit b then some (b.toNat - 48)
  else if 97 ≤ b && b ≤ 102 then some (b.toNat - 87)
  else if 65 ≤ b && b ≤ 70 then some (b.toNat - 55)
  else none

def hexEscape : Reader Nat := do
  match ← get with
  | a :: b :: c :: d :: rest =>
    set rest
    match hexDigit? a, hexDigit? b, hexDigit? c, hexDigit? d with
    | some a, some b, some c, some d => return ((a * 16 + b) * 16 + c) * 16 + d
    | _, _, _, _ => throw .grammar
  | _ => throw .ending

/-- Reads one byte, which has to be this one. -/
def expectByte (b : UInt8) : Reader Unit := do
  match ← peek with
  | none => throw .ending
  | some c => if b == c then eat else throw .grammar

/-- Reads the number of a character; characters beyond 16 bits take two escapes. -/
def unicodeEscape : Reader Bytes := do
  let n ← hexEscape
  if 0xDC00 ≤ n && n ≤ 0xDFFF then throw .grammar
  if n < 0xD800 || 0xDBFF < n then return Text.Utf8.encode (Char.ofNat n)
  expectByte 0x5C
  expectByte 0x75
  let m ← hexEscape
  if m < 0xDC00 || 0xDFFF < m then throw .grammar
  return Text.Utf8.encode (Char.ofNat ((n - 0xD800) * 1024 + (m - 0xDC00) + 0x10000))

/-- The byte that a letter stands for after a backslash. -/
def plainEscape? (b : UInt8) : Option UInt8 :=
  if b == 0x22 || b == 0x5C || b == 0x2F then some b
  else if b == 0x62 then some 8
  else if b == 0x66 then some 12
  else if b == 0x6E then some 10
  else if b == 0x72 then some 13
  else if b == 0x74 then some 9
  else none

/-- Reads an escape after its backslash. Where the text is to be skipped, numbers need not be
those of characters. -/
def escape (skipped : Bool) : Reader Bytes := do
  match ← next with
  | none => throw .ending
  | some 0x75 => if skipped then let _ ← hexEscape; return [] else unicodeEscape
  | some b =>
    match plainEscape? b with
    | some c => return [c]
    | none => throw .grammar

/-- Reads to the closing quote; `read` holds what has been read, in reverse. -/
def stringBytes (skipped : Bool) : Nat → Bytes → Reader Bytes
  | 0, _ => throw .ending
  | fuel + 1, read => do
    match ← next with
    | none => throw .ending
    | some 0x22 => return read.reverse
    | some 0x5C =>
      let bytes ← escape skipped
      stringBytes skipped fuel (bytes.reverse ++ read)
    | some b => if b < 0x20 then throw .grammar else stringBytes skipped fuel (b :: read)

def string : Reader Bytes := do
  let bytes ← stringBytes false ((← get).length + 1) []
  if Text.Utf8.isValid bytes then return bytes else throw .grammar

def skipString : Reader Unit := do
  let _ ← stringBytes true ((← get).length + 1) []

/-! ## Numbers -/

def digits : Reader Bytes := do
  let rest ← get
  set (rest.dropWhile isDigit)
  return rest.takeWhile isDigit

/-- A number as it is written: an integer, or a number with a fraction or an exponent. -/
inductive Numeral where
  | natural (n : Nat)
  | other
  deriving DecidableEq

def valueOf (ds : Bytes) : Nat := ds.foldl (fun n d => n * 10 + (d.toNat - 48)) 0

/-- The greatest natural number that is kept exactly. -/
def maxNatural : Nat := Nat.pow 2 64 - 1

/-- Numbers from here on are too large to be read. -/
def tooLarge : Nat := Nat.pow 2 1024 - Nat.pow 2 970

/-- Whether `significand * 10 ^ exponent` is too large to be read. -/
def overflows (significand : Nat) (exponent : Int) : Bool :=
  significand != 0 && (308 < exponent ||
    match exponent with
    | .ofNat e => tooLarge ≤ significand * Nat.pow 10 e
    | .negSucc e => 400 < significand.log2 / 4 && tooLarge * Nat.pow 10 (e + 1) ≤ significand)

def exponent : Reader Int := do
  let negative ← match ← peek with
    | some 0x2D => do eat; pure true
    | some 0x2B => do eat; pure false
    | _ => pure false
  match ← peek with
  | none => throw .ending
  | some b =>
    if isDigit b then
      let n : Int := valueOf (← digits)
      return if negative then -n else n
    else throw .grammar

def numeral (positive : Bool) : Reader Numeral := do
  let whole ← match ← peek with
    | none => throw .ending
    | some b =>
      if isDigit b then digits else throw .grammar
  if 1 < whole.length && whole.head? == some 48 then throw .grammar
  let fraction ← match ← peek with
    | some 0x2E => do
      eat
      match ← digits with
      | [] => throw (if (← peek).isNone then .ending else .grammar)
      | ds => pure ds
    | _ => pure []
  let power ← match ← peek with
    | some 0x65 | some 0x45 => do
      eat
      pure (some (← exponent))
    | _ => pure none
  let significand := valueOf (whole ++ fraction)
  let isWhole := fraction.isEmpty && power.isNone
  if isWhole && significand ≤ maxNatural && positive then return .natural significand
  if overflows significand (power.getD 0 - fraction.length) then throw .grammar
  return .other

def skipNumeral : Reader Unit := do
  let whole ← digits
  if whole.isEmpty || (1 < whole.length && whole.head? == some 48) then throw .grammar
  if (← peek) == some 0x2E then
    eat
    if (← digits).isEmpty then throw .grammar
  if (← peek) == some 0x65 || (← peek) == some 0x45 then
    eat
    if (← peek) == some 0x2B || (← peek) == some 0x2D then eat
    if (← digits).isEmpty then throw .grammar

/-! ## Values of another form -/

/-- Reads a value that has another form than expected, as far as is needed to see that it is
well formed at all. -/
def unexpected {α : Type} : Reader α := do
  match ← peek with
  | some 0x6E => do eat; word (text "ull"); throw .form
  | some 0x74 => do eat; word (text "rue"); throw .form
  | some 0x66 => do eat; word (text "alse"); throw .form
  | some 0x2D => do eat; let _ ← numeral false; throw .form
  | some 0x22 => do eat; let _ ← string; throw .form
  | some 0x5B | some 0x7B => throw .form
  | some b => if isDigit b then do let _ ← numeral true; throw .form else throw .grammar
  | none => throw .grammar

/-- The failure at the end of an open array or object. -/
def separatorFailure : Option UInt8 → Malformation
  | none => .ending
  | some _ => .grammar

/-- Closes arrays and objects and skips the commas between values, after a value or (with
`fresh`) an opening bracket; `opened` holds the open brackets, innermost first. True when a value
has to follow. -/
def skipSeparators : Nat → Bool → List UInt8 → Reader (List UInt8)
  | 0, _, _ => throw .ending
  | _ + 1, _, [] => return []
  | fuel + 1, fresh, bracket :: opened => do
    match ← peekPast with
    | none => throw .ending
    | some b =>
      if b == (if bracket == 0x5B then 0x5D else 0x7D) then do
        eat
        skipSeparators fuel false opened
      else if fresh then return bracket :: opened
      else if b == 0x2C then do
        eat
        return bracket :: opened
      else throw .grammar

/-- Skips the name of a field and its colon. -/
def skipName : Reader Unit := do
  match ← peekPast with
  | some 0x22 => eat
  | other => throw (separatorFailure other)
  skipString
  match ← peekPast with
  | some 0x3A => eat
  | other => throw (separatorFailure other)

/-- Skips values until no bracket is open. -/
def skipValues : Nat → List UInt8 → Reader Unit
  | 0, _ => throw .ending
  | fuel + 1, opened => do
    let (fresh, opened) ← match ← peekPast with
      | none => throw .ending
      | some 0x6E => do eat; word (text "ull"); pure (false, opened)
      | some 0x74 => do eat; word (text "rue"); pure (false, opened)
      | some 0x66 => do eat; word (text "alse"); pure (false, opened)
      | some 0x2D => do eat; skipNumeral; pure (false, opened)
      | some 0x22 => do eat; skipString; pure (false, opened)
      | some b =>
        if b == 0x5B || b == 0x7B then do eat; pure (true, b :: opened)
        else if isDigit b then do skipNumeral; pure (false, opened)
        else throw .grammar
    match ← skipSeparators (opened.length + 1) fresh opened with
    | [] => return
    | bracket :: opened =>
      if bracket == 0x7B then skipName
      skipValues fuel (bracket :: opened)

def skipValue : Reader Unit := do skipValues ((← get).length + 1) []

/-! ## Arrays and records -/

/-- Whether another item follows in an array; `first` before the first one. -/
def moreItems (first : Bool) : Reader Bool := do
  match ← peekPast with
  | none => throw .ending
  | some 0x5D => return false
  | some b =>
    if first then return true
    else if b == 0x2C then
      eat
      match ← peekPast with
      | none => throw .ending
      | some 0x5D => throw .grammar
      | some _ => return true
    else throw .grammar

/-- Reads the bracket that closes an array. -/
def closeArray : Reader Unit := do
  match ← peekPast with
  | some 0x5D => eat
  | other => throw (separatorFailure other)

def items {α : Type} (item : Reader α) : Nat → Bool → Reader (List α)
  | 0, _ => throw .ending
  | fuel + 1, first => do
    if ← moreItems first then
      let a ← item
      return a :: (← items item fuel false)
    else return []

def array {α : Type} (item : Reader α) : Reader (List α) := do
  match ← peekPast with
  | none => throw .ending
  | some 0x5B =>
    eat
    let found ← items item ((← get).length + 1) true
    closeArray
    return found
  | some _ => unexpected

/-- A field of a record: its name, how its value is read, and whether it must be there. -/
structure Field (α : Type) where
  name : Bytes
  value : Reader α
  required : Bool

/-- Reads a record that is written as an array of its fields in order. -/
def positional {α : Type} : List (Field α) → Bool → Reader (List (Option α))
  | [], _ => return []
  | field :: fields, first => do
    if ← moreItems first then
      let value ← field.value
      return some value :: (← positional fields false)
    else if field.required then throw .form
    else return none :: (← positional fields first)

/-- Whether another field follows in an object; its opening quote is taken. -/
def moreFields (first : Bool) : Reader Bool := do
  match ← peekPast with
  | none => throw .ending
  | some 0x7D => return false
  | some b =>
    if first then
      if b == 0x22 then do eat; return true else throw .grammar
    else if b == 0x2C then
      eat
      match ← peekPast with
      | none => throw .ending
      | some 0x22 => do eat; return true
      | some _ => throw .grammar
    else throw .grammar

def colon : Reader Unit := do
  match ← peekPast with
  | some 0x3A => eat
  | other => throw (separatorFailure other)

/-- Reads the fields of an object. A field must not stand twice, and unknown ones are skipped. -/
def namedFields {α : Type} (fields : List (Field α)) :
    Nat → Bool → List (Bytes × α) → Reader (List (Bytes × α))
  | 0, _, _ => throw .ending
  | fuel + 1, first, found => do
    if ← moreFields first then
      let name ← string
      match fields.find? (·.name == name) with
      | none =>
        colon
        skipValue
        namedFields fields fuel false found
      | some field =>
        if (found.lookup name).isSome then throw .form
        colon
        let value ← field.value
        namedFields fields fuel false ((name, value) :: found)
    else return found

/-- The fields that were found, in order. -/
def arrange {α : Type} (found : List (Bytes × α)) : List (Field α) → Reader (List (Option α))
  | [] => return []
  | field :: fields => do
    match found.lookup field.name with
    | some value => return some value :: (← arrange found fields)
    | none =>
      if field.required then throw .form
      return none :: (← arrange found fields)

/-- Reads a record, written as an object or as an array. -/
def record {α : Type} (fields : List (Field α)) : Reader (List (Option α)) := do
  match ← peekPast with
  | none => throw .ending
  | some 0x5B =>
    eat
    let found ← positional fields true
    closeArray
    return found
  | some 0x7B =>
    eat
    let found ← arrange (← namedFields fields ((← get).length + 1) true []) fields
    eat
    return found
  | some _ => unexpected

/-! ## Plain values -/

def textValue : Reader Bytes := do
  match ← peekPast with
  | none => throw .ending
  | some 0x22 => do eat; string
  | some _ => unexpected

def naturalValue : Reader Nat := do
  match ← peekPast with
  | none => throw .ending
  | some b =>
    if isDigit b then
      match ← numeral true with
      | .natural n => return n
      | .other => throw .form
    else unexpected

def optional {α : Type} (value : Reader α) : Reader (Option α) := do
  match ← peekPast with
  | some 0x6E => do eat; word (text "ull"); return none
  | _ => return some (← value)

/-- Reads one of several names, alone or as the only field of an object with `null` for its
value. -/
def choice {α : Type} (ofName? : Bytes → Option α) : Reader α := do
  let named (name : Bytes) : Reader α :=
    match ofName? name with
    | some a => return a
    | none => throw .form
  match ← peekPast with
  | none => throw .ending
  | some 0x22 => do eat; named (← string)
  | some 0x7B => do
    eat
    let a ← named (← textValue)
    colon
    match ← peekPast with
    | none => throw .ending
    | some 0x6E => do eat; word (text "ull")
    | some _ => unexpected
    match ← peekPast with
    | some 0x7D => do eat; return a
    | other => throw (separatorFailure other)
  | some _ => throw .grammar

def readAll {α : Type} (reader : Reader α) (source : Bytes) : Except Malformation α := do
  let (a, rest) ← reader.run source
  if (rest.dropWhile isBlank).isEmpty then return a else throw .grammar

end Reader

end PatternEngine.Json
