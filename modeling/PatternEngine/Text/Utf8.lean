import PatternEngine.Bytes
/-!
# UTF-8

Decoding runs one byte at a time: `step` either completes a character, waits for more bytes,
or gives up on the bytes seen so far. A byte string therefore splits into characters and
*maximal invalid sequences*, and the three readings below (`chars?`, `lossy`, `isValid`) are
all read off that one list of pieces.
-/
namespace PatternEngine.Text.Utf8

/-- What is expected next: the start of a character, or a byte in `lower..upper` that
continues one, with `more` further continuation bytes after it. -/
inductive Pending where
  | start
  | continuation (lower upper : UInt8) (more : Nat) (value : Nat)
  deriving Repr

/-- A piece of a byte string: a character, or `none` for a maximal invalid sequence. -/
abbrev Piece := Option Char

def first (b : UInt8) : Pending × List Piece :=
  let n := b.toNat
  if n < 0x80 then (.start, [some (Char.ofNat n)])
  else if n < 0xC2 then (.start, [none])
  else if n < 0xE0 then (.continuation 0x80 0xBF 0 (n - 0xC0), [])
  else if n == 0xE0 then (.continuation 0xA0 0xBF 1 (n - 0xE0), [])
  else if n == 0xED then (.continuation 0x80 0x9F 1 (n - 0xE0), [])
  else if n < 0xF0 then (.continuation 0x80 0xBF 1 (n - 0xE0), [])
  else if n == 0xF0 then (.continuation 0x90 0xBF 2 (n - 0xF0), [])
  else if n < 0xF4 then (.continuation 0x80 0xBF 2 (n - 0xF0), [])
  else if n == 0xF4 then (.continuation 0x80 0x8F 2 (n - 0xF0), [])
  else (.start, [none])

/-- Reads one byte. A byte that cannot continue the open character ends it as an invalid
sequence and is then read as the start of another. -/
def step : Pending → UInt8 → Pending × List Piece
  | .start, b => first b
  | .continuation lower upper more value, b =>
    if lower ≤ b && b ≤ upper then
      let value := value * 64 + (b.toNat - 0x80)
      match more with
      | 0 => (.start, [some (Char.ofNat value)])
      | more + 1 => (.continuation 0x80 0xBF more value, [])
    else
      let (pending, pieces) := first b
      (pending, none :: pieces)

/-- A character left open at the end is an invalid sequence. -/
def Pending.finish : Pending → List Piece
  | .start => []
  | .continuation .. => [none]

/-- The characters and maximal invalid sequences of a byte string, in order. -/
def pieces (bytes : Bytes) : List Piece :=
  let (pending, found) := bytes.foldl
    (fun (pending, found) b =>
      let (pending, new) := step pending b
      (pending, new.reverse ++ found))
    (Pending.start, ([] : List Piece))
  found.reverse ++ pending.finish

def encode (c : Char) : Bytes := String.utf8EncodeChar c

def ofChars (cs : List Char) : Bytes := cs.flatMap encode

/-- The characters of a byte string, when it is valid UTF-8. -/
def chars? (bytes : Bytes) : Option (List Char) := (pieces bytes).mapM id

def isValid (bytes : Bytes) : Bool := (pieces bytes).all Option.isSome

/-- The character that stands for an invalid sequence. -/
def replacement : Char := '\ufffd'

/-- The text of a byte string, with one replacement character for each maximal invalid
sequence. The result is always valid UTF-8. -/
def lossy (bytes : Bytes) : Bytes :=
  (pieces bytes).flatMap fun piece => encode (piece.getD replacement)

end PatternEngine.Text.Utf8
