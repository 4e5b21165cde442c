import PatternEngine.Bytes
/-!
# Line patterns

The small patterns that a line is read with: classes of bytes, taken once, as often as possible or
as seldom as possible, and brackets around what is to be told. A pattern is tried from the start of
a line. Where a run can be taken in several ways they are tried one after the other, the longest or
the shortest first, until what follows fits as well.
-/
namespace PatternEngine.Source

-- the vertical tab is no blank
def isBlank (b : UInt8) : Bool := b == 32 || b == 9 || b == 10 || b == 12 || b == 13

def isWordByte (b : UInt8) : Bool :=
  (48 ≤ b && b ≤ 57) || (65 ≤ b && b ≤ 90) || b == 95 || (97 ≤ b && b ≤ 122)

/-- The classes `.`, `%s`, `[%w_]`, and a byte that stands for itself. -/
inductive ByteClass where
  | any
  | blank
  | word
  | byte (b : UInt8)
  deriving DecidableEq, Repr

def ByteClass.has : ByteClass → UInt8 → Bool
  | .any, _ => true
  | .blank, b => isBlank b
  | .word, b => isWordByte b
  | .byte c, b => b == c

/-- An item of a pattern: a class alone or with `*`, `+` or `-` behind it, a bracket, or the `$`
that stands for the end of the line. -/
inductive Item where
  | one (c : ByteClass)
  | many (c : ByteClass)
  | more (c : ByteClass)
  | few (c : ByteClass)
  | opening
  | closing
  | ending
  deriving DecidableEq, Repr

def Item.literal (s : String) : List Item := (text s).map fun b => .one (.byte b)

variable {α : Type}

/-- The longest run of a class behind which `next` succeeds. -/
def longest (c : ByteClass) (next : Bytes → Option α) : Bytes → Option α
  | [] => next []
  | b :: rest =>
    if c.has b then
      -- one byte more first; this run only if that leads nowhere
      (longest c next rest).or (next (b :: rest))
    else next (b :: rest)

/-- The shortest run of a class behind which `next` succeeds. -/
def shortest (c : ByteClass) (next : Bytes → Option α) : Bytes → Option α
  | [] => next []
  | b :: rest => (next (b :: rest)).or (if c.has b then shortest c next rest else none)

/-- Tries the items in order. `start` is what was left of the line at the open bracket; the result
is what stood between the brackets, in order. -/
def run : List Item → Option Bytes → Bytes → Option (List Bytes)
  | [], _, _ => some []
  | .one _ :: _, _, [] => none
  | .one c :: items, start, b :: rest => if c.has b then run items start rest else none
  | .many c :: items, start, rest => longest c (run items start) rest
  | .more _ :: _, _, [] => none
  | .more c :: items, start, b :: rest =>
    if c.has b then longest c (run items start) rest else none
  | .few c :: items, start, rest => shortest c (run items start) rest
  | .opening :: items, _, rest => run items (some rest) rest
  | .closing :: items, start, rest =>
    let opened := start.getD rest
    (run items none rest).map (opened.take (opened.length - rest.length) :: ·)
  | .ending :: items, start, rest => if rest.isEmpty then run items start rest else none

/-- What a line holds between the brackets of a pattern, if the pattern fits its start. -/
def captures? (pattern : List Item) (line : Bytes) : Option (List Bytes) := run pattern none line

def fits (pattern : List Item) (line : Bytes) : Bool := (captures? pattern line).isSome

end PatternEngine.Source
