import PatternEngine.Automaton.Basic
/-!
# Sets of characters as sequences of bytes

The UTF-8 forms of a range of characters are not a range of byte strings, but they can be cut
into pieces that are: each piece is a sequence of byte ranges, one for each byte of the form.
-/
namespace PatternEngine.Automaton

open PatternEngine.Expression

/-- A range of bytes for each place. -/
abbrev Sequence := List (UInt8 × UInt8)

/-- The largest code points of one, two and three bytes. -/
def lengthBounds : List Nat := [0x7F, 0x7FF, 0xFFFF]

/-- Where a range of code points has to be cut so that the part below is closer to being one
sequence: at the surrogates, where the length changes, and where the last bytes do not run
through all their values. The cut is given as the last of the lower and the first of the upper
part. -/
def cut? (lo hi : Nat) : Option (Nat × Nat) :=
  if lo < 0xE000 && 0xD7FF < hi then some (0xD7FF, 0xE000)
  else
    match lengthBounds.find? fun bound => lo ≤ bound && bound < hi with
    | some bound => some (bound, bound + 1)
    | none =>
      if hi ≤ 0x7F then none
      else
        [6, 12, 18].findSome? fun shift =>
          let unit := Nat.pow 2 shift
          if lo / unit == hi / unit then none
          else if lo % unit != 0 then some (lo / unit * unit + (unit - 1), (lo / unit + 1) * unit)
          else if hi % unit != unit - 1 then some (hi / unit * unit - 1, hi / unit * unit)
          else none

/-- The sequences of a range of characters, in ascending order. -/
def sequencesOf : Nat → Nat → Nat → List Sequence
  | 0, _, _ => []
  | fuel + 1, lo, hi =>
    if hi < lo then []
    else
      match cut? lo hi with
      | some (below, above) => sequencesOf fuel lo below ++ sequencesOf fuel above hi
      | none =>
        [(Text.Utf8.encode (Char.ofNat lo)).zip (Text.Utf8.encode (Char.ofNat hi))]

def sequences (set : Charset) : List Sequence :=
  set.flatMap fun (lo, hi) => sequencesOf 64 lo hi

/-- Neighbouring sequences that start with the same range, taken together. -/
def byFirst : List Sequence → List ((UInt8 × UInt8) × List Sequence)
  | [] => []
  | [] :: rest => byFirst rest
  | (range :: tail) :: rest =>
    match byFirst rest with
    | (range', tails) :: groups =>
      if range = range' then (range, tail :: tails) :: groups
      else (range, [tail]) :: (range', tails) :: groups
    | [] => [(range, [tail])]

end PatternEngine.Automaton
