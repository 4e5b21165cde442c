import PatternEngine.Expression.Charset
/-!
# Packed sets of code points

Tables of character properties are written as text: one word for each range, `gap.length`, both
in base 36, with blanks or line ends between the words. The gap is counted from the end of the
range before, and a range of one code point leaves out its length.
-/
namespace PatternEngine.Unicode

open PatternEngine.Expression

def digit36 (c : Char) : Nat := if c.toNat < 58 then c.toNat - 48 else c.toNat - 87

def number36 (cs : List Char) : Nat := cs.foldl (fun n c => n * 36 + digit36 c) 0

def separates (c : Char) : Bool := c == ' ' || c == '\n'

/-- The words of a table's text. -/
def words (cs : List Char) : List (List Char) :=
  let (word, found) := cs.foldr
    (fun c (word, found) => if separates c then ([], word :: found) else (c :: word, found))
    (([] : List Char), ([] : List (List Char)))
  (word :: found).filter (· != [])

/-- Reads the ranges of a table from the code point `start` on. -/
def rangesFrom (start : Nat) : List (List Char) → Charset
  | [] => []
  | word :: rest =>
    let lo := start + number36 (word.takeWhile (· != '.'))
    let hi := lo + number36 ((word.dropWhile (· != '.')).drop 1)
    (lo, hi) :: rangesFrom (hi + 1) rest

/-- The set that a table describes. -/
def unpack (table : String) : Charset := rangesFrom 0 (words table.toList)

end PatternEngine.Unicode
