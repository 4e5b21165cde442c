/-!
# Sets of code points

A set is a list of closed ranges in ascending order, no two of which touch, so equal sets are
equal lists. Sets of bytes and sets of characters differ only in the largest element, which
`complement` takes as an argument.
-/
namespace PatternEngine.Expression

/-- A set of numbers, as ascending ranges with a gap between any two of them. -/
abbrev Charset := List (Nat × Nat)

namespace Charset

def maxByte : Nat := 0xFF

def maxChar : Nat := 0x10FFFF

/-- Adds a range; ranges that it meets or touches become one with it. -/
def insert (lo hi : Nat) : Charset → Charset
  | [] => [(lo, hi)]
  | (a, b) :: rest =>
    if hi + 1 < a then (lo, hi) :: (a, b) :: rest
    else if b + 1 < lo then (a, b) :: insert lo hi rest
    else insert (min lo a) (max hi b) rest

/-- The set of the numbers in any of these ranges, in any order. -/
def ofRanges (ranges : List (Nat × Nat)) : Charset :=
  ranges.foldr (fun (lo, hi) set => insert lo hi set) []

def single (n : Nat) : Charset := [(n, n)]

def union (s t : Charset) : Charset := s.foldr (fun (lo, hi) set => insert lo hi set) t

/-- The numbers from `start` to `last` outside a set. -/
def complementFrom (last : Nat) (start : Nat) : Charset → Charset
  | [] => if start ≤ last then [(start, last)] else []
  | (a, b) :: rest =>
    let tail := complementFrom last (b + 1) rest
    if start < a then (start, a - 1) :: tail else tail

/-- The numbers up to `last` outside a set. -/
def complement (last : Nat) (s : Charset) : Charset := complementFrom last 0 s

def intersection (last : Nat) (s t : Charset) : Charset :=
  complement last (union (complement last s) (complement last t))

def difference (last : Nat) (s t : Charset) : Charset :=
  intersection last s (complement last t)

/-- The numbers in exactly one of two sets. -/
def symmetricDifference (last : Nat) (s t : Charset) : Charset :=
  difference last (union s t) (intersection last s t)

def contains (s : Charset) (n : Nat) : Bool := s.any fun (a, b) => a ≤ n && n ≤ b

def isAscii (s : Charset) : Bool := s.all fun (_, b) => b < 0x80

/-- The part of a range that lies within another, moved up or down. -/
def shifted (lo hi : Nat) (shift : Nat → Nat) (range : Nat × Nat) : List (Nat × Nat) :=
  let a := max lo range.1
  let b := min hi range.2
  if a ≤ b then [(shift a, shift b)] else []

/-- Adds the other case of every ASCII letter in a set. -/
def foldAscii (s : Charset) : Charset :=
  union s (ofRanges
    (s.flatMap (shifted 65 90 (· + 32)) ++ s.flatMap (shifted 97 122 (· - 32))))

def single? : Charset → Option Nat
  | [(a, b)] => if a = b then some a else none
  | _ => none

end Charset

end PatternEngine.Expression
