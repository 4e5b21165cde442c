import PatternEngine.Automaton.Basic
/-!
# Conditions on a position

A position is the input cut in two. The bytes before it are kept in reverse, so that the
neighbours of the cut are the heads of both lists.
-/
namespace PatternEngine.Automaton

open PatternEngine.Expression

/-- A place in an input: what stands before it, in reverse, and what stands after it. -/
structure Position where
  before : Bytes
  after : Bytes

namespace Position

def isWordByte (b : UInt8) : Bool :=
  (48 ≤ b && b ≤ 57) || (65 ≤ b && b ≤ 90) || b == 95 || (97 ≤ b && b ≤ 122)

/-- Whether a byte cannot be the continuation of a character. -/
def isLeading (b : UInt8) : Bool := b < 0x80 || 0xC0 ≤ b

def decodeFirst? (bytes : Bytes) : Option Char :=
  match Text.Utf8.pieces (bytes.take 4) with
  | some c :: _ => some c
  | _ => none

/-- The character that starts at the last leading byte before the position, among the last four
bytes. -/
def charBefore? (p : Position) : Option Char :=
  let rec find : Nat → Bytes → Bytes → Bytes
    | 0, found, _ => found
    | _ + 1, found, [] => found
    | n + 1, found, b :: rest => if isLeading b then b :: found else find n (b :: found) rest
  decodeFirst? (find 4 [] p.before)

def charAfter? (p : Position) : Option Char := decodeFirst? p.after

/-- What stands on one side of a position, as far as words go: nothing or no word, a word, or
bytes that are no character. -/
inductive Side where
  | other
  | word
  | malformed
  deriving DecidableEq

/-- The side that a byte shows. -/
def byteSide (b : Option UInt8) : Side := if b.any isWordByte then .word else .other

/-- The side that a character shows, if there are any bytes. -/
def charSide (bytes : Bytes) (c : Option Char) : Side :=
  if bytes.isEmpty then .other
  else
    match c with
    | none => .malformed
    | some c => if Unicode.isWord c then .word else .other

def sideBefore (unicode : Bool) (p : Position) : Side :=
  if unicode then charSide p.before p.charBefore? else byteSide p.before.head?

def sideAfter (unicode : Bool) (p : Position) : Side :=
  if unicode then charSide p.after p.charAfter? else byteSide p.after.head?

/-- Whether a condition on words holds between two sides. Bytes that are no character are no
word; conditions that could hold for want of a word fail beside them. -/
def wordHolds (edge : WordEdge) (before after : Side) : Bool :=
  match edge with
  | .boundary => (before == .word) != (after == .word)
  | .interior => before != .malformed && after != .malformed && (before == after)
  | .start => before != .word && after == .word
  | .finish => before == .word && after != .word
  | .startHalf => before == .other
  | .finishHalf => after == .other

def atLineStart (crlf : Bool) (p : Position) : Bool :=
  match p.before with
  | [] => true
  | b :: _ => b == 10 || (crlf && b == 13 && p.after.head? != some 10)

def atLineEnd (crlf : Bool) (p : Position) : Bool :=
  match p.after with
  | [] => true
  | b :: _ =>
    if crlf then b == 13 || (b == 10 && p.before.head? != some 13) else b == 10

def holds (p : Position) : Look → Bool
  | .textStart => p.before.isEmpty
  | .textEnd => p.after.isEmpty
  | .lineStart crlf => p.atLineStart crlf
  | .lineEnd crlf => p.atLineEnd crlf
  | .word unicode edge => wordHolds edge (p.sideBefore unicode) (p.sideAfter unicode)

/-- Whether no character of the input is cut here: what follows is not its continuation. -/
def isBoundary (p : Position) : Bool := p.after.head?.all isLeading

end Position

end PatternEngine.Automaton
