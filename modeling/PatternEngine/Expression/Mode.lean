import PatternEngine.Expression.Term
import PatternEngine.Unicode.Property
import PatternEngine.Unicode.Folding
import PatternEngine.Unicode.Script
/-!
# Modes

How an expression is read depends on seven switches, which it can set for itself: `(?i)` and the
like. A mode is a setting of all of them. Expressions start in byte mode, where sets are sets of
bytes; with `u` on, sets are sets of characters.
-/
namespace PatternEngine.Expression

open PatternEngine.Unicode

/-- The switches of an expression; all are off at its start. -/
structure Mode where
  /-- `i`: letters of both cases match -/
  ignoreCase : Bool := false
  /-- `m`: `^` and `$` match at every line -/
  multiLine : Bool := false
  /-- `s`: the dot also matches what ends a line -/
  dotAll : Bool := false
  /-- `U`: repetitions take as little as they can -/
  swapGreed : Bool := false
  /-- `u`: sets hold characters, not bytes -/
  unicode : Bool := false
  /-- `R`: lines end with `\r`, `\n` or both -/
  crlf : Bool := false
  /-- `x`: blanks and comments are skipped -/
  verbose : Bool := false
  deriving DecidableEq, Repr

namespace Mode

/-- Drops blanks and comments; a comment runs from `#` to the end of its line. -/
def skipFrom (inComment : Bool) : List Char → List Char
  | [] => []
  | c :: rest =>
    if inComment then skipFrom (c != '\n') rest
    else if isWhiteSpace c then skipFrom false rest
    else if c == '#' then skipFrom true rest
    else c :: rest

/-- Drops blanks and comments where they mean nothing. -/
def skip (m : Mode) (rest : List Char) : List Char :=
  if m.verbose then skipFrom false rest else rest

/-- Reads characters as long as they satisfy `p`, and skips what means nothing after each. -/
def span (m : Mode) (p : Char → Bool) : Nat → List Char → List Char × List Char
  | 0, rest => ([], rest)
  | _ + 1, [] => ([], [])
  | fuel + 1, c :: rest =>
    if p c then
      let (run, rest) := m.span p fuel (m.skip rest)
      (c :: run, rest)
    else ([], c :: rest)

/-- The first character after the next one that is not skipped. Of a comment only the sign that
starts it is skipped here. -/
def peekPast (m : Mode) (rest : List Char) : Option Char :=
  if m.verbose then
    match rest.dropWhile isWhiteSpace with
    | [] => rest.head?
    | c :: more =>
      if c == '#' then
        match more.dropWhile isWhiteSpace with
        | [] => rest.head?
        | d :: _ => some d
      else some c
  else rest.head?

def last (m : Mode) : Nat := if m.unicode then Charset.maxChar else Charset.maxByte

/-- The elements that a set lacks. Surrogates are no characters. -/
def complement (m : Mode) (s : Charset) : Charset :=
  (Charset.complement m.last s).filterMap fun (a, b) =>
    let a := if 0xD800 ≤ a && a ≤ 0xDFFF then 0xE000 else a
    let b := if 0xD800 ≤ b && b ≤ 0xDFFF then 0xD7FF else b
    if a ≤ b then some (a, b) else none

/-- Adds the other cases of the elements when case is ignored. -/
def fold (m : Mode) (s : Charset) : Charset :=
  if !m.ignoreCase then s else if m.unicode then Folding.close s else s.foldAscii

/-- What a set stands for: folded, then complemented when it is negated. -/
def finish (m : Mode) (negated : Bool) (s : Charset) : Charset :=
  if negated then m.complement (m.fold s) else m.fold s

def setTerm (m : Mode) (s : Charset) : Term := if m.unicode then .charSet s else .byteSet s

/-- A character standing for itself. With `raw`, it was written as the number of a byte, and
outside of Unicode it is that byte. -/
def literal (m : Mode) (c : Char) (raw : Bool) : Term :=
  if raw && !m.unicode && 0x80 ≤ c.toNat then .literal [c.toNat.toUInt8]
  else if !m.ignoreCase then .literal (Text.Utf8.encode c)
  else if m.unicode then .charSet (m.fold (.single c.toNat))
  else if c.isAlpha then .byteSet (m.fold (.single c.toNat))
  else .literal (Text.Utf8.encode c)

def dot (m : Mode) : Charset :=
  m.complement <| if m.dotAll then [] else if m.crlf then [(10, 10), (13, 13)] else [(10, 10)]

def caret (m : Mode) : Look := if m.multiLine then .lineStart m.crlf else .textStart

def dollar (m : Mode) : Look := if m.multiLine then .lineEnd m.crlf else .textEnd

def digits (m : Mode) : Charset := if m.unicode then decimal else [(48, 57)]

def spaces (m : Mode) : Charset := if m.unicode then whiteSpace else [(9, 13), (32, 32)]

def words (m : Mode) : Charset :=
  if m.unicode then word else [(48, 57), (65, 90), (95, 95), (97, 122)]

end Mode

end PatternEngine.Expression
