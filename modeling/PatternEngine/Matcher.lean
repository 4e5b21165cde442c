import PatternEngine.Automaton.Weight
import PatternEngine.Automaton.Search
import PatternEngine.Automaton.OnePass
/-!
# Matchers

A matcher is a compiled expression under a name. It matches at one place of an input: the match
starts exactly there, but conditions see the bytes before it.
-/
namespace PatternEngine

open PatternEngine.Expression PatternEngine.Automaton

/-- A range of positions of an input, counted from zero; the stop is not part of it. -/
abbrev Span := Automaton.Span

def Span.slice (span : Span) (input : Bytes) : Bytes :=
  (input.drop span.start).take (span.stop - span.start)

/-- A compiled expression (`Peg`). -/
structure Matcher where
  name : Bytes
  labels : List Bytes
  automaton : Automaton
  /-- whether the expression can match the empty string -/
  nullable : Bool
  /-- whether the expression has groups, or conditions on words of characters -/
  tracked : Bool

/-- A capture group that took part in a match. -/
structure Capture where
  name : Bytes
  span : Span
  deriving DecidableEq, Repr

/-- A match: the range of the whole and the groups that took part, in order. -/
structure Match where
  span : Span
  captures : List Capture
  deriving DecidableEq, Repr

inductive Rejection where
  | notText
  | malformed
  | tooLarge
  deriving DecidableEq, Repr

namespace Rejection

def message : Rejection → Bytes
  | .notText => text "expression is not valid UTF-8"
  | .malformed => text "error parsing pattern 0"
  | .tooLarge => text "error building NFA"

end Rejection

/-- The index of a position that is counted from one (`start_index`). Positions below one count as
one; there is none past the end of the input. -/
def startIndex (start : Int) (length : Nat) : Option Nat :=
  let index := (max start 1 - 1).toNat
  if index ≤ length then some index else none

namespace Matcher

/-- Compiles the source of an expression (`compile`). -/
def compile (source name : Bytes) : Except Rejection Matcher :=
  match Text.Utf8.chars? source with
  | none => .error .notText
  | some chars =>
    match Expression.ofChars? chars with
    | none => .error .malformed
    | some e =>
      if Automaton.fits e.term then
        .ok {
          name
          labels := e.labels
          automaton := Automaton.ofTerm e.term
          nullable := e.term.nullable
          tracked := e.term.hasGroup || e.term.anyLook fun
            | .word unicode _ => unicode
            | _ => false }
      else .error .tooLarge

/-- Whether a match may end where it does. A matcher that can match nothing must not end inside a
character; a one-pass matcher with groups is only kept from matching nothing there. -/
def admits (m : Matcher) (start : Nat) (found : Found) : Bool :=
  !m.nullable || found.position.isBoundary ||
    (found.stop != start && m.tracked && m.automaton.isOnePass m.labels.length)

/-- The groups that took part, with their labels. -/
def captures (m : Matcher) (notes : Notes) : List Capture :=
  m.labels.zipIdx.filterMap fun (label, i) => (notes.span? (i + 1)).map (⟨label, ·⟩)

/-- The match that starts at an index of the input (`find`). -/
def find (m : Matcher) (input : Bytes) (start : Nat) : Option Match :=
  match m.automaton.search (input.take start).reverse (input.drop start) with
  | some found =>
    if m.admits start found then some ⟨⟨start, found.stop⟩, m.captures found.notes⟩ else none
  | none => none

end Matcher

end PatternEngine
