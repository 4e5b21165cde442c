import PatternEngine.Automaton.Basic
/-!
# One-pass automata

An automaton is one-pass when the next byte always settles which way to take: no node is reached
in two ways without reading, and no byte leads on in two different ways. Such an automaton can be
run without keeping several ways open, as long as its table stays small.
-/
namespace PatternEngine.Automaton

open PatternEngine.Expression

namespace OnePass

def maxGroups : Nat := 16

def tableLimit : Nat := Nat.pow 2 20

/-- What is noted and required on the way to a node, as sets of bits. -/
structure Way where
  node : Nat
  notes : Nat
  conditions : Nat
  deriving DecidableEq

/-- A way on from one state of the table: the bytes, the node it leads to, and whether a match
was preferred to it. -/
structure Entry where
  edge : Edge
  way : Way
  afterMatch : Bool

/-- Whether two entries agree on every byte that both read. -/
def compatible (x y : Entry) : Bool :=
  x.edge.high < y.edge.low || y.edge.high < x.edge.low ||
    (x.edge.next == y.edge.next && x.way.notes == y.way.notes &&
      x.way.conditions == y.way.conditions && x.afterMatch == y.afterMatch)

/-- The bit of a condition; `none` for conditions that a table has no room for. -/
def lookBit? : Look → Option Nat
  | .textStart => some 0
  | .textEnd => some 1
  | .lineStart crlf => some (if crlf then 3 else 2)
  | .lineEnd crlf => some (if crlf then 5 else 4)
  | .word unicode .boundary => some (if unicode then 7 else 6)
  | .word unicode .interior => some (if unicode then 9 else 8)
  | .word _ _ => none

def addBit (bits bit : Nat) : Nat := bits ||| (1 <<< bit)

/-- The entries of one state; `none` when a node or a match is reached twice, or entries
conflict. -/
def entries (a : Automaton) :
    Nat → List Way → List Nat → Bool → List Entry → Option (List Entry)
  | 0, _, _, _, found => some found
  | _ + 1, [], _, _, found => some found
  | fuel + 1, w :: rest, seen, matched, found =>
    if seen.contains w.node then none
    else
      let seen := w.node :: seen
      match a.node w.node with
      | .accept => if matched then none else entries a fuel rest seen true found
      | .read edges =>
        let new := edges.map fun e => Entry.mk e w matched
        if new.all fun x => found.all (compatible x) then
          entries a fuel rest seen matched (new ++ found)
        else none
      | .look condition next => do
        let bit ← lookBit? condition
        entries a fuel (⟨next, w.notes, addBit w.conditions bit⟩ :: rest) seen matched found
      | .split nexts =>
        entries a fuel (nexts.map (⟨·, w.notes, w.conditions⟩) ++ rest) seen matched found
      | .enter group next =>
        entries a fuel (⟨next, addBit w.notes (2 * group), w.conditions⟩ :: rest) seen matched
          found
      | .leave group next =>
        entries a fuel (⟨next, addBit w.notes (2 * group + 1), w.conditions⟩ :: rest) seen
          matched found

/-- The nodes that start a state of the table; `none` when some state is not one-pass or there
are more than `room` of them. -/
def states (a : Automaton) (bound room : Nat) : Nat → List Nat → List Nat → Option (List Nat)
  | 0, _, _ => none
  | _ + 1, [], known => some known
  | fuel + 1, node :: rest, known => do
    let found ← entries a bound [⟨node, 0, 0⟩] [] false []
    let (rest, known) := found.foldl
      (fun (rest, known) (entry : Entry) =>
        if known.contains entry.edge.next then (rest, known)
        else (entry.edge.next :: rest, entry.edge.next :: known))
      (rest, known)
    if room < known.length then none else states a bound room fuel rest known

/-- The places between bytes where some node tells them apart: `b` stands for the place after
`b`. -/
def cuts (a : Automaton) : List Nat :=
  let range (low high : Nat) : List Nat := (if low = 0 then [] else [low - 1]) ++ [high]
  let found := a.nodes.toList.flatMap fun node => match node with
    | .read edges => edges.flatMap fun e => range e.low.toNat e.high.toNat
    | .look (.lineStart crlf) _ | .look (.lineEnd crlf) _ =>
      if crlf then range 10 10 ++ range 13 13 else range 10 10
    | .look (.word _ _) _ => range 48 57 ++ range 65 90 ++ range 95 95 ++ range 97 122
    | _ => []
  (found.filter (· < 255)).foldl (fun known c => if known.contains c then known else c :: known) []

/-- The size of one state of the table: a power of two with room for every class of bytes and
the match. -/
def stride (a : Automaton) : Nat :=
  let needed := (cuts a).length + 2
  if needed ≤ 1 then 1 else Nat.pow 2 ((needed - 1).log2 + 1)

end OnePass

/-- Whether a table for the automaton exists and is small enough; `groups` is the number of
capture groups. -/
def isOnePass (a : Automaton) (groups : Nat) : Bool :=
  let room := (OnePass.tableLimit - 8) / (8 * OnePass.stride a) - 1
  groups ≤ OnePass.maxGroups &&
    a.nodes.all (fun node => match node with
      | .look condition _ => (OnePass.lookBit? condition).isSome
      | _ => true) &&
    (OnePass.states a a.walkBound room (a.nodes.size + 1) [a.start] [a.start]).isSome

end PatternEngine.Automaton
