import PatternEngine.Automaton.Build
/-!
# The weight of an automaton

Expressions whose automaton would take too much memory are refused. The weight is found from the
term alone, so nothing is built for an expression that is too heavy. Two automata count: the one
that matches forward and notes the groups, and one that reads backward and does not.
-/
namespace PatternEngine.Automaton

open PatternEngine.Expression

def nodeWeight : Nat := 32

def edgeWeight : Nat := 8

def wayWeight : Nat := 4

def weightLimit : Nat := 10 * Nat.pow 2 20

/-- The weight of a node that reads. A single edge is part of the node. -/
def readWeight (edges : Nat) : Nat :=
  if edges ≤ 1 then nodeWeight else nodeWeight + edgeWeight * edges

/-- The weight of a set, which ends in a node of its own. -/
def setWeight (set : Charset) : Nat := 2 * nodeWeight + edgeWeight * set.length

/-- The number of different beginnings of sequences in ascending order. -/
def beginnings : Sequence → List Sequence → Nat
  | _, [] => 0
  | before, s :: rest =>
    let shared := ((before.zip s).takeWhile fun (a, b) => a = b).length
    s.length - shared + beginnings s rest

def charsWeight (backward : Bool) (set : Charset) : Nat :=
  if set.isAscii then setWeight set
  else if backward then
    let found := sequences set
    2 * nodeWeight + wayWeight * found.length + nodeWeight * beginnings [] found
  else
    let (_, nodes) := (addChars set 0).run #[]
    nodes.foldl
      (fun weight node => match node with
        | .read edges => weight + nodeWeight + edgeWeight * edges.length
        | _ => weight)
      nodeWeight

def wordsWeight : Nat → List Bytes → Nat
  | 0, _ => 0
  | fuel + 1, words =>
    let found := blocks words
    let reading := found.filter fun block => !block.isEmpty
    let inner := reading.map fun block =>
      readWeight block.length + (block.map fun (_, tails) =>
        if allEmpty tails then 0 else wordsWeight fuel tails).sum
    nodeWeight + wayWeight * (reading.length + (found.length - 1)) + inner.sum

/-- The weight of a term on its own, and as the rest of a choice: the number of branches and
their weight together. -/
structure Weight where
  whole : Nat
  count : Nat
  sum : Nat

def Weight.single (whole : Nat) : Weight := ⟨whole, 1, whole⟩

/-- The weight of a repetition, from the weight of its body. -/
def iterateWeight (least : Nat) (most : Option Nat) (reads : Bool) (body : Nat) : Nat :=
  match least, most with
  | 0, some 1 => 2 * nodeWeight + 2 * wayWeight + body
  | 0, none =>
    if reads then nodeWeight + 2 * wayWeight + body
    else 3 * nodeWeight + 4 * wayWeight + body
  | n, none => n * body + nodeWeight + 2 * wayWeight
  | n, some m =>
    if n = m then n * body
    else
      (if n = 0 then nodeWeight else n * body) + nodeWeight +
        (m - n) * (nodeWeight + 2 * wayWeight + body)

def weigh (backward : Bool) : Term → Weight
  | .empty | .look _ => .single nodeWeight
  | .literal bytes => .single (nodeWeight * bytes.length)
  | .bytes set => .single (setWeight set)
  | .chars set => .single (charsWeight backward set)
  | .group _ body =>
    .single ((if backward then 0 else 2 * nodeWeight) + (weigh backward body).whole)
  | .seq head tail => .single ((weigh backward head).whole + (weigh backward tail).whole)
  | .choice first others =>
    let rest := weigh backward others
    let count := rest.count + 1
    let sum := (weigh backward first).whole + rest.sum
    let whole :=
      match words? (.choice first others) with
      | some words =>
        let words := if backward then words.map List.reverse else words
        nodeWeight + wordsWeight (longest words + 1) words
      | none => 2 * nodeWeight + wayWeight * count + sum
    ⟨whole, count, sum⟩
  | .iterate least most _ body =>
    .single (iterateWeight least most body.reads (weigh backward body).whole)

/-- The weight of what surrounds a term: the search for a place to start and the end. -/
def surroundings : Nat := 4 * nodeWeight + edgeWeight + 2 * wayWeight

/-- Whether a term is light enough to be built. -/
def fits (t : Term) : Bool :=
  surroundings + 2 * nodeWeight + (weigh false t).whole ≤ weightLimit &&
    surroundings + (weigh true t).whole ≤ weightLimit

end PatternEngine.Automaton
