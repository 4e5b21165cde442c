import PatternEngine.Expression
/-!
# Automata

An automaton is an array of nodes that name each other by position. Nodes either read a byte or
pass on without reading; a node with several ways on prefers the earlier ones.
-/
namespace PatternEngine

open PatternEngine.Expression

namespace Automaton

/-- A way on that reads one byte of a range. -/
structure Edge where
  low : UInt8
  high : UInt8
  next : Nat
  deriving DecidableEq, Repr

inductive Node where
  /-- reads a byte; with no edge nothing can be read -/
  | read (edges : List Edge)
  /-- goes on where a condition holds -/
  | look (condition : Look) (next : Nat)
  /-- goes on in several ways, in order of preference -/
  | split (nexts : List Nat)
  /-- notes where a capture group begins -/
  | enter (group next : Nat)
  /-- notes where a capture group ends -/
  | leave (group next : Nat)
  /-- the whole has been matched -/
  | accept
  deriving DecidableEq, Repr

end Automaton

/-- A matching machine: its nodes and the one to start from. -/
structure Automaton where
  nodes : Array Automaton.Node
  start : Nat

namespace Automaton

/-- The node at a place; beyond the last one nothing can be read. -/
def node (a : Automaton) (i : Nat) : Node := a.nodes.getD i (.read [])

/-- Where a node leads without reading a byte. -/
def Node.passes : Node → List Nat
  | .read _ | .accept => []
  | .look _ next | .enter _ next | .leave _ next => [next]
  | .split nexts => nexts

/-- The number of steps after which a walk that visits no node twice has surely ended. -/
def walkBound (a : Automaton) : Nat :=
  a.nodes.foldl (fun n node => n + node.passes.length + 1) 1

end Automaton

end PatternEngine
