import PatternEngine.Automaton.Sequences
import PatternEngine.Automaton.Words
/-!
# Building an automaton

A term is built from its end: given the place where the match goes on, nodes are added that match
the term and then go there. Only a repetition refers forward, to a node that is filled in once
its body has been built.
-/
namespace PatternEngine.Automaton

open PatternEngine.Expression

/-- Adding nodes to an automaton. -/
abbrev Build := StateM (Array Node)

def add (node : Node) : Build Nat := fun nodes => (nodes.size, nodes.push node)

def fill (i : Nat) (node : Node) : Build Unit := fun nodes => ((), nodes.setIfInBounds i node)

/-- A place to go on in one of several ways. -/
def addSplit : List Nat → Build Nat
  | [next] => pure next
  | nexts => add (.split nexts)

def addLiteral (bytes : Bytes) (next : Nat) : Build Nat :=
  bytes.foldrM (fun b next => add (.read [⟨b, b, next⟩])) next

def addSet (set : Charset) (next : Nat) : Build Nat :=
  add (.read (set.map fun (a, b) => ⟨a.toUInt8, b.toUInt8, next⟩))

/-- The nodes that were added for the ends of sequences, so that equal ends share one node. -/
abbrev Shared := List (List Edge × Nat)

/-- Reads one of these sequences of bytes. -/
def addSequences (next : Nat) : Nat → List Sequence → StateT Shared Build Nat
  | 0, _ => pure next
  | fuel + 1, found => do
    let edges ← (byFirst found).mapM fun ((low, high), tails) => do
      let target ← if tails.all List.isEmpty then pure next else addSequences next fuel tails
      pure (⟨low, high, target⟩ : Edge)
    match (← get).lookup edges with
    | some i => pure i
    | none =>
      let i ← add (.read edges)
      modify ((edges, i) :: ·)
      pure i

def addChars (set : Charset) (next : Nat) : Build Nat :=
  if set.isAscii then addSet set next
  else do return (← (addSequences next 4 (sequences set)).run []).1

def addWords (next : Nat) : Nat → List Bytes → Build Nat
  | 0, _ => pure next
  | fuel + 1, words => do
    let ways ← (blocks words).mapM fun block => do
      if block.isEmpty then return []
      let edges ← block.mapM fun (b, tails) => do
        let target ← if allEmpty tails then pure next else addWords next fuel tails
        pure (⟨b, b, target⟩ : Edge)
      return [← add (.read edges)]
    addSplit ([next].intercalate ways)

/-- The words of a choice between literals only. -/
def words? (t : Term) : Option (List Bytes) :=
  t.branches.mapM fun
    | .literal b => some b
    | _ => none

def longest (words : List Bytes) : Nat := words.foldl (fun n w => max n w.length) 0

/-- A place to repeat a body or to go on. -/
def addRepeat (greedy : Bool) (body next : Nat) : List Nat :=
  if greedy then [body, next] else [next, body]

/-- How a term is matched: on its own, and as the rest of a choice. -/
structure Fragment where
  whole : Nat → Build Nat
  branches : Nat → Build (List Nat)

def Fragment.single (whole : Nat → Build Nat) : Fragment :=
  ⟨whole, fun next => do return [← whole next]⟩

/-- Matches a fragment a number of times. -/
def Fragment.exactly (f : Fragment) : Nat → Nat → Build Nat
  | 0, next => pure next
  | n + 1, next => do f.exactly n (← f.whole next)

/-- Matches a fragment at most a number of times; after each time it may go on to `next`. -/
def Fragment.atMost (f : Fragment) (greedy : Bool) (next : Nat) : Nat → Build Nat
  | 0 => pure next
  | n + 1 => do
    let body ← f.whole (← f.atMost greedy next n)
    add (.split (addRepeat greedy body next))

/-- Matches a fragment once or more. -/
def Fragment.oneOrMore (f : Fragment) (greedy : Bool) (next : Nat) : Build Nat := do
  let again ← add (.split [])
  let body ← f.whole again
  fill again (.split (addRepeat greedy body next))
  return body

/-- Matches a fragment any number of times. A body that may be empty is matched once or more, or
not at all; otherwise its empty match would be preferred wrongly. -/
def Fragment.anyNumber (f : Fragment) (greedy reads : Bool) (next : Nat) : Build Nat := do
  if reads then
    let again ← add (.split [])
    let body ← f.whole again
    fill again (.split (addRepeat greedy body next))
    return again
  else
    let body ← f.oneOrMore greedy next
    add (.split (addRepeat greedy body next))

def fragment : Term → Fragment
  | .empty => .single pure
  | .literal bytes => .single (addLiteral bytes)
  | .bytes set => .single (addSet set)
  | .chars set => .single (addChars set)
  | .look condition => .single fun next => add (.look condition next)
  | .group index body => .single fun next => do
    let inside ← (fragment body).whole (← add (.leave index next))
    add (.enter index inside)
  | .seq head tail => .single fun next => do
    (fragment head).whole (← (fragment tail).whole next)
  | .choice first others =>
    let branches next := do
      let way ← (fragment first).whole next
      return way :: (← (fragment others).branches next)
    let whole next :=
      match words? (.choice first others) with
      | some words => addWords next (longest words + 1) words
      | none => do addSplit (← branches next)
    ⟨whole, branches⟩
  | .iterate least most greedy body => .single fun next =>
    let f := fragment body
    match least, most with
    | 0, none => f.anyNumber greedy body.reads next
    | n + 1, none => do f.exactly n (← f.oneOrMore greedy next)
    | least, some most => do f.exactly least (← f.atMost greedy next (most - least))

def ofTerm (t : Term) : Automaton :=
  let (start, nodes) := (do (fragment t).whole (← add .accept) : Build Nat).run #[]
  ⟨nodes, start⟩

end PatternEngine.Automaton
