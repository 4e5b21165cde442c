import PatternEngine.Automaton.Position
/-!
# Searching

All ways through the automaton are followed at once, one byte of the input after the other. The
ways that are open at a position stand in order of preference; of two ways that reach one node
only the preferred goes on. When a way is accepted, those after it are given up, and those before
it may still win. So the search takes time in proportion to the input, and finds the match that
trying the ways one after the other would find.
-/
namespace PatternEngine.Automaton

/-- A range of positions of the input. -/
structure Span where
  start : Nat
  stop : Nat
  deriving DecidableEq, Repr

/-- What a way through the automaton has noted: where groups began, and the groups that have
ended, both newest first. -/
structure Notes where
  begun : List (Nat × Nat) := []
  ended : List (Nat × Span) := []

namespace Notes

def enter (notes : Notes) (group here : Nat) : Notes :=
  { notes with begun := (group, here) :: notes.begun }

/-- A group ends where it began or later, so what it matched is a span. -/
def leave (notes : Notes) (group here : Nat) : Notes :=
  match notes.begun.lookup group with
  | some start =>
    if start ≤ here then { notes with ended := (group, ⟨start, here⟩) :: notes.ended } else notes
  | none => notes

/-- What a group matched last. -/
def span? (notes : Notes) (group : Nat) : Option Span := notes.ended.lookup group

end Notes

structure Thread where
  place : Nat
  notes : Notes

/-- The ways found at one position. -/
structure Front where
  /-- the nodes that some way has come to: those marked with `stamp` -/
  marks : Array Nat
  stamp : Nat
  /-- the ways that wait to read a byte or are accepted, least preferred first -/
  threads : List Thread := []

namespace Front

def visited (f : Front) (i : Nat) : Bool := f.marks.getD i 0 == f.stamp

def visit (f : Front) (i : Nat) : Front := { f with marks := f.marks.setIfInBounds i f.stamp }

end Front

/-- Follows ways on without reading. The ways to follow stand in order of preference. -/
def follow (a : Automaton) (p : Position) (here : Nat) : Nat → List Thread → Front → Front
  | 0, _, f => f
  | _ + 1, [], f => f
  | fuel + 1, t :: rest, f =>
    if f.visited t.place then follow a p here fuel rest f
    else
      let f := f.visit t.place
      match a.node t.place with
      | .look condition next =>
        if p.holds condition then follow a p here fuel (⟨next, t.notes⟩ :: rest) f
        else follow a p here fuel rest f
      | .split nexts => follow a p here fuel (nexts.map (⟨·, t.notes⟩) ++ rest) f
      | .enter group next => follow a p here fuel (⟨next, t.notes.enter group here⟩ :: rest) f
      | .leave group next => follow a p here fuel (⟨next, t.notes.leave group here⟩ :: rest) f
      | .read _ | .accept => follow a p here fuel rest { f with threads := t :: f.threads }

def next? (b : UInt8) (edges : List Edge) : Option Nat :=
  (edges.find? fun e => e.low ≤ b && b ≤ e.high).map Edge.next

/-- What ways in order of preference come to: those before the first that is accepted, and its
notes. -/
def survivors (a : Automaton) : List Thread → List Thread × Option Notes
  | [] => ([], none)
  | t :: rest =>
    match a.node t.place with
    | .accept => ([], some t.notes)
    | _ =>
      let (threads, accepted) := survivors a rest
      (t :: threads, accepted)

/-- Reads one byte along all ways. -/
def advance (a : Automaton) (bound : Nat) (b : UInt8) (p : Position) (here : Nat)
    (threads : List Thread) (f : Front) : Front :=
  threads.foldl
    (fun f t =>
      match a.node t.place with
      | .read edges =>
        match next? b edges with
        | some next => follow a p here bound [⟨next, t.notes⟩] f
        | none => f
      | _ => f)
    f

/-- A match: where it ends, and what its groups matched. -/
structure Found where
  stop : Nat
  position : Position
  notes : Notes

/-- Reads on from a position with the ways open there; `best` is the match found so far. -/
def run (a : Automaton) (bound : Nat) (before : Bytes) (here : Nat) (threads : List Thread)
    (marks : Array Nat) (best : Option Found) : Bytes → Option Found
  | [] =>
    match (survivors a threads).2 with
    | some notes => some ⟨here, ⟨before, []⟩, notes⟩
    | none => best
  | b :: after =>
    let (threads, accepted) := survivors a threads
    let best := match accepted with
      | some notes => some ⟨here, ⟨before, b :: after⟩, notes⟩
      | none => best
    if threads.isEmpty then best
    else
      let f := advance a bound b ⟨b :: before, after⟩ (here + 1) threads ⟨marks, here + 2, []⟩
      run a bound (b :: before) (here + 1) f.threads.reverse f.marks best after

/-- The match that starts at a position; `before` is in reverse. -/
def search (a : Automaton) (before after : Bytes) : Option Found :=
  let here := before.length
  let bound := a.walkBound
  let f := follow a ⟨before, after⟩ here bound [⟨a.start, {}⟩]
    ⟨Array.replicate a.nodes.size 0, here + 1, []⟩
  run a bound before here f.threads.reverse f.marks none after

end PatternEngine.Automaton
