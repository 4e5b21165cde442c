import PatternEngine.Expression.Charset
import PatternEngine.Text.Utf8
/-!
# Terms

A term says which byte strings an expression matches and in which order of preference. Terms
are built with the smart constructors `set`, `iterated`, `concat` and `alternation`, which keep
them in a normal form: literals that follow each other are one literal, sequences and choices
are flat, a choice between single characters is a set, and what can only match the empty string
is never repeated. The normal form is not only tidy: the priorities of empty repetitions and
the size of the automaton depend on it.
-/
namespace PatternEngine.Expression

/-- Which side of a word an assertion asks about. -/
inductive WordEdge where
  /-- a word on one side only -/
  | boundary
  /-- a word on both sides or on none -/
  | interior
  /-- a word begins here -/
  | start
  /-- a word ends here -/
  | finish
  /-- no word on the left -/
  | startHalf
  /-- no word on the right -/
  | finishHalf
  deriving DecidableEq, Repr

/-- A condition on a position, which consumes nothing. -/
inductive Look where
  | textStart
  | textEnd
  | lineStart (crlf : Bool)
  | lineEnd (crlf : Bool)
  | word (unicode : Bool) (edge : WordEdge)
  deriving DecidableEq, Repr

/-- An expression, taken apart. Sequences and choices are nested to the right. -/
inductive Term where
  | empty
  | literal (bytes : Bytes)
  /-- one byte of a set; no byte at all is in the empty set -/
  | bytes (set : Charset)
  /-- one character of a set, in UTF-8 -/
  | chars (set : Charset)
  | look (condition : Look)
  | iterate (least : Nat) (most : Option Nat) (greedy : Bool) (body : Term)
  | group (index : Nat) (body : Term)
  | seq (head tail : Term)
  | choice (first others : Term)
  deriving DecidableEq, Repr

namespace Term

def fail : Term := .bytes []

def width (n : Nat) : Nat := (Text.Utf8.encode (Char.ofNat n)).length

/-- The fewest bytes a term can match; `none` when some part can never match. -/
def minLength : Term → Option Nat
  | .empty | .look _ => some 0
  | .literal b => some b.length
  | .bytes [] | .chars [] => none
  | .bytes _ => some 1
  | .chars ((a, _) :: _) => some (width a)
  | .iterate least _ _ body => body.minLength.map (least * ·)
  | .group _ body => body.minLength
  | .seq head tail => do return (← head.minLength) + (← tail.minLength)
  | .choice first others => do return min (← first.minLength) (← others.minLength)

/-- The most bytes a term can match; `none` when there is no bound or it can never match. -/
def maxLength : Term → Option Nat
  | .empty | .look _ => some 0
  | .literal b => some b.length
  | .bytes [] | .chars [] => none
  | .bytes _ => some 1
  | .chars ((a, b) :: rest) => some (width (((a, b) :: rest).getLast (by simp)).2)
  | .iterate _ most _ body => do return (← most) * (← body.maxLength)
  | .group _ body => body.maxLength
  | .seq head tail => do return (← head.maxLength) + (← tail.maxLength)
  | .choice first others => do return max (← first.maxLength) (← others.maxLength)

/-- Whether a match is known to take at least one byte. -/
def reads (t : Term) : Bool := (t.minLength.getD 0) != 0

/-- Whether the empty string is matched, all conditions granted. -/
def nullable : Term → Bool
  | .empty | .look _ => true
  | .literal _ | .bytes _ | .chars _ => false
  | .iterate least _ _ body => least == 0 || body.nullable
  | .group _ body => body.nullable
  | .seq head tail => head.nullable && tail.nullable
  | .choice first others => first.nullable || others.nullable

def hasGroup : Term → Bool
  | .empty | .look _ | .literal _ | .bytes _ | .chars _ => false
  | .iterate _ _ _ body => body.hasGroup
  | .group .. => true
  | .seq head tail => head.hasGroup || tail.hasGroup
  | .choice first others => first.hasGroup || others.hasGroup

def anyLook (p : Look → Bool) : Term → Bool
  | .look l => p l
  | .empty | .literal _ | .bytes _ | .chars _ => false
  | .iterate _ _ _ body => body.anyLook p
  | .group _ body => body.anyLook p
  | .seq head tail => head.anyLook p || tail.anyLook p
  | .choice first others => first.anyLook p || others.anyLook p

/-- The parts of a sequence; the empty term is the sequence of none. -/
def parts : Term → List Term
  | .empty => []
  | .seq head tail => head :: tail.parts
  | t => [t]

/-- The branches of a choice; any other term is its own only branch. -/
def branches : Term → List Term
  | .choice first others => first :: others.branches
  | t => [t]

/-- The sequence of these parts, as they are. -/
def ofParts : List Term → Term
  | [] => .empty
  | [t] => t
  | t :: ts => .seq t (ofParts ts)

/-- The choice between these branches, as they are. -/
def ofBranches : List Term → Term
  | [] => fail
  | [t] => t
  | t :: ts => .choice t (ofBranches ts)

/-- Puts a part in front of a sequence; two literals become one. -/
def consPart : Term → List Term → List Term
  | .literal a, .literal b :: rest => .literal (a ++ b) :: rest
  | t, rest => t :: rest

def concat (terms : List Term) : Term :=
  ofParts ((terms.flatMap parts).foldr consPart [])

def byteSet (set : Charset) : Term :=
  match set.single? with
  | some n => .literal [n.toUInt8]
  | none => .bytes set

def charSet (set : Charset) : Term :=
  match set with
  | [] => fail
  | set =>
    match set.single? with
    | some n => .literal (Text.Utf8.encode (Char.ofNat n))
    | none => .chars set

/-- A term repeated. What matches only the empty string is repeated at most once, for another
round could not make a difference. -/
def iterated (least : Nat) (most : Option Nat) (greedy : Bool) (body : Term) : Term :=
  let (least, most) :=
    if body.maxLength == some 0 then (min least 1, some (min (most.getD 1) 1)) else (least, most)
  if most == some 0 && least == 0 then .empty
  else if most == some 1 && least == 1 then body
  else .iterate least most greedy body

/-- The character that a literal consists of. -/
def char? : Term → Option Nat
  | .literal b =>
    match Text.Utf8.chars? b with
    | some [c] => some c.toNat
    | _ => none
  | _ => none

/-- The byte that a literal consists of. -/
def byte? : Term → Option Nat
  | .literal [b] => some b.toNat
  | _ => none

/-- The characters of a term that is a set of characters, or of ASCII bytes. -/
def charset? : Term → Option Charset
  | .chars set => some set
  | .bytes set => if set.isAscii then some set else none
  | _ => none

/-- The bytes of a term that is a set of bytes, or of ASCII characters. -/
def byteset? : Term → Option Charset
  | .bytes set => some set
  | .chars set => if set.isAscii then some set else none
  | _ => none

/-- The set that branches amount to when each is one character or one byte. -/
def asSet (branches : List Term) : Option Term :=
  if let some singles := branches.mapM char? then
    some (charSet (Charset.ofRanges (singles.map fun c => (c, c))))
  else if let some singles := branches.mapM byte? then
    some (byteSet (Charset.ofRanges (singles.map fun b => (b, b))))
  else if let some sets := branches.mapM charset? then
    some (charSet (sets.foldl Charset.union []))
  else if let some sets := branches.mapM byteset? then
    some (byteSet (sets.foldl Charset.union []))
  else none

def commonPrefix : List Term → List Term → List Term
  | a :: as, b :: bs => if a = b then a :: commonPrefix as bs else []
  | _, _ => []

/-- The parts with which all branches start, when every branch is a sequence. -/
def sharedParts : List Term → List Term
  | [] => []
  | first :: others =>
    if (first :: others).all fun t => 2 ≤ t.parts.length then
      others.foldl (fun shared t => commonPrefix shared t.parts) first.parts
    else []

/-- The choice between flat branches, as a set if it is one. -/
def choose (branches : List Term) : Term :=
  match branches with
  | [] => fail
  | [t] => t
  | branches => (asSet branches).getD (ofBranches branches)

/-- The first of these terms that matches. What all branches start with is taken out. -/
def alternation (terms : List Term) : Term :=
  let flat := terms.flatMap branches
  match flat with
  | [] => fail
  | [t] => t
  | flat =>
    match asSet flat with
    | some set => set
    | none =>
      match sharedParts flat with
      | [] => ofBranches flat
      | shared =>
        let rests := flat.map fun t => concat (t.parts.drop shared.length)
        concat (shared ++ [choose (rests.flatMap branches)])

end Term

end PatternEngine.Expression
