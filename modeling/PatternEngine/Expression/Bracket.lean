import PatternEngine.Expression.Atom
/-!
# Bracketed sets

What stands between brackets: characters, ranges, named sets, nested brackets, and the set
operations `&&`, `--` and `~~`, which all bind alike and from left to right. Open brackets are
kept on a stack, so reading is one loop over the characters.
-/
namespace PatternEngine.Expression

open PatternEngine.Unicode

namespace Bracket

/-- A union being read: its elements so far, how many items it has, and how deep they nest. -/
structure Draft where
  elements : Charset := []
  items : Nat := 0
  deepest : Nat := 0

def Draft.add (d : Draft) (elements : Charset) (height : Nat) : Draft :=
  ⟨d.elements.union elements, d.items + 1, max d.deepest height⟩

/-- How deep a union nests: a union of one item is that item. -/
def Draft.height (d : Draft) : Nat := if 2 ≤ d.items then d.deepest + 1 else d.deepest

inductive Operation where
  | intersection
  | difference
  | symmetricDifference

/-- The result of an operation. When case is ignored both operands are folded first. -/
def Operation.apply (m : Mode) (op : Operation) (s t : Charset) : Charset :=
  let s := m.fold s
  let t := m.fold t
  match op with
  | .intersection => Charset.intersection m.last s t
  | .difference => Charset.difference m.last s t
  | .symmetricDifference => Charset.symmetricDifference m.last s t

/-- What is left to do when a bracket closes or an operand ends. -/
inductive Frame where
  /-- an open bracket inside the union `before` -/
  | bracket (negated : Bool) (before : Draft)
  /-- an operation that waits for its right operand -/
  | operation (op : Operation) (left : Charset) (height : Nat)

def closeOperand (m : Mode) (d : Draft) : List Frame → (Charset × Nat) × List Frame
  | .operation op left height :: frames =>
    ((op.apply m left d.elements, max height d.height + 1), frames)
  | frames => ((d.elements, d.height), frames)

/-- Reads the hyphens at the start of a bracket, which stand for themselves. -/
def hyphens (m : Mode) (d : Draft) : Nat → List Char → Option (Draft × List Char)
  | 0, _ => none
  | _ + 1, [] => none
  | fuel + 1, c :: rest =>
    if c == '-' then hyphens m (d.add (.single 45) 0) fuel (m.skip rest) else some (d, c :: rest)

/-- Reads the sign that negates a bracket, if it is there. -/
def negation (m : Mode) : List Char → Bool × List Char
  | '^' :: rest => (true, m.skip rest)
  | rest => (false, rest)

/-- A closing bracket in the first place stands for itself. -/
def firstClosing (m : Mode) (negated : Bool) (d : Draft) (rest : List Char) :
    Option ((Bool × Draft) × List Char) :=
  match rest with
  | ']' :: more =>
    if d.items == 0 then
      match m.skip more with
      | [] => none
      | more => some ((negated, d.add (.single 93) 0), more)
    else some ((negated, d), rest)
  | rest => some ((negated, d), rest)

/-- Reads the start of a bracket: `^`, hyphens, and a closing bracket in the first place. -/
def start (m : Mode) (rest : List Char) : Option ((Bool × Draft) × List Char) := do
  let (negated, rest) := negation m (m.skip rest)
  let (d, rest) ← hyphens m {} (rest.length + 1) rest
  firstClosing m negated d rest

/-- The sets with names between colons. -/
def named? (name : List Char) : Option Charset :=
  match String.ofList name with
  | "alnum" => some [(48, 57), (65, 90), (97, 122)]
  | "alpha" => some [(65, 90), (97, 122)]
  | "ascii" => some [(0, 127)]
  | "blank" => some [(9, 9), (32, 32)]
  | "cntrl" => some [(0, 31), (127, 127)]
  | "digit" => some [(48, 57)]
  | "graph" => some [(33, 126)]
  | "lower" => some [(97, 122)]
  | "print" => some [(32, 126)]
  | "punct" => some [(33, 47), (58, 64), (91, 96), (123, 126)]
  | "space" => some [(9, 13), (32, 32)]
  | "upper" => some [(65, 90)]
  | "word" => some [(48, 57), (65, 90), (95, 95), (97, 122)]
  | "xdigit" => some [(48, 57), (65, 70), (97, 102)]
  | _ => none

/-- Whether the name between colons is negated, and the name. -/
def sign : List Char → Bool × List Char
  | '^' :: rest => (true, rest)
  | rest => (false, rest)

def namedBody (m : Mode) (negated : Bool) (rest : List Char) : Option (Charset × List Char) :=
  match rest.dropWhile (· != ':') with
  | ':' :: ']' :: after => do
    let elements ← named? (rest.takeWhile (· != ':'))
    return (m.finish negated elements, after)
  | _ => none

/-- Reads a named set after its opening bracket; `none` when it is not one. -/
def namedSet (m : Mode) : List Char → Option (Charset × List Char)
  | ':' :: rest => namedBody m (sign rest).1 (sign rest).2
  | _ => none

def item (m : Mode) : List Char → Option (Atom × List Char)
  | [] => none
  | '\\' :: rest => Atom.escape m rest
  | c :: rest => some (.literal c false, rest)

/-- The number that a character stands for in a set. Sets of bytes hold ASCII characters and
bytes that are written as numbers. -/
def element? (m : Mode) : Atom → Option Nat
  | .literal c raw =>
    if m.unicode || c.toNat < 128 || (raw && c.toNat < 256) then some c.toNat else none
  | _ => none

def elements? (m : Mode) : Atom → Option Charset
  | .set elements => some elements
  | atom => (element? m atom).map .single

def rangeEnd (m : Mode) (first : Atom) (rest : List Char) : Option (Charset × List Char) := do
  let (second, rest) ← item m (m.skip rest)
  let lo ← element? m first
  let hi ← element? m second
  if lo ≤ hi then return ([(lo, hi)], rest) else none

/-- Reads what follows the first item: the end of a range, or what the item is part of. -/
def rangeFrom (m : Mode) (first : Atom) : List Char → Option (Charset × List Char)
  | [] => none
  | '-' :: more =>
    if m.peekPast more == some ']' || m.peekPast more == some '-' then do
      return (← elements? m first, '-' :: more)
    else rangeEnd m first more
  | rest => do return (← elements? m first, rest)

/-- Reads a character, a named set, or a range between two characters. -/
def range (m : Mode) (rest : List Char) : Option (Charset × List Char) := do
  let (first, rest) ← item m rest
  rangeFrom m first (m.skip rest)

def nestLimit : Nat := 250

def operator? : List Char → Option (Operation × List Char)
  | '&' :: '&' :: rest => some (.intersection, rest)
  | '-' :: '-' :: rest => some (.difference, rest)
  | '~' :: '~' :: rest => some (.symmetricDifference, rest)
  | _ => none

def loop (m : Mode) : Nat → List Frame → Draft → List Char → Option ((Charset × Nat) × List Char)
  | 0, _, _, _ => none
  | fuel + 1, frames, d, rest =>
    match m.skip rest with
    | [] => none
    | '[' :: rest =>
      match namedSet m rest with
      | some (elements, rest) => loop m fuel frames (d.add elements 0) rest
      | none =>
        if nestLimit < frames.length then none
        else do
          let ((negated, inner), rest) ← start m rest
          loop m fuel (.bracket negated d :: frames) inner rest
    | ']' :: rest =>
      match closeOperand m d frames with
      | ((elements, height), .bracket negated before :: frames) =>
        let elements := m.finish negated elements
        match frames with
        | [] => some ((elements, height + 1), rest)
        | frames => loop m fuel frames (before.add elements (height + 1)) rest
      | _ => none
    | rest =>
      match operator? rest with
      | some (op, rest) =>
        let ((left, height), frames) := closeOperand m d frames
        loop m fuel (.operation op left height :: frames) {} rest
      | none => do
        let (elements, rest) ← range m rest
        loop m fuel frames (d.add elements 0) rest

/-- Reads a set after its opening bracket, with how deep it nests. -/
def read (m : Mode) (rest : List Char) : Option ((Charset × Nat) × List Char) := do
  let ((negated, d), rest) ← start m rest
  loop m (rest.length + 1) [.bracket negated {}] d rest

end Bracket

end PatternEngine.Expression
