import PatternEngine.Expression.Mode
/-!
# Atoms

The smallest parts of an expression: a character, a condition, or a named set. What follows a
backslash is read here; it is the same inside and outside of brackets.
-/
namespace PatternEngine.Expression

open PatternEngine.Unicode

/-- The smallest parts of an expression. -/
inductive Atom where
  /-- a character; `raw` when it was written as the number of a byte -/
  | literal (c : Char) (raw : Bool)
  | look (condition : Look)
  | set (elements : Charset)

namespace Atom

def hexValue? (c : Char) : Option Nat :=
  if '0' ≤ c && c ≤ '9' then some (c.toNat - 48)
  else if 'a' ≤ c && c ≤ 'f' then some (c.toNat - 87)
  else if 'A' ≤ c && c ≤ 'F' then some (c.toNat - 55)
  else none

/-- The character of a number, if there is one. -/
def scalar? (n : Nat) : Option Char :=
  if h : n.isValidChar then some (Char.ofNatAux n h) else none

def hexFixed (m : Mode) (value : Nat) : Nat → List Char → Option (Nat × List Char)
  | 0, rest => some (value, rest)
  | _ + 1, [] => none
  | n + 1, c :: rest => do
    let d ← hexValue? c
    hexFixed m (value * 16 + d) n (m.skip rest)

/-- Reads hexadecimal digits up to a closing brace. -/
def hexBraced (m : Mode) (value : Nat) (empty : Bool) : Nat → List Char → Option (Nat × List Char)
  | 0, _ => none
  | fuel + 1, rest =>
    match rest with
    | [] => none
    | c :: rest =>
      if c == '\x7d' then if empty then none else some (value, m.skip rest)
      else do
        let d ← hexValue? c
        hexBraced m (value * 16 + d) false fuel (m.skip rest)

def hexPlain (m : Mode) (digits : Nat) (rest : List Char) : Option (Atom × List Char) := do
  let (n, rest) ← hexFixed m 0 digits rest
  return (.literal (← scalar? n) (digits == 2), rest)

/-- Reads the number of a character after `\x`, `\u` or `\U`. -/
def hex (m : Mode) (digits : Nat) (rest : List Char) : Option (Atom × List Char) :=
  match m.skip rest with
  | '\x7b' :: rest => do
    let rest := m.skip rest
    let (n, rest) ← hexBraced m 0 true (rest.length + 1) rest
    return (.literal (← scalar? n) false, rest)
  | rest => hexPlain m digits rest

/-- A property's name as it is compared: lower case, without separators and a leading `is`. -/
def normalName (name : List Char) : String :=
  let lower := name.map Char.toLower
  let (prefixed, body) := match lower with
    | 'i' :: 's' :: body => (true, body)
    | body => (false, body)
  let body := body.filter fun c => c.toNat < 128 && c != ' ' && c != '_' && c != '-'
  if prefixed && body == ['c'] then "isc" else String.ofList body

def plainProperty? (name : String) : Option Charset :=
  property? name <|> Category.named? name <|> Script.named? name

def valuedProperty? (name value : String) : Option Charset :=
  if name == "gc" || name == "generalcategory" then Category.named? value
  else if name == "sc" || name == "script" || name == "scx" || name == "scriptextensions" then
    Script.named? value
  else none

def splitAt? (separator : List Char) : List Char → Option (List Char × List Char)
  | [] => none
  | c :: rest =>
    if separator.isPrefixOf (c :: rest) then some ([], (c :: rest).drop separator.length)
    else (splitAt? separator rest).map fun (before, after) => (c :: before, after)

/-- The set that a property's text in braces names, and whether the text negates it. -/
def property (name : List Char) : Option (Charset × Bool) :=
  match splitAt? ['!', '='] name, splitAt? [':'] name, splitAt? ['='] name with
  | some (n, v), _, _ => (valuedProperty? (normalName n) (normalName v)).map (·, true)
  | none, some (n, v), _ => (valuedProperty? (normalName n) (normalName v)).map (·, false)
  | none, none, some (n, v) => (valuedProperty? (normalName n) (normalName v)).map (·, false)
  | none, none, none => (plainProperty? (normalName name)).map (·, false)

def bracedName (m : Mode) : Nat → List Char → Option (List Char × List Char)
  | 0, _ => none
  | _ + 1, [] => none
  | fuel + 1, c :: rest =>
    if c == '\x7d' then some ([], rest)
    else do
      let (name, rest) ← bracedName m fuel (m.skip rest)
      return (c :: name, rest)

def bracedSet (m : Mode) (negated : Bool) (rest : List Char) : Option (Atom × List Char) := do
  let (name, rest) ← bracedName m (rest.length + 1) (m.skip rest)
  let (elements, flipped) ← property name
  return (.set (m.finish (negated != flipped) elements), rest)

def letterSet (m : Mode) (negated : Bool) : List Char → Option (Atom × List Char)
  | [] => none
  | c :: rest => do
    let elements ← plainProperty? (normalName [c])
    return (.set (m.finish negated elements), m.skip rest)

/-- Reads the property after `\p` or `\P`. There are properties in Unicode mode only. -/
def unicodeSet (m : Mode) (negated : Bool) (rest : List Char) : Option (Atom × List Char) :=
  if m.unicode then
    match m.skip rest with
    | '\x7b' :: rest => bracedSet m negated rest
    | rest => letterSet m negated rest
  else none

/-- The characters that name a special condition on words. -/
def isEdgeChar (c : Char) : Bool := c.isAlpha || c == '-'

/-- The special condition on words with a name in braces. -/
def edgeOf : List Char × List Char → Option (WordEdge × List Char)
  | (name, '\x7d' :: after) =>
    if name == "start".toList then some (.start, after)
    else if name == "end".toList then some (.finish, after)
    else if name == "start-half".toList then some (.startHalf, after)
    else if name == "end-half".toList then some (.finishHalf, after)
    else none
  | _ => none

/-- Reads what follows `\b`: a special condition in braces, or nothing. Braces that do not start
with a letter belong to a repetition. -/
def wordEdge (m : Mode) (rest : List Char) : Option (WordEdge × List Char) :=
  match rest with
  | '\x7b' :: inner =>
    match m.skip inner with
    | [] => none
    | c :: more =>
      if isEdgeChar c then edgeOf (m.span isEdgeChar (more.length + 2) (c :: more))
      else some (.boundary, rest)
  | rest => some (.boundary, rest)

/-- Whether a character may stand for itself after a backslash: no letter, no digit, nothing
beyond ASCII, and not one of `<` and `>`, which are conditions on words. -/
def isEscapable (c : Char) : Bool :=
  c.toNat < 128 && !c.isAlphanum && c != '<' && c != '>'

def escape (m : Mode) : List Char → Option (Atom × List Char)
  | [] => none
  | c :: rest =>
    match c with
    | 'x' => hex m 2 rest
    | 'u' => hex m 4 rest
    | 'U' => hex m 8 rest
    | 'p' => unicodeSet m false rest
    | 'P' => unicodeSet m true rest
    | 'd' => some (.set m.digits, rest)
    | 'D' => some (.set (m.complement m.digits), rest)
    | 's' => some (.set m.spaces, rest)
    | 'S' => some (.set (m.complement m.spaces), rest)
    | 'w' => some (.set m.words, rest)
    | 'W' => some (.set (m.complement m.words), rest)
    | 'a' => some (.literal '\x07' false, rest)
    | 'f' => some (.literal '\x0c' false, rest)
    | 't' => some (.literal '\t' false, rest)
    | 'n' => some (.literal '\n' false, rest)
    | 'r' => some (.literal '\r' false, rest)
    | 'v' => some (.literal '\x0b' false, rest)
    | 'A' => some (.look .textStart, rest)
    | 'z' => some (.look .textEnd, rest)
    | 'b' => (wordEdge m rest).map fun (edge, rest) => (.look (.word m.unicode edge), rest)
    | 'B' => some (.look (.word m.unicode .interior), rest)
    | '<' => some (.look (.word m.unicode .start), rest)
    | '>' => some (.look (.word m.unicode .finish), rest)
    | c => if isEscapable c then some (.literal c false, rest) else none

end Atom

end PatternEngine.Expression
