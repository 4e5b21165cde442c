import PatternEngine.Expression.Bracket
/-!
# Expressions

Reading an expression: groups, choices, repetitions and switches around the atoms. Open groups
are kept on a stack, so reading is one loop over the characters, and the term is built as the
parts are read. An expression that nests too deeply is refused like one that is ill formed.
-/
namespace PatternEngine

open PatternEngine.Expression PatternEngine.Unicode

/-- An expression: what it matches, and the label of each capture group in order. -/
structure Expression where
  term : Term
  labels : List Bytes
  deriving Repr

namespace Expression

def nestLimit : Nat := 250

/-- The largest count a repetition may have. -/
def maxCount : Nat := Nat.pow 2 32 - 1

/-- A part of a sequence that has been read. -/
structure Part where
  term : Term
  /-- how deep it nests -/
  height : Nat
  /-- whether a repetition may follow; a switch is no operand -/
  operand : Bool := true

/-- What is put aside while a group is read. -/
structure Level where
  /-- the number of the group, if it captures -/
  index : Option Nat
  /-- the mode around the group -/
  mode : Mode
  /-- the parts before the group, newest first -/
  parts : List Part
  /-- the branches before those parts, newest first -/
  branches : List Part

/-- How far an expression has been read. -/
structure Progress where
  mode : Mode := {}
  /-- the parts of the open branch, newest first -/
  parts : List Part := []
  /-- the finished branches of the open group, newest first -/
  branches : List Part := []
  /-- the open groups, innermost first -/
  levels : List Level := []
  /-- the declared name of each capture group, newest first -/
  names : List (Option (List Char)) := []

/-- How deep several parts nest together; a single part stands for itself. -/
def combinedHeight (parts : List Part) : Nat :=
  let deepest := parts.foldl (fun h p => max h p.height) 0
  if 2 ≤ parts.length then deepest + 1 else deepest

namespace Progress

/-- Adds a part to the open branch, unless it nests too deeply. -/
def push (p : Progress) (part : Part) : Option Progress :=
  if nestLimit < part.height then none else some { p with parts := part :: p.parts }

def branch (p : Progress) : Part :=
  ⟨.concat (p.parts.reverse.map Part.term), combinedHeight p.parts, true⟩

/-- Everything in the open group as one part. -/
def body (p : Progress) : Part :=
  match p.branches with
  | [] => p.branch
  | branches =>
    let all := (p.branch :: branches).reverse
    ⟨.alternation (all.map Part.term), combinedHeight all, true⟩

def openGroup (p : Progress) (index : Option Nat) (mode : Mode) : Option Progress :=
  if nestLimit < p.levels.length then none
  else some { p with
    mode, parts := [], branches := [],
    levels := ⟨index, p.mode, p.parts, p.branches⟩ :: p.levels }

/-- Opens a capture group; the name must be new. -/
def openCapture (p : Progress) (name : Option (List Char)) : Option Progress :=
  if name.isSome && p.names.contains name then none
  else { p with names := name :: p.names }.openGroup (some (p.names.length + 1)) p.mode

/-- Closes the innermost group. -/
def closeGroup (p : Progress) : Option Progress :=
  match p.levels with
  | [] => none
  | level :: levels =>
    let body := p.body
    let term := match level.index with
      | some index => Term.group index body.term
      | none => body.term
    { p with mode := level.mode, parts := level.parts, branches := level.branches, levels }.push
      ⟨term, body.height + 1, true⟩

def nextBranch (p : Progress) : Progress :=
  { p with parts := [], branches := p.branch :: p.branches }

def repeatLast (p : Progress) (least : Nat) (most : Option Nat) (greedy : Bool) :
    Option Progress :=
  match p.parts with
  | part :: parts =>
    if part.operand then
      let greedy := greedy != p.mode.swapGreed
      { p with parts }.push
        ⟨.iterated least most greedy part.term, part.height + 1, true⟩
    else none
  | [] => none

def pushAtom (p : Progress) : Atom → Option Progress
  | .literal c raw => p.push ⟨p.mode.literal c raw, 0, true⟩
  | .look condition => p.push ⟨.look condition, 0, true⟩
  | .set elements => p.push ⟨p.mode.setTerm elements, 0, true⟩

end Progress

/-- A repetition takes as little as it can when a question mark follows it. -/
def lazyMark : List Char → Bool × List Char
  | '?' :: rest => (false, rest)
  | rest => (true, rest)

def count (m : Mode) (rest : List Char) : Option (Nat × List Char) :=
  let rest := rest.dropWhile isWhiteSpace
  let (digits, rest) := m.span Char.isDigit (rest.length + 1) rest
  let n := digits.foldl (fun n c => n * 10 + (c.toNat - 48)) 0
  if digits.isEmpty || maxCount < n then none else some (n, rest.dropWhile isWhiteSpace)

def closeCounts (m : Mode) (least most : Nat) : List Char → Option ((Nat × Option Nat) × List Char)
  | '\x7d' :: rest => if least ≤ most then some ((least, some most), m.skip rest) else none
  | _ => none

def upperCount (m : Mode) (least : Nat) : List Char → Option ((Nat × Option Nat) × List Char)
  | '\x7d' :: rest => some ((least, none), m.skip rest)
  | rest => do
    let (most, rest) ← count m rest
    closeCounts m least most rest

/-- Reads what follows the first count of a repetition. -/
def countsFrom (m : Mode) (least : Nat) : List Char → Option ((Nat × Option Nat) × List Char)
  | ',' :: rest => upperCount m least (m.skip rest)
  | rest => closeCounts m least least rest

/-- Reads the counts of a repetition after the opening brace. -/
def counts (m : Mode) (rest : List Char) : Option ((Nat × Option Nat) × List Char) := do
  let (least, rest) ← count m (m.skip rest)
  countsFrom m least rest

def isNameChar (first : Bool) (c : Char) : Bool :=
  c == '_' || (if first then isAlphabetic c
    else c == '.' || c == '[' || c == ']' || isAlphanumeric c)

def isGroupName : List Char → Bool
  | [] => false
  | c :: more => isNameChar true c && more.all (isNameChar false)

def closeName (name : List Char) : List Char → Option (List Char × List Char)
  | '>' :: rest => if isGroupName name then some (name, rest) else none
  | _ => none

def groupName (rest : List Char) : Option (List Char × List Char) :=
  closeName (rest.takeWhile (· != '>')) (rest.dropWhile (· != '>'))

def setSwitch (m : Mode) (value : Bool) : Char → Option Mode
  | 'i' => some { m with ignoreCase := value }
  | 'm' => some { m with multiLine := value }
  | 's' => some { m with dotAll := value }
  | 'U' => some { m with swapGreed := value }
  | 'u' => some { m with unicode := value }
  | 'R' => some { m with crlf := value }
  | 'x' => some { m with verbose := value }
  | _ => none

/-- Reads switches up to a colon or a closing parenthesis. No letter may stand twice, nor the
hyphen that turns off what follows it, and something must follow it. -/
def switches (m : Mode) (value : Bool) (seen : List Char) :
    List Char → Option ((Mode × List Char) × List Char)
  | [] => none
  | c :: rest =>
    if c == ':' || c == ')' then
      if seen.head? == some '-' then none else some ((m, seen), c :: rest)
    else if seen.contains c then none
    else if c == '-' then switches m false (c :: seen) rest
    else do switches (← setSwitch m value c) value (c :: seen) rest

/-- What the next characters of an expression ask for. -/
inductive Move where
  | atom (a : Atom)
  /-- a set in brackets, and how deep it nests -/
  | bracket (elements : Charset) (height : Nat)
  /-- opens a capture group -/
  | capture (name : Option (List Char))
  /-- opens a group that does not capture -/
  | enter (mode : Mode)
  /-- sets switches up to the end of the group -/
  | switch (mode : Mode)
  | close
  | branch
  | repeated (least : Nat) (most : Option Nat) (greedy : Bool)

def Move.run (p : Progress) : Move → Option Progress
  | .atom a => p.pushAtom a
  | .bracket elements height => p.push ⟨p.mode.setTerm elements, height, true⟩
  | .capture name => p.openCapture name
  | .enter mode => p.openGroup none mode
  | .switch mode => { p with mode }.push ⟨.empty, 0, false⟩
  | .close => p.closeGroup
  | .branch => some p.nextBranch
  | .repeated least most greedy => p.repeatLast least most greedy

/-- A repetition with these counts, greedy or not. -/
def repetition (least : Nat) (most : Option Nat) (rest : List Char) : Move × List Char :=
  let (greedy, rest) := lazyMark rest
  (.repeated least most greedy, rest)

/-- What switches are for: what follows them in the group, or a group of their own. -/
def switched (mode : Mode) (seen : List Char) : List Char → Option (Move × List Char)
  | ')' :: rest => if seen.isEmpty then none else some (.switch mode, rest)
  | rest => some (.enter mode, rest.drop 1)

/-- Reads what follows an opening parenthesis and a question mark. There is no look-around: its
signs are neither switches nor the start of a name. -/
def readMarked (m : Mode) : List Char → Option (Move × List Char)
  | 'P' :: '<' :: rest | '<' :: rest =>
    (groupName rest).map fun (name, rest) => (.capture (some name), rest)
  | rest => do
    let ((mode, seen), rest) ← switches m true [] rest
    switched mode seen rest

def readGroup (m : Mode) (rest : List Char) : Option (Move × List Char) :=
  match m.skip rest with
  | '?' :: rest => readMarked m rest
  | rest => some (.capture none, rest)

def readMove (m : Mode) : List Char → Option (Move × List Char)
  | [] => none
  | c :: rest =>
    match c with
    | '(' => readGroup m rest
    | ')' => some (.close, rest)
    | '|' => some (.branch, rest)
    | '[' => do
      let ((elements, height), rest) ← Bracket.read m rest
      return (.bracket elements height, rest)
    | '?' => some (repetition 0 (some 1) rest)
    | '*' => some (repetition 0 none rest)
    | '+' => some (repetition 1 none rest)
    | '\x7b' => do
      let ((least, most), rest) ← counts m rest
      return repetition least most rest
    | '\\' => (Atom.escape m rest).map fun (atom, rest) => (.atom atom, rest)
    | '.' => some (.atom (.set m.dot), rest)
    | '^' => some (.atom (.look m.caret), rest)
    | '$' => some (.atom (.look m.dollar), rest)
    | c => some (.atom (.literal c false), rest)

def step (p : Progress) (rest : List Char) : Option (Progress × List Char) := do
  let (move, rest) ← readMove p.mode rest
  return (← move.run p, rest)

def readAll : Nat → Progress → List Char → Option Progress
  | 0, _, _ => none
  | fuel + 1, p, rest =>
    match p.mode.skip rest with
    | [] => some p
    | rest => do
      let (p, rest) ← step p rest
      readAll fuel p rest

/-- The labels of groups: their names, or else their numbers. -/
def labelsOf (names : List (Option (List Char))) : List Bytes :=
  names.zipIdx.map fun (name, i) =>
    match name with
    | some name => Text.Utf8.ofChars name
    | none => Bytes.ofNat (i + 1)

/-- The expression that a text describes, if it is well formed. -/
def ofChars? (chars : List Char) : Option Expression := do
  let p ← readAll (chars.length + 1) {} chars
  let body := p.body
  if p.levels.isEmpty && body.height ≤ nestLimit then
    return ⟨body.term, labelsOf p.names.reverse⟩
  else none

end Expression

end PatternEngine
