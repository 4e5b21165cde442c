import PatternEngine.Automaton.Basic
/-!
# Choices between words

A choice between literals is matched along their common beginnings. What remains of the words
after a byte is again a list of words in order of preference. An empty word among them is a
match, which is preferred to all words after it: it cuts the list into blocks.
-/
namespace PatternEngine.Automaton

/-- The words of one block by their first byte, in ascending order; words with one first byte
keep their order. -/
abbrev Block := List (UInt8 × List Bytes)

/-- Adds a word, in front of the others with its first byte. -/
def Block.insert (b : UInt8) (tail : Bytes) : Block → Block
  | [] => [(b, [tail])]
  | (c, tails) :: rest =>
    if b == c then (c, tail :: tails) :: rest
    else if b < c then (b, [tail]) :: (c, tails) :: rest
    else (c, tails) :: Block.insert b tail rest

/-- The blocks of a list of words; between any two of them there is a match. -/
def blocksOf : List Bytes → List Block
  | [] => [[]]
  | [] :: rest => [] :: blocksOf rest
  | (b :: tail) :: rest =>
    match blocksOf rest with
    | block :: blocks => Block.insert b tail block :: blocks
    | [] => [[(b, [tail])]]

/-- Drops repeated matches at the start, where nothing has been read between them. -/
def dropRepeats : List Bytes → List Bytes
  | [] :: [] :: rest => dropRepeats ([] :: rest)
  | words => words

/-- The blocks of the words that may follow at one place. -/
def blocks (words : List Bytes) : List Block := blocksOf (dropRepeats words)

def allEmpty (words : List Bytes) : Bool := words.all List.isEmpty

end PatternEngine.Automaton
