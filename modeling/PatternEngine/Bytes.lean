/-!
# Byte strings

Everything the engine reads and writes is a string of bytes: expressions, inputs, file
contents, messages. They are plain lists, so every list lemma applies to them.
-/
namespace PatternEngine

/-- A string of bytes. -/
abbrev Bytes := List UInt8

/-- The UTF-8 bytes of a fixed text. -/
def text (s : String) : Bytes := s.toList.flatMap String.utf8EncodeChar

namespace Bytes

def newline : UInt8 := 10

/-- Lexicographic order on bytes. -/
def lessThan : Bytes → Bytes → Bool
  | [], [] => false
  | [], _ :: _ => true
  | _ :: _, [] => false
  | a :: as, b :: bs => if a < b then true else if b < a then false else lessThan as bs

/-- Decimal digits of a natural number, most significant first. -/
def ofNat (n : Nat) : Bytes := (Nat.toDigits 10 n).map fun c => c.toNat.toUInt8

def ofInt : Int → Bytes
  | .ofNat n => ofNat n
  | .negSucc n => 45 :: ofNat (n + 1)

/-- Pieces of the text between the occurrences of a separator byte; always at least one. -/
def splitOn (separator : UInt8) (bytes : Bytes) : List Bytes :=
  let (piece, pieces) := bytes.foldl
    (fun (piece, pieces) b =>
      if b == separator then ([], piece.reverse :: pieces) else (b :: piece, pieces))
    (([] : Bytes), ([] : List Bytes))
  (piece.reverse :: pieces).reverse

def join (separator : Bytes) : List Bytes → Bytes
  | [] => []
  | [piece] => piece
  | piece :: pieces => piece ++ separator ++ join separator pieces

/-- Drops the longest run of bytes at the end that satisfy `p`. -/
def dropWhileRight (p : UInt8 → Bool) (bytes : Bytes) : Bytes :=
  (bytes.reverse.dropWhile p).reverse

def insertSorted (b : Bytes) : List Bytes → List Bytes
  | [] => [b]
  | c :: cs => if lessThan b c then b :: c :: cs else c :: insertSorted b cs

def sort (strings : List Bytes) : List Bytes := strings.foldr insertSorted []

end Bytes

end PatternEngine
