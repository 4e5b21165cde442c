import PatternEngine.Text.Utf8
import PatternEngine.Unicode.Category
/-!
# Quoted text

A text in quotes, for a reader who wants to see every character of it. Quotes, backslashes and
control characters are escaped, and so is every character that shows nothing of its own or joins
the character before it; those are written as their code points.
-/
namespace PatternEngine.Text.Quoted

open PatternEngine.Expression PatternEngine.Unicode

/-- Characters with nothing to see: controls, blanks other than the space, and code points that
are unassigned or for private use. -/
def blank : Charset :=
  Charset.union (Charset.complement Charset.maxChar Category.assigned)
    (Charset.difference Charset.maxChar
      (Category.ofShorts ["cc", "cf", "co", "cs", "zl", "zp", "zs"]) (Charset.single 0x20))

/-- Characters that extend the one before them without being marks that take no room. -/
def extenders : Charset := [
  (0x9BE, 0x9BE), (0x9D7, 0x9D7), (0xB3E, 0xB3E), (0xB57, 0xB57), (0xBBE, 0xBBE), (0xBD7, 0xBD7),
  (0xCC2, 0xCC2), (0xCD5, 0xCD6), (0xD3E, 0xD3E), (0xD57, 0xD57), (0xDCF, 0xDCF),
  (0xDDF, 0xDDF), (0x1B35, 0x1B35), (0x302E, 0x302F), (0xFF9E, 0xFF9F), (0x1133E, 0x1133E),
  (0x11357, 0x11357), (0x114B0, 0x114B0), (0x114BD, 0x114BD), (0x115AF, 0x115AF),
  (0x11930, 0x11930), (0x1D165, 0x1D165), (0x1D16E, 0x1D172)]

/-- Characters that join the one before them. -/
def joining : Charset := Charset.union (Category.ofShorts ["me", "mn"]) extenders

/-- The characters that are written as their code points. -/
def hidden : Charset := Charset.union blank joining

/-- The letter after the backslash, for the characters that have one. -/
def letter? (c : Char) : Option Char :=
  [('\x00', '0'), ('\t', 't'), ('\n', 'n'), ('\r', 'r'), ('"', '"'), ('\\', '\\')].lookup c

def codePoint (c : Char) : List Char :=
  ['\\', 'u', '\x7b'] ++ Nat.toDigits 16 c.toNat ++ ['\x7d']

def encode (c : Char) : List Char :=
  match letter? c with
  | some l => ['\\', l]
  | none =>
    if 0x20 ≤ c.toNat && c.toNat < 0x7F then [c]
    else if hidden.contains c.toNat then codePoint c
    else [c]

/-- A text in quotes. -/
def quote (cs : List Char) : List Char := '"' :: cs.flatMap encode ++ ['"']

end PatternEngine.Text.Quoted
