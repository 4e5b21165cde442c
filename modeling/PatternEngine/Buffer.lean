import PatternEngine.Text.Quoted
/-!
# Buffers

A buffer is a byte string that an engine has handed out and that its receiver owns. It may be
read as text.
-/
namespace PatternEngine.Buffer

open PatternEngine.Text

/-- The bytes as text, if they are valid (`to_str`). -/
def toText? (buffer : Bytes) : Option Bytes :=
  if Utf8.isValid buffer then some buffer else none

/-- A description of the buffer for a log (`fmt`). -/
def describe (buffer : Bytes) : Bytes :=
  let characters := (Utf8.pieces buffer).map (·.getD Utf8.replacement)
  text "OwnedBuffer(" ++ Utf8.ofChars (Quoted.quote characters) ++ text ")"

end PatternEngine.Buffer
