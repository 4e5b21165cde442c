import PatternEngine.FileSystem
/-!
# The world outside

What operations on files read and write: the file system and the three standard streams. A writer
collects bytes in a buffer and writes them at its own place in the file; two writers to one file
therefore write over each other.
-/
namespace PatternEngine

/-- The file system, what is left of the standard input, and what has been written. -/
structure World where
  files : FileSystem
  stdin : Bytes := []
  stdout : Bytes := []
  stderr : Bytes := []

/-- A writer: how far it has written, and the bytes in its buffer, newest first. -/
structure Writer where
  offset : Nat := 0
  buffered : Nat := 0
  buffer : Bytes := []

namespace Writer

def capacity : Nat := 8192

/-- Contents with other bytes written over them from an offset on. -/
def overwrite (contents : Bytes) (offset : Nat) (bytes : Bytes) : Bytes :=
  contents.take offset ++ bytes ++ contents.drop (offset + bytes.length)

def flush (w : Writer) (contents : Bytes) : Writer × Bytes :=
  ({ offset := w.offset + w.buffered }, overwrite contents w.offset w.buffer.reverse)

/-- Takes bytes into the buffer if they fit there, and otherwise writes it out first. What would
fill a buffer alone is written at once. -/
def write (w : Writer) (bytes contents : Bytes) : Writer × Bytes :=
  let size := bytes.length
  let (w, contents) := if capacity - w.buffered < size then w.flush contents else (w, contents)
  if capacity ≤ size then
    ({ w with offset := w.offset + size }, overwrite contents w.offset bytes)
  else ({ w with buffered := w.buffered + size, buffer := bytes.reverse ++ w.buffer }, contents)

end Writer

end PatternEngine
