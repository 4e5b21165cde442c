import PatternEngine.Bytes
/-!
# Handle tables

A handle table keeps values under small numbers. Numbers of values that have been removed are
given out again, the one that was freed last first. Zero is never given out.
-/
namespace PatternEngine

/-- The number of a value in a handle table (`PatternHandle`); zero stands for none. -/
structure Handle where
  number : Nat
  deriving DecidableEq, Repr

namespace Handle

def none : Handle := ⟨0⟩

def isNone (h : Handle) : Bool := h.number == 0

def text (h : Handle) : Bytes := PatternEngine.text "#" ++ Bytes.ofNat h.number

/-- The place of a handle in the list of entries. -/
def index? (h : Handle) : Option Nat := if h.number = 0 then .none else some (h.number - 1)

end Handle

/-- The largest number that is given out: handles have to fit into 32 bits with a sign. -/
def maxHandle : Nat := Nat.pow 2 31 - 1

/-- Values under handles. -/
structure HandleTable (α : Type) where
  /-- the values in the order of their numbers, with gaps where values were removed -/
  entries : List (Option α) := []
  /-- the handles of the gaps, the last to be freed first -/
  free : List Handle := []
  limit : Nat := maxHandle

namespace HandleTable

variable {α : Type}

/-- Keeps a value; there is no handle for it when all numbers up to the limit are taken. -/
def insert (t : HandleTable α) (value : α) : Option (Handle × HandleTable α) :=
  match t.free with
  | h :: free => some (h, { t with entries := t.entries.set (h.number - 1) (some value), free })
  | [] =>
    -- no gap is left, so all numbers up to the length are taken
    let number := t.entries.length + 1
    if number ≤ t.limit then some (⟨number⟩, { t with entries := t.entries ++ [some value] })
    else none

def get? (t : HandleTable α) (h : Handle) : Option α :=
  h.index?.bind fun i => (t.entries[i]?).join

/-- Removes the value of a handle; without one there is nothing to remove. -/
def remove (t : HandleTable α) (h : Handle) : Option (α × HandleTable α) :=
  match h.index?, t.get? h with
  | some i, some value =>
    some (value, { t with entries := t.entries.set i none, free := h :: t.free })
  | _, _ => none

def size (t : HandleTable α) : Nat := t.entries.length - t.free.length

end HandleTable

end PatternEngine
