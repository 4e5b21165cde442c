import PatternEngine.Engine.Basic
/-!
# The memory governor

A limit on memory is a ceiling above what was in use when it was set. Before each match the
memory in use is compared with the ceiling, and above it garbage is collected.
-/
namespace PatternEngine.Engine

variable {σ : Type}

/-- The smallest limit that is accepted, in megabytes. -/
def minLimit : Nat := 8

structure Usage where
  megabytes : Nat
  kilobytes : Nat
  deriving DecidableEq, Repr

/-- Calls the collector with an option (`collector_call`). -/
def collectorCall (files : FileSystem) (option : String) : Action σ (List Value) := do
  call (← get).slots.collector "collectgarbage" files [.str (text option)]

def collect (files : FileSystem) : Action σ Unit := do
  let _ ← collectorCall files "collect"

/-- The number of kilobytes that a count stands for: no less than it, and never negative. -/
def reading? : Value → Option Nat
  | .int n => some (min (Decimal.Double.nearestNat n.toNat) (Nat.pow 2 64 - 1))
  | .float x => some x.ceilNat
  | _ => none

/-- The memory in use (`usage_kb`). Only the first of the values returned counts. -/
def usage (files : FileSystem) : Action σ Nat := do
  match (← collectorCall files "count").head?.bind reading? with
  | some n => return n
  | none => violation "collectgarbage" (text "count did not return a number")

/-- Sets the limit (`set_limit`); zero removes it. Garbage is collected twice first, for the second
collection takes what the first has set free. -/
def setLimit (files : FileSystem) (megabytes : Nat) : Action σ Usage := do
  if megabytes != 0 && megabytes < minLimit then throw (.limitTooSmall megabytes minLimit)
  collect files
  collect files
  let kilobytes ← usage files
  let ceiling := if megabytes = 0 then 0 else kilobytes + megabytes * 1024
  -- nothing can fail from here on, and before this the old limit holds
  modify fun engine => { engine with limit := ⟨megabytes, ceiling⟩ }
  return ⟨megabytes, kilobytes⟩

/-- The limit and the memory in use (`query_limit`). -/
def queryLimit (files : FileSystem) : Action σ Usage := do
  return ⟨(← get).limit.megabytes, ← usage files⟩

/-- Collects garbage if more memory is in use than the ceiling allows (`collect_if_needed`). -/
def govern (files : FileSystem) : Action σ Unit := do
  let ceiling := (← get).limit.ceiling
  -- without a limit the collector is not even asked
  if ceiling = 0 then return
  if ceiling < (← usage files) then collect files

end PatternEngine.Engine
