import PatternEngine.Bytes
/-!
# Binary floating point numbers

A number is kept as its 64 bits: a sign, eleven bits of exponent, fifty-two of fraction. Every
question about it is answered in exact integer arithmetic on those parts.
-/
namespace PatternEngine.Decimal

/-- A double-precision number, as its bit pattern. -/
structure Double where
  bits : UInt64
  deriving DecidableEq, Repr, Inhabited

namespace Double

def isNegative (x : Double) : Bool := x.bits.toNat ≥ Nat.pow 2 63

/-- The eleven exponent bits. -/
def biased (x : Double) : Nat := x.bits.toNat / Nat.pow 2 52 % 2048

/-- The fifty-two fraction bits. -/
def fraction (x : Double) : Nat := x.bits.toNat % Nat.pow 2 52

def isFinite (x : Double) : Bool := x.biased != 2047

def isNaN (x : Double) : Bool := x.biased == 2047 && x.fraction != 0

/-- The magnitude is `mantissa * 2 ^ exponent` (of a finite number). -/
def mantissa (x : Double) : Nat :=
  if x.biased == 0 then x.fraction else x.fraction + Nat.pow 2 52

def exponent (x : Double) : Int :=
  if x.biased == 0 then -1074 else (x.biased : Int) - 1075

/-- The magnitude as a quotient of natural numbers. -/
def quotient (x : Double) : Nat × Nat :=
  match x.exponent with
  | .ofNat e => (x.mantissa * Nat.pow 2 e, 1)
  | .negSucc e => (x.mantissa, Nat.pow 2 (e + 1))

def maxInteger : Int := Nat.pow 2 63 - 1

def minInteger : Int := -(Nat.pow 2 63)

/-- The integer that a number is, when it is a whole number of 64 bits. -/
def toInt? (x : Double) : Option Int :=
  if !x.isFinite then none
  else
    let (num, den) := x.quotient
    if num % den != 0 then none
    else
      let n : Int := if x.isNegative then -(num / den : Nat) else (num / den : Nat)
      if minInteger ≤ n ∧ n ≤ maxInteger then some n else none

/-- The least natural number that is not below a number: zero for NaN and for every negative
number, and `2 ^ 64 - 1` when there is no smaller 64-bit one. -/
def ceilNat (x : Double) : Nat :=
  if x.isNaN || x.isNegative then 0
  else if !x.isFinite then Nat.pow 2 64 - 1
  else
    let (num, den) := x.quotient
    min ((num + (den - 1)) / den) (Nat.pow 2 64 - 1)

/-- The double nearest to a natural number, as a natural number; a tie goes to the even
mantissa. Numbers of at most 53 bits are their own nearest. -/
def nearestNat (n : Nat) : Nat :=
  let excess := n.log2 + 1 - 53
  if excess = 0 then n
  else
    let unit := Nat.pow 2 excess
    let low := n / unit
    let rest := n % unit
    let up := rest * 2 > unit || (rest * 2 == unit && low % 2 == 1)
    (if up then low + 1 else low) * unit

end Double

end PatternEngine.Decimal
