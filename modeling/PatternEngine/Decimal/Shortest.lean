import PatternEngine.Decimal.Double
/-!
# The shortest decimal text of a number

`shortest` finds the fewest decimal digits that still read back as the same number: for one,
two, … seventeen digits it takes the two neighbours of the number on that decimal grid and
tests in exact arithmetic whether they lie in the interval of reals that round to it. `Layout`
then says how digits and exponent are laid out as text.
-/
namespace PatternEngine.Decimal

/-- A magnitude `digits * 10 ^ exponent`. -/
structure Scientific where
  digits : Nat
  exponent : Int
  deriving DecidableEq, Repr

/-- The reals that round to one number: `low / den` to `high / den` around `mid / den`, the
ends included when `closed`. -/
structure Interval where
  low : Nat
  mid : Nat
  high : Nat
  den : Nat
  closed : Bool

namespace Interval

/-- The interval of a positive finite number. Below a power of two the gap is half as wide. -/
def ofDouble (x : Double) : Interval :=
  let m := x.mantissa
  let low := if x.fraction == 0 && x.biased > 1 then 4 * m - 1 else 4 * m - 2
  let closed := m % 2 == 0
  match x.exponent - 2 with
  | .ofNat e => ⟨low * Nat.pow 2 e, 4 * m * Nat.pow 2 e, (4 * m + 2) * Nat.pow 2 e, 1, closed⟩
  | .negSucc e => ⟨low, 4 * m, 4 * m + 2, Nat.pow 2 (e + 1), closed⟩

/-- The scaled comparison of `candidate * 10 ^ exponent` with the three points: both sides
multiplied by what clears the denominators. -/
def scaled (i : Interval) (candidate : Nat) (exponent : Int) : Nat × Nat × Nat × Nat :=
  match exponent with
  | .ofNat e => (candidate * Nat.pow 10 e * i.den, i.low, i.mid, i.high)
  | .negSucc e =>
    let s := Nat.pow 10 (e + 1)
    (candidate * i.den, i.low * s, i.mid * s, i.high * s)

/-- Whether a decimal reads back as the number. -/
def contains (i : Interval) (candidate : Nat) (exponent : Int) : Bool :=
  let (c, low, _, high) := i.scaled candidate exponent
  if i.closed then low ≤ c && c ≤ high else low < c && c < high

/-- Twice the distance of a decimal from the number, in the scaled unit. -/
def distance (i : Interval) (candidate : Nat) (exponent : Int) : Nat :=
  let (c, _, mid, _) := i.scaled candidate exponent
  if c ≤ mid then mid - c else c - mid

/-- The power of ten just above the number: `10 ^ (p - 1) ≤ mid / den < 10 ^ p`. -/
def magnitude (i : Interval) : Int :=
  if i.den ≤ i.mid then ((Nat.toDigits 10 (i.mid / i.den)).length : Int)
  else
    let rec zeros : Nat → Nat → Nat
      | 0, k => k
      | fuel + 1, k => if i.den ≤ i.mid * Nat.pow 10 k then k else zeros fuel (k + 1)
    1 - (zeros 400 1 : Int)

def below (i : Interval) (exponent : Int) : Nat :=
  match exponent with
  | .ofNat e => i.mid / (i.den * Nat.pow 10 e)
  | .negSucc e => i.mid * Nat.pow 10 (e + 1) / i.den

/-- The decimal of the interval on the grid of this exponent that is nearest to the number. -/
def onGrid (i : Interval) (exponent : Int) : Option Scientific :=
  let d := i.below exponent
  match i.contains d exponent, i.contains (d + 1) exponent with
  | true, true =>
    if i.distance d exponent ≤ i.distance (d + 1) exponent then some ⟨d, exponent⟩
    else some ⟨d + 1, exponent⟩
  | true, false => some ⟨d, exponent⟩
  | false, true => some ⟨d + 1, exponent⟩
  | false, false => none

end Interval

def Scientific.trim : Nat → Scientific → Scientific
  | 0, s => s
  | fuel + 1, s =>
    if s.digits % 10 == 0 && s.digits != 0 then trim fuel ⟨s.digits / 10, s.exponent + 1⟩ else s

/-- The shortest decimal that reads back as a finite number's magnitude. -/
def shortest (x : Double) : Scientific :=
  if x.mantissa == 0 then ⟨0, 0⟩
  else
    let i := Interval.ofDouble x
    let p := i.magnitude
    let found := (List.range 17).findSome? fun (n : Nat) => i.onGrid (p - (n + 1 : Nat))
    (found.getD ⟨i.below (p - 17), p - 17⟩).trim 20

/-- Digits with a decimal point `point` places from their left end, padded with zeros. -/
def positional (digits : Bytes) (point : Int) : Bytes :=
  match point with
  | .ofNat p =>
    if p = 0 then text "0." ++ digits
    else if digits.length ≤ p then digits ++ List.replicate (p - digits.length) 48
    else digits.take p ++ text "." ++ digits.drop p
  | .negSucc p => text "0." ++ List.replicate (p + 1) 48 ++ digits

def plainText (x : Double) : Bytes :=
  if x.isNaN then text "NaN"
  else
    let sign := if x.isNegative then text "-" else []
    if !x.isFinite then sign ++ text "inf"
    else
      let s := shortest x
      let digits := Bytes.ofNat s.digits
      if s.digits == 0 then sign ++ text "0"
      else sign ++ positional digits (digits.length + s.exponent)

/-- The text of a finite number in a document: positional when the point falls at most
sixteen digits into the number or less than five zeros before it, otherwise one digit before
the point and a signed exponent. Whole numbers keep a final `.0`. -/
def documentText (x : Double) : Bytes :=
  let sign := if x.isNegative then text "-" else []
  let s := shortest x
  let digits := Bytes.ofNat s.digits
  let point : Int := digits.length + s.exponent
  if s.digits == 0 then sign ++ text "0.0"
  else if 0 ≤ s.exponent && point ≤ 16 then sign ++ positional digits point ++ text ".0"
  else if -5 < point && point ≤ 16 then sign ++ positional digits point
  else
    let head := digits.take 1
    let tail := digits.drop 1
    let power := point - 1
    let mantissa := if tail.isEmpty then head else head ++ text "." ++ tail
    let mark := if power < 0 then text "e" else text "e+"
    sign ++ mantissa ++ mark ++ Bytes.ofInt power

end PatternEngine.Decimal
